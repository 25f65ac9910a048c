import MongooseIM.Erlang.Lists

/-! # Connections of global distribution: the manager

`mod_global_distrib_server_mgr` keeps one pool of connections for each endpoint of a remote server.
The manager is the record `State`; around it are its mailbox, its timers, the pools under the
supervisor and the replies it has given. What it asks of the outside while it handles a message is
in `Answers`. -/

namespace MongooseIM.GlobalDistrib.ServerMgr

open Erlang

/-- `endpoint()`, as `resolve_endpoints/1` returns it. -/
structure Endpoint where
  ip : String
  port : ℕ
  deriving DecidableEq

/-- `endpoint_to_atom/1` -/
def endpointToAtom (endpoint : Endpoint) : String :=
  endpoint.ip ++ "_" ++ toString endpoint.port

/-- `#endpoint_info{}` -/
structure EndpointInfo where
  endpoint : Endpoint
  connPoolRef : String
  connPoolPid : ℕ
  monitorRef : ℕ

/-- A change of `endpoints_changes()`. -/
inductive Change
  | enable (endpoint : Endpoint)
  | disable (endpoint : Endpoint)

/-- The tag of a `gen_server` call. -/
abbrev Caller := ℕ

/-- `#state{}`, without what never changes. -/
structure State where
  enabled : List EndpointInfo := []
  /-- The endpoints out of use whose pools are still open. -/
  disabled : List EndpointInfo := []
  pendingEndpoints : List Change := []
  pendingGets : List Caller := []
  /-- The calls that wait for the changes to be made. -/
  pendingEndpointsListeners : List Caller := []
  /-- The last result of `get_endpoints/1`. -/
  lastEndpoints : Option (List Endpoint) := none

/-- The options of the connections. -/
structure Opts where
  refreshInterval : ℕ
  refreshIntervalWhenDisconnected : ℕ
  gcInterval : ℕ

/-- What a caller asks for. -/
inductive Request
  | getConnectionPool
  /-- A refresh, to be answered when the changes are made. -/
  | forceRefresh
  | closeDisabled
  | getEnabledEndpoints
  | getDisabledEndpoints
  | pingProc
  | getStateInfo
  deriving DecidableEq

/-- What a caller gets. -/
inductive Reply
  | ok
  /-- `{ok, PoolRef}` -/
  | pool (connPoolRef : String)
  | endpoints (endpoints : List Endpoint)
  | pong
  | stateInfo (state : State)

/-- The timers that the manager starts for itself. -/
inductive Timer
  | refresh
  | disabledGc
  deriving DecidableEq

/-- A message to the manager. -/
inductive Message
  /-- `{continue, initial_refresh}`, which comes before every other one. -/
  | initialRefresh
  | call (caller : Caller) (request : Request)
  | timer (timer : Timer)
  | processPendingGet
  | processPendingEndpoint
  | down (monitorRef : ℕ)
  /-- `call_timeout`, and what is not expected: these are logged. -/
  | unexpected
  deriving DecidableEq

/-- `cpool:get_connection/2` -/
inductive Probe
  | connection
  /-- `error:no_connections` -/
  | noConnections
  | raises
  deriving DecidableEq

/-- What the outside answers while one message is handled. -/
structure Answers where
  /-- The result of `get_endpoints/1`; `none` where it raises. -/
  resolved : Option (List Endpoint) := none
  started : Bool := true
  /-- The number that `rand:uniform/1` gives. -/
  picked : ℕ := 0
  probe : String → Probe := fun _ => .connection

/-- The pools under the supervisor, and the monitors that the manager has of them. -/
structure Pools where
  children : List (Endpoint × ℕ) := []
  monitors : List (ℕ × ℕ) := []
  /-- The monitors whose `'DOWN'` is still on its way. -/
  downs : List ℕ := []
  next : ℕ := 0

variable (pools : Pools) (a : Answers)

/-- A pool starts if `cpool` starts it and the supervisor has none of that name: a pool is a
temporary child, which the supervisor forgets when it ends. -/
def Pools.Starts (endpoint : Endpoint) : Prop :=
  a.started = true ∧ endpoint ∉ pools.children.map Prod.fst

instance (pools : Pools) (a : Answers) (endpoint : Endpoint) :
    Decidable (pools.Starts a endpoint) := by
  unfold Pools.Starts
  infer_instance

/-- `start_pool/4` and `monitor/2` -/
def Pools.startPool (endpoint : Endpoint) : Option (EndpointInfo × Pools) :=
  if pools.Starts a endpoint then
    some (⟨endpoint, endpointToAtom endpoint, pools.next, pools.next + 1⟩,
      { pools with
        children := (endpoint, pools.next) :: pools.children
        monitors := (pools.next + 1, pools.next) :: pools.monitors
        next := pools.next + 2 })
  else none

/-- A pool ends, by itself or in `stop_pool/2`. -/
def Pools.ends (endpoint : Endpoint) : Pools :=
  match keytake Prod.fst endpoint pools.children with
  | none => pools
  | some ((_, pid), children) =>
    { pools with
      children := children
      monitors := pools.monitors.filter fun monitor => monitor.2 ≠ pid
      downs := pools.downs ++
        (pools.monitors.filter fun monitor => monitor.2 = pid).map Prod.fst }

/-- `stop_disabled/2`: an error is caught. -/
def Pools.stopDisabled (endpoint : Endpoint) : Pools :=
  pools.ends endpoint

/-- The manager with what is around it. -/
structure System extends State where
  mailbox : List Message := []
  timers : List (Timer × ℕ) := []
  pools : Pools := {}
  calls : List (Caller × Request) := []
  replies : List (Caller × Reply) := []
  crashed : Bool := false

/-- `init/1` -/
def init : System where
  mailbox := [.initialRefresh]

variable (s : System)

/-- `gen_server:reply/2` -/
def System.reply (caller : Caller) (reply : Reply) : System :=
  { s with replies := s.replies ++ [(caller, reply)] }

/-- `self() ! Message` -/
def System.send (message : Message) : System :=
  { s with mailbox := s.mailbox ++ [message] }

variable (opts : Opts)

/-- `schedule_refresh/1`: more often while there is no endpoint. -/
def scheduleRefresh (s : System) : System :=
  match s.lastEndpoints with
  | some (_ :: _) => { s with timers := s.timers ++ [(.refresh, opts.refreshInterval)] }
  | _ => { s with timers := s.timers ++ [(.refresh, opts.refreshIntervalWhenDisconnected)] }

/-- `schedule_gc/1` -/
def scheduleGc (s : System) : System :=
  { s with timers := s.timers ++ [(.disabledGc, opts.gcInterval)] }

variable (changes : List Change)

/-- `maybe_schedule_process_endpoint/1` -/
def maybeScheduleProcessEndpoint (s : System) : System :=
  match changes with
  | [] => s
  | _ :: _ => s.send .processPendingEndpoint

/-- `maybe_schedule_process_get/1`; it crashes with `enabled_is_empty`. -/
def maybeScheduleProcessGet : Option System :=
  match s.pendingGets, s.enabled with
  | [], _ => some s
  | _ :: _, [] => none
  | _ :: _, _ :: _ => some (s.send .processPendingGet)

/-- `maybe_notify_endpoints_listeners/1` -/
def maybeNotifyEndpointsListeners : System :=
  match s.pendingEndpoints with
  | [] =>
    { s with
      replies := s.replies ++ s.pendingEndpointsListeners.map fun listener => (listener, .ok)
      pendingEndpointsListeners := [] }
  | _ :: _ => s

variable (a : Answers)

/-- `pick_connection_pool/1`, where there is an endpoint in use. -/
def pickConnectionPool (info : EndpointInfo) (enabled : List EndpointInfo) : String :=
  let n := a.picked % (enabled.length + 1)
  ((info :: enabled).get ⟨n, Nat.mod_lt _ (Nat.succ_pos _)⟩).connPoolRef

/-- `resolve_pending/2` -/
def resolvePending : List Endpoint → List EndpointInfo → List Change
  | [], toDisable => toDisable.map fun info => .disable info.endpoint
  | maybeToEnable :: newEndpoints, oldEnabled =>
    match keytake EndpointInfo.endpoint maybeToEnable oldEnabled with
    | none => .enable maybeToEnable :: resolvePending newEndpoints oldEnabled
    | some (_, oldEnabled) => resolvePending newEndpoints oldEnabled

/-- `refresh_connections/1`; it crashes where the resolution of the endpoints raises. -/
def refreshConnections (s : System) : Option System := do
  let newEndpoints ← a.resolved
  let newPending := resolvePending newEndpoints s.enabled
  let scheduled :=
    match s.pendingEndpoints with
    | [] => maybeScheduleProcessEndpoint newPending s
    | _ :: _ => s
  return { scheduled with
    pendingEndpoints := s.pendingEndpoints ++ newPending
    lastEndpoints := some newEndpoints }

/-- `enable/2`; `none` is an error, which the caller logs. -/
def enable (endpoint : Endpoint) (s : System) : Option System :=
  match keytake EndpointInfo.endpoint endpoint s.disabled with
  | none =>
    (s.pools.startPool a endpoint).map fun (info, pools) =>
      { s with enabled := info :: s.enabled, pools := pools }
  | some (info, disabled) => some { s with enabled := info :: s.enabled, disabled := disabled }

/-- `disable/2`; the same. -/
def disable (endpoint : Endpoint) (s : System) : Option System :=
  (keytake EndpointInfo.endpoint endpoint s.enabled).map fun (info, enabled) =>
    { s with enabled := enabled, disabled := info :: s.disabled }

/-- `handle_continue/2` -/
def handleContinue (a : Answers) (s : System) : Option System := do
  let s ← refreshConnections a s
  return scheduleGc opts (scheduleRefresh opts s)

/-- The clauses of `handle_call/3` for `get_connection_pool`. -/
def getConnectionPool (caller : Caller) (s : System) : System :=
  match s.enabled with
  | [] => { s with pendingGets := s.pendingGets ++ [caller] }
  | info :: enabled => s.reply caller (.pool (pickConnectionPool a info enabled))

/-- The clauses of `handle_call/3` for `force_refresh`. -/
def forceRefresh (caller : Caller) (s : System) : Option System :=
  match s.pendingEndpointsListeners with
  | [] => do
    let s ← refreshConnections a s
    match s.pendingEndpoints with
    | [] => return s.reply caller .ok
    | _ :: _ => return { s with pendingEndpointsListeners := [caller] }
  | listener :: listeners =>
    some { s with pendingEndpointsListeners := caller :: listener :: listeners }

/-- `handle_call/3` -/
def handleCall (caller : Caller) (s : System) : Request → Option System
  | .getConnectionPool => some (getConnectionPool a caller s)
  | .forceRefresh => forceRefresh a caller s
  | .closeDisabled =>
    let pools := s.disabled.foldl (fun pools info => pools.stopDisabled info.endpoint) s.pools
    some ({ s with pools := pools }.reply caller .ok)
  | .getEnabledEndpoints =>
    some (s.reply caller (.endpoints (s.enabled.map EndpointInfo.endpoint)))
  | .getDisabledEndpoints =>
    some (s.reply caller (.endpoints (s.disabled.map EndpointInfo.endpoint)))
  | .pingProc => some (s.reply caller .pong)
  | .getStateInfo => some (s.reply caller (.stateInfo s.toState))

/-- `handle_info/2` for `refresh`. -/
def refresh (a : Answers) (s : System) : Option System := do
  let s ← match s.pendingEndpoints with
    | [] => refreshConnections a s
    | _ :: _ => some s
  return scheduleRefresh opts s

/-- `handle_info/2` for `disabled_gc`: the pools without a connection are stopped. -/
def disabledGc (a : Answers) (s : System) : Option System := do
  let pools ← s.disabled.foldlM (fun pools info =>
    match a.probe info.connPoolRef with
    | .connection => some pools
    | .noConnections => some (pools.stopDisabled info.endpoint)
    | .raises => none) s.pools
  return scheduleGc opts { s with pools := pools }

/-- `handle_info/2` for `process_pending_get`. -/
def processPendingGet (s : System) : Option System :=
  match s.enabled, s.pendingGets with
  | [], _ => some s
  | info :: enabled, caller :: pendingGets =>
    maybeScheduleProcessGet
      ({ s with pendingGets := pendingGets }.reply caller
        (.pool (pickConnectionPool a info enabled)))
  | _ :: _, [] => maybeScheduleProcessGet s

/-- The end of both clauses of `handle_info/2` for `process_pending_endpoint`. -/
def changeApplied (s : System) : System :=
  maybeNotifyEndpointsListeners
    { maybeScheduleProcessEndpoint changes s with pendingEndpoints := changes }

/-- `handle_info/2` for `process_pending_endpoint`. -/
def processPendingEndpoint (s : System) : Option System :=
  match s.pendingEndpoints with
  | .enable endpoint :: changes => do
    -- the calls are served also where the endpoint could not be enabled
    let s ← maybeScheduleProcessGet ((enable a endpoint s).getD s)
    return changeApplied changes s
  | .disable endpoint :: changes => some (changeApplied changes ((disable endpoint s).getD s))
  | [] => some s

/-- `handle_info/2` for `'DOWN'`. -/
def down (monitorRef : ℕ) (s : System) : System :=
  match keytake EndpointInfo.monitorRef monitorRef s.enabled with
  | some (_, enabled) => { s with enabled := enabled }
  | none =>
    match keytake EndpointInfo.monitorRef monitorRef s.disabled with
    | some (_, disabled) => { s with disabled := disabled }
    | none => s

/-- A message is handled; `none` where the process crashes. -/
def handle (s : System) : Message → Option System
  | .initialRefresh => handleContinue opts a s
  | .call caller request => handleCall a caller s request
  | .timer .refresh => refresh opts a s
  | .timer .disabledGc => disabledGc opts a s
  | .processPendingGet => processPendingGet a s
  | .processPendingEndpoint => processPendingEndpoint a s
  | .down monitorRef => some (down monitorRef s)
  | .unexpected => some s

/-- What happens next. -/
inductive Event
  | call (caller : Caller) (request : Request)
  | timeout (timer : Timer) (seconds : ℕ)
  | poolEnds (endpoint : Endpoint)
  /-- The `'DOWN'` of a pool comes. -/
  | arrive (monitorRef : ℕ)
  | unexpected
  | handle (a : Answers)

/-- One step; `none` where the event is not possible. -/
def step (s : System) : Event → Option System
  | .call caller request =>
    if caller ∈ s.calls.map Prod.fst then none
    else some ({ s with calls := s.calls ++ [(caller, request)] }.send (.call caller request))
  | .timeout timer seconds =>
    if (timer, seconds) ∈ s.timers then
      some ({ s with timers := s.timers.erase (timer, seconds) }.send (.timer timer))
    else none
  | .poolEnds endpoint => some { s with pools := s.pools.ends endpoint }
  | .arrive monitorRef =>
    if monitorRef ∈ s.pools.downs then
      some ({ s with pools.downs := s.pools.downs.erase monitorRef }.send (.down monitorRef))
    else none
  | .unexpected => some (s.send .unexpected)
  | .handle a =>
    match s.crashed, s.mailbox with
    | false, message :: mailbox =>
      some ((handle opts a { s with mailbox := mailbox } message).getD { s with crashed := true })
    | _, _ => none

end MongooseIM.GlobalDistrib.ServerMgr
