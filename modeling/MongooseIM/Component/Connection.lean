import MongooseIM.Domain.SubdomainCore
import MongooseIM.Erlang.Lists
import MongooseIM.Transition.Run
import MongooseIM.Xmpp.Query

/-! # Connections of external components

A component that has proved its password is registered, so that stanzas for its domain are routed to
its connection. The table of components is a bag: that a domain is free is looked up before, and the
answer may be old when the component is written. A component that is a subdomain is registered for
a prefix, too, with each host type. -/

namespace MongooseIM.Component

open Domain.Subdomains Erlang Xmpp

/-- The process of a connection. -/
abbrev Pid := ℕ

/-- `conflict_behaviour` -/
inductive ConflictBehaviour
  | disconnect
  | kickOld
  deriving DecidableEq

/-- `listener_opts` -/
structure ListenerOpts where
  conflictBehaviour : ConflictBehaviour
  hiddenComponents : Bool
  checkFrom : Bool

/-- `#external_component{}` of this node. -/
structure ExternalComponent where
  domain : String
  /-- `handler`, the packet handler of a connection. -/
  handler : Pid
  isSubdomain : Bool
  isHidden : Bool
  deriving DecidableEq

/-- Who packets for a prefix are handed to. -/
inductive Handler
  /-- `mongoose_component`, for a connection. -/
  | component (pid : Pid)
  | other

/-- The host types, each once. -/
structure HostTypes (H : Type) where
  /-- `?ALL_HOST_TYPES` -/
  list : List H
  nodup : list.Nodup

/-- `?RETRIES` -/
def retries : ℕ := 3

/-- Where a connection is. -/
inductive Phase (H : Type)
  | waitForStream
  | waitForHandshake
  /-- In `register_routes/1`: the host types that are left, and the retries. -/
  | registering (todo : List H) (retries : ℕ)
  /-- `has_dynamic_domains/1` was false. -/
  | noDynamicDomain (retries : ℕ)
  /-- `has_domain_route/1` was false, too. -/
  | noDomainRoute (retries : ℕ)
  /-- `has_component_registered/2` was false, too. -/
  | notRegistered (retries : ℕ)
  /-- `register_routes/1` has failed. -/
  | conflict (retries : ℕ)
  /-- In `handle_registration_conflict/4`: the connections to be stopped, and whether all before
  were. -/
  | kicking (pids : List Pid) (allOk : Bool) (retries : ℕ)
  /-- `stop_process/1` waits for the first of the connections. -/
  | waiting (pid : Pid) (pids : List Pid) (allOk : Bool) (retries : ℕ)
  /-- Before `do_disconnect_on_conflict/1`. -/
  | disconnecting
  | streamEstablished (component : ExternalComponent)
  /-- In `unregister_routes/1`: the host types that are left. -/
  | unregistering (todo : List H) (component : ExternalComponent)
  | terminated
  deriving DecidableEq

/-- `#component_data{}` with the state of the process. -/
structure Connection (H : Type) where
  lserver : String
  isSubdomain : Bool
  listenerOpts : ListenerOpts
  phase : Phase H

/-- A stanza that was passed to the router. -/
structure Routed where
  pid : Pid
  /-- `From`; `none` is `error`. -/
  fromJid : Option Jid
  /-- `To` -/
  toJid : Jid
  el : Element

/-- The connections of a node and the tables they share. -/
structure State (H : Type) where
  connections : Pid → Connection H
  /-- The table `external_component`. -/
  components : List ExternalComponent
  registrations : H × SubdomainPattern → Option Handler
  /-- The connections with a cast `{exit, Reason}` in their mailbox. -/
  exits : Pid → Bool
  /-- What was passed to the router, the last one first. -/
  routed : List Routed

/-- What happens next. -/
inductive Event
  | streamStart (pid : Pid) (lserver : String) (isSubdomain : Bool)
  /-- `handle_handshake/2`, with what `hash_equals/2` says. -/
  | handshake (pid : Pid) (equal : Bool)
  /-- `register_subdomain/3` is called. -/
  | registerSubdomain (pid : Pid)
  /-- `has_dynamic_domains/1`, with what it says. -/
  | hasDynamicDomains (pid : Pid) (answer : Bool)
  /-- `has_domain_route/1`, with what it says. -/
  | hasDomainRoute (pid : Pid) (answer : Bool)
  | hasComponentRegistered (pid : Pid)
  | registerComponents (pid : Pid)
  /-- `lookup_routes/1` and what follows from it. -/
  | lookupRoutes (pid : Pid)
  /-- `exit/2` is cast to the next connection. -/
  | castExit (pid : Pid)
  /-- The message `DOWN` of this connection comes. -/
  | down (pid : Pid)
  | timeout (pid : Pid)
  | kicked (pid : Pid)
  /-- `do_disconnect_on_conflict/1` -/
  | disconnect (pid : Pid)
  /-- A cast `{exit, Reason}` is taken from the mailbox. -/
  | exit (pid : Pid)
  /-- The stream or the socket ends, or a timer does. -/
  | close (pid : Pid)
  /-- `unregister_subdomain/2` is called. -/
  | unregisterSubdomain (pid : Pid)
  | unregisterComponent (pid : Pid)
  /-- A stanza in the state `stream_established`. -/
  | element (pid : Pid) (el : Element)

/-- The connection that acts. -/
def Event.pid : Event → Pid
  | streamStart pid _ _ | handshake pid _ | registerSubdomain pid | hasDynamicDomains pid _
  | hasDomainRoute pid _ | hasComponentRegistered pid | registerComponents pid | lookupRoutes pid
  | castExit pid | down pid | timeout pid | kicked pid | disconnect pid | exit pid | close pid
  | unregisterSubdomain pid | unregisterComponent pid | element pid _ => pid

variable {H : Type} (s : State H)

/-- The connection is in another phase. -/
def State.enter (pid : Pid) (phase : Phase H) : State H :=
  { s with
    connections := Function.update s.connections pid { s.connections pid with phase := phase } }

/-- `{prefix, <<SubDomain/binary, ".">>}` -/
def subdomainPrefix (lserver : String) : SubdomainPattern := .template (lserver ++ ".")

/-- The host types that `register_routes/1` and `unregister_routes/1` go through. -/
def Connection.hostTypes (hostTypes : HostTypes H) (conn : Connection H) : List H :=
  if conn.isSubdomain then hostTypes.list else []

/-- `try_register_routes/2` starts. -/
def tryRegisterRoutes (hostTypes : HostTypes H) (conn : Connection H) (retries : ℕ) : Phase H :=
  .registering (conn.hostTypes hostTypes) retries

/-- `lookup_component/1` -/
def lookupComponent (domain : String) (components : List ExternalComponent) :
    List ExternalComponent :=
  components.filter fun component => component.domain = domain ∧ component.isSubdomain = false

/-- The component that `register_routes/1` registers. -/
def Connection.component (conn : Connection H) (pid : Pid) : ExternalComponent where
  domain := conn.lserver
  handler := pid
  isSubdomain := conn.isSubdomain
  isHidden := conn.listenerOpts.hiddenComponents

variable (component : ExternalComponent) (components : List ExternalComponent)

/-- A record is written to the bag. -/
def registerComponents : List ExternalComponent :=
  if component ∈ components then components else component :: components

/-- A record is deleted from the bag. -/
def unregisterComponents : List ExternalComponent :=
  components.filter fun other => other ≠ component

/-- `terminate/3` starts: only an established stream unregisters its routes. -/
def terminate (hostTypes : HostTypes H) (conn : Connection H) : Phase H :=
  match conn.phase with
  | .streamEstablished component => .unregistering (conn.hostTypes hostTypes) component
  | _ => .terminated

/-- The process waits for events. -/
def Phase.idle : Phase H → Bool
  | .waitForStream | .waitForHandshake | .streamEstablished _ => true
  | _ => false

/-- `handle_stream_established/2`: what it passes to the router. -/
def handleStreamEstablished (fromBinary : String → Option Jid) (pid : Pid) (conn : Connection H)
    (el : Element) : Option Routed :=
  let newEl := el.withAttrs (removeAttr "xmlns" el.attrs)
  let fromJid := fromBinary (el.attrD "from" "")
  let isValidFromJid : Bool :=
    match conn.listenerOpts.checkFrom, fromJid with
    | true, some jid => jid.lserver = conn.lserver
    | _, _ => true
  match fromBinary (el.attrD "to" "") with
  | none => none
  | some toJid =>
    if isStanzaName el.name ∧ isValidFromJid then some ⟨pid, fromJid, toJid, newEl⟩ else none

/-! ## What the operations do -/

section Api

variable {hostTypes : HostTypes H} {fromBinary : String → Option Jid}

@[simp] theorem State.enter_self (pid : Pid) (phase : Phase H) :
    (s.enter pid phase).connections pid = { s.connections pid with phase := phase } :=
  Function.update_self pid _ _

theorem State.enter_of_ne {pid other : Pid} (phase : Phase H) (hne : other ≠ pid) :
    (s.enter pid phase).connections other = s.connections other :=
  Function.update_of_ne hne _ _

theorem nodup_hostTypes (hostTypes : HostTypes H) (conn : Connection H) :
    (conn.hostTypes hostTypes).Nodup := by
  unfold Connection.hostTypes
  split
  · exact hostTypes.nodup
  · exact List.nodup_nil

variable {component other : ExternalComponent} {components : List ExternalComponent}

theorem mem_registerComponents :
    other ∈ registerComponents component components ↔ other = component ∨ other ∈ components := by
  unfold registerComponents
  split
  · next hmem =>
    refine ⟨Or.inr, ?_⟩
    rintro (rfl | hother)
    · exact hmem
    · exact hother
  · exact List.mem_cons

theorem mem_unregisterComponents :
    other ∈ unregisterComponents component components ↔ other ∈ components ∧ other ≠ component := by
  simp [unregisterComponents]

/-- A stanza that is passed to the router, with its sender. -/
theorem handleStreamEstablished_eq_some {pid : Pid} {conn : Connection H} {el : Element}
    {routed : Routed} (h : handleStreamEstablished fromBinary pid conn el = some routed) :
    routed.pid = pid ∧ (conn.listenerOpts.checkFrom = true →
    ∀ jid, routed.fromJid = some jid → jid.lserver = conn.lserver) := by
  unfold handleStreamEstablished at h
  cases htoJid : fromBinary (el.attrD "to" "") with
  | none => simp [htoJid] at h
  | some toJid =>
    simp only [htoJid, Option.ite_none_right_eq_some, Option.some.injEq] at h
    obtain ⟨⟨-, hvalid⟩, rfl⟩ := h
    refine ⟨rfl, ?_⟩
    intro hcheck jid hjid
    have hjid : fromBinary (el.attrD "from" "") = some jid := hjid
    simpa [hcheck, hjid] using hvalid

end Api

/-! ## Steps -/

section Step

variable [DecidableEq H] (hostTypes : HostTypes H) (fromBinary : String → Option Jid)

/-- An event, where the connection is ready for it. -/
def step (s : State H) : Event → Option (State H)
  | .streamStart pid lserver isSubdomain =>
    match (s.connections pid).phase with
    | .waitForStream =>
      some { s with
        connections := Function.update s.connections pid
          { s.connections pid with
            lserver := lserver
            isSubdomain := isSubdomain
            phase := .waitForHandshake } }
    | _ => none
  | .handshake pid equal =>
    match (s.connections pid).phase with
    | .waitForHandshake =>
      some (s.enter pid
        (if equal then tryRegisterRoutes hostTypes (s.connections pid) retries else .terminated))
    | _ => none
  | .registerSubdomain pid =>
    match (s.connections pid).phase with
    | .registering (hostType :: todo) retries =>
      let key := (hostType, subdomainPrefix (s.connections pid).lserver)
      -- what it returns is not looked at
      let registrations :=
        if (s.registrations key).isNone then
          Function.update s.registrations key (some (.component pid))
        else s.registrations
      some { s.enter pid (.registering todo retries) with registrations := registrations }
    | _ => none
  | .hasDynamicDomains pid answer =>
    match (s.connections pid).phase with
    | .registering [] retries =>
      some (s.enter pid (if answer then .conflict retries else .noDynamicDomain retries))
    | _ => none
  | .hasDomainRoute pid answer =>
    match (s.connections pid).phase with
    | .noDynamicDomain retries =>
      some (s.enter pid (if answer then .conflict retries else .noDomainRoute retries))
    | _ => none
  | .hasComponentRegistered pid =>
    match (s.connections pid).phase with
    | .noDomainRoute retries =>
      let found := lookupComponent (s.connections pid).lserver s.components
      some (s.enter pid (if found = [] then .notRegistered retries else .conflict retries))
    | _ => none
  | .registerComponents pid =>
    match (s.connections pid).phase with
    | .notRegistered _ =>
      let component := (s.connections pid).component pid
      some { s.enter pid (.streamEstablished component) with
        components := registerComponents component s.components }
    | _ => none
  | .lookupRoutes pid =>
    match (s.connections pid).phase with
    | .conflict retries =>
      let routesInfo := lookupComponent (s.connections pid).lserver s.components
      some (s.enter pid
        (if (s.connections pid).listenerOpts.conflictBehaviour = .kickOld ∧ 0 < retries then
          .kicking (usort (routesInfo.map ExternalComponent.handler)) true retries
        else .disconnecting))
    | _ => none
  | .castExit pid =>
    match (s.connections pid).phase with
    | .kicking (other :: pids) allOk retries =>
      some { s.enter pid (.waiting other pids allOk retries) with
        exits := Function.update s.exits other true }
    | _ => none
  | .down pid =>
    match (s.connections pid).phase with
    | .waiting other pids allOk retries =>
      if (s.connections other).phase = .terminated then
        some (s.enter pid (.kicking pids allOk retries))
      else none
    | _ => none
  | .timeout pid =>
    match (s.connections pid).phase with
    | .waiting _ pids _ retries => some (s.enter pid (.kicking pids false retries))
    | _ => none
  | .kicked pid =>
    match (s.connections pid).phase with
    | .kicking [] allOk retries =>
      some (s.enter pid
        (if allOk then tryRegisterRoutes hostTypes (s.connections pid) (retries - 1)
        else .disconnecting))
    | _ => none
  | .disconnect pid =>
    match (s.connections pid).phase with
    | .disconnecting => some (s.enter pid .terminated)
    | _ => none
  | .exit pid =>
    if s.exits pid ∧ (s.connections pid).phase.idle then
      some (s.enter pid (terminate hostTypes (s.connections pid)))
    else none
  | .close pid =>
    if (s.connections pid).phase.idle then
      some (s.enter pid (terminate hostTypes (s.connections pid)))
    else none
  | .unregisterSubdomain pid =>
    match (s.connections pid).phase with
    | .unregistering (hostType :: todo) component =>
      let key := (hostType, subdomainPrefix (s.connections pid).lserver)
      some { s.enter pid (.unregistering todo component) with
        registrations := Function.update s.registrations key none }
    | _ => none
  | .unregisterComponent pid =>
    match (s.connections pid).phase with
    | .unregistering [] component =>
      some { s.enter pid .terminated with
        components := unregisterComponents component s.components }
    | _ => none
  | .element pid el =>
    match (s.connections pid).phase with
    | .streamEstablished _ =>
      match handleStreamEstablished fromBinary pid (s.connections pid) el with
      | some routed => some { s with routed := routed :: s.routed }
      | none => some s
    | _ => none

/-- No component is connected. Other modules have registered some of the prefixes. -/
def init (opts : Pid → ListenerOpts) (taken : H × SubdomainPattern → Bool) : State H where
  connections pid := ⟨"", false, opts pid, .waitForStream⟩
  components := []
  registrations key := if taken key then some .other else none
  exits _ := false
  routed := []

end Step

end MongooseIM.Component
