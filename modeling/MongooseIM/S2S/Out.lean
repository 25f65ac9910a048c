import MongooseIM.S2S.Dialback

/-! # Outgoing server streams

The state machine of `mongoose_s2s_out`, with the part of `gen_statem` that it relies on: events
that are postponed until the state changes, and timers. -/

namespace MongooseIM.S2S.Out

open Xmpp

/-! ## Data -/

/-- A stanza that is routed to the process, with its sender and recipient. -/
structure Stanza where
  sender : Jid
  recipient : Jid
  element : Element
  deriving DecidableEq

/-- `mode` in the `tls` options. -/
inductive TlsMode
  | tls
  | starttls
  | starttlsRequired
  deriving DecidableEq

/-- The options of outgoing streams. -/
structure Opts where
  /-- `tls`; `none` when it is not there. -/
  tls : Option TlsMode

/-- `process_type()` -/
inductive ProcessType
  | new
  | verify (s2sIn : ℕ) (key sid : String)

/-- `stream_state()` -/
inductive StreamState
  | streamStart
  | authenticated
  deriving DecidableEq

/-- `state()`; `wait_for_session_establishment` is never entered. -/
inductive State
  | connect
  | waitForStream (streamState : StreamState)
  | waitForFeatures (streamState : StreamState)
  | waitForStarttlsProceed
  | waitForAuthResult
  | waitForValidation
  | streamEstablished
  | bounceAndDisconnect
  deriving DecidableEq

/-- `#s2s_data{}`; of the socket, whether it is encrypted. -/
structure S2SData where
  hostType : String
  myname : String
  remoteServer : String
  /-- `mongoose_xmpp_socket:is_ssl/1` of the socket. -/
  isSsl : Bool
  processType : ProcessType
  streamid : String
  remoteStreamid : String := ""
  dialbackEnabled : Bool := true

/-- `data()` -/
inductive Data
  | fromTo (fromTo : FromTo)
  | s2sData (data : S2SData)

/-- What the rest of the node answers while an event is handled. -/
structure Env where
  /-- `mongoose_domain_api:get_host_type/1` -/
  getHostType : String → Option String
  /-- `open_socket/3`: whether the socket is encrypted, `none` for an error. -/
  openSocket : String → String → Option Bool
  handshake : Bool
  /-- `ejabberd_s2s:key/3` -/
  key : String → FromTo → String → String
  /-- `mongoose_bin:gen_from_crypto/0` -/
  newStreamid : String

/-- What the process does to the rest of the world. -/
inductive Effect
  | header (id recipient : String) (sender : Option String)
  | send (el : Element)
  | error (condition : String)
  /-- `?XML_STREAM_TRAILER` -/
  | trailer
  /-- `mongoose_s2s_in:send_validity_from_s2s_out/3` -/
  | sendValidity (s2sIn : ℕ) (isValid : Bool) (fromTo : FromTo)
  /-- `ejabberd_s2s:remove_connection/2` -/
  | removeConnection (fromTo : FromTo)

/-- The timers that an event starts. -/
structure Actions where
  stateTimeout : Bool := false
  streamTimeout : Bool := false
  /-- `wait_before_retry_timeout/1` -/
  waitBeforeRetry : Bool := false
  /-- `{timeout, activate_socket}` -/
  activateSocket : Bool := false

/-- The result of an event. -/
inductive Outcome
  | next (state : State) (data : Data) (actions : Actions) (effects : List Effect)
  | stop (effects : List Effect)

/-- The events other than stanzas. -/
inductive Event
  /-- The internal event `{connect, InitArgs}`. -/
  | connect (processType : ProcessType)
  /-- `#xmlstreamstart{}` -/
  | streamStart (attrs : List (String × String))
  /-- `#xmlel{}` -/
  | element (el : Element)
  /-- `#xmlstreamend{}` -/
  | streamEnd
  /-- A packet from the socket, and whether the shaper makes a pause. -/
  | packet (pause : Bool)
  | socketClosed
  /-- The cast `terminate_if_waiting_before_retry`. -/
  | terminateIfWaitingBeforeRetry
  /-- The cast `{exit, system_shutdown}`. -/
  | systemShutdown
  /-- The cast `{exit, Reason}`. -/
  | exit (reason : String)
  /-- The cast `{stop, Reason}`, or the exit of the supervisor. -/
  | stop
  /-- The call `get_state_info`. -/
  | getStateInfo
  | streamTimeout
  /-- The timeout `activate_socket`. -/
  | activateSocket
  /-- The timeout `wait_before_retry`. -/
  | waitBeforeRetry
  | stateTimeout
  | unknown

def nsServer : String := "jabber:server"
def nsServerDialback : String := "jabber:server:dialback"
def nsTls : String := "urn:ietf:params:xml:ns:xmpp-tls"
def nsSasl : String := "urn:ietf:params:xml:ns:xmpp-sasl"

section

variable (lib : Lib) (opts : Opts) (env : Env)

/-! ## The negotiation -/

variable (data : S2SData)

/-- `stream_header/1` -/
def streamHeader : Effect :=
  .header data.streamid data.remoteServer (if data.isSsl then some data.myname else none)

/-- `starttls/0` -/
def starttls : Element := .mk "starttls" [("xmlns", nsTls)] [] ""

/-- A state of the negotiation, which is left when the state timeout fires. -/
def waiting (state : State) (data : S2SData) (effects : List Effect) : Outcome :=
  .next state (.s2sData data) { stateTimeout := true } effects

/-- The event `connect`; the process crashes when the local domain is unknown. -/
def handleConnect (processType : ProcessType) (fromTo : FromTo) : Outcome :=
  match env.getHostType fromTo.localServer with
  | none => .stop []
  | some hostType =>
    match env.openSocket hostType fromTo.remoteServer with
    | none => .next .connect (.fromTo fromTo) { waitBeforeRetry := true } []
    | some isSsl =>
      let data : S2SData :=
        { hostType := hostType, myname := fromTo.localServer,
          remoteServer := fromTo.remoteServer, isSsl := isSsl, processType := processType,
          streamid := env.newStreamid }
      waiting (.waitForStream .streamStart) data [streamHeader data]

/-- `is_valid_from/2`, `is_valid_to/2` and `is_valid_dialback_ns/1`. -/
def isValidStreamStart (sender : String) (attrs : List (String × String)) : Bool :=
  lib.nameprep sender = some data.remoteServer &&
    (match attrs.lookup "to" with
      | none => true
      | some «to» => lib.nameprep «to» = some data.myname) &&
    match attrs.lookup "xmlns:db" with
      | none => true
      | some ns => ns = nsServerDialback

/-- `handle_stream_start/3` -/
def handleStreamStart (attrs : List (String × String)) (streamState : StreamState) : Outcome :=
  match attrs.lookup "xmlns", attrs.lookup "version", attrs.lookup "id", attrs.lookup "from" with
  | some ns, some version, some remoteStreamid, some sender =>
    if ns = nsServer ∧ version = "1.0" then
      if isValidStreamStart lib data sender attrs then
        waiting (.waitForFeatures streamState)
          { data with
            remoteStreamid := remoteStreamid
            dialbackEnabled := attrs.lookup "xmlns:db" = some nsServerDialback } []
      else .stop [.error "invalid-from"]
    else .stop [.error "invalid-namespace"]
  | _, _, _, _ => .stop [.error "invalid-namespace"]

/-- `starttls` in `features_before_auth()`. -/
inductive Starttls
  | no
  | optional
  | required
  deriving DecidableEq

/-- `features_before_auth()` -/
structure Features where
  saslExternal : Bool := false
  starttls : Starttls := .no

/-- `parse_auth_and_tls/2` -/
def parseAuthAndTls (features : Features) (el : Element) : Features :=
  if el.name = "mechanisms" ∧ el.attr? "xmlns" = some nsSasl then
    { features with saslExternal := el.children.any (· = .mk "mechanism" [] [] "EXTERNAL") }
  else if el.name = "starttls" ∧ el.attr? "xmlns" = some nsTls then
    if el.children = [] ∧ el.cdata = "required" then { features with starttls := .required }
    else { features with starttls := .optional }
  else features

/-- `send_dialback_request/1` -/
def sendDialbackRequest : Outcome :=
  let fromTo : FromTo := ⟨data.myname, data.remoteServer⟩
  match data.processType with
  | .new =>
    let key := env.key data.hostType fromTo data.remoteStreamid
    waiting .waitForValidation data [.send (Dialback.step1 fromTo key)]
  | .verify _ key sid => waiting .waitForValidation data [.send (Dialback.step2 fromTo key sid)]

/-- `handle_parsed_features/3` -/
def handleParsedFeatures (features : Features) (streamState : StreamState) : Outcome :=
  if opts.tls.isSome ∧ features.starttls ≠ .no ∧ data.isSsl = false then
    waiting .waitForStarttlsProceed data [.send starttls]
  else if features.saslExternal = false ∧ features.starttls = .no ∧
      streamState = .authenticated then
    .next .streamEstablished (.s2sData data) {} []
  else
    match data.processType, features.saslExternal, data.isSsl, streamState with
    | .new, true, true, .streamStart =>
      waiting .waitForAuthResult data
        [.send (.mk "auth" [("xmlns", nsSasl), ("mechanism", "EXTERNAL")] []
          (lib.encode data.myname))]
    | _, _, _, _ =>
      if data.dialbackEnabled then sendDialbackRequest env data
      else .next .connect (.s2sData data) { waitBeforeRetry := true } []

variable (el : Element)

/-- `handle_features/3` -/
def handleFeatures (streamState : StreamState) : Outcome :=
  handleParsedFeatures lib opts env data (el.children.foldl parseAuthAndTls {}) streamState

/-- The element `proceed`. -/
def handleProceed : Outcome :=
  if data.isSsl then .stop [.error "bad-request"]
  else if env.handshake then
    let data : S2SData := { data with isSsl := true, streamid := env.newStreamid }
    waiting (.waitForStream .streamStart) data [streamHeader data]
  else .stop []

/-- A result of dialback; the process crashes when the addresses are no domains. -/
def handleValidation : Outcome :=
  match Dialback.parseValidity lib el, data.processType with
  | none, _ => .stop []
  | some (some ⟨.step4, fromTo, _, isValid⟩), .new =>
    if fromTo = ⟨data.myname, data.remoteServer⟩ then
      if isValid then
        if data.isSsl = false ∧ opts.tls = some .starttlsRequired then .stop []
        else .next .streamEstablished (.s2sData data) { streamTimeout := true } []
      else .stop []
    else waiting .waitForValidation data []
  | some (some ⟨.step3, fromTo, _, isValid⟩), .verify s2sIn _ _ =>
    if fromTo = ⟨data.myname, data.remoteServer⟩ then .stop [.sendValidity s2sIn isValid fromTo]
    else waiting .waitForValidation data []
  | some _, _ => waiting .waitForValidation data []

/-- An element of the stream. -/
def handleElement (state : State) (data : S2SData) : Outcome :=
  match state with
  | .waitForFeatures streamState =>
    if el.name = "stream:features" then handleFeatures lib opts env data el streamState
    else .next state (.s2sData data) {} []
  | .waitForAuthResult =>
    if el.name = "success" ∧ el.attr? "xmlns" = some nsSasl then
      let data : S2SData := { data with streamid := env.newStreamid }
      waiting (.waitForStream .authenticated) data [streamHeader data]
    else if el.name = "failure" ∧ el.attr? "xmlns" = some nsSasl then .stop []
    else .next state (.s2sData data) {} []
  | .waitForStarttlsProceed =>
    if el.name = "proceed" ∧ el.attr? "xmlns" = some nsTls then handleProceed env data
    else .next state (.s2sData data) {} []
  | .waitForValidation =>
    if isDialback el then handleValidation lib opts data el
    else .next state (.s2sData data) {} []
  | _ => .next state (.s2sData data) {} []

/-! ## Events -/

/-- `bounce_and_disconnect/1`; the process crashes when the local domain is unknown. -/
def bounceAndDisconnect (fromTo : FromTo) : Outcome :=
  match env.getHostType fromTo.localServer with
  | none => .stop [.removeConnection fromTo]
  | some _ =>
    .next .bounceAndDisconnect (.fromTo fromTo) { stateTimeout := true } [.removeConnection fromTo]

/-- `handle_event/4` for everything but stanzas; a crash is a stop as well. -/
def handleEvent (e : Event) (state : State) (data : Data) : Outcome :=
  match data with
  | .fromTo fromTo =>
    match e with
    | .connect processType => handleConnect env processType fromTo
    | .terminateIfWaitingBeforeRetry =>
      if state = .connect then .stop [] else .next state data {} []
    | .waitBeforeRetry =>
      if state = .connect then bounceAndDisconnect env fromTo else .next state data {} []
    | .streamStart _ => .next state data {} []
    | .element _ => .next state data {} []
    | .activateSocket => .next state data {} []
    | .unknown => .next state data {} []
    -- no other clause accepts these data, or the clause stops
    | _ => .stop []
  | .s2sData s2sData =>
    match e with
    | .streamStart attrs =>
      match state with
      | .waitForStream streamState => handleStreamStart lib s2sData attrs streamState
      | _ => .next state data {} []
    | .element el => handleElement lib opts env el state s2sData
    | .streamEnd => .stop [.trailer]
    | .packet pause => .next state data { activateSocket := pause } []
    | .socketClosed => .stop []
    | .terminateIfWaitingBeforeRetry =>
      if state = .connect then .stop [] else .next state data {} []
    | .systemShutdown => .stop [.error "system-shutdown", .trailer]
    | .exit _ => .stop [.error "conflict", .trailer]
    | .stop => .stop []
    | .getStateInfo => .next state data {} []
    | .streamTimeout => .stop []
    | .activateSocket => .next state data {} []
    | .stateTimeout => .stop [.error "connection-timeout", .trailer]
    -- the clause of this timeout asks for the data before the connection
    | .waitBeforeRetry => .next state data {} []
    | .connect _ => .next state data {} []
    | .unknown => .next state data {} []

end

/-! ## The process -/

/-- The timers that are running. -/
structure Timers where
  state : Bool := false
  /-- `stream_timeout`, which every event cancels. -/
  stream : Bool := false
  /-- `wait_before_retry` -/
  retry : Bool := false
  /-- `activate_socket` -/
  activate : Bool := false

/-- What the process is doing. -/
inductive Phase
  | running
  /-- `terminate/3`, after `bounce_messages/1`. -/
  | closing
  | ended
  deriving DecidableEq

/-- The process. -/
structure System where
  state : State := .connect
  data : Data
  /-- The internal event `connect` that waits, with the type of the process. -/
  connecting : Option ProcessType
  timers : Timers := {}
  mailbox : List Stanza := []
  /-- The postponed stanzas that are tried again after a change of the state. -/
  queue : List Stanza := []
  postponed : List Stanza := []
  phase : Phase := .running
  routed : List Stanza := []
  written : List Stanza := []
  /-- The stanzas that were answered with an error, with its text. -/
  bounced : List (Stanza × String) := []

/-- Whether `bounce_one/2` answers a stanza. -/
def Stanza.bounces (stanza : Stanza) : Bool :=
  stanza.element.attr? "type" ≠ some "error" && stanza.element.attr? "type" ≠ some "result"

/-- `bounce_one/2` -/
def bounceOne (text : String) (stanza : Stanza) : List (Stanza × String) :=
  if stanza.bounces then [(stanza, text)] else []

variable (s : System)

/-- `terminate/3`: the stanzas in the mailbox are answered; what was postponed is gone. -/
def System.terminate : System :=
  { s with
    phase := .closing
    bounced := s.bounced ++ s.mailbox.flatMap (bounceOne "Bounced by s2s")
    mailbox := []
    queue := []
    postponed := []
    timers := {} }

/-- The result of an event: a change of the state stops the state timeout and brings back what was
postponed. -/
def System.apply : Outcome → System
  | .stop _ => s.terminate
  | .next state data actions _ =>
    let changed : Bool := state ≠ s.state
    { s with
      state := state
      data := data
      timers :=
        { state := actions.stateTimeout || (s.timers.state && !changed)
          stream := actions.streamTimeout
          retry := s.timers.retry || actions.waitBeforeRetry
          activate := s.timers.activate || actions.activateSocket }
      queue := if changed then s.postponed ++ s.queue else s.queue
      postponed := if changed then [] else s.postponed }

/-- A stanza `{route, Acc}` is handled. -/
def System.route (stanza : Stanza) : System :=
  match s.state with
  | .streamEstablished =>
    { s with
      timers := { s.timers with stream := true }
      written := s.written ++ [stanza] }
  | .bounceAndDisconnect =>
    { s with
      timers := { s.timers with stream := false }
      bounced := s.bounced ++ bounceOne "From s2s (waiting)" stanza }
  | _ =>
    { s with
      timers := { s.timers with stream := false }
      postponed := s.postponed ++ [stanza] }

/-- The timers without the one that fires; `none` when it does not run. -/
def Timers.fire (timers : Timers) : Event → Option Timers
  | .streamTimeout => if timers.stream then some { timers with stream := false } else none
  | .activateSocket => if timers.activate then some { timers with activate := false } else none
  | .waitBeforeRetry => if timers.retry then some { timers with retry := false } else none
  | .stateTimeout => if timers.state then some { timers with state := false } else none
  | _ => some timers

/-- What happens next. -/
inductive Step
  | route (stanza : Stanza)
  | receive
  | retry
  | event (env : Env) (e : Event)
  | exited

/-- One step. Events wait while postponed stanzas are tried again, and all of them wait for the
connection attempt. -/
def step (lib : Lib) (opts : Opts) (s : System) : Step → Option System
  | .route stanza =>
    if s.phase = .ended then none
    else some { s with mailbox := s.mailbox ++ [stanza], routed := s.routed ++ [stanza] }
  | .receive =>
    match s.phase, s.connecting, s.queue, s.mailbox with
    | .running, none, [], stanza :: mailbox => some ({ s with mailbox := mailbox }.route stanza)
    | _, _, _, _ => none
  | .retry =>
    match s.phase, s.queue with
    | .running, stanza :: queue => some ({ s with queue := queue }.route stanza)
    | _, _ => none
  | .event env e =>
    match s.phase, s.connecting, s.queue, e with
    | .running, some processType, [], .connect _ =>
      some ({ s with connecting := none }.apply
        (handleEvent lib opts env (.connect processType) s.state s.data))
    | .running, some _, _, _ => none
    | .running, none, [], .connect _ => none
    | .running, none, [], e => do
        let timers ← s.timers.fire e
        return { s with timers := timers }.apply (handleEvent lib opts env e s.state s.data)
    | _, _, _, _ => none
  | .exited =>
    match s.phase with
    | .closing => some { s with phase := .ended, mailbox := [] }
    | _ => none

/-- `init/1` -/
def init (fromTo : FromTo) (processType : ProcessType) : System where
  data := .fromTo fromTo
  connecting := some processType

end MongooseIM.S2S.Out
