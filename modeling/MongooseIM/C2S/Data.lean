import MongooseIM.StreamManagement.Backend
import MongooseIM.StreamManagement.SmState

/-! # States, data and requests of a client session

The types of `mongoose_c2s` and `mongoose_c2s_acc`: the states and the data of the state machine,
the events it receives, the actions it returns, and the requests that hook handlers add to an
accumulator. What a step needs from outside (the SASL mechanism, the other modules' handlers, the
other session of a resumption) comes in an `Oracle`.

Of the data, `lang`, `streamid`, the parser, the shaper and `info` are left out, and of the states
of the modules only that of `mod_stream_management` is kept. -/

namespace MongooseIM.C2S

open Xmpp StreamManagement

/-- `stream_state()` -/
inductive StreamState
  | streamStart
  | authenticated
  deriving DecidableEq

/-- `state()`; the accumulator of the SASL exchange is left out. -/
inductive State
  | connect
  | waitForStream (streamState : StreamState)
  | waitForFeatureBeforeAuth (retries : ℕ)
  | waitForSaslResponse (retries : ℕ)
  | waitForFeatureAfterAuth (retries : ℕ)
  | waitForSessionEstablishment
  | sessionEstablished
  /-- `?EXT_C2S_STATE(State)`, a state of a module that has taken control. -/
  | ext (state : State)
  /-- `resume_session`, the state of `mod_stream_management`. -/
  | resumeSession
  /-- `{stop, {shutdown, stream_end}}`, which `stream_mgmt_error/4` may take for a state. -/
  | stopTuple
  deriving DecidableEq

/-- `?EXT_C2S_STATE(resume_session)` -/
abbrev State.extResumeSession : State := .ext .resumeSession

/-- The options of the listener that the session reads. -/
structure ListenerOpts where
  /-- Whether the client may open its session with an IQ of its own. -/
  backwardsCompatibleSession : Bool := true
  tls : Bool := false

/-- `#c2s_data{}` -/
structure Data where
  hostType : Option String := none
  lserver : String
  sid : Sid
  jid : Option Jid := none
  listenerOpts : ListenerOpts := {}
  /-- The entry of `mod_stream_management` in `state_mod`. -/
  stateMod : Option SmState := none

variable (data : Data)

/-- `merge_mod_state/2`, for the entry of `mod_stream_management`. -/
def Data.mergeModState (smState : SmState) : Data :=
  { data with stateMod := some smState }

/-- `replace_resource/2`; a resource is generated when the client gives none. -/
def Data.replaceResource (generated resource : String) : Data :=
  { data with jid := data.jid.map fun jid =>
      jid.replaceResourceNoprep (if resource = "" then generated else resource) }

/-- `merge_states/2`: the identity and the states of the modules come from the first session. -/
def mergeStates (s0 s1 : Data) : Data :=
  { s1 with
    hostType := s0.hostType
    lserver := s0.lserver
    jid := s0.jid
    stateMod := s0.stateMod }

/-- Why a session stops. -/
inductive Reason
  | streamEnd
  | streamError
  | retries
  | stateTimeout
  | socketError
  | socketClosed
  | tlsClosed
  | tlsTimeout
  | tlsAlert
  | tlsFailure
  | ipBlacklisted
  | replaced (pid : ℕ)
  | text (text : String)
  | systemShutdown
  | resumed
  | badStreamManagementRequest
  | tooManyUnackedStanzas
  | invalidHAttribute
  | smHandledCountTooHighStanza
  /-- The atom `mod_stream_management`. -/
  | modStreamManagement
  | shutdown (reason : Reason)
  | error
  | other

/-- What the XML parser yields. -/
inductive XmlEvent
  /-- `#xmlstreamstart{}` -/
  | streamStart (attrs : List (String × String))
  /-- `#xmlstreamend{}` -/
  | streamEnd
  /-- `#xmlstreamerror{}` -/
  | streamError (name : String)
  /-- `#xmlel{}` -/
  | element (el : Element)

/-- The messages of a session that are not casts or calls. -/
inductive Info
  | route (acc : Acc)
  | element (el : Element)
  | socketData (events : List XmlEvent)
  | badSocketData
  | socketClosed
  | socketError
  | other

/-- The casts of a session. -/
inductive Cast
  | exit (reason : Reason)
  | stop (reason : Reason)
  /-- `{async, Fun, Args}` -/
  | async
  /-- `{async_with_state, Fun, Args}`; the function that is used sets `info`. -/
  | asyncWithState
  | other

/-- The names of timeouts. -/
inductive TimerName
  | modStreamManagement
  | activateSocket
  | replacedWaitTimeout
  | other (name : String)
  deriving DecidableEq

/-- The contents of timeouts. -/
inductive Payload
  | resumeTimeout
  | checkBufferFull
  | activateSocket
  | replacedPids
  | handler
  | stateTimeoutTermination
  | other
  deriving DecidableEq

/-- The contents of calls. -/
inductive CallContent
  /-- `{resume, H}` to `mod_stream_management` -/
  | resume (h : ℕ)
  | other

/-- The events of the state machine. -/
inductive Event
  /-- `{connect, _}`; whether the address of the peer is blacklisted. -/
  | connect (isBlacklisted : Bool)
  | xml (event : XmlEvent)
  | flush (acc : Acc)
  | info (info : Info)
  | cast (cast : Cast)
  | timeout (name : TimerName) (payload : Payload)
  | stateTimeout
  | call (sender : From) (content : CallContent)

/-- The modules that handle the events of a session. -/
inductive CallbackModule
  | mongooseC2s
  | modStreamManagement
  deriving DecidableEq

/-- `gen_statem:action()` -/
inductive Action
  | nextEvent (event : Event)
  | timeout (name : TimerName) (time : ℕ) (payload : Payload)
  | cancelTimeout (name : TimerName)
  /-- `{state_timeout, Time, state_timeout_termination}` -/
  | stateTimeout
  | pushCallbackModule (module : CallbackModule)
  | popCallbackModule
  | hibernate
  /-- `{reply, From, Reply}` of another module. -/
  | reply (sender : From)

/-- `mongoose_c2s_acc:t()`; `actions` and `socket_send` are in reverse order. -/
structure C2SAcc where
  /-- The entry of `mod_stream_management` in `state_mod`. -/
  stateMod : Option SmState := none
  actions : List Action := []
  c2sState : Option State := none
  c2sData : Option Data := none
  hardStop : Option Reason := none
  socketSend : List Element := []

/-- `mongoose_c2s_acc:pair()`; a pair with one value is one with a list of one. -/
inductive Request
  /-- `{state_mod, {mod_stream_management, State}}` -/
  | stateMod (smState : SmState)
  | actions (actions : List Action)
  | c2sState (state : State)
  | c2sData (data : Data)
  | stop (reason : Reason)
  | hardStop (reason : Reason)
  | route (accs : List Acc)
  | flush (accs : List Acc)
  | socketSend (els : List Element)
  | socketSendFirst (els : List Element)

variable (c2sAcc : C2SAcc)

/-- `to_c2s_acc/2` -/
def toC2SAcc : Request → C2SAcc
  | .stateMod smState => { c2sAcc with stateMod := some smState }
  | .actions actions => { c2sAcc with actions := actions.reverse ++ c2sAcc.actions }
  | .c2sState state => { c2sAcc with c2sState := some state }
  | .c2sData data => { c2sAcc with c2sData := some data }
  | .stop reason =>
    { c2sAcc with actions := .nextEvent (.cast (.stop reason)) :: c2sAcc.actions }
  | .hardStop reason => { c2sAcc with hardStop := some reason }
  | .route accs =>
    { c2sAcc with
      actions := (accs.map fun acc => .nextEvent (.info (.route acc))).reverse ++ c2sAcc.actions }
  | .flush accs =>
    { c2sAcc with
      actions := (accs.map fun acc => .nextEvent (.flush acc)).reverse ++ c2sAcc.actions }
  | .socketSend els => { c2sAcc with socketSend := els.reverse ++ c2sAcc.socketSend }
  | .socketSendFirst els => { c2sAcc with socketSend := c2sAcc.socketSend ++ els.reverse }

/-- `to_acc_many/2` -/
def toAccMany (requests : List Request) : C2SAcc :=
  requests.foldl toC2SAcc c2sAcc

/-- `get_statem_result/1` -/
def getStatemResult : C2SAcc :=
  { c2sAcc with actions := c2sAcc.actions.reverse, socketSend := c2sAcc.socketSend.reverse }

/-- An accumulator inside a hook: the stanza and the requests gathered so far. -/
structure HookAcc where
  acc : Acc
  statemAcc : C2SAcc := {}

/-- The accumulator with more requests: `mongoose_c2s_acc:to_acc_many/2`. -/
def HookAcc.toAcc (hookAcc : HookAcc) (requests : List Request) : HookAcc :=
  { hookAcc with statemAcc := toAccMany hookAcc.statemAcc requests }

/-- What a step does to the outside. -/
inductive Output
  | element (el : Element)
  | header
  | trailer
  /-- `ejabberd_router:route/4` -/
  | route (acc : Acc)
  /-- `mod_stream_management_backend:register_smid/3` -/
  | registerSmid (smid : String) (sid : Sid)
  /-- `gen_statem:reply/2` of the data of a session to resume. -/
  | replyData (sender : From) (data : Data)
  /-- `gen_statem:reply/2` of an error. -/
  | replyError (sender : From) (errorStanza : Element)

/-- `ok` or `stop` -/
inductive Verdict
  | ok
  | stop
  deriving DecidableEq

/-- What a hook returns, with what its handlers wrote. -/
structure HookResult where
  verdict : Verdict
  hookAcc : HookAcc
  outputs : List Output := []

/-- `fsm_res()` without the outputs. -/
inductive Next
  | nextState (state : State) (data : Data) (actions : List Action)
  | keepState (data : Data) (actions : List Action)
  | stop (reason : Reason) (data : Data)

/-- The result of an event handler. -/
structure FsmRes where
  outputs : List Output
  next : Next

variable (outputs : List Output)

/-- The result, after more outputs. -/
def FsmRes.after (res : FsmRes) : FsmRes :=
  { res with outputs := outputs ++ res.outputs }

@[simp] theorem FsmRes.after_outputs (res : FsmRes) :
    (res.after outputs).outputs = outputs ++ res.outputs := rfl

theorem FsmRes.after_after (outputs outputs' : List Output) (res : FsmRes) :
    (res.after outputs').after outputs = res.after (outputs ++ outputs') := by
  rw [FsmRes.after, FsmRes.after, FsmRes.after, List.append_assoc]

/-- What `c2s_stream_error/2` writes. -/
def streamErrorOutputs (error : Element) : List Output := [.element error, .trailer]

/-- `c2s_stream_error/2` -/
def c2sStreamError (error : Element) : FsmRes :=
  ⟨streamErrorOutputs error, .stop (.shutdown .streamError) data⟩

/-- What `maybe_retry_state/1` returns. -/
inductive RetryResult
  | state (state : State)
  | stop (reason : Reason)
  | functionClause

/-- `maybe_retry_state/1` -/
def maybeRetryState : State → RetryResult
  | .connect => .state .connect
  | .waitForSessionEstablishment => .stop (.shutdown .streamEnd)
  | .sessionEstablished => .state .sessionEstablished
  | .waitForStream streamState => .state (.waitForStream streamState)
  | .waitForFeatureAfterAuth 0 => .stop (.shutdown .retries)
  | .waitForFeatureBeforeAuth 0 => .stop (.shutdown .retries)
  | .waitForSaslResponse 0 => .stop (.shutdown .retries)
  | .waitForFeatureAfterAuth (retries + 1) => .state (.waitForFeatureAfterAuth retries)
  | .waitForFeatureBeforeAuth (retries + 1) => .state (.waitForFeatureBeforeAuth retries)
  | .waitForSaslResponse (retries + 1) => .state (.waitForSaslResponse retries)
  | .ext state => .state (.ext state)
  | .resumeSession => .functionClause
  | .stopTuple => .functionClause

/-- What the handlers of other modules request. Of the modelled ones only `mod_stream_management`
asks for more, or changes the data. -/
inductive ModuleRequest
  | route (accs : List Acc)
  | flush (accs : List Acc)
  | stop (reason : Reason)
  | timeout (name : String) (time : ℕ) (payload : Payload)
  | cancelTimeout (name : String)
  | reply (sender : From)

/-- The request as a pair for the accumulator. -/
def ModuleRequest.toRequest : ModuleRequest → Request
  | route accs => .route accs
  | flush accs => .flush accs
  | stop reason => .stop reason
  | timeout name time payload => .actions [.timeout (.other name) time payload]
  | cancelTimeout name => .actions [.cancelTimeout (.other name)]
  | reply sender => .actions [.reply sender]

/-- What the handlers of other modules do in one run of a hook. -/
structure Reaction where
  verdict : Verdict := .ok
  change : Acc → Acc := id
  /-- No handler turns a stanza into one of another name. -/
  stanzaName_change : ∀ acc, (change acc).stanzaName = acc.stanzaName := by
    exact Acc.stanzaName_id
  requests : List ModuleRequest := []

/-- Run the handlers of other modules. -/
def Reaction.run (reaction : Reaction) (hookAcc : HookAcc) : HookResult :=
  ⟨reaction.verdict,
    { (hookAcc.toAcc (reaction.requests.map ModuleRequest.toRequest)) with
      acc := reaction.change hookAcc.acc }, []⟩

/-- What `mongoose_c2s_sasl` returns. -/
inductive SaslResult
  | success (user : String)
  | continue
  | failure
  | error

/-- What `mongoose_xmpp_socket:tcp_to_tls/3` returns. -/
inductive TlsResult
  | ok
  | alreadyTlsConnection
  | closed
  | timeout
  | tlsAlert

/-- What `get_peer_state/2` returns. -/
inductive PeerReply
  | ok (data : Data)
  /-- `{error, ErrorStanza, Reason}` -/
  | error (errorStanza : Element)
  | exception

/-- Whether there is a session to resume. -/
def PeerReply.isOk : PeerReply → Bool
  | ok _ => true
  | _ => false

/-- What the environment contributes to one event. -/
structure Oracle where
  /-- `make_ref/0` -/
  newRef : ℕ := 0
  /-- `make_smid/0` -/
  newSmid : String := ""
  /-- `generate_random_resource/0` -/
  newResource : String := ""
  sasl : SaslResult := .failure
  tls : TlsResult := .closed
  /-- `get_session_from_smid/2` -/
  session : MaybeSmid Sid := .smidNotFound
  peer : PeerReply := .exception
  mailbox : List Acc := []
  /-- The sessions that `ejabberd_sm:open_session/5` replaces, if any. -/
  replacesSessions : Bool := false
  /-- `user_send_packet`, after stream management. -/
  userSendPacket : Reaction := {}
  /-- `user_send_message`, `user_send_iq` or `user_send_presence` -/
  userSendStanza : Reaction := {}
  /-- `user_send_xmlel`, before stream management. -/
  userSendXmlelBefore : Reaction := {}
  /-- `user_send_xmlel`, after stream management. -/
  userSendXmlelAfter : Reaction := {}
  /-- `user_receive_message` and its siblings. -/
  userReceiveStanza : Reaction := {}
  /-- `xmpp_presend_element`, before stream management. -/
  xmppPresendElement : Reaction := {}
  /-- `foreign_event`, before stream management. -/
  foreignEventBefore : Reaction := {}
  /-- `foreign_event`, after stream management. -/
  foreignEventAfter : Reaction := {}
  /-- `user_stop_request`, `user_socket_closed` or `user_socket_error`, before stream management. -/
  userStopping : Reaction := {}
  userOpenSession : Reaction := {}
  timeoutHandler : List ModuleRequest := []

/-- The functions and options of the server that a session uses. -/
structure Server where
  lib : Library
  /-- `mongoose_domain_api:get_domain_host_type/1` -/
  getDomainHostType : String → Option String
  /-- The option `hide_service_name`. -/
  hideServiceName : Bool := false
  /-- The option `buffer_max` of `mod_stream_management`. -/
  bufferMax : String → BufferMax := fun _ => .limit 100
  /-- The option `ack_freq` of `mod_stream_management`. -/
  ackFreq : String → AckFreq := fun _ => .every 1
  /-- The option `resume_timeout` of `mod_stream_management`, in milliseconds. -/
  resumeTimeout : String → ℕ := fun _ => 600000
  /-- The option `replaced_wait_timeout`, in milliseconds. -/
  replacedWaitTimeout : String → ℕ := fun _ => 2000

end MongooseIM.C2S
