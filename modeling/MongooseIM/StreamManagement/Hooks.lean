import MongooseIM.C2S.Data

/-! # The hook handlers of `mod_stream_management`

Each handler takes the data and the state of the session and the accumulator, and returns whether
the hook stops, the accumulator with its requests, and what it did to the outside. A handler that
crashes is caught by `gen_hook`, which goes on with the accumulator that the handler received;
this is what `HookResult.ignored` stands for. -/

namespace MongooseIM.StreamManagement

open Xmpp C2S

variable (hookAcc : HookAcc)

/-- `{ok, Acc}`: the handler requests nothing, or it has crashed. -/
def ignored : HookResult := ⟨.ok, hookAcc, []⟩

variable (data : Data) (hookAcc : HookAcc)

/-- `user_send_packet/3` -/
def userSendPacket : HookResult :=
  match data.stateMod, isStanzaElement hookAcc.acc with
  | some smState, true =>
    ⟨.ok, hookAcc.toAcc
      [.stateMod { smState with counterIn := incrCounter smState.counterIn }], []⟩
  | _, _ => ignored hookAcc

/-- `handle_r/2` -/
def handleR : HookResult :=
  match data.stateMod with
  | none => ignored hookAcc
  | some smState => ⟨.ok, hookAcc.toAcc [.socketSend [streamMgmtAck smState.counterIn]], []⟩

/-- `handle_a/3` with `finish_handle_a/3` -/
def handleA (el : Element) : HookResult :=
  match data.stateMod, streamMgmtParseH el with
  | none, _ => ignored hookAcc
  | some _, none =>
    ⟨.stop, hookAcc.toAcc [.hardStop .invalidHAttribute],
      streamErrorOutputs (streamErrort "policy-violation" "Invalid h attribute")⟩
  | some smState, some h =>
    match doHandleAck smState h with
    | .ok newSmState => ⟨.ok, hookAcc.toAcc [.stateMod newSmState], []⟩
    | .error errorStanza =>
      ⟨.stop, hookAcc.toAcc [.stop (.shutdown .smHandledCountTooHighStanza)],
        streamErrorOutputs errorStanza⟩
    | .badarg => ignored hookAcc

/-- `stream_error/2` -/
def smStreamError : HookResult :=
  ⟨.stop, hookAcc.toAcc [.stop (.shutdown .streamError)],
    streamErrorOutputs (streamMgmtFailed "unexpected-request" [])⟩

variable (server : Server) (oracle : Oracle)

/-- `handle_enable/3` with `do_handle_enable/4` -/
def handleEnable (data : Data) (hookAcc : HookAcc) (el : Element) : HookResult :=
  match data.stateMod, data.hostType with
  | some _, _ => smStreamError hookAcc
  -- the options of an undefined host type cannot be read
  | none, none => ignored hookAcc
  | none, some hostType =>
    let smState := buildSmHandler (server.bufferMax hostType) (server.ackFreq hostType)
    match el.attr? "resume" with
    | none =>
      ⟨.stop, hookAcc.toAcc [.stateMod smState, .socketSend [streamMgmtEnabled []]], []⟩
    | some attr =>
      if attr = "true" ∨ attr = "1" then
        let stanza := streamMgmtEnabled [("id", oracle.newSmid), ("resume", "true")]
        ⟨.stop, hookAcc.toAcc [.stateMod smState, .socketSend [stanza]],
          [.registerSmid oracle.newSmid data.sid]⟩
      else smStreamError hookAcc

variable (state : State)

/-- `stream_mgmt_error/4` -/
def streamMgmtError (hookAcc : HookAcc) (errorStanza : Element) : HookResult :=
  match maybeRetryState state with
  | .stop (.shutdown .retries) => ⟨.stop, hookAcc.toAcc [.stop (.shutdown .retries)], []⟩
  | .state newState =>
    ⟨.stop, hookAcc.toAcc [.c2sState newState, .socketSend [errorStanza]], []⟩
  -- any other result is taken for a state
  | .stop _ => ⟨.stop, hookAcc.toAcc [.c2sState .stopTuple, .socketSend [errorStanza]], []⟩
  | .functionClause => ignored hookAcc

/-- `unexpected_sm_request/3` -/
def unexpectedSmRequest (hookAcc : HookAcc) : HookResult :=
  streamMgmtError state hookAcc (streamMgmtFailed "unexpected-request" [])

/-- `resume_return()` -/
inductive ResumeReturn
  /-- `{ok, #{resumed, forward, c2s_state, c2s_data}}`; the state is `session_established`. -/
  | ok (resumed : Element) (forward : List Element) (data : Data)
  | streamMgmtError (errorStanza : Element)
  | error (errorStanza : Element)
  | errorReason (errorStanza : Element)
  | badmatch

/-- `do_resume/2` -/
def doResume (data : Data) (smid : String) : ResumeReturn :=
  match data.stateMod with
  | none => .badmatch
  | some smState =>
    let stanzas := getAllStanzasToForward server.lib smState data.lserver smid
    .ok stanzas.1 stanzas.2 data

/-- `do_handle_resume/5` -/
def doHandleResume (data : Data) (smid : String) : ResumeReturn :=
  match oracle.session with
  | .sid _ =>
    match oracle.peer with
    | .ok oldData => doResume server (mergeStates oldData data) smid
    | .error errorStanza => .errorReason errorStanza
    | .exception => .streamMgmtError (streamMgmtFailed "item-not-found" [])
  | .staleH h => .streamMgmtError (streamMgmtFailed "item-not-found" [("h", toString h)])
  | .smidNotFound => .streamMgmtError (streamMgmtFailed "item-not-found" [])

/-- `handle_resume/3` -/
def handleResume (data : Data) (el : Element) : ResumeReturn :=
  match el.attr? "previd", streamMgmtParseH el, data.stateMod with
  | none, _, _ => .error (streamMgmtFailed "bad-request" [])
  | some _, none, _ => .error (streamMgmtFailed "bad-request" [])
  | some _, some _, some _ => .error (streamMgmtFailed "bad-request" [])
  | some smid, some _, none => doHandleResume server oracle data smid

/-- `handle_resume_request/3` -/
def handleResumeRequest (data : Data) (state : State)
    (hookAcc : HookAcc) (el : Element) : HookResult :=
  match handleResume server oracle data el with
  | .streamMgmtError errorStanza => streamMgmtError state hookAcc errorStanza
  | .errorReason errorStanza =>
    ⟨.stop, hookAcc.toAcc [.stop (.shutdown .smHandledCountTooHighStanza)],
      streamErrorOutputs errorStanza⟩
  | .error errorStanza => ⟨.stop, hookAcc.toAcc [.socketSend [errorStanza]], []⟩
  | .ok resumed forward newData =>
    ⟨.ok, hookAcc.toAcc
      [.c2sState .sessionEstablished, .c2sData newData, .socketSend (resumed :: forward)],
      [.registerSmid ((el.attr? "previd").getD "") newData.sid]⟩
  | .badmatch => ignored hookAcc

/-- `?IS_ALLOWED_STATE` -/
def isAllowedState : State → Bool
  | .waitForSessionEstablishment => true
  | .sessionEstablished => true
  | _ => false

/-- `handle_stream_mgmt/3` -/
def handleStreamMgmt (data : Data) (state : State)
    (hookAcc : HookAcc) (el : Element) : HookResult :=
  match el.name, isAllowedState state, state with
  | "a", true, _ => handleA data hookAcc el
  | "r", true, _ => handleR data hookAcc
  | "enable", true, _ => handleEnable server oracle data hookAcc el
  | "resume", _, .waitForFeatureAfterAuth _ =>
    handleResumeRequest server oracle data state hookAcc el
  | _, _, _ => unexpectedSmRequest state hookAcc

/-- `user_send_xmlel/3` -/
def userSendXmlel (data : Data) (state : State) (hookAcc : HookAcc) : HookResult :=
  if hookAcc.acc.element.attr? "xmlns" = some nsStreamMgnt then
    handleStreamMgmt server oracle data state hookAcc hookAcc.acc.element
  else userSendPacket data hookAcc

/-- `maybe_get_resumed_from_sid/1` -/
def maybeGetResumedFromSid : Option SmState → Option Sid
  | some { peer := .sid resumedFrom, .. } => some resumedFrom
  | _ => none

variable (acc : Acc)

/-- `is_conflict_incoming_acc/2` -/
def isConflictIncomingAcc (data : Data) : Bool :=
  match acc.originJid, acc.originSid with
  | some originJid, some originSid =>
    data.jid = some originJid &&
      !(originSid = data.sid || some originSid = maybeGetResumedFromSid data.stateMod)
  | _, _ => false

/-- `is_conflict_receiver_sid/2` -/
def isConflictReceiverSid (data : Data) : Bool :=
  acc.receiverSid.getD data.sid ≠ data.sid

/-- `user_receive_packet/3` -/
def userReceivePacket : HookResult :=
  if isConflictIncomingAcc hookAcc.acc data || isConflictReceiverSid hookAcc.acc data then
    ⟨.stop, hookAcc, []⟩
  else ignored hookAcc

/-- `xmpp_presend_result/1` -/
def xmppPresendResult : Verdict :=
  -- it makes no sense to route anything to a closed socket
  if state = .extResumeSession then .stop else .ok

variable (smState : SmState)

/-- The guard of `maybe_send_ack_request/3`; `rem` fails on `never`. -/
def isAckRequested : Bool :=
  match smState.ackFreq with
  | .every n =>
    (smState.counterOut + smState.bufferSize) % n = 0 && state ≠ .extResumeSession
  | .never => false

variable (state : State)

/-- `maybe_send_ack_request/3` -/
def maybeSendAckRequest (smState : SmState) : HookResult :=
  if isAckRequested state smState then
    ⟨.ok, hookAcc.toAcc [.socketSend [streamMgmtRequest]], []⟩
  else ⟨xmppPresendResult state, hookAcc, []⟩

/-- `notify_unacknowledged_msg_if_in_resume_state/3` -/
def notifyUnacknowledgedMsgIfInResumeState : Acc :=
  if state = .extResumeSession then maybeNotifyUnacknowledgedMsg acc else acc

/-- `?CONSTRAINT_CHECK_TIMEOUT` -/
def constraintCheckTimeout : ℕ := 5000

/-- The actions of `handle_buffer_and_ack/4`. -/
def bufferFullActions : List Action :=
  if isBufferFull (smState.bufferSize + 1) smState.bufferMax then
    [.timeout .modStreamManagement constraintCheckTimeout .checkBufferFull]
  else []

/-- `handle_buffer_and_ack/4` -/
def handleBufferAndAck (smState : SmState) : HookResult :=
  let acc := notifyUnacknowledgedMsgIfInResumeState hookAcc.acc state
  let newSmState := smState.push acc
  let hookAcc := { hookAcc with acc := acc }.toAcc
    [.actions (bufferFullActions smState), .stateMod newSmState]
  maybeSendAckRequest hookAcc state newSmState

/-- `xmpp_presend_element/3` -/
def xmppPresendElement (data : Data) (state : State) (hookAcc : HookAcc) : HookResult :=
  match data.stateMod with
  | none => ⟨xmppPresendResult state, hookAcc, []⟩
  | some smState =>
    if hookAcc.acc.stanzaType = some "probe" then ⟨xmppPresendResult state, hookAcc, []⟩
    else if smState.bufferMax = .noBuffer then maybeSendAckRequest hookAcc state smState
    else
      match preventBufferDuplication oracle.newRef hookAcc.acc smState with
      | none => ⟨.stop, hookAcc, []⟩
      | some acc => handleBufferAndAck { hookAcc with acc := acc } state smState

/-- What `handle_resume_call/3` returns. -/
inductive ResumeCallResult
  | ok (keep : SmState)
  | error
  /-- The session has no state of stream management, or the ack crashed. -/
  | crash

/-- `pipeline_future_sm_state/2` -/
def pipelineFutureSmState (mailbox : List Acc) : SmState :=
  recoverMessages { smState with peer := .sid data.sid } mailbox

/-- `handle_resume_call/3`: its result, and what it sent. -/
def handleResumeCall (sender : From) (h : ℕ) (mailbox : List Acc) :
    ResumeCallResult × List Output :=
  match data.stateMod with
  | none => (.crash, [])
  | some smState =>
    match doHandleAck smState h with
    | .ok smState1 =>
      let passSmState := pipelineFutureSmState data smState1 mailbox
      (.ok (smStateToKeep smState1 sender),
        streamErrorOutputs (streamError "conflict") ++
          [.replyData sender (data.mergeModState passSmState)])
    | .error errorStanza => (.error, [.replyError sender errorStanza])
    | .badarg => (.crash, [])

/-- `foreign_event/3` -/
def foreignEvent (data : Data) (event : Event) (hookAcc : HookAcc) : HookResult :=
  match event with
  | .call sender (.resume h) =>
    match handleResumeCall data sender h oracle.mailbox with
    | (.ok smState, outputs) =>
      ⟨.stop, hookAcc.toAcc
        [.c2sData (data.mergeModState smState), .hardStop (.shutdown .resumed)], outputs⟩
    | (.error, outputs) =>
      ⟨.stop, hookAcc.toAcc [.hardStop .badStreamManagementRequest], outputs⟩
    | (.crash, outputs) => ⟨.ok, hookAcc, outputs⟩
  | .timeout .modStreamManagement .checkBufferFull =>
    match data.stateMod with
    | none => ignored hookAcc
    | some smState =>
      if isBufferFull smState.bufferSize smState.bufferMax then
        ⟨.stop, hookAcc.toAcc [.hardStop .tooManyUnackedStanzas],
          streamErrorOutputs (streamErrort "resource-constraint" "too many unacked stanzas")⟩
      else ignored hookAcc
  | _ => ignored hookAcc

/-- `handle_user_stopping/3` -/
def handleUserStopping (data : Data) (hookAcc : HookAcc) : HookResult :=
  match data.stateMod with
  | none => ignored hookAcc
  | some smState =>
    let timeout := server.resumeTimeout (data.hostType.getD "")
    ⟨.stop, hookAcc.toAcc
      [.c2sState .extResumeSession,
        .actions [.pushCallbackModule .modStreamManagement,
          .timeout .modStreamManagement timeout .resumeTimeout, .hibernate],
        .stateMod (notifyUnacknowledgedMessages smState)], []⟩

end MongooseIM.StreamManagement
