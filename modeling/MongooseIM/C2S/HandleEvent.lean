import MongooseIM.StreamManagement.Hooks

/-! # The event handlers of `mongoose_c2s`

`handleEvent` is the callback of the state machine, clause by clause; each clause ends in a
function of the source. Hooks run the handlers of other modules (the `Reaction`s of the oracle)
around those of `mod_stream_management`, in the order of their priorities.

`StreamManagement.handleEvent` is the callback of `mod_stream_management`, which handles the events
of a session that waits for its resumption and leaves all others to `mongoose_c2s`. -/

namespace MongooseIM.C2S

open Xmpp StreamManagement

/-! ## Namespaces and elements -/

/-- `?NS_STREAM` -/
def nsStream : String := "http://etherx.jabber.org/streams"

/-- `?XMPP_VERSION` -/
def xmppVersion : String := "1.0"

/-- `?NS_TLS` -/
def nsTls : String := "urn:ietf:params:xml:ns:xmpp-tls"

/-- `?NS_SASL` -/
def nsSasl : String := "urn:ietf:params:xml:ns:xmpp-sasl"

/-- `?NS_BIND` -/
def nsBind : String := "urn:ietf:params:xml:ns:xmpp-bind"

/-- `?NS_SESSION` -/
def nsSession : String := "urn:ietf:params:xml:ns:xmpp-session"

/-- `?AUTH_RETRIES` -/
def authRetries : ℕ := 3

/-- `?BIND_RETRIES` -/
def bindRetries : ℕ := 5

/-- An element of the SASL namespace; its contents are left out. -/
def saslElement (name : String) : Element := .mk name [("xmlns", nsSasl)] [] ""

/-- An element of the TLS namespace. -/
def tlsElement (name : String) : Element := .mk name [("xmlns", nsTls)] [] ""

/-- `stream_features/1`; the features are left out. -/
def streamFeatures : Element := .mk "stream:features" [] [] ""

/-- `successful_resource_binding/2` -/
def successfulResourceBinding (iq : Iq) (jid : Jid) : Element :=
  iqResult iq (.mk "bind" [("xmlns", nsBind)] [.mk "jid" [] [] jid.toBinary] "")

/-- `successful_session_establishment/1` -/
def successfulSessionEstablishment (iq : Iq) : Element :=
  iqResult iq (.mk "session" [("xmlns", nsSession)] [] "")

/-! ## Hooks and their results -/

variable (res : HookResult)

/-- Go on with the next handlers unless a handler has stopped the hook. -/
def HookResult.andThen (handler : HookAcc → HookResult) : HookResult :=
  match res.verdict with
  | .stop => res
  | .ok =>
    let next := handler res.hookAcc
    { next with outputs := res.outputs ++ next.outputs }

variable (data : Data) (state : State)

/-- `handle_state_result/4`, with the actions and the elements in order. -/
def handleStateResult (c2sAcc : C2SAcc) : FsmRes :=
  let data1 := c2sAcc.c2sData.getD data
  match c2sAcc.hardStop with
  | some reason => ⟨[], .stop (.shutdown reason) data1⟩
  | none =>
    let data2 := match c2sAcc.stateMod with
      | none => data1
      | some smState => data1.mergeModState smState
    ⟨c2sAcc.socketSend.map .element,
      .nextState (c2sAcc.c2sState.getD state) data2 c2sAcc.actions⟩

/-- `handle_state_after_packet/3` -/
def handleStateAfterPacket (hookAcc : HookAcc) : FsmRes :=
  handleStateResult data state (getStatemResult hookAcc.statemAcc)

/-- `handle_state_after_packet/3` after a hook, whatever its verdict. -/
def finishHook (res : HookResult) : FsmRes :=
  (handleStateAfterPacket data state res.hookAcc).after res.outputs

/-- `maybe_retry_state/2` -/
def retryState : FsmRes :=
  match maybeRetryState state with
  | .state newState => ⟨[], .nextState newState data [.stateTimeout]⟩
  | .stop reason => ⟨[], .stop reason data⟩
  | .functionClause => ⟨[], .stop .error data⟩

/-- The process crashes. -/
def crash : FsmRes := ⟨[], .stop .error data⟩

/-- `element_to_origin_accum/2`, `none` when it crashes. -/
def elementToOriginAccum (server : Server) (data : Data) (el : Element) : Option Acc := do
  let jid ← data.jid
  let toJid := if (el.attr? "to").isNone then some jid.toBare else none
  let acc ← newAcc server.lib el jid toJid
  return { acc with originSid := some data.sid, originJid := some jid }

variable (server : Server) (oracle : Oracle)

/-! ## Stream negotiation -/

/-- `stream_start_error/2` -/
def streamStartError (error : Element) : FsmRes :=
  (c2sStreamError data error).after [.header]

/-- `stream_start_features_before_auth/1` -/
def streamStartFeaturesBeforeAuth : FsmRes :=
  ⟨[.header, .element streamFeatures],
    .nextState (.waitForFeatureBeforeAuth authRetries) data [.stateTimeout]⟩

/-- `stream_start_features_after_auth/1` -/
def streamStartFeaturesAfterAuth : FsmRes :=
  ⟨[.header, .element streamFeatures],
    .nextState (.waitForFeatureAfterAuth bindRetries) data [.stateTimeout]⟩

variable (attrs : List (String × String))

/-- The domain that a stream header names, with its host type. -/
def streamDomain : Option (String × String) := do
  let lserver ← server.lib.nameprep ((attrs.lookup "to").getD "")
  let hostType ← server.getDomainHostType lserver
  return (lserver, hostType)

/-- `maybe_capture_from_jid_in_stream_start/1` -/
def maybeCaptureFromJidInStreamStart : Option Jid :=
  (attrs.lookup "from").bind server.lib.fromBinary

variable (data : Data)

/-- `handle_stream_start/3` -/
def handleStreamStart (attrs : List (String × String)) (streamState : StreamState) : FsmRes :=
  let sender := maybeCaptureFromJidInStreamStart server attrs
  if attrs.lookup "xmlns:stream" ≠ some nsStream then
    streamStartError data (streamError "invalid-namespace")
  else
    match streamDomain server attrs with
    | none => streamStartError data (streamError "host-unknown")
    | some (lserver, hostType) =>
      let data1 := { data with hostType := some hostType, lserver := lserver }
      if attrs.lookup "version" = some xmppVersion then
        match streamState with
        | .streamStart => streamStartFeaturesBeforeAuth { data1 with jid := sender }
        | .authenticated => streamStartFeaturesAfterAuth data1
      else
        streamStartError { data1 with jid := sender } (streamError "unsupported-version")

/-- `handle_maybe_hide_service_name/2` -/
def handleMaybeHideServiceName : FsmRes :=
  if server.hideServiceName then ⟨[], .stop (.shutdown .streamError) data⟩
  else (c2sStreamError data (streamError "xml-not-well-formed")).after [.header]

variable (el : Element) (retries : ℕ)

/-- `handle_starttls/4` -/
def handleStarttls : FsmRes :=
  if data.listenerOpts.tls then
    FsmRes.after [.element (tlsElement "proceed")] <|
      match oracle.tls with
      | .ok => ⟨[], .nextState (.waitForStream .streamStart) data [.stateTimeout]⟩
      | .alreadyTlsConnection =>
        (retryState data (.waitForFeatureBeforeAuth retries)).after [.element
          (makeErrorReply el (stanzaErrort "400" "modify" "bad-request" "bad_config"))]
      | .closed => ⟨[], .stop (.shutdown .tlsClosed) data⟩
      | .timeout => ⟨[], .stop (.shutdown .tlsTimeout) data⟩
      | .tlsAlert => ⟨[], .stop (.shutdown .tlsAlert) data⟩
  else ⟨[.element (tlsElement "failure")], .stop (.shutdown .tlsFailure) data⟩

/-- `verify_initial_jid/2` -/
def verifyInitialJid : Option Jid → Jid → Bool
  | none, _ => true
  | some initialJid, saslJid => initialJid.areBareEqual saslJid

/-- `handle_sasl_success/3`, for the address that `mongoose_c2s_sasl` makes of the user. -/
def handleSaslSuccess (saslJid : Jid) : FsmRes :=
  if verifyInitialJid data.jid saslJid then
    ⟨[.element (saslElement "success")],
      .nextState (.waitForStream .authenticated) { data with jid := some saslJid } [.stateTimeout]⟩
  else c2sStreamError data (streamError "invalid-from")

/-- `handle_sasl_failure/4` -/
def handleSaslFailure : FsmRes :=
  (retryState data (.waitForFeatureBeforeAuth retries)).after [.element (saslElement "failure")]

/-- `handle_sasl_step/3` of `mongoose_c2s_sasl` and of `mongoose_c2s`. -/
def handleSaslStep : FsmRes :=
  match oracle.sasl with
  | .success user =>
    match server.lib.makeBare user data.lserver with
    | some saslJid => handleSaslSuccess data saslJid
    -- the name of a user that has authenticated is a prepared one
    | none => crash data
  | .continue =>
    ⟨[.element (saslElement "challenge")],
      .nextState (.waitForSaslResponse retries) data [.stateTimeout]⟩
  | .failure => handleSaslFailure data retries
  | .error => c2sStreamError data (streamErrort "encryption-required" "")

/-! ## Sessions -/

/-- `user_open_session` for a session that is to be established: `verify_user/4`. -/
def verifyUser (newState : State) (hookAcc : HookAcc) : HookResult :=
  if newState = .sessionEstablished then oracle.userOpenSession.run hookAcc
  else ⟨.ok, hookAcc, []⟩

/-- The actions of `maybe_open_session/3`. -/
def openSessionActions (newState : State) : List Action :=
  if newState = .sessionEstablished ∧ oracle.replacesSessions then
    [.timeout .replacedWaitTimeout (server.replacedWaitTimeout (data.hostType.getD ""))
      .replacedPids]
  else []

/-- `maybe_open_session/3` with `finish_open_session/4` -/
def finishOpenSession (oldState newState : State) (res : HookResult) : FsmRes :=
  match res.verdict with
  | .ok =>
    let hookAcc := res.hookAcc.toAcc [.actions (openSessionActions server oracle data newState)]
    (handleStateAfterPacket data newState hookAcc).after res.outputs
  | .stop =>
    (retryState data oldState).after (res.outputs ++
      [.element (makeErrorReply res.hookAcc.acc.element notAllowed)])

/-- The resource that a bind request names, `some ""` if it names none, `none` if the resource
cannot be prepared. -/
def requestedResource (iq : Iq) : Option String :=
  match iq.subEl.children.find? fun child => child.name = "resource" with
  | none => some ""
  | some resource => server.lib.resourceprep resource.cdata

/-- `maybe_wait_for_session/1` -/
def maybeWaitForSession : State :=
  if data.listenerOpts.backwardsCompatibleSession then .waitForSessionEstablishment
  else .sessionEstablished

variable (state : State)

/-- `handle_bind_resource/4` -/
def handleBindResource (el : Element) (iq : Iq) : FsmRes :=
  match requestedResource server iq with
  | none => (retryState data state).after [.element (makeErrorReply el badRequest)]
  | some resource =>
    let newData := data.replaceResource oracle.newResource resource
    let nextState := maybeWaitForSession newData
    match newData.jid, elementToOriginAccum server newData el with
    | some jid, some acc =>
      let c2sAcc : C2SAcc :=
        { c2sState := some nextState, socketSend := [successfulResourceBinding iq jid] }
      finishOpenSession server oracle newData state nextState
        (verifyUser oracle nextState ⟨acc, c2sAcc⟩)
    | _, _ => crash data

/-- `user_send_packet`: stream management comes first. -/
def runUserSendPacket (hookAcc : HookAcc) : HookResult :=
  (userSendPacket data hookAcc).andThen oracle.userSendPacket.run

/-- `handle_session_establishment/4` -/
def handleSessionEstablishment (el : Element) (iq : Iq) : FsmRes :=
  match elementToOriginAccum server data el with
  | none => crash data
  | some acc =>
    let established := acc.updateStanza (some (.server data.lserver)) data.jid
      (successfulSessionEstablishment iq)
    let c2sAcc : C2SAcc :=
      { c2sState := some .sessionEstablished
        actions := [.nextEvent (.info (.route established))] }
    let sent := runUserSendPacket oracle data ⟨acc, c2sAcc⟩
    -- the verdicts of `user_send_packet` and `user_send_iq` are ignored
    let iqSent := oracle.userSendStanza.run sent.hookAcc
    finishOpenSession server oracle data state .sessionEstablished
      (verifyUser oracle .sessionEstablished iqSent.hookAcc)

/-! ## Stanzas -/

/-- `user_send_xmlel`: stream management comes after `mod_register` and before `mod_csi`. -/
def runUserSendXmlel (hookAcc : HookAcc) : HookResult :=
  ((oracle.userSendXmlelBefore.run hookAcc).andThen
    (userSendXmlel server oracle data state)).andThen oracle.userSendXmlelAfter.run

/-- `handle_foreign_packet/3` -/
def handleForeignPacket (el : Element) : FsmRes :=
  let serverJid := some (Jid.server data.lserver)
  finishHook data state (runUserSendXmlel server oracle data state
    { acc := { element := el, fromJid := serverJid, toJid := serverJid } })

/-- `maybe_route/1` -/
def maybeRoute : HookResult :=
  match res.verdict with
  | .ok => { res with outputs := res.outputs ++ [.route res.hookAcc.acc] }
  | .stop => res

/-- `handle_stanza_from_client/4` -/
def handleStanzaFromClient (hookAcc : HookAcc) : HookResult :=
  match hookAcc.acc.stanzaName with
  | "message" => maybeRoute (oracle.userSendStanza.run hookAcc)
  | "iq" => maybeRoute (oracle.userSendStanza.run hookAcc)
  | "presence" => oracle.userSendStanza.run hookAcc
  | _ => runUserSendXmlel server oracle data state hookAcc

/-- `handle_c2s_packet/3` -/
def handleC2SPacket (el : Element) : FsmRes :=
  match elementToOriginAccum server data el with
  | none => crash data
  | some acc =>
    finishHook data state ((runUserSendPacket oracle data { acc := acc }).andThen
      (handleStanzaFromClient server oracle data state))

/-- `verify_from/2` -/
def verifyFrom (jid : Option Jid) : Bool :=
  match el.attr? "from" with
  | none => true
  | some sender =>
    match server.lib.fromBinary sender, jid with
    | some given, some jid =>
      if given.lresource = "" then given.areBareEqual jid else given = jid
    | _, _ => false

/-- `verify_to/1` -/
def verifyTo : Bool :=
  match el.attr? "to" with
  | none => true
  | some receiver => (server.lib.fromBinary receiver).isSome

/-- The clause of `handle_event/4` for an element in an established session. -/
def handleEstablishedElement : FsmRes :=
  if verifyFrom server el data.jid then
    if verifyTo server el then handleC2SPacket server oracle data .sessionEstablished el
    else
      -- the reply goes to the socket and to no hook
      (handleStateAfterPacket data .sessionEstablished
        { acc := { element := makeErrorReply el jidMalformed
                   fromJid := some (.server data.lserver), toJid := data.jid } }).after
        [.element (makeErrorReply el jidMalformed)]
  else c2sStreamError data (streamError "invalid-from")

/-- `maybe_send_element/2` -/
def maybeSendElement : HookResult :=
  match res.verdict with
  | .ok => { res with outputs := res.outputs ++ [.element res.hookAcc.acc.element] }
  | .stop => res

/-- `handle_flush/3` -/
def handleFlush (hookAcc : HookAcc) : FsmRes :=
  finishHook data state (maybeSendElement ((oracle.xmppPresendElement.run hookAcc).andThen
    (xmppPresendElement oracle data state)))

/-- `handle_route/3` with `handle_route_packet/4` -/
def handleRoute (acc : Acc) : FsmRes :=
  match acc.fromJid with
  | none => crash data
  | some sender =>
    let acc1 := acc.updateStanza acc.fromJid acc.toJid
      (replaceFromTo sender acc.toJid acc.element)
    let res := (userReceivePacket data { acc := acc1 }).andThen oracle.userReceiveStanza.run
    match res.verdict with
    | .ok => handleFlush oracle data state res.hookAcc
    | .stop => finishHook data state res

/-! ## Other events -/

/-- `handle_foreign_event/4` -/
def handleForeignEvent (event : Event) : FsmRes :=
  let hookAcc : HookAcc := { acc := { element := .mk "" [] [] "", fromJid := none, toJid := none } }
  let res := ((oracle.foreignEventBefore.run hookAcc).andThen
    (foreignEvent oracle data event)).andThen oracle.foreignEventAfter.run
  match res.verdict with
  | .ok => ⟨res.outputs, .keepState data []⟩
  | .stop => finishHook data state res

/-- `handle_stop_request/3`, `handle_socket_closed/3` and `handle_socket_error/3` with
`stop_if_unhandled/4`. -/
def handleStopping (reason : Reason) : FsmRes :=
  let hookAcc : HookAcc := { acc := { element := .mk "" [] [] "", fromJid := none, toJid := none } }
  let res := (oracle.userStopping.run hookAcc).andThen (handleUserStopping server data)
  match res.verdict with
  | .ok => ⟨res.outputs, .stop (.shutdown reason) data⟩
  | .stop => finishHook data state res

/-- `handle_socket_elements/3` -/
def handleSocketElements (events : List XmlEvent) : FsmRes :=
  ⟨[], .keepState data (events.map fun event => .nextEvent (.xml event))⟩

/-- `handle_info/3` -/
def handleInfo : Info → FsmRes
  | .route acc => handleRoute oracle data state acc
  | .element el => handleC2SPacket server oracle data state el
  | .socketData events => handleSocketElements data events
  | .badSocketData => ⟨[], .stop (.shutdown .socketError) data⟩
  | .socketClosed => handleStopping server oracle data state .socketClosed
  | .socketError => handleStopping server oracle data state .socketError
  | .other => handleForeignEvent oracle data state (.info .other)

/-- `handle_cast/3` -/
def handleCast : Cast → FsmRes
  | .exit (.replaced pid) =>
    ⟨[.element (streamErrort "conflict" "Replaced by new connection"), .trailer],
      .stop (.shutdown (.replaced pid)) data⟩
  | .exit (.text text) =>
    ⟨[.element (streamErrort "conflict" text), .trailer], .stop (.shutdown (.text text)) data⟩
  | .exit .systemShutdown =>
    ⟨[.element (streamError "system-shutdown"), .trailer],
      .stop (.shutdown .systemShutdown) data⟩
  | .exit reason => handleForeignEvent oracle data state (.cast (.exit reason))
  | .stop reason => handleStopping server oracle data state reason
  | .async => ⟨[], .keepState data []⟩
  | .asyncWithState => ⟨[], .keepState data []⟩
  | .other => handleForeignEvent oracle data state (.cast .other)

/-- `handle_timeout/4` -/
def handleTimeout (name : TimerName) (payload : Payload) : FsmRes :=
  match name, payload with
  | .activateSocket, .activateSocket => ⟨[], .keepState data []⟩
  | .replacedWaitTimeout, .replacedPids => ⟨[], .keepState data []⟩
  | _, .handler =>
    handleStateResult data state
      (getStatemResult (toAccMany {} (oracle.timeoutHandler.map ModuleRequest.toRequest)))
  | _, _ => handleForeignEvent oracle data state (.timeout name payload)

/-- The clauses of `handle_event/4` for what came from the parser, after those for the stream
header. -/
def handleXml : XmlEvent → FsmRes
  | .streamStart _ => c2sStreamError data (streamError "policy-violation")
  | .streamEnd => ⟨[.trailer], .stop (.shutdown .streamEnd) data⟩
  | .streamError name =>
    if name = "element too big" then
      c2sStreamError data (streamErrort "policy-violation" name)
    else c2sStreamError data (streamErrort "xml-not-well-formed" name)
  | .element el =>
    let isIn (ns : String) (res : FsmRes) : FsmRes :=
      if el.attr? "xmlns" = some ns then res
      else c2sStreamError data (streamError "invalid-namespace")
    match el.name, state with
    | "starttls", .waitForFeatureBeforeAuth retries =>
      isIn nsTls (handleStarttls oracle data el retries)
    | "auth", .waitForFeatureBeforeAuth retries =>
      isIn nsSasl (handleSaslStep server oracle data retries)
    | "response", .waitForSaslResponse retries =>
      isIn nsSasl (handleSaslStep server oracle data retries)
    | "abort", .waitForSaslResponse retries => isIn nsSasl (handleSaslFailure data retries)
    | "iq", .waitForFeatureAfterAuth _ =>
      match iqQueryInfo el with
      | some iq =>
        if iq.type = .set ∧ iq.xmlns = nsBind then
          handleBindResource server oracle data state el iq
        else (retryState data state).after [.element (makeErrorReply el badRequest)]
      | none => (retryState data state).after [.element (makeErrorReply el badRequest)]
    | "iq", .waitForSessionEstablishment =>
      match iqQueryInfo el with
      | some iq =>
        if iq.type = .set ∧ iq.xmlns = nsSession then
          handleSessionEstablishment server oracle data state el iq
        else handleForeignPacket server oracle data state el
      | none => handleForeignPacket server oracle data state el
    | _, .sessionEstablished => handleEstablishedElement server oracle data el
    | _, _ => handleForeignPacket server oracle data state el

/-- `handle_event/4` of `mongoose_c2s`. -/
def handleEvent (event : Event) : FsmRes :=
  match event, state with
  | .connect isBlacklisted, .connect =>
    if isBlacklisted then ⟨[], .stop (.shutdown .ipBlacklisted) data⟩
    else ⟨[], .nextState (.waitForStream .streamStart) data [.stateTimeout]⟩
  | .xml (.streamStart attrs), .waitForStream streamState =>
    handleStreamStart server data attrs streamState
  | .xml _, .waitForStream _ => handleMaybeHideServiceName server data
  | .flush _, .waitForStream _ => handleMaybeHideServiceName server data
  | .xml xml, _ => handleXml server oracle data state xml
  | .flush acc, _ => handleFlush oracle data state { acc := acc }
  | .info info, _ => handleInfo server oracle data state info
  | .cast cast, _ => handleCast server oracle data state cast
  | .timeout name payload, _ => handleTimeout oracle data state name payload
  | .stateTimeout, .waitForStream .streamStart =>
    streamStartError data (streamError "connection-timeout")
  | .stateTimeout, _ =>
    ⟨[.element (streamError "connection-timeout"), .trailer],
      .stop (.shutdown .stateTimeout) data⟩
  | .connect _, _ => handleForeignEvent oracle data state event
  | .call _ _, _ => handleForeignEvent oracle data state event

end MongooseIM.C2S

namespace MongooseIM.StreamManagement

open Xmpp C2S

/-- `handle_event/4` of `mod_stream_management`. -/
def handleEvent (server : Server) (oracle : Oracle) (data : Data) (state : State)
    (event : Event) : FsmRes :=
  match event, state with
  | .call sender (.resume h), .extResumeSession =>
    match handleResumeCall data sender h oracle.mailbox with
    | (.ok smState, outputs) =>
      ⟨outputs, .stop (.shutdown .resumed) (data.mergeModState smState)⟩
    | (.error, outputs) => ⟨outputs, .stop (.shutdown .resumed) data⟩
    | (.crash, outputs) => ⟨outputs, .stop .error data⟩
  | .timeout .modStreamManagement .resumeTimeout, .extResumeSession =>
    ⟨[], .stop (.shutdown .modStreamManagement) data⟩
  | _, _ => C2S.handleEvent server oracle data state event

end MongooseIM.StreamManagement
