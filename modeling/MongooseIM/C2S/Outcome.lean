import MongooseIM.C2S.Summary

/-! # What one event can do to a session

Every clause of `handle_event/4`, with everything that other modules may request, comes down to one
of a few `Outcome`s: the session stops, goes on unchanged, counts a stanza, takes an ack, writes or
buffers a stanza, waits for its resumption, or moves on in the negotiation. Later modules read the
callbacks through **`step_outcome`** and do not unfold them. -/

namespace MongooseIM.C2S

open Xmpp StreamManagement Option

/-- How far a session has come. -/
inductive Phase
  | connecting
  /-- Between the first stream header and the end of the SASL exchange. -/
  | identified
  | authenticated
  | bound
  deriving DecidableEq

/-- The phase of a state. -/
def State.phase : State → Phase
  | .connect => .connecting
  | .waitForStream .streamStart => .connecting
  | .waitForStream .authenticated => .authenticated
  | .waitForFeatureBeforeAuth _ => .identified
  | .waitForSaslResponse _ => .identified
  | .waitForFeatureAfterAuth _ => .authenticated
  | _ => .bound

/-- Whether an element asks for a session to be established. -/
def isSessionRequest (el : Element) : Bool :=
  match iqQueryInfo el with
  | some iq => iq.type = .set && iq.xmlns = nsSession
  | none => false

/-- The accumulator of `handle_foreign_packet/3`. -/
def foreignAcc (data : Data) (el : Element) : Acc :=
  { element := el
    fromJid := some (.server data.lserver)
    toJid := some (.server data.lserver) }

variable (server : Server) (oracle : Oracle)

/-- Whether `handle_foreign_packet/3` leads to `user_send_packet/3` of stream management. -/
def isCountedForeign (data : Data) (el : Element) : Bool :=
  oracle.userSendXmlelBefore.verdict = .ok &&
    (oracle.userSendXmlelBefore.change (foreignAcc data el)).element.attr? "xmlns" ≠
      some nsStreamMgnt

/-- Whether stream management counts the element that an event carries, if it is a stanza. -/
def isCountedPath (data : Data) (state : State) : Event → Bool
  | .info (.element el) => (elementToOriginAccum server data el).isSome
  | .xml (.element el) =>
    match state with
    | .waitForStream _ => false
    | .waitForFeatureAfterAuth _ => el.name ≠ "iq" && isCountedForeign oracle data el
    | .waitForSessionEstablishment =>
      if el.name = "iq" && isSessionRequest el then
        (elementToOriginAccum server data el).isSome && oracle.userOpenSession.verdict = .ok
      else isCountedForeign oracle data el
    | .sessionEstablished =>
      verifyFrom server el data.jid && verifyTo server el &&
        (elementToOriginAccum server data el).isSome
    | _ => isCountedForeign oracle data el
  | _ => false

/-- Whether an event carries a stanza of the client. -/
def Event.isStanza (event : Event) : Bool :=
  event.received?.any fun el => isStanzaName el.name

/-- Whether an event makes stream management count a stanza. -/
def isCounted (data : Data) (state : State) (event : Event) : Bool :=
  data.stateMod.isSome && event.isStanza && isCountedPath server oracle data state event

/-- The hooks of `handle_route/3` for a stanza from a sender. -/
def receiveHooks (data : Data) (sender : Jid) (acc : Acc) : HookResult :=
  (userReceivePacket data
    { acc := acc.updateStanza acc.fromJid acc.toJid
        (replaceFromTo sender acc.toJid acc.element) }).andThen oracle.userReceiveStanza.run

/-- The accumulator that an event brings to the handler of `xmpp_presend_element`. -/
def presendAcc (data : Data) : Event → Option Acc
  | .flush acc => beforePresend acc
  | .info (.route acc) =>
    acc.fromJid.bind fun sender =>
      match (receiveHooks oracle data sender acc).verdict with
      | .ok => beforePresend (receiveHooks oracle data sender acc).hookAcc.acc
      | .stop => none
  | _ => none
where
  beforePresend (acc : Acc) : Option Acc :=
    match oracle.xmppPresendElement.verdict with
    | .ok => some (oracle.xmppPresendElement.change acc)
    | .stop => none

/-- What one event can do to a session. -/
inductive Outcome (data : Data) (state : State) (event : Event) : Summary → Prop
  /-- The session stops; its counter of received stanzas is the same. -/
  | stop {data'} (hcount : isCounted server oracle data state event = false)
      (hdata : data'.stateMod.map SmState.counterIn = data.stateMod.map SmState.counterIn) :
      Outcome data state event (.stop data')
  | idle {state'} (hcount : isCounted server oracle data state event = false)
      (hphase : state'.phase = state.phase ∨
        state.phase = .identified ∧ state'.phase = .connecting)
      (hstate : state' = .extResumeSession → state = .extResumeSession) :
      Outcome data state event (.next state' data 0 [])
  | count {smState state'} (hsm : data.stateMod = some smState)
      (hcount : isCounted server oracle data state event = true)
      (hphase : state'.phase = state.phase)
      (hstate : state' = .extResumeSession → state = .extResumeSession) :
      Outcome data state event (.next state'
        (data.mergeModState { smState with counterIn := incrCounter smState.counterIn }) 0 [])
  | reply {state' n} (hcount : isCounted server oracle data state event = false)
      (hphase : state'.phase = state.phase)
      (hstate : state' = .extResumeSession → state = .extResumeSession)
      (hcause : state.phase ≠ .bound ∨ state = .sessionEstablished ∧
        ∃ el, event = .xml (.element el) ∧ verifyFrom server el data.jid = true ∧
          verifyTo server el = false ∧ n = if isStanzaName el.name then 1 else 0) :
      Outcome data state event (.next state' data n [])
  | enable {bufferMax ackFreq} (hcount : isCounted server oracle data state event = false)
      (hphase : state.phase = .bound) (hsm : data.stateMod = none) :
      Outcome data state event
        (.next state (data.mergeModState (buildSmHandler bufferMax ackFreq)) 0 [])
  | ack {smState smState' h} (hcount : isCounted server oracle data state event = false)
      (hsm : data.stateMod = some smState) (hack : doHandleAck smState h = .ok smState') :
      Outcome data state event (.next state (data.mergeModState smState') 0 [])
  | unbuffered {acc n} (hcount : isCounted server oracle data state event = false)
      (hacc : presendAcc oracle data event = some acc)
      (hcause : data.stateMod = none ∨ acc.stanzaType = some "probe" ∨
        ∃ smState, data.stateMod = some smState ∧ smState.bufferMax = .noBuffer)
      (hwritten : isStanzaElement acc = false → n = 0) :
      Outcome data state event (.next state data n [])
  /-- A stanza is buffered, and written if the session has its socket. -/
  | buffered {smState acc acc' n} (hcount : isCounted server oracle data state event = false)
      (hacc : presendAcc oracle data event = some acc)
      (hsm : data.stateMod = some smState) (htype : acc.stanzaType ≠ some "probe")
      (hmax : smState.bufferMax ≠ .noBuffer)
      (href : preventBufferDuplication oracle.newRef acc smState = some acc')
      (hwritten : state ≠ .extResumeSession → n = if isStanzaElement acc then 1 else 0) :
      Outcome data state event
        (.next state (data.mergeModState (smState.push acc')) n (bufferFullActions smState))
  /-- The session has lost its socket and waits for its resumption. -/
  | suspend {smState time} (hcount : isCounted server oracle data state event = false)
      (hsm : data.stateMod = some smState) :
      Outcome data state event (.next .extResumeSession (data.mergeModState smState) 0
        [.pushCallbackModule .modStreamManagement,
          .timeout .modStreamManagement time .resumeTimeout])
  | header {attrs lserver hostType} (hcount : isCounted server oracle data state event = false)
      (hstate : state = .waitForStream .streamStart) (hevent : event = .xml (.streamStart attrs))
      (hdomain : streamDomain server attrs = some (lserver, hostType)) :
      Outcome data state event (.next (.waitForFeatureBeforeAuth authRetries)
        { data with
          hostType := some hostType
          lserver := lserver
          jid := maybeCaptureFromJidInStreamStart server attrs } 0 [])
  | restart {attrs lserver hostType} (hcount : isCounted server oracle data state event = false)
      (hstate : state = .waitForStream .authenticated)
      (hevent : event = .xml (.streamStart attrs))
      (hdomain : streamDomain server attrs = some (lserver, hostType)) :
      Outcome data state event (.next (.waitForFeatureAfterAuth bindRetries)
        { data with hostType := some hostType, lserver := lserver } 0 [])
  | login {user saslJid} (hcount : isCounted server oracle data state event = false)
      (hphase : state.phase = .identified) (huser : oracle.sasl = .success user)
      (hjid : server.lib.makeBare user data.lserver = some saslJid) :
      Outcome data state event
        (.next (.waitForStream .authenticated) { data with jid := some saslJid } 0 [])
  | bind {generated resource state' n} (hcount : isCounted server oracle data state event = false)
      (hevent : ∃ el, event = .xml (.element el) ∧ el.name = "iq")
      (hphase : state.phase = .authenticated)
      (hphase' : state'.phase = .authenticated ∨ state'.phase = .bound)
      (hstate : state' ≠ .extResumeSession) :
      Outcome data state event (.next state' (data.replaceResource generated resource) n [])
  | resume {old n} (hcount : isCounted server oracle data state event = false)
      (hphase : state.phase = .authenticated) (hpeer : oracle.peer = .ok old)
      (hold : old.stateMod.isSome) :
      Outcome data state event (.next .sessionEstablished (mergeStates old data) n [])

variable {server : Server} {oracle : Oracle} {data : Data} {state : State} {event : Event}

/-- Only stanzas are counted. -/
theorem isCounted_eq_false (h : event.isStanza = false) :
    isCounted server oracle data state event = false := by
  rw [isCounted, h, Bool.and_false, Bool.false_and]

theorem isCounted_eq_false_of_path (h : isCountedPath server oracle data state event = false) :
    isCounted server oracle data state event = false := by
  rw [isCounted, h, Bool.and_false]

theorem outcome_stop (hcount : isCounted server oracle data state event = false) :
    Outcome server oracle data state event (.stop data) := .stop hcount rfl

variable {newState : State}

theorem maybeRetryState_phase {state : State} (h : maybeRetryState state = .state newState) :
    newState.phase = state.phase ∧ (newState = .extResumeSession → state = .extResumeSession) := by
  rw [maybeRetryState.eq_def] at h
  split at h <;> cases h <;> exact ⟨rfl, by simp⟩

/-- The only stop that is not for too many retries is that of a session to be established. -/
theorem maybeRetryState_stop {state : State} {reason : Reason}
    (h : maybeRetryState state = .stop reason) (hreason : reason ≠ .shutdown .retries) :
    state = .waitForSessionEstablishment := by
  rw [maybeRetryState.eq_def] at h
  split at h <;> first
    | rfl
    | cases h
  all_goals exact absurd rfl hreason

/-- A retry stops the session or changes its state only. -/
theorem summary_retryState (data : Data) (state oldState : State) (outputs : List Output) :
    ((retryState data state).after outputs).summary oldState = .stop data ∨
    ∃ newState, maybeRetryState state = .state newState ∧
      ((retryState data state).after outputs).summary oldState =
        .next newState data (stanzasWritten outputs) [] := by
  rw [retryState]
  cases hretry : maybeRetryState state with
  | state newState =>
    refine .inr ⟨newState, rfl, ?_⟩
    simp [FsmRes.summary, FsmRes.after, Action.concernsSm]
  | stop reason => exact .inl rfl
  | functionClause => exact .inl rfl

variable {outputs : List Output} {state' : State}

/-- What `maybe_retry_state/1` can lead to. -/
theorem outcome_retryState (hcount : isCounted server oracle data state event = false)
    (hphase : state'.phase = state.phase)
    (hstate : state' = .extResumeSession → state = .extResumeSession)
    (hwritten : stanzasWritten outputs = 0) :
    Outcome server oracle data state event
    (((retryState data state').after outputs).summary state) := by
  rcases summary_retryState data state' state outputs with h | ⟨newState, hretry, h⟩
  · rw [h]
    exact outcome_stop hcount
  · obtain ⟨hphase', hstate'⟩ := maybeRetryState_phase hretry
    rw [h, hwritten]
    exact .idle hcount (.inl (hphase'.trans hphase)) (hstate ∘ hstate')

/-- The requests after `user_send_packet/3`. -/
def bump (data : Data) (acc : Acc) (c2sAcc : C2SAcc) : C2SAcc :=
  match data.stateMod, isStanzaElement acc with
  | some smState, true =>
    { c2sAcc with
      stateMod := some { smState with counterIn := incrCounter smState.counterIn } }
  | _, _ => c2sAcc

theorem userSendPacket_eq (data : Data) (hookAcc : HookAcc) : userSendPacket data hookAcc =
    ⟨.ok, { hookAcc with statemAcc := bump data hookAcc.acc hookAcc.statemAcc }, []⟩ := by
  simp only [userSendPacket, bump]
  cases data.stateMod with
  | none => rfl
  | some smState => cases isStanzaElement hookAcc.acc <;> rfl

theorem strip_bump (data : Data) (acc : Acc) (c2sAcc : C2SAcc) :
    (bump data acc c2sAcc).strip = bump data acc c2sAcc.strip := by
  simp only [bump]
  cases data.stateMod with
  | none => rfl
  | some smState => cases isStanzaElement acc <;> rfl

variable {acc : Acc}

/-- What is no stanza leaves the requests as they are. -/
theorem bump_eq_self (h : isStanzaElement acc = false) (c2sAcc : C2SAcc) :
    bump data acc c2sAcc = c2sAcc := by
  rw [bump, h]
  split
  · next heq => cases heq
  · rfl

@[simp] theorem runUserSendPacket_eq (oracle : Oracle) (data : Data) (hookAcc : HookAcc) :
    runUserSendPacket oracle data hookAcc = oracle.userSendPacket.run
      { hookAcc with statemAcc := bump data hookAcc.acc hookAcc.statemAcc } := by
  rw [runUserSendPacket, userSendPacket_eq]
  rfl

/-- A stanza that is counted, with no other effect than on the state. -/
theorem outcome_bump (newState : Option State) (hcount : isCounted server oracle data state event =
    (data.stateMod.isSome && isStanzaElement acc))
    (hphase : (newState.getD state').phase = state.phase)
    (hstate : newState.getD state' = .extResumeSession → state = .extResumeSession) :
    Outcome server oracle data state event
    ((bump data acc { c2sState := newState }).summary data state' 0) := by
  rw [bump]
  split
  · next smState hsm hstanza =>
    rw [hsm, hstanza] at hcount
    exact .count hsm hcount hphase hstate
  · next hnone =>
    refine .idle ?_ (.inl hphase) hstate
    rw [hcount]
    cases hsm : data.stateMod with
    | none => rfl
    | some smState =>
      cases hstanza : isStanzaElement acc with
      | false => rfl
      | true => exact absurd hstanza (hnone smState hsm)

variable {h : ℕ} {smState : SmState}

/-- The error of an ack that is refused is no stanza. -/
theorem stanzasWritten_doHandleAck {errorStanza : Element}
    (herror : doHandleAck smState h = .error errorStanza) :
    stanzasWritten (streamErrorOutputs errorStanza) = 0 := by
  simp only [doHandleAck] at herror
  split at herror
  · obtain rfl := AckResult.error.inj herror
    rfl
  · split at herror <;> cases herror

/-- What a request to resume comes to: the state of another session, or an element of stream
management. -/
def ResumesOrFails (oracle : Oracle) (data : Data) : ResumeReturn → Prop
  | .ok _ _ newData =>
    ∃ old, oracle.peer = .ok old ∧ old.stateMod.isSome = true ∧ newData = mergeStates old data
  | .streamMgmtError errorStanza => errorStanza.name = "failed"
  | .error errorStanza => errorStanza.name = "failed"
  | .errorReason _ => True
  | .badmatch => True

theorem resumesOrFails_handleResume (server : Server) (oracle : Oracle) (data : Data)
    (el : Element) : ResumesOrFails oracle data (handleResume server oracle data el) := by
  rw [handleResume.eq_def]
  split
  · rfl
  · rfl
  · rfl
  · rw [doHandleResume]
    split
    · split
      · next old hpeer =>
        rw [doResume]
        split
        · trivial
        · next smState hold => exact ⟨old, hpeer, isSome_iff_exists.2 ⟨smState, hold⟩, rfl⟩
      · trivial
      · rfl
    · rfl
    · rfl

section StreamMgmt

variable {hookAcc : HookAcc} (hstrip : hookAcc.statemAcc.strip = {})
  (hcount : isCounted server oracle data state event = false)

include hstrip hcount

theorem outcome_unchanged (verdict : Verdict) : Outcome server oracle data state event
    (HookResult.summary data state ⟨verdict, hookAcc, []⟩) := by
  rw [HookResult.summary, hstrip]
  exact .idle hcount (.inl rfl) id

/-- What `handle_r/2` can do. -/
theorem outcome_handleR :
    Outcome server oracle data state event ((handleR data hookAcc).summary data state) := by
  rw [handleR]
  split
  · exact outcome_unchanged hstrip hcount .ok
  · rw [summary_toAcc hstrip]
    exact .idle hcount (.inl rfl) id

/-- What `handle_a/3` can do. -/
theorem outcome_handleA (el : Element) :
    Outcome server oracle data state event ((handleA data hookAcc el).summary data state) := by
  rw [handleA.eq_def]
  split
  · exact outcome_unchanged hstrip hcount .ok
  · rw [summary_toAcc hstrip]
    exact outcome_stop hcount
  · next smState h hsm _ =>
    split
    · next newSmState hack =>
      rw [summary_toAcc hstrip]
      exact .ack hcount hsm hack
    · next errorStanza herror =>
      rw [summary_toAcc hstrip, stanzasWritten_doHandleAck herror]
      exact .idle hcount (.inl rfl) id
    · exact outcome_unchanged hstrip hcount .ok

/-- What `handle_enable/3` can do. -/
theorem outcome_handleEnable (hphase : state.phase = .bound) (el : Element) :
    Outcome server oracle data state event
    ((handleEnable server oracle data hookAcc el).summary data state) := by
  rw [handleEnable.eq_def]
  split
  · rw [smStreamError, summary_toAcc hstrip]
    exact .idle hcount (.inl rfl) id
  · exact outcome_unchanged hstrip hcount .ok
  · next hostType hsm hhost =>
    dsimp only
    split
    · rw [summary_toAcc hstrip]
      exact .enable hcount hphase hsm
    · split
      · rw [summary_toAcc hstrip]
        exact .enable hcount hphase hsm
      · rw [smStreamError, summary_toAcc hstrip]
        exact .idle hcount (.inl rfl) id

/-- What a failed resumption can do. -/
theorem outcome_streamMgmtError {errorStanza : Element} (hname : errorStanza.name = "failed") :
    Outcome server oracle data state event
    ((streamMgmtError state hookAcc errorStanza).summary data state) := by
  have hstanza : 0 + [errorStanza].countP (fun el => isStanzaName el.name) = 0 := by
    simp [hname, isStanzaName]
  have hsent (newState : State) : HookResult.summary data state
        ⟨.stop, hookAcc.toAcc [.c2sState newState, .socketSend [errorStanza]], []⟩ =
        .next newState data 0 [] :=
    (summary_toAcc hstrip data state _ _ _).trans (congrArg (Summary.next newState data · []) hstanza)
  rw [streamMgmtError.eq_def]
  split
  · rw [summary_toAcc hstrip]
    exact .idle hcount (.inl rfl) id
  · next newState hretry =>
    obtain ⟨hphase, hstate⟩ := maybeRetryState_phase hretry
    rw [hsent]
    exact .idle hcount (.inl hphase) hstate
  · next reason hreason hretry =>
    rw [hsent]
    -- the only other stop is that of a session that is not established yet
    obtain rfl := maybeRetryState_stop hretry hreason
    exact .idle hcount (.inl rfl) (fun h => by cases h)
  · exact outcome_unchanged hstrip hcount .ok

theorem outcome_unexpectedSmRequest : Outcome server oracle data state event
    ((unexpectedSmRequest state hookAcc).summary data state) :=
  outcome_streamMgmtError hstrip hcount rfl

/-- What a request to resume can do. -/
theorem outcome_handleResumeRequest (hphase : state.phase = .authenticated) (el : Element) :
    Outcome server oracle data state event
    ((handleResumeRequest server oracle data state hookAcc el).summary data state) := by
  have hcases := resumesOrFails_handleResume server oracle data el
  rw [handleResumeRequest]
  split
  · next errorStanza hresume =>
    rw [hresume] at hcases
    exact outcome_streamMgmtError hstrip hcount hcases
  · rw [summary_toAcc hstrip]
    refine .reply hcount rfl id (.inl ?_)
    rw [hphase]
    simp
  · next errorStanza hresume =>
    rw [hresume] at hcases
    have hname : errorStanza.name = "failed" := hcases
    have hstanza : 0 + [errorStanza].countP (fun el => isStanzaName el.name) = 0 := by
      simp [hname, isStanzaName]
    rw [summary_toAcc hstrip]
    exact (congrArg (Outcome server oracle data state event)
      (congrArg (Summary.next state data · []) hstanza)).mpr (.idle hcount (.inl rfl) id)
  · next resumed forward newData hresume =>
    rw [hresume] at hcases
    obtain ⟨old, hpeer, hold, rfl⟩ := hcases
    rw [summary_toAcc hstrip]
    exact .resume hcount hphase hpeer hold
  · exact outcome_unchanged hstrip hcount .ok

/-- What `handle_stream_mgmt/4` can do. -/
theorem outcome_handleStreamMgmt (el : Element) : Outcome server oracle data state event
    ((handleStreamMgmt server oracle data state hookAcc el).summary data state) := by
  rw [handleStreamMgmt.eq_def]
  split
  · exact outcome_handleA hstrip hcount el
  · exact outcome_handleR hstrip hcount
  · next hallowed =>
    refine outcome_handleEnable hstrip hcount ?_ el
    rw [isAllowedState.eq_def] at hallowed
    split at hallowed
    · rfl
    · rfl
    · cases hallowed
  · exact outcome_handleResumeRequest hstrip hcount rfl el
  · exact outcome_unexpectedSmRequest hstrip hcount

end StreamMgmt

@[simp] theorem isStanzaElement_change (reaction : Reaction) (acc : Acc) :
    isStanzaElement (reaction.change acc) = isStanzaElement acc := by
  rw [isStanzaElement, reaction.stanzaName_change, isStanzaElement]

/-- What `user_send_xmlel` can do. -/
theorem outcome_runUserSendXmlel {hookAcc : HookAcc} (hstrip : hookAcc.statemAcc.strip = {})
    (hcount : isCounted server oracle data state event =
    (data.stateMod.isSome && (isStanzaElement hookAcc.acc &&
      (oracle.userSendXmlelBefore.verdict = .ok &&
        (oracle.userSendXmlelBefore.change hookAcc.acc).element.attr? "xmlns" ≠
          some nsStreamMgnt)))) :
    Outcome server oracle data state event
    ((runUserSendXmlel server oracle data state hookAcc).summary data state) := by
  have hstrip' := (strip_run oracle.userSendXmlelBefore hookAcc).trans hstrip
  rw [runUserSendXmlel, summary_andThen_run, run_andThen]
  split
  · next hverdict =>
    refine outcome_unchanged hstrip' ?_ .stop
    rw [hcount, hverdict]
    simp
  · next hverdict =>
    rw [userSendXmlel]
    split
    · next hns =>
      refine outcome_handleStreamMgmt hstrip' ?_ _
      rw [acc_run] at hns
      rw [hcount, hns]
      simp
    · next hns =>
      rw [acc_run] at hns
      rw [userSendPacket_eq, HookResult.summary]
      simp only [strip_bump, hstrip', stanzasWritten_nil]
      refine outcome_bump none ?_ rfl id
      rw [hcount, hverdict]
      simp [hns]

variable {el : Element}

/-- What `handle_foreign_packet/3` can do. -/
theorem outcome_handleForeignPacket (hcount : isCounted server oracle data state event =
    (data.stateMod.isSome && (isStanzaName el.name && isCountedForeign oracle data el))) :
    Outcome server oracle data state event
    ((handleForeignPacket server oracle data state el).summary state) := by
  rw [handleForeignPacket, summary_finishHook]
  exact outcome_runUserSendXmlel (by rfl) hcount

/-- The accumulator carries the element. -/
theorem elementToOriginAccum_element
    (h : elementToOriginAccum server data el = some acc) : acc.element = el := by
  simp only [elementToOriginAccum, bind_eq_bind, bind_eq_some_iff, pure_def, some.injEq] at h
  obtain ⟨jid, -, acc', hacc', rfl⟩ := h
  simp only [newAcc] at hacc'
  split at hacc'
  · cases hacc'
    rfl
  · simp only [bind_eq_bind, bind_eq_some_iff, pure_def, some.injEq] at hacc'
    obtain ⟨_, _, _, _, rfl⟩ := hacc'
    rfl

variable {hookAcc : HookAcc}

/-- The handlers of a stanza request nothing that stream management sees. -/
theorem summary_handleStanzaFromClient
    (hstanza : isStanzaElement hookAcc.acc = true) (data' : Data) (state' : State) :
    (handleStanzaFromClient server oracle data state hookAcc).summary data' state' =
    hookAcc.statemAcc.strip.summary data' state' 0 := by
  have hroute (reaction : Reaction) : (maybeRoute (reaction.run hookAcc)).summary data' state' =
        hookAcc.statemAcc.strip.summary data' state' 0 := by
    rw [maybeRoute, verdict_run]
    cases reaction.verdict <;> simp [HookResult.summary, stanzasWritten, Output.isStanza]
  rw [handleStanzaFromClient.eq_def]
  split
  · exact hroute _
  · exact hroute _
  · rw [HookResult.summary, strip_run, outputs_run, stanzasWritten_nil]
  · next hmessage hiq hpresence =>
    simp only [isStanzaElement, isStanzaName, Bool.or_eq_true, decide_eq_true_eq] at hstanza
    rcases hstanza with (h | h) | h
    · exact (hmessage h).elim
    · exact (hiq h).elim
    · exact (hpresence h).elim

/-- Any other element goes through `user_send_xmlel`. -/
theorem handleStanzaFromClient_of_not_stanza (hstanza : isStanzaElement hookAcc.acc = false) :
    handleStanzaFromClient server oracle data state hookAcc =
    runUserSendXmlel server oracle data state hookAcc := by
  rw [isStanzaElement] at hstanza
  rw [handleStanzaFromClient.eq_def]
  split
  · next h => exact absurd hstanza (by rw [h]; decide)
  · next h => exact absurd hstanza (by rw [h]; decide)
  · next h => exact absurd hstanza (by rw [h]; decide)
  · rfl

/-- What `handle_c2s_packet/3` can do. -/
theorem outcome_handleC2SPacket (hcount : isCounted server oracle data state event =
    (data.stateMod.isSome && (isStanzaName el.name &&
      (elementToOriginAccum server data el).isSome))) :
    Outcome server oracle data state event
    ((handleC2SPacket server oracle data state el).summary state) := by
  rw [handleC2SPacket]
  split
  · next horigin =>
    refine outcome_stop ?_
    rw [hcount, horigin]
    simp
  · next acc horigin =>
    have hel : acc.element = el := elementToOriginAccum_element horigin
    have hcount : isCounted server oracle data state event =
        (data.stateMod.isSome && isStanzaElement acc) := by
      rw [hcount, horigin, isStanzaElement, Acc.stanzaName, hel]
      simp
    rw [summary_finishHook, ← HookResult.summary, runUserSendPacket_eq, run_andThen]
    split
    · rw [HookResult.summary, strip_run]
      simp only [strip_bump, strip_empty]
      exact outcome_bump none hcount rfl id
    · cases hstanza : isStanzaElement acc with
      | true =>
        rw [summary_handleStanzaFromClient (by simpa using hstanza), strip_run]
        simp only [strip_bump, strip_empty]
        exact outcome_bump none hcount rfl id
      | false =>
        have hstanza' := (isStanzaElement_change oracle.userSendPacket acc).trans hstanza
        rw [handleStanzaFromClient_of_not_stanza hstanza']
        refine outcome_runUserSendXmlel ?_ ?_
        · rw [strip_run]
          exact (strip_bump data acc {}).trans (bump_eq_self hstanza _)
        · rw [hcount, acc_run, hstanza', hstanza, Bool.false_and]

variable {res : HookResult}

theorem summary_finishOpenSession (hverdict : res.verdict = .ok) (oldState newState state : State) :
    (finishOpenSession server oracle data oldState newState res).summary state =
    res.summary data newState := by
  have hactions : (toAccMany res.hookAcc.statemAcc
      [.actions (openSessionActions server oracle data newState)]).strip =
        res.hookAcc.statemAcc.strip := by
    rw [openSessionActions]
    split <;> rfl
  rw [finishOpenSession, hverdict]
  simp only [handleStateAfterPacket, HookAcc.toAcc]
  rw [summary_handleStateResult, hactions, HookResult.summary]

variable {iq : Iq}

/-- What the establishment of a session can do. -/
theorem outcome_handleSessionEstablishment (hstate : state = .waitForSessionEstablishment)
    (hcount : isCounted server oracle data state event =
    (data.stateMod.isSome && (isStanzaName el.name &&
      ((elementToOriginAccum server data el).isSome && oracle.userOpenSession.verdict = .ok)))) :
    Outcome server oracle data state event
    ((handleSessionEstablishment server oracle data state el iq).summary state) := by
  rw [handleSessionEstablishment]
  split
  · next horigin =>
    refine outcome_stop ?_
    rw [hcount, horigin]
    simp
  · next acc horigin =>
    have hel : acc.element = el := elementToOriginAccum_element horigin
    simp only [runUserSendPacket_eq, verifyUser, if_pos]
    cases hverdict : oracle.userOpenSession.verdict with
    | ok =>
      rw [summary_finishOpenSession hverdict, HookResult.summary]
      simp only [strip_run, strip_bump, outputs_run, stanzasWritten_nil]
      refine outcome_bump (some .sessionEstablished) ?_ (by rw [hstate]; rfl) (fun h => by cases h)
      rw [hcount, horigin, hverdict, isStanzaElement, Acc.stanzaName, hel]
      simp
    | stop =>
      rw [finishOpenSession, verdict_run, hverdict, hstate]
      refine outcome_stop ?_
      rw [← hstate, hcount, hverdict]
      simp

theorem maybeWaitForSession_phase (data : Data) : (maybeWaitForSession data).phase = .bound ∧
    maybeWaitForSession data ≠ .extResumeSession := by
  rw [maybeWaitForSession]
  split <;> exact ⟨rfl, by simp⟩

theorem verifyUser_eq {hookAcc : HookAcc} (h : verifyUser oracle newState hookAcc = res) :
    res.hookAcc.statemAcc.strip = hookAcc.statemAcc.strip ∧ res.outputs = [] := by
  subst h
  rw [verifyUser]
  split
  · exact ⟨strip_run _ _, rfl⟩
  · exact ⟨rfl, rfl⟩

/-- What the binding of a resource can do. -/
theorem outcome_handleBindResource (hevent : ∃ el, event = .xml (.element el) ∧ el.name = "iq")
    (hphase : state.phase = .authenticated)
    (hcount : isCounted server oracle data state event = false) :
    Outcome server oracle data state event
    ((handleBindResource server oracle data state el iq).summary state) := by
  have hbound : state.phase ≠ .bound := by
    rw [hphase]
    decide
  rw [handleBindResource]
  split
  · rcases summary_retryState data state state [.element (makeErrorReply el badRequest)] with
      h | ⟨newState, hretry, h⟩
    · rw [h]
      exact outcome_stop hcount
    · obtain ⟨hphase', hstate'⟩ := maybeRetryState_phase hretry
      rw [h]
      exact .reply hcount hphase' hstate' (.inl hbound)
  · next resource hresource =>
    dsimp only
    split
    · next jid acc hjid hacc =>
      generalize hres : verifyUser oracle _ _ = res
      obtain ⟨hstrip, houtputs⟩ := verifyUser_eq hres
      obtain ⟨hphase', hstate'⟩ := maybeWaitForSession_phase
        (data.replaceResource oracle.newResource resource)
      cases hverdict : res.verdict with
      | ok =>
        rw [summary_finishOpenSession hverdict, HookResult.summary, hstrip, houtputs]
        exact .bind hcount hevent hphase (.inr hphase') hstate'
      | stop =>
        rw [finishOpenSession, hverdict]
        rcases summary_retryState (data.replaceResource oracle.newResource resource) state state
          (res.outputs ++ [.element (makeErrorReply res.hookAcc.acc.element notAllowed)]) with
          h | ⟨newState, hretry, h⟩
        · rw [h]
          exact .stop hcount rfl
        · obtain ⟨hphase', hstate'⟩ := maybeRetryState_phase hretry
          rw [h]
          refine .bind hcount hevent hphase (.inl (hphase'.trans hphase)) fun hext => ?_
          rw [hstate' hext] at hphase
          cases hphase
    · exact .stop hcount rfl

/-- What a hook leads to, with the stanza that `maybe_send_element/2` writes. -/
theorem summary_maybeSendElement (data : Data) (state : State) (res : HookResult) :
    (maybeSendElement res).summary data state =
    res.hookAcc.statemAcc.strip.summary data state (stanzasWritten res.outputs +
      if res.verdict = .ok ∧ isStanzaElement res.hookAcc.acc = true then 1 else 0) := by
  rw [maybeSendElement]
  cases hverdict : res.verdict with
  | stop =>
    rw [HookResult.summary, if_neg (by simp)]
    rfl
  | ok =>
    have hwritten : stanzasWritten [.element res.hookAcc.acc.element] =
        if isStanzaElement res.hookAcc.acc = true then 1 else 0 := by
      rw [stanzasWritten, List.countP_singleton]
      rfl
    rw [HookResult.summary]
    simp only [stanzasWritten_append, hwritten, true_and]

/-- A request for an ack is no stanza; a stanza is written unless the socket is lost. -/
theorem summary_maybeSendAckRequest (data : Data) (state : State) (hookAcc : HookAcc)
    (smState : SmState) :
    (maybeSendElement (maybeSendAckRequest hookAcc state smState)).summary data state =
    hookAcc.statemAcc.strip.summary data state
      (if state ≠ .extResumeSession ∧ isStanzaElement hookAcc.acc = true then 1 else 0) := by
  rw [summary_maybeSendElement, maybeSendAckRequest]
  split
  · next hrequested =>
    have hstate : state ≠ .extResumeSession := by
      rw [isAckRequested] at hrequested
      split at hrequested
      · simp only [Bool.and_eq_true, decide_eq_true_eq] at hrequested
        exact hrequested.2
      · cases hrequested
    simp only [hstate, ne_eq, not_false_eq_true, true_and, stanzasWritten_nil, Nat.zero_add]
    rfl
  · simp only [stanzasWritten_nil, Nat.zero_add, xmppPresendResult]
    by_cases hstate : state = .extResumeSession
    · simp [hstate]
    · simp [hstate]

/-- A stanza that is buffered, with the timeout for a buffer that is full. -/
theorem summary_handleBufferAndAck (hookAcc : HookAcc) (hstrip : hookAcc.statemAcc.strip = {})
    (data : Data) (state : State) (smState : SmState) :
    (maybeSendElement (handleBufferAndAck hookAcc state smState)).summary data state =
    .next state (data.mergeModState (smState.push hookAcc.acc))
      (if state ≠ .extResumeSession ∧ isStanzaElement hookAcc.acc = true then 1 else 0)
      (bufferFullActions smState) := by
  have hnotify : notifyUnacknowledgedMsgIfInResumeState hookAcc.acc state = hookAcc.acc := by
    rw [notifyUnacknowledgedMsgIfInResumeState, maybeNotifyUnacknowledgedMsg_eq, ite_self]
  have hactions : ((toAccMany {} [.actions (bufferFullActions smState),
      .stateMod (smState.push hookAcc.acc)]).strip).actions.reverse =
        bufferFullActions smState := by
    rw [bufferFullActions]
    split <;> rfl
  rw [handleBufferAndAck, hnotify, summary_maybeSendAckRequest, HookAcc.toAcc,
    strip_toAccMany_congr (hstrip.trans strip_empty.symm)]
  exact congrArg (Summary.next state _ _) hactions

/-- What `handle_flush/3` can do. -/
theorem outcome_handleFlush (hstrip : hookAcc.statemAcc.strip = {})
    (hcount : isCounted server oracle data state event = false)
    (hacc : presendAcc oracle data event = presendAcc.beforePresend oracle hookAcc.acc) :
    Outcome server oracle data state event
    ((handleFlush oracle data state hookAcc).summary state) := by
  have hstrip' := (strip_run oracle.xmppPresendElement hookAcc).trans hstrip
  rw [handleFlush, summary_finishHook, ← HookResult.summary, run_andThen]
  split
  · next hverdict =>
    rw [summary_maybeSendElement, hstrip', verdict_run, hverdict, if_neg (by simp)]
    exact .idle hcount (.inl rfl) id
  · next hverdict =>
    rw [presendAcc.beforePresend, hverdict, ← acc_run] at hacc
    generalize (oracle.xmppPresendElement.run hookAcc).hookAcc = hookAcc' at hacc hstrip'
    rw [xmppPresendElement]
    split
    · next hsm =>
      rw [summary_maybeSendElement, hstrip']
      exact .unbuffered hcount hacc (.inl hsm) fun hstanza => by simp [hstanza]
    · next smState hsm =>
      split
      · next htype =>
        rw [summary_maybeSendElement, hstrip']
        exact .unbuffered hcount hacc (.inr (.inl htype)) fun hstanza => by simp [hstanza]
      · next htype =>
        split
        · next hmax =>
          rw [summary_maybeSendAckRequest, hstrip']
          exact .unbuffered hcount hacc (.inr (.inr ⟨smState, hsm, hmax⟩)) fun hstanza => by
            simp [hstanza]
        · next hmax =>
          split
          · rw [summary_maybeSendElement, hstrip', if_neg (by simp)]
            exact .idle hcount (.inl rfl) id
          · next acc href =>
            have hstanza : isStanzaElement acc = isStanzaElement hookAcc'.acc := by
              rw [isStanzaElement, Acc.stanzaName, preventBufferDuplication_element href]
              rfl
            rw [summary_handleBufferAndAck { hookAcc' with acc := acc } hstrip']
            refine .buffered hcount hacc hsm htype hmax href fun hstate => ?_
            simp only [ne_eq, hstate, not_false_eq_true, true_and, hstanza]

theorem userReceivePacket_eq (data : Data) (hookAcc : HookAcc) :
    (userReceivePacket data hookAcc).hookAcc = hookAcc ∧
    (userReceivePacket data hookAcc).outputs = [] := by
  rw [userReceivePacket]
  split <;> exact ⟨rfl, rfl⟩

/-- What `handle_route/3` can do. -/
theorem outcome_handleRoute (hevent : event = .info (.route acc)) :
    Outcome server oracle data state event ((handleRoute oracle data state acc).summary state) := by
  have hcount : isCounted server oracle data state event = false :=
    isCounted_eq_false (by rw [hevent]; rfl)
  rw [handleRoute]
  split
  · exact outcome_stop hcount
  · next sender hsender =>
    have hacc : presendAcc oracle data event =
        match (receiveHooks oracle data sender acc).verdict with
        | .ok => presendAcc.beforePresend oracle (receiveHooks oracle data sender acc).hookAcc.acc
        | .stop => none := by
      rw [hevent, presendAcc, hsender, bind_some]
    have hstrip : (receiveHooks oracle data sender acc).hookAcc.statemAcc.strip = {} := by
      rw [receiveHooks, strip_andThen_run, (userReceivePacket_eq data _).1]
      rfl
    have houtputs : (receiveHooks oracle data sender acc).outputs = [] := by
      rw [receiveHooks, outputs_andThen_run, (userReceivePacket_eq data _).2]
    show Outcome server oracle data state event (FsmRes.summary state
      (match (receiveHooks oracle data sender acc).verdict with
        | .ok => handleFlush oracle data state (receiveHooks oracle data sender acc).hookAcc
        | .stop => finishHook data state (receiveHooks oracle data sender acc)))
    split
    · next hverdict =>
      rw [hverdict] at hacc
      exact outcome_handleFlush hstrip hcount hacc
    · rw [summary_finishHook, hstrip, houtputs]
      exact .idle hcount (.inl rfl) id

variable {sender : From} {mailbox : List Acc}

/-- A session that is handed over keeps its counter of received stanzas. -/
theorem handleResumeCall_ok
    (hcall : handleResumeCall data sender h mailbox = (.ok smState, outputs)) :
    ∃ smState0 smState1, data.stateMod = some smState0 ∧ doHandleAck smState0 h = .ok smState1 ∧
    smState = smStateToKeep smState1 sender ∧
    outputs = streamErrorOutputs (streamError "conflict") ++
      [.replyData sender (data.mergeModState (pipelineFutureSmState data smState1 mailbox))] := by
  rw [handleResumeCall] at hcall
  split at hcall
  · cases hcall
  · next smState0 hsm =>
    split at hcall
    · next smState1 hack =>
      obtain ⟨hkeep, rfl⟩ := Prod.mk.inj hcall
      obtain rfl := ResumeCallResult.ok.inj hkeep
      exact ⟨smState0, smState1, hsm, hack, rfl, rfl⟩
    · cases hcall
    · cases hcall

theorem handleResumeCall_crash
    (hcall : handleResumeCall data sender h mailbox = (.crash, outputs)) : outputs = [] := by
  rw [handleResumeCall] at hcall
  split at hcall
  · exact (Prod.mk.inj hcall).2.symm
  · split at hcall
    · cases hcall
    · cases hcall
    · exact (Prod.mk.inj hcall).2.symm

theorem counterIn_handleResumeCall
    (hcall : handleResumeCall data sender h mailbox = (.ok smState, outputs)) :
    (data.mergeModState smState).stateMod.map SmState.counterIn =
    data.stateMod.map SmState.counterIn := by
  obtain ⟨smState0, smState1, hsm, hack, rfl, -⟩ := handleResumeCall_ok hcall
  obtain ⟨newSize, -, -, rfl⟩ := doHandleAck_ok hack
  rw [hsm]
  rfl

/-- A foreign event stops the session, or stream management ignores it. -/
theorem foreignEvent_cases {hookAcc : HookAcc} (hstrip : hookAcc.statemAcc.strip = {})
    (event : Event) (state : State) :
    foreignEvent oracle data event hookAcc = ignored hookAcc ∨
    (foreignEvent oracle data event hookAcc).verdict = .stop ∧
    ∃ data', (foreignEvent oracle data event hookAcc).summary data state = .stop data' ∧
      data'.stateMod.map SmState.counterIn = data.stateMod.map SmState.counterIn := by
  rw [foreignEvent.eq_def]
  split
  · next sender h =>
    split
    · next smState outputs hcall =>
      refine .inr ⟨rfl, _, summary_toAcc hstrip _ _ _ _ _, counterIn_handleResumeCall hcall⟩
    · exact .inr ⟨rfl, data, summary_toAcc hstrip _ _ _ _ _, rfl⟩
    · next outputs hcall =>
      rw [handleResumeCall_crash hcall]
      exact .inl rfl
  · split
    · exact .inl rfl
    · split
      · exact .inr ⟨rfl, data, summary_toAcc hstrip _ _ _ _ _, rfl⟩
      · exact .inl rfl
  · exact .inl rfl

/-- What an event of another module can do. -/
theorem outcome_handleForeignEvent {event' : Event}
    (hcount : isCounted server oracle data state event = false) :
    Outcome server oracle data state event
    ((handleForeignEvent oracle data state event').summary state) := by
  have hidle {res : HookResult} (hstrip : res.hookAcc.statemAcc.strip = {})
      (houtputs : res.outputs = []) :
      Outcome server oracle data state event (FsmRes.summary state (match res.verdict with
          | .ok => ⟨res.outputs, .keepState data []⟩
          | .stop => finishHook data state res)) := by
    rw [houtputs]
    split
    · exact .idle hcount (.inl rfl) id
    · rw [summary_finishHook, hstrip, houtputs]
      exact .idle hcount (.inl rfl) id
  simp only [handleForeignEvent]
  generalize hhook : ({ acc := _ } : HookAcc) = hookAcc
  have hstrip : (oracle.foreignEventBefore.run hookAcc).hookAcc.statemAcc.strip = {} := by
    rw [strip_run, ← hhook]
    rfl
  rw [run_andThen]
  cases hbefore : oracle.foreignEventBefore.verdict with
  | stop =>
    refine hidle ?_ ?_
    · rw [strip_andThen_run, hstrip]
    · rw [outputs_andThen_run]
      rfl
  | ok =>
    dsimp only
    rcases foreignEvent_cases hstrip event' state with h | ⟨hverdict, data', hsummary, hdata⟩
    · rw [h]
      refine hidle ?_ ?_
      · rw [strip_andThen_run]
        exact hstrip
      · rw [outputs_andThen_run]
        rfl
    · rw [HookResult.andThen]
      simp only [hverdict]
      rw [summary_finishHook, ← HookResult.summary, hsummary]
      exact .stop hcount hdata

/-- What the end of a connection can do. -/
theorem outcome_handleStopping (reason : Reason)
    (hcount : isCounted server oracle data state event = false) :
    Outcome server oracle data state event
    ((handleStopping server oracle data state reason).summary state) := by
  simp only [handleStopping]
  generalize hhook : ({ acc := _ } : HookAcc) = hookAcc
  have hstrip : (oracle.userStopping.run hookAcc).hookAcc.statemAcc.strip = {} := by
    rw [strip_run, ← hhook]
    rfl
  rw [run_andThen]
  cases hbefore : oracle.userStopping.verdict with
  | stop =>
    simp only [verdict_run, hbefore]
    rw [summary_finishHook, hstrip]
    exact .idle hcount (.inl rfl) id
  | ok =>
    simp only [handleUserStopping]
    cases hsm : data.stateMod with
    | none => exact outcome_stop hcount
    | some smState =>
      dsimp only
      rw [summary_finishHook, ← HookResult.summary, summary_toAcc hstrip,
        notifyUnacknowledgedMessages_eq]
      exact .suspend hcount hsm

/-- What `handle_timeout/4` can do. -/
theorem outcome_handleTimeout {name : TimerName} {payload : Payload}
    (hcount : isCounted server oracle data state event = false) :
    Outcome server oracle data state event
    ((handleTimeout oracle data state name payload).summary state) := by
  rw [handleTimeout.eq_def]
  split
  · exact .idle hcount (.inl rfl) id
  · exact .idle hcount (.inl rfl) id
  · have := summary_handleStateResult data state state []
      (toAccMany {} (oracle.timeoutHandler.map ModuleRequest.toRequest))
    rw [strip_toAccMany] at this
    exact this ▸ .idle hcount (.inl rfl) id
  · exact outcome_handleForeignEvent hcount

/-- What `handle_cast/3` can do. -/
theorem outcome_handleCast {cast : Cast}
    (hcount : isCounted server oracle data state event = false) :
    Outcome server oracle data state event
    ((handleCast server oracle data state cast).summary state) := by
  rw [handleCast.eq_def]
  split
  · exact outcome_stop hcount
  · exact outcome_stop hcount
  · exact outcome_stop hcount
  · exact outcome_handleForeignEvent hcount
  · exact outcome_handleStopping _ hcount
  · exact .idle hcount (.inl rfl) id
  · exact .idle hcount (.inl rfl) id
  · exact outcome_handleForeignEvent hcount

/-- What `handle_info/3` can do. -/
theorem outcome_handleInfo {info : Info} (hevent : event = .info info) :
    Outcome server oracle data state event
    ((handleInfo server oracle data state info).summary state) := by
  rw [handleInfo.eq_def]
  split
  · exact outcome_handleRoute hevent
  · refine outcome_handleC2SPacket ?_
    rw [hevent]
    simp only [isCounted, isCountedPath, Event.isStanza, Event.received?, any_some, Bool.and_assoc]
  · next events =>
    have hactions : (events.map fun event => Action.nextEvent (.xml event)).filter
        Action.concernsSm = [] := by
      rw [List.filter_eq_nil_iff]
      intro action haction
      obtain ⟨event', -, rfl⟩ := List.mem_map.1 haction
      simp [Action.concernsSm]
    rw [handleSocketElements, FsmRes.summary]
    simp only [hactions, stanzasWritten_nil]
    exact .idle (isCounted_eq_false (by rw [hevent]; rfl)) (.inl rfl) id
  · exact outcome_stop (isCounted_eq_false (by rw [hevent]; rfl))
  · exact outcome_handleStopping _ (isCounted_eq_false (by rw [hevent]; rfl))
  · exact outcome_handleStopping _ (isCounted_eq_false (by rw [hevent]; rfl))
  · exact outcome_handleForeignEvent (isCounted_eq_false (by rw [hevent]; rfl))

/-- What a stream header can do. -/
theorem outcome_handleStreamStart {attrs : List (String × String)} {streamState : StreamState}
    (hstate : state = .waitForStream streamState) (hevent : event = .xml (.streamStart attrs)) :
    Outcome server oracle data state event
    ((handleStreamStart server data attrs streamState).summary state) := by
  have hcount : isCounted server oracle data state event = false :=
    isCounted_eq_false (by rw [hevent]; rfl)
  simp only [handleStreamStart]
  split
  · exact outcome_stop hcount
  · split
    · exact outcome_stop hcount
    · next lserver hostType hdomain =>
      split
      · split
        · exact .header hcount hstate hevent hdomain
        · exact .restart hcount hstate hevent hdomain
      · exact .stop hcount rfl

theorem outcome_handleMaybeHideServiceName
    (hcount : isCounted server oracle data state event = false) :
    Outcome server oracle data state event
    ((handleMaybeHideServiceName server data).summary state) := by
  rw [handleMaybeHideServiceName]
  split <;> exact outcome_stop hcount

section Negotiation

variable (hphase : state.phase = .identified)
  (hcount : isCounted server oracle data state event = false)

include hphase hcount

/-- What `handle_starttls/4` can do. -/
theorem outcome_handleStarttls {el : Element} (hname : el.name = "starttls") (retries : ℕ) :
    Outcome server oracle data state event
    ((handleStarttls oracle data el retries).summary state) := by
  have hwritten : stanzasWritten ([.element (tlsElement "proceed")] ++ [.element
      (makeErrorReply el (stanzaErrort "400" "modify" "bad-request" "bad_config"))]) = 0 := by
    simp [stanzasWritten, Output.isStanza, hname, tlsElement, isStanzaName]
  rw [handleStarttls]
  split
  · cases oracle.tls with
    | ok => exact .idle hcount (.inr ⟨hphase, rfl⟩) (fun h => by cases h)
    | alreadyTlsConnection =>
      dsimp only
      rw [FsmRes.after_after]
      exact outcome_retryState hcount hphase.symm (fun h => by cases h) hwritten
    | closed => exact outcome_stop hcount
    | timeout => exact outcome_stop hcount
    | tlsAlert => exact outcome_stop hcount
  · exact outcome_stop hcount

/-- What a failed login can do. -/
theorem outcome_handleSaslFailure (retries : ℕ) :
    Outcome server oracle data state event ((handleSaslFailure data retries).summary state) :=
  outcome_retryState hcount hphase.symm (fun h => by cases h) rfl

/-- What a step of a login can do. -/
theorem outcome_handleSaslStep (retries : ℕ) : Outcome server oracle data state event
    ((handleSaslStep server oracle data retries).summary state) := by
  rw [handleSaslStep]
  split
  · next user huser =>
    split
    · next saslJid hjid =>
      rw [handleSaslSuccess]
      split
      · exact .login hcount hphase huser hjid
      · exact outcome_stop hcount
    · exact outcome_stop hcount
  · exact .idle hcount (.inl hphase.symm) (fun h => by cases h)
  · exact outcome_handleSaslFailure hphase hcount retries
  · exact outcome_stop hcount

end Negotiation

/-- What an element of an open session can do. -/
theorem outcome_handleEstablishedElement (hstate : state = .sessionEstablished)
    (hevent : event = .xml (.element el)) :
    Outcome server oracle data state event
    ((handleEstablishedElement server oracle data el).summary state) := by
  have hcount : isCounted server oracle data state event =
      (data.stateMod.isSome && (isStanzaName el.name &&
        (verifyFrom server el data.jid && verifyTo server el &&
          (elementToOriginAccum server data el).isSome))) := by
    rw [hevent, hstate]
    simp only [isCounted, isCountedPath, Event.isStanza, Event.received?, any_some, Bool.and_assoc]
  rw [handleEstablishedElement]
  split
  · next hfrom =>
    split
    · next hto =>
      rw [hstate] at hcount ⊢
      refine outcome_handleC2SPacket ?_
      rw [hcount, hfrom, hto, Bool.and_self, Bool.true_and]
    · next hto =>
      have hto : verifyTo server el = false := Bool.eq_false_iff.2 hto
      rw [handleStateAfterPacket, summary_handleStateResult]
      refine .reply ?_ (by rw [hstate]; rfl) (fun h => by cases h)
        (.inr ⟨hstate, el, hevent, hfrom, hto, ?_⟩)
      · rw [hcount, hto]
        simp
      · rw [stanzasWritten, List.countP_singleton]
        rfl
  · next hfrom =>
    have hfrom : verifyFrom server el data.jid = false := Bool.eq_false_iff.2 hfrom
    refine outcome_stop ?_
    rw [hcount, hfrom]
    simp

/-- A request that is refused before a resource is bound. -/
theorem outcome_refused {retries : ℕ}
    (hcount : isCounted server oracle data (.waitForFeatureAfterAuth retries) event = false) :
    Outcome server oracle data (.waitForFeatureAfterAuth retries) event
    (((retryState data (.waitForFeatureAfterAuth retries)).after
      [.element (makeErrorReply el badRequest)]).summary (.waitForFeatureAfterAuth retries)) := by
  rcases summary_retryState data _ (.waitForFeatureAfterAuth retries)
    [.element (makeErrorReply el badRequest)] with h | ⟨newState, hretry, h⟩
  · rw [h]
    exact outcome_stop hcount
  · obtain ⟨hphase', hstate'⟩ := maybeRetryState_phase hretry
    rw [h]
    exact .reply hcount hphase' hstate' (.inl fun h => by cases h)

/-- What is no session request, before the session is established. -/
theorem outcome_noSessionRequest (hevent : event = .xml (.element el))
    (hsession : isSessionRequest el = false) :
    Outcome server oracle data .waitForSessionEstablishment event
    ((handleForeignPacket server oracle data .waitForSessionEstablishment el).summary
      .waitForSessionEstablishment) := by
  refine outcome_handleForeignPacket ?_
  have hstanza : event.isStanza = isStanzaName el.name := by
    rw [hevent]
    rfl
  rw [isCounted, hstanza, hevent]
  simp [isCountedPath, hsession, Bool.and_assoc]

theorem outcome_handleXml {xml : XmlEvent} (hstate : ∀ s, state ≠ .waitForStream s)
    (hevent : event = .xml xml) :
    Outcome server oracle data state event
    ((handleXml server oracle data state xml).summary state) := by
  rw [handleXml.eq_def]
  split
  · exact outcome_stop (isCounted_eq_false (by rw [hevent]; rfl))
  · exact outcome_stop (isCounted_eq_false (by rw [hevent]; rfl))
  · have hcount : isCounted server oracle data state event = false :=
      isCounted_eq_false (by rw [hevent]; rfl)
    split <;> exact outcome_stop hcount
  · next el =>
    have hstanza : event.isStanza = isStanzaName el.name := by
      rw [hevent]
      rfl
    dsimp only
    split
    · next retries hname =>
      have hcount : isCounted server oracle data (.waitForFeatureBeforeAuth retries) event =
          false := isCounted_eq_false (by rw [hstanza, hname]; rfl)
      split
      · exact outcome_handleStarttls rfl hcount hname retries
      · exact outcome_stop hcount
    · next retries hname =>
      have hcount : isCounted server oracle data (.waitForFeatureBeforeAuth retries) event =
          false := isCounted_eq_false (by rw [hstanza, hname]; rfl)
      split
      · exact outcome_handleSaslStep rfl hcount retries
      · exact outcome_stop hcount
    · next retries hname =>
      have hcount : isCounted server oracle data (.waitForSaslResponse retries) event =
          false := isCounted_eq_false (by rw [hstanza, hname]; rfl)
      split
      · exact outcome_handleSaslStep rfl hcount retries
      · exact outcome_stop hcount
    · next retries hname =>
      have hcount : isCounted server oracle data (.waitForSaslResponse retries) event =
          false := isCounted_eq_false (by rw [hstanza, hname]; rfl)
      split
      · exact outcome_handleSaslFailure rfl hcount retries
      · exact outcome_stop hcount
    · next retries hname =>
      have hcount : isCounted server oracle data (.waitForFeatureAfterAuth retries) event =
          false := isCounted_eq_false_of_path (by rw [hevent]; simp [isCountedPath, hname])
      split
      · split
        · exact outcome_handleBindResource ⟨el, hevent, hname⟩ rfl hcount
        · exact outcome_refused hcount
      · exact outcome_refused hcount
    · next hname =>
      split
      · next iq hiq =>
        split
        · next hset =>
          refine outcome_handleSessionEstablishment rfl ?_
          have hsession : isSessionRequest el = true := by
            rw [isSessionRequest, hiq]
            simpa using hset
          rw [isCounted, hstanza, hevent]
          simp [isCountedPath, hsession, hname, Bool.and_assoc]
        · next hset =>
          refine outcome_noSessionRequest hevent ?_
          rw [isSessionRequest, hiq]
          simpa using hset
      · next hiq =>
        refine outcome_noSessionRequest hevent ?_
        rw [isSessionRequest, hiq]
    · exact outcome_handleEstablishedElement rfl hevent
    · next hestablished _ _ _ _ hbind hsession =>
      refine outcome_handleForeignPacket ?_
      rw [isCounted, hstanza, hevent, Bool.and_assoc]
      congr 2
      simp only [isCountedPath]
      split
      · exact absurd rfl (hstate _)
      · have hname : el.name ≠ "iq" := fun h => hbind _ h rfl
        simp [hname]
      · have hname : el.name ≠ "iq" := fun h => hsession h rfl
        simp [hname]
      · exact (hestablished rfl).elim
      · rfl

/-- **Inversion of the callback of `mongoose_c2s`.** -/
theorem outcome_handleEvent (server : Server) (oracle : Oracle) (data : Data) (state : State)
    (event : Event) :
    Outcome server oracle data state event
    ((handleEvent server oracle data state event).summary state) := by
  rw [handleEvent.eq_def]
  split
  · split
    · exact outcome_stop (isCounted_eq_false rfl)
    · exact .idle (isCounted_eq_false rfl) (.inl rfl) (fun h => by cases h)
  · exact outcome_handleStreamStart rfl rfl
  · next xml _ _ =>
    refine outcome_handleMaybeHideServiceName (isCounted_eq_false_of_path ?_)
    cases xml <;> rfl
  · exact outcome_handleMaybeHideServiceName (isCounted_eq_false rfl)
  · next hstate => exact outcome_handleXml hstate rfl
  · exact outcome_handleFlush rfl (isCounted_eq_false rfl) rfl
  · exact outcome_handleInfo rfl
  · exact outcome_handleCast (isCounted_eq_false rfl)
  · exact outcome_handleTimeout (isCounted_eq_false rfl)
  · exact outcome_stop (isCounted_eq_false rfl)
  · exact outcome_stop (isCounted_eq_false rfl)
  · exact outcome_handleForeignEvent (isCounted_eq_false rfl)
  · exact outcome_handleForeignEvent (isCounted_eq_false rfl)

/-- Inversion of the callback of `mod_stream_management`. -/
theorem outcome_streamManagementHandleEvent (server : Server) (oracle : Oracle) (data : Data)
    (state : State) (event : Event) :
    Outcome server oracle data state event
    ((StreamManagement.handleEvent server oracle data state event).summary state) := by
  rw [StreamManagement.handleEvent.eq_def]
  split
  · split
    · next hcall => exact .stop (isCounted_eq_false rfl) (counterIn_handleResumeCall hcall)
    · exact outcome_stop (isCounted_eq_false rfl)
    · exact outcome_stop (isCounted_eq_false rfl)
  · exact outcome_stop (isCounted_eq_false rfl)
  · exact outcome_handleEvent server oracle data state event

/-- Whatever callback module handles an event, the result is one of the outcomes. -/
theorem handle_outcome (server : Server) (oracle : Oracle) (p : Process) (event : Event) :
    Outcome server oracle p.data p.state event
    ((p.handle server oracle event).summary p.state) := by
  rw [Process.handle]
  split
  · exact outcome_streamManagementHandleEvent server oracle p.data p.state event
  · exact outcome_handleEvent server oracle p.data p.state event

theorem Outcome.bound {server : Server} {oracle : Oracle} {data data' : Data}
    {state : State} {event : Event} {n : ℕ} {actions : List Action}
    (h : Outcome server oracle data state event (.next state' data' n actions))
    (hphase : state.phase = .bound) : state'.phase = .bound := by
  cases h with
  | idle _ hphase' =>
    rcases hphase' with h' | ⟨h', -⟩
    · exact h'.trans hphase
    · rw [hphase] at h'
      cases h'
  | count _ _ hphase' => exact hphase'.trans hphase
  | reply _ hphase' => exact hphase'.trans hphase
  | enable => exact hphase
  | ack => exact hphase
  | unbuffered => exact hphase
  | buffered => exact hphase
  | suspend => rfl
  | header _ hstate => rw [hstate] at hphase; cases hphase
  | restart _ hstate => rw [hstate] at hphase; cases hphase
  | login _ hphase' => rw [hphase'] at hphase; cases hphase
  | bind _ _ hphase' => rw [hphase'] at hphase; cases hphase
  | resume => rfl

/-- What a process is after an event, by the summary of the result. -/
inductive Follows (p : Process) (event : Event) (p' : Process) : Summary → Prop
  | stop {d} (hstopped : p'.stopped.isSome = true) (hdata : p'.data = d)
      (hreceived : p'.received = p.received ++ event.received?.toList) :
      Follows p event p' (.stop d)
  | next {s d n outputs actions} (hstopped : p'.stopped = p.stopped) (hstate : p'.state = s)
      (hdata : p'.data = d) (houtputs : p'.outputs = p.outputs ++ outputs)
      (hwritten : stanzasWritten outputs = n)
      (htimer : p'.timers .modStreamManagement =
        actions.foldl Action.setTimer p.timers .modStreamManagement)
      (hcallback : p'.callback = actions.foldl Action.changeCallback p.callback)
      (hreceived : p'.received = p.received ++ event.received?.toList) :
      Follows p event p' (.next s d n actions)

variable {action : Action}

/-- An action that a summary leaves out does not set the timeout of stream management. -/
theorem setTimer_eq_self (h : action.concernsSm = false) (timers : Timers) :
    action.setTimer timers .modStreamManagement = timers .modStreamManagement := by
  cases action with
  | timeout name time payload =>
    cases name with
    | modStreamManagement => cases h
    | activateSocket => rfl
    | replacedWaitTimeout => rfl
    | other name => rfl
  | cancelTimeout name =>
    cases name with
    | modStreamManagement => cases h
    | activateSocket => rfl
    | replacedWaitTimeout => rfl
    | other name => rfl
  | _ => rfl

theorem changeCallback_eq_self (h : action.concernsSm = false)
    (callback : List CallbackModule) : action.changeCallback callback = callback := by
  cases action with
  | pushCallbackModule module => cases h
  | popCallbackModule => cases h
  | _ => rfl

variable {timers timers' : Timers}

/-- An action sets the timeout of stream management whatever the others are. -/
theorem setTimer_congr (action : Action)
    (h : timers .modStreamManagement = timers' .modStreamManagement) :
    action.setTimer timers .modStreamManagement = action.setTimer timers' .modStreamManagement := by
  cases action with
  | timeout name time payload => simp only [Action.setTimer, Function.update_apply, h]
  | cancelTimeout name => simp only [Action.setTimer, Function.update_apply, h]
  | _ => exact h

/-- The actions that a summary leaves out do not matter for the timeout of stream management. -/
theorem foldl_setTimer_filter (actions : List Action)
    (h : timers .modStreamManagement = timers' .modStreamManagement) :
    actions.foldl Action.setTimer timers .modStreamManagement =
    (actions.filter Action.concernsSm).foldl Action.setTimer timers' .modStreamManagement := by
  induction actions generalizing timers timers' with
  | nil => exact h
  | cons action actions ih =>
    cases hsm : action.concernsSm with
    | true =>
      rw [List.filter_cons_of_pos hsm]
      exact ih (setTimer_congr action h)
    | false =>
      rw [List.filter_cons_of_neg (by simp [hsm])]
      exact ih ((setTimer_eq_self hsm timers).trans h)

theorem foldl_changeCallback_filter (actions : List Action) (callback : List CallbackModule) :
    actions.foldl Action.changeCallback callback =
    (actions.filter Action.concernsSm).foldl Action.changeCallback callback := by
  induction actions generalizing callback with
  | nil => rfl
  | cons action actions ih =>
    cases hsm : action.concernsSm with
    | true =>
      rw [List.filter_cons_of_pos hsm]
      exact ih _
    | false =>
      rw [List.filter_cons_of_neg (by simp [hsm]), List.foldl_cons, changeCallback_eq_self hsm]
      exact ih _

theorem follows_take (server : Server) (oracle : Oracle) (p : Process) (event : Event) :
    Follows p event (p.take server oracle event)
    ((p.handle server oracle event).summary p.state) := by
  rw [Process.take]
  generalize p.handle server oracle event = res
  obtain ⟨outputs, next⟩ := res
  cases next with
  | nextState state data actions =>
    exact .next rfl rfl rfl rfl rfl (foldl_setTimer_filter actions rfl)
      (foldl_changeCallback_filter actions p.callback) rfl
  | keepState data actions =>
    exact .next rfl rfl rfl rfl rfl (foldl_setTimer_filter actions rfl)
      (foldl_changeCallback_filter actions p.callback) rfl
  | stop reason data => exact .stop rfl rfl rfl

/-- **Inversion of a step.** A step takes one event, and what it makes of it is an outcome. -/
theorem step_outcome {server : Server} {p p' : Process} {input : Input}
    (h : step server p input = some p') :
    p.stopped = none ∧ ∃ event queue timers summary,
    p.receive input = some (event, { p with queue := queue, timers := timers }) ∧
    (timers = p.timers ∨ ∃ name payload, event = .timeout name payload ∧
      p.timers name = some payload ∧ timers = Function.update p.timers name none) ∧
    summary = (p.handle server input.oracle event).summary p.state ∧
    Outcome server input.oracle p.data p.state event summary ∧
    Follows { p with queue := queue, timers := timers } event p' summary := by
  obtain ⟨hrunning, event, q, hreceive, rfl⟩ := step_eq_some h
  obtain ⟨queue, timers, rfl, htimers⟩ := receive_eq_some hreceive
  exact ⟨hrunning, event, queue, timers, _, hreceive, htimers, rfl,
    handle_outcome server input.oracle { p with queue := queue, timers := timers } event,
    follows_take server input.oracle { p with queue := queue, timers := timers } event⟩

end MongooseIM.C2S
