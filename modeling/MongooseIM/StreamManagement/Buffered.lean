import MongooseIM.C2S.Outcome

/-! # What a step does to the buffer

A session with a resource changes its buffer in few ways: an ack drops the oldest stanzas, a stanza
that is presented is added, and a call to resume the session empties it. -/

namespace MongooseIM.StreamManagement

open Xmpp C2S

variable {server : Server} {oracle : Oracle} {data : Data} {state : State} {event : Event}

/-! ## Requests that leave the data alone -/

/-- The handlers so far have not asked for other data. -/
def Untouched (hookAcc : HookAcc) : Prop := hookAcc.statemAcc.c2sData = none

theorem untouched_new (acc : Acc) : Untouched { acc := acc } := rfl

variable {hookAcc : HookAcc}

/-- A handler of another module leaves the requests. -/
theorem Untouched.run (h : Untouched hookAcc) (reaction : Reaction) :
    Untouched (reaction.run hookAcc).hookAcc := by
  have hrequests (c2sAcc : C2SAcc) (requests : List ModuleRequest) :
      (toAccMany c2sAcc (requests.map ModuleRequest.toRequest)).c2sData = c2sAcc.c2sData := by
    induction requests generalizing c2sAcc with
    | nil => rfl
    | cons request requests ih =>
      rw [List.map_cons, toAccMany, List.foldl_cons]
      refine (ih _).trans ?_
      cases request <;> rfl
  exact (hrequests _ _).trans h

/-- So do two handlers in a row. -/
theorem Untouched.andThen {res : HookResult} (h : Untouched res.hookAcc)
    {handler : HookAcc → HookResult}
    (hhandler : ∀ hookAcc, Untouched hookAcc → Untouched (handler hookAcc).hookAcc) :
    Untouched (res.andThen handler).hookAcc := by
  rw [HookResult.andThen]
  split
  · exact h
  · exact hhandler _ h

theorem untouched_userSendPacket (data : Data) (h : Untouched hookAcc) :
    Untouched (userSendPacket data hookAcc).hookAcc := by
  rw [userSendPacket]
  split <;> exact h

/-- An ack asks for nothing. -/
theorem untouched_handleA (data : Data) (h : Untouched hookAcc)
    (el : Element) : Untouched (handleA data hookAcc el).hookAcc := by
  rw [handleA]
  split
  · exact h
  · exact h
  · split <;> exact h

/-- Nor does a request for one. -/
theorem untouched_handleR (data : Data) (h : Untouched hookAcc) :
    Untouched (handleR data hookAcc).hookAcc := by
  rw [handleR]
  split <;> exact h

theorem untouched_handleEnable (server : Server) (oracle : Oracle) (data : Data)
    (h : Untouched hookAcc) (el : Element) :
    Untouched (handleEnable server oracle data hookAcc el).hookAcc := by
  rw [handleEnable]
  split
  · exact h
  · exact h
  · dsimp only
    split
    · exact h
    · split <;> exact h

theorem untouched_unexpectedSmRequest (h : Untouched hookAcc)
    (state : State) : Untouched (unexpectedSmRequest state hookAcc).hookAcc := by
  rw [unexpectedSmRequest, streamMgmtError]
  split <;> exact h

/-- Only a session that has no resource yet resumes another one. -/
theorem untouched_userSendXmlel (hphase : state.phase = .bound) (h : Untouched hookAcc) :
    Untouched (userSendXmlel server oracle data state hookAcc).hookAcc := by
  rw [userSendXmlel]
  split
  · rw [handleStreamMgmt.eq_def]
    split
    · exact untouched_handleA data h _
    · exact untouched_handleR data h
    · exact untouched_handleEnable server oracle data h _
    · cases hphase
    · exact untouched_unexpectedSmRequest h _
  · exact untouched_userSendPacket data h

theorem untouched_maybeSendAckRequest (h : Untouched hookAcc) (state : State)
    (smState : SmState) : Untouched (maybeSendAckRequest hookAcc state smState).hookAcc := by
  rw [maybeSendAckRequest]
  split <;> exact h

theorem untouched_xmppPresendElement (h : Untouched hookAcc) :
    Untouched (xmppPresendElement oracle data state hookAcc).hookAcc := by
  rw [xmppPresendElement]
  split
  · exact h
  · split
    · exact h
    · split
      · exact untouched_maybeSendAckRequest h _ _
      · split
        · exact h
        · rw [handleBufferAndAck]
          exact untouched_maybeSendAckRequest (by exact h) _ _

/-! ## Stopping with the data -/

/-- A result that stops the session leaves its data as it is. -/
def StopsWith (data : Data) (res : FsmRes) : Prop :=
  ∀ reason data', res.next = .stop reason data' → data' = data

theorem stopsWith_stop (outputs : List Output) (reason : Reason) :
    StopsWith data ⟨outputs, .stop reason data⟩ := by
  intro reason' data' h
  exact (Next.stop.inj h).2.symm

theorem stopsWith_handleStateAfterPacket (h : Untouched hookAcc) :
    StopsWith data (handleStateAfterPacket data state hookAcc) := by
  intro reason data' hstop
  simp only [handleStateAfterPacket, handleStateResult, getStatemResult] at hstop
  rw [show hookAcc.statemAcc.c2sData = none from h] at hstop
  split at hstop
  · exact (Next.stop.inj hstop).2.symm
  · cases hstop

theorem stopsWith_finishHook {res : HookResult} (h : Untouched res.hookAcc) :
    StopsWith data (finishHook data state res) :=
  stopsWith_handleStateAfterPacket h

theorem stopsWith_retryState (data : Data) (state : State) :
    StopsWith data (retryState data state) := by
  intro reason data' h
  rw [retryState] at h
  split at h
  · cases h
  · exact (Next.stop.inj h).2.symm
  · exact (Next.stop.inj h).2.symm

/-- An element outside a session. -/
theorem stopsWith_handleForeignPacket (hphase : state.phase = .bound) (el : Element) :
    StopsWith data (handleForeignPacket server oracle data state el) := by
  refine stopsWith_finishHook ?_
  rw [runUserSendXmlel]
  refine (((untouched_new _).run _).andThen fun hookAcc h => ?_).andThen fun hookAcc h => h.run _
  exact untouched_userSendXmlel hphase h

theorem untouched_runUserSendPacket (h : Untouched hookAcc) :
    Untouched (runUserSendPacket oracle data hookAcc).hookAcc :=
  (untouched_userSendPacket data h).andThen fun _ h => h.run _

theorem untouched_handleStanzaFromClient (hphase : state.phase = .bound) (h : Untouched hookAcc) :
    Untouched (handleStanzaFromClient server oracle data state hookAcc).hookAcc := by
  have hroute {res : HookResult} (hres : Untouched res.hookAcc) :
      Untouched (maybeRoute res).hookAcc := by
    rw [maybeRoute]
    split <;> exact hres
  rw [handleStanzaFromClient]
  split
  · exact hroute (h.run _)
  · exact hroute (h.run _)
  · exact h.run _
  · refine ((h.run _).andThen fun hookAcc h => ?_).andThen fun hookAcc h => h.run _
    exact untouched_userSendXmlel hphase h

/-- A stanza of the client. -/
theorem stopsWith_handleC2SPacket (hphase : state.phase = .bound) (el : Element) :
    StopsWith data (handleC2SPacket server oracle data state el) := by
  rw [handleC2SPacket]
  split
  · exact stopsWith_stop _ _
  · refine stopsWith_finishHook ((untouched_runUserSendPacket (untouched_new _)).andThen
      fun hookAcc h => ?_)
    exact untouched_handleStanzaFromClient hphase h

theorem stopsWith_handleEstablishedElement (el : Element) :
    StopsWith data (handleEstablishedElement server oracle data el) := by
  rw [handleEstablishedElement]
  split
  · split
    · exact stopsWith_handleC2SPacket rfl el
    · exact stopsWith_handleStateAfterPacket rfl
  · exact stopsWith_stop _ _

theorem stopsWith_handleSessionEstablishment (el : Element) (iq : Iq) :
    StopsWith data (handleSessionEstablishment server oracle data state el iq) := by
  rw [handleSessionEstablishment]
  split
  · exact stopsWith_stop _ _
  · have hopened (hookAcc : HookAcc) (h : Untouched hookAcc) :
        Untouched (verifyUser oracle .sessionEstablished (oracle.userSendStanza.run
          (runUserSendPacket oracle data hookAcc).hookAcc).hookAcc).hookAcc := by
      rw [verifyUser, if_pos rfl]
      exact ((untouched_runUserSendPacket h).run _).run _
    rw [finishOpenSession]
    split
    · exact stopsWith_handleStateAfterPacket (hopened _ rfl)
    · exact stopsWith_retryState _ _

/-- What the client sends. -/
theorem stopsWith_handleXml (hphase : state.phase = .bound) (xml : XmlEvent) :
    StopsWith data (handleXml server oracle data state xml) := by
  rw [handleXml.eq_def]
  split
  · exact stopsWith_stop _ _
  · exact stopsWith_stop _ _
  · split <;> exact stopsWith_stop _ _
  · dsimp only
    split
    · cases hphase
    · cases hphase
    · cases hphase
    · cases hphase
    · cases hphase
    · split
      · split
        · exact stopsWith_handleSessionEstablishment _ _
        · exact stopsWith_handleForeignPacket rfl _
      · exact stopsWith_handleForeignPacket rfl _
    · exact stopsWith_handleEstablishedElement _
    · exact stopsWith_handleForeignPacket hphase _

/-- A stanza to the client. -/
theorem stopsWith_handleFlush (h : Untouched hookAcc) :
    StopsWith data (handleFlush oracle data state hookAcc) := by
  refine stopsWith_finishHook ?_
  have hpresend : Untouched ((oracle.xmppPresendElement.run hookAcc).andThen
      (xmppPresendElement oracle data state)).hookAcc :=
    (h.run _).andThen fun _ h => untouched_xmppPresendElement h
  rw [maybeSendElement]
  split <;> exact hpresend

/-- What is routed to the session. -/
theorem stopsWith_handleRoute (acc : Acc) : StopsWith data (handleRoute oracle data state acc) := by
  rw [handleRoute]
  split
  · exact stopsWith_stop _ _
  · have hreceived (hookAcc : HookAcc) (h : Untouched hookAcc) :
        Untouched ((userReceivePacket data hookAcc).andThen
          oracle.userReceiveStanza.run).hookAcc := by
      refine Untouched.andThen ?_ fun hookAcc h => h.run _
      rw [(userReceivePacket_eq data hookAcc).1]
      exact h
    dsimp only
    split
    · exact stopsWith_handleFlush (hreceived _ rfl)
    · exact stopsWith_finishHook (hreceived _ rfl)

/-- Only the call to resume the session changes its data. -/
theorem untouched_foreignEvent (hcall : ∀ sender h, event ≠ .call sender (.resume h))
    (h : Untouched hookAcc) :
    Untouched (foreignEvent oracle data event hookAcc).hookAcc := by
  rw [foreignEvent.eq_def]
  split
  · exact absurd rfl (hcall _ _)
  · split
    · exact h
    · split <;> exact h
  · exact h

theorem stopsWith_handleForeignEvent (hcall : ∀ sender h, event ≠ .call sender (.resume h)) :
    StopsWith data (handleForeignEvent oracle data state event) := by
  have hhook (hookAcc : HookAcc) (h : Untouched hookAcc) :
      Untouched (((oracle.foreignEventBefore.run hookAcc).andThen
        (foreignEvent oracle data event)).andThen oracle.foreignEventAfter.run).hookAcc :=
    ((h.run _).andThen fun _ h => untouched_foreignEvent hcall h).andThen fun _ h => h.run _
  rw [handleForeignEvent]
  split
  · intro reason data' hstop
    cases hstop
  · exact stopsWith_finishHook (hhook _ rfl)

/-- The end of a connection. -/
theorem stopsWith_handleStopping (reason : Reason) :
    StopsWith data (handleStopping server oracle data state reason) := by
  have hhook (hookAcc : HookAcc) (h : Untouched hookAcc) :
      Untouched ((oracle.userStopping.run hookAcc).andThen
        (handleUserStopping server data)).hookAcc := by
    refine (h.run _).andThen fun hookAcc h => ?_
    rw [handleUserStopping]
    split <;> exact h
  rw [handleStopping]
  split
  · exact stopsWith_stop _ _
  · exact stopsWith_finishHook (hhook _ rfl)

/-- A timeout. -/
theorem stopsWith_handleTimeout (name : TimerName) (payload : Payload) :
    StopsWith data (handleTimeout oracle data state name payload) := by
  rw [handleTimeout.eq_def]
  split
  · intro reason data' hstop
    cases hstop
  · intro reason data' hstop
    cases hstop
  · have hrequests := (untouched_new
      { element := .mk "" [] [] "", fromJid := none, toJid := none }).run
      { requests := oracle.timeoutHandler }
    exact stopsWith_handleStateAfterPacket (by exact hrequests)
  · exact stopsWith_handleForeignEvent fun _ _ h => by cases h

/-- A cast to the process. -/
theorem stopsWith_handleCast (cast : Cast) :
    StopsWith data (handleCast server oracle data state cast) := by
  have hforeign (cast : Cast) :
      StopsWith data (handleForeignEvent oracle data state (.cast cast)) :=
    stopsWith_handleForeignEvent fun _ _ h => by cases h
  rw [handleCast.eq_def]
  split
  · exact stopsWith_stop _ _
  · exact stopsWith_stop _ _
  · exact stopsWith_stop _ _
  · exact hforeign _
  · exact stopsWith_handleStopping _
  · exact fun _ _ h => by cases h
  · exact fun _ _ h => by cases h
  · exact hforeign _

/-- A message to the process. -/
theorem stopsWith_handleInfo (hphase : state.phase = .bound) (info : Info) :
    StopsWith data (handleInfo server oracle data state info) := by
  cases info with
  | route acc => exact stopsWith_handleRoute acc
  | element el => exact stopsWith_handleC2SPacket hphase el
  | socketData events => exact fun _ _ h => by cases h
  | badSocketData => exact stopsWith_stop _ _
  | socketClosed => exact stopsWith_handleStopping _
  | socketError => exact stopsWith_handleStopping _
  | other => exact stopsWith_handleForeignEvent fun _ _ h => by cases h

/-- **Any event but a call to resume.** -/
theorem stopsWith_handleEvent (hphase : state.phase = .bound)
    (hcall : ∀ sender h, event ≠ .call sender (.resume h)) :
    StopsWith data (C2S.handleEvent server oracle data state event) := by
  have hwait (streamState : StreamState) : (State.waitForStream streamState).phase ≠ .bound := by
    cases streamState <;> decide
  rw [C2S.handleEvent.eq_def]
  split
  · cases hphase
  · exact absurd hphase (hwait _)
  · exact absurd hphase (hwait _)
  · exact absurd hphase (hwait _)
  · exact stopsWith_handleXml hphase _
  · exact stopsWith_handleFlush (untouched_new _)
  · exact stopsWith_handleInfo hphase _
  · exact stopsWith_handleCast _
  · exact stopsWith_handleTimeout _ _
  · cases hphase
  · exact stopsWith_stop _ _
  · exact stopsWith_handleForeignEvent hcall
  · exact stopsWith_handleForeignEvent hcall

variable {p : Process}

/-- **A session that stops keeps its data**, unless it is called to hand them over. -/
theorem handle_next_stop (hphase : p.state.phase = .bound)
    (hcall : ∀ sender h, event ≠ .call sender (.resume h)) :
    StopsWith p.data (p.handle server oracle event) := by
  rw [Process.handle]
  split
  · rw [StreamManagement.handleEvent.eq_def]
    split
    · exact absurd rfl (hcall _ _)
    · exact stopsWith_stop _ _
    · exact stopsWith_handleEvent hphase hcall
  · exact stopsWith_handleEvent hphase hcall

/-! ## The buffer -/

/-- The stanzas that a session holds for its client, the newest first. -/
def buffered (data : Data) : List Acc := (data.stateMod.map SmState.buffer).getD []

/-- The buffer is that of stream management. -/
theorem buffered_eq {smState : SmState} (hsm : data.stateMod = some smState) :
    buffered data = smState.buffer := by
  rw [buffered, hsm]
  rfl

@[simp] theorem buffered_mergeModState (data : Data) (smState : SmState) :
    buffered (data.mergeModState smState) = smState.buffer := rfl

/-- What an event adds to the buffer. -/
def Presents (oracle : Oracle) (data : Data) (event : Event) (acc : Acc) : Prop :=
  ∃ presented smState, presendAcc oracle data event = some presented ∧
    preventBufferDuplication oracle.newRef presented smState = some acc

/-- What an event does to the state of stream management when no call is served. -/
inductive Moves (oracle : Oracle) (data : Data) (event : Event) :
    Option SmState → Option SmState → Prop
  | keep {smState : Option SmState} : Moves oracle data event smState smState
  | count {smState : SmState} (counterIn : ℕ) :
      Moves oracle data event (some smState) (some { smState with counterIn := counterIn })
  | enable (bufferMax : BufferMax) (ackFreq : AckFreq) :
      Moves oracle data event none (some (buildSmHandler bufferMax ackFreq))
  | ack {smState smState' : SmState} {h : ℕ} (hack : doHandleAck smState h = .ok smState') :
      Moves oracle data event (some smState) (some smState')
  | push {smState : SmState} {acc : Acc} (h : Presents oracle data event acc) :
      Moves oracle data event (some smState) (some (smState.push acc))

/-- What an event does to a session that goes on. -/
theorem moves_outcome {data' : Data} {state' : State} {n : ℕ} {actions : List Action}
    (hphase : state.phase = .bound)
    (h : Outcome server oracle data state event (.next state' data' n actions)) :
    Moves oracle data event data.stateMod data'.stateMod := by
  cases h with
  | idle => exact .keep
  | count hsm =>
    rw [hsm]
    exact .count _
  | reply => exact .keep
  | enable _ _ hsm =>
    rw [hsm]
    exact .enable _ _
  | ack _ hsm hack =>
    rw [hsm]
    exact .ack hack
  | unbuffered => exact .keep
  | buffered _ hacc hsm _ _ href =>
    rw [hsm]
    exact .push ⟨_, _, hacc, href⟩
  | suspend _ hsm =>
    rw [hsm]
    exact .keep
  | header _ hwait => rw [hwait] at hphase; cases hphase
  | restart _ hwait => rw [hwait] at hphase; cases hphase
  | login _ hphase' => rw [hphase'] at hphase; cases hphase
  | bind _ _ hphase' => rw [hphase'] at hphase; cases hphase
  | resume _ hphase' => rw [hphase'] at hphase; cases hphase

/-- The size of the buffer is the number of its stanzas. -/
def Sized (smState : Option SmState) : Prop :=
  ∀ s, smState = some s → s.bufferSize = s.buffer.length

@[simp] theorem sized_some (smState : SmState) :
    Sized (some smState) ↔ smState.bufferSize = smState.buffer.length :=
  ⟨fun h => h _ rfl, fun h _ heq => Option.some.inj heq ▸ h⟩

theorem Moves.sized {before after : Option SmState} (h : Moves oracle data event before after)
    (hbefore : Sized before) : Sized after := by
  cases h with
  | keep => exact hbefore
  | @count smState counterIn => exact (sized_some _).2 ((sized_some smState).1 hbefore)
  | enable bufferMax ackFreq => exact (sized_some _).2 rfl
  | ack hack => exact (sized_some _).2 (doHandleAck_length hack)
  | @push smState acc =>
    rw [sized_some] at hbefore ⊢
    rw [SmState.push, List.length_cons, hbefore]

theorem next_of_summary_stop {res : FsmRes} {data' : Data}
    (h : res.summary state = .stop data') : ∃ reason, res.next = .stop reason data' := by
  obtain ⟨outputs, next⟩ := res
  cases next with
  | nextState state data actions => cases h
  | keepState data actions => cases h
  | stop reason data =>
    obtain rfl := Summary.stop.inj h
    exact ⟨reason, rfl⟩

variable {q : Process}

section

variable {input : Input} (hphase : p.state.phase = .bound) (hevent : p.event? input = some event)

include hphase hevent

theorem buffered_step_of_stopsWith (hstop : StopsWith p.data (p.handle server input.oracle event))
    (h : step server p input = some q) :
    (q.stopped = none → q.state.phase = .bound) ∧
    Moves input.oracle p.data event p.data.stateMod q.data.stateMod := by
  obtain ⟨-, event', queue, timers, summary, hreceive, -, hsummary, houtcome, hfollows⟩ :=
    step_outcome h
  obtain rfl : event = event' := by
    rw [Process.event?, hreceive] at hevent
    exact (Option.some.inj hevent).symm
  cases hfollows with
  | stop hstopped hdata =>
    obtain ⟨reason, hnext⟩ := next_of_summary_stop hsummary.symm
    refine ⟨fun hq => ?_, ?_⟩
    · rw [hq] at hstopped
      cases hstopped
    · rw [hdata, hstop reason _ hnext]
      exact .keep
  | next _ hstate hdata =>
    rw [hstate, hdata]
    exact ⟨fun _ => houtcome.bound hphase, moves_outcome hphase houtcome⟩

/-- **What a step does to the buffer** of a session with a resource. -/
theorem buffered_step
    (hcall : ∀ sender h, event ≠ .call sender (.resume h)) (h : step server p input = some q) :
    (q.stopped = none → q.state.phase = .bound) ∧
    Moves input.oracle p.data event p.data.stateMod q.data.stateMod :=
  buffered_step_of_stopsWith hphase hevent (handle_next_stop hphase hcall) h

end

theorem event?_of_step {input : Input} (h : step server p input = some q) :
    ∃ event, p.event? input = some event := by
  obtain ⟨-, event, p', hreceive, -⟩ := step_eq_some h
  exact ⟨event, by rw [Process.event?, hreceive]; rfl⟩

/-! ## A routed stanza -/

/-- A session buffers a routed stanza: the handlers let it pass, and it is neither a probe nor a
duplicate. -/
def Accepts (oracle : Oracle) (data : Data) (acc : Acc) : Prop :=
  ∃ smState presented, data.stateMod = some smState ∧
    presendAcc oracle data (.info (.route acc)) = some presented ∧
    presented.stanzaType ≠ some "probe" ∧ smState.bufferMax ≠ .noBuffer ∧
    (preventBufferDuplication oracle.newRef presented smState).isSome

/-- A stanza that is accepted is added to the buffer. -/
theorem summary_handleRoute (state : State) {acc : Acc} (h : Accepts oracle data acc) :
    ∃ smState presented stored n, data.stateMod = some smState ∧
    presendAcc oracle data (.info (.route acc)) = some presented ∧
    preventBufferDuplication oracle.newRef presented smState = some stored ∧
    (handleRoute oracle data state acc).summary state =
      .next state (data.mergeModState (smState.push stored)) n (bufferFullActions smState) := by
  obtain ⟨smState, presented, hsm, hpresend, htype, hmax, hnew⟩ := h
  obtain ⟨stored, hstored⟩ := Option.isSome_iff_exists.1 hnew
  refine ⟨smState, presented, stored,
    if state ≠ .extResumeSession ∧ isStanzaElement stored = true then 1 else 0,
    hsm, hpresend, hstored, ?_⟩
  obtain ⟨sender, hsender, hreceive⟩ := Option.bind_eq_some_iff.1 hpresend
  split at hreceive
  swap
  · cases hreceive
  · next hverdict =>
    have hstrip : (receiveHooks oracle data sender acc).hookAcc.statemAcc.strip = {} := by
      rw [receiveHooks, strip_andThen_run, (userReceivePacket_eq data _).1]
      rfl
    rw [presendAcc.beforePresend] at hreceive
    split at hreceive
    swap
    · cases hreceive
    · next hpresend' =>
      cases hreceive
      have hroute : handleRoute oracle data state acc =
          handleFlush oracle data state (receiveHooks oracle data sender acc).hookAcc := by
        rw [handleRoute]
        split
        · next hnone =>
          rw [hsender] at hnone
          cases hnone
        · next sender' hsender' =>
          cases (hsender.symm.trans hsender')
          rw [receiveHooks] at hverdict ⊢
          dsimp only
          rw [hverdict]
      have hstrip' := (strip_run oracle.xmppPresendElement _).trans hstrip
      rw [hroute, handleFlush, summary_finishHook, ← HookResult.summary, run_andThen, hpresend']
      simp only [xmppPresendElement, hsm, acc_run, htype, hmax, hstored, if_false]
      exact summary_handleBufferAndAck { acc := stored, statemAcc := _ } hstrip' _ _ _

/-- An event from outside is the one that is handled. -/
theorem event?_event {event' : Event}
    (h : p.event? (.event event oracle) = some event') : event' = event := by
  simp only [Process.event?, Process.receive] at h
  split at h
  · split at h
    · split at h
      · exact (Option.some.inj h).symm
      · cases h
    · exact (Option.some.inj h).symm
  · cases h

/-- A route is handled by `mongoose_c2s`, whatever the callback module. -/
theorem handle_route (p : Process) (acc : Acc) :
    p.handle server oracle (.info (.route acc)) = handleRoute oracle p.data p.state acc := by
  rw [Process.handle]
  split <;> rfl

/-- **A routed stanza that is accepted is buffered.** -/
theorem buffered_step_route {acc : Acc} (hacc : Accepts oracle p.data acc)
    (h : step server p (.event (.info (.route acc)) oracle) = some q) :
    ∃ stored, Presents oracle p.data (.info (.route acc)) stored ∧
    buffered q.data = stored :: buffered p.data := by
  obtain ⟨-, event, queue, timers, summary, hreceive, -, hsummary, -, hfollows⟩ := step_outcome h
  obtain rfl : event = .info (.route acc) := event?_event (by rw [Process.event?, hreceive]; rfl)
  obtain ⟨smState, presented, stored, n, hsm, hpresend, hstored, hnext⟩ :=
    summary_handleRoute p.state hacc
  refine ⟨stored, ⟨presented, smState, hpresend, hstored⟩, ?_⟩
  obtain rfl := hsummary.trans ((congrArg _ (handle_route p acc)).trans hnext)
  cases hfollows with
  | next _ _ hdata => rw [hdata, buffered_mergeModState, buffered_eq hsm]; rfl

/-! ## The call to resume the session -/

/-- The call reaches `handle_resume_call/3`: the session waits for it, or no module stops the hook
before. -/
def takesCall (p : Process) (oracle : Oracle) : Bool :=
  (p.callback.head? = some .modStreamManagement && p.state = .extResumeSession) ||
    oracle.foreignEventBefore.verdict = .ok

/-- The call is served: the session has stream management, and the ack is accepted. -/
def Serves (p : Process) (oracle : Oracle) (h : ℕ) (smState' : SmState) : Prop :=
  takesCall p oracle = true ∧
    ∃ smState, p.data.stateMod = some smState ∧ doHandleAck smState h = .ok smState'

/-- The reply to a call that an output is. -/
def Output.reply? : Output → Option (From × PeerReply)
  | .replyData sender data => some (sender, .ok data)
  | .replyError sender errorStanza => some (sender, .error errorStanza)
  | _ => none

theorem filterMap_reply_finishHook (data : Data) (state : State) (res : HookResult) :
    (finishHook data state res).outputs.filterMap Output.reply? =
    res.outputs.filterMap Output.reply? := by
  have hsent : (handleStateAfterPacket data state res.hookAcc).outputs.filterMap
      Output.reply? = [] := by
    simp only [handleStateAfterPacket, handleStateResult]
    split
    · rfl
    · rw [List.filterMap_map]
      exact List.filterMap_eq_nil_iff.2 fun _ _ => rfl
  rw [finishHook, FsmRes.after_outputs, List.filterMap_append, hsent, List.append_nil]

/-- What is handed over. -/
def futureData (p : Process) (smState' : SmState) (mailbox : List Acc) : Data :=
  p.data.mergeModState (pipelineFutureSmState p.data smState' mailbox)

variable {h : ℕ}

/-- **A call that is served** hands the buffer over and ends the session. -/
theorem handle_resumeCall (server : Server) {smState' : SmState}
    (hserves : Serves p oracle h smState') (sender : From) :
    (p.handle server oracle (.call sender (.resume h))).outputs.filterMap Output.reply? =
      [(sender, .ok (futureData p smState' oracle.mailbox))] ∧
    ∃ reason, (p.handle server oracle (.call sender (.resume h))).next =
      .stop reason (p.data.mergeModState (smStateToKeep smState' sender)) := by
  obtain ⟨htakes, smState, hsm, hack⟩ := hserves
  have hcall : handleResumeCall p.data sender h oracle.mailbox =
      (.ok (smStateToKeep smState' sender), streamErrorOutputs (streamError "conflict") ++
        [.replyData sender (futureData p smState' oracle.mailbox)]) := by
    simp only [handleResumeCall, hsm, hack]
    rfl
  have hforeign (hbefore : oracle.foreignEventBefore.verdict = .ok) :
      (handleForeignEvent oracle p.data p.state (.call sender (.resume h))).outputs.filterMap
          Output.reply? = [(sender, .ok (futureData p smState' oracle.mailbox))] ∧
        ∃ reason, (handleForeignEvent oracle p.data p.state (.call sender (.resume h))).next =
          .stop reason (p.data.mergeModState (smStateToKeep smState' sender)) := by
    simp only [handleForeignEvent]
    rw [run_andThen, hbefore]
    simp only [foreignEvent, hcall, HookResult.andThen]
    refine ⟨?_, _, rfl⟩
    rw [filterMap_reply_finishHook]
    rfl
  rw [takesCall, Bool.or_eq_true, Bool.and_eq_true, decide_eq_true_eq, decide_eq_true_eq,
    decide_eq_true_eq] at htakes
  rw [Process.handle]
  split
  · rw [StreamManagement.handleEvent.eq_def]
    split
    · next hevent _ =>
      obtain ⟨rfl, hcontent⟩ := Event.call.inj hevent
      obtain rfl := CallContent.resume.inj hcontent
      rw [hcall]
      exact ⟨rfl, _, rfl⟩
    · next hevent _ => cases hevent
    · next hother _ =>
      rcases htakes with ⟨-, hext⟩ | hbefore
      · exact absurd hext (hother _ _ rfl)
      · exact hforeign hbefore
  · next hcallback =>
    rcases htakes with ⟨hhead, -⟩ | hbefore
    · obtain ⟨rest, hrest⟩ := List.head?_eq_some_iff.1 hhead
      exact absurd hrest (hcallback _)
    · exact hforeign hbefore

/-- The caller gets no reply, or an error. -/
def NoData (sender : From) (outputs : List Output) : Prop :=
  outputs.filterMap Output.reply? = [] ∨
    ∃ errorStanza, outputs.filterMap Output.reply? = [(sender, .error errorStanza)]

theorem noData_nil (sender : From) : NoData sender [] := Or.inl rfl

theorem noData_finishHook {sender : From} {res : HookResult} (h : NoData sender res.outputs) :
    NoData sender (finishHook data state res).outputs := by
  rw [NoData, filterMap_reply_finishHook]
  exact h

/-- A call whose ack is not accepted is answered without data, or not at all. -/
theorem handleResumeCall_noData {mailbox : List Acc} {result : ResumeCallResult}
    {outputs : List Output} {sender : From}
    (hnot : ∀ smState smState', data.stateMod = some smState → doHandleAck smState h ≠ .ok smState')
    (hcall : handleResumeCall data sender h mailbox = (result, outputs)) :
    (result = .error ∨ result = .crash ∧ outputs = []) ∧ NoData sender outputs := by
  rw [handleResumeCall] at hcall
  split at hcall
  · cases hcall
    exact ⟨Or.inr ⟨rfl, rfl⟩, noData_nil _⟩
  · next smState hsm =>
    split at hcall
    · next smState' hack => exact absurd hack (hnot smState smState' hsm)
    · cases hcall
      exact ⟨Or.inl rfl, Or.inr ⟨_, rfl⟩⟩
    · cases hcall
      exact ⟨Or.inr ⟨rfl, rfl⟩, noData_nil _⟩

/-- Stream management does not see the call, or does not accept the ack. -/
theorem handleForeignEvent_not_serves {sender : From}
    (hnot : oracle.foreignEventBefore.verdict = .ok → ∀ smState smState',
    data.stateMod = some smState → doHandleAck smState h ≠ .ok smState') :
    StopsWith data (handleForeignEvent oracle data state (.call sender (.resume h))) ∧
    NoData sender (handleForeignEvent oracle data state (.call sender (.resume h))).outputs := by
  simp only [handleForeignEvent]
  generalize hnew : ({ acc := _ } : HookAcc) = hookAcc
  have hhook : Untouched hookAcc := hnew ▸ untouched_new _
  rw [run_andThen]
  cases hbefore : oracle.foreignEventBefore.verdict with
  | stop =>
    simp only [HookResult.andThen, verdict_run, hbefore]
    exact ⟨stopsWith_finishHook (hhook.run _), noData_finishHook (noData_nil _)⟩
  | ok =>
    rcases hcall : handleResumeCall data sender h oracle.mailbox with ⟨result, outputs⟩
    obtain ⟨rfl | ⟨rfl, rfl⟩, hnoData⟩ := handleResumeCall_noData (hnot hbefore) hcall
    · simp only [foreignEvent, hcall, HookResult.andThen]
      exact ⟨stopsWith_finishHook (hhook.run _), noData_finishHook hnoData⟩
    · simp only [foreignEvent, hcall, HookResult.andThen]
      cases hafter : oracle.foreignEventAfter.verdict with
      | ok =>
        simp only [verdict_run, hafter]
        exact ⟨fun _ _ h => (by cases h), noData_nil _⟩
      | stop =>
        simp only [verdict_run, hafter]
        exact ⟨stopsWith_finishHook ((hhook.run _).run _), noData_finishHook (noData_nil _)⟩

/-- **A call that is not served** changes no data and hands nothing over. -/
theorem handle_resumeCall_not_serves (server : Server)
    (hnot : ∀ smState', ¬ Serves p oracle h smState') (sender : From) :
    StopsWith p.data (p.handle server oracle (.call sender (.resume h))) ∧
    NoData sender (p.handle server oracle (.call sender (.resume h))).outputs := by
  have hack (htakes : takesCall p oracle = true) : ∀ smState smState',
      p.data.stateMod = some smState → doHandleAck smState h ≠ .ok smState' :=
    fun smState smState' hsm hack => hnot smState' ⟨htakes, smState, hsm, hack⟩
  have hforeign :
      StopsWith p.data (handleForeignEvent oracle p.data p.state (.call sender (.resume h))) ∧
        NoData sender
          (handleForeignEvent oracle p.data p.state (.call sender (.resume h))).outputs :=
    handleForeignEvent_not_serves fun hbefore => hack (by rw [takesCall, hbefore]; simp)
  rw [Process.handle]
  split
  · next hcallback =>
    rw [StreamManagement.handleEvent.eq_def]
    split
    · next hevent hext =>
      obtain ⟨rfl, hcontent⟩ := Event.call.inj hevent
      obtain rfl := CallContent.resume.inj hcontent
      have htakes : takesCall p oracle = true := by
        rw [takesCall, hcallback, hext]
        rfl
      rcases hcall : handleResumeCall p.data sender h oracle.mailbox with ⟨result, outputs⟩
      obtain ⟨rfl | ⟨rfl, rfl⟩, hnoData⟩ := handleResumeCall_noData (hack htakes) hcall
      · exact ⟨stopsWith_stop _ _, hnoData⟩
      · exact ⟨stopsWith_stop _ _, hnoData⟩
    · next hevent _ => cases hevent
    · exact hforeign
  · exact hforeign

end MongooseIM.StreamManagement
