import MongooseIM.C2S.Outcome

/-! # The timeout of a session that waits for its resumption

When a session loses its socket, stream management sets a timeout under its own name. The check of a
full buffer is a timeout of the same name. A session that waits for its resumption and buffers a
stanza for which it has no room replaces the first by the second, and then ends with that one. -/

namespace MongooseIM.StreamManagement

open Xmpp C2S Transition

variable {server : Server} (p : Process)

/-- Whether a step buffers a stanza for which a session that waits for its resumption has no
room. -/
def overflows (input : Input) : Bool :=
  match p.state, p.data.stateMod, (p.event? input).bind (presendAcc input.oracle p.data) with
  | .ext .resumeSession, some smState, some acc =>
    acc.stanzaType ≠ some "probe" &&
      (preventBufferDuplication input.oracle.newRef acc smState).isSome &&
      isBufferFull (smState.bufferSize + 1) smState.bufferMax
  | _, _, _ => false

/-- A session that waits for its resumption has its timeout, and stream management handles its
events. -/
def Armed : Prop :=
  p.stopped = none → p.state = .extResumeSession →
    p.timers .modStreamManagement = some .resumeTimeout ∧
      ∃ rest, p.callback = .modStreamManagement :: rest

theorem armed_init (isBlacklisted : Bool) (lserver : String) (sid : Sid)
    (listenerOpts : ListenerOpts) : Armed (Process.init isBlacklisted lserver sid listenerOpts) :=
  fun _ h => by cases h

theorem summary_handle_resumeTimeout (oracle : Oracle) {p : Process} {rest : List CallbackModule}
    (hcallback : p.callback = .modStreamManagement :: rest) (hstate : p.state = .extResumeSession) :
    (p.handle server oracle (.timeout .modStreamManagement .resumeTimeout)).summary p.state =
    .stop p.data := by
  rw [Process.handle, hcallback, hstate]
  rfl

theorem bufferFullActions_of_not_overflows {p : Process} {input : Input} {event : Event}
    {acc acc' : Acc}
    {smState : SmState} (hok : overflows p input = false) (hstate : p.state = .extResumeSession)
    (hevent : p.event? input = some event) (hacc : presendAcc input.oracle p.data event = some acc)
    (hsm : p.data.stateMod = some smState) (htype : acc.stanzaType ≠ some "probe")
    (href : preventBufferDuplication input.oracle.newRef acc smState = some acc') :
    bufferFullActions smState = [] := by
  simp only [overflows, hstate, hsm, hevent, Option.bind_some, hacc, href, Option.isSome_some,
    Bool.and_true, htype, ne_eq, not_false_eq_true, decide_true, Bool.true_and] at hok
  rw [bufferFullActions, hok]
  rfl

/-- **What a step does to the timeout.** -/
theorem armed_step (input : Input) (q : Process) (hp : Armed p)
    (hok : overflows p input = false) (h : step server p input = some q) : Armed q := by
  obtain ⟨hrunning, event, queue, timers, summary, hreceive, htimers, hsummary, houtcome,
    hfollows⟩ := step_outcome h
  have hevent : p.event? input = some event := by rw [Process.event?, hreceive]; rfl
  intro hq hstate
  -- a session that waited before has its timeout while it handles the event
  have hbefore (hext : p.state = .extResumeSession) :
      timers .modStreamManagement = some .resumeTimeout ∧
        ∃ rest, p.callback = .modStreamManagement :: rest := by
    obtain ⟨htimer, rest, hcallback⟩ := hp hrunning hext
    refine ⟨?_, rest, hcallback⟩
    rcases htimers with rfl | ⟨name, payload, rfl, hpending, rfl⟩
    · exact htimer
    · by_cases hname : name = .modStreamManagement
      · -- the timeout that fires is the one that ends the session
        subst hname
        cases (hpending.symm.trans htimer)
        rw [summary_handle_resumeTimeout input.oracle hcallback hext] at hsummary
        subst hsummary
        cases hfollows with
        | stop hstopped =>
          rw [hq] at hstopped
          cases hstopped
      · rw [Function.update_of_ne (Ne.symm hname)]
        exact htimer
  cases hfollows with
  | stop hstopped =>
    rw [hq] at hstopped
    cases hstopped
  | next _ hstate' _ _ _ htimer hcallback =>
  rw [hstate'] at hstate
  rw [htimer, hcallback]
  cases houtcome with
  | idle _ _ hext => exact hbefore (hext hstate)
  | count _ _ _ hext => exact hbefore (hext hstate)
  | reply _ _ hext => exact hbefore (hext hstate)
  | enable => exact hbefore hstate
  | ack => exact hbefore hstate
  | unbuffered => exact hbefore hstate
  | buffered _ hacc hsm htype _ href =>
    rw [bufferFullActions_of_not_overflows hok hstate hevent hacc hsm htype href]
    exact hbefore hstate
  | suspend =>
    refine ⟨?_, _, rfl⟩
    simp [Action.setTimer]
  | header => cases hstate
  | restart => cases hstate
  | login => cases hstate
  | bind _ _ _ _ hext => exact absurd hstate hext
  | resume => cases hstate

/-- **The timeout is armed.** In every run of a session in which no stanza is buffered beyond the
limit while the session waits for its resumption, a session that waits has its timeout pending. -/
theorem resumeTimeout_armed {isBlacklisted : Bool} {lserver : String} {sid : Sid}
    {listenerOpts : ListenerOpts} {inputs : List Input} {q : Process}
    (hg : Guarded (step server) (fun p input => overflows p input = false)
    (Process.init isBlacklisted lserver sid listenerOpts) inputs)
    (hrun : run (step server) (Process.init isBlacklisted lserver sid listenerOpts) inputs = some q)
    (hq : q.stopped = none) (hstate : q.state = .extResumeSession) :
    q.timers .modStreamManagement = some .resumeTimeout :=
  (run_invariant armed_step (armed_init isBlacklisted lserver sid listenerOpts) hg hrun hq hstate).1

theorem guarded_enableInputs :
    Guarded (step (exampleServer (.limit 1))) (fun p input => overflows p input = false)
    (exampleInit ⟨1, 1⟩) (enableInputs "alice") :=
  guarded_append (by decide) (run_loginInputs _ _ _)
    (guarded_append (by decide) (run_bindRequest _ _ _) (by decide))

/-- A session that loses its socket has its timeout pending. -/
theorem resumeTimeout_armed_socketClosed :
    ∃ q, run (step (exampleServer (.limit 1))) (exampleInit ⟨1, 1⟩)
      (enableInputs "alice" ++ [.event (.info .socketClosed) {}]) = some q ∧
    q.state = .extResumeSession ∧ q.timers .modStreamManagement = some .resumeTimeout := by
  have hrun : ∃ q, run (step (exampleServer (.limit 1))) (exampleInit ⟨1, 1⟩)
      (enableInputs "alice" ++ [.event (.info .socketClosed) {}]) = some q ∧
      q.stopped = none ∧ q.state = .extResumeSession := by
    rw [run_append, run_enableInputs, Option.bind_some]
    exact ⟨_, rfl, rfl, rfl⟩
  obtain ⟨q, hq, hrunning, hstate⟩ := hrun
  exact ⟨q, hq, hstate, resumeTimeout_armed
    (guarded_append guarded_enableInputs (run_enableInputs _ _ _) (by decide)) hq hrunning hstate⟩

/-- A session with room for one stanza gets two messages, the second one while it waits for its
resumption. Its timeout is now the one for a full buffer. -/
theorem resumeTimeout_replaced : ∃ q, run (step (exampleServer (.limit 1))) (exampleInit ⟨1, 1⟩)
      (enableInputs "alice" ++
        [.event (.info (.route exampleMessage)) {}, .event (.info .socketClosed) {},
          .event (.info (.route exampleMessage)) { newRef := 1 }]) = some q ∧
    q.stopped = none ∧ q.state = .extResumeSession ∧
    q.timers .modStreamManagement = some .checkBufferFull := by
  rw [run_append, run_enableInputs, Option.bind_some]
  exact ⟨_, rfl, rfl, rfl, rfl⟩

end MongooseIM.StreamManagement
