import MongooseIM.C2S.Outcome

/-! # What was written and what is acknowledged

Stream management counts the stanzas to the client by the last ack and the size of the buffer. In a
run that starts when it is enabled, this count is the number of stanzas written to the socket,
modulo `2 ^ 32`, as long as every stanza passes `xmpp_presend_element` and is buffered there. -/

namespace MongooseIM.StreamManagement

open Xmpp C2S Transition

variable {server : Server}

/-- Stream management has just been enabled. -/
structure JustEnabled (p : Process) (bufferMax : BufferMax) (ackFreq : AckFreq) : Prop where
  phase_eq : p.state.phase = .bound
  stateMod_eq : p.data.stateMod = some (buildSmHandler bufferMax ackFreq)

/-! ## Accounts -/

/-- A step after which the accounts still balance. -/
structure OutboundOk (server : Server) (p : Process) (input : Input) : Prop where
  hasSocket : p.state ≠ .extResumeSession
  /-- No stanza is refused for its `to`. -/
  verifyTo_eq : ∀ el, p.event? input = some (.xml (.element el)) → p.state = .sessionEstablished →
    isStanzaName el.name = true → verifyFrom server el p.data.jid = true →
      verifyTo server el = true
  /-- Of the elements that are presented, the stanzas and no others are buffered. -/
  buffered_iff : ∀ event acc, p.event? input = some event →
    presendAcc input.oracle p.data event = some acc →
      (isStanzaElement acc = true ↔ acc.stanzaType ≠ some "probe")

/-- The accounts of a session balance: `since` is what it has done since stream management was
enabled. -/
structure Balanced (bufferMax : BufferMax) (smState : SmState) (since : List Output) : Prop where
  /-- The limit of the buffer is that of the start. -/
  bufferMax_eq : smState.bufferMax = bufferMax
  bufferSize_eq : smState.bufferSize = smState.buffer.length
  /-- The last ack and the buffer count what was written. -/
  written_modEq : stanzasWritten since ≡ smState.counterOut + smState.bufferSize [MOD 2 ^ 32]

/-- A session whose accounts balance, or that has stopped. -/
def Accounted (bufferMax : BufferMax) (outputs : List Output) (p : Process) : Prop :=
  p.stopped = none → p.state.phase = .bound ∧ ∃ smState since,
    p.data.stateMod = some smState ∧ p.outputs = outputs ++ since ∧
      Balanced bufferMax smState since

variable {bufferMax : BufferMax}

theorem accounted_of_justEnabled {p : Process} {ackFreq : AckFreq}
    (h : JustEnabled p bufferMax ackFreq) : Accounted bufferMax p.outputs p :=
  fun _ => ⟨h.phase_eq, _, [], h.stateMod_eq, (List.append_nil _).symm, rfl, rfl, rfl⟩

namespace Balanced

variable {bufferMax : BufferMax} {smState smState' : SmState} {since outputs : List Output}

section

variable (h : Balanced bufferMax smState since)

include h

theorem quiet (hwritten : stanzasWritten outputs = 0) :
    Balanced bufferMax smState (since ++ outputs) :=
  ⟨h.bufferMax_eq, h.bufferSize_eq, by
    rw [stanzasWritten_append, hwritten, Nat.add_zero]
    exact h.written_modEq⟩

theorem ack {acked : ℕ}
    (hack : doHandleAck smState acked = .ok smState') : Balanced bufferMax smState' since := by
  refine ⟨?_, doHandleAck_length hack, h.written_modEq.trans (doHandleAck_sent hack).symm⟩
  obtain ⟨newSize, -, -, rfl⟩ := doHandleAck_ok hack
  exact h.bufferMax_eq

theorem push (acc : Acc) (hwritten : stanzasWritten outputs = 1) :
    Balanced bufferMax (smState.push acc) (since ++ outputs) := by
  refine ⟨h.bufferMax_eq, ?_, ?_⟩
  · rw [bufferSize_push, length_push, h.bufferSize_eq]
  · rw [stanzasWritten_append, hwritten, bufferSize_push]
    exact h.written_modEq.add_right 1

end

end Balanced

/-- **What a step does to the accounts.** -/
theorem accounted_step (hmax : bufferMax ≠ .noBuffer)
    (outputs : List Output) (p : Process) (input : Input) (q : Process)
    (hp : Accounted bufferMax outputs p) (hok : OutboundOk server p input)
    (h : step server p input = some q) : Accounted bufferMax outputs q := by
  obtain ⟨hrunning, event, queue, timers, summary, hreceive, -, -, houtcome, hfollows⟩ :=
    step_outcome h
  obtain ⟨hphase, smState, since, hsm, houtputs, hbalanced⟩ := hp hrunning
  have hevent : p.event? input = some event := by rw [Process.event?, hreceive]; rfl
  intro hq
  cases hfollows with
  | stop hstopped =>
    -- a process that has stopped has no accounts to keep
    rw [hq] at hstopped
    cases hstopped
  | next _ hstate hdata hnew hwritten =>
  rw [hstate, hdata]
  refine ⟨houtcome.bound hphase, ?_⟩
  have hkeep {d : Data} {smState' : SmState} {new : List Output}
      (hsm' : d.stateMod = some smState') (hnew : q.outputs = p.outputs ++ new)
      (hbalanced' : Balanced bufferMax smState' (since ++ new)) :
      ∃ smState since, d.stateMod = some smState ∧
        q.outputs = outputs ++ since ∧ Balanced bufferMax smState since :=
    ⟨smState', since ++ new, hsm', by rw [hnew, houtputs, List.append_assoc], hbalanced'⟩
  cases houtcome with
  | idle => exact hkeep hsm hnew (hbalanced.quiet hwritten)
  | count hsm' =>
    cases (hsm.symm.trans hsm')
    have hquiet := hbalanced.quiet hwritten
    exact hkeep rfl hnew ⟨hquiet.bufferMax_eq, hquiet.bufferSize_eq, hquiet.written_modEq⟩
  | reply _ _ _ hcause =>
    rcases hcause with h' | ⟨hestablished, el, rfl, hfrom, hto, rfl⟩
    · exact absurd hphase h'
    · -- only an element that is no stanza may be refused for its `to`
      have hstanza : isStanzaName el.name = false := by
        rw [Bool.eq_false_iff]
        intro hname
        rw [hok.verifyTo_eq el hevent hestablished hname hfrom] at hto
        cases hto
      rw [hstanza] at hwritten
      exact hkeep hsm hnew (hbalanced.quiet hwritten)
  | enable _ _ hsm' =>
    rw [hsm] at hsm'
    cases hsm'
  | ack _ hsm' hack =>
    cases (hsm.symm.trans hsm')
    exact hkeep rfl hnew ((hbalanced.ack hack).quiet hwritten)
  | unbuffered _ hacc hcause hn =>
    rcases hcause with h' | hprobe | ⟨smState', hsm', hnoBuffer⟩
    · rw [hsm] at h'
      cases h'
    · -- what is not buffered is no stanza
      have hstanza := Bool.eq_false_iff.2 fun hstanza =>
        (hok.buffered_iff event _ hevent hacc).1 hstanza hprobe
      exact hkeep hsm hnew (hbalanced.quiet (hwritten.trans (hn hstanza)))
    · cases (hsm.symm.trans hsm')
      exact absurd (hbalanced.bufferMax_eq.symm.trans hnoBuffer) hmax
  | buffered _ hacc hsm' htype _ _ hn =>
    cases (hsm.symm.trans hsm')
    have hstanza := (hok.buffered_iff event _ hevent hacc).2 htype
    rw [hn hok.hasSocket, hstanza, if_pos rfl] at hwritten
    exact hkeep rfl hnew (hbalanced.push _ hwritten)
  | suspend _ hsm' =>
    cases (hsm.symm.trans hsm')
    exact hkeep rfl hnew (hbalanced.quiet hwritten)
  | header _ hwait => rw [hwait] at hphase; cases hphase
  | restart _ hwait => rw [hwait] at hphase; cases hphase
  | login _ hphase' => rw [hphase'] at hphase; cases hphase
  | bind _ _ hphase' => rw [hphase'] at hphase; cases hphase
  | resume _ hphase' => rw [hphase'] at hphase; cases hphase

/-- **The accounts balance** in every run of steps that keep them: the last ack and the buffer count
the stanzas written, modulo `2 ^ 32`, and an honest client is not told that it acknowledged too
much. -/
theorem outbound_accounted {p q : Process} {inputs : List Input} {bufferMax : BufferMax}
    {ackFreq : AckFreq} (hmax : bufferMax ≠ .noBuffer) (hp : JustEnabled p bufferMax ackFreq)
    (hg : Guarded (step server) (OutboundOk server) p inputs)
    (hrun : run (step server) p inputs = some q) (hq : q.stopped = none) :
    ∃ smState since, q.data.stateMod = some smState ∧ q.outputs = p.outputs ++ since ∧
    smState.bufferSize = smState.buffer.length ∧
    stanzasWritten since ≡ smState.counterOut + smState.bufferSize [MOD 2 ^ 32] ∧
    ∀ received ≤ stanzasWritten since, stanzasWritten since ≤ received + smState.bufferSize →
      ∀ error, doHandleAck smState (received % 2 ^ 32) ≠ .error error := by
  obtain ⟨-, smState, since, hsm, houtputs, hbalanced⟩ :=
    run_invariant (accounted_step hmax p.outputs) (accounted_of_justEnabled hp) hg hrun hq
  exact ⟨smState, since, hsm, houtputs, hbalanced.bufferSize_eq, hbalanced.written_modEq,
    fun received hle hlast => doHandleAck_ne_error hbalanced.written_modEq hle hlast⟩

/-- A session that has just enabled stream management receives a message. -/
theorem outbound_accounted_message : ∃ q smState since,
    run (step (exampleServer (.limit 100))) (exampleSession (.limit 100) ⟨1, 1⟩ "alice")
      [.event (.info (.route exampleMessage)) {}] = some q ∧
    q.data.stateMod = some smState ∧
    q.outputs = (exampleSession (.limit 100) ⟨1, 1⟩ "alice").outputs ++ since ∧
    smState.bufferSize = smState.buffer.length ∧
    stanzasWritten since ≡ smState.counterOut + smState.bufferSize [MOD 2 ^ 32] ∧
    ∀ received ≤ stanzasWritten since, stanzasWritten since ≤ received + smState.bufferSize →
      ∀ error, doHandleAck smState (received % 2 ^ 32) ≠ .error error := by
  have hp : JustEnabled (exampleSession (.limit 100) ⟨1, 1⟩ "alice") (.limit 100) (.every 1) := ⟨rfl, rfl⟩
  obtain ⟨q, hq, hrunning⟩ : ∃ q,
      run (step (exampleServer (.limit 100))) (exampleSession (.limit 100) ⟨1, 1⟩ "alice")
        [.event (.info (.route exampleMessage)) {}] = some q ∧ q.stopped = none := ⟨_, rfl, rfl⟩
  have hg : Guarded (step (exampleServer (.limit 100))) (OutboundOk (exampleServer (.limit 100)))
      (exampleSession (.limit 100) ⟨1, 1⟩ "alice") [.event (.info (.route exampleMessage)) {}] := by
    refine (guarded_cons _ _ _).2 ⟨⟨by decide, ?_, ?_⟩, fun _ _ => guarded_nil _⟩
    · intro el hevent
      cases hevent
    · intro event acc hevent hacc
      cases hevent
      cases hacc
      decide
  obtain ⟨smState, since, h⟩ := outbound_accounted (by decide) hp hg hq hrunning
  exact ⟨q, smState, since, hq, h⟩

/-- A message with a `to` that is no address. -/
def malformedMessage : Element := .mk "message" [("to", "@")] [] ""

/-- The client sends a message with a malformed `to`. The reply is written and not counted, and the
client that acknowledges one stanza is told that it acknowledged more than was sent. -/
theorem outbound_miscounted :
    run (step (exampleServer (.limit 100))) (exampleInit ⟨1, 1⟩) (enableInputs "alice") =
      some (exampleSession (.limit 100) ⟨1, 1⟩ "alice") ∧
    JustEnabled (exampleSession (.limit 100) ⟨1, 1⟩ "alice") (.limit 100) (.every 1) ∧
    ∃ q smState since error,
      run (step (exampleServer (.limit 100))) (exampleSession (.limit 100) ⟨1, 1⟩ "alice")
        [socketElement malformedMessage, .next {}] = some q ∧
      q.stopped = none ∧ q.data.stateMod = some smState ∧
      q.outputs = (exampleSession (.limit 100) ⟨1, 1⟩ "alice").outputs ++ since ∧
      stanzasWritten since = 1 ∧
      ¬ stanzasWritten since ≡ smState.counterOut + smState.bufferSize [MOD 2 ^ 32] ∧
      doHandleAck smState 1 = .error error :=
  ⟨run_enableInputs _ _ _, ⟨rfl, rfl⟩, _, buildSmHandler (.limit 100) (.every 1),
    [.element (makeErrorReply malformedMessage jidMalformed)], _, rfl, rfl, rfl, rfl, rfl,
    by decide, rfl⟩

end MongooseIM.StreamManagement
