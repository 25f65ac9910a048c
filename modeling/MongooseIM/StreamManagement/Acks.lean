import MongooseIM.StreamManagement.Hooks
import MongooseIM.Transition.Run

/-! # Acks and the buffer

Stanzas to a client pass `xmpp_presend_element/3`, and the client acknowledges how many of them it
has received, modulo `2 ^ 32`. -/

namespace MongooseIM.StreamManagement.Acks

open Xmpp C2S Transition

/-- The state of stream management beside what the client knows. -/
structure Traffic where
  smState : SmState
  sent : List Element := []
  acked : ℕ := 0
  /-- `do_handle_ack/2` has returned an error. -/
  refused : Bool := false

/-- A stanza in a state of the session, or an ack of the stanzas received. -/
inductive Event
  | presend (oracle : Oracle) (data : Data) (state : State) (acc : Acc)
  | ack (received : ℕ)

variable (s : Traffic)

/-- `xmpp_presend_element/3`, for a session with this state of stream management. -/
def presend (oracle : Oracle) (data : Data) (state : State) (acc : Acc) : HookResult :=
  xmppPresendElement oracle (data.mergeModState s.smState) state { acc := acc }

/-- A stanza is for the client: it is written, or kept until the session is resumed. -/
def passes (res : HookResult) : Bool :=
  res.verdict = .ok || res.hookAcc.statemAcc.stateMod.isSome

/-- A client acknowledges at least what it did before and at most what was sent, and does so before
`2 ^ 32` stanzas are outstanding. -/
def Truthful (received : ℕ) : Prop :=
  s.acked ≤ received ∧ received ≤ s.sent.length ∧ s.sent.length < s.acked + 2 ^ 32

instance (s : Traffic) (received : ℕ) : Decidable (Truthful s received) :=
  inferInstanceAs (Decidable (_ ∧ _ ∧ _))

/-- A session that has refused an ack is closed. -/
def step : Event → Option Traffic
  | .presend oracle data state acc =>
    let res := presend s oracle data state acc
    if s.refused then none
    else some { s with
      smState := res.hookAcc.statemAcc.stateMod.getD s.smState
      sent := if passes res then acc.element :: s.sent else s.sent }
  | .ack received =>
    if s.refused ∨ ¬ Truthful s received then none
    else
      match doHandleAck s.smState (received % 2 ^ 32) with
      | .ok smState => some { s with smState := smState, acked := received }
      | .error _ => some { s with refused := true }
      | .badarg => some { s with refused := true }

/-- A session that has just enabled stream management. -/
def start (bufferMax : BufferMax) (ackFreq : AckFreq) : Traffic :=
  { smState := buildSmHandler bufferMax ackFreq }

/-- **The buffer is exact**: no ack was refused, and the buffer holds the stanzas that are not
acknowledged, the newest first. -/
structure Exact (s : Traffic) : Prop where
  accepted : s.refused = false
  buffer_eq : s.smState.buffer.map Acc.element = s.sent.take (s.sent.length - s.acked)

/-- No stanza is written to the client that stream management does not buffer: there is a buffer,
and the stanza is of another type than `probe`. -/
def Buffers : Event → Prop
  | .presend _ _ state acc => state ≠ .extResumeSession →
      s.smState.bufferMax ≠ .noBuffer ∧ acc.stanzaType ≠ some "probe"
  | .ack _ => True

/-- What the counters say. -/
structure Counted (s : Traffic) : Prop where
  bufferSize_eq : s.smState.bufferSize = s.smState.buffer.length
  counterOut_eq : s.smState.counterOut = s.acked % 2 ^ 32
  acked_le : s.acked ≤ s.sent.length

variable {s s' : Traffic} {oracle : Oracle} {data : Data} {state : State} {acc : Acc}

theorem maybeSendAckRequest_verdict (hookAcc : HookAcc) (smState : SmState) :
    (maybeSendAckRequest hookAcc state smState).verdict =
    if state = .extResumeSession then .stop else .ok := by
  rw [maybeSendAckRequest]
  split
  · next hrequested =>
    have hlive : state ≠ .extResumeSession := by
      rintro rfl
      rw [isAckRequested] at hrequested
      split at hrequested
      · simp at hrequested
      · cases hrequested
    rw [if_neg hlive]
  · rw [xmppPresendResult]

theorem maybeSendAckRequest_stateMod (hookAcc : HookAcc) (smState : SmState) :
    (maybeSendAckRequest hookAcc state smState).hookAcc.statemAcc.stateMod =
    hookAcc.statemAcc.stateMod := by
  rw [maybeSendAckRequest]
  split <;> rfl

/-- **What happens to a stanza.** It is buffered, or it passes by, or it is held back: it is a
duplicate, or the session has no socket. -/
theorem presend_cases (s : Traffic) (oracle : Oracle) (data : Data) (state : State) (acc : Acc) :
    (passes (presend s oracle data state acc) = true ∧ ∃ acc', acc'.element = acc.element ∧
      (presend s oracle data state acc).hookAcc.statemAcc.stateMod = some (s.smState.push acc') ∧
        s.smState.bufferMax ≠ .noBuffer ∧ acc.stanzaType ≠ some "probe") ∨
    (presend s oracle data state acc).hookAcc.statemAcc.stateMod = none ∧
    (passes (presend s oracle data state acc) = true ∧ state ≠ .extResumeSession ∧
        ¬ (s.smState.bufferMax ≠ .noBuffer ∧ acc.stanzaType ≠ some "probe") ∨
      passes (presend s oracle data state acc) = false ∧ (state ≠ .extResumeSession →
          s.smState.bufferMax ≠ .noBuffer ∧ acc.stanzaType ≠ some "probe")) := by
  -- a stanza that is not looked at is written if there is a socket
  have hpast {res : HookResult} (hmod : res.hookAcc.statemAcc.stateMod = none)
      (hverdict : res.verdict = if state = .extResumeSession then .stop else .ok)
      (hunbuffered : ¬ (s.smState.bufferMax ≠ .noBuffer ∧ acc.stanzaType ≠ some "probe")) :
      passes res = true ∧ state ≠ .extResumeSession ∧
          ¬ (s.smState.bufferMax ≠ .noBuffer ∧ acc.stanzaType ≠ some "probe") ∨
        passes res = false ∧ (state ≠ .extResumeSession →
          s.smState.bufferMax ≠ .noBuffer ∧ acc.stanzaType ≠ some "probe") := by
    rw [passes, hmod, hverdict]
    by_cases hstate : state = .extResumeSession
    · exact .inr ⟨by rw [if_pos hstate]; rfl, fun h => absurd hstate h⟩
    · exact .inl ⟨by rw [if_neg hstate]; rfl, hstate, hunbuffered⟩
  simp only [presend, xmppPresendElement, Data.mergeModState]
  split_ifs with hprobe hnone
  · exact .inr ⟨rfl, hpast rfl rfl fun h => h.2 hprobe⟩
  · refine .inr ⟨maybeSendAckRequest_stateMod _ _, hpast ?_ ?_ fun h => h.1 hnone⟩
    · exact maybeSendAckRequest_stateMod _ _
    · exact maybeSendAckRequest_verdict _ _
  · split
    · exact .inr ⟨rfl, .inr ⟨rfl, fun _ => ⟨hnone, hprobe⟩⟩⟩
    · next acc' hacc' =>
      have hmod : (handleBufferAndAck { acc := acc' } state s.smState).hookAcc.statemAcc.stateMod =
          some (s.smState.push (notifyUnacknowledgedMsgIfInResumeState acc' state)) := by
        rw [handleBufferAndAck, maybeSendAckRequest_stateMod]
        rfl
      refine .inl ⟨?_, _, ?_, hmod, hnone, hprobe⟩
      · rw [passes, hmod, Option.isSome_some, Bool.or_true]
      · rw [← preventBufferDuplication_element hacc', notifyUnacknowledgedMsgIfInResumeState,
          maybeNotifyUnacknowledgedMsg_eq, ite_self]

/-- A stanza keeps the buffer exact exactly when it does not pass by it. -/
theorem presend_exact_iff (hexact : Exact s) (hcounted : Counted s)
    (hstep : step s (.presend oracle data state acc) = some s') :
    Counted s' ∧ (Exact s' ↔ Buffers s (.presend oracle data state acc)) := by
  rw [step, hexact.accepted] at hstep
  cases hstep
  have hle := hcounted.acked_le
  rcases presend_cases s oracle data state acc with
    ⟨hpasses, acc', helement, hmod, hbuffers⟩ | ⟨hmod, ⟨hpasses, hlive, hby⟩ | ⟨hpasses, hheld⟩⟩
  · simp only [hpasses, hmod, Option.getD_some, if_true]
    have hcount : (acc.element :: s.sent).length - s.acked = s.sent.length - s.acked + 1 := by
      rw [List.length_cons]
      omega
    refine ⟨⟨?_, hcounted.counterOut_eq, hle.trans (Nat.le_succ _)⟩,
      iff_of_true ⟨rfl, ?_⟩ fun _ => hbuffers⟩
    · rw [bufferSize_push, length_push, hcounted.bufferSize_eq]
    · show acc'.element :: s.smState.buffer.map Acc.element = _
      rw [hcount, List.take_succ_cons, helement, hexact.buffer_eq]
  · simp only [hpasses, hmod, Option.getD_none, if_true]
    refine ⟨⟨hcounted.bufferSize_eq, hcounted.counterOut_eq, hle.trans (Nat.le_succ _)⟩,
      iff_of_false (fun hexact' => ?_) fun h => hby (h hlive)⟩
    -- one more stanza is outstanding, and the buffer is what it was
    have hlength := congrArg List.length (hexact.buffer_eq.symm.trans hexact'.buffer_eq)
    simp only [List.length_take, List.length_cons] at hlength
    omega
  · simp only [hpasses, hmod, Option.getD_none, Bool.false_eq_true, if_false]
    exact ⟨⟨hcounted.bufferSize_eq, hcounted.counterOut_eq, hle⟩,
      iff_of_true ⟨rfl, hexact.buffer_eq⟩ hheld⟩

/-- An ack drops the stanzas between the last ack and this one. -/
theorem calcToDrop_eq {acked received : ℕ} (hle : acked ≤ received)
    (hlt : received < acked + 2 ^ 32) :
    calcToDrop (received % 2 ^ 32) (acked % 2 ^ 32) = (received - acked : ℕ) := by
  rw [calcToDrop, hMax]
  split_ifs <;> omega

/-- **A truthful ack is accepted**, and leaves what it does not cover. -/
theorem ack_exact (hexact : Exact s) (hcounted : Counted s) {received : ℕ}
    (hstep : step s (.ack received) = some s') : Counted s' ∧ Exact s' := by
  rw [step] at hstep
  split at hstep
  · cases hstep
  · next htruthful =>
    obtain ⟨hge, hle, hlt⟩ := not_not.1 (not_or.1 htruthful).2
    have hlength : s.smState.buffer.length = s.sent.length - s.acked := by
      have h := congrArg List.length hexact.buffer_eq
      rw [List.length_map, List.length_take] at h
      omega
    have hdrop : calcToDrop (received % 2 ^ 32) s.smState.counterOut =
        (received - s.acked : ℕ) := by
      rw [hcounted.counterOut_eq]
      exact calcToDrop_eq hge (hle.trans_lt hlt)
    have hsize : ((s.smState.bufferSize : ℤ) - (received - s.acked : ℕ)).toNat =
        s.sent.length - received := by
      rw [hcounted.bufferSize_eq, hlength]
      omega
    have hack : doHandleAck s.smState (received % 2 ^ 32) = .ok { s.smState with
        counterOut := received % 2 ^ 32
        bufferSize := s.sent.length - received
        buffer := s.smState.buffer.take (s.sent.length - received) } := by
      rw [doHandleAck, hdrop, hsize, if_neg, if_pos]
      · rw [hlength]
        omega
      · rw [hcounted.bufferSize_eq, hlength]
        omega
    rw [hack] at hstep
    cases hstep
    refine ⟨⟨?_, rfl, hle⟩, hexact.accepted, ?_⟩
    · show s.sent.length - received = (s.smState.buffer.take (s.sent.length - received)).length
      rw [List.length_take, hlength]
      omega
    · show (s.smState.buffer.take (s.sent.length - received)).map Acc.element = _
      rw [List.map_take, hexact.buffer_eq, List.take_take, min_eq_left (by omega)]

/-- **Acks are sound exactly when** no stanza passes by the buffer: then, with any buffer and any
frequency of acks, no truthful ack is refused, and the buffer holds what is not acknowledged. -/
theorem acks_exact_iff (bufferMax : BufferMax) (ackFreq : AckFreq) (es : List Event) :
    Guarded step Buffers (start bufferMax ackFreq) es ↔
    ∀ h t, h <+: es → run step (start bufferMax ackFreq) h = some t → Exact t := by
  refine guarded_iff_holds_along_of_invariant (I := Counted) ?_ ?_ ?_ ⟨rfl, rfl, le_rfl⟩
    ⟨rfl, rfl⟩ es
  · intro s e _ hexact hbroken
    cases e with
    | presend oracle data state acc =>
      rw [step, hexact.accepted]
      exact ⟨_, rfl⟩
    | ack received => exact absurd trivial hbroken
  · intro s e s' hcounted hexact hstep _
    cases e with
    | presend oracle data state acc => exact (presend_exact_iff hexact hcounted hstep).1
    | ack received => exact (ack_exact hexact hcounted hstep).1
  · intro s e s' hcounted hexact hstep
    cases e with
    | presend oracle data state acc => exact (presend_exact_iff hexact hcounted hstep).2
    | ack received => exact iff_of_true (ack_exact hexact hcounted hstep).2 trivial

/-- A message to the client. -/
def exampleMessage : Acc := { element := .mk "message" [] [] "", fromJid := none, toJid := none }

/-- Without a buffer, the ack of the first message is refused. -/
theorem unbuffered_ack_refused : ∃ t ∈ run step (start .noBuffer (.every 1))
      [.presend {} ⟨none, "localhost", ⟨1, 1⟩, none, {}, none⟩ .sessionEstablished exampleMessage,
        .ack 1],
    t.refused = true ∧ ¬ Exact t := by
  refine ⟨_, rfl, rfl, fun h => ?_⟩
  cases h.accepted

end MongooseIM.StreamManagement.Acks
