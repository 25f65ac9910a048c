import MongooseIM.StreamManagement.Handover

/-! # A resumption loses nothing in safe steps

What comes into the buffer of the old session and what leaves it is known for each of its steps, and
with it where each message goes in a step of the system. -/

namespace MongooseIM.StreamManagement

open Xmpp C2S Transition List

variable {ι : Type*} {ident : Acc → ι}

/-! ## Steps of the old session -/

section Old

variable {server : Server} {oracle : Oracle} {p q : Process} {data data' : Data}

theorem ackedIn_of_none (hsm : data.stateMod = none) : ackedIn data data' = [] := by
  rw [ackedIn]
  split
  · rfl
  · simp only [ackedBy, hsm]

section

variable {smState smState' : SmState} (hsm : data.stateMod = some smState)
    (hsm' : data'.stateMod = some smState')

include hsm hsm'

theorem ackedIn_of_counterOut (hsize : smState.bufferSize = smState.buffer.length)
    (hcounter : smState'.counterOut = smState.counterOut) : ackedIn data data' = [] := by
  simp only [ackedIn, hsm', ackedBy, hsm, hcounter]
  split
  · next acked hack =>
    obtain ⟨newSize, -, hnewSize, rfl⟩ := doHandleAck_ok hack
    have hdrop : calcToDrop smState.counterOut smState.counterOut = 0 := by
      simp [calcToDrop]
    have hall : newSize = smState.buffer.length := by omega
    rw [hall, take_length, drop_length]
  · rfl

theorem ackedIn_of_ack {n : ℕ} (hcounter : smState'.counterOut = n) {acked : SmState}
    (hack : doHandleAck smState n = .ok acked) :
    ackedIn data data' = smState.buffer.drop acked.buffer.length := by
  simp only [ackedIn, hsm', ackedBy, hsm, hcounter, hack]

end

/-- The stanzas that an ack leaves are those that it does not cover. -/
theorem messages_ack (ident : Acc → ι) {smState smState' : SmState} {n : ℕ}
    (hack : doHandleAck smState n = .ok smState') :
    messages ident smState.buffer = messages ident smState'.buffer +
    messages ident (smState.buffer.drop smState'.buffer.length) := by
  obtain ⟨newSize, hle, -, rfl⟩ := doHandleAck_ok hack
  dsimp only
  rw [length_take, min_eq_left hle]
  exact messages_take_drop _ _

theorem Moves.messages_eq (ident : Acc → ι) {event : Event} (hsized : Sized data.stateMod)
    (h : Moves oracle data event data.stateMod data'.stateMod) :
    ∃ added, (added = [] ∨ ∃ acc, added = [acc] ∧ Presents oracle data event acc) ∧
    (buffered data').take ((buffered data').length - (buffered data).length) = added ∧
    messages ident (buffered data) + messages ident added =
      messages ident (buffered data') + messages ident (ackedIn data data') := by
  -- the buffer is as it was, and so is the last ack
  have hkeep (hbuffer : buffered data' = buffered data) (hacked : ackedIn data data' = []) :
      ∃ added, (added = [] ∨ ∃ acc, added = [acc] ∧ Presents oracle data event acc) ∧
        (buffered data').take ((buffered data').length - (buffered data).length) = added ∧
        messages ident (buffered data) + messages ident added =
          messages ident (buffered data') + messages ident (ackedIn data data') := by
    refine ⟨[], Or.inl rfl, ?_, ?_⟩
    · rw [hbuffer, Nat.sub_self, take_zero]
    · rw [hbuffer, hacked]
  generalize hsm : data.stateMod = before at h hsized
  generalize hsm' : data'.stateMod = after at h
  cases h with
  | keep =>
    refine hkeep (by rw [buffered, buffered, hsm, hsm']) ?_
    cases before with
    | none => exact ackedIn_of_none hsm
    | some smState => exact ackedIn_of_counterOut hsm hsm' (hsized _ rfl) rfl
  | count counterIn =>
    refine hkeep (by rw [buffered_eq hsm, buffered_eq hsm']) ?_
    exact ackedIn_of_counterOut hsm hsm' (hsized _ rfl) rfl
  | enable bufferMax ackFreq =>
    exact hkeep (by rw [buffered, buffered, hsm, hsm']; rfl) (ackedIn_of_none hsm)
  | @ack smState smState' n hack =>
    have hcounter : smState'.counterOut = n := by
      obtain ⟨newSize, -, -, rfl⟩ := doHandleAck_ok hack
      rfl
    have hle : smState'.buffer.length - smState.buffer.length = 0 := by
      obtain ⟨newSize, -, -, rfl⟩ := doHandleAck_ok hack
      exact Nat.sub_eq_zero_of_le (length_take_le' _ _)
    refine ⟨[], Or.inl rfl, ?_, ?_⟩
    · rw [buffered_eq hsm, buffered_eq hsm', hle, take_zero]
    · rw [buffered_eq hsm, buffered_eq hsm', ackedIn_of_ack hsm hsm' hcounter hack, messages_nil,
        add_zero]
      exact messages_ack ident hack
  | @push smState acc hpresents =>
    refine ⟨[acc], Or.inr ⟨acc, rfl, hpresents⟩, ?_, ?_⟩
    · rw [buffered_eq hsm, buffered_eq hsm', SmState.push, length_cons, Nat.add_sub_cancel_left]
      rfl
    · rw [ackedIn_of_counterOut hsm hsm' (hsized _ rfl) rfl, buffered_eq hsm, buffered_eq hsm',
        messages_nil, add_zero, SmState.push, messages_cons acc smState.buffer, add_comm]

/-- A routed stanza is buffered, or it is no message. -/
theorem messages_step_route (hident : Identity ident) (horacle : KeepsIdentity ident oracle)
    {acc : Acc} (hphase : p.state.phase = .bound) (hsized : Sized p.data.stateMod)
    (hacc : isMessage acc = true → Accepts oracle p.data acc)
    (h : C2S.step server p (.event (.info (.route acc)) oracle) = some q) :
    messages ident (buffered p.data) + messages ident [acc] =
    messages ident (buffered q.data) + messages ident (ackedIn p.data q.data) := by
  obtain ⟨event, hevent⟩ := event?_of_step h
  obtain rfl := event?_event hevent
  obtain ⟨-, hmoves⟩ := buffered_step hphase hevent (fun _ _ h => by cases h) h
  obtain ⟨added, hadded, htake, heq⟩ := hmoves.messages_eq ident hsized
  rw [← heq]
  congr 1
  rcases hadded with rfl | ⟨stored, rfl, hpresents⟩
  · cases hmessage : isMessage acc with
    | false => rw [messages_of_not_message hmessage, messages_nil]
    | true =>
      -- the buffer has grown
      obtain ⟨stored, -, hq⟩ := buffered_step_route (hacc hmessage) h
      rw [hq, length_cons, Nat.add_sub_cancel_left] at htake
      cases htake
  · exact (messages_presents hident horacle hpresents).symm

/-- What a step has done when the session stops in it, and what it has written. -/
theorem step_handle {input : Input} {event : Event} (h : C2S.step server p input = some q)
    (hevent : p.event? input = some event) :
    q.outputs = p.outputs ++ (p.handle server input.oracle event).outputs ∧
    ∀ reason data, (p.handle server input.oracle event).next = .stop reason data →
      q.data = data ∧ q.stopped = some reason := by
  obtain ⟨-, event', p', hreceive, rfl⟩ := step_eq_some h
  obtain ⟨queue, timers, rfl, -⟩ := receive_eq_some hreceive
  obtain rfl : event = event' := by
    rw [Process.event?, hreceive] at hevent
    exact (Option.some.inj hevent).symm
  have hhandle : Process.handle server input.oracle { p with queue := queue, timers := timers }
      event = p.handle server input.oracle event := rfl
  rw [Process.take, Process.apply, hhandle]
  generalize p.handle server input.oracle event = res
  obtain ⟨outputs, next⟩ := res
  cases next with
  | nextState state data actions => exact ⟨rfl, fun _ _ h => by cases h⟩
  | keepState data actions => exact ⟨rfl, fun _ _ h => by cases h⟩
  | stop reason data =>
    refine ⟨rfl, fun reason' data' h => ?_⟩
    obtain ⟨rfl, rfl⟩ := Next.stop.inj h
    exact ⟨rfl, rfl⟩

end Old

/-! ## Safe steps -/

namespace Handover

variable {server : Server} {oracle : Oracle} {s s' : Handover}

/-- A message that is handled moves from the mailbox to the buffer, and others leave the buffer. -/
theorem add_shift {M : Type*} [AddCommMonoid M]
    {acked flight mail mails old new gone replies rest : M} (h : old + mail = new + gone) :
    acked + (flight + (mail + mails) + old + replies) + rest =
    gone + acked + (flight + mails + new + replies) + rest := by
  calc acked + (flight + (mail + mails) + old + replies) + rest
      = (old + mail) + (acked + flight + mails + replies + rest) := by ac_rfl
    _ = gone + acked + (flight + mails + new + replies) + rest := by
        rw [h]
        ac_rfl

/-- The messages of the mailbox and of the buffer are handed over, but for those that are
acknowledged. -/
theorem add_handOver {M : Type*} [AddCommMonoid M]
    {acked flight mails old gone future replies rest : M} (h : old + mails = future + gone) :
    acked + (flight + mails + old + replies) + rest =
    gone + acked + (flight + 0 + 0 + (replies + future)) + rest := by
  calc acked + (flight + mails + old + replies) + rest
      = (old + mails) + (acked + flight + replies + rest) := by ac_rfl
    _ = gone + acked + (flight + 0 + 0 + (replies + future)) + rest := by
        rw [h, add_zero, add_zero]
        ac_rfl

/-- A session that runs has not routed its buffer again, and is not gone. -/
theorem Inv.of_running (h : Inv server ident s) (hrunning : s.old.stopped = none) :
    s.rerouted ≠ true ∧ s.gone ≠ true := by
  have hrerouted : s.rerouted ≠ true := fun hr => h.stopped hr hrunning
  exact ⟨hrerouted, fun hg => hrerouted (h.gone hg).1⟩

theorem inv_init {p : Process} (hphase : p.state.phase = .bound) (hsized : Sized p.data.stateMod) :
    Inv server ident (init p) := by
  refine ⟨fun _ => hphase, fun _ => hsized, fun h => (by cases h), fun h => (by cases h), nodup_nil,
    fun _ h => absurd h not_mem_nil, fun _ _ h => absurd h not_mem_nil,
    fun _ _ h => absurd h not_mem_nil, fun _ h => absurd h not_mem_nil, ?_⟩
  show messages ident (buffered p.data) = 0 + (0 + 0 + messages ident (buffered p.data) + 0) +
    (0 + 0 + 0)
  simp only [zero_add, add_zero]

theorem inv_send (h : Inv server ident s) (acc : Acc) :
    Inv server ident { s with inFlight := acc :: s.inFlight, routed := acc :: s.routed } := by
  refine { h with balance := ?_ }
  have hbalance := h.balance
  simp only [Balance, pending] at hbalance ⊢
  rw [messages_cons acc s.routed, messages_cons acc s.inFlight, hbalance]
  simp only [held, delivered]
  ac_rfl

theorem inv_arrive (h : Inv server ident s) (hgone : s.gone = false) {i : ℕ} {acc : Acc}
    (hget : s.inFlight[i]? = some acc) :
    Inv server ident ({ s with inFlight := s.inFlight.eraseIdx i }.deliver (.route acc)) := by
  obtain ⟨hi, rfl⟩ := List.getElem?_eq_some_iff.1 hget
  have hperm : messages ident (s.inFlight[i] :: s.inFlight.eraseIdx i) =
      messages ident s.inFlight := messages_perm (List.getElem_cons_eraseIdx_perm hi)
  rw [messages_cons] at hperm
  rw [deliver, if_neg (by rw [hgone]; decide)]
  have hsenders : (s.mailbox ++ [Mail.route s.inFlight[i]]).filterMap Mail.sender? =
      s.mailbox.filterMap Mail.sender? := by
    rw [List.filterMap_append]
    exact List.append_nil _
  refine { h with gone := fun hg => ?_, nodup := ?_, tag_lt := ?_, balance := ?_ }
  · rw [hgone] at hg
    cases hg
  · rw [senders]
    simp only [hsenders]
    exact h.nodup
  · rw [senders]
    simp only [hsenders]
    exact h.tag_lt
  · have hbalance := h.balance
    simp only [Balance, pending, List.filterMap_append, messages_append] at hbalance ⊢
    rw [hbalance, ← hperm]
    show _ = _ + (_ + (_ + messages ident [s.inFlight[i]]) + _ + _) + _
    simp only [held, delivered]
    ac_rfl

theorem inv_call (h : Inv server ident s) (pid : ℕ) (data : Data) (smid : String) (n : ℕ) :
    Inv server ident ({ s with
    calls := s.calls + 1
    callers := ⟨⟨pid, s.calls⟩, data, smid⟩ :: s.callers }.deliver
      (.resume ⟨pid, s.calls⟩ n)) := by
  have hwaits (sender : From) (data' : Data) (hmem : (sender, .ok data') ∈ s.replies) :
      ∃ caller ∈ (⟨⟨pid, s.calls⟩, data, smid⟩ : Caller) :: s.callers, caller.sender = sender := by
    obtain ⟨caller, hcaller, heq⟩ := h.waits sender data' hmem
    exact ⟨caller, mem_cons_of_mem _ hcaller, heq⟩
  have hlt (sender : From) (hmem : sender ∈ s.senders) : sender.tag < s.calls + 1 :=
    Nat.lt_succ_of_lt (h.tag_lt sender hmem)
  rw [deliver]
  split_ifs with hgone
  · exact { h with tag_lt := hlt, waits := hwaits }
  · have hsenders : ((s.mailbox ++ [Mail.resume ⟨pid, s.calls⟩ n]).filterMap Mail.sender? ++
        s.replies.map Prod.fst).Perm (⟨pid, s.calls⟩ :: s.senders) := by
      rw [filterMap_append, append_assoc]
      exact perm_middle
    have hfresh : (⟨pid, s.calls⟩ : From) ∉ s.senders := fun hmem =>
      absurd (h.tag_lt _ hmem) (lt_irrefl _)
    refine ⟨h.bound, h.sized, h.stopped, fun hg => absurd hg hgone, ?_, ?_, hwaits, h.isSome,
      h.forward, ?_⟩
    · exact hsenders.nodup_iff.2 (nodup_cons.2 ⟨hfresh, h.nodup⟩)
    · intro sender hmem
      rcases mem_cons.1 (hsenders.mem_iff.1 hmem) with rfl | hmem
      · exact Nat.lt_succ_self _
      · exact hlt sender hmem
    · have hbalance := h.balance
      simp only [Balance, pending, filterMap_append, messages_append] at hbalance ⊢
      rw [hbalance]
      show _ = _ + (_ + (_ + 0) + _ + _) + _
      rw [add_zero]
      rfl

variable {mailbox : List Mail}

theorem senders_route {acc : Acc} (hmail : s.mailbox = .route acc :: mailbox) :
    s.senders = mailbox.filterMap Mail.sender? ++ s.replies.map Prod.fst := by
  rw [senders, hmail]
  rfl

theorem messages_route (ident : Acc → ι) {acc : Acc} (hmail : s.mailbox = .route acc :: mailbox) :
    messages ident (s.mailbox.filterMap Mail.acc?) =
    messages ident [acc] + messages ident (mailbox.filterMap Mail.acc?) := by
  rw [hmail]
  exact messages_cons acc _

theorem messages_resume (ident : Acc → ι) {sender : From} {n : ℕ}
    (hmail : s.mailbox = .resume sender n :: mailbox) :
    messages ident (s.mailbox.filterMap Mail.acc?) =
    messages ident (mailbox.filterMap Mail.acc?) := by
  rw [hmail]
  rfl

theorem inv_route (hident : Identity ident) (horacle : KeepsIdentity ident oracle)
    (h : Inv server ident s) {acc : Acc}
    (hmail : s.mailbox = .route acc :: mailbox)
    (hacc : isMessage acc = true → Accepts oracle s.old.data acc) {q : Process}
    (hstep : C2S.step server s.old (.event (.info (.route acc)) oracle) = some q) :
    Inv server ident ({ s with mailbox := mailbox }.stepped q) := by
  have hrunning := (step_eq_some hstep).1
  obtain ⟨hrerouted, hgone⟩ := h.of_running hrunning
  obtain ⟨event, hevent⟩ := event?_of_step hstep
  obtain rfl := event?_event hevent
  have hphase := h.bound hrunning
  have hsized := h.sized hrunning
  obtain ⟨hbound, hmoves⟩ := buffered_step hphase hevent (fun _ _ h => by cases h) hstep
  have hmessages := messages_step_route hident horacle hphase hsized hacc hstep
  have hnodup := h.nodup
  have hlt := h.tag_lt
  rw [senders_route hmail] at hnodup hlt
  refine ⟨hbound, fun _ => hmoves.sized hsized, fun hr => ?_, fun hg => ?_, hnodup, hlt,
    h.waits, h.isSome, h.forward, ?_⟩
  · exact absurd hr hrerouted
  · exact absurd hg hgone
  · have hbalance := h.balance
    have hroutes := messages_route ident hmail
    simp only [Balance, pending, hroutes, held, hrerouted, delivered, stepped,
      messages_append] at hbalance ⊢
    rw [hbalance]
    -- from the mailbox to the buffer, and what an ack covers from the buffer to the acks
    exact add_shift hmessages

theorem filterMap_filter_mailbox (mailbox : List Mail) :
    (mailbox.filter fun mail => mail.acc?.isNone).filterMap Mail.acc? = [] ∧
    (mailbox.filter fun mail => mail.acc?.isNone).filterMap Mail.sender? =
      mailbox.filterMap Mail.sender? := by
  induction mailbox with
  | nil => exact ⟨rfl, rfl⟩
  | cons mail mailbox ih =>
    cases mail with
    | route acc => exact ih
    | resume sender h =>
      refine ⟨ih.1, ?_⟩
      show sender :: _ = sender :: _
      rw [ih.2]

variable {n : ℕ}

/-- What a call has acknowledged and what is handed over are what the buffer was, with the messages
of the mailbox. -/
theorem messages_futureData (ident : Acc → ι) {p : Process} {smState smState' : SmState}
    (hsm : p.data.stateMod = some smState) (hack : doHandleAck smState n = .ok smState')
    (mailbox : List Acc) :
    messages ident (buffered p.data) + messages ident mailbox =
    messages ident (buffered (futureData p smState' mailbox)) +
      messages ident (smState.buffer.drop smState'.buffer.length) := by
  rw [buffered_eq hsm, futureData, buffered_mergeModState, pipelineFutureSmState,
    messages_recoverMessages, messages_ack ident hack]
  dsimp only
  ac_rfl

variable {sender : From}

section

variable {q : Process} (h : Inv server ident s) (hmail : s.mailbox = .resume sender n :: mailbox)

include h hmail

/-- **The old session serves a call**, and a new session waits for the reply. -/
theorem inv_served {smState' : SmState}
    (hserves : Serves s.old oracle n smState') (hwaits : s.Waits sender)
    (hstep : C2S.step server s.old (.event (.call sender (.resume n))
    { oracle with mailbox := mailbox.filterMap Mail.acc? }) = some q) :
    Inv server ident ({ s with mailbox := mailbox }.called q) := by
  have hrunning := (step_eq_some hstep).1
  obtain ⟨hrerouted, hgone⟩ := h.of_running hrunning
  obtain ⟨event, hevent⟩ := event?_of_step hstep
  obtain rfl := event?_event hevent
  obtain ⟨houtputs, hstop⟩ := step_handle hstep hevent
  have hserves' : Serves s.old { oracle with mailbox := mailbox.filterMap Mail.acc? } n smState' :=
    hserves
  obtain ⟨hreplies, reason, hnext⟩ := handle_resumeCall server hserves' sender
  obtain ⟨hdata, hstopped⟩ := hstop _ _ hnext
  obtain ⟨-, smState, hsm, hack⟩ := hserves
  have hacked : ackedIn s.old.data q.data = smState.buffer.drop smState'.buffer.length := by
    have hcounter : (smStateToKeep smState' sender).counterOut = n := by
      obtain ⟨newSize, -, -, rfl⟩ := doHandleAck_ok hack
      rfl
    exact ackedIn_of_ack hsm (by rw [hdata]; rfl) hcounter hack
  have hcalled : { s with mailbox := mailbox }.called q =
      { s with
        old := q
        mailbox := mailbox.filter fun mail => mail.acc?.isNone
        replies := s.replies ++
          [(sender, .ok (futureData s.old smState' (mailbox.filterMap Mail.acc?)))]
        acked := smState.buffer.drop smState'.buffer.length ++ s.acked } := by
    have hnew : (q.outputs.drop s.old.outputs.length).filterMap Output.reply? =
        [(sender, .ok (futureData s.old smState' (mailbox.filterMap Mail.acc?)))] := by
      rw [houtputs, drop_left]
      exact hreplies
    simp only [called, hnew, stepped, hacked]
    rfl
  rw [hcalled]
  obtain ⟨hroutes, hresumes⟩ := filterMap_filter_mailbox mailbox
  have hsenders : ((mailbox.filter fun mail => mail.acc?.isNone).filterMap Mail.sender? ++
      (s.replies ++ [(sender, PeerReply.ok (futureData s.old smState'
        (mailbox.filterMap Mail.acc?)))]).map Prod.fst).Perm s.senders := by
    rw [hresumes, map_append, ← append_assoc, senders, hmail]
    exact perm_append_singleton _ _
  refine ⟨fun hq => ?_, fun hq => ?_, fun hr => ?_, fun hg => ?_, hsenders.nodup_iff.2 h.nodup, ?_,
    ?_, ?_, h.forward, ?_⟩
  · rw [show q.stopped = none from hq] at hstopped
    cases hstopped
  · rw [show q.stopped = none from hq] at hstopped
    cases hstopped
  · exact absurd hr hrerouted
  · exact absurd hg hgone
  · intro sender' hmem
    exact h.tag_lt sender' (hsenders.mem_iff.1 hmem)
  · intro sender' data hmem
    rcases mem_append.1 hmem with hmem | hmem
    · exact h.waits sender' data hmem
    · obtain ⟨rfl, -⟩ := Prod.mk.inj (mem_singleton.1 hmem)
      exact hwaits
  · intro sender' data hmem
    rcases mem_append.1 hmem with hmem | hmem
    · exact h.isSome sender' data hmem
    · obtain ⟨-, hok⟩ := Prod.mk.inj (mem_singleton.1 hmem)
      obtain rfl := PeerReply.ok.inj hok
      rfl
  · have hbalance := h.balance
    have hroutes' := messages_resume ident hmail
    have hfuture := messages_futureData ident hsm hack (mailbox.filterMap Mail.acc?)
    simp only [Balance, pending, hroutes, hroutes', held, hrerouted, delivered, messages_append,
      Bool.false_eq_true, if_false, hdata, buffered_mergeModState, flatMap_append,
      flatMap_singleton] at hbalance ⊢
    rw [hbalance]
    -- the mailbox and the buffer are empty now; what they had is in the reply
    exact add_handOver hfuture

theorem inv_not_served (hnot : ∀ smState', ¬ Serves s.old oracle n smState')
    (hstep : C2S.step server s.old (.event (.call sender (.resume n))
    { oracle with mailbox := mailbox.filterMap Mail.acc? }) = some q) :
    Inv server ident ({ s with mailbox := mailbox }.called q) := by
  have hrunning := (step_eq_some hstep).1
  obtain ⟨hrerouted, hgone⟩ := h.of_running hrunning
  obtain ⟨event, hevent⟩ := event?_of_step hstep
  obtain rfl := event?_event hevent
  obtain ⟨houtputs, -⟩ := step_handle hstep hevent
  have hnot' : ∀ smState',
      ¬ Serves s.old { oracle with mailbox := mailbox.filterMap Mail.acc? } n smState' := hnot
  obtain ⟨hstop, hreplies⟩ := handle_resumeCall_not_serves server hnot' sender
  obtain ⟨hbound, hmoves⟩ := buffered_step_of_stopsWith (h.bound hrunning) hevent hstop hstep
  have hsized := h.sized hrunning
  obtain ⟨added, hadded, -, hmessages⟩ := hmoves.messages_eq ident hsized
  -- a call adds nothing to the buffer
  obtain rfl : added = [] := by
    rcases hadded with rfl | ⟨acc, rfl, presented, smState, hpresend, -⟩
    · rfl
    · cases hpresend
  have hnew : ∃ replies, (q.outputs.drop s.old.outputs.length).filterMap Output.reply? = replies ∧
      (replies = [] ∨ ∃ errorStanza, replies = [(sender, .error errorStanza)]) :=
    ⟨_, rfl, by rw [houtputs, drop_left]; exact hreplies⟩
  obtain ⟨replies, hnew, hcases⟩ := hnew
  have hcalled : { s with mailbox := mailbox }.called q =
      { { s with mailbox := mailbox }.stepped q with replies := s.replies ++ replies } := by
    simp only [called, hnew]
    rcases hcases with rfl | ⟨errorStanza, rfl⟩ <;> rfl
  rw [hcalled]
  have hdata {sender' : From} {data : Data} (hmem : (sender', .ok data) ∈ s.replies ++ replies) :
      (sender', .ok data) ∈ s.replies := by
    rcases mem_append.1 hmem with hmem | hmem
    · exact hmem
    · rcases hcases with rfl | ⟨errorStanza, rfl⟩
      · cases hmem
      · obtain ⟨-, hok⟩ := Prod.mk.inj (mem_singleton.1 hmem)
        cases hok
  have hsenders : (mailbox.filterMap Mail.sender? ++
      (s.replies ++ replies).map Prod.fst).Subperm s.senders := by
    have hold : s.senders = sender :: (mailbox.filterMap Mail.sender? ++
        s.replies.map Prod.fst) := by
      rw [senders, hmail]
      rfl
    rw [hold, map_append, ← append_assoc]
    rcases hcases with rfl | ⟨errorStanza, rfl⟩
    · rw [map_nil, append_nil]
      exact (sublist_cons_self _ _).subperm
    · exact (perm_append_singleton _ _).subperm
  refine ⟨hbound, fun _ => hmoves.sized hsized, fun hr => ?_, fun hg => ?_, ?_, ?_, ?_, ?_,
    h.forward, ?_⟩
  · exact absurd hr hrerouted
  · exact absurd hg hgone
  · obtain ⟨kept, hperm, hsub⟩ := hsenders
    exact hperm.nodup_iff.1 (h.nodup.sublist hsub)
  · intro sender' hmem
    exact h.tag_lt sender' (hsenders.subset hmem)
  · intro sender' data hmem
    exact h.waits sender' data (hdata hmem)
  · intro sender' data hmem
    exact h.isSome sender' data (hdata hmem)
  · have hbalance := h.balance
    have hroutes := messages_resume ident hmail
    have hnone : replies.flatMap handedOver = [] := by
      rcases hcases with rfl | ⟨errorStanza, rfl⟩ <;> rfl
    simp only [Balance, pending, hroutes, held, hrerouted, delivered, stepped, messages_append,
      Bool.false_eq_true, if_false, flatMap_append, hnone, messages_nil] at hbalance ⊢
    rw [messages_nil, add_zero] at hmessages
    rw [hbalance, hmessages, add_zero]
    ac_rfl

end

theorem ne_call_of_isEvent {p : Process} {input : Input} {event : Event}
    (h : isEvent p input = true) (hevent : p.event? input = some event) (sender : From) (n : ℕ) :
    event ≠ .call sender (.resume n) := by
  rintro rfl
  cases input with
  | next oracle =>
    cases hqueue : p.queue with
    | nil => simp [Process.event?, Process.receive, hqueue] at hevent
    | cons first queue =>
      obtain rfl : first = .call sender (.resume n) := by
        simpa [Process.event?, Process.receive, hqueue] using hevent
      simp [isEvent, hqueue] at h
  | event event oracle =>
    obtain rfl := event?_event hevent
    cases h

theorem inv_event (h : Inv server ident s) {input : Input} (hinput : isEvent s.old input = true)
    {q : Process} (hstep : C2S.step server s.old input = some q) :
    Inv server ident { s.stepped q with
    routed := (buffered q.data).take ((buffered q.data).length - (buffered s.old.data).length) ++
      s.routed } := by
  have hrunning := (step_eq_some hstep).1
  obtain ⟨hrerouted, hgone⟩ := h.of_running hrunning
  obtain ⟨event, hevent⟩ := event?_of_step hstep
  obtain ⟨hbound, hmoves⟩ :=
    buffered_step (h.bound hrunning) hevent (ne_call_of_isEvent hinput hevent) hstep
  have hsized := h.sized hrunning
  obtain ⟨added, -, hpushed, hmessages⟩ := hmoves.messages_eq ident hsized
  refine ⟨hbound, fun _ => hmoves.sized hsized, fun hr => ?_, fun hg => ?_, h.nodup, h.tag_lt,
    h.waits, h.isSome, h.forward, ?_⟩
  · exact absurd hr hrerouted
  · exact absurd hg hgone
  · have hbalance := h.balance
    simp only [Balance, pending, held, hrerouted, delivered, stepped, messages_append, hpushed,
      Bool.false_eq_true, if_false] at hbalance ⊢
    rw [hbalance]
    refine Eq.trans ?_ (add_shift hmessages)
    ac_rfl

/-- The buffer of a session that has stopped is routed again. -/
theorem inv_reroute (hident : Identity ident) (h : Inv server ident s) {hook : Reaction}
    (hhook : ∀ acc, ident (hook.change acc) = ident acc) (hrerouted : s.rerouted = false)
    {reason : Reason} (hstopped : s.old.stopped = some reason) :
    Inv server ident (s.rerouteUnacked server hook reason) := by
  have hend {s'' : Handover} (hold : s''.old = s.old) : s''.old.stopped ≠ none := by
    rw [hold, hstopped]
    exact Option.some_ne_none reason
  have hgone : s.gone = true → False := by
    intro hg
    rw [(h.gone hg).1] at hrerouted
    cases hrerouted
  have hbalance := h.balance
  rw [rerouteUnacked]
  split
  · next hsm =>
    -- there is no buffer to route again
    refine { h with stopped := fun _ => hend rfl, gone := fun hg => (hgone hg).elim, balance := ?_ }
    have hnone : buffered s.old.data = [] := by rw [buffered, hsm]; rfl
    simp only [Balance, pending, held, hrerouted, delivered, Bool.false_eq_true, if_false, hnone,
      if_true] at hbalance ⊢
    exact hbalance
  · next smState hsm =>
    have hmessages := messages_reroutedBuffer hident server hhook s.old.data smState
    rw [← buffered_eq hsm] at hmessages
    dsimp only
    split
    · next pid _ =>
      refine { h with
          stopped := fun _ => hend rfl
          gone := fun hg => (hgone hg).elim
          balance := ?_ }
      have hpid : ((reroutedBuffer server hook s.old.data smState).map fun acc => (pid, acc)).map
          Prod.snd = reroutedBuffer server hook s.old.data smState := by
        rw [map_map]
        exact map_id _
      simp only [Balance, pending, held, hrerouted, delivered, Bool.false_eq_true, if_false,
        if_true, map_append, hpid, messages_append, hmessages, messages_nil] at hbalance ⊢
      rw [hbalance, add_zero]
      ac_rfl
    · refine { h with
        stopped := fun _ => hend rfl
        gone := fun hg => (hgone hg).elim
        balance := ?_ }
      simp only [Balance, pending, held, hrerouted, delivered, Bool.false_eq_true, if_false,
        if_true, messages_append, hmessages, messages_nil] at hbalance ⊢
      rw [hbalance, add_zero]
      ac_rfl

/-- A route that is left in the mailbox is routed again. -/
theorem inv_bounce_route (hident : Identity ident) (h : Inv server ident s)
    (hrerouted : s.rerouted = true) {acc : Acc}
    (hmail : s.mailbox = .route acc :: mailbox) :
    Inv server ident { s with
    mailbox := mailbox
    toRouter := s.toRouter ++ [patchAccForReroute acc s.old.data.sid] } := by
  have hnodup := h.nodup
  have hlt := h.tag_lt
  rw [senders_route hmail] at hnodup hlt
  refine { h with gone := fun hg => ?_, nodup := hnodup, tag_lt := hlt, balance := ?_ }
  · rw [(h.gone hg).2] at hmail
    cases hmail
  · have hbalance := h.balance
    have hroutes := messages_route ident hmail
    have hpatched : messages ident [patchAccForReroute acc s.old.data.sid] = messages ident [acc] :=
      messages_singleton (stanzaName_patchAccForReroute _ _) (hident.patchAccForReroute _ _)
    simp only [Balance, pending, hroutes, held, hrerouted, delivered, if_true, messages_append,
      messages_nil, hpatched] at hbalance ⊢
    rw [hbalance]
    ac_rfl

/-- A call that is left in the mailbox is dropped. -/
theorem inv_bounce_resume (h : Inv server ident s)
    (hmail : s.mailbox = .resume sender n :: mailbox) :
    Inv server ident { s with mailbox := mailbox } := by
  have hsub : (mailbox.filterMap Mail.sender? ++ s.replies.map Prod.fst).Sublist s.senders := by
    rw [senders, hmail]
    exact sublist_cons_self _ _
  refine ⟨h.bound, h.sized, h.stopped, fun hg => ?_, h.nodup.sublist hsub, fun sender' hmem => ?_,
    h.waits, h.isSome, h.forward, ?_⟩
  · rw [(h.gone hg).2] at hmail
    cases hmail
  · exact h.tag_lt sender' (hsub.subset hmem)
  · have hbalance := h.balance
    have hroutes := messages_resume ident hmail
    simp only [Balance, pending, hroutes] at hbalance ⊢
    exact hbalance

theorem inv_exit (h : Inv server ident s) (hrerouted : s.rerouted = true)
    (hmail : s.mailbox = []) : Inv server ident { s with gone := true } :=
  { h with gone := fun _ => ⟨hrerouted, hmail⟩ }

/-- A caller to which no data are on their way stops waiting. -/
theorem inv_release (h : Inv server ident s)
    (hnot : ∀ data, (sender, .ok data) ∉ s.replies) : Inv server ident (s.release sender) := by
  refine { h with waits := fun sender' data hmem => ?_ }
  obtain ⟨caller, hcaller, rfl⟩ := h.waits sender' data hmem
  refine ⟨caller, mem_filter.2 ⟨hcaller, ?_⟩, rfl⟩
  rw [decide_eq_true_eq]
  rintro rfl
  exact hnot data hmem

/-- A session that gets data of a session with stream management resumes it. -/
theorem doHandleResume_ok (server : Server) {old : Data} {smState : SmState}
    (hsm : old.stateMod = some smState) (sid : Sid) (data : Data) (smid : String) :
    ∃ resumed, doHandleResume server { session := .sid sid, peer := .ok old } data smid =
    .ok resumed ((buffered old).reverse.map fun acc =>
      (maybeAddTimestamp server.lib (.server old.lserver) acc).element)
      (mergeStates old data) := by
  have hmerged : (mergeStates old data).stateMod = some smState := hsm
  refine ⟨streamMgmtResumed smid smState.counterIn, ?_⟩
  simp only [doHandleResume, doResume, hmerged, getAllStanzasToForward, buffered_eq hsm]
  rfl

theorem inv_reply (h : Inv server ident s) {reply : PeerReply}
    {replies : List (From × PeerReply)} (hreplies : s.replies = (sender, reply) :: replies) :
    Inv server ident ({ s with replies := replies }.receive server sender reply) := by
  have hsub : (s.mailbox.filterMap Mail.sender? ++ replies.map Prod.fst).Sublist s.senders := by
    rw [senders, hreplies]
    exact (List.Sublist.refl _).append (sublist_cons_self _ _)
  have htag (sender' : From) (hmem : sender' ∈ s.mailbox.filterMap Mail.sender? ++
      replies.map Prod.fst) : sender'.tag < s.calls := h.tag_lt sender' (hsub.subset hmem)
  have hmem {sender' : From} {data : Data} (hin : (sender', .ok data) ∈ replies) :
      (sender', .ok data) ∈ s.replies := by
    rw [hreplies]
    exact mem_cons_of_mem _ hin
  -- the caller gets no other reply
  have honce (data : Data) : (sender, .ok data) ∉ replies := by
    intro hin
    have hnodup := h.nodup
    rw [senders, hreplies] at hnodup
    have hcons := (nodup_append.1 hnodup).2.1
    exact (nodup_cons.1 hcons).1 (mem_map.2 ⟨_, hin, rfl⟩)
  have hgained (hnone : handedOver (sender, reply) = []) :
      Inv server ident { s with replies := replies } := by
    refine ⟨h.bound, h.sized, h.stopped, h.gone, h.nodup.sublist hsub, htag,
      fun sender' data hin => h.waits sender' data (hmem hin),
      fun sender' data hin => h.isSome sender' data (hmem hin), h.forward, ?_⟩
    have hbalance := h.balance
    simp only [Balance, pending, hreplies, flatMap_cons, hnone, nil_append] at hbalance ⊢
    exact hbalance
  rw [receive]
  cases reply with
  | ok old =>
    -- the caller still waits, and takes the buffer
    obtain ⟨smState, hsm⟩ := Option.isSome_iff_exists.1
      (h.isSome sender old (hreplies ▸ mem_cons_self))
    have hfind : (s.callers.find? fun caller => caller.sender = sender).isSome := by
      obtain ⟨caller, hcaller, heq⟩ := h.waits sender old (hreplies ▸ mem_cons_self)
      exact find?_isSome.2 ⟨caller, hcaller, decide_eq_true heq⟩
    obtain ⟨caller, hfind⟩ := Option.isSome_iff_exists.1 hfind
    obtain ⟨resumed, hresume⟩ := doHandleResume_ok server hsm s.old.data.sid caller.data caller.smid
    have hresumed : Inv server ident { s with
        replies := replies
        resumed := ⟨(buffered old).reverse.map fun acc =>
          (maybeAddTimestamp server.lib (.server old.lserver) acc).element,
          mergeStates old caller.data⟩ :: s.resumed } := by
      refine ⟨h.bound, h.sized, h.stopped, h.gone, h.nodup.sublist hsub, htag,
        fun sender' data hin => h.waits sender' data (hmem hin),
        fun sender' data hin => h.isSome sender' data (hmem hin), fun session hin => ?_, ?_⟩
      · rcases mem_cons.1 hin with rfl | hin
        · rfl
        · exact h.forward session hin
      · have hbalance := h.balance
        have hmerged : buffered (mergeStates old caller.data) = buffered old := rfl
        simp only [Balance, pending, held, delivered, hreplies, flatMap_cons, handedOver,
          hmerged, messages_append] at hbalance ⊢
        rw [hbalance]
        ac_rfl
    simp only [hfind, hresume]
    exact inv_release hresumed honce
  | error errorStanza =>
    -- an error hands nothing over
    split
    · exact hgained rfl
    · exact inv_release (hgained rfl) honce
  | exception =>
    split
    · exact hgained rfl
    · exact inv_release (hgained rfl) honce

/-- **A safe step keeps every message in one place.** -/
theorem inv_step (hident : Identity ident) (h : Inv server ident s) {act : Act}
    (hsafe : s.Safe act) (hkeeps : Keeps ident act) (hstep : step server s act = some s') :
    Inv server ident s' := by
  cases act with
  | send acc =>
    cases hstep
    exact inv_send h acc
  | arrive i =>
    simp only [step] at hstep
    split at hstep
    · cases hstep
    · next acc hget =>
      cases hstep
      exact inv_arrive h hsafe hget
  | call pid data smid n =>
    simp only [step] at hstep
    split at hstep
    · cases hstep
    · cases hstep
      exact inv_call h pid data smid n
  | handle oracle =>
    simp only [step] at hstep
    split at hstep
    · cases hstep
    · next mail mailbox hmail =>
      simp only [Safe, hmail] at hsafe
      cases mail with
      | route acc =>
        obtain ⟨q, hq, rfl⟩ := Option.map_eq_some_iff.1 hstep
        exact inv_route hident hkeeps h hmail hsafe hq
      | resume sender n =>
        obtain ⟨q, hq, rfl⟩ := Option.map_eq_some_iff.1 hstep
        by_cases hserves : ∃ smState, Serves s.old oracle n smState
        · obtain ⟨smState, hserves'⟩ := hserves
          exact inv_served h hmail hserves' (hsafe ⟨smState, hserves'⟩) hq
        · exact inv_not_served h hmail (not_exists.1 hserves) hq
  | event input =>
    simp only [step] at hstep
    split at hstep
    · next hinput =>
      obtain ⟨q, hq, rfl⟩ := Option.map_eq_some_iff.1 hstep
      exact inv_event h hinput hq
    · cases hstep
  | reroute hook =>
    simp only [step] at hstep
    split at hstep
    · cases hstep
    · next hrerouted =>
      obtain ⟨reason, hreason, rfl⟩ := Option.map_eq_some_iff.1 hstep
      exact inv_reroute hident h hkeeps (Bool.eq_false_iff.2 hrerouted) hreason
  | bounce =>
    simp only [step] at hstep
    split at hstep
    · next hrerouted =>
      split at hstep
      · cases hstep
      · next acc mailbox hmail =>
        cases hstep
        exact inv_bounce_route hident h hrerouted hmail
      · next sender n mailbox hmail =>
        cases hstep
        exact inv_bounce_resume h hmail
    · cases hstep
  | exit =>
    simp only [step] at hstep
    split at hstep
    · next hend =>
      obtain ⟨hrerouted, hmail⟩ := Bool.and_eq_true_iff.1 hend
      cases hstep
      exact inv_exit h hrerouted (isEmpty_iff.1 hmail)
    · cases hstep
  | reply =>
    simp only [step] at hstep
    split at hstep
    · cases hstep
    · next sender reply replies hreplies =>
      cases hstep
      exact inv_reply h hreplies
  | timeout sender =>
    cases hstep
    exact inv_release h hsafe
  | down sender =>
    simp only [step] at hstep
    split at hstep
    · next hend =>
      obtain ⟨-, hall⟩ := Bool.and_eq_true_iff.1 hend
      cases hstep
      refine inv_release h fun data hmem => ?_
      have hne := all_eq_true.1 hall _ hmem
      simp at hne
    · cases hstep

/-! ## Runs -/

/-- The old session is no more, and nothing is on its way. -/
def Settled (s : Handover) : Prop := s.gone = true ∧ s.inFlight = [] ∧ s.replies = []

/-- A message is in one of three places and not in the others. -/
def InOne (m : ι) (a b c : Multiset ι) : Prop :=
  m ∈ a ∧ m ∉ b ∧ m ∉ c ∨ m ∉ a ∧ m ∈ b ∧ m ∉ c ∨ m ∉ a ∧ m ∉ b ∧ m ∈ c

/-- A message is in the buffer of the new session, routed again to its process, or routed again
through the router, and in no two of these places. -/
def DeliveredOnce (ident : Acc → ι) (s : Handover) (m : ι) : Prop :=
  InOne m (messages ident (s.resumed.flatMap fun session => buffered session.data))
    (messages ident (s.toPid.map Prod.snd)) (messages ident s.toRouter)

theorem inOne_of_nodup {m : ι} {a b c : Multiset ι} (hnodup : (a + b + c).Nodup)
    (hm : m ∈ a + b + c) : InOne m a b c := by
  obtain ⟨hab, -, hdisjoint⟩ := Multiset.nodup_add.1 hnodup
  obtain ⟨-, -, hdisjoint'⟩ := Multiset.nodup_add.1 hab
  rw [Multiset.disjoint_left] at hdisjoint hdisjoint'
  rcases Multiset.mem_add.1 hm with hm | hc
  · have hc : m ∉ c := hdisjoint hm
    rcases Multiset.mem_add.1 hm with ha | hb
    · exact Or.inl ⟨ha, hdisjoint' ha, hc⟩
    · exact Or.inr (Or.inl ⟨fun ha => hdisjoint' ha hb, hb, hc⟩)
  · have hab : m ∉ a + b := fun h => hdisjoint h hc
    rw [Multiset.mem_add, not_or] at hab
    exact Or.inr (Or.inr ⟨hab.1, hab.2, hc⟩)

/-- When nothing is on its way, every message is acknowledged or delivered. -/
theorem Inv.settled (h : Inv server ident s) (hsettled : s.Settled) :
    messages ident s.routed = messages ident s.acked + s.delivered ident := by
  obtain ⟨hgone, hflight, hreplies⟩ := hsettled
  obtain ⟨hrerouted, hmail⟩ := h.gone hgone
  have hpending : s.pending ident = 0 := by
    simp only [pending, held, hflight, hreplies, hmail, hrerouted, if_true, filterMap_nil,
      flatMap_nil, messages_nil, add_zero]
  have hbalance := h.balance
  rw [Balance, hpending, add_zero] at hbalance
  exact hbalance

/-- **A resumption loses and duplicates no message** in safe steps: every message is in one place,
and when the old session is gone, each that was not acknowledged is in the buffer of the new session
or was routed again, once. -/
theorem handover_conserves (hident : Identity ident) {p : Process}
    (hphase : p.state.phase = .bound) (hsized : Sized p.data.stateMod) {acts : List Act}
    (hguard : Guarded (step server) (fun s act => s.Safe act ∧ Keeps ident act) (init p) acts)
    (hrun : run (step server) (init p) acts = some s) :
    s.Balance ident ∧
    (∀ session ∈ s.resumed, session.forward = (buffered session.data).reverse.map fun acc =>
      (maybeAddTimestamp server.lib (.server session.data.lserver) acc).element) ∧
    (s.Settled → messages ident s.routed = messages ident s.acked + s.delivered ident ∧
      ((messages ident s.routed).Nodup → ∀ m ∈ messages ident s.routed,
        m ∉ messages ident s.acked → s.DeliveredOnce ident m)) := by
  have hinv : Inv server ident s := run_invariant
    (fun s act s' h hok hstep => inv_step hident h hok.1 hok.2 hstep) (inv_init hphase hsized)
    hguard hrun
  refine ⟨hinv.balance, hinv.forward, fun hsettled => ⟨hinv.settled hsettled, ?_⟩⟩
  intro hnodup m hm hacked
  rw [hinv.settled hsettled] at hnodup hm
  have hdelivered := (Multiset.mem_add.1 hm).resolve_left hacked
  exact inOne_of_nodup (Multiset.nodup_add.1 hnodup).2.1 hdelivered

/-! ## Two runs -/

/-- The message that was created at a time. -/
def messageAt (timestamp : ℕ) : Acc := { exampleMessage with timestamp := timestamp }

/-- The data of a client that has authenticated and resumes a session. -/
def exampleCaller : Data := (exampleLogin ⟨2, 2⟩ "alice").data

/-- The socket is lost, a new session resumes the old one, a message comes before the call is served
and another one after it. -/
def resumeActs : List Act :=
  [.send (messageAt 1), .arrive 0, .handle {}, .event (.event (.info .socketClosed) {}),
    .call 2 exampleCaller "smid" 0, .send (messageAt 2), .arrive 0, .handle {},
    .send (messageAt 3), .arrive 0, .reply, .reroute {}, .bounce, .exit]

theorem identity_timestamp : Identity Acc.timestamp :=
  ⟨fun _ _ _ _ => rfl, fun _ _ => rfl, fun _ _ => rfl⟩

theorem keepsIdentity_default : KeepsIdentity Acc.timestamp {} := ⟨fun _ => rfl, fun _ => rfl⟩

/-- The messages are recovered from the buffer and the mailbox, or bounced. -/
theorem handover_conserves_resumed : ∃ s,
    run (step (exampleServer (.limit 100))) (init (exampleSession (.limit 100) ⟨1, 1⟩ "alice"))
      resumeActs = some s ∧
    s.Settled ∧ messages Acc.timestamp s.routed = {3, 2, 1} ∧
    ∀ m ∈ messages Acc.timestamp s.routed, s.DeliveredOnce Acc.timestamp m := by
  have hsafe : Guarded (step (exampleServer (.limit 100)))
      (fun s act => s.Safe act ∧ Keeps Acc.timestamp act)
      (init (exampleSession (.limit 100) ⟨1, 1⟩ "alice")) resumeActs := by
    refine .intro ⟨trivial, trivial⟩ (.intro ⟨rfl, trivial⟩ (.intro ⟨fun _ => ?_, ?_⟩
      (.intro ⟨trivial, trivial⟩ (.intro ⟨trivial, trivial⟩ (.intro ⟨trivial, trivial⟩
      (.intro ⟨rfl, trivial⟩ (.intro ⟨fun _ => ?_, ?_⟩ (.intro ⟨trivial, trivial⟩
      (.intro ⟨rfl, trivial⟩ (.intro ⟨trivial, trivial⟩ (.intro ⟨trivial, ?_⟩
      (.intro ⟨trivial, trivial⟩ (.intro ⟨trivial, trivial⟩ trivial)))))))))))))
    · exact ⟨_, _, rfl, rfl, by decide, by decide, rfl⟩
    · exact keepsIdentity_default
    · exact ⟨_, mem_cons_self, rfl⟩
    · exact keepsIdentity_default
    · exact fun _ => rfl
  obtain ⟨s, hrun, hsettled, hrouted, hacked⟩ : ∃ s,
      run (step (exampleServer (.limit 100))) (init (exampleSession (.limit 100) ⟨1, 1⟩ "alice"))
          resumeActs = some s ∧
        s.Settled ∧ messages Acc.timestamp s.routed = {3, 2, 1} ∧
        messages Acc.timestamp s.acked = 0 := ⟨_, rfl, ⟨rfl, rfl, rfl⟩, rfl, rfl⟩
  obtain ⟨-, -, hend⟩ := handover_conserves identity_timestamp rfl ((sized_some _).2 rfl) hsafe hrun
  obtain ⟨-, honce⟩ := hend hsettled
  refine ⟨s, hrun, hsettled, hrouted, fun m hm => honce ?_ m hm ?_⟩
  · rw [hrouted]
    decide
  · rw [hacked]
    exact Multiset.notMem_zero m

/-- The call fails before the old session serves it. The reply finds nobody, and the message that
the client has not acknowledged is nowhere. -/
theorem handover_loses : ∃ s,
    run (step (exampleServer (.limit 100))) (init (exampleSession (.limit 100) ⟨1, 1⟩ "alice"))
      [.send (messageAt 1), .arrive 0, .handle {}, .call 2 exampleCaller "smid" 0,
        .timeout ⟨2, 0⟩, .handle {}, .reply, .reroute {}, .exit] = some s ∧
    s.Settled ∧ messages Acc.timestamp s.routed = {1} ∧ messages Acc.timestamp s.acked = 0 ∧
    ¬ s.DeliveredOnce Acc.timestamp 1 := by
  refine ⟨_, rfl, ⟨rfl, rfl, rfl⟩, rfl, rfl, ?_⟩
  rintro (⟨h, -⟩ | ⟨-, h, -⟩ | ⟨-, -, h⟩)
  · exact Multiset.notMem_zero 1 h
  · exact Multiset.notMem_zero 1 h
  · exact Multiset.notMem_zero 1 h

end Handover

end MongooseIM.StreamManagement
