import MongooseIM.AsyncPools.AggregatorWorker

/-! # Whether the worker waits on a request that is already answered

While `async_request` holds a request, `handle_task` and `handle_broadcast` only buffer. So a
worker whose pending request has been answered already buffers for ever, until a `sync`. -/

namespace MongooseIM.AsyncPools

open Erlang Transition

variable {Key Task Reply Extra : Type*} (cb : Callbacks Task Reply Extra)

/-- The consumed replies belong to requests that were made. -/
def ConsumedMade (w : Worker Key Task) : Prop := ∀ id ∈ w.consumed, id < w.calls.length

/-- The pending request, if there is one, was made and its reply has not been consumed. -/
structure Unanswered (w : Worker Key Task) : Prop where
  made : ConsumedMade w
  pendingMade : ∀ id task, w.state.asyncRequest = some (id, task) → id < w.calls.length
  /-- The reply to the pending request has not been consumed. -/
  unanswered : ∀ id task, w.state.asyncRequest = some (id, task) → id ∉ w.consumed

/-- The worker does not wait on an answered request, and tasks wait only on a request. -/
structure Live (w : Worker Key Task) : Prop extends Unanswered w where
  idle : w.state.asyncRequest = none → w.state.flushQueue = []

/-- The callback drops the task that `maybe_request_next/1` submits first. -/
def NextDropped [DecidableEq Key] (w : Worker Key Task) : Prop :=
  ∃ key ∈ w.state.flushQueue.head?, ∃ value ∈ w.state.flushElems.lookup key,
    cb.requestCallback w.calls.length value cb.flushExtra 0 = .drop

/-- The event is a reply to the pending request, the verify callback accepts it, and the callback
drops the task submitted next. -/
def Stalls [DecidableEq Key] (w : Worker Key Task) : Event Key Task Reply → Prop
  | .info (.response id (.reply reply)) =>
    (∃ p ∈ w.state.asyncRequest, p.1 = id ∧ maybeVerifyReply cb reply p.2 = .ok) ∧ NextDropped cb w
  | _ => False

instance NextDropped.decidable [DecidableEq Key] (w : Worker Key Task) :
    Decidable (NextDropped cb w) :=
  inferInstanceAs (Decidable (∃ key ∈ w.state.flushQueue.head?,
    ∃ value ∈ w.state.flushElems.lookup key,
      cb.requestCallback w.calls.length value cb.flushExtra 0 = .drop))

instance Stalls.decidable [DecidableEq Key] (w : Worker Key Task) :
    (e : Event Key Task Reply) → Decidable (Stalls cb w e)
  | .info (.response id (.reply reply)) =>
    inferInstanceAs (Decidable ((∃ p ∈ w.state.asyncRequest, p.1 = id ∧
      maybeVerifyReply cb reply p.2 = .ok) ∧ NextDropped cb w))
  | .info (.response _ .error) => isFalse id
  | .info (.response _ .replyError) => isFalse id
  | .info .unexpected => isFalse id
  | .task _ _ => isFalse id
  | .broadcast _ => isFalse id
  | .sync => isFalse id
  | .unexpected => isFalse id

theorem live_init : Live ({} : Worker Key Task) where
  made := by simp [ConsumedMade]
  pendingMade := by simp
  unanswered := by simp
  idle _ := rfl

/-! ## What a request does -/

variable {w : Worker Key Task}

/-- Without a pending request there is nothing that could be answered already. -/
theorem Unanswered.of_none (hw : ConsumedMade w)
    (h : w.state.asyncRequest = none) : Unanswered w where
  made := hw
  pendingMade id task hp := by simp [h] at hp
  unanswered id task hp := by simp [h] at hp

theorem Unanswered.live (hw : Unanswered w) (h : w.state.asyncRequest ≠ none) : Live w :=
  ⟨hw, fun hn => absurd hn h⟩

/-- A request that is sent is fresh, so its reply cannot have been consumed. -/
theorem unanswered_of_reqId (origin : Option Key) (request : Task) (hw : ConsumedMade w)
    (hr : cb.requestCallback w.calls.length request cb.flushExtra w.retryNumber = .reqId) :
    Unanswered (makeAsyncRequest cb origin request w) := by
  obtain ⟨hd, -⟩ | ⟨-, h⟩ := makeAsyncRequest_cases cb origin request w
  · rw [hr] at hd
    cases hd
  · have hid : ∀ id task, (makeAsyncRequest cb origin request w).state.asyncRequest
        = some (id, task) → id = w.calls.length := by
      intro id task hp
      rw [h] at hp
      exact (congrArg Prod.fst (Option.some.inj hp)).symm
    refine ⟨?_, fun id task hp => ?_, fun id task hp => ?_⟩
    · intro id hc
      rw [makeAsyncRequest_calls_length]
      exact Nat.lt_succ_of_lt (hw id (by simpa using hc))
    · rw [hid id task hp, makeAsyncRequest_calls_length]
      exact Nat.lt_succ_self _
    · rw [hid id task hp, makeAsyncRequest_consumed]
      exact fun hc => absurd (hw _ hc) (lt_irrefl _)

/-- `make_async_request/2` keeps a live pending request live, or replaces it by a fresh one. -/
theorem Unanswered.makeAsyncRequest (hw : Unanswered w)
    (origin : Option Key) (request : Task) : Unanswered (makeAsyncRequest cb origin request w) := by
  obtain ⟨-, h⟩ | ⟨hr, -⟩ := makeAsyncRequest_cases cb origin request w
  · refine ⟨fun id hid => ?_, fun id task hp => ?_, fun id task hp => ?_⟩
    · rw [makeAsyncRequest_calls_length]
      exact Nat.lt_succ_of_lt (hw.made id (by simpa using hid))
    · rw [h] at hp
      rw [makeAsyncRequest_calls_length]
      exact Nat.lt_succ_of_lt (hw.pendingMade id task hp)
    · rw [h] at hp ⊢
      exact hw.unanswered id task hp
  · exact unanswered_of_reqId cb origin request hw.made hr

/-! ## The functions of the worker keep a live worker live -/

variable [DecidableEq Key] {w' : Worker Key Task}

/-- The loop of `maybe_request_next/1` ends with a live worker: with a fresh request, with the one
that was pending, or with an empty queue and none. -/
theorem maybeRequestNextLoop_live {keys : List Key} (hw : Unanswered w)
    (h : maybeRequestNextLoop cb keys w = some w') : Live w' := by
  induction keys generalizing w with
  | nil =>
    cases h
    exact ⟨.of_none hw.made rfl, fun _ => rfl⟩
  | cons key keys ih =>
    rw [maybeRequestNextLoop] at h
    split at h
    · cases h
    · rename_i value newAcc htake
      have hw₂ : Unanswered { w with
          state.retriesLeft := w.state.totalRetries
          state.flushElems := newAcc
          state.flushQueue := keys } := ⟨hw.made, hw.pendingMade, hw.unanswered⟩
      have hw₃ := hw₂.makeAsyncRequest cb (some key) value
      by_cases hn : (makeAsyncRequest cb (some key) value { w with
          state.retriesLeft := w.state.totalRetries
          state.flushElems := newAcc
          state.flushQueue := keys }).state.asyncRequest = none
      · rw [if_pos hn] at h
        exact ih hw₃ h
      · rw [if_neg hn] at h
        cases h
        exact hw₃.live hn

theorem maybeRequestNext_live (hw : Unanswered w) (h : maybeRequestNext cb w = some w') : Live w' :=
  maybeRequestNextLoop_live cb hw h

/-- Giving the pending request up leaves nothing that could be answered already. -/
theorem cancelRequestRetry_live (hw : ConsumedMade w)
    (h : cancelRequestRetry cb w = some w') : Live w' :=
  maybeRequestNext_live (w := { w with state.asyncRequest := none }) cb (.of_none hw rfl) h

/-- A retry forgets the answered request before it makes the new one. -/
theorem maybeRequestRetry_live {reqTask : Task} (hw : ConsumedMade w)
    (h : maybeRequestRetry cb reqTask w = some w') : Live w' := by
  unfold maybeRequestRetry at h
  split at h
  · exact cancelRequestRetry_live cb hw h
  · have hw₁ : Unanswered { w with
        state.asyncRequest := none
        state.retriesLeft := w.state.retriesLeft - 1 } :=
      .of_none hw rfl
    have hw₂ := hw₁.makeAsyncRequest cb w.pendingOrigin reqTask
    simp only at h
    split at h
    · exact cancelRequestRetry_live cb hw₂.made h
    · rename_i hn
      cases h
      exact hw₂.live hn

/-- Going on after an answered request is safe when the first task that is submitted is sent. -/
theorem maybeRequestNext_live_of_not_dropped (hw : ConsumedMade w)
    (hd : ¬ NextDropped cb w) (h : maybeRequestNext cb w = some w') : Live w' := by
  unfold maybeRequestNext at h
  cases hq : w.state.flushQueue with
  | nil =>
    rw [hq] at h
    cases h
    exact ⟨.of_none hw rfl, fun _ => rfl⟩
  | cons key keys =>
    rw [hq, maybeRequestNextLoop] at h
    split at h
    · cases h
    · rename_i value newAcc htake
      obtain ⟨hlook, -⟩ := take_eq_some.1 htake
      have hr : cb.requestCallback w.calls.length value cb.flushExtra 0 = .reqId := by
        cases hc : cb.requestCallback w.calls.length value cb.flushExtra 0 with
        | reqId => rfl
        | drop => exact absurd ⟨key, by simp [hq], value, hlook, hc⟩ hd
      have hw₃ := unanswered_of_reqId cb (some key) value (w := { w with
          state.retriesLeft := w.state.totalRetries
          state.flushElems := newAcc
          state.flushQueue := keys }) hw (by simpa [Worker.retryNumber] using hr)
      simp only at h
      split at h
      · exact maybeRequestNextLoop_live cb hw₃ h
      · rename_i hn
        cases h
        exact hw₃.live hn

theorem runFlushFuel_live {fuel : ℕ} (hw : Unanswered w)
    (h : runFlushFuel cb fuel w = some w') : Live w' := by
  induction fuel generalizing w with
  | zero => cases h
  | succ fuel ih =>
    obtain ⟨w₁, h₁, h⟩ := Option.bind_eq_some_iff.1 h
    have hw₁ := maybeRequestNext_live cb hw h₁
    split at h
    · cases h
      exact hw₁
    · exact ih hw₁.toUnanswered h

omit [DecidableEq Key] in
/-- Consuming a reply keeps what is known of the calls; only the pending request may be answered. -/
theorem ConsumedMade.consume (hw : ConsumedMade w) (msg : Msg Reply) :
    ConsumedMade (consume msg w) := by
  unfold AsyncPools.consume
  split
  · exact hw
  · split
    · rename_i id _ hid
      intro id' hid'
      obtain rfl | hid' := List.mem_cons.1 hid'
      · exact hid
      · exact hw id' hid'
    · exact hw

omit [DecidableEq Key] in
@[simp] theorem consume_state (msg : Msg Reply) (w : Worker Key Task) :
    (consume msg w).state = w.state := by
  unfold consume
  split
  · rfl
  · split <;> rfl

omit [DecidableEq Key] in
@[simp] theorem consume_calls (msg : Msg Reply) (w : Worker Key Task) :
    (consume msg w).calls = w.calls := by
  unfold consume
  split
  · rfl
  · split <;> rfl

omit [DecidableEq Key] in
/-- A message that is no reply to the pending request leaves it unanswered. -/
theorem Live.consume (hw : Live w) (msg : Msg Reply)
    (h : ∀ id response task, msg = .response id response →
    w.state.asyncRequest ≠ some (id, task)) : Live (consume msg w) where
  made := hw.made.consume msg
  pendingMade id task hp := by
    rw [consume_state] at hp
    rw [consume_calls]
    exact hw.pendingMade id task hp
  unanswered id task hp := by
    rw [consume_state] at hp
    unfold AsyncPools.consume
    split
    · exact hw.unanswered id task hp
    · rename_i id' response
      split
      · rintro (_ | ⟨_, hid⟩)
        · exact h id response task rfl hp
        · exact hw.unanswered id task hp hid
      · exact hw.unanswered id task hp
  idle hp := by
    rw [consume_state] at hp ⊢
    exact hw.idle hp

variable {msg : Msg Reply}

omit [DecidableEq Key] in
/-- `check_response/4` ignores only messages that do not answer the pending request. -/
theorem checkResponse_ignore {id : RequestId} {task : Task}
    (h : checkResponse cb msg id task = some .ignore) (response : Response Reply) :
    msg ≠ .response id response := by
  rintro rfl
  simp only [checkResponse, if_true] at h
  cases response with
  | error => cases h
  | replyError => cases h
  | reply reply => cases hv : maybeVerifyReply cb reply task <;> simp [hv] at h

omit [DecidableEq Key] in
/-- `check_response/4` goes on to the next task only on a reply that the verify callback accepts. -/
theorem checkResponse_next {id : RequestId} {task : Task} :
    checkResponse cb msg id task = some .next ↔
    ∃ reply, msg = .response id (.reply reply) ∧ maybeVerifyReply cb reply task = .ok := by
  constructor
  · intro h
    unfold checkResponse at h
    split at h
    · cases h
    · rename_i id' response
      split at h
      · rename_i hid
        split at h
        · cases h
        · cases h
        · rename_i reply
          refine ⟨reply, by rw [hid], ?_⟩
          cases hv : maybeVerifyReply cb reply task with
          | ok => rfl
          | error => simp [hv] at h
          | other => simp [hv] at h
      · cases h
  · rintro ⟨reply, rfl, hv⟩
    simp [checkResponse, hv]

omit [DecidableEq Key] in
/-- A task submitted while nothing is pending leaves the empty queue as it is. -/
theorem Live.makeAsyncRequest {origin : Option Key} {request : Task}
    (hw : Live w) (hn : w.state.asyncRequest = none) :
    Live (makeAsyncRequest cb origin request w) :=
  ⟨hw.toUnanswered.makeAsyncRequest cb origin request, fun _ => by
    rw [makeAsyncRequest_flushQueue]
    exact hw.idle hn⟩

theorem handleTask_live {key : Key} {value : Task} (hw : Live w) :
    Live (handleTask cb key value w) := by
  unfold handleTask
  split
  · rename_i hn
    exact hw.makeAsyncRequest cb hn
  · rename_i p hp
    have hn : w.state.asyncRequest ≠ none := by simp [hp]
    split
    · split
      · exact Unanswered.live ⟨hw.made, hw.pendingMade, hw.unanswered⟩ hn
      · exact hw
    · exact Unanswered.live ⟨hw.made, hw.pendingMade, hw.unanswered⟩ hn

omit [DecidableEq Key] in
theorem handleBroadcast_live {task : Task} (hw : Live w) : Live (handleBroadcast cb task w) := by
  unfold handleBroadcast
  split
  · rename_i hn
    exact hw.makeAsyncRequest cb hn
  · rename_i p hp
    have hn : w.state.asyncRequest ≠ none := by simp [hp]
    exact Unanswered.live ⟨hw.made, hw.pendingMade, hw.unanswered⟩ hn

theorem handleSync_live {b : Bool} (hw : Live w)
    (h : handleSync cb w = some (b, w')) : Live w' := by
  unfold handleSync at h
  split at h
  · cases h
    exact hw
  · obtain ⟨w₁, h₁, hw₁⟩ := Option.map_eq_some_iff.1 h
    cases hw₁
    exact runFlushFuel_live cb hw.toUnanswered h₁

/-- A message is handled safely unless it is a good reply followed by a dropped task. -/
theorem handleInfo_live (hw : Live w)
    (hs : ¬ Stalls cb w (.info msg)) (h : handleInfo cb msg w = some w') : Live w' := by
  unfold handleInfo at h
  split at h
  · rename_i hn
    cases h
    exact hw.consume msg fun _ _ _ _ => by simp [hn]
  · rename_i id task hp
    split at h
    · cases h
    · rename_i hcheck
      cases h
      refine hw.consume msg fun id' response task' hmsg hp' => ?_
      obtain ⟨rfl, -⟩ : id = id' ∧ task = task' := by simpa [hp] using hp'
      exact checkResponse_ignore cb hcheck response hmsg
    · rename_i hcheck
      obtain ⟨reply, rfl, hv⟩ := (checkResponse_next cb).1 hcheck
      refine maybeRequestNext_live_of_not_dropped cb (hw.made.consume _) (fun hd => hs ?_) h
      refine ⟨⟨(id, task), hp, rfl, hv⟩, ?_⟩
      simpa [NextDropped] using hd
    · exact maybeRequestRetry_live cb (hw.made.consume msg) h

variable {e : Event Key Task Reply}

/-- **One step.** Every event that does not stall a live worker leaves it live. -/
theorem step_live (hw : Live w) (hs : ¬ Stalls cb w e) (h : step cb w e = some w') : Live w' := by
  cases e with
  | task key value =>
    cases h
    exact handleTask_live cb hw
  | broadcast task =>
    cases h
    exact handleBroadcast_live cb hw
  | sync =>
    obtain ⟨⟨b, w₁⟩, h₁, rfl⟩ := Option.map_eq_some_iff.1 h
    exact handleSync_live cb hw h₁
  | info msg => exact handleInfo_live cb hw hs h
  | unexpected =>
    cases h
    exact hw

/-- When the first task that waits is dropped while a request is pending, `maybe_request_next/1`
returns with that same request, whether it is answered or not. -/
theorem maybeRequestNext_of_nextDropped (hp : w.state.asyncRequest ≠ none) (hd : NextDropped cb w)
    (h : maybeRequestNext cb w = some w') :
    w'.state.asyncRequest = w.state.asyncRequest ∧ w'.consumed = w.consumed := by
  obtain ⟨key, hkey, value, hval, hdrop⟩ := hd
  obtain ⟨keys, hq⟩ : ∃ keys, w.state.flushQueue = key :: keys := List.head?_eq_some_iff.1 hkey
  have htake : take key w.state.flushElems = some (value, w.state.flushElems.erase key) :=
    take_eq_some.2 ⟨hval, rfl⟩
  rw [maybeRequestNext, hq, maybeRequestNextLoop, htake] at h
  simp only at h
  obtain ⟨-, hm⟩ | ⟨hr, -⟩ := makeAsyncRequest_cases cb (some key) value { w with
    state.retriesLeft := w.state.totalRetries
    state.flushElems := w.state.flushElems.erase key
    state.flushQueue := keys }
  · rw [hm, if_neg hp] at h
    cases h
    exact ⟨rfl, rfl⟩
  · simp [Worker.retryNumber, hdrop] at hr

/-- **The guard is exact.** An event that stalls a live worker, if the worker survives it, leaves
the answered request pending. -/
theorem not_live_of_stalls (hw : Live w)
    (hs : Stalls cb w e) (h : step cb w e = some w') : ¬ Live w' := by
  match e, hs with
  | .info (.response id (.reply reply)), ⟨⟨⟨id', task⟩, hp, hid, hv⟩, hd⟩ =>
    obtain rfl : id' = id := hid
    have hpend : w.state.asyncRequest = some (id', task) := hp
    have hmade : id' < w.calls.length := hw.pendingMade id' task hpend
    have hnext : checkResponse cb (.response id' (.reply reply)) id' task = some .next :=
      (checkResponse_next cb).2 ⟨reply, rfl, hv⟩
    have hc : consume (.response id' (.reply reply)) w
        = { w with consumed := id' :: w.consumed } := if_pos hmade
    simp only [step, handleInfo, hpend, hnext, hc] at h
    obtain ⟨hasync, hcons⟩ := maybeRequestNext_of_nextDropped cb
      (w := { w with consumed := id' :: w.consumed }) (by simp [hpend]) hd h
    intro hlive
    refine hlive.unanswered id' task (hasync.trans hpend) ?_
    rw [hcons]
    exact List.mem_cons_self

/-- **A run without a stall never waits on an answered request.** Where no accepted reply is
followed by a dropped task, the pending request has not been answered, and tasks wait only for such
a request. -/
theorem pending_unanswered {es : List (Event Key Task Reply)} {w : Worker Key Task}
    (hg : Guarded (step cb) (fun w e => ¬ Stalls cb w e) {} es)
    (hrun : run (step cb) {} es = some w) :
    (∀ id task, w.state.asyncRequest = some (id, task) → id ∉ w.consumed) ∧
    (w.state.flushQueue ≠ [] → ∃ id task, w.state.asyncRequest = some (id, task) ∧
    id ∉ w.consumed) := by
  have hw : Live w := run_invariant (fun _ _ _ h hs => step_live cb h hs) live_init hg hrun
  refine ⟨hw.unanswered, fun hq => ?_⟩
  obtain hn | ⟨⟨id, task⟩, hp⟩ := Option.eq_none_or_eq_some w.state.asyncRequest
  · exact absurd (hw.idle hn) hq
  · exact ⟨id, task, hp, hw.unanswered id task hp⟩

/-- Callbacks over numbers that drop the task `0` and send every other one. -/
def dropZero : Callbacks ℕ ℕ Unit where
  requestCallback _ task _ _ := if task = 0 then .drop else .reqId
  aggregateCallback _ new _ := some new
  verifyCallback := none
  flushExtra := ()

/-- Two keys, the second one buffered and sent once the first is answered. -/
theorem pending_unanswered_two_keys : ∃ w : Worker ℕ ℕ,
    run (step dropZero) {} [.task 1 1, .task 2 5, .info (.response 0 (.reply 7))] = some w ∧
    w.state.asyncRequest = some (1, 5) ∧
    (∀ id task, w.state.asyncRequest = some (id, task) → id ∉ w.consumed) := by
  have hg : Guarded (step dropZero) (fun w e => ¬ Stalls dropZero w e) {}
      [.task 1 1, .task 2 5, .info (.response 0 (.reply 7))] := by decide
  exact ⟨_, rfl, rfl, (pending_unanswered dropZero hg rfl).1⟩

/-- **The worker can wait on an answered request.** Key `1` is requested, `2` and `3` wait; the
reply arrives, the task of `2` is dropped, and request `0` stays pending. -/
theorem pending_answered :
    ¬ ∀ (es : List (Event ℕ ℕ ℕ)) (w : Worker ℕ ℕ), run (step dropZero) {} es = some w →
    (∀ id task, w.state.asyncRequest = some (id, task) → id ∉ w.consumed) ∧
    (w.state.flushQueue ≠ [] → ∃ id task, w.state.asyncRequest = some (id, task) ∧
      id ∉ w.consumed) := by
  intro h
  have hrun := h [.task 1 1, .task 2 0, .task 3 5, .info (.response 0 (.reply 7))] _ rfl
  exact hrun.1 0 1 rfl (by decide)

end MongooseIM.AsyncPools
