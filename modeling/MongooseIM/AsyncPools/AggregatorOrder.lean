import MongooseIM.AsyncPools.AggregatorPending
import MongooseIM.AsyncPools.Ledger

/-! # The aggregator worker refines the ledger

As long as every request succeeds at its first attempt, the callback drops nothing and aggregation
does not fail, the map and the queue of the worker are the buffered batches of the ledger, each
value the fold of its batch, and its calls are the batches issued. -/

namespace MongooseIM.AsyncPools

open Erlang Transition List Option

variable {Key Task Reply Extra : Type*} (cb : Callbacks Task Reply Extra)

/-- The aggregate of two tasks. -/
def aggregated (old new : Task) : Task := (cb.aggregateCallback old new cb.flushExtra).getD old

variable [DecidableEq Key]

/-- **A worker refines a ledger.** -/
structure Refines (w : Worker Key Task) (l : Ledger Key Task) : Prop where
  pending : w.state.asyncRequest.map Prod.fst = l.pending
  retries : w.state.retriesLeft = w.state.totalRetries
  calls : w.calls = l.issued.map fun b => ⟨b.1, b.2.value (aggregated cb), 0, .reqId⟩
  /-- The queue has the keys of the batches that wait, in order. -/
  queue : w.state.flushQueue = l.buffered.map Prod.fst
  keys : w.state.flushElems.keys.Perm w.state.flushQueue
  /-- Under each key waits its batch, folded into one task. -/
  elems : ∀ b ∈ l.buffered, w.state.flushElems.lookup b.1 = some (b.2.value (aggregated cb))

/-- The event is no failure of the pending request: the reply to it, if the event is one, is a
success that the verify callback accepts. -/
def Succeeds (w : Worker Key Task) : Event Key Task Reply → Prop
  | .info (.response id (.reply reply)) =>
    ∀ p ∈ w.state.asyncRequest, p.1 = id → maybeVerifyReply cb reply p.2 = .ok
  | .info (.response id _) => ∀ p ∈ w.state.asyncRequest, p.1 ≠ id
  | _ => True

instance Succeeds.decidable (w : Worker Key Task) :
    (e : Event Key Task Reply) → Decidable (Succeeds cb w e)
  | .info (.response id (.reply reply)) =>
    inferInstanceAs (Decidable (∀ p ∈ w.state.asyncRequest, p.1 = id →
      maybeVerifyReply cb reply p.2 = .ok))
  | .info (.response id .error) =>
    inferInstanceAs (Decidable (∀ p ∈ w.state.asyncRequest, p.1 ≠ id))
  | .info (.response id .replyError) =>
    inferInstanceAs (Decidable (∀ p ∈ w.state.asyncRequest, p.1 ≠ id))
  | .info .unexpected => isTrue trivial
  | .task _ _ => isTrue trivial
  | .broadcast _ => isTrue trivial
  | .sync => isTrue trivial
  | .unexpected => isTrue trivial

/-- The callbacks never refuse a task: nothing is dropped and every aggregation succeeds. -/
structure Callbacks.Total : Prop where
  sends : ∀ n task retry, cb.requestCallback n task cb.flushExtra retry = .reqId
  aggregates : ∀ old new, (cb.aggregateCallback old new cb.flushExtra).isSome

variable {cb}

theorem Callbacks.Total.aggregate (h : cb.Total) (old new : Task) :
    cb.aggregateCallback old new cb.flushExtra = some (aggregated cb old new) := by
  obtain ⟨c, hc⟩ := isSome_iff_exists.1 (h.aggregates old new)
  rw [aggregated, hc, getD_some]

theorem refines_init : Refines cb ({} : Worker Key Task) {} where
  pending := rfl
  retries := rfl
  calls := rfl
  queue := rfl
  keys := List.Perm.refl _
  elems b hb := by cases hb

namespace Refines

variable {w : Worker Key Task} {l : Ledger Key Task}

section

variable (h : Refines cb w l)

include h

theorem retryNumber : w.retryNumber = 0 := by
  rw [Worker.retryNumber, h.retries, Nat.sub_self]

theorem calls_length : w.calls.length = l.issued.length := by
  rw [h.calls, length_map]

/-- A worker waits for a request exactly when the ledger does. -/
theorem pending_none : w.state.asyncRequest = none ↔ l.pending = none := by
  rw [← h.pending, map_eq_none_iff]

/-- The keys of the queue are distinct, because those of the map are. -/
theorem queue_nodup : w.state.flushQueue.Nodup := h.keys.nodup_iff.1 w.state.flushElems.keys_nodup

theorem mem_queue (k : Key) : k ∈ w.state.flushQueue ↔ k ∈ w.state.flushElems := by
  rw [AList.mem_keys]
  exact h.keys.mem_iff.symm

/-- Submitting a batch: the worker makes the call that the ledger records. -/
theorem makeAsyncRequest (ht : cb.Total) (origin : Option Key) (b : Batch Task) :
    Refines cb (makeAsyncRequest cb origin (b.value (aggregated cb)) w) (l.issue origin b) := by
  obtain ⟨hd, -⟩ | ⟨-, hm⟩ := makeAsyncRequest_cases cb origin (b.value (aggregated cb)) w
  · simp [ht.sends] at hd
  · rw [hm]
    refine { h with pending := ?_, calls := ?_ }
    · simp [Ledger.issue, h.calls_length]
    · simp [Ledger.issue, h.calls, h.retryNumber]

/-- Taking the first batch out of the map and the queue. -/
theorem pop {k : Key} {b : Batch Task} {bs : List (Key × Batch Task)}
    (hb : l.buffered = (k, b) :: bs) :
    take k w.state.flushElems = some (b.value (aggregated cb), w.state.flushElems.erase k) ∧
    Refines cb { w with
    state.retriesLeft := w.state.totalRetries
    state.flushElems := w.state.flushElems.erase k
    state.flushQueue := bs.map Prod.fst } { l with buffered := bs } := by
  have hq : w.state.flushQueue = k :: bs.map Prod.fst := by rw [h.queue, hb, map_cons]
  have hnd := h.queue_nodup
  rw [hq, nodup_cons] at hnd
  refine ⟨take_eq_some.2 ⟨h.elems (k, b) (by simp [hb]), rfl⟩, h.pending, rfl, h.calls, rfl, ?_, ?_⟩
  · have hp := h.keys.erase k
    rwa [hq, erase_cons_head, ← AList.keys_erase] at hp
  · intro c hc
    have hne : c.1 ≠ k := by
      rintro rfl
      exact hnd.1 (mem_map_of_mem hc)
    rw [AList.lookup_erase_ne hne]
    exact h.elems c (by rw [hb]; exact mem_cons_of_mem _ hc)

/-- `maybe_request_next/1` issues the next batch. -/
theorem maybeRequestNext (ht : cb.Total) :
    ∃ w', maybeRequestNext cb w = some w' ∧ Refines cb w' l.next := by
  unfold AsyncPools.maybeRequestNext Ledger.next
  cases hb : l.buffered with
  | nil =>
    have hq : w.state.flushQueue = [] := by rw [h.queue, hb, map_nil]
    rw [hq, maybeRequestNextLoop]
    refine ⟨_, rfl, rfl, rfl, h.calls, by simp, ?_, by simp⟩
    have := h.keys
    rwa [hq] at this
  | cons b bs =>
    obtain ⟨k, b⟩ := b
    obtain ⟨htake, hpop⟩ := h.pop hb
    have hnext := hpop.makeAsyncRequest ht (some k) b
    have hq : w.state.flushQueue = k :: bs.map Prod.fst := by rw [h.queue, hb, map_cons]
    rw [hq, maybeRequestNextLoop, htake]
    simp only
    rw [if_neg fun hn => by cases hnext.pending_none.1 hn]
    exact ⟨_, rfl, hnext⟩

/-- `run_flush/1` issues every batch. -/
theorem runFlushFuel (ht : cb.Total) (fuel : ℕ) (hf : l.buffered.length < fuel) :
    ∃ w', runFlushFuel cb fuel w = some w' ∧ Refines cb w' l.flush := by
  induction fuel generalizing w l with
  | zero => cases hf
  | succ fuel ih =>
    obtain ⟨w₁, h₁, hw₁⟩ := h.maybeRequestNext ht
    rw [AsyncPools.runFlushFuel, h₁, bind_some]
    cases hb : l.buffered with
    | nil =>
      have hl : l.next = l.flush := by simp [Ledger.next, Ledger.flush, hb]
      rw [hl] at hw₁
      exact ⟨w₁, if_pos (hw₁.pending_none.2 rfl), hw₁⟩
    | cons b bs =>
      have hl : l.next.flush = l.flush := by
        simp [Ledger.next, Ledger.flush, Ledger.issue, hb]
      have hlen : l.next.buffered.length < fuel := by
        rw [hb, length_cons] at hf
        simp only [Ledger.next, Ledger.issue, hb]
        omega
      have hsome : w₁.state.asyncRequest ≠ none := by
        rw [Ne, hw₁.pending_none]
        simp [Ledger.next, Ledger.issue, hb]
      rw [if_neg hsome, ← hl]
      exact ih hw₁ hlen

/-! ## Tasks -/

/-- A change of what waits, in the worker and in the ledger. -/
theorem rebuffer {elems : AList fun _ : Key => Task} {queue : List Key}
    {buffered : List (Key × Batch Task)} (hq : queue = buffered.map Prod.fst)
    (hk : elems.keys.Perm queue)
    (he : ∀ b ∈ buffered, elems.lookup b.1 = some (b.2.value (aggregated cb))) :
    Refines cb { w with state.flushElems := elems, state.flushQueue := queue }
    { l with buffered := buffered } :=
  ⟨h.pending, h.retries, h.calls, hq, hk, he⟩

/-- A task for a key that waits is aggregated with the batch of the key. -/
theorem aggregate {k : Key} {b : Batch Task} (hb : (k, b) ∈ l.buffered) (p : Part Task) :
    Refines cb { w with state.flushElems :=
      w.state.flushElems.insert k (aggregated cb (b.value (aggregated cb)) p.task) }
    { l with buffered := addTo k p l.buffered } := by
  refine h.rebuffer (by rw [addTo_keys, h.queue]) ?_ ?_
  · have hmem : k ∈ w.state.flushElems.keys := by
      rw [h.keys.mem_iff, h.queue]
      exact mem_map_of_mem hb
    rw [AList.keys_insert]
    exact (perm_cons_erase hmem).symm.trans h.keys
  · intro c' hc'
    obtain ⟨c, hc, rfl⟩ := mem_map.1 hc'
    have hlc := h.elems c hc
    by_cases hck : c.1 = k
    · -- the batch found under the key is the one in the list
      rw [hck, h.elems (k, b) hb] at hlc
      simp only [hck, if_true, lookup_insert, Batch.value_add]
      rw [some.inj hlc]
    · rw [if_neg hck, lookup_insert, if_neg hck]
      exact hlc

/-- A task for a key that does not wait opens a batch at the end of the queue. -/
theorem enqueue {k : Key} (hk : k ∉ l.buffered.map Prod.fst) (p : Part Task) : Refines cb { w with
      state.flushElems := w.state.flushElems.insert k p.task
      state.flushQueue := w.state.flushQueue ++ [k] }
    { l with buffered := l.buffered ++ [(k, ⟨p, []⟩)] } := by
  refine h.rebuffer (by rw [h.queue, map_append, map_singleton]) ?_ ?_
  · have hnot : k ∉ w.state.flushElems.keys := by rwa [h.keys.mem_iff, h.queue]
    rw [AList.keys_insert, erase_of_not_mem hnot]
    exact (h.keys.cons k).trans (perm_append_singleton k _).symm
  · intro c hmem
    obtain hc | hc := mem_append.1 hmem
    · have hck : c.1 ≠ k := fun hck => hk (hck ▸ mem_map_of_mem hc)
      rw [lookup_insert, if_neg hck]
      exact h.elems c hc
    · obtain rfl := mem_singleton.1 hc
      rw [lookup_insert, if_pos rfl, Batch.value_single]

theorem handleTask (ht : cb.Total) (k : Key) (task : Task) :
    Refines cb (handleTask cb k task w) (l.submit k (.own task)) := by
  unfold AsyncPools.handleTask
  split
  · rename_i hn
    rw [Ledger.submit_idle (h.pending_none.1 hn)]
    exact h.makeAsyncRequest ht (some k) ⟨.own task, []⟩
  · rename_i p hp
    have hbusy : l.pending ≠ none := by
      rw [Ne, ← h.pending_none, hp]
      exact some_ne_none p
    rw [Ledger.submit_busy hbusy]
    by_cases hk : k ∈ l.buffered.map Prod.fst
    · obtain ⟨⟨k', b⟩, hb, rfl⟩ := mem_map.1 hk
      rw [if_pos hk, h.elems _ hb]
      simp only [ht.aggregate]
      exact h.aggregate hb (.own task)
    · have hnot : k ∉ w.state.flushElems := by rwa [← h.mem_queue, h.queue]
      rw [if_neg hk, AList.lookup_eq_none.2 hnot]
      exact h.enqueue hk (.own task)

theorem handleBroadcast (ht : cb.Total) (task : Task) :
    Refines cb (handleBroadcast cb task w) (l.submitAll (.broadcast task)) := by
  unfold AsyncPools.handleBroadcast
  split
  · rename_i hn
    rw [Ledger.submitAll_idle (h.pending_none.1 hn)]
    exact h.makeAsyncRequest ht none ⟨.broadcast task, []⟩
  · rename_i p hp
    have hbusy : l.pending ≠ none := by
      rw [Ne, ← h.pending_none, hp]
      exact some_ne_none p
    rw [Ledger.submitAll_busy hbusy]
    refine h.rebuffer (by rw [addToAll_keys, h.queue]) (by rw [mapValues_keys]; exact h.keys) ?_
    intro c' hc'
    obtain ⟨c, hc, rfl⟩ := mem_map.1 hc'
    rw [lookup_mapValues, h.elems c hc, Batch.value_add]
    rfl

/-! ## Steps and runs -/

theorem handleSync (ht : cb.Total) :
    ∃ r, handleSync cb w = some r ∧ Refines cb r.2 (if l.buffered = [] then l else l.flush) := by
  have hlen : w.state.flushElems.keys.length = l.buffered.length := by
    rw [h.keys.length_eq, h.queue, length_map]
  unfold AsyncPools.handleSync
  by_cases hb : l.buffered = []
  · rw [if_pos hb, if_pos (by rw [hlen, hb, length_nil])]
    exact ⟨_, rfl, h⟩
  · rw [if_neg hb, if_neg (by rwa [hlen, length_eq_zero_iff])]
    obtain ⟨w', hw', hr⟩ := h.runFlushFuel ht (w.state.flushQueue.length + 1)
      (by rw [h.queue, length_map]; exact Nat.lt_succ_self _)
    exact ⟨_, by rw [runFlush, hw', map_some], hr⟩

theorem consume (msg : Msg Reply) : Refines cb (consume msg w) l := by
  refine ⟨?_, ?_, ?_, ?_, ?_, ?_⟩ <;> simp only [consume_state, consume_calls]
  exacts [h.pending, h.retries, h.calls, h.queue, h.keys, h.elems]

theorem handleInfo (ht : cb.Total) (msg : Msg Reply) (hs : Succeeds cb w (.info msg)) :
    ∃ w', handleInfo cb msg w = some w' ∧ Refines cb w' (l.step (.info msg)) := by
  unfold AsyncPools.handleInfo
  cases msg with
  | unexpected =>
    split
    · exact ⟨_, rfl, h.consume .unexpected⟩
    · exact ⟨_, rfl, h.consume .unexpected⟩
  | response id response =>
    rw [Ledger.step]
    split
    · rename_i hn
      rw [h.pending_none.1 hn, if_neg (by simp)]
      exact ⟨_, rfl, h.consume _⟩
    · rename_i id' task hp
      have hpend : l.pending = some id' := by rw [← h.pending, hp, map_some]
      by_cases hid : id' = id
      · subst hid
        cases response with
        | error => exact absurd rfl (hs (id', task) hp)
        | replyError => exact absurd rfl (hs (id', task) hp)
        | reply reply =>
          have hv := hs (id', task) hp rfl
          rw [if_pos hpend, (checkResponse_next cb).2 ⟨reply, rfl, hv⟩]
          exact (h.consume _).maybeRequestNext ht
      · have hcheck : checkResponse cb (.response id response) id' task = some .ignore :=
          if_neg fun hi => hid hi.symm
        rw [hcheck, if_neg (by rw [hpend]; simpa using hid)]
        exact ⟨_, rfl, h.consume _⟩

end

end Refines

/-- **Every event is matched by the ledger**, and the worker survives it. -/
theorem step_refines {w : Worker Key Task} {l : Ledger Key Task} (h : Refines cb w l)
    (ht : cb.Total) (e : Event Key Task Reply) (hs : Succeeds cb w e) :
    ∃ w', step cb w e = some w' ∧ Refines cb w' (l.step e) := by
  cases e with
  | task k task => exact ⟨_, rfl, h.handleTask ht k task⟩
  | broadcast task => exact ⟨_, rfl, h.handleBroadcast ht task⟩
  | sync =>
    obtain ⟨r, hr, hl⟩ := h.handleSync ht
    exact ⟨r.2, by rw [step, hr, map_some], hl⟩
  | info msg => exact h.handleInfo ht msg hs
  | unexpected => exact ⟨w, rfl, h⟩

/-- The worker of a run refines the ledger of its events. -/
theorem refines_run (ht : cb.Total) {es : List (Event Key Task Reply)}
    (hg : Guarded (step cb) (Succeeds cb) {} es) {w : Worker Key Task}
    (hw : run (step cb) {} es = some w) : Refines cb w (es.foldl Ledger.step {}) := by
  refine run_simulation (fun w l e w' hl hs hw' => ?_) refines_init hg hw
  obtain ⟨w'', hw'', hr⟩ := step_refines hl ht e hs
  rwa [← some.inj (hw''.symm.trans hw')]

/-- **Order and no loss.** In every run whose requests succeed at their first attempt, the worker
does not crash, its queue has the keys of its map, each once, and a ledger shows that the tasks of
each key, issued and then waiting, are those submitted for it, in order. -/
theorem order_no_loss (ht : cb.Total) {es : List (Event Key Task Reply)}
    (hg : Guarded (step cb) (Succeeds cb) {} es) :
    ∃ w, run (step cb) {} es = some w ∧
    w.state.flushQueue.Nodup ∧ (∀ k, k ∈ w.state.flushQueue ↔ k ∈ w.state.flushElems) ∧
    ∃ l : Ledger Key Task, Refines cb w l ∧ l.WellFormed ∧ l.Accounts es := by
  obtain ⟨w, hw⟩ : ∃ w, run (step cb) {} es = some w := by
    refine run_isSome (P := fun w => ∃ l, Refines cb w l) (fun w e hw hs => ?_)
      ⟨{}, refines_init⟩ hg
    obtain ⟨l, hl⟩ := hw
    obtain ⟨w', hw', hr⟩ := step_refines hl ht e hs
    exact ⟨w', hw', l.step e, hr⟩
  have hr := refines_run ht hg hw
  exact ⟨w, hw, hr.queue_nodup, hr.mem_queue, _, hr, (Ledger.accounts_foldl es).1,
    (Ledger.accounts_foldl es).2⟩

/-- Callbacks over numbers that send every task and add tasks up. -/
def addUp : Callbacks ℕ ℕ Unit where
  requestCallback _ _ _ _ := .reqId
  aggregateCallback old new _ := some (old + new)
  verifyCallback := none
  flushExtra := ()

theorem addUp_total : addUp.Total := ⟨fun _ _ _ => rfl, fun _ _ => rfl⟩

/-- Three keys and a broadcast: key `2` waits when the broadcast comes, key `3` comes later. -/
theorem order_no_loss_three_keys : ∃ w : Worker ℕ ℕ, run (step addUp) {}
      [.task 1 1, .task 2 5, .broadcast 10, .task 3 2, .task 2 7, .info (.response 0 (.reply 9))]
        = some w ∧
    w.state.flushQueue.Nodup ∧ (∀ k, k ∈ w.state.flushQueue ↔ k ∈ w.state.flushElems) ∧
    ∃ l : Ledger ℕ ℕ, Refines addUp w l ∧ l.WellFormed ∧ l.Accounts
      ([.task 1 1, .task 2 5, .broadcast 10, .task 3 2, .task 2 7,
        .info (.response 0 (.reply 9))] : List (Event ℕ ℕ ℕ)) :=
  order_no_loss addUp_total (by decide)

end MongooseIM.AsyncPools
