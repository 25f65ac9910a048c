import MongooseIM.AsyncPools.AggregatorPending
import MongooseIM.SmartMarkers.Backends

/-! # The requests of the asynchronous backend

The tasks of a key go to one worker of the pool, `{hash_worker, Key}`. What such a worker has
requested once nothing is pending is a grouping of the tasks it was given; a request that fails is
made again at once, which changes nothing in the table. -/

namespace MongooseIM.SmartMarkers

open AsyncPools Erlang Relational Transition List

variable {J Extra : Type*} (Reply : Type*) (extra : Extra)

/-- The callbacks of `prepare_pool_opts/1`; `verify/3` takes every answer, since it only logs. -/
def callbacks : Callbacks (ChatMarker J) Reply Extra where
  requestCallback _ _ _ _ := .reqId
  aggregateCallback task newTask _ := some (aggregate task newTask)
  verifyCallback := some fun _ _ _ => .ok
  flushExtra := extra

variable {Reply}

/-- A worker of the pool. -/
abbrev MarkerWorker (J : Type*) := Worker (Key J) (ChatMarker J)

/-- What a worker is asked to do: a marker of `update_chat_marker/2`, or a message. -/
def event : ChatMarker J ⊕ Msg Reply → Event (Key J) (ChatMarker J) Reply
  | .inl marker => .task marker.key marker
  | .inr msg => .info msg

/-- The requests of a worker, repeated ones included. -/
def requests (w : MarkerWorker J) : List (ChatMarker J) := w.calls.map Call.task

/-- The requests that are no repetition. -/
def attempts (w : MarkerWorker J) : List (ChatMarker J) :=
  (w.calls.filter fun call => call.retryNumber = 0).map Call.task

/-- A request that is repeated at once changes nothing. -/
theorem request_request (lib : BareJids J) (table : Table) (marker : ChatMarker J) :
    request lib (request lib table marker) marker = request lib table marker := by
  rw [request, request, upsert, upsert]
  split_ifs
  · have hkept (stored : Option Row) : keepGreater Row.timestamp
        (keepGreater Row.timestamp stored marker.updateValues) marker.updateValues =
          keepGreater Row.timestamp stored marker.updateValues := by
      rw [keepGreater_keepGreater, keepGreater_some, if_neg (lt_irrefl _), Option.elim_some]
    simp [hkept]
  · rfl

variable [DecidableEq J]

/-- **The tasks of each key are in groups that were requested, or wait.** -/
structure Collected (w : MarkerWorker J) (tasks : List (ChatMarker J))
    (groups : Key J → List (List (ChatMarker J))) (waiting : Key J → List (ChatMarker J)) :
    Prop where
  tasks_eq : ∀ key, ofKey key tasks = (groups key).flatten ++ waiting key
  requests_eq : ∀ key, ofKey key (attempts w) = (groups key).filterMap aggregateAll
  elems : ∀ key, w.state.flushElems.lookup key = aggregateAll (waiting key)
  queue : w.state.flushElems.keys.Perm w.state.flushQueue
  /-- Repetitions have changed nothing. -/
  executed : ∀ (lib : BareJids J) table,
    (requests w).foldl (request lib) table = (attempts w).foldl (request lib) table

/-- A worker between two messages. -/
structure Ready (w : MarkerWorker J) (tasks : List (ChatMarker J))
    (groups : Key J → List (List (ChatMarker J))) (waiting : Key J → List (ChatMarker J)) : Prop
    extends Collected w tasks groups waiting where
  /-- Tasks wait only for a pending request. -/
  idle : w.state.asyncRequest = none →
    w.state.flushQueue = [] ∧ w.state.retriesLeft = w.state.totalRetries
  retries : w.state.retriesLeft ≤ w.state.totalRetries
  /-- The pending request is the last one. -/
  pending : ∀ id task, w.state.asyncRequest = some (id, task) → (requests w).getLast? = some task

/-- What the tasks so far leave of a worker. -/
def IsReady (w : MarkerWorker J) (tasks : List (ChatMarker J)) : Prop :=
  ∃ groups waiting, Ready w tasks groups waiting

theorem ready_init : Ready ({} : MarkerWorker J) [] (fun _ => []) fun _ => [] where
  tasks_eq _ := rfl
  requests_eq _ := rfl
  elems _ := rfl
  queue := List.Perm.refl _
  executed _ _ := rfl
  idle _ := ⟨rfl, rfl⟩
  retries := le_rfl
  pending id task h := by cases h

omit [DecidableEq J] in
/-- Nothing to aggregate means that nothing waits. -/
theorem aggregateAll_eq_none {markers : List (ChatMarker J)} (h : aggregateAll markers = none) :
    markers = [] := by
  rwa [aggregateAll_eq, getLast?_eq_none_iff] at h

theorem ofKey_append (key : Key J) (markers markers' : List (ChatMarker J)) :
    ofKey key (markers ++ markers') = ofKey key markers ++ ofKey key markers' :=
  filter_append ..

theorem ofKey_singleton (key : Key J) (marker : ChatMarker J) :
    ofKey key [marker] = if marker.key = key then [marker] else [] := by
  rw [ofKey, filter_singleton]
  simp

variable {w : MarkerWorker J} {tasks : List (ChatMarker J)}
  {groups : Key J → List (List (ChatMarker J))} {waiting : Key J → List (ChatMarker J)}

/-- What waits under a key is of this key. -/
theorem Collected.key_of_lookup (h : Collected w tasks groups waiting) {key : Key J}
    {task : ChatMarker J} (hlookup : w.state.flushElems.lookup key = some task) :
    task.key = key := by
  rw [h.elems, aggregateAll_eq] at hlookup
  have hmem : task ∈ ofKey key tasks := by
    rw [h.tasks_eq]
    exact mem_append_right _ (mem_of_getLast? hlookup)
  exact of_decide_eq_true (mem_filter.1 hmem).2

/-- Nothing waits for an idle worker. -/
theorem Ready.waiting_nil (h : Ready w tasks groups waiting) (hidle : w.state.asyncRequest = none)
    (key : Key J) : waiting key = [] := by
  have hkeys : w.state.flushElems.keys = [] := perm_nil.1 ((h.idle hidle).1 ▸ h.queue)
  refine aggregateAll_eq_none ?_
  rw [← h.elems, AList.lookup_eq_none, AList.mem_keys, hkeys]
  exact not_mem_nil

/-- **A group is requested**: the task it is aggregated to is sent for the first time. -/
theorem Collected.issue (h : Collected w tasks groups waiting) {w' : MarkerWorker J}
    {tasks' group : List (ChatMarker J)} {waiting' : Key J → List (ChatMarker J)}
    {task : ChatMarker J} {origin : Option (Key J)} (hgroup : aggregateAll group = some task)
    (hcalls : w'.calls = w.calls ++ [⟨origin, task, 0, .reqId⟩])
    (hsent : w'.state.asyncRequest = some (w.calls.length, task))
    (hretries : w'.state.retriesLeft = w'.state.totalRetries)
    (htasks : ∀ key, ofKey key tasks' =
    (groups key).flatten ++ (if task.key = key then group else []) ++ waiting' key)
    (helems : ∀ key, w'.state.flushElems.lookup key = aggregateAll (waiting' key))
    (hqueue : w'.state.flushElems.keys.Perm w'.state.flushQueue) : IsReady w' tasks' := by
  have hattempts : attempts w' = attempts w ++ [task] := by simp [attempts, hcalls]
  have hrequests : requests w' = requests w ++ [task] := by simp [requests, hcalls]
  refine ⟨fun key => groups key ++ if task.key = key then [group] else [], waiting', ?_⟩
  refine ⟨⟨?_, ?_, helems, hqueue, ?_⟩, ?_, hretries.le, ?_⟩
  · intro key
    rw [htasks, flatten_append]
    split_ifs
    · rw [flatten_singleton]
    · rfl
  · intro key
    rw [hattempts, ofKey_append, h.requests_eq, filterMap_append, ofKey_singleton]
    split_ifs
    · simp [hgroup]
    · rfl
  · intro lib table
    rw [hrequests, hattempts, foldl_concat, foldl_concat, h.executed]
  · intro hnone
    rw [hsent] at hnone
    cases hnone
  · intro id last hlast
    rw [hsent] at hlast
    cases hlast
    rw [hrequests, getLast?_concat]

/-- A task that waits is the last one of its group. -/
theorem Ready.wait (h : Ready w tasks groups waiting) (hbusy : w.state.asyncRequest ≠ none)
    (task : ChatMarker J) {queue : List (Key J)}
    (hqueue : (w.state.flushElems.insert task.key task).keys.Perm queue) :
    IsReady { w with
    state.flushElems := w.state.flushElems.insert task.key task
    state.flushQueue := queue } (tasks ++ [task]) := by
  refine ⟨groups, fun key => waiting key ++ if task.key = key then [task] else [], ?_⟩
  refine { h with
    tasks_eq := ?_, elems := ?_, queue := hqueue, idle := fun hn => absurd hn hbusy }
  · intro key
    rw [ofKey_append, h.tasks_eq, ofKey_singleton, append_assoc]
  · intro key
    rw [lookup_insert]
    by_cases hkey : key = task.key
    · rw [if_pos hkey, if_pos hkey.symm, aggregateAll_eq, getLast?_concat]
    · rw [if_neg hkey, if_neg (Ne.symm hkey), append_nil]
      exact h.elems key

/-- A task is sent if nothing is pending; else it waits. -/
theorem Ready.task (h : Ready w tasks groups waiting) (task : ChatMarker J) :
    IsReady (handleTask (callbacks Reply extra) task.key task w) (tasks ++ [task]) := by
  rw [handleTask]
  rcases hrequest : w.state.asyncRequest with _ | request
  · obtain ⟨_, hretries⟩ := h.idle hrequest
    have hwaiting := h.waiting_nil hrequest
    have hretry : w.retryNumber = 0 := by rw [Worker.retryNumber, hretries, Nat.sub_self]
    have hcalls : w.calls ++ [⟨some task.key, task, w.retryNumber, .reqId⟩] =
        w.calls ++ [⟨some task.key, task, 0, .reqId⟩] := by rw [hretry]
    have htasks (key : Key J) : ofKey key (tasks ++ [task]) =
        (groups key).flatten ++ (if task.key = key then [task] else []) ++ waiting key := by
      rw [ofKey_append, h.tasks_eq, ofKey_singleton, hwaiting, append_nil, append_nil]
    have hgroup : aggregateAll [task] = some task := rfl
    exact h.toCollected.issue hgroup hcalls rfl hretries htasks h.elems h.queue
  · have hbusy : w.state.asyncRequest ≠ none := by simp [hrequest]
    rcases hlookup : w.state.flushElems.lookup task.key with _ | old
    · -- the first task of its group
      have hnot : task.key ∉ w.state.flushElems.keys := by
        rw [← AList.mem_keys, ← AList.lookup_eq_none]
        exact hlookup
      refine h.wait hbusy task ?_
      rw [AList.keys_insert, erase_of_not_mem hnot]
      exact (h.queue.cons _).trans (perm_append_singleton _ _).symm
    · have hmem : task.key ∈ w.state.flushElems.keys := by
        rw [← AList.mem_keys, ← AList.lookup_isSome, hlookup]
        rfl
      refine h.wait hbusy task ?_
      rw [AList.keys_insert]
      exact (perm_cons_erase hmem).symm.trans h.queue

/-- `maybe_request_next/1` requests the group of the first key in the queue. -/
theorem Collected.next (h : Collected w tasks groups waiting) :
    ∃ w', maybeRequestNext (callbacks Reply extra) w = some w' ∧ IsReady w' tasks := by
  rw [maybeRequestNext]
  rcases hqueue : w.state.flushQueue with _ | ⟨key, newQueue⟩
  · refine ⟨_, rfl, groups, waiting, ?_⟩
    exact { h with
      queue := hqueue ▸ h.queue, idle := fun _ => ⟨rfl, rfl⟩, retries := le_rfl
      pending := fun id task hpending => by cases hpending }
  · have hmem : key ∈ w.state.flushElems.keys := by
      rw [h.queue.mem_iff, hqueue]
      exact mem_cons_self
    obtain ⟨task, hlookup⟩ : ∃ task, w.state.flushElems.lookup key = some task := by
      rwa [← Option.isSome_iff_exists, AList.lookup_isSome, AList.mem_keys]
    obtain rfl := h.key_of_lookup hlookup
    rw [maybeRequestNextLoop, take_eq_some.2 ⟨hlookup, rfl⟩]
    have hgroup : aggregateAll (waiting task.key) = some task := by rw [← h.elems, hlookup]
    have hcalls : w.calls ++
        [⟨some task.key, task, w.state.totalRetries - w.state.totalRetries, .reqId⟩] =
          w.calls ++ [⟨some task.key, task, 0, .reqId⟩] := by rw [Nat.sub_self]
    have htasks (key : Key J) : ofKey key tasks = (groups key).flatten ++
        (if task.key = key then waiting task.key else []) ++
          if key = task.key then [] else waiting key := by
      rw [h.tasks_eq]
      by_cases hkey : key = task.key
      · subst hkey
        simp
      · simp [hkey, Ne.symm hkey]
    have helems (key : Key J) : (w.state.flushElems.erase task.key).lookup key =
        aggregateAll (if key = task.key then [] else waiting key) := by
      rw [lookup_erase]
      split_ifs
      · rfl
      · exact h.elems key
    have hperm := h.queue.erase task.key
    rw [hqueue, erase_cons_head, ← AList.keys_erase] at hperm
    exact ⟨_, rfl, h.issue hgroup hcalls rfl rfl htasks helems hperm⟩

/-- `maybe_request_retry/2` repeats the last request, or goes on. -/
theorem Ready.retry (h : Ready w tasks groups waiting) {id : RequestId} {task : ChatMarker J}
    (hpending : w.state.asyncRequest = some (id, task)) :
    ∃ w', maybeRequestRetry (callbacks Reply extra) task w = some w' ∧
    IsReady w' tasks := by
  rw [maybeRequestRetry]
  split_ifs with hleft
  · exact Collected.next extra (w := { w with state.asyncRequest := none }) { h with }
  · -- the request is recorded as a repetition
    have hnumber : w.state.totalRetries - (w.state.retriesLeft - 1) ≠ 0 := by
      have hle := h.retries
      omega
    obtain ⟨before, hlast⟩ := getLast?_eq_some_iff.1 (h.pending id task hpending)
    let w' : MarkerWorker J := makeAsyncRequest (callbacks Reply extra) w.pendingOrigin
      task { w with state.asyncRequest := none, state.retriesLeft := w.state.retriesLeft - 1 }
    have hcalls : w'.calls = w.calls ++ [⟨w.pendingOrigin, task,
      w.state.totalRetries - (w.state.retriesLeft - 1), .reqId⟩] := rfl
    have hattempts : attempts w' = attempts w := by
      rw [attempts, attempts, hcalls, filter_append, filter_singleton]
      simp [hnumber]
    have hrequests : requests w' = requests w ++ [task] := by
      rw [requests, requests, hcalls, map_append, map_singleton]
    refine ⟨w', rfl, groups, waiting, ⟨h.tasks_eq, ?_, h.elems, h.queue, ?_⟩, ?_, ?_, ?_⟩
    · exact hattempts ▸ h.requests_eq
    · intro lib table
      rw [hattempts, ← h.executed, hrequests, foldl_concat, hlast, foldl_concat, request_request]
    · intro hnone
      cases hnone
    · exact (Nat.sub_le _ _).trans h.retries
    · intro id' task' hpending'
      cases hpending'
      rw [hrequests, getLast?_concat]

/-- Taking a message from the mailbox changes nothing of this. -/
theorem Ready.consume (h : Ready w tasks groups waiting) (msg : Msg Reply) :
    Ready (consume msg w) tasks groups waiting := by
  have hattempts : attempts (AsyncPools.consume msg w) = attempts w := by
    rw [attempts, consume_calls, attempts]
  have hrequests : requests (AsyncPools.consume msg w) = requests w := by
    rw [requests, consume_calls, requests]
  constructor
  · constructor
    · exact h.tasks_eq
    · exact hattempts ▸ h.requests_eq
    · rw [consume_state]
      exact h.elems
    · rw [consume_state]
      exact h.queue
    · rw [hattempts, hrequests]
      exact h.executed
  · rw [consume_state]
    exact h.idle
  · rw [consume_state]
    exact h.retries
  · rw [consume_state, hrequests]
    exact h.pending

omit [DecidableEq J] in
/-- `verify/3` returns nothing that `check_response/4` does not take. -/
theorem checkResponse_isSome (msg : Msg Reply) (id : RequestId) (task : ChatMarker J) :
    ∃ verdict, checkResponse (callbacks Reply extra) msg id task = some verdict := by
  cases msg with
  | unexpected => exact ⟨.ignore, rfl⟩
  | response id' response =>
    by_cases hid : id' = id
    · cases response with
      | error => exact ⟨.retry, if_pos hid⟩
      | replyError => exact ⟨.retry, if_pos hid⟩
      | reply reply => exact ⟨.next, if_pos hid⟩
    · exact ⟨.ignore, if_neg hid⟩

/-- A message answers the pending request, or changes nothing. -/
theorem Ready.info (h : Ready w tasks groups waiting) (msg : Msg Reply) :
    ∃ w', handleInfo (callbacks Reply extra) msg w = some w' ∧ IsReady w' tasks := by
  have hconsumed := h.consume msg
  rw [handleInfo]
  rcases hrequest : w.state.asyncRequest with _ | ⟨id, task⟩
  · exact ⟨_, rfl, groups, waiting, hconsumed⟩
  · have hpending : (AsyncPools.consume msg w).state.asyncRequest = some (id, task) := by
      rw [consume_state, hrequest]
    obtain ⟨verdict, hcheck⟩ := checkResponse_isSome extra msg id task
    simp only [hcheck]
    cases verdict with
    | ignore => exact ⟨_, rfl, groups, waiting, hconsumed⟩
    | next => exact hconsumed.next extra
    | retry => exact hconsumed.retry extra hpending

/-- **Every task and every message keeps the tasks in groups**, and the worker does not crash. -/
theorem isReady_step (h : IsReady w tasks) (e : ChatMarker J ⊕ Msg Reply) :
    ∃ w', step (callbacks Reply extra) w (event e) = some w' ∧
    IsReady w' (tasks ++ e.getLeft?.toList) := by
  obtain ⟨groups, waiting, h⟩ := h
  cases e with
  | inl task => exact ⟨_, rfl, h.task extra task⟩
  | inr msg =>
    rw [Sum.getLeft?_inr, Option.toList_none, append_nil]
    exact h.info extra msg

/-- **What an idle worker has requested is a grouping of its tasks**, and repeated requests have
changed nothing. No run crashes a worker. -/
theorem grouped_of_run (es : List (ChatMarker J ⊕ Msg Reply)) :
    ∃ w, run (step (callbacks Reply extra)) {} (es.map event) = some w ∧
    (w.state.asyncRequest = none →
      ∃ groups, Grouped (es.filterMap Sum.getLeft?) (attempts w) groups) ∧
    ∀ (lib : BareJids J) table,
      (requests w).foldl (request lib) table = (attempts w).foldl (request lib) table := by
  have hrun : ∃ w, run (step (callbacks Reply extra)) {} (es.map event) = some w ∧
      IsReady w (es.filterMap Sum.getLeft?) := by
    induction es using reverseRecOn with
    | nil => exact ⟨{}, rfl, _, _, ready_init⟩
    | append_singleton es e ih =>
      obtain ⟨w, hw, hready⟩ := ih
      obtain ⟨w', hstep, hready'⟩ := isReady_step extra hready e
      refine ⟨w', ?_, ?_⟩
      · rw [map_append, map_singleton, run_concat, hw, Option.bind_some, hstep]
      · rw [filterMap_append]
        convert hready' using 2
        cases e <;> rfl
  obtain ⟨w, hw, groups, waiting, hready⟩ := hrun
  refine ⟨w, hw, fun hidle => ⟨groups, ?_, hready.requests_eq⟩, hready.executed⟩
  intro key
  rw [hready.tasks_eq, hready.waiting_nil hidle, append_nil]

end MongooseIM.SmartMarkers
