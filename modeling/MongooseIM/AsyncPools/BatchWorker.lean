import MongooseIM.Transition.Run

/-! # `mongoose_batch_worker`

A worker collects tasks in `flush_queue` and hands them to `flush_callback`, all at once, when there
are `batch_size` of them, when the flush timer expires or when it is told to. The timer is started
for a task before `prepare` may reject it, so it can expire while the queue is empty.

The answers of the two callbacks come with each message, since they may depend on anything. The
calls of `flush_callback` are recorded in `Worker.flushed` and the tasks that went into the queue in
`Worker.accepted`. `flush_interval`, `flush_extra`, `host_type` and `pool_id` only reach the timer,
the callbacks and the logs. -/

namespace MongooseIM.AsyncPools.BatchWorker

open Transition List

variable {Key Task Reason : Type*}

/-! ## The worker -/

/-- What the options say: `batch_size`, and whether there is a `prep_callback`. -/
structure Options where
  batchSize : ℕ
  /-- Whether `prep_callback` is defined. -/
  hasPrep : Bool

/-- What the callbacks answer when they are called. -/
structure Answers (Task Reason : Type*) where
  /-- `prep_callback` -/
  prep : Except Reason Task
  /-- `flush_callback` -/
  flush : Except Reason Unit

/-- The timers of a process. -/
structure FlushTimers where
  next : ℕ := 0
  /-- The timers that were started and neither expired nor were cancelled. -/
  running : List ℕ := []
  /-- The timers that were cancelled; the message of such a timer may be under way. -/
  cancelled : List ℕ := []

/-- `#state{}` -/
structure State (Task : Type*) where
  flushIntervalTref : Option ℕ := none
  /-- `flush_queue`, the newest task first. -/
  flushQueue : List Task := []
  flushQueueLength : ℕ := 0

/-- A worker with what it did. -/
structure Worker (Task : Type*) where
  state : State Task := {}
  timers : FlushTimers := {}
  /-- The lists that `flush_callback` was called with. -/
  flushed : List (List Task) := []
  accepted : List Task := []
  stopped : Bool := false

/-- `erlang:start_timer/3` -/
def FlushTimers.start (timers : FlushTimers) : ℕ × FlushTimers :=
  (timers.next, { timers with next := timers.next + 1, running := timers.running ++ [timers.next] })

/-- `cancel_and_flush_timer/1` -/
def cancelAndFlushTimer (tref : Option ℕ) (timers : FlushTimers) : FlushTimers :=
  match tref with
  | none => timers
  | some ref =>
    { timers with running := timers.running.erase ref, cancelled := ref :: timers.cancelled }

variable (w : Worker Task)

/-- `maybe_schedule_flush/1` -/
def maybeScheduleFlush : Worker Task :=
  match w.state.flushIntervalTref, w.state.flushQueueLength with
  | none, 0 =>
    let started := w.timers.start
    { w with
      state := { w.state with flushIntervalTref := some started.1 }
      timers := started.2 }
  | _, _ => w

/-- A task goes into the queue. -/
def enqueue (task : Task) (w : Worker Task) : Worker Task :=
  { w with
    state := { w.state with
      flushQueue := task :: w.state.flushQueue
      flushQueueLength := w.state.flushQueueLength + 1 }
    accepted := w.accepted ++ [task] }

variable (opts : Options)

/-- `maybe_prep_task/2` -/
def maybePrepTask (answers : Answers Task Reason) (task : Task) (w : Worker Task) : Worker Task :=
  if opts.hasPrep then
    match answers.prep with
    | .ok processedTask => enqueue processedTask w
    | .error _ => w
  else enqueue task w

variable (answers : Answers Task Reason)

/-- `do_run_flush/1` -/
def doRunFlush (w : Worker Task) : Worker Task :=
  let w1 := { w with flushed := w.flushed ++ [w.state.flushQueue.reverse] }
  match answers.flush with
  | .ok _ => { w1 with state := { w.state with flushQueue := [], flushQueueLength := 0 } }
  -- the error is logged and the tasks are gone
  | .error _ => { w1 with state := { w.state with flushQueue := [], flushQueueLength := 0 } }

/-- `run_flush/1` -/
def runFlush (w : Worker Task) : Worker Task :=
  doRunFlush answers
    { w with
      state := { w.state with flushIntervalTref := none }
      timers := cancelAndFlushTimer w.state.flushIntervalTref w.timers }

/-- `maybe_run_flush/1` -/
def maybeRunFlush (answers : Answers Task Reason) (w : Worker Task) : Worker Task :=
  if opts.batchSize ≤ w.state.flushQueueLength then runFlush answers w else w

/-- `handle_task/2` -/
def handleTask (answers : Answers Task Reason) (task : Task) (w : Worker Task) : Worker Task :=
  maybeRunFlush opts answers (maybePrepTask opts answers task (maybeScheduleFlush w))

/-- What a worker receives. -/
inductive Message (Key Task : Type*)
  /-- The cast `{task, Task}` -/
  | task (task : Task)
  /-- The cast `{task, Key, Task}` -/
  | keyTask (key : Key) (task : Task)
  /-- The cast `{broadcast, Task}` -/
  | broadcast (task : Task)
  /-- The call `sync` -/
  | sync
  /-- `{timeout, TimerRef, flush}` -/
  | timeout (ref : ℕ)
  /-- `{garbage_collect, _, _}`, `{cancel_timer, _, _}`, or what no clause expects -/
  | other
  | terminate

/-- `handle_call/3` of `sync` -/
def handleCall (w : Worker Task) : Worker Task :=
  match w.state.flushQueue with
  | _ :: _ => runFlush answers w
  | [] => w

/-- `handle_info/2` of `{timeout, TimerRef, flush}` -/
def handleInfo (ref : ℕ) (w : Worker Task) : Worker Task :=
  if w.state.flushIntervalTref = some ref then runFlush answers w
  -- an expired timeout
  else w

/-- `terminate/2` -/
def terminate (w : Worker Task) : Worker Task :=
  match w.state.flushQueue with
  | [] => { w with stopped := true }
  | _ :: _ => { doRunFlush answers w with stopped := true }

/-- A timer expires: its message is taken out of the mailbox. -/
def FlushTimers.expire (ref : ℕ) (timers : FlushTimers) : FlushTimers :=
  { timers with running := timers.running.erase ref, cancelled := timers.cancelled.erase ref }

/-- One message with the answers of the callbacks; a timeout needs a timer. -/
def step (w : Worker Task) (e : Message Key Task × Answers Task Reason) : Option (Worker Task) :=
  if w.stopped then none
  else
    match e with
    | (.task task, answers) => some (handleTask opts answers task w)
    | (.keyTask _ task, answers) => some (handleTask opts answers task w)
    | (.broadcast task, answers) => some (handleTask opts answers task w)
    | (.sync, answers) => some (handleCall answers w)
    | (.timeout ref, answers) =>
      if ref ∈ w.timers.running ∨ ref ∈ w.timers.cancelled then
        some (handleInfo answers ref { w with timers := w.timers.expire ref })
      else none
    | (.other, _) => some w
    | (.terminate, answers) => some (terminate answers w)

/-- Whether the flush timer expires on an empty queue. -/
def firesEmpty : Message Key Task × Answers Task Reason → Bool
  | (.timeout ref, _) => w.state.flushIntervalTref = some ref && w.state.flushQueue.isEmpty
  | _ => false

/-! ## The invariant -/

variable {opts : Options} {answers : Answers Task Reason} {w w' : Worker Task}

/-- What holds of a worker at any time. -/
structure Inv (opts : Options) (w : Worker Task) : Prop where
  /-- The tasks that were handed over and those in the queue are those accepted. -/
  accounts : w.flushed.flatten ++ w.state.flushQueue.reverse = w.accepted
  length_eq : w.state.flushQueueLength = w.state.flushQueue.length
  bounded : ∀ batch ∈ w.flushed, batch.length ≤ opts.batchSize
  room : w.state.flushQueue.length < opts.batchSize
  running : ∀ ref, w.state.flushIntervalTref = some ref → ref ∈ w.timers.running
  scheduled : w.state.flushQueue ≠ [] → w.state.flushIntervalTref ≠ none

theorem Inv.init (hsize : 1 ≤ opts.batchSize) : Inv opts ({} : Worker Task) where
  accounts := rfl
  length_eq := rfl
  bounded := by simp
  room := hsize
  running := by simp
  scheduled := by simp

@[simp] theorem doRunFlush_eq : doRunFlush answers w = { w with
      flushed := w.flushed ++ [w.state.flushQueue.reverse]
      state := { w.state with flushQueue := [], flushQueueLength := 0 } } := by
  rw [doRunFlush]
  split <;> rfl

@[simp] theorem flushed_runFlush (answers : Answers Task Reason) (w : Worker Task) :
    (runFlush answers w).flushed = w.flushed ++ [w.state.flushQueue.reverse] := by
  rw [runFlush, doRunFlush_eq]

theorem accounts_doRunFlush (h : w.flushed.flatten ++ w.state.flushQueue.reverse = w.accepted) :
    (w.flushed ++ [w.state.flushQueue.reverse]).flatten ++ [] = w.accepted := by
  rw [append_nil, flatten_append, flatten_singleton, h]

/-- A batch that is handed over is not too long. -/
theorem bounded_doRunFlush (h : ∀ batch ∈ w.flushed, batch.length ≤ opts.batchSize)
    (hle : w.state.flushQueue.length ≤ opts.batchSize) :
    ∀ batch ∈ w.flushed ++ [w.state.flushQueue.reverse], batch.length ≤ opts.batchSize := by
  intro batch hbatch
  rcases mem_append.1 hbatch with hbatch | hbatch
  · exact h batch hbatch
  · rw [mem_singleton.1 hbatch, length_reverse]
    exact hle

theorem inv_runFlush (hsize : 1 ≤ opts.batchSize)
    (haccounts : w.flushed.flatten ++ w.state.flushQueue.reverse = w.accepted)
    (hbounded : ∀ batch ∈ w.flushed, batch.length ≤ opts.batchSize)
    (hle : w.state.flushQueue.length ≤ opts.batchSize) : Inv opts (runFlush answers w) := by
  rw [runFlush, doRunFlush_eq]
  exact
    { accounts := accounts_doRunFlush haccounts
      length_eq := rfl
      bounded := bounded_doRunFlush hbounded hle
      room := hsize
      -- the worker has forgotten its timer
      running := fun ref href => by cases href
      scheduled := fun hne => absurd rfl hne }

/-- After `maybe_schedule_flush/1` there is a timer. -/
theorem Inv.maybeScheduleFlush (h : Inv opts w) :
    Inv opts (maybeScheduleFlush w) ∧ (maybeScheduleFlush w).state.flushIntervalTref ≠ none ∧
    (maybeScheduleFlush w).flushed = w.flushed := by
  rw [BatchWorker.maybeScheduleFlush]
  split
  · next hnone hzero =>
    refine ⟨{ h with running := ?_, scheduled := fun _ => by simp }, by simp, rfl⟩
    intro ref href
    cases href
    exact mem_append_right _ (mem_singleton.2 rfl)
  · next hother =>
    refine ⟨h, fun hnone => ?_, rfl⟩
    -- without a timer the queue is empty, and then one is started
    have hempty : w.state.flushQueue = [] := by
      by_contra hne
      exact h.scheduled hne hnone
    have hzero : w.state.flushQueueLength = 0 := by
      rw [h.length_eq, hempty]
      rfl
    exact hother hnone hzero

/-- A task goes into a queue that has a timer, and the queue is flushed if it is full then. -/
theorem inv_enqueue (hsize : 1 ≤ opts.batchSize) (h : Inv opts w)
    (htimer : w.state.flushIntervalTref ≠ none) (task : Task) :
    Inv opts (maybeRunFlush opts answers (enqueue task w)) := by
  have haccounts : (enqueue task w).flushed.flatten ++ (enqueue task w).state.flushQueue.reverse =
      (enqueue task w).accepted := by
    show w.flushed.flatten ++ (task :: w.state.flushQueue).reverse = w.accepted ++ [task]
    rw [reverse_cons, ← append_assoc, h.accounts]
  have hle : (enqueue task w).state.flushQueue.length ≤ opts.batchSize := h.room
  have hlength : (enqueue task w).state.flushQueueLength =
      (enqueue task w).state.flushQueue.length := congrArg (· + 1) h.length_eq
  rw [maybeRunFlush]
  split
  · exact inv_runFlush hsize haccounts h.bounded hle
  · next hfull =>
    exact ⟨haccounts, hlength, h.bounded, by omega, h.running, fun _ => htimer⟩

theorem Inv.maybeRunFlush_eq (h : Inv opts w) : maybeRunFlush opts answers w = w := by
  have hroom := h.room
  rw [maybeRunFlush, if_neg]
  rw [h.length_eq]
  omega

theorem inv_handleTask (hsize : 1 ≤ opts.batchSize) (h : Inv opts w) (task : Task) :
    Inv opts (handleTask opts answers task w) := by
  obtain ⟨h1, htimer, -⟩ := h.maybeScheduleFlush
  rw [handleTask, maybePrepTask]
  split
  · split
    · exact inv_enqueue hsize h1 htimer _
    · rw [h1.maybeRunFlush_eq]
      exact h1
  · exact inv_enqueue hsize h1 htimer task

/-- **The invariant of the worker.** -/
theorem inv_step (hsize : 1 ≤ opts.batchSize) {e : Message Key Task × Answers Task Reason}
    (h : Inv opts w) (hstep : step opts w e = some w') : Inv opts w' := by
  obtain ⟨message, answers⟩ := e
  have hle : w.state.flushQueue.length ≤ opts.batchSize := Nat.le_of_lt h.room
  rw [step.eq_def] at hstep
  split at hstep
  · cases hstep
  · cases message with
    | task task =>
      cases hstep
      exact inv_handleTask hsize h task
    | keyTask key task =>
      cases hstep
      exact inv_handleTask hsize h task
    | broadcast task =>
      cases hstep
      exact inv_handleTask hsize h task
    | sync =>
      cases hstep
      rw [handleCall]
      split
      · exact inv_runFlush hsize h.accounts h.bounded hle
      · exact h
    | timeout ref =>
      simp only at hstep
      split at hstep
      · cases hstep
        rw [handleInfo]
        split
        · exact inv_runFlush hsize h.accounts h.bounded hle
        · next hstale =>
          -- the timer of the worker is another one
          refine { h with running := ?_ }
          intro ref' href'
          have hne : ref' ≠ ref := by
            rintro rfl
            exact hstale href'
          exact (mem_erase_of_ne hne).2 (h.running ref' href')
      · cases hstep
    | other =>
      cases hstep
      exact h
    | terminate =>
      cases hstep
      rw [terminate]
      split
      · exact { h with }
      · rw [doRunFlush_eq]
        exact ⟨accounts_doRunFlush h.accounts, rfl, bounded_doRunFlush h.bounded hle, hsize,
          h.running, fun hne => absurd rfl hne⟩

/-! ## Empty batches -/

/-- What a task adds to the calls of `flush_callback`: at most one, and not with an empty list. -/
theorem flushed_handleTask (h : Inv opts w) (task : Task) :
    ∃ batches, (handleTask opts answers task w).flushed = w.flushed ++ batches ∧ [] ∉ batches := by
  obtain ⟨h1, -, hflushed⟩ := h.maybeScheduleFlush
  have henqueue (task : Task) : ∃ batches,
      (maybeRunFlush opts answers (enqueue task (maybeScheduleFlush w))).flushed =
        w.flushed ++ batches ∧ [] ∉ batches := by
    rw [maybeRunFlush]
    split
    · refine ⟨[(task :: (maybeScheduleFlush w).state.flushQueue).reverse], ?_, by simp⟩
      rw [flushed_runFlush, ← hflushed]
      rfl
    · exact ⟨[], by rw [append_nil, ← hflushed]; rfl, by simp⟩
  rw [handleTask, maybePrepTask]
  split
  · split
    · exact henqueue _
    · refine ⟨[], ?_, by simp⟩
      rw [h1.maybeRunFlush_eq, hflushed, append_nil]
  · exact henqueue task

/-- **What a message adds to the calls of `flush_callback`.** An empty list is among them exactly if
the timer expires on an empty queue. -/
theorem flushed_step {e : Message Key Task × Answers Task Reason} (h : Inv opts w)
    (hstep : step opts w e = some w') :
    ∃ batches, w'.flushed = w.flushed ++ batches ∧ ([] ∈ batches ↔ firesEmpty w e = true) := by
  obtain ⟨message, answers⟩ := e
  have hnone (w₁ : Worker Task) (hw₁ : w₁.flushed = w.flushed) : ∃ batches,
      w₁.flushed = w.flushed ++ batches ∧ [] ∉ batches :=
    ⟨[], by rw [hw₁, append_nil], by simp⟩
  have hother {w₁ : Worker Task} (hw₁ : ∃ batches, w₁.flushed = w.flushed ++ batches ∧ [] ∉ batches)
      (hfires : firesEmpty w (message, answers) = false) : ∃ batches,
      w₁.flushed = w.flushed ++ batches ∧
        ([] ∈ batches ↔ firesEmpty w (message, answers) = true) := by
    obtain ⟨batches, hbatches, hempty⟩ := hw₁
    exact ⟨batches, hbatches, by simp [hempty, hfires]⟩
  rw [step.eq_def] at hstep
  split at hstep
  · cases hstep
  · cases message with
    | task task =>
      cases hstep
      exact hother (flushed_handleTask h task) rfl
    | keyTask key task =>
      cases hstep
      exact hother (flushed_handleTask h task) rfl
    | broadcast task =>
      cases hstep
      exact hother (flushed_handleTask h task) rfl
    | sync =>
      cases hstep
      refine hother ?_ rfl
      rw [handleCall]
      split
      · next task tasks hqueue =>
        exact ⟨[w.state.flushQueue.reverse], flushed_runFlush answers w, by simp [hqueue]⟩
      · exact hnone w rfl
    | timeout ref =>
      simp only at hstep
      split at hstep
      · cases hstep
        rw [handleInfo]
        split
        · next hcurrent =>
          replace hcurrent : w.state.flushIntervalTref = some ref := hcurrent
          refine ⟨[w.state.flushQueue.reverse], flushed_runFlush answers _, ?_⟩
          rw [firesEmpty, hcurrent, mem_singleton, eq_comm, reverse_eq_nil_iff]
          simp
        · next hstale =>
          replace hstale : w.state.flushIntervalTref ≠ some ref := hstale
          exact hother (hnone _ rfl) (by simp [firesEmpty, hstale])
      · cases hstep
    | other =>
      cases hstep
      exact hother (hnone w rfl) rfl
    | terminate =>
      cases hstep
      refine hother ?_ rfl
      rw [terminate]
      split
      · exact hnone _ rfl
      · next task tasks hqueue =>
        refine ⟨[w.state.flushQueue.reverse], ?_, by simp [hqueue]⟩
        rw [doRunFlush_eq]

/-! ## Sequences of messages -/

/-- What the worker owes to those who submit tasks, but for empty batches. -/
structure Delivers (opts : Options) (w : Worker Task) : Prop where
  /-- The tasks that were handed over and those in the queue are those accepted, in order. -/
  accounts : w.flushed.flatten ++ w.state.flushQueue.reverse = w.accepted
  length_eq : w.state.flushQueueLength = w.state.flushQueue.length
  bounded : ∀ batch ∈ w.flushed, batch.length ≤ opts.batchSize
  scheduled : w.state.flushQueue ≠ [] →
    ∃ ref, w.state.flushIntervalTref = some ref ∧ ref ∈ w.timers.running

/-- **The worker delivers every task once and in order**, in batches that are not too long. The
batches are nonempty exactly if the timer never expires on an empty queue. -/
theorem batchWorker_delivers (hsize : 1 ≤ opts.batchSize)
    {es : List (Message Key Task × Answers Task Reason)} (hrun : run (step opts) {} es = some w) :
    Delivers opts w ∧ ((∀ batch ∈ w.flushed, batch ≠ []) ↔
    Guarded (step opts) (fun w e => firesEmpty w e = false) {} es) := by
  have h : run (step opts) {} es = some w ∧ Inv opts w ∧ ([] ∉ w.flushed ↔
      Guarded (step opts) (fun w e => firesEmpty w e = false) {} es) := by
    refine run_induction (P := fun es w => run (step opts) {} es = some w ∧ Inv opts w ∧
      ([] ∉ w.flushed ↔ Guarded (step opts) (fun w e => firesEmpty w e = false) {} es)) ?_
      ⟨rfl, .init hsize, by simp⟩ hrun
    rintro es w e w' ⟨hrun', hinv, hempty⟩ hstep
    obtain ⟨batches, hbatches, hfires⟩ := flushed_step hinv hstep
    refine ⟨?_, inv_step hsize hinv hstep, ?_⟩
    · rw [run_concat, hrun', Option.bind_some, hstep]
    · rw [guarded_concat hrun', ← hempty, hbatches, mem_append, not_or, hfires, Bool.not_eq_true]
  obtain ⟨-, hinv, hempty⟩ := h
  refine ⟨{ hinv with scheduled := fun hne => ?_ }, ?_⟩
  · obtain ⟨ref, href⟩ := Option.ne_none_iff_exists'.1 (hinv.scheduled hne)
    exact ⟨ref, href, hinv.running ref href⟩
  · rw [← hempty]
    constructor
    · intro hne hmem
      exact hne [] hmem rfl
    · rintro hne batch hbatch rfl
      exact hne hbatch

/-- A task for a worker whose prepare callback rejects it. -/
def exampleTask (task : ℕ) : Message ℕ ℕ × Answers ℕ Unit := (.task task, ⟨.error (), .ok ()⟩)

/-- Two tasks fill a batch of two when there is no prepare callback. -/
theorem batchWorker_delivers_two :
    ∃ w : Worker ℕ, run (step ⟨2, false⟩) {} [exampleTask 1, exampleTask 2] = some w ∧
    w.flushed = [[1, 2]] ∧ Delivers ⟨2, false⟩ w := by
  obtain ⟨w, hrun, hflushed⟩ : ∃ w : Worker ℕ,
      run (step ⟨2, false⟩) {} [exampleTask 1, exampleTask 2] = some w ∧ w.flushed = [[1, 2]] :=
    ⟨_, rfl, rfl⟩
  exact ⟨w, hrun, hflushed, (batchWorker_delivers (by decide) hrun).1⟩

/-- A task is rejected while the queue is empty, and then the timer expires: `flush_callback` is
called with an empty list. -/
theorem batchWorker_empty_batch :
    ∃ w : Worker ℕ, run (step ⟨2, true⟩) {} [exampleTask 1, (.timeout 0, ⟨.error (), .ok ()⟩)] =
    some w ∧ w.accepted = [] ∧ w.flushed = [[]] :=
  ⟨_, rfl, rfl, rfl⟩

end MongooseIM.AsyncPools.BatchWorker
