import MongooseIM.Relational.Columns

/-! # `mod_inbox_rdbms_async`: tasks and the statements they stand for

The asynchronous inbox backend writes through an aggregating worker. A **task** is one write to one
inbox entry; two tasks on the same entry are merged by `aggregate/2` while a request is pending. -/

namespace MongooseIM.Inbox

open Relational

/-- A write to an inbox entry. A message id is `none` for `undefined`. -/
inductive Task (Entry Packet : Type*) where
  | setInbox (entry : Entry) (packet : Packet) (count : ℤ) (msgId : String) (timestamp : ℤ)
      (box : String)
  | setInboxIncrUnread (entry : Entry) (packet : Packet) (msgId : String) (timestamp : ℤ)
      (incrs : ℤ) (box : String)
  | removeInboxRow (entry : Entry)
  /-- Set the unread count to zero, always (`none`) or if the last message is the one named. -/
  | resetUnread (entry : Entry) (msgId : Option String) (timestamp : ℤ)
  deriving DecidableEq, Repr

variable {Entry Packet : Type*}

/-- The entry that a task writes to. -/
def Task.entry : Task Entry Packet → Entry
  | .setInbox entry _ _ _ _ _ => entry
  | .setInboxIncrUnread entry _ _ _ _ _ => entry
  | .removeInboxRow entry => entry
  | .resetUnread entry _ _ => entry

/-- The timestamp of a task, if it has one. -/
def Task.timestamp? : Task Entry Packet → Option ℤ
  | .setInbox _ _ _ _ ts _ => some ts
  | .setInboxIncrUnread _ _ _ ts _ _ => some ts
  | .removeInboxRow _ => none
  | .resetUnread _ _ ts => some ts

/-- `aggregate/2`, the clauses in the order of the source. -/
def aggregate :
    Task Entry Packet → Task Entry Packet → Task Entry Packet
  -- if new task is remove_row, do the previous with an updated box
  | .setInbox entry content count msgId ts _, .removeInboxRow _ =>
    .setInbox entry content count msgId ts "bin"
  | .setInboxIncrUnread entry content msgId ts incrs _, .removeInboxRow _ =>
    .setInboxIncrUnread entry content msgId ts incrs "bin"
  | _, .removeInboxRow entry => .removeInboxRow entry
  -- if the last task was remove_row, this task should now only be an insert
  | .removeInboxRow entry, .resetUnread _ _ _ => .removeInboxRow entry
  | .removeInboxRow _, .setInbox entry content count msgId ts _ =>
    .setInbox entry content count msgId ts "bin"
  | .removeInboxRow _, .setInboxIncrUnread entry content msgId ts incrs _ =>
    .setInboxIncrUnread entry content msgId ts incrs "bin"
  -- an undefined means an explicit request to reset, it has priority
  | .resetUnread _ _ _, .resetUnread entry none ts => .resetUnread entry none ts
  | .resetUnread entry none ts, .resetUnread _ _ _ => .resetUnread entry none ts
  -- both are adhoc, we prefer the newer
  | .resetUnread _ _ _, .resetUnread entry msgId ts => .resetUnread entry msgId ts
  | .resetUnread _ _ _, .setInbox entry content count msgId ts box =>
    .setInbox entry content count msgId ts box
  -- here the count becomes an absolute value instead of an increment
  | .resetUnread _ _ _, .setInboxIncrUnread entry content msgId ts incrs box =>
    .setInbox entry content incrs msgId ts box
  -- reset is an explicit reset-to-zero, so do reset the counter
  | .setInbox entry content _ msgId ts box, .resetUnread _ none _ =>
    .setInbox entry content 0 msgId ts box
  -- reset refers to that same set_inbox, or to some other one
  | .setInbox entry content count msgId ts box, .resetUnread _ (some resetId) _ =>
    if resetId = msgId then .setInbox entry content 0 msgId ts box
    else .setInbox entry content count msgId ts box
  -- the next clause of the source matches a set_inbox of eight elements; a task has seven, so a
  -- set_inbox followed by a set_inbox_incr_unread reaches the last clause
  -- we're resetting on this message, or on another
  | .setInboxIncrUnread entry content msgId ts incrs box, .resetUnread _ resetId _ =>
    if resetId = some msgId then .setInbox entry content 0 msgId ts box
    else .setInboxIncrUnread entry content msgId ts incrs box
  -- prefer newest row, but accumulate increment
  | .setInboxIncrUnread _ _ _ _ incrs₂ _, .setInboxIncrUnread entry content msgId ts incrs₁ box =>
    .setInboxIncrUnread entry content msgId ts (incrs₁ + incrs₂) box
  -- the source has one more clause here, for a set_inbox with the message id of the
  -- set_inbox_incr_unread before it, which also returns the new task
  | _, newTask => newTask

variable (entry entry' : Entry)

/-- A reset of a `set_inbox`: an explicit one, or one that names its message, empties the count. -/
theorem aggregate_setInbox_reset (packet : Packet)
    (count ts ts' : ℤ) (msgId : String) (resetId : Option String) (box : String) :
    aggregate (.setInbox entry packet count msgId ts box) (.resetUnread entry' resetId ts') =
    .setInbox entry packet (if resetId = none ∨ resetId = some msgId then 0 else count) msgId ts
      box := by
  cases resetId with
  | none => rfl
  | some resetId =>
    by_cases h : resetId = msgId <;> simp [aggregate, h]

/-- A reset of a `set_inbox_incr_unread`: only one that names its message counts. -/
theorem aggregate_incr_reset (packet : Packet)
    (incrs ts ts' : ℤ) (msgId : String) (resetId : Option String) (box : String) :
    aggregate (.setInboxIncrUnread entry packet msgId ts incrs box)
      (.resetUnread entry' resetId ts') =
    if resetId = some msgId then .setInbox entry packet 0 msgId ts box
    else .setInboxIncrUnread entry packet msgId ts incrs box := by
  cases resetId <;> rfl

/-- Of two resets the explicit one stays, otherwise the newer. -/
theorem aggregate_reset_reset (ts ts' : ℤ) (a b : Option String) :
    aggregate (.resetUnread entry a ts : Task Entry Packet) (.resetUnread entry' b ts') =
    if a = none ∧ b ≠ none then .resetUnread entry none ts else .resetUnread entry' b ts' := by
  cases a <;> cases b <;> rfl

/-- The columns of an inbox row that the statements read and write. -/
structure Row (Packet : Type*) where
  /-- `msg_id`, `none` for `NULL`. -/
  msgId : Option String
  box : String
  content : Packet
  unreadCount : ℤ
  timestamp : ℤ
  deriving DecidableEq, Repr

/-- The `CASE` expression for the box of a row that an upsert updates. -/
def boxQuery (box rowBox : String) : String :=
  if box = "bin" then "bin" else if rowBox = "archive" then "inbox" else rowBox

/-- The columns `msg_id` (`VARCHAR(250)`) and `unread_count` (`INT`) can hold the values. -/
abbrev Storable (msgId : String) (count : ℤ) : Prop := Varchar 250 msgId ∧ Int32 count

/-- `inbox_upsert` and `inbox_upsert_incr_unread`: insert the row, or update it if its timestamp is
smaller, with `unread` for its count. -/
def upsert (msgId : String) (box : String) (content : Packet) (insertCount : ℤ) (unread : ℤ → ℤ)
    (timestamp : ℤ) (row? : Option (Row Packet)) : Option (Row Packet) :=
  if Storable msgId insertCount then
    match row? with
    | none => some ⟨some msgId, box, content, insertCount, timestamp⟩
    | some row =>
      if row.timestamp < timestamp ∧ Int32 (unread row.unreadCount) then
        some ⟨some msgId, boxQuery box row.box, content, unread row.unreadCount, timestamp⟩
      else some row
  else row?

/-- What the statement of `request_one/2` for a task does to the row of the task's entry. -/
def executeRow (task : Task Entry Packet)
    (row? : Option (Row Packet)) : Option (Row Packet) :=
  match task with
  | .setInbox _ packet count msgId ts box =>
    upsert msgId box packet count (fun _ => count) ts row?
  | .setInboxIncrUnread _ packet msgId ts incrs box =>
    upsert msgId box packet incrs (fun unread => unread + incrs) ts row?
  | .resetUnread _ none ts =>
    row?.map fun row => if row.timestamp ≤ ts then { row with unreadCount := 0 } else row
  | .resetUnread _ (some msgId) ts =>
    row?.map fun row =>
      if row.msgId = some msgId ∧ row.timestamp ≤ ts then { row with unreadCount := 0 } else row
  | .removeInboxRow _ => row?.map fun row => { row with box := "bin" }

variable (entry : Entry)

/-- A reset empties the count of a row unless it names another message or is too old. -/
theorem executeRow_reset (resetId : Option String) (ts : ℤ)
    (row : Row Packet) :
    executeRow (.resetUnread entry resetId ts) (some row) =
    some (if (resetId = none ∨ resetId = row.msgId) ∧ row.timestamp ≤ ts then
      { row with unreadCount := 0 } else row) := by
  cases resetId with
  | none => simp [executeRow]
  | some msgId => simp [executeRow, eq_comm]

/-- The inbox table: one row or none for each entry. An entry that the key columns cannot hold never
has a row; no statement on it has an effect. -/
abbrev Table (Entry Packet : Type*) : Type _ := Entry → Option (Row Packet)

/-- `request_one/2` once the database has run the statement. -/
def requestOne [DecidableEq Entry] (table : Table Entry Packet)
    (task : Task Entry Packet) : Table Entry Packet :=
  Function.update table task.entry (executeRow task (table task.entry))

/-- A call of the API on one entry. -/
inductive Call (Packet : Type*) where
  | setInbox (packet : Packet) (count : ℤ) (msgId : String) (timestamp : ℤ)
  | setInboxIncrUnread (packet : Packet) (msgId : String) (timestamp : ℤ)
  | resetUnread (msgId : Option String) (timestamp : ℤ)
  | removeInboxRow
  deriving DecidableEq, Repr

/-- The task that a call submits. -/
def Call.task (entry : Entry) : Call Packet → Task Entry Packet
  | .setInbox packet count msgId ts => .setInbox entry packet count msgId ts "inbox"
  | .setInboxIncrUnread packet msgId ts => .setInboxIncrUnread entry packet msgId ts 1 "inbox"
  | .resetUnread msgId ts => .resetUnread entry msgId ts
  | .removeInboxRow => .removeInboxRow entry

/-- The timestamp of a call, if it has one. -/
def Call.timestamp? : Call Packet → Option ℤ
  | .setInbox _ _ _ ts => some ts
  | .setInboxIncrUnread _ _ ts => some ts
  | .resetUnread _ ts => some ts
  | .removeInboxRow => none

variable (c : Call Packet)

@[simp] theorem Call.task_entry : (c.task entry).entry = entry := by
  cases c <;> rfl

@[simp] theorem Call.task_timestamp? : (c.task entry).timestamp? = c.timestamp? := by
  cases c <;> rfl

/-- The tasks folded from the left with `aggregate/2` into one; `none` without tasks. -/
def aggregateAll :
    List (Task Entry Packet) → Option (Task Entry Packet)
  | [] => none
  | task :: tasks => some (tasks.foldl aggregate task)

/-- One task more: the first one as it is, the others aggregated. -/
def accumulate (task? : Option (Task Entry Packet))
    (newTask : Task Entry Packet) : Option (Task Entry Packet) :=
  match task? with
  | none => some newTask
  | some task => some (aggregate task newTask)

variable (task : Task Entry Packet)

theorem foldl_accumulate_some (tasks : List (Task Entry Packet)) :
    tasks.foldl accumulate (some task) = some (tasks.foldl aggregate task) := by
  induction tasks generalizing task with
  | nil => rfl
  | cons t ts ih => exact ih (aggregate task t)

theorem aggregateAll_eq_foldl (tasks : List (Task Entry Packet)) :
    aggregateAll tasks = tasks.foldl accumulate none := by
  cases tasks with
  | nil => rfl
  | cons t ts => exact (foldl_accumulate_some t ts).symm

/-- The row after an accumulated task, or the row as it is. -/
def executeRow? (task? : Option (Task Entry Packet))
    (row? : Option (Row Packet)) : Option (Row Packet) :=
  task?.elim row? fun task => executeRow task row?

@[simp] theorem executeRow?_some
    (row? : Option (Row Packet)) : executeRow? (some task) row? = executeRow task row? := rfl

/-- A task has one of the timestamps it is aggregated from. -/
theorem aggregate_timestamp? (a b : Task Entry Packet) {ts : ℤ}
    (h : ts ∈ (aggregate a b).timestamp?) : ts ∈ a.timestamp? ∨ ts ∈ b.timestamp? := by
  cases b with
  | resetUnread entry resetId ts' =>
    cases a with
    | setInbox => exact Or.inl (by rwa [aggregate_setInbox_reset] at h)
    | setInboxIncrUnread =>
      rw [aggregate_incr_reset] at h
      split at h <;> exact Or.inl h
    | removeInboxRow => exact Or.inl h
    | resetUnread =>
      rw [aggregate_reset_reset] at h
      split at h
      · exact Or.inl h
      · exact Or.inr h
  | removeInboxRow => cases a <;> first | exact Or.inl h | exact Or.inr h
  | setInbox => cases a <;> exact Or.inr h
  | setInboxIncrUnread => cases a <;> exact Or.inr h

end MongooseIM.Inbox
