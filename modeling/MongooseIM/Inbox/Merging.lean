import MongooseIM.Inbox.Task
import MongooseIM.Transition.Run

/-! # One aggregated task beside its tasks

`Merging` follows both sides at once: the row that was stored before the first call with the task
accumulated since, and the row that the tasks leave one by one. -/

namespace MongooseIM.Inbox

open Relational

variable {Entry Packet : Type*}

/-! ## What a statement leaves -/

/-- The columns that the two sides are compared on. -/
def key (row? : Option (Row Packet)) : Option (String × ℤ) :=
  row?.map fun row => (row.box, row.unreadCount)

/-- The unread count, zero for no row. -/
def unreadOf (row? : Option (Row Packet)) : ℤ := row?.elim 0 Row.unreadCount

/-- The box after an upsert into `box`. -/
def boxOn (box : String) (row? : Option (Row Packet)) : String :=
  row?.elim box fun row => boxQuery box row.box

/-- The row, if there is one, is older than the timestamp, if there is one. -/
def Fresh (row? : Option (Row Packet)) (ts? : Option ℤ) : Prop :=
  ∀ row ∈ row?, ∀ ts ∈ ts?, row.timestamp < ts

instance (row? : Option (Row Packet)) (ts? : Option ℤ) : Decidable (Fresh row? ts?) :=
  inferInstanceAs (Decidable (∀ row ∈ row?, ∀ ts ∈ ts?, row.timestamp < ts))

/-- A reset without an id, or with the id of the row's last message. -/
def Names (resetId : Option String) (row? : Option (Row Packet)) : Prop :=
  resetId = none ∨ row?.map Row.msgId = some resetId

instance (resetId : Option String) (row? : Option (Row Packet)) : Decidable (Names resetId row?) :=
  inferInstanceAs (Decidable (_ ∨ _))

variable (entry : Entry) (packet : Packet) {before? row? : Option (Row Packet)}
  {count incrs ts : ℤ} {msgId box : String} {resetId : Option String}

/-- An upsert with values that fit stores its id, with the box and the count of the expressions. -/
theorem upsert_eq {unread : ℤ → ℤ} {insertCount : ℤ} (hfresh : Fresh row? (some ts))
    (hstorable : Storable msgId insertCount)
    (hunread : ∀ row ∈ row?, Int32 (unread row.unreadCount)) :
    upsert msgId box packet insertCount unread ts row? =
    some ⟨some msgId, boxOn box row?, packet,
      row?.elim insertCount fun row => unread row.unreadCount, ts⟩ := by
  unfold upsert
  rw [if_pos hstorable]
  cases row? with
  | none => rfl
  | some row => exact if_pos ⟨hfresh row rfl ts rfl, hunread row rfl⟩

/-- A `set_inbox` that fits stores its id and its count. -/
theorem executeRow_setInbox (hfresh : Fresh row? (some ts)) (hstorable : Storable msgId count) :
    executeRow (.setInbox entry packet count msgId ts box) row? =
    some ⟨some msgId, boxOn box row?, packet, count, ts⟩ := by
  rw [executeRow, upsert_eq packet hfresh hstorable fun _ _ => hstorable.2]
  cases row? <;> rfl

/-- A `set_inbox_incr_unread` that fits stores its id and counts up. -/
theorem executeRow_incr (hfresh : Fresh row? (some ts)) (hstorable : Storable msgId incrs)
    (hcount : Int32 (unreadOf row? + incrs)) :
    executeRow (.setInboxIncrUnread entry packet msgId ts incrs box) row? =
    some ⟨some msgId, boxOn box row?, packet, unreadOf row? + incrs, ts⟩ := by
  have hunread : ∀ row ∈ row?, Int32 (row.unreadCount + incrs) := by
    rintro row rfl
    exact hcount
  rw [executeRow, upsert_eq packet hfresh hstorable hunread]
  cases row? with
  | none => simp [unreadOf]
  | some row => rfl

/-- A reset later than the row empties the count of a row that it names. -/
theorem executeRow_resetUnread (hfresh : Fresh row? (some ts)) :
    executeRow (.resetUnread entry resetId ts) row? =
    row?.map fun row => if Names resetId row? then { row with unreadCount := 0 } else row := by
  cases row? with
  | none => cases resetId <;> rfl
  | some row =>
    have hts : row.timestamp ≤ ts := Int.le_of_lt (hfresh row rfl ts rfl)
    rw [executeRow_reset]
    simp [Names, hts, eq_comm]

/-- There is a row with this box and this count. -/
theorem key_eq_some_iff {n : ℤ} : key row? = some (box, n) ↔
    ∃ row, row? = some row ∧ row.box = box ∧ row.unreadCount = n := by
  cases row? <;> simp [key]

/-- The count of a row that is there. -/
theorem unreadOf_eq_of_key {n : ℤ} (h : key row? = some (box, n)) : unreadOf row? = n := by
  obtain ⟨row, rfl, -, hn⟩ := key_eq_some_iff.1 h
  exact hn

/-- The box and the count after a `set_inbox`. -/
theorem key_setInbox (hfresh : Fresh row? (some ts)) (hstorable : Storable msgId count) :
    key (executeRow (.setInbox entry packet count msgId ts box) row?) =
    some (boxOn box row?, count) := by
  rw [executeRow_setInbox entry packet hfresh hstorable]
  rfl

/-- The box and the count after a `set_inbox_incr_unread`. -/
theorem key_incr (hfresh : Fresh row? (some ts)) (hstorable : Storable msgId incrs)
    (hcount : Int32 (unreadOf row? + incrs)) :
    key (executeRow (.setInboxIncrUnread entry packet msgId ts incrs box) row?) =
    some (boxOn box row?, unreadOf row? + incrs) := by
  rw [executeRow_incr entry packet hfresh hstorable hcount]
  rfl

/-- The box and the count after a reset. -/
theorem key_reset (hfresh : Fresh row? (some ts)) :
    key (executeRow (.resetUnread entry resetId ts) row?) =
    row?.map fun row => (row.box, if Names resetId row? then 0 else row.unreadCount) := by
  rw [executeRow_resetUnread entry hfresh]
  cases row? with
  | none => rfl
  | some row =>
    rw [Option.map_some, key, Option.map_some, Option.map_some]
    split <;> rfl

/-- The box and the count after a removal. -/
theorem key_remove : key (executeRow (.removeInboxRow entry) row?) =
    row?.map fun row => ("bin", row.unreadCount) := by
  cases row? <;> rfl

/-- The last message after a `set_inbox` is its message. -/
theorem msgId_setInbox (box : String) (hfresh : Fresh row? (some ts)) (hstorable : Storable msgId count) :
    (executeRow (.setInbox entry packet count msgId ts box) row?).map Row.msgId =
    some (some msgId) := by
  rw [executeRow_setInbox entry packet hfresh hstorable]
  rfl

/-- The last message after a `set_inbox_incr_unread` is its message. -/
theorem msgId_incr (box : String) (hfresh : Fresh row? (some ts)) (hstorable : Storable msgId incrs)
    (hcount : Int32 (unreadOf row? + incrs)) :
    (executeRow (.setInboxIncrUnread entry packet msgId ts incrs box) row?).map Row.msgId =
    some (some msgId) := by
  rw [executeRow_incr entry packet hfresh hstorable hcount]
  rfl

/-- A reset leaves the last message. -/
theorem msgId_reset (resetId : Option String) (hfresh : Fresh row? (some ts)) :
    (executeRow (.resetUnread entry resetId ts) row?).map Row.msgId = row?.map Row.msgId := by
  rw [executeRow_resetUnread entry hfresh]
  cases row? with
  | none => rfl
  | some row =>
    rw [Option.map_some, Option.map_some]
    split <;> rfl

/-- A removal leaves the last message. -/
theorem msgId_remove :
    (executeRow (.removeInboxRow entry) row?).map Row.msgId = row?.map Row.msgId := by
  cases row? <;> rfl

/-! ## The two sides -/

/-- The row before the first call, the task accumulated since, and the row after the calls. -/
structure Merging (Entry Packet : Type*) where
  before? : Option (Row Packet)
  task? : Option (Task Entry Packet)
  row? : Option (Row Packet)

/-- The count that a pending task adds. -/
def incrsOf : Option (Task Entry Packet) → ℤ
  | some (.setInboxIncrUnread _ _ _ _ incrs _) => incrs
  | _ => 0

namespace Merging

/-- Before the first call. -/
def start (row? : Option (Row Packet)) : Merging Entry Packet := ⟨row?, none, row?⟩

/-- One call more on the entry. -/
def step (s : Merging Entry Packet) (c : Call Packet) : Merging Entry Packet :=
  ⟨s.before?, accumulate s.task? (c.task entry), executeRow (c.task entry) s.row?⟩

/-- The accumulated task leaves the box and the count that its tasks leave. -/
def Agrees (s : Merging Entry Packet) : Prop := key (executeRow? s.task? s.before?) = key s.row?

/-- The call is later than both rows. -/
def InTime (s : Merging Entry Packet) (c : Call Packet) : Prop :=
  Fresh s.before? c.timestamp? ∧ Fresh s.row? c.timestamp?

/-- The columns can hold what the call brings and, for one that counts up, what it counts up to on
either side. -/
def Fits (s : Merging Entry Packet) : Call Packet → Prop
  | .setInbox _ count msgId _ => Storable msgId count
  | .setInboxIncrUnread _ msgId _ =>
    ∀ n ∈ [unreadOf s.before?, unreadOf s.row?, incrsOf s.task?], Storable msgId (n + 1)
  | _ => True

instance (s : Merging Entry Packet) : DecidablePred s.Fits
  | .setInbox _ _ _ _ => inferInstanceAs (Decidable (_ ∧ _))
  | .setInboxIncrUnread _ _ _ => inferInstanceAs (Decidable (∀ n ∈ [_, _, _], _))
  | .resetUnread _ _ => inferInstanceAs (Decidable True)
  | .removeInboxRow => inferInstanceAs (Decidable True)

/-- A row in the bin was there before the first call. -/
def BoxStays (s : Merging Entry Packet) : Prop :=
  s.row?.map Row.box = some "bin" → s.before?.map Row.box = some "bin"

/-- The calls that a pending task can take in without loss. -/
def Faithful (s : Merging Entry Packet) (c : Call Packet) : Prop :=
  match s.task?, c with
  -- the removal replaces the reset
  | some (.resetUnread _ _ _), .removeInboxRow => unreadOf s.row? = unreadOf s.before?
  -- the newer of two resets that name messages replaces the other
  | some (.resetUnread _ (some _) _), .resetUnread (some resetId) _ =>
    unreadOf s.row? = unreadOf s.before? ∨ Names (some resetId) s.before?
  -- the increment becomes an absolute count
  | some (.resetUnread _ _ _), .setInboxIncrUnread _ _ _ => unreadOf s.row? = 0
  -- the removal absorbs the reset
  | some (.removeInboxRow _), .resetUnread resetId _ => Names resetId s.row? → unreadOf s.row? = 0
  -- the message of an entry that does not exist is inserted into the bin
  | some (.removeInboxRow _), .setInbox _ _ _ _ => s.row?.isSome
  | some (.removeInboxRow _), .setInboxIncrUnread _ _ _ => s.row?.isSome
  | some (.setInbox _ _ _ _ _ _), .setInbox _ _ _ _ => s.BoxStays
  -- the absolute count is lost
  | some (.setInbox _ _ _ _ _ _), .setInboxIncrUnread _ _ _ =>
    unreadOf s.row? = unreadOf s.before? ∧ s.BoxStays
  | some (.setInboxIncrUnread _ _ _ _ _ _), .setInbox _ _ _ _ => s.BoxStays
  | some (.setInboxIncrUnread _ _ _ _ _ _), .setInboxIncrUnread _ _ _ => s.BoxStays
  -- the explicit reset is lost
  | some (.setInboxIncrUnread _ _ _ _ _ _), .resetUnread none _ => unreadOf s.row? = 0
  | _, _ => True

instance (s : Merging Entry Packet) : Decidable s.BoxStays := inferInstanceAs (Decidable (_ → _))

instance (s : Merging Entry Packet) (c : Call Packet) : Decidable (s.Faithful c) := by
  unfold Faithful
  split <;> infer_instance

/-- What ties the two sides together, by the kind of the pending task. -/
inductive Linked : Merging Entry Packet → Prop
  | start (row? : Option (Row Packet)) : Linked (start row?)
  | reset {before? row? : Option (Row Packet)} {entry : Entry} {resetId : Option String} {ts : ℤ}
      (hfresh : Fresh before? (some ts)) (hid : row?.map Row.msgId = before?.map Row.msgId) :
      Linked ⟨before?, some (.resetUnread entry resetId ts), row?⟩
  | removal {before? row? : Option (Row Packet)} {entry : Entry}
      (hid : row?.map Row.msgId = before?.map Row.msgId) :
      Linked ⟨before?, some (.removeInboxRow entry), row?⟩
  | setInbox {before? row? : Option (Row Packet)} {entry : Entry} {packet : Packet} {count ts : ℤ}
      {msgId box : String} (hfresh : Fresh before? (some ts)) (hstorable : Storable msgId count)
      (hbox : box = "inbox" ∨ box = "bin") (hid : row?.map Row.msgId = some (some msgId)) :
      Linked ⟨before?, some (.setInbox entry packet count msgId ts box), row?⟩
  | incr {before? row? : Option (Row Packet)} {entry : Entry} {packet : Packet} {incrs ts : ℤ}
      {msgId box : String} (hfresh : Fresh before? (some ts)) (hstorable : Storable msgId incrs)
      (hcount : Int32 (unreadOf before? + incrs)) (hbox : box = "inbox" ∨ box = "bin")
      (hid : row?.map Row.msgId = some (some msgId)) :
      Linked ⟨before?, some (.setInboxIncrUnread entry packet msgId ts incrs box), row?⟩

/-! ## What a call does to the agreement -/

variable {e : Entry} {s : Merging Entry Packet} {c : Call Packet}

/-- The next message finds the box that it would find without the pending one exactly if the bin was
there before. -/
theorem boxStays_iff {task? : Option (Task Entry Packet)} {row : Row Packet}
    (hbox : box = "inbox" ∨ box = "bin") (hrow : row.box = boxOn box before?) :
    BoxStays ⟨before?, task?, some row⟩ ↔ boxOn "inbox" before? = boxOn "inbox" (some row) := by
  rw [BoxStays]
  rcases hbox with rfl | rfl
  · cases before? with
    | none => simp_all [boxOn, boxQuery]
    | some b => by_cases hb : b.box = "archive" <;> simp_all [boxOn, boxQuery]
  · cases before? with
    | none => simp_all [boxOn, boxQuery]
    | some b => by_cases hb : b.box = "archive" <;> simp_all [boxOn, boxQuery]

/-- The values of an increment fit, alone and added to each of the counts. -/
theorem Fits.storable {packet : Packet} {ts' n : ℤ}
    (h : s.Fits (.setInboxIncrUnread packet msgId ts'))
    (hn : n ∈ [unreadOf s.before?, unreadOf s.row?, incrsOf s.task?]) :
    Storable msgId 1 ∧ Int32 (n + 1) :=
  have hstorable := h n hn
  ⟨⟨hstorable.1, by decide⟩, hstorable.2⟩

/-- Rows with the same id are both there or both missing. -/
theorem rows_of_msgId (hid : row?.map Row.msgId = before?.map Row.msgId) :
    (before? = none ∧ row? = none) ∨
    ∃ b r, before? = some b ∧ row? = some r ∧ r.msgId = b.msgId := by
  cases before? <;> cases row? <;> simp_all

/-- A call while a reset is pending. -/
theorem agrees_step_reset (hs : s = ⟨before?, some (.resetUnread e resetId ts), row?⟩)
    (hfresh : Fresh before? (some ts)) (hid : row?.map Row.msgId = before?.map Row.msgId)
    (hagrees : s.Agrees) (htime : s.InTime c) (hfits : s.Fits c) :
    (s.step entry c).Agrees ↔ s.Faithful c := by
  subst hs
  simp only [Agrees, executeRow?_some, key_reset _ hfresh] at hagrees
  obtain ⟨hb, hr⟩ := htime
  cases c with
  | setInbox packet count msgId ts' =>
    simp only [Agrees, step, accumulate, executeRow?_some, Call.task, Faithful, aggregate, iff_true]
    rw [key_setInbox _ _ hb hfits, key_setInbox _ _ hr hfits]
    obtain ⟨rfl, rfl⟩ | ⟨b, r, rfl, rfl, -⟩ := rows_of_msgId hid
    · rfl
    · simp_all [key, boxOn]
  | setInboxIncrUnread packet msgId ts' =>
    obtain ⟨hone, hcount⟩ := hfits.storable (n := unreadOf row?) (by simp)
    simp only [Agrees, step, accumulate, executeRow?_some, Call.task, Faithful, aggregate]
    rw [key_setInbox _ _ hb hone, key_incr _ _ hr hone hcount]
    obtain ⟨rfl, rfl⟩ | ⟨b, r, rfl, rfl, -⟩ := rows_of_msgId hid
    · simp [boxOn, unreadOf]
    · have hbox : b.box = r.box := by
        simp [key] at hagrees
        exact hagrees.1
      have hsucc : 1 = r.unreadCount + 1 ↔ r.unreadCount = 0 := by omega
      simp [boxOn, unreadOf, hbox, hsucc]
  | resetUnread newId ts' =>
    have htask : (step entry ⟨before?, some (.resetUnread e resetId ts), row?⟩
        (.resetUnread newId ts')).task? = some (if resetId = none ∧ newId ≠ none then
          .resetUnread e none ts else .resetUnread entry newId ts') :=
      congrArg some (aggregate_reset_reset e entry ts ts' resetId newId)
    have hrow : (step entry ⟨before?, some (.resetUnread e resetId ts), row?⟩
        (.resetUnread newId ts')).row? = executeRow (.resetUnread entry newId ts') row? := rfl
    rw [Agrees, htask, hrow, key_reset _ hr, executeRow?_some]
    obtain ⟨rfl, rfl⟩ | ⟨b, r, rfl, rfl, hmsgId⟩ := rows_of_msgId hid
    · split_ifs <;> cases resetId <;> cases newId <;>
        simp_all [step, key, executeRow, Faithful, unreadOf]
    · by_cases hexplicit : resetId = none ∧ newId ≠ none
      · rw [if_pos hexplicit]
        obtain ⟨rfl, hnew⟩ := hexplicit
        obtain ⟨newId, rfl⟩ := Option.ne_none_iff_exists'.1 hnew
        simp only [step]
        rw [key_reset _ hfresh]
        simp_all [key, Names, Faithful]
      · rw [if_neg hexplicit]
        simp only [step]
        rw [key_reset _ hb]
        cases resetId with
        | none => cases newId <;> simp_all [key, Names, Faithful]
        | some resetId =>
          cases newId with
          | none => simp_all [key, Names, Faithful]
          | some newId =>
            have hnames : Names (some newId) (some r) ↔ Names (some newId) (some b) := by
              simp [Names, hmsgId]
            simp only [key, Option.map_some, Option.some_inj, Prod.mk.injEq] at hagrees
            by_cases hnew : Names (some newId) (some b) <;>
              simp [hnames, hnew, hagrees.1, unreadOf, Faithful, eq_comm]
  | removeInboxRow =>
    simp only [Agrees, step, accumulate, executeRow?_some, Call.task, Faithful, aggregate]
    rw [key_remove, key_remove]
    obtain ⟨rfl, rfl⟩ | ⟨b, r, rfl, rfl, -⟩ := rows_of_msgId hid
    · simp [unreadOf]
    · simp [unreadOf, eq_comm]

/-- A call while a removal is pending. -/
theorem agrees_step_removal (hs : s = ⟨before?, some (.removeInboxRow e), row?⟩)
    (hid : row?.map Row.msgId = before?.map Row.msgId)
    (hagrees : s.Agrees) (htime : s.InTime c) (hfits : s.Fits c) :
    (s.step entry c).Agrees ↔ s.Faithful c := by
  subst hs
  simp only [Agrees, executeRow?_some, key_remove] at hagrees
  obtain ⟨hb, hr⟩ := htime
  cases c with
  | setInbox packet count msgId ts' =>
    simp only [Agrees, step, accumulate, executeRow?_some, Call.task, Faithful, aggregate]
    rw [key_setInbox _ _ hb hfits, key_setInbox _ _ hr hfits]
    obtain ⟨rfl, rfl⟩ | ⟨b, r, rfl, rfl, -⟩ := rows_of_msgId hid
    · simp [boxOn]
    · have hbox : r.box = "bin" := by simp_all [key]
      simp [boxOn, boxQuery, hbox]
  | setInboxIncrUnread packet msgId ts' =>
    obtain ⟨hone, hbefore⟩ := hfits.storable (n := unreadOf before?) (by simp)
    obtain ⟨-, hcount⟩ := hfits.storable (n := unreadOf row?) (by simp)
    simp only [Agrees, step, accumulate, executeRow?_some, Call.task, Faithful, aggregate]
    rw [key_incr _ _ hb hone hbefore, key_incr _ _ hr hone hcount]
    obtain ⟨rfl, rfl⟩ | ⟨b, r, rfl, rfl, -⟩ := rows_of_msgId hid
    · simp [boxOn]
    · have hbox : r.box = "bin" := by simp_all [key]
      simp_all [boxOn, boxQuery, key, unreadOf]
  | resetUnread newId ts' =>
    simp only [Agrees, step, accumulate, executeRow?_some, Call.task, Faithful, aggregate]
    rw [key_reset _ hr, key_remove]
    obtain ⟨rfl, rfl⟩ | ⟨b, r, rfl, rfl, -⟩ := rows_of_msgId hid
    · simp [unreadOf]
    · by_cases hnames : Names newId (some r) <;> simp_all [key, unreadOf]
  | removeInboxRow =>
    simp only [Agrees, step, accumulate, executeRow?_some, Call.task, Faithful, aggregate]
    rw [key_remove, key_remove]
    obtain ⟨rfl, rfl⟩ | ⟨b, r, rfl, rfl, -⟩ := rows_of_msgId hid
    · simp
    · simp_all [key]

/-- A call while a `set_inbox` is pending. -/
theorem agrees_step_setInbox
    (hs : s = ⟨before?, some (.setInbox e packet count msgId ts box), row?⟩)
    (hfresh : Fresh before? (some ts)) (hstorable : Storable msgId count)
    (hbox : box = "inbox" ∨ box = "bin") (hid : row?.map Row.msgId = some (some msgId))
    (hagrees : s.Agrees) (htime : s.InTime c) (hfits : s.Fits c) :
    (s.step entry c).Agrees ↔ s.Faithful c := by
  subst hs
  simp only [Agrees, executeRow?_some, key_setInbox _ _ hfresh hstorable] at hagrees
  obtain ⟨row, rfl, hrowBox, hrowCount⟩ := key_eq_some_iff.1 hagrees.symm
  obtain ⟨hb, hr⟩ := htime
  cases c with
  | setInbox packet count msgId ts' =>
    simp only [Agrees, step, accumulate, executeRow?_some, Call.task, Faithful, aggregate]
    rw [key_setInbox _ _ hb hfits, key_setInbox _ _ hr hfits, boxStays_iff hbox hrowBox]
    simp
  | setInboxIncrUnread packet msgId ts' =>
    obtain ⟨hone, hbefore⟩ := hfits.storable (n := unreadOf before?) (by simp)
    obtain ⟨-, hcount⟩ := hfits.storable (n := unreadOf (some row)) (by simp)
    simp only [Agrees, step, accumulate, executeRow?_some, Call.task, Faithful, aggregate]
    rw [key_incr _ _ hb hone hbefore, key_incr _ _ hr hone hcount, boxStays_iff hbox hrowBox]
    simp [and_comm, eq_comm]
  | resetUnread newId ts' =>
    have htask : (step entry ⟨before?, some (.setInbox e packet count msgId ts box), some row⟩
        (.resetUnread newId ts')).task? = some (.setInbox e packet
          (if newId = none ∨ newId = some msgId then 0 else count) msgId ts box) :=
      congrArg some (aggregate_setInbox_reset ..)
    rw [Agrees, htask]
    simp only [step, executeRow?_some, Call.task]
    rw [key_reset _ hr, key_setInbox _ _ hfresh]
    · simp_all [Names, Faithful, eq_comm]
    · split_ifs
      · exact ⟨hstorable.1, int32_zero⟩
      · exact hstorable
  | removeInboxRow =>
    simp only [Agrees, step, accumulate, executeRow?_some, Call.task, Faithful, aggregate]
    rw [key_remove, key_setInbox _ _ hfresh hstorable]
    cases before? <;> simp_all [boxOn, boxQuery]

/-- A call while a `set_inbox_incr_unread` is pending. -/
theorem agrees_step_incr
    (hs : s = ⟨before?, some (.setInboxIncrUnread e packet msgId ts incrs box), row?⟩)
    (hfresh : Fresh before? (some ts)) (hstorable : Storable msgId incrs)
    (hcount : Int32 (unreadOf before? + incrs)) (hbox : box = "inbox" ∨ box = "bin")
    (hid : row?.map Row.msgId = some (some msgId))
    (hagrees : s.Agrees) (htime : s.InTime c) (hfits : s.Fits c) :
    (s.step entry c).Agrees ↔ s.Faithful c := by
  subst hs
  simp only [Agrees, executeRow?_some, key_incr _ _ hfresh hstorable hcount] at hagrees
  obtain ⟨row, rfl, hrowBox, hrowCount⟩ := key_eq_some_iff.1 hagrees.symm
  obtain ⟨hb, hr⟩ := htime
  cases c with
  | setInbox packet count msgId ts' =>
    simp only [Agrees, step, accumulate, executeRow?_some, Call.task, Faithful, aggregate]
    rw [key_setInbox _ _ hb hfits, key_setInbox _ _ hr hfits, boxStays_iff hbox hrowBox]
    simp
  | setInboxIncrUnread packet msgId' ts' =>
    obtain ⟨hone, hincrs⟩ := hfits.storable (n := incrs) (by simp [incrsOf])
    obtain ⟨-, hnew⟩ := hfits.storable (n := unreadOf (some row)) (by simp)
    have hsum : unreadOf before? + (1 + incrs) = unreadOf (some row) + 1 := by
      have : unreadOf (some row) = row.unreadCount := rfl
      omega
    rw [Int.add_comm] at hincrs
    simp only [Agrees, step, accumulate, executeRow?_some, Call.task, Faithful, aggregate]
    rw [key_incr _ _ hb ⟨hone.1, hincrs⟩ (hsum ▸ hnew), key_incr _ _ hr hone hnew, hsum,
      boxStays_iff hbox hrowBox]
    simp
  | resetUnread newId ts' =>
    have htask : (step entry
        ⟨before?, some (.setInboxIncrUnread e packet msgId ts incrs box), some row⟩
        (.resetUnread newId ts')).task? = some (if newId = some msgId then
          .setInbox e packet 0 msgId ts box
        else .setInboxIncrUnread e packet msgId ts incrs box) :=
      congrArg some (aggregate_incr_reset ..)
    have hrow : (step entry
        ⟨before?, some (.setInboxIncrUnread e packet msgId ts incrs box), some row⟩
        (.resetUnread newId ts')).row? = executeRow (.resetUnread entry newId ts') (some row) := rfl
    rw [Agrees, htask, hrow, key_reset _ hr, executeRow?_some]
    by_cases hnamed : newId = some msgId
    · rw [if_pos hnamed]
      simp only [step]
      rw [key_setInbox _ _ hfresh ⟨hstorable.1, int32_zero⟩]
      simp_all [Names, Faithful]
    · rw [if_neg hnamed]
      simp only [step]
      rw [key_incr _ _ hfresh hstorable hcount]
      rw [← hrowBox, ← hrowCount]
      cases newId with
      | none => simp [Names, Faithful, unreadOf]
      | some newId =>
        have hother : ¬ Names (some newId) (some row) := by
          simp_all [Names, eq_comm]
        simp [Faithful, hother]
  | removeInboxRow =>
    simp only [Agrees, step, accumulate, executeRow?_some, Call.task, Faithful, aggregate]
    rw [key_remove, key_incr _ _ hfresh hstorable hcount]
    cases before? <;> simp_all [boxOn, boxQuery]


/-! ## Calls keep the link -/

/-- A `set_inbox` keeps the link. -/
theorem linked_step_setInbox {packet : Packet} {ts' : ℤ} (hlinked : s.Linked)
    (htime : s.InTime (.setInbox packet count msgId ts'))
    (hfits : s.Fits (.setInbox packet count msgId ts')) :
    (s.step entry (.setInbox packet count msgId ts')).Linked := by
  have hid := msgId_setInbox entry packet "inbox" htime.2 hfits
  cases hlinked with
  | removal => exact .setInbox htime.1 hfits (Or.inr rfl) hid
  | _ => exact .setInbox htime.1 hfits (Or.inl rfl) hid

/-- A `set_inbox_incr_unread` keeps the link, since the sides agree on the count. -/
theorem linked_step_incr {packet : Packet} {ts' : ℤ} (hlinked : s.Linked) (hagrees : s.Agrees)
    (htime : s.InTime (.setInboxIncrUnread packet msgId ts'))
    (hfits : s.Fits (.setInboxIncrUnread packet msgId ts')) :
    (s.step entry (.setInboxIncrUnread packet msgId ts')).Linked := by
  obtain ⟨hone, hbefore⟩ := hfits.storable (n := unreadOf s.before?) (by simp)
  obtain ⟨-, hrow⟩ := hfits.storable (n := unreadOf s.row?) (by simp)
  have hid := msgId_incr entry packet "inbox" htime.2 hone hrow
  cases hlinked with
  | reset => exact .setInbox htime.1 hone (Or.inl rfl) hid
  | removal => exact .incr htime.1 hone hbefore (Or.inr rfl) hid
  | incr hfresh hstorable hcount =>
    -- what is counted up to from the row before is what is counted up to from the other
    rw [Agrees, executeRow?_some, key_incr _ _ hfresh hstorable hcount] at hagrees
    have hsum := unreadOf_eq_of_key hagrees.symm
    obtain ⟨-, hincrs⟩ := hfits.storable (List.mem_cons_of_mem _ (List.mem_cons_of_mem _
      (List.mem_singleton_self _)))
    refine .incr htime.1 ⟨hone.1, ?_⟩ ?_ (Or.inl rfl) hid
    · rwa [Int.add_comm]
    · rw [Int.add_comm 1, ← Int.add_assoc, ← hsum]
      exact hrow
  | _ => exact .incr htime.1 hone hbefore (Or.inl rfl) hid

/-- A reset keeps the link: it is absorbed, or pending itself. -/
theorem linked_step_reset {newId : Option String} {ts' : ℤ} (hlinked : s.Linked)
    (htime : s.InTime (.resetUnread newId ts')) :
    (s.step entry (.resetUnread newId ts')).Linked := by
  have hid := msgId_reset entry newId htime.2
  cases hlinked with
  | start => exact .reset htime.1 hid
  | removal hid' => exact .removal (hid.trans hid')
  | @reset _ _ _ resetId _ hfresh hid' =>
    rw [step, accumulate]
    simp only [Call.task, aggregate_reset_reset]
    split_ifs
    · exact .reset hfresh (hid.trans hid')
    · exact .reset htime.1 (hid.trans hid')
  | setInbox hfresh hstorable hbox hid' =>
    rw [step, accumulate]
    simp only [Call.task, aggregate_setInbox_reset]
    refine .setInbox hfresh ?_ hbox (hid.trans hid')
    split_ifs
    · exact ⟨hstorable.1, int32_zero⟩
    · exact hstorable
  | incr hfresh hstorable hcount hbox hid' =>
    rw [step, accumulate]
    simp only [Call.task, aggregate_incr_reset]
    split_ifs
    · exact .setInbox hfresh ⟨hstorable.1, int32_zero⟩ hbox (hid.trans hid')
    · exact .incr hfresh hstorable hcount hbox (hid.trans hid')

/-- A removal keeps the link: a pending message goes to the bin. -/
theorem linked_step_remove (hlinked : s.Linked) : (s.step entry .removeInboxRow).Linked := by
  have hid : (executeRow (.removeInboxRow entry) s.row?).map Row.msgId = s.row?.map Row.msgId :=
    msgId_remove entry
  cases hlinked with
  | start => exact .removal hid
  | reset _ hid' => exact .removal (hid.trans hid')
  | removal hid' => exact .removal (hid.trans hid')
  | setInbox hfresh hstorable _ hid' =>
    exact .setInbox hfresh hstorable (Or.inr rfl) (hid.trans hid')
  | incr hfresh hstorable hcount _ hid' =>
    exact .incr hfresh hstorable hcount (Or.inr rfl) (hid.trans hid')

/-- **A call keeps the agreement exactly if it is faithful.** -/
theorem agrees_step_iff (hlinked : s.Linked) (hagrees : s.Agrees) (htime : s.InTime c)
    (hfits : s.Fits c) : (s.step entry c).Agrees ↔ s.Faithful c := by
  cases hlinked with
  | start row? =>
    refine iff_of_true ?_ trivial
    cases c <;> rfl
  | reset hfresh hid => exact agrees_step_reset entry rfl hfresh hid hagrees htime hfits
  | removal hid => exact agrees_step_removal entry rfl hid hagrees htime hfits
  | setInbox hfresh hstorable hbox hid =>
    exact agrees_step_setInbox entry _ rfl hfresh hstorable hbox hid hagrees htime hfits
  | incr hfresh hstorable hcount hbox hid =>
    exact agrees_step_incr entry _ rfl hfresh hstorable hcount hbox hid hagrees htime hfits

/-- Calls keep what ties the two sides together, as long as they agree. -/
theorem linked_step (hlinked : s.Linked) (hagrees : s.Agrees) (htime : s.InTime c)
    (hfits : s.Fits c) : (s.step entry c).Linked := by
  cases c with
  | setInbox => exact linked_step_setInbox entry hlinked htime hfits
  | setInboxIncrUnread => exact linked_step_incr entry hlinked hagrees htime hfits
  | resetUnread => exact linked_step_reset entry hlinked htime
  | removeInboxRow => exact linked_step_remove entry hlinked

end Merging

end MongooseIM.Inbox
