import MongooseIM.Inbox.Merging

/-! # Executing one aggregated task instead of its tasks

`requestEach` executes the tasks of a sequence one by one, `requestMerged` folds them with
`aggregate/2` and executes the one task that results. -/

namespace MongooseIM.Inbox

open List Transition

variable {Entry Packet : Type*}

/-! ## Time -/

variable (row? : Option (Row Packet))

/-- The timestamps of the calls increase, and all are later than the row's. -/
def Chronological (calls : List (Call Packet)) : Prop :=
  (calls.filterMap Call.timestamp?).Pairwise (· < ·) ∧
    ∀ ts ∈ calls.filterMap Call.timestamp?, Fresh row? (some ts)

instance Chronological.decidable (row? : Option (Row Packet)) (calls : List (Call Packet)) :
    Decidable (Chronological row? calls) :=
  inferInstanceAs (Decidable (_ ∧ ∀ ts ∈ calls.filterMap Call.timestamp?, Fresh row? (some ts)))

variable {row?} {c : Call Packet} {calls : List (Call Packet)}

theorem Chronological.fresh (h : Chronological row? (c :: calls)) : Fresh row? c.timestamp? := by
  intro row hrow ts hts
  exact h.2 ts (mem_filterMap.2 ⟨c, mem_cons_self, hts⟩) row hrow ts rfl

/-- What comes later than a row comes later than any row that is not later than its calls. -/
theorem Chronological.of_cons (h : Chronological row? (c :: calls)) : Chronological row? calls :=
  have hsub : (calls.filterMap Call.timestamp?).Sublist ((c :: calls).filterMap Call.timestamp?) :=
    (sublist_cons_self c calls).filterMap _
  ⟨h.1.sublist hsub, fun ts hts => h.2 ts (hsub.subset hts)⟩

theorem upsert_timestamp {msgId box : String} {packet : Packet} {count ts : ℤ} {unread : ℤ → ℤ}
    {row : Row Packet} (h : row ∈ upsert msgId box packet count unread ts row?) :
    row.timestamp = ts ∨ row ∈ row? := by
  unfold upsert at h
  split_ifs at h
  · cases row? with
    | none =>
      cases h
      exact Or.inl rfl
    | some old =>
      simp only at h
      split_ifs at h
      · cases h
        exact Or.inl rfl
      · exact Or.inr h
  · exact Or.inr h

/-- A statement leaves the timestamp of the row, or sets that of its task. -/
theorem executeRow_timestamp {task : Task Entry Packet} {row : Row Packet}
    (h : row ∈ executeRow task row?) :
    row.timestamp ∈ task.timestamp? ∨ ∃ old ∈ row?, old.timestamp = row.timestamp := by
  cases task with
  | setInbox =>
    rw [executeRow] at h
    obtain hts | hrow := upsert_timestamp h
    · exact Or.inl (congrArg some hts).symm
    · exact Or.inr ⟨row, hrow, rfl⟩
  | setInboxIncrUnread =>
    rw [executeRow] at h
    obtain hts | hrow := upsert_timestamp h
    · exact Or.inl (congrArg some hts).symm
    · exact Or.inr ⟨row, hrow, rfl⟩
  | removeInboxRow =>
    obtain ⟨old, hold, rfl⟩ := Option.mem_map.1 h
    exact Or.inr ⟨old, hold, rfl⟩
  | resetUnread entry resetId ts =>
    right
    cases row? with
    | none => cases resetId <;> cases h
    | some old =>
      rw [executeRow_reset] at h
      cases h
      refine ⟨old, rfl, ?_⟩
      split <;> rfl

/-- After a call, the other calls are later than the row that it leaves. -/
theorem Chronological.tail (entry : Entry) (h : Chronological row? (c :: calls)) :
    Chronological (executeRow (c.task entry) row?) calls := by
  refine ⟨h.of_cons.1, fun ts hts row hrow ts' hts' => ?_⟩
  cases hts'
  obtain hnew | ⟨old, hold, heq⟩ := executeRow_timestamp hrow
  · rw [Call.task_timestamp?] at hnew
    have hpairwise := h.1
    rw [filterMap_cons_some hnew, pairwise_cons] at hpairwise
    exact hpairwise.1 ts hts
  · rw [← heq]
    exact h.of_cons.2 ts hts old hold ts rfl

/-! ## Along the calls -/

namespace Merging

variable (entry : Entry) {s : Merging Entry Packet}

/-- The step of `Merging`, which always exists. -/
def step? (s : Merging Entry Packet) (c : Call Packet) : Option (Merging Entry Packet) :=
  some (s.step entry c)

/-- **Both sides agree along the calls** exactly if every call is one that the pending task can take
in. -/
theorem agrees_along_iff (hlinked : s.Linked) (hagrees : s.Agrees)
    (hbefore : Chronological s.before? calls) (hrow : Chronological s.row? calls)
    (hfits : Guarded (step? entry) Fits s calls) :
    Guarded (step? entry) Faithful s calls ↔
    ∀ pre, pre <+: calls → (pre.foldl (step entry) s).Agrees := by
  induction calls generalizing s with
  | nil =>
    refine iff_of_true trivial fun pre hpre => ?_
    rw [prefix_nil.1 hpre]
    exact hagrees
  | cons c cs ih =>
    have htime : s.InTime c := ⟨hbefore.fresh, hrow.fresh⟩
    rw [guarded_cons] at hfits ⊢
    have hstep := agrees_step_iff entry hlinked hagrees htime hfits.1
    have hlinked' := linked_step entry hlinked hagrees htime hfits.1
    constructor
    · rintro ⟨hc, hcs⟩ pre hpre
      rcases prefix_cons_iff.1 hpre with rfl | ⟨pre, rfl, htail⟩
      · exact hagrees
      · exact (ih hlinked' (hstep.2 hc) hbefore.of_cons (hrow.tail entry) (hfits.2 _ rfl)).1
          (hcs _ rfl) pre htail
    · intro hall
      have hagrees' : (s.step entry c).Agrees := hall [c] (prefix_append [c] cs)
      refine ⟨hstep.1 hagrees', fun s' hs' => ?_⟩
      cases hs'
      refine (ih hlinked' hagrees' hbefore.of_cons (hrow.tail entry) (hfits.2 _ rfl)).2 ?_
      intro pre hpre
      exact hall (c :: pre) ((prefix_cons_inj c).2 hpre)

/-- The row before the first call stays what it is compared with. -/
theorem foldl_before? (cs : List (Call Packet)) :
    (cs.foldl (step entry) s).before? = s.before? := by
  induction cs generalizing s with
  | nil => rfl
  | cons c cs ih => exact ih (s := s.step entry c)

theorem foldl_task? (cs : List (Call Packet)) :
    (cs.foldl (step entry) s).task? = (cs.map (Call.task entry)).foldl accumulate s.task? := by
  induction cs generalizing s with
  | nil => rfl
  | cons c cs ih => exact ih (s := s.step entry c)

end Merging

/-! ## On the table -/

variable [DecidableEq Entry]

/-- The tasks executed one by one. -/
def requestEach (table : Table Entry Packet) (tasks : List (Task Entry Packet)) :
    Table Entry Packet :=
  tasks.foldl requestOne table

/-- The tasks folded with `aggregate/2`, and the one task executed. -/
def requestMerged (table : Table Entry Packet) (tasks : List (Task Entry Packet)) :
    Table Entry Packet :=
  (aggregateAll tasks).elim table (requestOne table)

omit [DecidableEq Entry] in
/-- Tasks on one entry aggregate to a task on that entry. -/
theorem aggregate_entry {a b : Task Entry Packet} {entry : Entry} (ha : a.entry = entry)
    (hb : b.entry = entry) : (aggregate a b).entry = entry := by
  cases b with
  | resetUnread e resetId ts =>
    cases a with
    | setInbox => rw [aggregate_setInbox_reset]; exact ha
    | setInboxIncrUnread => rw [aggregate_incr_reset]; split <;> exact ha
    | removeInboxRow => exact ha
    | resetUnread => rw [aggregate_reset_reset]; split <;> first | exact ha | exact hb
  | removeInboxRow => cases a <;> first | exact ha | exact hb
  | setInbox => cases a <;> exact hb
  | setInboxIncrUnread => cases a <;> exact hb

omit [DecidableEq Entry] in
theorem foldl_aggregate_entry {task : Task Entry Packet} (entry : Entry)
    (calls : List (Call Packet)) (h : task.entry = entry) :
    ((calls.map (Call.task entry)).foldl aggregate task).entry = entry := by
  induction calls generalizing task with
  | nil => exact h
  | cons c cs ih => exact ih (aggregate_entry h (c.task_entry entry))

theorem requestOne_self (table : Table Entry Packet) {task : Task Entry Packet} {entry : Entry}
    (h : task.entry = entry) : requestOne table task entry = executeRow task (table entry) := by
  subst h
  exact Function.update_self ..

variable (table : Table Entry Packet) (entry : Entry)

/-- One by one, the row of the entry is the row of `Merging`. -/
theorem requestEach_row (task? : Option (Task Entry Packet)) (before? : Option (Row Packet))
    (calls : List (Call Packet)) :
    requestEach table (calls.map (Call.task entry)) entry =
    (calls.foldl (Merging.step entry) ⟨before?, task?, table entry⟩).row? := by
  induction calls generalizing table task? with
  | nil => rfl
  | cons c cs ih =>
    have hrow := requestOne_self table (c.task_entry entry)
    exact (ih (requestOne table (c.task entry)) _).trans (by rw [hrow]; rfl)

/-- Merged, the row of the entry is the row after the accumulated task of `Merging`. -/
theorem requestMerged_row (calls : List (Call Packet)) :
    requestMerged table (calls.map (Call.task entry)) entry =
    executeRow? (calls.foldl (Merging.step entry) (Merging.start (table entry))).task?
      (table entry) := by
  rw [Merging.foldl_task?, Merging.start, ← aggregateAll_eq_foldl, requestMerged]
  cases calls with
  | nil => rfl
  | cons c cs => exact requestOne_self table (foldl_aggregate_entry entry cs (c.task_entry entry))

/-- The two sides of `Merging` are the table after the one task and after the tasks. -/
theorem agrees_foldl_iff (calls : List (Call Packet)) :
    (calls.foldl (Merging.step entry) (Merging.start (table entry))).Agrees ↔
    key (requestMerged table (calls.map (Call.task entry)) entry) =
      key (requestEach table (calls.map (Call.task entry)) entry) := by
  rw [requestMerged_row, requestEach_row table entry none (table entry),
    Merging.Agrees, Merging.foldl_before?]
  rfl

/-- A table whose rows are in the archive, with three unread messages. -/
def archiveTable : Table ℕ ℕ := fun _ => some ⟨some "m0", "archive", 0, 3, 10⟩

/-- Two messages, a reset that names the older one, a message with a count, its reset, a removal. -/
def archiveCalls : List (Call ℕ) :=
  [.setInboxIncrUnread 1 "m1" 11, .setInboxIncrUnread 2 "m2" 12, .resetUnread (some "m1") 13,
    .setInbox 3 7 "m3" 14, .resetUnread (some "m3") 15, .removeInboxRow]

end MongooseIM.Inbox
