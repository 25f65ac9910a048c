import MongooseIM.Mam.Paging

/-! # Anchors that no message has

A page after or before a message is read with one more row, which has to be the message itself:
where it is not, no message has the id. -/

namespace MongooseIM.Mam

open Keyset

variable {C : Type*} (archive : Archive C) (filter : Filter C)

/-- The messages of a page next to an id. -/
def adjacent (messages : List (Row C)) (id : ℤ) (pageSize : ℕ) : Direction → List (Row C)
  | .aft => (messages.filter fun row => id < row.id).take pageSize
  | .before => (messages.filter fun row => row.id < id).rtake pageSize

/-- **An anchor is reported** when no message has its id, and else the page next to it is found. -/
structure AnchorReported (direction : Direction) (id : ℤ) (index : Index) (pageSize : ℕ) :
    Prop where
  unknown : (∀ row ∈ matching archive filter, row.id ≠ id) →
    lookup archive filter (some ⟨some direction, some id, index⟩) pageSize false =
      .error .itemNotFound
  known : (∃ row ∈ matching archive filter, row.id = id) →
    ∃ totalCount offset,
      lookup archive filter (some ⟨some direction, some id, index⟩) pageSize false =
        .ok ⟨totalCount, offset, adjacent (matching archive filter) id pageSize direction⟩

variable {id : ℤ} (index : Index) (pageSize : ℕ)

/-- After an unknown id the first row is another one, or there is none. -/
theorem lookup_after_unknown (hid : ∀ row ∈ matching archive filter, row.id ≠ id) :
    lookup archive filter (some ⟨some .aft, some id, index⟩) pageSize false =
    .error .itemNotFound := by
  have hmessages : extractMessages archive (fromId (some id) filter) (.int 0) (pageSize + 1) .asc =
      .ok (((matching archive (fromId (some id) filter)).drop 0).take (pageSize + 1)) :=
    extractMessages_asc archive (fromId (some id) filter) 0 (pageSize + 1)
  have hother : ∀ row ∈ matching archive (fromId (some id) filter), row.id ≠ id := by
    intro row hrow
    rw [fromId, matching_id] at hrow
    exact hid row (List.mem_filter.1 hrow).1
  show lookupMessagesRegular archive (some ⟨some .aft, some id, index⟩) pageSize filter = _
  simp only [lookupMessagesRegular, rsmToRegularLookupVars, hmessages, Except.bind, if_true,
    List.drop_zero]
  cases hrows : matching archive (fromId (some id) filter) with
  | nil => rfl
  | cons first rows =>
    have hfirst : some first.id ≠ some id :=
      fun h => hother first (by rw [hrows]; exact List.mem_cons_self) (Option.some.inj h)
    rw [List.take_succ_cons, checkForItemNotFound]
    exact if_neg hfirst

/-- Before an unknown id the last row is another one, for which there is no clause, or there is
none. -/
theorem lookup_before_unknown (hid : ∀ row ∈ matching archive filter, row.id ≠ id) :
    lookup archive filter (some ⟨some .before, some id, index⟩) pageSize false =
    .error (if ∃ row ∈ matching archive filter, row.id < id then .caseClause
      else .itemNotFound) := by
  have hother : ∀ row ∈ matching archive (toId (some id) filter), row.id ≠ id := by
    intro row hrow
    rw [toId, matching_id] at hrow
    exact hid row (List.mem_filter.1 hrow).1
  have holder : (∃ row ∈ matching archive filter, row.id < id) ↔
      matching archive (toId (some id) filter) ≠ [] := by
    rw [toId, matching_id, ne_eq, List.filter_eq_nil_iff, not_forall]
    refine exists_congr fun row => ?_
    rw [Classical.not_imp, not_not]
    refine and_congr_right fun hrow => ?_
    rw [Op.holds, decide_eq_true_eq]
    exact ⟨le_of_lt, fun hle => lt_of_le_of_ne hle (hid row hrow)⟩
  show lookupMessagesRegular archive (some ⟨some .before, some id, index⟩) pageSize filter = _
  simp only [lookupMessagesRegular, rsmToRegularLookupVars, extractMessages_desc, Except.bind,
    if_true, holder]
  rcases List.eq_nil_or_concat (matching archive (toId (some id) filter)) with
    hrows | ⟨rows, last, hrows⟩
  · rw [hrows, if_neg (not_not.2 rfl), List.rtake_nil]
    rfl
  · rw [List.concat_eq_append] at hrows
    have hlast : some last.id ≠ some id :=
      fun h => hother last (by rw [hrows]; simp) (Option.some.inj h)
    rw [if_pos (by rw [hrows]; simp), hrows, List.rtake_concat_succ, checkForItemNotFound]
    simp only [List.getLast?_concat, if_neg hlast]

/-- A known id leads to the page next to it. -/
theorem lookup_known (direction : Direction) (hid : ∃ row ∈ matching archive filter, row.id = id) :
    ∃ totalCount offset,
    lookup archive filter (some ⟨some direction, some id, index⟩) pageSize false =
      .ok ⟨totalCount, offset, adjacent (matching archive filter) id pageSize direction⟩ := by
  obtain ⟨row, hrow, rfl⟩ := hid
  obtain ⟨pre, post, hcut⟩ := List.append_of_mem hrow
  have hincreasing := increasing_matching archive filter
  refine ⟨some (matching archive filter).length, ?_⟩
  cases direction with
  | aft =>
    have hadjacent : adjacent (matching archive filter) row.id pageSize .aft =
        post.take pageSize := by
      rw [hcut] at hincreasing
      rw [adjacent, hcut, filter_gt_append_cons hincreasing]
    exact ⟨_, hadjacent ▸ lookupMessagesRegular_after archive filter index pageSize hcut⟩
  | before =>
    have hadjacent : adjacent (matching archive filter) row.id pageSize .before =
        pre.rtake pageSize := by
      rw [hcut] at hincreasing
      rw [adjacent, hcut, filter_lt_append_cons hincreasing]
    exact ⟨_, hadjacent ▸ lookupMessagesRegular_before archive filter index pageSize hcut⟩

/-- **An anchor is reported exactly when** the lookup is after it, or a message has its id, or no
message is older. -/
theorem anchor_reported_iff (direction : Direction) (id : ℤ) :
    AnchorReported archive filter direction id index pageSize ↔
    (direction = .before → (∃ row ∈ matching archive filter, row.id = id) ∨
      ∀ row ∈ matching archive filter, id < row.id) := by
  cases direction with
  | aft =>
    exact iff_of_true ⟨lookup_after_unknown archive filter index pageSize,
      lookup_known archive filter index pageSize .aft⟩ nofun
  | before =>
    constructor
    · rintro h -
      by_contra hnone
      obtain ⟨hunknown, holder⟩ := not_or.1 hnone
      have hid : ∀ row ∈ matching archive filter, row.id ≠ id :=
        fun row hrow heq => hunknown ⟨row, hrow, heq⟩
      have hlookup := lookup_before_unknown archive filter index pageSize hid
      rw [h.unknown hid, if_pos] at hlookup
      · cases hlookup
      · push Not at holder
        obtain ⟨row, hrow, hle⟩ := holder
        exact ⟨row, hrow, lt_of_le_of_ne hle (hid row hrow)⟩
    · intro h
      refine ⟨fun hid => ?_, lookup_known archive filter index pageSize .before⟩
      rcases h rfl with ⟨row, hrow, heq⟩ | hnewer
      · exact absurd heq (hid row hrow)
      · rw [lookup_before_unknown archive filter index pageSize hid, if_neg]
        rintro ⟨row, hrow, hlt⟩
        exact lt_asymm hlt (hnewer row hrow)

/-- Before an id that is newer than all messages a lookup crashes. -/
theorem anchor_unreported :
    lookup threeMessages [] (some ⟨some .before, some 4, .undefined⟩) 2 false = .error .caseClause ∧
    ¬ AnchorReported threeMessages [] .before 4 .undefined 2 := by
  refine ⟨rfl, fun h => ?_⟩
  have hlookup : Except.error Failure.caseClause = Except.error .itemNotFound := h.unknown (by decide)
  cases hlookup

end MongooseIM.Mam
