import Mathlib.Data.List.Basic
import Mathlib.Data.List.Induction
import Mathlib.Order.Lattice

/-! # The first of the greatest elements of a list

Elements have keys in a linear order. A cell keeps an element until one with a greater key comes:
after a list it holds the first of those with the greatest key. -/

namespace MongooseIM.Relational

open List

variable {α κ : Type*} [LinearOrder κ] (key : α → κ) (cell : Option α)

/-- Put an element into a cell: the one it holds is replaced if its key is smaller. -/
def keepGreater (new : α) : Option α :=
  match cell with
  | none => some new
  | some old => if key old < key new then some new else some old

variable (l : List α)

/-- The first of the elements with the greatest key. -/
def firstGreatest : Option α := l.foldl (keepGreater key) none

variable {key}

theorem keepGreater_some (old new : α) :
    keepGreater key (some old) new = if key old < key new then some new else some old := rfl

/-- Putting two elements into a cell is putting the first greatest of them. -/
theorem keepGreater_keepGreater (a b : α) : keepGreater key (keepGreater key cell a) b =
    (keepGreater key (some a) b).elim cell (keepGreater key cell) := by
  rcases cell with _ | old
  · rw [keepGreater_some]
    split_ifs with hab
    · simp [keepGreater, hab]
    · simp [keepGreater, hab]
  · simp only [keepGreater_some]
    rcases lt_or_ge (key old) (key a) with hold | hold
    · rw [if_pos hold, keepGreater_some]
      split_ifs with hab
      · simp [keepGreater_some, hold.trans hab]
      · simp [keepGreater_some, hold]
    · rw [if_neg (not_lt.2 hold), keepGreater_some]
      by_cases hab : key a < key b
      · rw [if_pos hab]
        rfl
      · have hb : ¬ key old < key b := not_lt.2 ((not_lt.1 hab).trans hold)
        simp [keepGreater_some, hab, hb, not_lt.2 hold]

/-- **A list is put into a cell as its first greatest element is.** -/
theorem foldl_keepGreater :
    l.foldl (keepGreater key) cell = (firstGreatest key l).elim cell (keepGreater key cell) := by
  induction l using reverseRecOn with
  | nil => rfl
  | append_singleton l a ih =>
    rw [firstGreatest, foldl_concat, foldl_concat, ih, ← firstGreatest]
    rcases firstGreatest key l with _ | b
    · rfl
    · exact keepGreater_keepGreater cell b a

theorem firstGreatest_concat (a : α) :
    firstGreatest key (l ++ [a]) = keepGreater key (firstGreatest key l) a := by
  rw [firstGreatest, foldl_concat, firstGreatest]

variable {l : List α}

theorem firstGreatest_eq_none_iff : firstGreatest key l = none ↔ l = [] := by
  constructor
  · intro h
    rcases eq_nil_or_concat l with rfl | ⟨l', a, rfl⟩
    · rfl
    · rw [concat_eq_append, firstGreatest_concat] at h
      rcases hl : firstGreatest key l' with _ | b
      · rw [hl] at h
        cases h
      · rw [hl, keepGreater_some] at h
        split_ifs at h
  · rintro rfl
    rfl

theorem firstGreatest_map {β : Type*} (f : β → α) (l : List β) :
    firstGreatest key (l.map f) = (firstGreatest (fun b => key (f b)) l).map f := by
  induction l using reverseRecOn with
  | nil => rfl
  | append_singleton l b ih =>
    rw [map_append, map_singleton, firstGreatest_concat, firstGreatest_concat, ih]
    rcases firstGreatest (fun b => key (f b)) l with _ | c
    · rfl
    · rw [Option.map_some, keepGreater_some, keepGreater_some]
      split_ifs
      · rfl
      · rfl

variable {a : α}

theorem foldl_keepGreater_of_le {l : List α} (h : ∀ b ∈ l, key b ≤ key a) :
    l.foldl (keepGreater key) (some a) = some a := by
  induction l with
  | nil => rfl
  | cons b l ih =>
    rw [forall_mem_cons] at h
    rw [foldl_cons, keepGreater_some, if_neg (not_lt.2 h.1), ih h.2]

/-- Those before the first greatest element have smaller keys, those after it none that is
greater. -/
theorem split_of_firstGreatest (h : firstGreatest key l = some a) :
    ∃ before after, l = before ++ a :: after ∧ (∀ b ∈ before, key b < key a) ∧
    ∀ b ∈ after, key b ≤ key a := by
  induction l using reverseRecOn generalizing a with
  | nil => cases h
  | append_singleton l c ih =>
    rw [firstGreatest_concat] at h
    rcases hl : firstGreatest key l with _ | b
    · -- nothing was put into the cell
      rw [hl] at h
      cases h
      obtain rfl := firstGreatest_eq_none_iff.1 hl
      exact ⟨[], [], rfl, by simp, by simp⟩
    · obtain ⟨before, after, rfl, hbefore, hafter⟩ := ih hl
      rw [hl, keepGreater_some] at h
      split_ifs at h with hlt
      · cases h
        refine ⟨before ++ b :: after, [], rfl, ?_, by simp⟩
        intro d hd
        rw [mem_append, mem_cons] at hd
        rcases hd with hd | rfl | hd
        · exact (hbefore d hd).trans hlt
        · exact hlt
        · exact (hafter d hd).trans_lt hlt
      · cases h
        refine ⟨before, after ++ [c], by simp, hbefore, ?_⟩
        intro d hd
        rw [mem_append, mem_singleton] at hd
        rcases hd with hd | rfl
        · exact hafter d hd
        · exact not_lt.1 hlt

theorem mem_of_firstGreatest (h : firstGreatest key l = some a) : a ∈ l := by
  obtain ⟨before, after, rfl, _, _⟩ := split_of_firstGreatest h
  simp

/-- No key is greater than that of the first greatest element. -/
theorem key_le_of_firstGreatest {a b : α} (h : firstGreatest key l = some a)
    (hb : b ∈ l) : key b ≤ key a := by
  obtain ⟨before, after, rfl, hbefore, hafter⟩ := split_of_firstGreatest h
  rw [mem_append, mem_cons] at hb
  rcases hb with hb | rfl | hb
  · exact (hbefore b hb).le
  · exact le_rfl
  · exact hafter b hb

/-- **The first greatest element.** -/
theorem firstGreatest_eq_some_iff :
    firstGreatest key l = some a ↔ ∃ before after, l = before ++ a :: after ∧
    (∀ b ∈ before, key b < key a) ∧ ∀ b ∈ after, key b ≤ key a := by
  refine ⟨split_of_firstGreatest, ?_⟩
  rintro ⟨before, after, rfl, hbefore, hafter⟩
  have hput : keepGreater key (firstGreatest key before) a = some a := by
    rcases hcell : firstGreatest key before with _ | b
    · rfl
    · obtain ⟨_, _, rfl, _, _⟩ := split_of_firstGreatest hcell
      rw [keepGreater_some, if_pos (hbefore b (by simp))]
  rw [firstGreatest, foldl_append, foldl_cons, ← firstGreatest, hput,
    foldl_keepGreater_of_le hafter]

/-- Elements that are left out beside the first greatest one do not count. -/
theorem firstGreatest_filter {p : α → Bool} (h : firstGreatest key l = some a) (ha : p a) :
    firstGreatest key (l.filter p) = some a := by
  obtain ⟨before, after, rfl, hbefore, hafter⟩ := split_of_firstGreatest h
  rw [filter_append, filter_cons_of_pos ha, firstGreatest_eq_some_iff]
  exact ⟨_, _, rfl, fun b hb => hbefore b (mem_of_mem_filter hb),
    fun b hb => hafter b (mem_of_mem_filter hb)⟩

end MongooseIM.Relational
