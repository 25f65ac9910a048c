import Mathlib.Data.List.Nodup
import Mathlib.Data.List.Perm.Subperm

/-! # Pages cut by an offset

A table is read page by page, each page with an offset of as many rows as have been read, while the
rows change between the reads. Here `rows` are the keys of the rows at a read, in the order of that
read, and `seen` are those of the pages before. -/

namespace MongooseIM.Offset

open List

variable {α : Type*} {rows seen : List α} {a : α} {n : ℕ}

/-- **A page repeats nothing** if the rows that its offset passes over have been seen. -/
theorem notMem_of_mem_drop (hrows : rows.Nodup) (h : rows.take seen.length ⊆ seen)
    (ha : a ∈ rows.drop seen.length) : a ∉ seen := by
  intro hseen
  have hle : seen.length ≤ rows.length := by
    by_contra hlt
    rw [drop_of_length_le (by omega)] at ha
    cases ha
  have htake : (rows.take seen.length).length = seen.length := by
    rw [length_take]
    omega
  -- as many rows are passed over as have been seen, so they are the same ones
  have hsubperm := (hrows.sublist (take_sublist _ _)).subperm h
  have hperm := hsubperm.perm_of_length_le (Nat.le_of_eq htake.symm)
  exact disjoint_take_drop hrows (Nat.le_refl _) (hperm.symm.subset hseen) ha

/-- **The rows passed over have been seen** if all that have been seen are there, in front. -/
theorem take_subset_of_pairwise (hseen : seen.Nodup) (h : seen ⊆ rows)
    (hfront : rows.Pairwise fun a b => b ∈ seen → a ∈ seen) : rows.take seen.length ⊆ seen := by
  intro a ha
  by_contra hne
  obtain ⟨xs, zs, hsplit⟩ := append_of_mem ha
  have hlt : xs.length < seen.length := by
    have := congrArg length hsplit
    rw [length_take, length_append, length_cons] at this
    omega
  have hrows : rows = xs ++ a :: (zs ++ rows.drop seen.length) := by
    conv_lhs => rw [← take_append_drop seen.length rows, hsplit]
    simp
  -- what has been seen stands before `a`, where there is too little room
  have hsub : seen ⊆ xs := by
    intro b hb
    rw [hrows, pairwise_append, pairwise_cons] at hfront
    have hmem := h hb
    rw [hrows, mem_append, mem_cons] at hmem
    rcases hmem with hmem | rfl | hmem
    · exact hmem
    · exact absurd hb hne
    · exact absurd (hfront.2.1.1 b hmem hb) hne
  have := (hseen.subperm hsub).length_le
  omega

/-- **A page that is not full is the last one.** -/
theorem mem_of_short_page {k : ℕ} (h : ((rows.drop k).take n).length < n) (ha : a ∈ rows) :
    a ∈ rows.take k ∨ a ∈ (rows.drop k).take n := by
  rw [length_take] at h
  rw [← take_append_drop k rows, mem_append] at ha
  refine ha.imp_right fun ha => ?_
  rwa [take_of_length_le (by omega)]

/-- A page in front of the rest keeps what has been seen in front. -/
theorem take_add_subset {k : ℕ} (h : rows.take k ⊆ seen) :
    rows.take (k + n) ⊆ seen ++ (rows.drop k).take n := by
  intro a ha
  rw [take_add, mem_append] at ha
  exact mem_append.2 (ha.imp_left fun ha => h ha)

end MongooseIM.Offset
