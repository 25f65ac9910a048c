import Mathlib.Data.List.Sublists

/-! # Stored keys and the lists of their owners

Keys are stored in one place, and each owner has a list of the keys that are its own. The two agree,
`Owned stored items`, when every stored key is in exactly one list, once, and nothing else is. -/

namespace MongooseIM.Relational

open List

variable {K O : Type*} {stored stored' : K → Prop} {items items' : O → List K}

/-- **The lists of the owners have what is stored.** -/
structure Owned (stored : K → Prop) (items : O → List K) : Prop where
  owner : ∀ k, stored k → ∃ o, k ∈ items o ∧ ∀ o', k ∈ items o' → o' = o
  nodup : ∀ o, (items o).Nodup
  stored : ∀ o k, k ∈ items o → stored k

section

variable (h : Owned stored items)

include h

theorem Owned.owner_eq {o o' : O} {k : K} (ho : k ∈ items o) (ho' : k ∈ items o') : o = o' := by
  obtain ⟨o₁, -, hone⟩ := h.owner k (h.stored o k ho)
  rw [hone o ho, hone o' ho']

/-- **Removal**: the same keys go from the store and from the lists. -/
theorem Owned.remove {gone : K → Prop} (hstored : ∀ k, stored' k ↔ stored k ∧ ¬ gone k)
    (hmem : ∀ o k, k ∈ items' o ↔ k ∈ items o ∧ ¬ gone k) (hnodup : ∀ o, (items' o).Nodup) :
    Owned stored' items' := by
  refine ⟨fun k hk => ?_, hnodup, fun o k hk => ?_⟩
  · obtain ⟨hk, hstays⟩ := (hstored k).1 hk
    obtain ⟨o, ho, hone⟩ := h.owner k hk
    exact ⟨o, (hmem o k).2 ⟨ho, hstays⟩, fun o' ho' => hone o' ((hmem o' k).1 ho').1⟩
  · obtain ⟨hk, hstays⟩ := (hmem o k).1 hk
    exact (hstored k).2 ⟨h.stored o k hk, hstays⟩

/-- A key that is new is put in front of a list. -/
theorem Owned.add [DecidableEq O] (o : O) {k : K} (hnew : ¬ stored k) :
    Owned (fun k' => k' = k ∨ stored k') (Function.update items o (k :: items o)) := by
  have hself : Function.update items o (k :: items o) o = k :: items o := Function.update_self _ _ _
  have hother : ∀ o' ≠ o, Function.update items o (k :: items o) o' = items o' :=
    fun o' ho' => Function.update_of_ne ho' _ _
  refine ⟨fun k' hk' => ?_, fun o' => ?_, fun o' k' hk' => ?_⟩
  · by_cases hk : k' = k
    · subst hk
      refine ⟨o, by simp, fun o' ho' => ?_⟩
      by_contra hne
      rw [hother o' hne] at ho'
      exact hnew (h.stored o' k' ho')
    · obtain ⟨o₁, ho₁, hone⟩ := h.owner k' (hk'.resolve_left hk)
      have hmem : ∀ o', k' ∈ Function.update items o (k :: items o) o' ↔ k' ∈ items o' := by
        intro o'
        by_cases ho' : o' = o
        · rw [ho', hself, mem_cons, or_iff_right hk]
        · rw [hother o' ho']
      exact ⟨o₁, (hmem o₁).2 ho₁, fun o' ho' => hone o' ((hmem o').1 ho')⟩
  · by_cases ho' : o' = o
    · rw [ho', hself, nodup_cons]
      exact ⟨fun hk => hnew (h.stored o k hk), h.nodup o⟩
    · rw [hother o' ho']
      exact h.nodup o'
  · by_cases ho' : o' = o
    · rw [ho', hself, mem_cons] at hk'
      exact hk'.imp_right (h.stored o k')
    · rw [hother o' ho'] at hk'
      exact .inr (h.stored o' k' hk')

/-- **A key is put in front of a list and others of the list are removed**: right exactly if the key
was not stored before. -/
theorem Owned.push_iff [DecidableEq K] [DecidableEq O] {o : O} {k : K}
    {gone : List K} (hk : k ∉ gone) (hgone : ∀ k' ∈ gone, k' ∈ items o)
    (hstored : ∀ k', stored' k' ↔ k' = k ∨ stored k' ∧ k' ∉ gone)
    (hself : items' o = (k :: items o).diff gone) (hother : ∀ o' ≠ o, items' o' = items o') :
    Owned stored' items' ↔ ¬ stored k := by
  constructor
  · intro h' hstored
    obtain ⟨o₁, ho₁, -⟩ := h.owner k hstored
    rw [cons_diff_of_not_mem hk] at hself
    by_cases hsame : o₁ = o
    · -- it is in the list twice
      have hnodup := h'.nodup o
      rw [hself, nodup_cons] at hnodup
      exact hnodup.1 (mem_diff_of_mem (hsame ▸ ho₁) hk)
    · -- it has two owners
      refine hsame (h'.owner_eq (k := k) ?_ ?_)
      · rw [hother o₁ hsame]
        exact ho₁
      · rw [hself]
        exact mem_cons_self
  · intro hnew
    have hadd := h.add o hnew
    have hnodup : (k :: items o).Nodup := by simpa using hadd.nodup o
    have hleft : ∀ k', stored' k' ↔ (k' = k ∨ stored k') ∧ ¬ k' ∈ gone := by
      intro k'
      rw [hstored]
      constructor
      · rintro (rfl | ⟨hk', hstays⟩)
        · exact ⟨.inl rfl, hk⟩
        · exact ⟨.inr hk', hstays⟩
      · rintro ⟨rfl | hk', hstays⟩
        · exact .inl rfl
        · exact .inr ⟨hk', hstays⟩
    refine hadd.remove hleft (fun o' k' => ?_) fun o' => ?_
    · by_cases ho' : o' = o
      · rw [ho', hself, Function.update_self, hnodup.mem_sdiff_iff]
      · rw [hother o' ho', Function.update_of_ne ho']
        exact ⟨fun hk' => ⟨hk', fun hg => ho' (h.owner_eq hk' (hgone k' hg))⟩, And.left⟩
    · by_cases ho' : o' = o
      · rw [ho', hself]
        exact hnodup.diff
      · rw [hother o' ho']
        exact h.nodup o'

/-- **Lists are dropped**: right exactly if there is nothing in them. -/
theorem Owned.drop_iff {dropped : O → Prop}
    (hitems : ∀ o, dropped o → items' o = []) (hothers : ∀ o, ¬ dropped o → items' o = items o) :
    Owned stored items' ↔ ∀ o, dropped o → items o = [] := by
  constructor
  · intro h' o ho
    by_contra hne
    obtain ⟨k, hk⟩ := exists_mem_of_ne_nil _ hne
    obtain ⟨o', ho', -⟩ := h'.owner k (h.stored o k hk)
    by_cases hdropped : dropped o'
    · rw [hitems o' hdropped] at ho'
      cases ho'
    · rw [hothers o' hdropped] at ho'
      exact hdropped (h.owner_eq ho' hk ▸ ho)
  · intro hempty
    have hsame : items' = items := by
      funext o
      by_cases ho : dropped o
      · rw [hitems o ho, hempty o ho]
      · exact hothers o ho
    rw [hsame]
    exact h

end

/-- What is cut off the end of a list is all that `--` takes from it. -/
theorem diff_drop_of_nodup [DecidableEq K] {l : List K} (h : l.Nodup) (n : ℕ) :
    l.diff (l.drop n) = l.take n := by
  rw [h.sdiff_eq_filter]
  conv_lhs => rw [← take_append_drop n l]
  rw [← take_append_drop n l, nodup_append] at h
  obtain ⟨-, -, hdisjoint⟩ := h
  rw [filter_append, filter_eq_self.2, filter_eq_nil_iff.2, append_nil]
  · intro k hk
    simpa using hk
  · intro k hk
    have hnot : k ∉ l.drop n := fun hk' => hdisjoint k hk k hk' rfl
    simpa using hnot

end MongooseIM.Relational
