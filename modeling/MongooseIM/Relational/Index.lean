import MongooseIM.Erlang.Maps

/-! # Indexes of a map

A map from keys to values may be read by a part `f` of its values with the help of a second map,
which holds for each `i` the list of the keys whose value has `f v = i`. -/

namespace MongooseIM.Index

open Erlang List

variable {κ ν ι : Type*} [DecidableEq κ] [DecidableEq ι]

/-- The keys that the index holds for `i`. -/
def keysOf (ix : AList fun _ : ι => List κ) (i : ι) : List κ := (ix.lookup i).getD []

/-- `ix` is the index of `m` by `f`. -/
structure IsIndex (f : ν → ι) (m : AList fun _ : κ => ν) (ix : AList fun _ : ι => List κ) :
    Prop where
  mem : ∀ i k, k ∈ keysOf ix i ↔ ∃ v, m.lookup k = some v ∧ f v = i
  nodup : ∀ i, (keysOf ix i).Nodup
  nonempty : ∀ i, ix.lookup i ≠ some []

variable {f : ν → ι} {m m' : AList fun _ : κ => ν} {ix : AList fun _ : ι => List κ}

omit [DecidableEq κ] in
theorem keysOf_insert (i i' : ι) (ks : List κ) :
    keysOf (ix.insert i ks) i' = if i' = i then ks else keysOf ix i' := by
  rw [keysOf, lookup_insert]
  split <;> rfl

omit [DecidableEq κ] in
theorem keysOf_erase (i i' : ι) : keysOf (ix.erase i) i' = if i' = i then [] else keysOf ix i' := by
  rw [keysOf, lookup_erase]
  split <;> rfl

omit [DecidableEq κ] in
theorem keysOf_of_lookup {i : ι} {ks : List κ} (h : ix.lookup i = some ks) : keysOf ix i = ks := by
  rw [keysOf, h]
  rfl

theorem isIndex_empty : IsIndex f (∅ : AList fun _ : κ => ν) ∅ where
  mem i k := by simp [keysOf]
  nodup i := by simp [keysOf]
  nonempty i := by simp

namespace IsIndex

section

variable (h : IsIndex f m ix)

include h

variable {k : κ} {v : ν}

theorem exists_keys (hk : m.lookup k = some v) : ∃ ks, ix.lookup (f v) = some ks ∧ k ∈ ks := by
  have hmem : k ∈ keysOf ix (f v) := (h.mem (f v) k).2 ⟨v, hk, rfl⟩
  cases hix : ix.lookup (f v) with
  | none =>
    rw [keysOf, hix] at hmem
    cases hmem
  | some ks =>
    rw [keysOf_of_lookup hix] at hmem
    exact ⟨ks, rfl, hmem⟩

theorem exists_value {i : ι} {ks : List κ} (hix : ix.lookup i = some ks)
    {k : κ} (hk : k ∈ ks) : ∃ v, m.lookup k = some v ∧ f v = i :=
  (h.mem i k).1 (by rwa [keysOf_of_lookup hix])

/-- A new key goes to the end of its list. -/
theorem insert (v : ν) (hk : m.lookup k = none) :
    IsIndex f (m.insert k v) (ix.insert (f v) (keysOf ix (f v) ++ [k])) := by
  constructor
  · intro i k'
    rw [keysOf_insert, lookup_insert]
    by_cases hk' : k' = k
    · subst hk'
      rw [if_pos rfl]
      by_cases hi : i = f v
      · rw [if_pos hi]
        simp [hi]
      · rw [if_neg hi, h.mem, hk]
        simp [Ne.symm hi]
    · rw [if_neg hk', ← h.mem i k']
      split
      · rename_i hi
        rw [hi]
        simp [hk']
      · rfl
  · intro i
    rw [keysOf_insert]
    split
    · refine nodup_append.2 ⟨h.nodup (f v), nodup_singleton k, ?_⟩
      rintro a ha b hb rfl
      obtain rfl := mem_singleton.1 hb
      obtain ⟨v', hv', -⟩ := (h.mem (f v) a).1 ha
      rw [hk] at hv'
      cases hv'
    · exact h.nodup i
  · intro i
    rw [lookup_insert]
    split
    · simp
    · exact h.nonempty i

theorem mem_erase (k : κ) (i : ι) (k' : κ) :
    (∃ v', (m.erase k).lookup k' = some v' ∧ f v' = i) ↔ k' ∈ keysOf ix i ∧ k' ≠ k := by
  rw [h.mem, lookup_erase]
  by_cases hk' : k' = k
  · simp [hk']
  · simp [hk']

theorem eraseOnly (hk : m.lookup k = some v)
    (hix : ix.lookup (f v) = some [k]) : IsIndex f (m.erase k) (ix.erase (f v)) := by
  constructor
  · intro i k'
    rw [h.mem_erase k, keysOf_erase]
    split
    · rename_i hi
      rw [hi, keysOf_of_lookup hix]
      simp
    · rename_i hi
      refine (and_iff_left_of_imp ?_).symm
      rintro hmem rfl
      obtain ⟨v', hv', hfv'⟩ := (h.mem i k').1 hmem
      rw [hk, Option.some.injEq] at hv'
      exact hi (by rw [← hfv', hv'])
  · intro i
    rw [keysOf_erase]
    split
    · exact nodup_nil
    · exact h.nodup i
  · intro i
    rw [lookup_erase]
    split
    · simp
    · exact h.nonempty i

/-- A key goes that is not alone on its list. -/
theorem erase (hk : m.lookup k = some v) {ks : List κ}
    (hix : ix.lookup (f v) = some ks) (hks : ks ≠ [k]) :
    IsIndex f (m.erase k) (ix.insert (f v) (ks.filter (· ≠ k))) := by
  have hnodup : ks.Nodup := by
    have := h.nodup (f v)
    rwa [keysOf_of_lookup hix] at this
  constructor
  · intro i k'
    rw [h.mem_erase k, keysOf_insert]
    split
    · rename_i hi
      rw [hi, keysOf_of_lookup hix, mem_filter]
      simp
    · rename_i hi
      refine (and_iff_left_of_imp ?_).symm
      rintro hmem rfl
      obtain ⟨v', hv', hfv'⟩ := (h.mem i k').1 hmem
      rw [hk, Option.some.injEq] at hv'
      exact hi (by rw [← hfv', hv'])
  · intro i
    rw [keysOf_insert]
    split
    · exact hnodup.filter _
    · exact h.nodup i
  · intro i
    rw [lookup_insert]
    split
    · rw [ne_eq, Option.some.injEq, filter_eq_nil_iff]
      intro hall
      have honly : ∀ k' ∈ ks, k' = k := by simpa using hall
      obtain ⟨ks', hks', hmem⟩ := h.exists_keys hk
      cases (hix.symm.trans hks')
      -- a list without repetitions that holds nothing but `k` is `[k]`
      cases ks with
      | nil => cases hmem
      | cons first rest =>
        obtain ⟨hfirst, -⟩ := nodup_cons.1 hnodup
        have hrest : rest = [] := by
          rw [eq_nil_iff_forall_not_mem]
          intro k' hk'
          rw [honly first mem_cons_self] at hfirst
          rw [honly k' (mem_cons_of_mem first hk')] at hk'
          exact hfirst hk'
        exact hks (by rw [honly first mem_cons_self, hrest])
    · exact h.nonempty i

/-- Values change, and what the index reads of them does not. -/
theorem update (hm : ∀ k, (m'.lookup k).map f = (m.lookup k).map f) : IsIndex f m' ix where
  mem i k := by
    rw [h.mem]
    have := hm k
    constructor
    · rintro ⟨v, hv, rfl⟩
      rw [hv, Option.map_some, Option.map_eq_some_iff] at this
      exact this
    · rintro ⟨v, hv, rfl⟩
      rw [hv, Option.map_some, eq_comm, Option.map_eq_some_iff] at this
      exact this
  nodup := h.nodup
  nonempty := h.nonempty

/-- The only key on a list goes to a free one. -/
theorem move (v' : ν) (hk : m.lookup k = some v)
    (hix : ix.lookup (f v) = some [k]) (hfree : ix.lookup (f v') = none) :
    IsIndex f (m.insert k v') ((ix.insert (f v') [k]).erase (f v)) := by
  have hne : f v' ≠ f v := by
    intro heq
    rw [heq, hix] at hfree
    cases hfree
  have hmoved : ∀ i, keysOf ((ix.insert (f v') [k]).erase (f v)) i =
      if i = f v then [] else if i = f v' then [k] else keysOf ix i := by
    intro i
    rw [keysOf_erase, keysOf_insert]
  constructor
  · intro i k'
    rw [hmoved, lookup_insert]
    by_cases hk' : k' = k
    · subst hk'
      rw [if_pos rfl]
      by_cases hi : i = f v
      · rw [if_pos hi]
        simp [hi, hne]
      · rw [if_neg hi]
        by_cases hi' : i = f v'
        · simp [hi']
        · rw [if_neg hi', h.mem, hk]
          simp [Ne.symm hi, Ne.symm hi']
    · rw [if_neg hk', ← h.mem i k']
      by_cases hi : i = f v
      · rw [if_pos hi, hi, keysOf_of_lookup hix]
        simp [hk']
      · rw [if_neg hi]
        by_cases hi' : i = f v'
        · rw [if_pos hi', hi', keysOf, hfree]
          simp [hk']
        · rw [if_neg hi']
  · intro i
    rw [hmoved]
    split
    · exact nodup_nil
    · split
      · exact nodup_singleton k
      · exact h.nodup i
  · intro i
    rw [lookup_erase, lookup_insert]
    split
    · simp
    · split
      · simp
      · exact h.nonempty i

end

open Classical in
/-- Keys go, and with them the lists that they are on; a list that loses one key loses all. -/
theorem eraseAll {ix' : AList fun _ : ι => List κ} (h : IsIndex f m ix) (gone : κ → Prop)
    (hclosed : ∀ k v k' v', m.lookup k = some v → m.lookup k' = some v' → f v = f v' →
    gone k → gone k')
    (hm : ∀ k, m'.lookup k = if gone k then none else m.lookup k)
    (hix : ∀ i, ix'.lookup i =
    if ∃ k v, m.lookup k = some v ∧ gone k ∧ f v = i then none else ix.lookup i) :
    IsIndex f m' ix' := by
  have hkeys : ∀ i, keysOf ix' i =
      if ∃ k v, m.lookup k = some v ∧ gone k ∧ f v = i then [] else keysOf ix i := by
    intro i
    rw [keysOf, hix]
    split <;> rfl
  constructor
  · intro i k
    rw [hkeys, hm]
    split
    · rename_i hlist
      obtain ⟨k', v', hk', hgone, rfl⟩ := hlist
      refine iff_of_false not_mem_nil ?_
      rintro ⟨v, hv, hfv⟩
      split at hv
      · cases hv
      · rename_i hstays
        exact hstays (hclosed k' v' k v hk' hv hfv.symm hgone)
    · rename_i hlist
      rw [h.mem]
      refine exists_congr fun v => and_congr_left fun hfv => ?_
      split
      · rename_i hgone
        refine iff_of_false (fun hv => hlist ⟨k, v, hv, hgone, hfv⟩) nofun
      · rfl
  · intro i
    rw [hkeys]
    split
    · exact nodup_nil
    · exact h.nodup i
  · intro i
    rw [hix]
    split
    · simp
    · exact h.nonempty i

end IsIndex

end MongooseIM.Index
