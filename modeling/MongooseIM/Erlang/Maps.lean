import Mathlib.Data.List.AList

/-! # Erlang maps as association lists with distinct keys

`AList` carries the proof that its keys are distinct. This file adds the operations of the `maps`
module that Mathlib does not have under `AList`, and what a fold over a list leaves in a map. -/

namespace MongooseIM.Erlang

open List

variable {κ ν ν' : Type*} [DecidableEq κ]

/-- `maps:take/2`: the value stored under the key and the remaining map, `none` for `error`. -/
def take (k : κ) (m : AList fun _ : κ => ν) : Option (ν × AList fun _ : κ => ν) :=
  (m.lookup k).map fun v => (v, m.erase k)

variable {m : AList fun _ : κ => ν}

theorem take_eq_some {k : κ} {v : ν} {m' : AList fun _ : κ => ν} :
    take k m = some (v, m') ↔ m.lookup k = some v ∧ m.erase k = m' := by
  simp [take]

omit [DecidableEq κ] in
/-- `maps:map/2`: the same keys, each value replaced by `f key value`. -/
def mapValues (f : κ → ν → ν') (m : AList fun _ : κ => ν) : AList fun _ : κ => ν' :=
  ⟨m.entries.map (Sigma.map id f), List.NodupKeys.map₂ f m.entries m.nodupKeys⟩

variable (f : κ → ν → ν') (m : AList fun _ : κ => ν)

omit [DecidableEq κ] in
@[simp] theorem mapValues_keys : (mapValues f m).keys = m.keys :=
  map₂_keys f m.entries

@[simp] theorem lookup_mapValues (k : κ) : (mapValues f m).lookup k = (m.lookup k).map (f k) :=
  dlookup_map₂ k

variable (p : κ → Bool) (m : AList fun _ : κ => ν)

omit [DecidableEq κ] in
/-- `maps:filter/2`: the entries with these keys. -/
def filterKeys : AList fun _ : κ => ν :=
  ⟨m.entries.filter fun e => p e.1, m.nodupKeys.sublist List.filter_sublist⟩

omit [DecidableEq κ] in
theorem mem_entries_filterKeys {p : κ → Bool} {e : Σ _ : κ, ν} :
    e ∈ (filterKeys p m).entries ↔ e ∈ m.entries ∧ p e.1 := mem_filter

theorem lookup_filterKeys (k : κ) :
    (filterKeys p m).lookup k = if p k then m.lookup k else none := by
  refine Option.ext fun v => ?_
  rw [← Option.mem_def, AList.mem_lookup_iff, mem_entries_filterKeys]
  split
  · rename_i hp
    rw [← Option.mem_def, AList.mem_lookup_iff, and_iff_left hp]
  · rename_i hp
    simp [hp]

variable (m : AList fun _ : κ => ν)

/-- Looking up after a removal, by cases on the key. -/
theorem lookup_erase (k k' : κ) : (m.erase k).lookup k' = if k' = k then none else m.lookup k' := by
  by_cases h : k' = k
  · subst h
    simp
  · rw [if_neg h, AList.lookup_erase_ne h]

/-- Looking up after an insertion, by cases on the key. -/
theorem lookup_insert (k k' : κ) (v : ν) :
    (m.insert k v).lookup k' = if k' = k then some v else m.lookup k' := by
  by_cases h : k' = k
  · subst h
    simp
  · rw [if_neg h, AList.lookup_insert_ne h]

/-- What a fold leaves of a part of the state that some elements of the list set to `v` and that the
others keep. -/
theorem get_foldl {σ ι β : Type*} (get : σ → β) {f : σ → ι → σ} {v : β} {p : ι → Prop}
    [DecidablePred p] {l : List ι} (hset : ∀ s, ∀ x ∈ l, p x → get (f s x) = v)
    (hkeep : ∀ s, ∀ x ∈ l, ¬ p x → get (f s x) = get s) (s : σ) :
    get (l.foldl f s) = if ∃ x ∈ l, p x then v else get s := by
  induction l generalizing s with
  | nil => simp
  | cons x l ih =>
    have hrest := ih (fun s y hy => hset s y (mem_cons_of_mem x hy))
      fun s y hy => hkeep s y (mem_cons_of_mem x hy)
    rw [foldl_cons, hrest]
    by_cases hl : ∃ y ∈ l, p y
    · obtain ⟨y, hy, hp⟩ := hl
      rw [if_pos ⟨y, hy, hp⟩, if_pos ⟨y, mem_cons_of_mem x hy, hp⟩]
    · rw [if_neg hl]
      by_cases hx : p x
      · rw [if_pos ⟨x, mem_cons_self, hx⟩, hset s x mem_cons_self hx]
      · rw [hkeep s x mem_cons_self hx, if_neg]
        rintro ⟨y, hy, hp⟩
        rcases mem_cons.1 hy with rfl | hy
        · exact hx hp
        · exact hl ⟨y, hy, hp⟩

/-- Removing the keys of some elements of a list, one after another. -/
theorem lookup_foldl_erase {ι : Type*} (key : ι → κ) (p : ι → Bool) (l : List ι)
    (m : AList fun _ : κ => ν) (k : κ) :
    (l.foldl (fun acc x => if p x then acc.erase (key x) else acc) m).lookup k =
    if ∃ x ∈ l, p x ∧ key x = k then none else m.lookup k := by
  refine get_foldl (fun m : AList fun _ : κ => ν => m.lookup k) ?_ ?_ m
  · rintro m x - ⟨hp, rfl⟩
    rw [if_pos hp, AList.lookup_erase]
  · intro m x _ hx
    split
    · rename_i hp
      rw [AList.lookup_erase_ne fun hk => hx ⟨hp, hk.symm⟩]
    · rfl

/-- Writing under the keys of some entries, one after another. -/
theorem lookup_foldl_insert (f : ν' → ν) (l : List (Σ _ : κ, ν'))
    (hl : l.NodupKeys) (m : AList fun _ : κ => ν) (k : κ) :
    (l.foldl (fun acc e => if p e.1 then acc.insert e.1 (f e.2) else acc) m).lookup k =
    if p k then ((l.dlookup k).map f).or (m.lookup k) else m.lookup k := by
  induction l generalizing m with
  | nil => simp
  | cons e l ih =>
    obtain ⟨hnotin, hl'⟩ := nodupKeys_cons.1 hl
    rw [foldl_cons, ih hl']
    by_cases hk : k = e.1
    · subst hk
      have hnone : l.dlookup e.1 = none := dlookup_eq_none.2 hnotin
      rw [hnone, dlookup_cons_eq]
      split
      · simp
      · rfl
    · rw [dlookup_cons_ne l e hk]
      split
      · split
        · rw [lookup_insert, if_neg hk]
        · rfl
      · split
        · rw [lookup_insert, if_neg hk]
        · rfl

omit [DecidableEq κ] in
/-- `maps:to_list/1` -/
def toList : List (κ × ν) := m.entries.map fun e => (e.1, e.2)

/-- `maps:from_list/1` -/
def fromList (l : List (κ × ν)) : AList fun _ : κ => ν :=
  l.foldl (fun m e => m.insert e.1 e.2) ∅

/-- A map that is listed and made anew, with its values changed on the way. -/
theorem lookup_fromList_toList (f : ν' → ν) (m : AList fun _ : κ => ν') (k : κ) :
    (fromList ((toList m).map fun e => (e.1, f e.2))).lookup k = (m.lookup k).map f := by
  rw [fromList, toList, map_map, foldl_map]
  have h := lookup_foldl_insert (fun _ => true) f m.entries m.nodupKeys ∅ k
  simp only [if_true, AList.lookup_empty, Option.or_none] at h
  exact h

end MongooseIM.Erlang
