import Mathlib.Data.List.Sort

/-! # Sorted lists without duplicates

`lists:ukeysort/2` keeps, of the elements with one key, the first; `lists:keysort/2` keeps all. -/

namespace MongooseIM.Erlang

open List

universe u

/-- How membership is decided among the elements of a linear order, by one name. -/
instance lawfulBEqOfLinearOrder {κ : Type*} [LinearOrder κ] : LawfulBEq κ := inferInstance

/-- The same among pairs of binaries. -/
instance lawfulBEqBinaries : LawfulBEq (String × String) := inferInstance

variable {α κ : Type*} [LinearOrder κ]

/-- Put an element before the larger ones; it replaces one with the same key. -/
def ukeyinsert (key : α → κ) (a : α) : List α → List α
  | [] => [a]
  | b :: bs =>
    if key a < key b then a :: b :: bs
    else if key a = key b then a :: bs
    else b :: ukeyinsert key a bs

/-- `lists:ukeysort/2` -/
def ukeysort (key : α → κ) (l : List α) : List α := l.foldr (ukeyinsert key) []

@[simp] theorem ukeysort_cons (key : α → κ) (a : α) (l : List α) :
    ukeysort key (a :: l) = ukeyinsert key a (ukeysort key l) := rfl

variable {key : α → κ}

theorem mem_of_mem_ukeyinsert {a b : α} {l : List α}
    (h : b ∈ ukeyinsert key a l) : b = a ∨ b ∈ l := by
  induction l with
  | nil => exact Or.inl (mem_singleton.1 h)
  | cons c l ih =>
    unfold ukeyinsert at h
    split_ifs at h
    · exact mem_cons.1 h
    · rcases mem_cons.1 h with heq | hmem
      · exact Or.inl heq
      · exact Or.inr (mem_cons_of_mem _ hmem)
    · rcases mem_cons.1 h with heq | hmem
      · exact Or.inr (heq ▸ mem_cons_self)
      · exact (ih hmem).imp_right (mem_cons_of_mem _)

theorem pairwise_ukeyinsert {a : α} {l : List α} (h : l.Pairwise fun b c => key b < key c) :
    (ukeyinsert key a l).Pairwise fun b c => key b < key c := by
  induction l with
  | nil => exact pairwise_singleton _ _
  | cons c l ih =>
    obtain ⟨hc, hl⟩ := pairwise_cons.1 h
    unfold ukeyinsert
    split_ifs with hlt heq
    · refine pairwise_cons.2 ⟨fun b hb => ?_, h⟩
      rcases mem_cons.1 hb with rfl | hb
      · exact hlt
      · exact hlt.trans (hc b hb)
    · exact pairwise_cons.2 ⟨fun b hb => heq ▸ hc b hb, hl⟩
    · refine pairwise_cons.2 ⟨fun b hb => ?_, ih hl⟩
      rcases mem_of_mem_ukeyinsert hb with rfl | hb
      · exact lt_of_le_of_ne (not_lt.1 hlt) fun h => heq h.symm
      · exact hc b hb

/-- **The keys of a sorted list increase.** -/
theorem pairwise_ukeysort (key : α → κ) (l : List α) :
    (ukeysort key l).Pairwise fun b c => key b < key c := by
  induction l with
  | nil => exact List.Pairwise.nil
  | cons a l ih => exact pairwise_ukeyinsert ih

theorem ukeyinsert_perm {a : α} {l : List α} (h : ∀ b ∈ l, key b ≠ key a) :
    (ukeyinsert key a l).Perm (a :: l) := by
  induction l with
  | nil => exact List.Perm.refl _
  | cons c l ih =>
    unfold ukeyinsert
    split_ifs with hlt heq
    · exact List.Perm.refl _
    · exact absurd heq.symm (h c mem_cons_self)
    · have hrest := ih fun b hb => h b (mem_cons_of_mem _ hb)
      exact (hrest.cons c).trans (List.Perm.swap a c l)

/-- **Distinct keys stay all.** -/
theorem ukeysort_perm {l : List α} (h : (l.map key).Nodup) : (ukeysort key l).Perm l := by
  induction l with
  | nil => exact List.Perm.refl _
  | cons a l ih =>
    rw [map_cons, nodup_cons] at h
    have hrest := ih h.2
    have hne : ∀ b ∈ ukeysort key l, key b ≠ key a := by
      intro b hb heq
      exact h.1 (mem_map.2 ⟨b, hrest.mem_iff.1 hb, heq⟩)
    exact (ukeyinsert_perm hne).trans (hrest.cons a)

theorem nodup_keys_of_pairwise {l : List α}
    (h : l.Pairwise fun b c => key b < key c) : (l.map key).Nodup :=
  pairwise_map.2 (h.imp fun hlt => ne_of_lt hlt)

/-- **Sorted lists with the same elements are equal.** -/
theorem eq_of_perm_of_keys {l l' : List α} (hperm : l.Perm l')
    (h : l.Pairwise fun b c => key b < key c) (h' : l'.Pairwise fun b c => key b < key c) :
    l = l' := by
  refine hperm.eq_of_pairwise (fun b c _ _ hbc hcb => ?_) h h'
  exact absurd (hbc.trans hcb) (lt_irrefl _)

theorem ukeysort_of_perm {l l' : List α} (hperm : l.Perm l')
    (h' : l'.Pairwise fun b c => key b < key c) : ukeysort key l = l' := by
  have hnodup : (l.map key).Nodup := (hperm.map key).nodup_iff.2 (nodup_keys_of_pairwise h')
  exact eq_of_perm_of_keys ((ukeysort_perm hnodup).trans hperm) (pairwise_ukeysort key l) h'

/-- `lists:usort/1` -/
def usort (l : List κ) : List κ := ukeysort id l

theorem nodup_usort (l : List κ) : (usort l).Nodup := by
  have h := nodup_keys_of_pairwise (pairwise_ukeysort id l)
  rwa [map_id] at h

theorem mem_ukeyinsert_id {a b : κ} {l : List κ} : b ∈ ukeyinsert id a l ↔ b = a ∨ b ∈ l := by
  refine ⟨mem_of_mem_ukeyinsert, fun h => ?_⟩
  induction l with
  | nil => simpa [ukeyinsert] using h
  | cons c l ih =>
    unfold ukeyinsert
    split_ifs with hlt heq
    · exact mem_cons.2 h
    · -- the element that is replaced is the same
      rcases h with rfl | h
      · exact mem_cons_self
      · exact (show a = c from heq) ▸ h
    · rcases h with rfl | h
      · exact mem_cons_of_mem _ (ih (Or.inl rfl))
      · rcases mem_cons.1 h with rfl | h
        · exact mem_cons_self
        · exact mem_cons_of_mem _ (ih (Or.inr h))

@[simp] theorem mem_usort {a : κ} {l : List κ} : a ∈ usort l ↔ a ∈ l := by
  rw [usort]
  induction l with
  | nil => exact Iff.rfl
  | cons b l ih => rw [ukeysort_cons, mem_ukeyinsert_id, ih, mem_cons]

/-- `lists:keysort/2` -/
def keysort (key : α → κ) (l : List α) : List α := l.insertionSort fun a b => key a ≤ key b

theorem keysort_perm (key : α → κ) (l : List α) : (keysort key l).Perm l := perm_insertionSort _ _

@[simp] theorem mem_keysort {a : α} {l : List α} : a ∈ keysort key l ↔ a ∈ l :=
  (keysort_perm key l).mem_iff

/-- **The keys of a sorted list do not decrease.** -/
theorem pairwise_keysort (key : α → κ) (l : List α) :
    (keysort key l).Pairwise fun a b => key a ≤ key b := by
  have htotal : Std.Total fun a b : α => key a ≤ key b := ⟨fun a b => le_total (key a) (key b)⟩
  have htrans : IsTrans α fun a b => key a ≤ key b := ⟨fun _ _ _ => le_trans⟩
  exact pairwise_insertionSort _ l

section Ties

variable {key : α → κ} {l : List α}

/-- A list whose keys do not decrease is sorted already. -/
theorem keysort_of_pairwise (h : l.Pairwise fun a b => key a ≤ key b) :
    keysort key l = l := h.insertionSort_eq

/-- The last element of a sorted list has the greatest key. -/
theorem getLast?_keysort (hl : l ≠ []) :
    ∃ a, (keysort key l).getLast? = some a ∧ a ∈ l ∧ ∀ b ∈ l, key b ≤ key a := by
  have hne : keysort key l ≠ [] := fun h => hl ((h ▸ keysort_perm key l).nil_eq).symm
  refine ⟨_, getLast?_eq_some_getLast hne, ?_, fun b hb => ?_⟩
  · exact mem_keysort.1 (getLast_mem hne)
  · have hsorted := pairwise_keysort key l
    have hb : b ∈ keysort key l := mem_keysort.2 hb
    rw [← dropLast_append_getLast hne] at hsorted hb
    rcases mem_append.1 hb with hb | hb
    · exact (pairwise_append.1 hsorted).2.2 b hb _ mem_cons_self
    · rw [mem_singleton.1 hb]

theorem pairwise_lt_of_nodup (hsorted : l.Pairwise fun a b => key a ≤ key b)
    (hnodup : (l.map key).Nodup) : l.Pairwise fun a b => key a < key b := by
  rw [List.Nodup, pairwise_map] at hnodup
  exact (hsorted.and hnodup).imp fun ⟨hle, hne⟩ => lt_of_le_of_ne hle hne

/-- Where the keys of a sorted list are not distinct, two neighbours have the same. -/
theorem exists_tie (hsorted : l.Pairwise fun a b => key a ≤ key b) (hnodup : ¬ (l.map key).Nodup) :
    ∃ before a b behind, l = before ++ a :: b :: behind ∧ key a = key b := by
  induction l with
  | nil => exact absurd nodup_nil hnodup
  | cons a l ih =>
    obtain ⟨hle, hsorted⟩ := pairwise_cons.1 hsorted
    by_cases hmem : key a ∈ l.map key
    · obtain ⟨c, hc, hkey⟩ := mem_map.1 hmem
      obtain ⟨b, behind, rfl⟩ := exists_cons_of_ne_nil (ne_nil_of_mem hc)
      -- the next key is between the two equal ones
      refine ⟨[], a, b, behind, rfl, le_antisymm (hle b mem_cons_self) ?_⟩
      rcases mem_cons.1 hc with rfl | hc
      · exact hkey.le
      · exact ((pairwise_cons.1 hsorted).1 c hc).trans hkey.le
    · have hrest : ¬ (l.map key).Nodup := fun h => hnodup (nodup_cons.2 ⟨hmem, h⟩)
      obtain ⟨before, b, c, behind, rfl, hkey⟩ := ih hsorted hrest
      exact ⟨a :: before, b, c, behind, rfl, hkey⟩

theorem pairwise_swap {before behind : List α} {a b : α} (hkey : key a = key b)
    (h : (before ++ a :: b :: behind).Pairwise fun a b => key a ≤ key b) :
    (before ++ b :: a :: behind).Pairwise fun a b => key a ≤ key b := by
  simp only [pairwise_append, pairwise_cons, mem_cons, forall_eq_or_imp] at h ⊢
  obtain ⟨hbefore, ⟨⟨-, ha⟩, hb, hbehind⟩, hcross⟩ := h
  refine ⟨hbefore, ⟨⟨hkey.ge, hb⟩, ha, hbehind⟩, fun c hc => ?_⟩
  obtain ⟨hca, hcb, hrest⟩ := hcross c hc
  exact ⟨hcb, hca, hrest⟩

end Ties

section Lookup

omit [LinearOrder κ]

variable {ν : Type*} [DecidableEq κ]

/-- Looking up in a list of pairs, by its head. -/
theorem lookup_cons (key key' : κ) (value : ν) (l : List (κ × ν)) :
    ((key, value) :: l).lookup key' = if key' = key then some value else l.lookup key' := by
  rw [List.lookup_cons]
  by_cases h : key' = key
  · simp [h]
  · have hbeq : (key' == key) = false := beq_eq_false_iff_ne.2 h
    rw [hbeq, if_neg h]

variable {l : List (κ × ν)}

/-- What is found under a key is in the list. -/
theorem mem_of_lookup {key : κ} {value : ν} (h : l.lookup key = some value) : (key, value) ∈ l := by
  induction l with
  | nil => cases h
  | cons kv l ih =>
    obtain ⟨key', value'⟩ := kv
    rw [lookup_cons] at h
    split_ifs at h with hkey
    · cases h
      exact hkey ▸ mem_cons_self
    · exact mem_cons_of_mem _ (ih h)

section

variable {l : List (κ × ν)} {key : κ} {value : ν} (hnodup : (l.map Prod.fst).Nodup)

include hnodup

/-- With distinct keys an entry is found under its key. -/
theorem lookup_of_mem (h : (key, value) ∈ l) : l.lookup key = some value := by
  induction l with
  | nil => cases h
  | cons kv l ih =>
    obtain ⟨key', value'⟩ := kv
    rw [map_cons, nodup_cons] at hnodup
    rw [lookup_cons]
    rcases mem_cons.1 h with heq | hmem
    · cases heq
      rw [if_pos rfl]
    · have hne : key ≠ key' := by
        rintro rfl
        exact hnodup.1 (mem_map.2 ⟨(key, value), hmem, rfl⟩)
      rw [if_neg hne, ih hnodup.2 hmem]

/-- With distinct keys to be found is to be in the list. -/
theorem lookup_eq_some_iff : l.lookup key = some value ↔ (key, value) ∈ l :=
  ⟨mem_of_lookup, lookup_of_mem hnodup⟩

end

/-- A key is not found exactly when the list does not have it. -/
theorem lookup_eq_none_iff {key : κ} : l.lookup key = none ↔ key ∉ l.map Prod.fst := by
  rw [List.lookup_eq_none_iff]
  constructor
  · intro h hmem
    obtain ⟨kv, hkv, rfl⟩ := List.mem_map.1 hmem
    simpa using h kv hkv
  · rintro h kv hkv
    have hne : key ≠ kv.1 := fun heq => h (heq ▸ List.mem_map_of_mem hkv)
    simpa using hne

theorem lookup_of_perm {l l' : List (κ × ν)} (hperm : l.Perm l')
    (hnodup : (l.map Prod.fst).Nodup) (key : κ) : l.lookup key = l'.lookup key := by
  have hnodup' : (l'.map Prod.fst).Nodup := (hperm.map Prod.fst).nodup_iff.1 hnodup
  refine Option.ext fun value => ?_
  rw [lookup_eq_some_iff hnodup, lookup_eq_some_iff hnodup', hperm.mem_iff]

/-- `lists:keyreplace/4` at the first component. -/
def keyreplace (key : κ) (value : ν) : List (κ × ν) → List (κ × ν)
  | [] => []
  | (key', value') :: l =>
    if key' = key then (key, value) :: l else (key', value') :: keyreplace key value l

/-- `lists:keydelete/3` at the first component. -/
def keydelete (key : κ) : List (κ × ν) → List (κ × ν)
  | [] => []
  | (key', value') :: l => if key' = key then l else (key', value') :: keydelete key l

@[simp] theorem map_fst_keyreplace (key : κ) (value : ν) (l : List (κ × ν)) :
    (keyreplace key value l).map Prod.fst = l.map Prod.fst := by
  induction l with
  | nil => rfl
  | cons kv l ih =>
    obtain ⟨key', value'⟩ := kv
    rw [keyreplace]
    split_ifs with h
    · rw [map_cons, map_cons, h]
    · rw [map_cons, map_cons, ih]

/-- Looking up after a replacement, by cases on the key. -/
theorem lookup_keyreplace (key key' : κ) (value : ν) (l : List (κ × ν)) :
    (keyreplace key value l).lookup key' =
    if key' = key then (l.lookup key).map fun _ => value else l.lookup key' := by
  induction l with
  | nil => simp [keyreplace]
  | cons kv l ih =>
    obtain ⟨head, value'⟩ := kv
    rw [keyreplace]
    split_ifs with hhead heq heq
    · rw [lookup_cons, lookup_cons, if_pos heq, if_pos hhead.symm]
      rfl
    · rw [lookup_cons, lookup_cons, if_neg heq, if_neg fun h => heq (h.trans hhead)]
    · have hne : ¬key = head := fun h => hhead h.symm
      rw [lookup_cons, ih, if_neg (heq ▸ hne), if_pos heq, lookup_cons, if_neg hne]
    · rw [lookup_cons, ih, if_neg heq, lookup_cons]

/-- What a removal leaves is a part of the list. -/
theorem keydelete_sublist (key : κ) (l : List (κ × ν)) : (keydelete key l).Sublist l := by
  induction l with
  | nil => exact List.Sublist.refl _
  | cons kv l ih =>
    obtain ⟨key', value'⟩ := kv
    rw [keydelete]
    split_ifs
    · exact sublist_cons_self _ _
    · exact ih.cons_cons _

/-- Looking up after a removal, by cases on the key. -/
theorem lookup_keydelete (hnodup : (l.map Prod.fst).Nodup) (key key' : κ) :
    (keydelete key l).lookup key' = if key' = key then none else l.lookup key' := by
  induction l with
  | nil => simp [keydelete]
  | cons kv l ih =>
    obtain ⟨head, value'⟩ := kv
    rw [map_cons, nodup_cons] at hnodup
    rw [keydelete]
    split_ifs with hhead heq heq
    · rw [heq, ← hhead]
      exact lookup_eq_none_iff.2 hnodup.1
    · rw [lookup_cons, if_neg fun h => heq (h.trans hhead)]
    · have hne : ¬key = head := fun h => hhead h.symm
      rw [lookup_cons, ih hnodup.2, if_pos heq, if_neg (heq ▸ hne)]
    · rw [lookup_cons, ih hnodup.2, if_neg heq, lookup_cons]

end Lookup

section Take

omit [LinearOrder κ]

variable [DecidableEq κ] {key : α → κ} {k : κ} {a : α} {l l' : List α}

/-- `lists:keytake/3`: the first element with the key, and the others. -/
def keytake (key : α → κ) (k : κ) : List α → Option (α × List α)
  | [] => none
  | a :: l =>
    if key a = k then some (a, l) else (keytake key k l).map fun (b, rest) => (b, a :: rest)

theorem keytake_eq_none_iff : keytake key k l = none ↔ ∀ a ∈ l, key a ≠ k := by
  induction l with
  | nil => simp [keytake]
  | cons b l ih =>
    rw [keytake, forall_mem_cons]
    split_ifs with hkey
    · simp [hkey]
    · simp [hkey, ih]

/-- **What is taken has the key, and nothing else is lost.** -/
theorem perm_of_keytake (h : keytake key k l = some (a, l')) : key a = k ∧ l.Perm (a :: l') := by
  induction l generalizing l' with
  | nil => cases h
  | cons b l ih =>
    rw [keytake] at h
    split_ifs at h with hkey
    · cases h
      exact ⟨hkey, List.Perm.refl _⟩
    · obtain ⟨⟨c, rest⟩, hrest, heq⟩ := Option.map_eq_some_iff.1 h
      cases heq
      obtain ⟨hc, hperm⟩ := ih hrest
      exact ⟨hc, (hperm.cons b).trans (List.Perm.swap a b rest)⟩

theorem sublist_of_keytake (h : keytake key k l = some (a, l')) : l'.Sublist l := by
  induction l generalizing l' with
  | nil => cases h
  | cons b l ih =>
    rw [keytake] at h
    split_ifs at h with hkey
    · cases h
      exact sublist_cons_self _ _
    · obtain ⟨⟨c, rest⟩, hrest, heq⟩ := Option.map_eq_some_iff.1 h
      cases heq
      exact (ih hrest).cons_cons b

end Take

variable {α β : Type u} {f : α → Option β}

theorem exists_mapM {l : List α}
    (h : ∀ a ∈ l, ∃ b, f a = some b) : ∃ l', l.mapM f = some l' ∧ l.map f = l'.map some := by
  induction l with
  | nil => exact ⟨[], rfl, rfl⟩
  | cons a l ih =>
    obtain ⟨b, hb⟩ := h a mem_cons_self
    obtain ⟨l', hl', hmap⟩ := ih fun a ha => h a (mem_cons_of_mem _ ha)
    refine ⟨b :: l', ?_, ?_⟩
    · simp [mapM_cons, hb, hl']
    · rw [map_cons, map_cons, hb, hmap]

/-- Where a function says what every element is read as, the list is read by it. -/
theorem mapM_eq_some_map {g : α → β} {l : List α}
    (h : ∀ a ∈ l, f a = some (g a)) : l.mapM f = some (l.map g) := by
  induction l with
  | nil => rfl
  | cons a l ih =>
    have hrest := ih fun a ha => h a (mem_cons_of_mem _ ha)
    simp [mapM_cons, h a mem_cons_self, hrest]

/-- A list that was read is one of what its elements were read as. -/
theorem forall₂_of_mapM {l : List α} {l' : List β}
    (h : l.mapM f = some l') : List.Forall₂ (fun a b => f a = some b) l l' := by
  induction l generalizing l' with
  | nil =>
    cases h
    exact .nil
  | cons a l ih =>
    rw [mapM_cons] at h
    obtain ⟨b, hb, h⟩ := Option.bind_eq_some_iff.1 h
    obtain ⟨rest, hrest, h⟩ := Option.bind_eq_some_iff.1 h
    obtain rfl : b :: rest = l' := Option.some.inj h
    exact .cons hb (ih hrest)

theorem exists_of_forall₂ {α β : Type*} {R : α → β → Prop} {l : List α} {l' : List β}
    (h : List.Forall₂ R l l') {a : α} (ha : a ∈ l) : ∃ b ∈ l', R a b := by
  induction h with
  | nil => cases ha
  | @cons a' b l l' hab _ ih =>
    rcases mem_cons.1 ha with rfl | ha
    · exact ⟨b, mem_cons_self, hab⟩
    · obtain ⟨b', hb', hab'⟩ := ih ha
      exact ⟨b', mem_cons_of_mem b hb', hab'⟩

/-- Every element of a list that was read was read. -/
theorem exists_of_mapM {l : List α} {l' : List β}
    (h : l.mapM f = some l') {a : α} (ha : a ∈ l) : ∃ b ∈ l', f a = some b :=
  exists_of_forall₂ (forall₂_of_mapM h) ha

theorem exists_of_mem_mapM {l : List α} {l' : List β}
    (h : l.mapM f = some l') {b : β} (hb : b ∈ l') : ∃ a ∈ l, f a = some b :=
  exists_of_forall₂ (R := fun b a => f a = some b) (List.Forall₂.flip (forall₂_of_mapM h)) hb

/-- What can be seen of a list that was read. -/
theorem map_of_mapM {γ : Type*} {f : α → Option β} {l : List α} {l' : List β}
    {g : β → γ} {k : α → γ} (h : l.mapM f = some l')
    (hseen : ∀ a b, f a = some b → g b = k a) : l'.map g = l.map k := by
  have hread := forall₂_of_mapM h
  clear h
  induction hread with
  | nil => rfl
  | cons hab _ ih => rw [map_cons, map_cons, hseen _ _ hab, ih]

/-! ## Ordered sets -/

/-- `ordsets:subtract/2` -/
def subtract : List κ → List κ → List κ
  | [], _ => []
  | a :: as, [] => a :: as
  | a :: as, b :: bs =>
    if a < b then a :: subtract as (b :: bs)
    else if b < a then subtract (a :: as) bs
    else subtract as bs
  termination_by as bs => as.length + bs.length

/-- `ordsets:subtract/2` goes through both sets at once. -/
theorem subtract_eq_filter {as bs : List κ} (ha : as.Pairwise (· < ·)) (hb : bs.Pairwise (· < ·)) :
    subtract as bs = as.filter fun a => a ∉ bs := by
  induction as, bs using subtract.induct with
  | case1 bs => rw [subtract, filter_nil]
  | case2 a as => simp [subtract]
  | case3 a as b bs hlt ih =>
    -- all of the second set is larger
    have hnot : a ∉ b :: bs := fun hmem => by
      rcases mem_cons.1 hmem with rfl | hmem
      · exact lt_irrefl a hlt
      · exact lt_asymm hlt ((pairwise_cons.1 hb).1 a hmem)
    rw [subtract, if_pos hlt, ih ha.of_cons hb, filter_cons_of_pos (by simpa using hnot)]
  | case4 a as b bs hlt hgt ih =>
    -- nothing in the first set is so small
    have hsmall : ∀ c ∈ a :: as, c ≠ b := by
      intro c hc
      rcases mem_cons.1 hc with rfl | hc
      · exact ne_of_gt hgt
      · exact ne_of_gt (hgt.trans ((pairwise_cons.1 ha).1 c hc))
    rw [subtract, if_neg hlt, if_pos hgt, ih ha hb.of_cons]
    refine filter_congr fun c hc => ?_
    simp [hsmall c hc]
  | case5 a as b bs hlt hgt ih =>
    obtain rfl : a = b := le_antisymm (not_lt.1 hgt) (not_lt.1 hlt)
    rw [subtract, if_neg hlt, if_neg hgt, ih ha.of_cons hb.of_cons, filter_cons_of_neg (by simp)]
    refine filter_congr fun c hc => ?_
    simp [ne_of_gt ((pairwise_cons.1 ha).1 c hc)]

end MongooseIM.Erlang
