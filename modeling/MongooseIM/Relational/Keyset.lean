import MongooseIM.Erlang.Lists

/-! # Lists with increasing keys

The result of a query in the order of a unique key. A bound that is the key of an element cuts such
a list there, which is how the page beyond another one is found. -/

namespace MongooseIM.Keyset

open List

variable {α κ : Type*} [LinearOrder κ] {key : α → κ} {l xs ys : List α} {a : α}

/-- The keys increase. -/
abbrev Increasing (key : α → κ) (l : List α) : Prop := l.Pairwise fun a b => key a < key b

/-- A test that the elements before a place fail and those after it pass cuts the list there. -/
theorem filter_append_of_forall {p : α → Bool} (hxs : ∀ b ∈ xs, p b = false)
    (hys : ∀ b ∈ ys, p b = true) : (xs ++ ys).filter p = ys := by
  have hnil : xs.filter p = [] := by
    rw [filter_eq_nil_iff]
    intro b hb
    simp [hxs b hb]
  rw [filter_append, hnil, nil_append, filter_eq_self]
  exact hys

theorem filter_append_of_forall' {p : α → Bool} (hxs : ∀ b ∈ xs, p b = true)
    (hys : ∀ b ∈ ys, p b = false) : (xs ++ ys).filter p = xs := by
  have hnil : ys.filter p = [] := by
    rw [filter_eq_nil_iff]
    intro b hb
    simp [hys b hb]
  rw [filter_append, hnil, append_nil, filter_eq_self]
  exact hxs

section

variable (h : Increasing key (xs ++ a :: ys))

include h

theorem lt_of_increasing_append_cons : (∀ b ∈ xs, key b < key a) ∧ ∀ b ∈ ys, key a < key b := by
  obtain ⟨_, hright, hcross⟩ := pairwise_append.1 h
  refine ⟨?_, (pairwise_cons.1 hright).1⟩
  intro b hb
  exact hcross b hb a mem_cons_self

theorem filter_gt_append_cons : (xs ++ a :: ys).filter (fun b => key a < key b) = ys := by
  obtain ⟨hleft, hright⟩ := lt_of_increasing_append_cons h
  rw [append_cons]
  refine filter_append_of_forall ?_ (fun b hb => by simpa using hright b hb)
  intro b hb
  rcases mem_append.1 hb with hb | hb
  · simpa using (hleft b hb).le
  · simp [mem_singleton.1 hb]

theorem filter_lt_append_cons : (xs ++ a :: ys).filter (fun b => key b < key a) = xs := by
  obtain ⟨hleft, hright⟩ := lt_of_increasing_append_cons h
  refine filter_append_of_forall' (fun b hb => by simpa using hleft b hb) ?_
  intro b hb
  rcases mem_cons.1 hb with rfl | hb
  · simp
  · simpa using (hright b hb).le

theorem filter_ge_append_cons : (xs ++ a :: ys).filter (fun b => key a ≤ key b) = a :: ys := by
  obtain ⟨hleft, hright⟩ := lt_of_increasing_append_cons h
  refine filter_append_of_forall (fun b hb => by simpa using hleft b hb) ?_
  intro b hb
  rcases mem_cons.1 hb with rfl | hb
  · simp
  · simpa using (hright b hb).le

theorem filter_le_append_cons : (xs ++ a :: ys).filter (fun b => key b ≤ key a) = xs ++ [a] := by
  obtain ⟨hleft, hright⟩ := lt_of_increasing_append_cons h
  rw [append_cons]
  refine filter_append_of_forall' ?_ (fun b hb => by simpa using hright b hb)
  intro b hb
  rcases mem_append.1 hb with hb | hb
  · simpa using (hleft b hb).le
  · simp [mem_singleton.1 hb]

end

variable {pre page post : List α}

/-- The larger keys than the last one of a page are those after it. -/
theorem filter_gt_getLast (h : Increasing key (pre ++ page ++ post)) (ha : page.getLast? = some a) :
    (pre ++ page ++ post).filter (fun b => key a < key b) = post := by
  obtain ⟨init, rfl⟩ := getLast?_eq_some_iff.1 ha
  have heq : pre ++ (init ++ [a]) ++ post = (pre ++ init) ++ a :: post := by simp
  rw [heq] at h ⊢
  exact filter_gt_append_cons h

/-- The smaller keys than the first one of a page are those before it. -/
theorem filter_lt_head (h : Increasing key (pre ++ page ++ post)) (ha : page.head? = some a) :
    (pre ++ page ++ post).filter (fun b => key b < key a) = pre := by
  obtain ⟨tail, rfl⟩ := head?_eq_some_iff.1 ha
  have heq : pre ++ a :: tail ++ post = pre ++ a :: (tail ++ post) := by simp
  rw [heq] at h ⊢
  exact filter_lt_append_cons h

/-- The elements after a prefix of the list are those above it. -/
theorem forall_lt_iff_mem_right (h : Increasing key (xs ++ ys)) (ha : a ∈ xs ++ ys) :
    (∀ b ∈ xs, key b < key a) ↔ a ∈ ys := by
  constructor
  · intro habove
    rcases mem_append.1 ha with hxs | hys
    · exact absurd (habove a hxs) (lt_irrefl _)
    · exact hys
  · intro hys b hb
    exact (pairwise_append.1 h).2.2 b hb a hys

/-- The elements before a suffix of the list are those below it. -/
theorem forall_gt_iff_mem_left (h : Increasing key (xs ++ ys)) (ha : a ∈ xs ++ ys) :
    (∀ b ∈ ys, key a < key b) ↔ a ∈ xs := by
  constructor
  · intro hbelow
    rcases mem_append.1 ha with hxs | hys
    · exact hxs
    · exact absurd (hbelow a hys) (lt_irrefl _)
  · intro hxs b hb
    exact (pairwise_append.1 h).2.2 a hxs b hb

instance total_le_key : Std.Total fun a b => key a ≤ key b := ⟨fun a b => le_total (key a) (key b)⟩

instance trans_le_key : IsTrans α fun a b => key a ≤ key b := ⟨fun _ _ _ => le_trans⟩

instance total_ge_key : Std.Total fun a b => key b ≤ key a := ⟨fun a b => le_total (key b) (key a)⟩

instance trans_ge_key : IsTrans α fun a b => key b ≤ key a :=
  ⟨fun _ _ _ hab hbc => le_trans hbc hab⟩

/-- In the order of the keys. -/
def ascending (key : α → κ) (l : List α) : List α := l.insertionSort fun a b => key a ≤ key b

/-- In the other order. -/
def descending (key : α → κ) (l : List α) : List α := l.insertionSort fun a b => key b ≤ key a

theorem ascending_perm (key : α → κ) (l : List α) : (ascending key l).Perm l :=
  perm_insertionSort _ l

theorem descending_perm (key : α → κ) (l : List α) : (descending key l).Perm l :=
  perm_insertionSort _ l

theorem increasing_ascending (h : (l.map key).Nodup) : Increasing key (ascending key l) := by
  have hsorted : (ascending key l).Pairwise fun a b => key a ≤ key b := pairwise_insertionSort _ l
  have hnodup : ((ascending key l).map key).Nodup := ((ascending_perm key l).map key).nodup_iff.2 h
  exact hsorted.imp₂ (fun _ _ => lt_of_le_of_ne) (pairwise_map.1 hnodup)

theorem Increasing.eq_of_perm (hl : Increasing key l) (hxs : Increasing key xs) (h : l.Perm xs) :
    l = xs :=
  Erlang.eq_of_perm_of_keys h hl hxs

/-- **The descending order is the ascending one reversed.** -/
theorem descending_eq_reverse (h : (l.map key).Nodup) :
    descending key l = (ascending key l).reverse := by
  have hsorted : (descending key l).Pairwise fun a b => key b ≤ key a := pairwise_insertionSort _ l
  have hnodup : ((descending key l).map key).Nodup :=
    ((descending_perm key l).map key).nodup_iff.2 h
  have hincreasing : Increasing key (descending key l).reverse := by
    rw [Increasing, pairwise_reverse]
    refine hsorted.imp₂ ?_ (pairwise_map.1 hnodup)
    intro a b hle hne
    exact lt_of_le_of_ne hle hne.symm
  have hperm : (descending key l).reverse.Perm (ascending key l) :=
    (reverse_perm _).trans ((descending_perm key l).trans (ascending_perm key l).symm)
  rw [← hincreasing.eq_of_perm (increasing_ascending h) hperm, reverse_reverse]

/-- **Filtering commutes with sorting.** -/
theorem ascending_filter (h : (l.map key).Nodup) (p : α → Bool) :
    ascending key (l.filter p) = (ascending key l).filter p := by
  have hfilter : ((l.filter p).map key).Nodup := (filter_sublist.map key).nodup h
  refine (increasing_ascending hfilter).eq_of_perm ((increasing_ascending h).filter _) ?_
  exact (ascending_perm key _).trans ((ascending_perm key l).filter p).symm

end MongooseIM.Keyset
