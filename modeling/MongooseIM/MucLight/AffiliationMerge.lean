import MongooseIM.MucLight.Affiliations

/-! # The merge of requested affiliations

The occupants and the joining users are walked in lockstep with the changes, both sorted by user. -/

namespace MongooseIM.MucLight

open Erlang List

variable {U : Type*} [LinearOrder U]

/-! ## What the merge does -/

/-- An occupant after the changes. -/
def updated (changes : AffUsers U) (affUser : U × Aff) : Option (U × Aff) :=
  match changes.lookup affUser.1 with
  | some .none => none
  | some newAff => some (affUser.1, newAff)
  | none => some affUser

variable {changes : AffUsers U}

/-- After a change that is not made twice come changes of larger users. -/
theorem lt_of_startsTwice_eq_false {change : U × Aff}
    (hsorted : (change :: changes).Pairwise fun a b => a.1 ≤ b.1)
    (h : startsTwice (change :: changes) = false) : ∀ c ∈ changes, change.1 < c.1 := by
  obtain ⟨hle, htail⟩ := pairwise_cons.1 hsorted
  cases changes with
  | nil => exact fun c hc => by cases hc
  | cons next changes =>
    have hne : change.1 ≠ next.1 := of_decide_eq_false h
    have hlt : change.1 < next.1 := lt_of_le_of_ne (hle next mem_cons_self) hne
    intro c hc
    rcases mem_cons.1 hc with rfl | hc
    · exact hlt
    · exact hlt.trans_le ((pairwise_cons.1 htail).1 c hc)

variable {affUser : U × Aff}

/-- Occupants that are not among the changed users stay as they are. -/
theorem updated_cons_of_ne {change : U × Aff}
    (h : affUser.1 ≠ change.1) : updated (change :: changes) affUser = updated changes affUser := by
  rw [updated, updated, show change = (change.1, change.2) from rfl, Erlang.lookup_cons, if_neg h]

theorem updated_of_notMem
    (h : affUser.1 ∉ users changes) : updated changes affUser = some affUser := by
  rw [updated, Erlang.lookup_eq_none_iff.2 h]

/-- The merge keeps who is not among the changed users. -/
theorem applyAffUsersChangeLoop_keep
    (htwice : startsTwice changes = false) (hnot : affUser.1 ∉ users changes)
    (aan nau cd : AffUsers U) :
    applyAffUsersChangeLoop (affUser :: aan) nau changes cd =
    applyAffUsersChangeLoop aan (affUser :: nau) changes cd := by
  rw [applyAffUsersChangeLoop.eq_def]
  simp only [htwice, Bool.false_eq_true, if_false]
  cases changes with
  | nil => rfl
  | cons change changes =>
    have hne : affUser.1 ≠ change.1 := fun heq =>
      hnot (heq ▸ mem_map_of_mem mem_cons_self)
    simp only [hne, if_false]

theorem applyAffUsersChangeLoop_change {user : U} {aff newAff : Aff}
    (htwice : startsTwice ((user, newAff) :: changes) = false) (hne : aff ≠ newAff)
    (aan nau cd : AffUsers U) :
    applyAffUsersChangeLoop ((user, aff) :: aan) nau ((user, newAff) :: changes) cd =
    applyAffUsersChangeLoop aan
      ((updated ((user, newAff) :: changes) (user, aff)).toList ++ nau) changes
      ((user, newAff) :: cd) := by
  rw [applyAffUsersChangeLoop.eq_def]
  simp only [htwice, Bool.false_eq_true, if_false, if_true, hne, updated, lookup_cons_self]
  cases newAff with
  | none => simp
  | member => simp
  | owner => simp

/-- **The merge refuses the request, or makes every change of it**, each to an occupant whose
affiliation is another one. -/
theorem applyAffUsersChangeLoop_cases {aan : AffUsers U} (haan : aan.Pairwise fun a b => a.1 < b.1)
    (hchanges : changes.Pairwise fun a b => a.1 ≤ b.1)
    (hmem : ∀ c ∈ changes, c.1 ∈ users aan) (nau cd : AffUsers U) :
    (∃ text, applyAffUsersChangeLoop aan nau changes cd = .error (.badRequest text)) ∨
    (applyAffUsersChangeLoop aan nau changes cd =
      .ok (nau.reverse ++ aan.filterMap (updated changes), changes.reverse ++ cd) ∧
    (users changes).Nodup ∧ ∀ c ∈ changes, c ∉ aan) := by
  induction aan generalizing changes nau cd with
  | nil =>
    have hnil : changes = [] := eq_nil_iff_forall_not_mem.2 fun c hc => by
      cases hmem c hc
    subst hnil
    refine Or.inr ⟨?_, nodup_nil, fun c hc => by cases hc⟩
    simp [applyAffUsersChangeLoop]
  | cons affUser aan ih =>
    obtain ⟨hlt, htail⟩ := pairwise_cons.1 haan
    by_cases htwice : startsTwice changes = true
    · refine Or.inl ⟨sameUserTwice, ?_⟩
      rw [applyAffUsersChangeLoop.eq_def]
      exact if_pos htwice
    rw [Bool.not_eq_true] at htwice
    by_cases hchanged : affUser.1 ∈ users changes
    · -- the change of this occupant is the first one: the others are of larger users
      obtain ⟨⟨user', newAff⟩, rauc, rfl⟩ : ∃ c cs, changes = c :: cs :=
        exists_cons_of_ne_nil (by rintro rfl; cases hchanged)
      have hrauc := lt_of_startsTwice_eq_false hchanges htwice
      have huser : affUser.1 = user' := by
        rcases mem_cons.1 hchanged with heq | hin
        · exact heq
        · obtain ⟨c, hc, heq⟩ := mem_map.1 hin
          have hless : user' < affUser.1 := heq ▸ hrauc c hc
          rcases mem_cons.1 (hmem _ mem_cons_self) with heq' | hin'
          · exact heq'.symm
          · obtain ⟨affUser', hin', heq'⟩ := mem_map.1 hin'
            have hmore : affUser.1 < affUser'.1 := hlt affUser' hin'
            simp only at heq'
            exact absurd (hless.trans (heq' ▸ hmore)) (lt_irrefl _)
      obtain ⟨user, aff⟩ := affUser
      simp only at huser hlt
      subst huser
      have hne : ∀ c ∈ rauc, c.1 ≠ user := fun c hc => (hrauc c hc).ne'
      by_cases haff : aff = newAff
      · refine Or.inl ⟨"Meaningless change", ?_⟩
        rw [applyAffUsersChangeLoop, htwice]
        simp only [Bool.false_eq_true, if_false, if_true, haff]
      have hrest : ∀ c ∈ rauc, c.1 ∈ users aan := fun c hc =>
        (mem_cons.1 (hmem c (mem_cons_of_mem _ hc))).resolve_left (hne c hc)
      have hupdated : aan.filterMap (updated ((user, newAff) :: rauc)) =
          aan.filterMap (updated rauc) :=
        filterMap_congr fun affUser hin => updated_cons_of_ne (hlt affUser hin).ne'
      rw [applyAffUsersChangeLoop_change htwice haff]
      refine (ih htail (pairwise_cons.1 hchanges).2 hrest _ _).imp_right ?_
      rintro ⟨hok, hnodup, hdiff⟩
      refine ⟨?_, nodup_cons.2 ⟨fun hin => ?_, hnodup⟩, fun c hc hin => ?_⟩
      · rw [hok, filterMap_cons, hupdated]
        cases updated ((user, newAff) :: rauc) (user, aff) <;> simp
      · obtain ⟨c, hc, heq⟩ := mem_map.1 hin
        exact hne c hc heq
      · rcases mem_cons.1 hc with rfl | hc
        · rcases mem_cons.1 hin with heq | hin
          · exact haff (Prod.mk.inj heq).2.symm
          · exact absurd (hlt _ hin) (lt_irrefl _)
        · rcases mem_cons.1 hin with rfl | hin
          · exact hne _ hc rfl
          · exact hdiff c hc hin
    · have hne : ∀ c ∈ changes, c.1 ≠ affUser.1 := fun c hc heq =>
        hchanged (heq ▸ mem_map_of_mem hc)
      have hrest : ∀ c ∈ changes, c.1 ∈ users aan := fun c hc =>
        (mem_cons.1 (hmem c hc)).resolve_left (hne c hc)
      rw [applyAffUsersChangeLoop_keep htwice hchanged]
      refine (ih htail hchanges hrest (affUser :: nau) cd).imp_right ?_
      rintro ⟨hok, hnodup, hdiff⟩
      refine ⟨?_, hnodup, fun c hc hin => ?_⟩
      · rw [hok, filterMap_cons_some (updated_of_notMem hchanged), reverse_cons,
          append_assoc, singleton_append]
      · rcases mem_cons.1 hin with rfl | hin
        · exact hne _ hc rfl
        · exact hdiff c hc hin

/-! ## What a request does -/

variable (affUsers : AffUsers U)

theorem sort_perm : (sort affUsers).Perm affUsers := perm_insertionSort _ affUsers

theorem pairwise_sort : (sort affUsers).Pairwise fun a b => a.1 ≤ b.1 := by
  have : Std.Total fun a b : U × Aff => toLex a ≤ toLex b :=
    ⟨fun a b => le_total (toLex a) (toLex b)⟩
  have : IsTrans (U × Aff) fun a b => toLex a ≤ toLex b := ⟨fun _ _ _ => le_trans⟩
  refine (pairwise_insertionSort (fun a b => toLex a ≤ toLex b) affUsers).imp ?_
  intro a b hab
  rcases Prod.Lex.le_iff.1 hab with hlt | ⟨heq, _⟩
  · exact le_of_lt hlt
  · exact le_of_eq heq

theorem pairwise_sort_of_nodup {affUsers : AffUsers U} (h : (users affUsers).Nodup) :
    (sort affUsers).Pairwise fun a b => a.1 < b.1 := by
  have hnodup : (users (sort affUsers)).Nodup := ((sort_perm affUsers).map Prod.fst).nodup_iff.2 h
  exact (pairwise_sort affUsers).imp₂ (fun _ _ => lt_of_le_of_ne) (pairwise_map.1 hnodup)

section Merge

variable {aan changes : AffUsers U}

/-- What is left of the occupants is in their order. -/
theorem users_filterMap_updated_sublist (aan changes : AffUsers U) :
    (users (aan.filterMap (updated changes))).Sublist (users aan) := by
  induction aan with
  | nil => exact List.Sublist.refl _
  | cons affUser aan ih =>
    rw [filterMap_cons]
    split
    · exact ih.cons _
    · next new hnew =>
      have huser : new.1 = affUser.1 := by
        rw [updated] at hnew
        split at hnew
        · cases hnew
        · exact (congrArg Prod.fst (Option.some.inj hnew)).symm
        · exact (congrArg Prod.fst (Option.some.inj hnew)).symm
      rw [users, map_cons, huser]
      exact ih.cons_cons _

theorem affOf_filterMap_updated (hnodup : (users aan).Nodup)
    (hmem : ∀ c ∈ changes, c.1 ∈ users aan) (user : U) :
    affOf (aan.filterMap (updated changes)) user = (changes.lookup user).getD (affOf aan user) := by
  have hnew : (users (aan.filterMap (updated changes))).Nodup :=
    (users_filterMap_updated_sublist aan changes).nodup hnodup
  have hin (aff : Aff) : (user, aff) ∈ aan.filterMap (updated changes) ↔
      ∃ aff', (user, aff') ∈ aan ∧ updated changes (user, aff') = some (user, aff) := by
    rw [mem_filterMap]
    constructor
    · rintro ⟨⟨user', aff'⟩, hold, hupd⟩
      have huser : user' = user := by
        rw [updated] at hupd
        split at hupd
        · cases hupd
        · exact congrArg Prod.fst (Option.some.inj hupd)
        · exact congrArg Prod.fst (Option.some.inj hupd)
      subst huser
      exact ⟨aff', hold, hupd⟩
    · rintro ⟨aff', hold, hupd⟩
      exact ⟨_, hold, hupd⟩
  cases hchange : changes.lookup user with
  | none =>
    -- an occupant without a change
    have hupd (aff' : Aff) : updated changes (user, aff') = some (user, aff') := by
      rw [updated, hchange]
    have hsame (aff : Aff) : (user, aff) ∈ aan.filterMap (updated changes) ↔ (user, aff) ∈ aan := by
      rw [hin]
      constructor
      · rintro ⟨aff', hold, heq⟩
        rw [hupd] at heq
        exact (Prod.mk.inj (Option.some.inj heq)).2 ▸ hold
      · exact fun hold => ⟨aff, hold, hupd aff⟩
    have hlookup : (aan.filterMap (updated changes)).lookup user = aan.lookup user :=
      Option.ext fun aff => by
        rw [lookup_eq_some_iff hnew, lookup_eq_some_iff hnodup, hsame]
    rw [affOf, hlookup]
    rfl
  | some newAff =>
    have huser : user ∈ users aan := hmem _ (mem_of_lookup hchange)
    obtain ⟨⟨user', aff'⟩, hold, heq⟩ := mem_map.1 huser
    simp only at heq
    rw [heq] at hold
    simp only [Option.getD_some]
    by_cases hnone : newAff = .none
    · subst hnone
      have hout : (aan.filterMap (updated changes)).lookup user = none := by
        rw [Erlang.lookup_eq_none_iff]
        intro hmem'
        obtain ⟨⟨user'', aff⟩, hmem', heq'⟩ := mem_map.1 hmem'
        simp only at heq'
        rw [heq'] at hmem'
        obtain ⟨_, _, hupd⟩ := (hin aff).1 hmem'
        rw [updated, hchange] at hupd
        cases hupd
      rw [affOf, hout]
      rfl
    · rw [affOf_eq_iff hnew hnone, hin]
      refine ⟨aff', hold, ?_⟩
      rw [updated, hchange]
      cases newAff with
      | none => exact absurd rfl hnone
      | member => rfl
      | owner => rfl

end Merge

section Request

variable (lib : Proplists U) {au : AffUsers U} (auc : AffUsers U)

theorem mem_joiningUsers {user : U} :
    user ∈ (lib.getKeys auc).diff (lib.getKeys au) ↔ user ∈ users auc ∧ user ∉ users au := by
  rw [(lib.nodup auc).mem_sdiff_iff, lib.mem_iff, lib.mem_iff]

theorem nodup_affAndNewUsers (hau : WellFormed au) :
    (users (au ++ ((lib.getKeys auc).diff (lib.getKeys au)).map
    fun user => (user, Aff.none))).Nodup := by
  have hjoining : users (((lib.getKeys auc).diff (lib.getKeys au)).map
      fun user => (user, Aff.none)) = (lib.getKeys auc).diff (lib.getKeys au) := by
    rw [users, map_map]
    exact map_id' _
  rw [users, map_append]
  refine List.Nodup.append hau.nodup ?_ ?_
  · rw [← users, hjoining]
    exact (lib.nodup auc).diff
  · rw [← users, ← users, hjoining]
    exact fun user hold hnew => ((mem_joiningUsers lib auc).1 hnew).2 hold

/-- The occupants and the joining users, in their order. -/
def affAndNewUsers (au auc : AffUsers U) : AffUsers U :=
  sort (au ++ ((lib.getKeys auc).diff (lib.getKeys au)).map fun user => (user, Aff.none))

theorem applyAffUsersChange_eq : applyAffUsersChange lib au auc =
    (applyAffUsersChangeLoop (affAndNewUsers lib au auc) [] (sort auc) []).map fun done =>
    ⟨done.1, done.2, (lib.getKeys auc).diff (lib.getKeys au), usersWith .none auc⟩ := rfl

theorem pairwise_affAndNewUsers (hau : WellFormed au) :
    (affAndNewUsers lib au auc).Pairwise fun a b => a.1 < b.1 :=
  pairwise_sort_of_nodup (nodup_affAndNewUsers lib auc hau)

theorem mem_affAndNewUsers {user : U} {aff : Aff} : (user, aff) ∈ affAndNewUsers lib au auc ↔
    (user, aff) ∈ au ∨ (user ∈ users auc ∧ user ∉ users au) ∧ aff = .none := by
  rw [affAndNewUsers, (sort_perm _).mem_iff, mem_append, mem_map]
  refine or_congr_right ⟨?_, ?_⟩
  · rintro ⟨user', hmem, heq⟩
    cases heq
    exact ⟨(mem_joiningUsers lib auc).1 hmem, rfl⟩
  · rintro ⟨hmem, rfl⟩
    exact ⟨user, (mem_joiningUsers lib auc).2 hmem, rfl⟩

theorem affOf_affAndNewUsers (hau : WellFormed au) (user : U) :
    affOf (affAndNewUsers lib au auc) user = affOf au user := by
  have hnodup := nodup_keys_of_pairwise (pairwise_affAndNewUsers lib auc hau)
  refine affOf_congr hnodup hau.nodup fun aff hne => ?_
  rw [mem_affAndNewUsers]
  exact or_iff_left fun h => hne h.2

theorem mem_users_affAndNewUsers {c : U × Aff} (hc : c ∈ sort auc) :
    c.1 ∈ users (affAndNewUsers lib au auc) := by
  have huser : c.1 ∈ users auc := mem_map_of_mem ((sort_perm auc).mem_iff.1 hc)
  by_cases hold : c.1 ∈ users au
  · obtain ⟨⟨user, aff⟩, hin, heq⟩ := mem_map.1 hold
    have hmem : (user, aff) ∈ affAndNewUsers lib au auc :=
      (mem_affAndNewUsers lib auc).2 (Or.inl hin)
    exact mem_map.2 ⟨_, hmem, heq⟩
  · have hmem : (c.1, Aff.none) ∈ affAndNewUsers lib au auc :=
      (mem_affAndNewUsers lib auc).2 (Or.inr ⟨⟨huser, hold⟩, rfl⟩)
    exact mem_map.2 ⟨_, hmem, rfl⟩

/-- The occupants after the changes of the request. -/
def merged (au auc : AffUsers U) : AffUsers U :=
  (affAndNewUsers lib au auc).filterMap (updated (sort auc))

variable (hau : WellFormed au)
include hau

/-- Each user has the affiliation that the request names, or that of before. -/
theorem affOf_merged (hauc : (users auc).Nodup) (user : U) :
    affOf (merged lib au auc) user = (auc.lookup user).getD (affOf au user) := by
  have hnodup := nodup_keys_of_pairwise (pairwise_affAndNewUsers lib auc hau)
  have hsorted : (users (sort auc)).Nodup := ((sort_perm auc).map Prod.fst).nodup_iff.2 hauc
  rw [merged, affOf_filterMap_updated hnodup (fun c hc => mem_users_affAndNewUsers lib auc hc),
    affOf_affAndNewUsers lib auc hau, lookup_of_perm (sort_perm auc) hsorted]

/-- **What was asked for is what has changed.** -/
theorem mem_changes_iff (hauc : (users auc).Nodup)
    (hdiff : ∀ c ∈ sort auc, c ∉ affAndNewUsers lib au auc) (user : U) (aff : Aff) :
    (user, aff) ∈ auc ↔ affOf (merged lib au auc) user = aff ∧ affOf au user ≠ aff := by
  have hnodup := nodup_keys_of_pairwise (pairwise_affAndNewUsers lib auc hau)
  rw [affOf_merged lib auc hau hauc, ← lookup_eq_some_iff hauc]
  constructor
  · intro hlookup
    have hc := (sort_perm auc).mem_iff.2 (mem_of_lookup hlookup)
    obtain ⟨⟨user', aff'⟩, hin, heq⟩ := mem_map.1 (mem_users_affAndNewUsers lib auc hc)
    obtain rfl : user' = user := heq
    refine ⟨by rw [hlookup, Option.getD_some], fun hsame => hdiff _ hc ?_⟩
    rw [← affOf_affAndNewUsers lib auc hau, affOf_of_mem hnodup hin] at hsame
    exact hsame ▸ hin
  · rintro ⟨hnew, hne⟩
    rcases hlookup : auc.lookup user with _ | aff'
    · rw [hlookup] at hnew
      exact absurd hnew hne
    · rw [hlookup, Option.getD_some] at hnew
      rw [hnew]

/-- The occupants after the changes are a list of occupants. -/
theorem wellFormed_merged : WellFormed (merged lib au auc) := by
  constructor
  · have hsorted := pairwise_map.2 (pairwise_affAndNewUsers lib auc hau)
    exact pairwise_map.1 (hsorted.sublist (users_filterMap_updated_sublist _ (sort auc)))
  · rintro affUser hin
    obtain ⟨⟨user, aff⟩, hold, hupd⟩ := mem_filterMap.1 hin
    rw [updated] at hupd
    split at hupd
    · cases hupd
    · next hne heq =>
      rw [← Option.some.inj hupd]
      exact fun h => hne h
    · next hlookup =>
      rw [← Option.some.inj hupd]
      rcases (mem_affAndNewUsers lib auc).1 hold with hold | ⟨⟨hjoin, _⟩, _⟩
      · exact hau.ne_none _ hold
      · -- a joining user is among the changes
        rw [Erlang.lookup_eq_none_iff] at hlookup
        exact absurd (((sort_perm auc).map Prod.fst).mem_iff.2 hjoin) hlookup

theorem exactDiff_merged (hauc : (users auc).Nodup)
    (hdiff : ∀ c ∈ sort auc, c ∉ affAndNewUsers lib au auc) :
    ExactDiff au ⟨merged lib au auc, (sort auc).reverse,
    (lib.getKeys auc).diff (lib.getKeys au), usersWith .none auc⟩ := by
  have hchanged := mem_changes_iff lib auc hau hauc hdiff
  have hnew := wellFormed_merged lib auc hau
  have husers {user : U} : user ∈ users auc ↔ affOf (merged lib au auc) user ≠ affOf au user := by
    constructor
    · intro hin
      obtain ⟨⟨user', aff⟩, hchange, rfl⟩ := mem_map.1 hin
      obtain ⟨heq, hne⟩ := (hchanged _ _).1 hchange
      exact fun h => hne (h.symm.trans heq)
    · intro hne
      exact mem_map.2 ⟨_, (hchanged user _).2 ⟨rfl, hne.symm⟩, rfl⟩
  constructor
  · rw [users, map_reverse, nodup_reverse]
    exact ((sort_perm auc).map Prod.fst).nodup_iff.2 hauc
  · intro user aff
    rw [mem_reverse, (sort_perm auc).mem_iff]
    exact hchanged user aff
  · exact (lib.nodup auc).diff
  · intro user
    rw [mem_joiningUsers, husers, hnew.mem_users_iff]
    refine and_congr_left fun hold => ?_
    have hnone : affOf au user = .none := not_not.1 fun h => hold (hau.mem_users_iff.2 h)
    rw [hnone]
  · exact nodup_usersWith hauc
  · intro user
    rw [mem_usersWith, hchanged, hnew.mem_users_iff, hau.mem_users_iff, not_not]
    exact and_comm

/-- **The request is refused, or made as it is.** -/
theorem applyAffUsersChange_cases :
    (∃ text, applyAffUsersChange lib au auc = .error (.badRequest text)) ∨
    ∃ res, applyAffUsersChange lib au auc = .ok res ∧ WellFormed res.newAffUsers ∧
    ExactDiff au res ∧ (users auc).Nodup ∧
    (∀ user, affOf res.newAffUsers user = (auc.lookup user).getD (affOf au user)) := by
  rcases applyAffUsersChangeLoop_cases (pairwise_affAndNewUsers lib auc hau) (pairwise_sort auc)
    (fun c hc => mem_users_affAndNewUsers lib auc hc) [] [] with
    ⟨text, herror⟩ | ⟨hok, hnodup, hdiff⟩
  · exact Or.inl ⟨text, by rw [applyAffUsersChange_eq, herror]; rfl⟩
  · have hauc : (users auc).Nodup := ((sort_perm auc).map Prod.fst).nodup_iff.1 hnodup
    refine Or.inr ⟨_, ?_, wellFormed_merged lib auc hau, exactDiff_merged lib auc hau hauc hdiff,
      hauc, affOf_merged lib auc hau hauc⟩
    rw [applyAffUsersChange_eq, hok, append_nil]
    rfl

end Request

end MongooseIM.MucLight
