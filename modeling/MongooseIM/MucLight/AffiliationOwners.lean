import Mathlib.Data.List.Dedup
import MongooseIM.MucLight.AffiliationMerge

/-! # The owners after a change

Demoting the old owner and selecting a new one each change the affiliation of one occupant, and with
it the list of what has changed. -/

namespace MongooseIM.MucLight

open Erlang List

variable {U : Type*} [LinearOrder U] {affUsers : AffUsers U} {user : U}

theorem affOf_keyreplace (hmem : user ∈ users affUsers) (aff : Aff) (user' : U) :
    affOf (keyreplace user aff affUsers) user' =
    if user' = user then aff else affOf affUsers user' := by
  rw [affOf, lookup_keyreplace]
  split_ifs
  · cases hlookup : affUsers.lookup user with
    | none => exact absurd hmem (Erlang.lookup_eq_none_iff.1 hlookup)
    | some _ => rfl
  · rfl

theorem WellFormed.keyreplace (h : WellFormed affUsers)
    (hmem : user ∈ users affUsers) {aff : Aff} (haff : aff ≠ .none) :
    WellFormed (keyreplace user aff affUsers) := by
  have husers : users (Erlang.keyreplace user aff affUsers) = users affUsers :=
    map_fst_keyreplace user aff affUsers
  have hnodup : (users (Erlang.keyreplace user aff affUsers)).Nodup := husers ▸ h.nodup
  constructor
  · have hsorted : (users (Erlang.keyreplace user aff affUsers)).Pairwise (· < ·) := by
      rw [husers]
      exact pairwise_map.2 h.sorted
    exact pairwise_map.1 hsorted
  · rintro ⟨user', aff'⟩ hin
    have heq := affOf_of_mem hnodup hin
    rw [affOf_keyreplace hmem] at heq
    split_ifs at heq
    · exact heq ▸ haff
    · have hin' : user' ∈ users affUsers := husers ▸ mem_map.2 ⟨_, hin, rfl⟩
      exact heq ▸ h.mem_users_iff.1 hin'

section Patch

variable {au : AffUsers U} {res : ChangeSuccess U} {user : U}

/-- Who is not among the changed users has the affiliation of before. -/
theorem ExactDiff.affOf_eq (h : ExactDiff au res) (hnot : user ∉ users res.changedAffUsers) :
    affOf au user = affOf res.newAffUsers user := by
  by_contra hne
  exact hnot (mem_map.2 ⟨_, (h.mem_changed user _).2 ⟨rfl, hne⟩, rfl⟩)

variable {aff : Aff}

section

variable (h : ExactDiff au res)

include h

/-- A changed user is among the changes under the affiliation it has now. -/
theorem ExactDiff.notMem_of_notMem_usersWith
    (haff : affOf res.newAffUsers user = aff) (hnot : user ∉ usersWith aff res.changedAffUsers) :
    user ∉ users res.changedAffUsers := by
  intro hin
  obtain ⟨⟨user', aff'⟩, hchange, rfl⟩ := mem_map.1 hin
  have heq := ((h.mem_changed _ _).1 hchange).1
  rw [haff] at heq
  exact hnot (mem_usersWith.2 (heq ▸ hchange))

/-- **A patch of both lists in one place** keeps the difference exact. -/
theorem ExactDiff.set (hmem : user ∈ users res.newAffUsers)
    {changed : AffUsers U} (hnodup : (users changed).Nodup)
    (hchanged : ∀ user' aff', (user', aff') ∈ changed ↔
    if user' = user then aff = aff' ∧ affOf au user ≠ aff
    else (user', aff') ∈ res.changedAffUsers) :
    ExactDiff au { res with
    newAffUsers := keyreplace user aff res.newAffUsers
    changedAffUsers := changed } := by
  have husers : users (keyreplace user aff res.newAffUsers) = users res.newAffUsers :=
    map_fst_keyreplace user aff res.newAffUsers
  constructor
  · exact hnodup
  · intro user' aff'
    simp only
    rw [hchanged, affOf_keyreplace hmem]
    split_ifs with heq
    · subst heq
      refine and_congr_right ?_
      rintro rfl
      rfl
    · exact h.mem_changed user' aff'
  · exact h.joining_nodup
  · intro user'
    simp only [husers]
    exact h.mem_joining user'
  · exact h.leaving_nodup
  · intro user'
    simp only [husers]
    exact h.mem_leaving user'

theorem ExactDiff.set_cons
    (hmem : user ∈ users res.newAffUsers) (hnot : user ∉ users res.changedAffUsers)
    (haff : affOf res.newAffUsers user ≠ aff) :
    ExactDiff au { res with
    newAffUsers := keyreplace user aff res.newAffUsers
    changedAffUsers := (user, aff) :: res.changedAffUsers } := by
  refine h.set hmem (nodup_cons.2 ⟨hnot, h.changed_nodup⟩) fun user' aff' => ?_
  rw [mem_cons]
  split_ifs with heq
  · subst heq
    have hno : (user', aff') ∉ res.changedAffUsers := fun hin =>
      hnot (mem_map.2 ⟨_, hin, rfl⟩)
    rw [h.affOf_eq hnot]
    constructor
    · rintro (heq | hin)
      · exact ⟨(Prod.mk.inj heq).2.symm, haff⟩
      · exact absurd hin hno
    · rintro ⟨rfl, _⟩
      exact Or.inl rfl
  · exact or_iff_right fun hpair => heq (Prod.mk.inj hpair).1

theorem ExactDiff.set_keyreplace (hnew : WellFormed res.newAffUsers)
    (hau : WellFormed au) (hjoining : user ∈ res.joiningUsers)
    (haff : aff ≠ .none) :
    ExactDiff au { res with
    newAffUsers := Erlang.keyreplace user aff res.newAffUsers
    changedAffUsers := Erlang.keyreplace user aff res.changedAffUsers } := by
  obtain ⟨hmem, hold⟩ := (h.mem_joining user).1 hjoining
  have hnone : affOf au user = .none := not_not.1 fun h => hold (hau.mem_users_iff.2 h)
  have hnodup : (users (Erlang.keyreplace user aff res.changedAffUsers)).Nodup := by
    rw [users, map_fst_keyreplace]
    exact h.changed_nodup
  refine h.set hmem hnodup fun user' aff' => ?_
  rw [← lookup_eq_some_iff hnodup, lookup_keyreplace]
  split_ifs with heq
  · have hchange : (user, affOf res.newAffUsers user) ∈ res.changedAffUsers := by
      refine (h.mem_changed user _).2 ⟨rfl, ?_⟩
      rw [hnone]
      exact (hnew.mem_users_iff.1 hmem).symm
    rw [lookup_of_mem h.changed_nodup hchange, hnone]
    simp [haff.symm]
  · exact lookup_eq_some_iff h.changed_nodup

theorem ExactDiff.set_keydelete (hmem : user ∈ users res.newAffUsers) (haff : affOf au user = aff) :
    ExactDiff au { res with
    newAffUsers := Erlang.keyreplace user aff res.newAffUsers
    changedAffUsers := keydelete user res.changedAffUsers } := by
  have hnodup : (users (keydelete user res.changedAffUsers)).Nodup :=
    ((keydelete_sublist user res.changedAffUsers).map Prod.fst).nodup h.changed_nodup
  refine h.set hmem hnodup fun user' aff' => ?_
  rw [← lookup_eq_some_iff hnodup, lookup_keydelete h.changed_nodup]
  split_ifs with heq
  · simp [haff]
  · exact lookup_eq_some_iff h.changed_nodup

end

end Patch

omit [LinearOrder U] in
/-- A list of distinct users with one user in it. -/
theorem length_eq_one_of_forall_mem {l : List U} (hnodup : l.Nodup) (user : U)
    (h : ∀ user', user' ∈ l ↔ user' = user) : l.length = 1 := by
  have hperm : l.Perm [user] := by
    refine (perm_ext_iff_of_nodup hnodup (nodup_singleton user)).2 fun user' => ?_
    rw [h, mem_singleton]
  rw [hperm.length_eq, length_singleton]

section Owners

variable {au : AffUsers U} {res : ChangeSuccess U} {user : U}

/-- When the only occupant with an affiliation is set, there is one. -/
theorem length_usersWith_keyreplace {affUsers : AffUsers U} (h : WellFormed affUsers)
    (hmem : user ∈ users affUsers) {aff aff' : Aff} (haff : aff ≠ .none) (haff' : aff' ≠ .none)
    (user' : U) (honly : ∀ u, (if u = user then aff else affOf affUsers u) = aff' ↔ u = user') :
    (usersWith aff' (Erlang.keyreplace user aff affUsers)).length = 1 := by
  have hnodup := (h.keyreplace hmem haff).nodup
  refine length_eq_one_of_forall_mem (nodup_usersWith hnodup) user' fun u => ?_
  rw [mem_usersWith, ← affOf_eq_iff hnodup haff', affOf_keyreplace hmem]
  exact honly u

/-- In a room with no owner every occupant is a member. -/
theorem affOf_eq_member (hnew : WellFormed res.newAffUsers)
    (hnoOwner : usersWith .owner res.newAffUsers = []) :
    affOf res.newAffUsers user = .member ↔ user ∈ users res.newAffUsers := by
  rw [hnew.mem_users_iff]
  cases haff : affOf res.newAffUsers user with
  | none => decide
  | member => decide
  | owner =>
    have hin := mem_usersWith.2 ((affOf_eq_iff hnew.nodup (by decide)).1 haff)
    rw [hnoOwner] at hin
    cases hin

/-- A member the change has made, who has not joined, was the owner. -/
theorem ExactDiff.affOf_demoted (hdiff : ExactDiff au res) (hau : WellFormed au)
    (hnew : WellFormed res.newAffUsers) (hnot : user ∉ res.joiningUsers)
    (hin : user ∈ usersWith .member res.changedAffUsers) : affOf au user = .owner := by
  obtain ⟨haff, hne⟩ := (hdiff.mem_changed user .member).1 (mem_usersWith.1 hin)
  cases hwas : affOf au user with
  | owner => rfl
  | member => exact absurd hwas hne
  | none =>
    have hout : user ∉ users au := fun h => hau.mem_users_iff.1 h hwas
    have hmem : user ∈ users res.newAffUsers := by
      rw [hnew.mem_users_iff, haff]
      decide
    exact absurd ((hdiff.mem_joining user).2 ⟨hmem, hout⟩) hnot

/-- **A new owner is selected when there is none**, and there is somebody in the room. -/
theorem maybeSelectNewOwner_cases (hau : WellFormed au) (hnew : WellFormed res.newAffUsers)
    (hdiff : ExactDiff au res) :
    (maybeSelectNewOwner res = res ∧
    (usersWith .owner res.newAffUsers ≠ [] ∨ res.newAffUsers = [])) ∨
    ∃ newOwner, usersWith .owner res.newAffUsers = [] ∧ affOf res.newAffUsers newOwner = .member ∧
    (maybeSelectNewOwner res).newAffUsers = Erlang.keyreplace newOwner .owner res.newAffUsers ∧
    ExactDiff au (maybeSelectNewOwner res) := by
  by_cases hneeded : isNewOwnerNeeded res.newAffUsers = true
  swap
  · refine Or.inl ⟨?_, Or.inl fun hnil => hneeded (findAff_isNone_iff.2 hnil)⟩
    rw [maybeSelectNewOwner, if_neg hneeded]
  have hnoOwner : usersWith .owner res.newAffUsers = [] := findAff_isNone_iff.1 hneeded
  have hmember {user : U} : affOf res.newAffUsers user = .member ↔ user ∈ users res.newAffUsers :=
    affOf_eq_member hnew hnoOwner
  have hold {user : U} : user ∈ (usersWith .member res.newAffUsers).diff
      (usersWith .member res.changedAffUsers) ↔
        affOf res.newAffUsers user = .member ∧ user ∉ usersWith .member res.changedAffUsers := by
    rw [(nodup_usersWith hnew.nodup).mem_sdiff_iff, mem_usersWith,
      affOf_eq_iff hnew.nodup (by decide)]
  have hdemoted {user : U} : user ∈ (usersWith .member res.changedAffUsers).diff res.joiningUsers ↔
        user ∈ usersWith .member res.changedAffUsers ∧ user ∉ res.joiningUsers :=
    (nodup_usersWith hdiff.changed_nodup).mem_sdiff_iff
  rw [maybeSelectNewOwner, if_pos hneeded, findNewOwner]
  cases holdMembers : (usersWith .member res.newAffUsers).diff
      (usersWith .member res.changedAffUsers) with
  | cons newOwner _ =>
    -- an old member, who is not among the changes
    obtain ⟨haff, hnotIn⟩ := hold.1 (holdMembers ▸ mem_cons_self)
    refine Or.inr ⟨newOwner, hnoOwner, haff, rfl, ?_⟩
    have hnot := hdiff.notMem_of_notMem_usersWith haff hnotIn
    exact hdiff.set_cons (hmember.1 haff) hnot (by rw [haff]; decide)
  | nil =>
    cases hjoining : res.joiningUsers with
    | cons newOwner _ =>
      have hin : newOwner ∈ res.joiningUsers := hjoining ▸ mem_cons_self
      have haff := hmember.2 ((hdiff.mem_joining newOwner).1 hin).1
      refine Or.inr ⟨newOwner, hnoOwner, haff, rfl, ?_⟩
      have hne : Aff.owner ≠ .none := by decide
      have hset := hdiff.set_keyreplace hnew hau hin hne
      rw [hjoining] at hset
      exact hset
    | nil =>
      rw [hjoining] at hdemoted
      cases hdemotedOwners : (usersWith .member res.changedAffUsers).diff [] with
      | cons newOwner _ =>
        -- a member now, who was neither one before nor new
        have hin := (hdemoted.1 (hdemotedOwners ▸ mem_cons_self)).1
        have haff := ((hdiff.mem_changed newOwner .member).1 (mem_usersWith.1 hin)).1
        have hnot : newOwner ∉ res.joiningUsers := hjoining ▸ not_mem_nil
        refine Or.inr ⟨newOwner, hnoOwner, haff, rfl, ?_⟩
        have hset := hdiff.set_keydelete (hmember.1 haff) (hdiff.affOf_demoted hau hnew hnot hin)
        rw [hjoining] at hset
        exact hset
      | nil =>
        -- nobody is left
        refine Or.inl ⟨rfl, Or.inr (eq_nil_iff_forall_not_mem.2 ?_)⟩
        rintro ⟨user, aff⟩ hin
        have haff := hmember.2 (mem_map.2 ⟨_, hin, rfl⟩)
        have hnotNew : user ∉ usersWith .member res.changedAffUsers := by
          intro hin'
          have hleft := hdemoted.2 ⟨hin', not_mem_nil⟩
          rw [hdemotedOwners] at hleft
          cases hleft
        have hleft := hold.2 ⟨haff, hnotNew⟩
        rw [holdMembers] at hleft
        cases hleft

/-- **The old owner is demoted when there are two**, one of whom the request promotes. -/
theorem maybeDemoteOldOwner_cases (hnew : WellFormed res.newAffUsers) (hdiff : ExactDiff au res) :
    (∃ text, maybeDemoteOldOwner res = .error (.badRequest text)) ∨
    (maybeDemoteOldOwner res = .ok res ∧ (usersWith .owner res.newAffUsers).length ≤ 1) ∨
    ∃ oldOwner res', maybeDemoteOldOwner res = .ok res' ∧
    affOf res.newAffUsers oldOwner = .owner ∧ oldOwner ∉ users res.changedAffUsers ∧
    res'.newAffUsers = Erlang.keyreplace oldOwner .member res.newAffUsers ∧
    (usersWith .owner res'.newAffUsers).length = 1 ∧ ExactDiff au res' := by
  rw [maybeDemoteOldOwner]
  by_cases hone : (usersWith .owner res.newAffUsers).length ≤ 1
  · exact Or.inr (Or.inl ⟨if_pos hone, hone⟩)
  simp only [hone, if_false]
  have hownersNodup : (usersWith .owner res.newAffUsers).Nodup := nodup_usersWith hnew.nodup
  have howner {user : U} : user ∈ usersWith .owner res.newAffUsers ↔
      affOf res.newAffUsers user = .owner := by
    rw [mem_usersWith, affOf_eq_iff hnew.nodup (by decide)]
  have hold {user : U} : user ∈ (usersWith .owner res.newAffUsers).diff
      (usersWith .owner res.changedAffUsers) ↔
        affOf res.newAffUsers user = .owner ∧ user ∉ usersWith .owner res.changedAffUsers := by
    rw [hownersNodup.mem_sdiff_iff, howner]
  split
  · next first second oldOwner howners holdOwners =>
    refine Or.inr (Or.inr ?_)
    obtain ⟨haff, hnotIn⟩ := hold.1 (holdOwners ▸ mem_singleton_self oldOwner)
    have hmem : oldOwner ∈ users res.newAffUsers := by
      rw [hnew.mem_users_iff, haff]
      decide
    have hnot := hdiff.notMem_of_notMem_usersWith haff hnotIn
    refine ⟨oldOwner, _, rfl, haff, hnot, rfl, ?_, hdiff.set_cons hmem hnot (by rw [haff]; decide)⟩
    -- the other one of the two is the only owner now
    rw [howners] at hownersNodup howner
    have hne : first ≠ second := by simpa using hownersNodup
    rcases mem_pair.1 (howner.2 haff) with rfl | rfl
    · refine length_usersWith_keyreplace hnew hmem (by decide) (by decide) second fun user => ?_
      split_ifs with heq
      · simp [heq, hne]
      · rw [← howner, mem_pair]
        exact or_iff_right heq
    · refine length_usersWith_keyreplace hnew hmem (by decide) (by decide) first fun user => ?_
      split_ifs with heq
      · simp [heq, hne.symm]
      · rw [← howner, mem_pair]
        exact or_iff_left heq
  · exact Or.inl ⟨_, rfl⟩

end Owners

section Change

variable {au : AffUsers U} {res : ChangeSuccess U}

/-- After the selection the room is empty, or it had an owner, or it has the one selected. -/
theorem maybeSelectNewOwner_wellFormed (hau : WellFormed au) (hnew : WellFormed res.newAffUsers)
    (hdiff : ExactDiff au res) :
    WellFormed (maybeSelectNewOwner res).newAffUsers ∧ ExactDiff au (maybeSelectNewOwner res) ∧
    ((maybeSelectNewOwner res).newAffUsers = [] ∨
      maybeSelectNewOwner res = res ∧ usersWith .owner res.newAffUsers ≠ [] ∨
      (usersWith .owner (maybeSelectNewOwner res).newAffUsers).length = 1) := by
  rcases maybeSelectNewOwner_cases hau hnew hdiff with
    ⟨hsame, howner⟩ | ⟨newOwner, hnoOwner, haff, hset, hdiff'⟩
  · rw [hsame]
    refine ⟨hnew, hdiff, ?_⟩
    rcases howner with howner | hempty
    · exact Or.inr (Or.inl ⟨rfl, howner⟩)
    · exact Or.inl hempty
  · have hmem : newOwner ∈ users res.newAffUsers := by
      rw [hnew.mem_users_iff, haff]
      decide
    have hne : Aff.owner ≠ .none := by decide
    refine ⟨hset ▸ hnew.keyreplace hmem hne, hdiff', Or.inr (Or.inr ?_)⟩
    rw [hset]
    refine length_usersWith_keyreplace hnew hmem hne hne newOwner fun user => ?_
    split_ifs with heq
    · simp [heq]
    · -- nobody else is an owner
      refine iff_of_false (fun howner => ?_) heq
      have hin := mem_usersWith.2 ((affOf_eq_iff hnew.nodup hne).1 howner)
      rw [hnoOwner] at hin
      cases hin

/-- **A change of affiliations is refused, or it is exact and leaves a well-formed list**, with the
owners there must be when they were there. -/
theorem changeAffUsers_cases (lib : Proplists U) (allowMultipleOwners : Bool)
    (hau : WellFormed au) (auc : AffUsers U) :
    (∃ text, changeAffUsers lib allowMultipleOwners au auc = .error (.badRequest text)) ∨
    ∃ res, changeAffUsers lib allowMultipleOwners au auc = .ok res ∧
    WellFormed res.newAffUsers ∧ ExactDiff au res ∧
    (OwnersOk allowMultipleOwners au →
      res.newAffUsers = [] ∨ OwnersOk allowMultipleOwners res.newAffUsers) := by
  rw [changeAffUsers]
  have happly := applyAffUsersChange_cases lib auc hau
  split
  · next hnoOwner _ =>
    -- an ownerless room, which the hypothesis of the last part excludes
    have hnil : usersWith .owner au = [] :=
      findAff_isNone_iff.1 (Option.isNone_iff_eq_none.2 hnoOwner)
    have hnotOk : ¬ OwnersOk allowMultipleOwners au := by
      rw [OwnersOk, hnil]
      split <;> simp
    rcases happly with herror | ⟨res, hok, hnew, hdiff, _⟩
    · exact Or.inl herror
    · exact Or.inr ⟨res, hok, hnew, hdiff, fun h => absurd h hnotOk⟩
  · exact Or.inl ⟨_, rfl⟩
  · rcases happly with ⟨text, herror⟩ | ⟨res, hok, hnew, hdiff, _⟩
    · exact Or.inl ⟨text, by rw [herror]; rfl⟩
    rw [hok]
    cases allowMultipleOwners with
    | true =>
      obtain ⟨hnew', hdiff', howners⟩ := maybeSelectNewOwner_wellFormed hau hnew hdiff
      refine Or.inr ⟨maybeSelectNewOwner res, rfl, hnew', hdiff', fun _ => ?_⟩
      rcases howners with hempty | ⟨hsame, howner⟩ | hone
      · exact Or.inl hempty
      · rw [hsame]
        exact Or.inr (length_pos_iff.2 howner)
      · exact Or.inr (le_of_eq hone.symm)
    | false =>
      rcases maybeDemoteOldOwner_cases hnew hdiff with
        ⟨text, herror⟩ | ⟨hsame, hle⟩ | ⟨oldOwner, res', hdemote, haff, _, hset, hone, hdiff'⟩
      · refine Or.inl ⟨text, ?_⟩
        show (maybeDemoteOldOwner res >>= fun demoted => pure (maybeSelectNewOwner demoted)) = _
        rw [herror]
        rfl
      · obtain ⟨hnew', hdiff', howners⟩ := maybeSelectNewOwner_wellFormed hau hnew hdiff
        refine Or.inr ⟨maybeSelectNewOwner res, ?_, hnew', hdiff', fun _ => ?_⟩
        · show (maybeDemoteOldOwner res >>= fun demoted =>
            pure (maybeSelectNewOwner demoted)) = _
          rw [hsame]
          rfl
        · rcases howners with hempty | ⟨hkept, howner⟩ | hone
          · exact Or.inl hempty
          · rw [hkept]
            exact Or.inr (le_antisymm hle (length_pos_iff.2 howner))
          · exact Or.inr hone
      · have hmem : oldOwner ∈ users res.newAffUsers := by
          rw [hnew.mem_users_iff, haff]
          decide
        have hwf : WellFormed res'.newAffUsers := hset ▸ hnew.keyreplace hmem (by decide)
        obtain ⟨hnew', hdiff'', howners⟩ := maybeSelectNewOwner_wellFormed hau hwf hdiff'
        refine Or.inr ⟨maybeSelectNewOwner res', ?_, hnew', hdiff'', fun _ => ?_⟩
        · show (maybeDemoteOldOwner res >>= fun demoted =>
            pure (maybeSelectNewOwner demoted)) = _
          rw [hdemote]
          rfl
        · rcases howners with hempty | ⟨hkept, _⟩ | hone'
          · exact Or.inl hempty
          · rw [hkept]
            exact Or.inr hone
          · exact Or.inr hone'

end Change

/-- **Who joins by a change that is made**: those it names who were not there. -/
theorem mem_joiningUsers_of_changeAffUsers {lib : Proplists U} {allowMultipleOwners : Bool}
    {auc : AffUsers U} (h : changeAffUsers lib allowMultipleOwners au auc = .ok res) {user : U} :
    user ∈ res.joiningUsers ↔ user ∈ users auc ∧ user ∉ users au := by
  have happly {res : ChangeSuccess U} (h : applyAffUsersChange lib au auc = .ok res) :
      user ∈ res.joiningUsers ↔ user ∈ users auc ∧ user ∉ users au := by
    cases hloop : applyAffUsersChangeLoop (affAndNewUsers lib au auc) [] (sort auc) [] with
    | error failure =>
      rw [applyAffUsersChange_eq, hloop] at h
      cases h
    | ok out =>
      rw [applyAffUsersChange_eq, hloop] at h
      cases h
      exact mem_joiningUsers lib auc
  -- the owners are chosen among those who are there then
  have hselect (res : ChangeSuccess U) :
      (maybeSelectNewOwner res).joiningUsers = res.joiningUsers := by
    rw [maybeSelectNewOwner]
    split_ifs
    · split <;> rfl
    · rfl
  have hdemote {res res' : ChangeSuccess U} (h : maybeDemoteOldOwner res = .ok res') :
      res'.joiningUsers = res.joiningUsers := by
    simp only [maybeDemoteOldOwner] at h
    split_ifs at h
    · cases h
      rfl
    · split at h
      · cases h
        rfl
      · cases h
  rw [changeAffUsers] at h
  split at h
  · exact happly h
  · cases h
  · cases hres : applyAffUsersChange lib au auc with
    | error failure =>
      rw [hres] at h
      cases h
    | ok applied =>
      rw [hres] at h
      cases allowMultipleOwners with
      | true =>
        cases h
        rw [hselect]
        exact happly hres
      | false =>
        cases hdem : maybeDemoteOldOwner applied with
        | error failure => simp [bind, Except.bind, hdem] at h
        | ok demoted =>
          simp only [bind, Except.bind, hdem, pure, Except.pure] at h
          cases h
          rw [hselect, hdemote hdem]
          exact happly hres

/-- **A room stays well-formed and the difference is exact.** -/
theorem changeAffUsers_wellFormed (lib : Proplists U) (allowMultipleOwners : Bool)
    {au : AffUsers U} (hau : WellFormed au) (howners : OwnersOk allowMultipleOwners au)
    (auc : AffUsers U) :
    (∃ text, changeAffUsers lib allowMultipleOwners au auc = .error (.badRequest text)) ∨
    ∃ res, changeAffUsers lib allowMultipleOwners au auc = .ok res ∧ WellFormed res.newAffUsers ∧
    (res.newAffUsers = [] ∨ OwnersOk allowMultipleOwners res.newAffUsers) ∧
    ExactDiff au res := by
  rcases changeAffUsers_cases lib allowMultipleOwners hau auc with
    herror | ⟨res, hok, hnew, hdiff, hkept⟩
  · exact Or.inl herror
  · exact Or.inr ⟨res, hok, hnew, hkept howners, hdiff⟩

/-- The keys, each where it comes last. -/
def dedupProplists : Proplists U where
  getKeys affUsers := (users affUsers).dedup
  nodup _ := List.nodup_dedup _
  mem_iff _ _ := List.mem_dedup

/-- The owner leaves and a user joins: the member of before is the owner now. -/
theorem changeAffUsers_wellFormed_leave :
    ∃ res, changeAffUsers (U := ℕ) dedupProplists false [(1, .owner), (2, .member)]
      [(1, .none), (3, .member)] = .ok res ∧
    res.newAffUsers = [(2, .owner), (3, .member)] ∧ ExactDiff [(1, .owner), (2, .member)] res := by
  have hrun : changeAffUsers (U := ℕ) dedupProplists false [(1, .owner), (2, .member)]
      [(1, .none), (3, .member)] =
        .ok ⟨[(2, .owner), (3, .member)], [(2, .owner), (3, .member), (1, .none)], [3], [1]⟩ := by
    rfl
  have hau : WellFormed (U := ℕ) [(1, .owner), (2, .member)] := ⟨by decide, by decide⟩
  rcases changeAffUsers_wellFormed dedupProplists false hau rfl [(1, .none), (3, .member)] with
    ⟨text, herror⟩ | ⟨res, hok, _, _, hdiff⟩
  · rw [hrun] at herror
    cases herror
  · rw [hrun] at hok
    cases hok
    exact ⟨_, hrun, rfl, hdiff⟩

end MongooseIM.MucLight
