import Mathlib.Data.Prod.Lex
import MongooseIM.Erlang.Lists

/-! # Changes of affiliations

`change_aff_users/3` merges a list of requested changes into the list of the occupants of a room. In
a room with one owner it demotes the old owner when another one is named, and it finds a new owner
when none is left; each of these patches the list of what has changed. -/

namespace MongooseIM.MucLight

open Erlang

/-- `aff()`, in the order of the atoms. -/
inductive Aff
  | member
  | none
  | owner
  deriving DecidableEq

namespace Aff

/-- The place of an atom in the term order. -/
def rank : Aff → ℕ
  | .member => 0
  | .none => 1
  | .owner => 2

theorem rank_injective : Function.Injective rank := by
  intro a b h
  cases a <;> cases b <;> first | rfl | cases h

instance : LinearOrder Aff := LinearOrder.lift' rank rank_injective

end Aff

variable {U : Type*} [LinearOrder U]

/-- `aff_users()` -/
abbrev AffUsers (U : Type*) := List (U × Aff)

variable (affUsers : AffUsers U)

/-- `[U || {U, _} <- AffUsers]` -/
abbrev users : List U := affUsers.map Prod.fst

/-- `[U || {U, Aff} <- AffUsers]` -/
def usersWith (aff : Aff) (affUsers : AffUsers U) : List U :=
  users (affUsers.filter fun affUser => affUser.2 = aff)

/-- `lists:keyfind(Aff, 2, AffUsers)` -/
def findAff (aff : Aff) (affUsers : AffUsers U) : Option (U × Aff) :=
  affUsers.find? fun affUser => affUser.2 = aff

/-- `lists:sort/1` on pairs. -/
def sort : AffUsers U :=
  affUsers.insertionSort fun a b => toLex a ≤ toLex b

/-- `proplists:get_keys/1`: every key once, in an order that is not specified. -/
structure Proplists (U : Type*) where
  getKeys : AffUsers U → List U
  nodup : ∀ affUsers, (getKeys affUsers).Nodup
  mem_iff : ∀ affUsers user, user ∈ getKeys affUsers ↔ user ∈ users affUsers

/-- What a change of affiliations ends with other than success. -/
inductive Failure
  /-- `{error, {bad_request, Text}}` -/
  | badRequest (text : String)
  | functionClause

/-- `change_aff_success()` -/
structure ChangeSuccess (U : Type*) where
  newAffUsers : AffUsers U
  changedAffUsers : AffUsers U
  joiningUsers : List U
  leavingUsers : List U

/-! ## The merge -/

/-- Whether the list starts with two changes of one user. -/
def startsTwice : AffUsers U → Bool
  | (user, _) :: (user', _) :: _ => user = user'
  | _ => false

/-- The text for a request that names one user twice. -/
def sameUserTwice : String :=
  "Cannot change affiliation for the same user twice in the same request"

/-- `apply_aff_users_change/4` -/
def applyAffUsersChangeLoop :
    AffUsers U → AffUsers U → AffUsers U → AffUsers U → Except Failure (AffUsers U × AffUsers U)
  | [], nau, auc, cd =>
    if auc = [] then .ok (nau.reverse, cd)
    else if startsTwice auc then .error (.badRequest sameUserTwice)
    else .error .functionClause
  | (user, aff) :: rau, nau, auc, cd =>
    if startsTwice auc then .error (.badRequest sameUserTwice)
    else
      match auc with
      | [] => applyAffUsersChangeLoop rau ((user, aff) :: nau) [] cd
      | (user', newAff) :: rauc =>
        if user = user' then
          if aff = newAff then .error (.badRequest "Meaningless change")
          -- removing user from the room
          else if newAff = .none then applyAffUsersChangeLoop rau nau rauc ((user, .none) :: cd)
          -- adding new member to a room; changing affiliation, owner -> member or member -> owner
          else applyAffUsersChangeLoop rau ((user, newAff) :: nau) rauc ((user, newAff) :: cd)
        -- keep user affiliation unchanged
        else applyAffUsersChangeLoop rau ((user, aff) :: nau) ((user', newAff) :: rauc) cd

/-- `apply_aff_users_change/2` -/
def applyAffUsersChange (lib : Proplists U) (au auc : AffUsers U) :
    Except Failure (ChangeSuccess U) :=
  let joiningUsers := (lib.getKeys auc).diff (lib.getKeys au)
  let affAndNewUsers := sort (au ++ joiningUsers.map fun user => (user, Aff.none))
  let affChanges := sort auc
  let leavingUsers := usersWith .none auc
  (applyAffUsersChangeLoop affAndNewUsers [] affChanges []).map fun (newAffUsers, changesDone) =>
    ⟨newAffUsers, changesDone, joiningUsers, leavingUsers⟩

/-! ## The owners -/

/-- `promotion_type()` -/
inductive PromotionType
  | promoteOldMember
  | promoteJoinedMember
  | promoteDemotedOwner

/-- `select_promotion/3` -/
def selectPromotion : List U → List U → List U → Option (U × PromotionType)
  | user :: _, _, _ => some (user, .promoteOldMember)
  | [], user :: _, _ => some (user, .promoteJoinedMember)
  | [], [], user :: _ => some (user, .promoteDemotedOwner)
  | [], [], [] => none

/-- `find_new_owner/3` -/
def findNewOwner (au auc : AffUsers U) (joiningUsers : List U) : Option (U × PromotionType) :=
  let allMembers := usersWith .member au
  let newMembers := usersWith .member auc
  let oldMembers := allMembers.diff newMembers
  let demotedOwners := newMembers.diff joiningUsers
  selectPromotion oldMembers joiningUsers demotedOwners

/-- `is_new_owner_needed/1` -/
def isNewOwnerNeeded (au : AffUsers U) : Bool := (findAff .owner au).isNone

/-- `update_auc/3` -/
def updateAuc : PromotionType → U → AffUsers U → AffUsers U
  | .promoteOldMember, newOwner, auc => (newOwner, .owner) :: auc
  | .promoteJoinedMember, newOwner, auc => keyreplace newOwner .owner auc
  | .promoteDemotedOwner, newOwner, auc => keydelete newOwner auc

variable (res : ChangeSuccess U)

/-- `maybe_select_new_owner/1` of a success. -/
def maybeSelectNewOwner : ChangeSuccess U :=
  if isNewOwnerNeeded res.newAffUsers then
    match findNewOwner res.newAffUsers res.changedAffUsers res.joiningUsers with
    | some (newOwner, promotionType) =>
      { res with
        newAffUsers := keyreplace newOwner .owner res.newAffUsers
        changedAffUsers := updateAuc promotionType newOwner res.changedAffUsers }
    | none => res
  else res

/-- `maybe_demote_old_owner/1` of a success. -/
def maybeDemoteOldOwner : Except Failure (ChangeSuccess U) :=
  let owners := usersWith .owner res.newAffUsers
  let promotedOwners := usersWith .owner res.changedAffUsers
  let oldOwners := owners.diff promotedOwners
  if owners.length ≤ 1 then .ok res
  else
    match owners, oldOwners with
    | [_, _], [oldOwner] =>
      .ok
        { res with
          newAffUsers := keyreplace oldOwner .member res.newAffUsers
          changedAffUsers := (oldOwner, .member) :: res.changedAffUsers }
    | _, _ => .error (.badRequest "Failed to demote old owner")

/-- `change_aff_users/3`; `change_aff_functions/1` is the choice at the end. -/
def changeAffUsers (lib : Proplists U) (allowMultipleOwners : Bool)
    (affUsers affUsersChangesAssorted : AffUsers U) : Except Failure (ChangeSuccess U) :=
  match findAff .owner affUsers, findAff .owner affUsersChangesAssorted with
  -- simple, no special cases
  | none, none => applyAffUsersChange lib affUsers affUsersChangesAssorted
  | none, some _ => .error (.badRequest "Ownerless room")
  | some _, _ => do
    let res ← applyAffUsersChange lib affUsers affUsersChangesAssorted
    if allowMultipleOwners then pure (maybeSelectNewOwner res)
    else do
      let demoted ← maybeDemoteOldOwner res
      pure (maybeSelectNewOwner demoted)

/-! ## Lists of occupants -/

/-- The affiliation of a user, `none` for one who is not in the list. -/
def affOf (user : U) : Aff := (affUsers.lookup user).getD .none

/-- A list of occupants: sorted, without duplicates, owners and members only. -/
structure WellFormed (affUsers : AffUsers U) : Prop where
  sorted : affUsers.Pairwise fun a b => a.1 < b.1
  /-- Nobody is in the list as `none`. -/
  ne_none : ∀ affUser ∈ affUsers, affUser.2 ≠ .none

/-- One owner, or one at least where several are allowed. -/
def OwnersOk (allowMultipleOwners : Bool) (affUsers : AffUsers U) : Prop :=
  if allowMultipleOwners then 1 ≤ (usersWith .owner affUsers).length
  else (usersWith .owner affUsers).length = 1

/-- The result of a change tells exactly what differs. -/
structure ExactDiff (au : AffUsers U) (res : ChangeSuccess U) : Prop where
  changed_nodup : (users res.changedAffUsers).Nodup
  mem_changed : ∀ user aff, (user, aff) ∈ res.changedAffUsers ↔
    affOf res.newAffUsers user = aff ∧ affOf au user ≠ aff
  joining_nodup : res.joiningUsers.Nodup
  mem_joining : ∀ user, user ∈ res.joiningUsers ↔
    user ∈ users res.newAffUsers ∧ user ∉ users au
  leaving_nodup : res.leavingUsers.Nodup
  mem_leaving : ∀ user, user ∈ res.leavingUsers ↔
    user ∈ users au ∧ user ∉ users res.newAffUsers

variable {affUsers : AffUsers U}

theorem WellFormed.nodup (h : WellFormed affUsers) : (users affUsers).Nodup :=
  nodup_keys_of_pairwise h.sorted

variable {user : U}

/-- The users of a list are those with an affiliation. -/
theorem WellFormed.mem_users_iff (h : WellFormed affUsers) :
    user ∈ users affUsers ↔ affOf affUsers user ≠ .none := by
  rw [affOf]
  cases hlookup : affUsers.lookup user with
  | none => simpa using Erlang.lookup_eq_none_iff.1 hlookup
  | some aff =>
    have hmem := mem_of_lookup hlookup
    simp only [Option.getD_some, ne_eq, h.ne_none _ hmem, not_false_eq_true, iff_true]
    exact List.mem_map_of_mem hmem

variable {aff : Aff}

/-- An affiliation other than `none` is one in the list. -/
theorem affOf_eq_iff (hnodup : (users affUsers).Nodup) (haff : aff ≠ .none) :
    affOf affUsers user = aff ↔ (user, aff) ∈ affUsers := by
  rw [← lookup_eq_some_iff hnodup, affOf]
  cases affUsers.lookup user with
  | none => simpa using haff.symm
  | some aff' => simp

omit [LinearOrder U] in
theorem mem_usersWith : user ∈ usersWith aff affUsers ↔ (user, aff) ∈ affUsers := by
  rw [usersWith, List.mem_map]
  constructor
  · rintro ⟨⟨user', aff'⟩, hmem, rfl⟩
    obtain ⟨hmem, haff⟩ := List.mem_filter.1 hmem
    exact of_decide_eq_true haff ▸ hmem
  · intro hmem
    exact ⟨(user, aff), List.mem_filter.2 ⟨hmem, decide_eq_true rfl⟩, rfl⟩

omit [LinearOrder U] in
theorem nodup_usersWith (h : (users affUsers).Nodup) : (usersWith aff affUsers).Nodup :=
  (List.filter_sublist.map Prod.fst).nodup h

omit [LinearOrder U] in
/-- There is nobody to be found when nobody has the affiliation. -/
theorem findAff_isNone_iff : (findAff aff affUsers).isNone ↔ usersWith aff affUsers = [] := by
  rw [findAff, Option.isNone_iff_eq_none, List.find?_eq_none, usersWith, List.map_eq_nil_iff,
    List.filter_eq_nil_iff]

theorem affOf_of_mem (hnodup : (users affUsers).Nodup) (h : (user, aff) ∈ affUsers) :
    affOf affUsers user = aff := by
  rw [affOf, lookup_of_mem hnodup h, Option.getD_some]

/-- Affiliations are the same when the entries other than `none` are. -/
theorem affOf_congr {affUsers' : AffUsers U} (hnodup : (users affUsers).Nodup)
    (hnodup' : (users affUsers').Nodup)
    (h : ∀ aff, aff ≠ .none → ((user, aff) ∈ affUsers ↔ (user, aff) ∈ affUsers')) :
    affOf affUsers user = affOf affUsers' user := by
  by_cases hnone : affOf affUsers user = .none
  · by_cases hnone' : affOf affUsers' user = .none
    · rw [hnone, hnone']
    · have hmem := (affOf_eq_iff hnodup' hnone').1 rfl
      exact affOf_of_mem hnodup ((h _ hnone').2 hmem)
  · have hmem := (affOf_eq_iff hnodup hnone).1 rfl
    exact (affOf_of_mem hnodup' ((h _ hnone).1 hmem)).symm

theorem WellFormed.ext {affUsers' : AffUsers U} (h : WellFormed affUsers)
    (h' : WellFormed affUsers') (haff : ∀ user, affOf affUsers user = affOf affUsers' user) :
    affUsers = affUsers' := by
  refine eq_of_perm_of_keys ?_ h.sorted h'.sorted
  refine (List.perm_ext_iff_of_nodup h.nodup.of_map h'.nodup.of_map).2 ?_
  rintro ⟨user, aff⟩
  by_cases hnone : aff = .none
  · exact iff_of_false (fun hmem => h.ne_none _ hmem hnone) fun hmem => h'.ne_none _ hmem hnone
  · rw [← affOf_eq_iff h.nodup hnone, ← affOf_eq_iff h'.nodup hnone, haff]

end MongooseIM.MucLight
