import MongooseIM.MucLight.AffiliationOwners
import MongooseIM.MucLight.RoomConfig

/-! # The store of rooms

What a backend of the room store has to do: a map from rooms to their occupants, which is changed
one room at a time. The configuration of a room is not part of the map, as nothing here reads it; a
new room comes with one, since a backend may fail to write it. -/

namespace MongooseIM.MucLight

open Erlang

variable {R U : Type*} [DecidableEq R] [LinearOrder U]

/-! ## Commands -/

/-- `{error, Reason}` of a backend. -/
inductive DbError
  | alreadyExists
  | notExists
  | change (failure : Failure)
  | external (reason : String)

/-- `external_check_fun()`; `none` is `ok`. -/
abbrev ExternalCheck (R U : Type*) := R → AffUsers U → Option String

/-- `#muc_light_room{}` -/
structure MucLightRoom (U : Type*) where
  affUsers : AffUsers U
  version : String

/-- `modify_aff_users_return()` of a success. -/
structure Modified (U : Type*) where
  oldAffUsers : AffUsers U
  newAffUsers : AffUsers U
  affUsersChanged : AffUsers U
  prevVersion : String

/-- The calls of a backend that change affiliations. A random name for a new room is one that the
caller has chosen here. -/
inductive Command (R U : Type*) [LinearOrder U]
  /-- `create_room/5` with a well-formed list. -/
  | createRoom (room : R) (affUsers : {affUsers : AffUsers U // WellFormed affUsers})
      (version : String) (config : Entries := [])
  | destroyRoom (room : R)
  | modifyAffUsers (room : R) (affUsersChanges : AffUsers U) (externalCheck : ExternalCheck R U)
      (version : String)
  | removeUser (user : U) (version : String)

/-- What the host type and the runtime provide. -/
structure Params (U : Type*) where
  lib : Proplists U
  allowMultipleOwners : Bool

/-! ## The abstract store -/

/-- The rooms that exist. -/
abbrev Store (R U : Type*) := R → Option (MucLightRoom U)

/-- A room after a change, which is made when nothing is against it. -/
def modifyRoom (params : Params U) (room : R) (affUsersChanges : AffUsers U)
    (externalCheck : ExternalCheck R U) (version : String) (rec : MucLightRoom U) :
    MucLightRoom U :=
  match changeAffUsers params.lib params.allowMultipleOwners rec.affUsers affUsersChanges with
  | .ok res =>
    match externalCheck room res.newAffUsers with
    | none => ⟨res.newAffUsers, version⟩
    | some _ => rec
  | .error _ => rec

/-- Nothing is against a change of a room. -/
def Carries (params : Params U) (room : R) (affUsersChanges : AffUsers U)
    (externalCheck : ExternalCheck R U) (rec : MucLightRoom U) : Prop :=
  ∃ res, changeAffUsers params.lib params.allowMultipleOwners rec.affUsers affUsersChanges =
    .ok res ∧ externalCheck room res.newAffUsers = none

omit [DecidableEq R] in
/-- **A change that leaves a room as it was** is one of its version to what it is, by which nobody
joins. -/
theorem eq_of_modifyRoom_eq {params : Params U} {room : R} {affUsersChanges : AffUsers U}
    {externalCheck : ExternalCheck R U} {version : String} {rec : MucLightRoom U}
    (hwf : WellFormed rec.affUsers) (h : Carries params room affUsersChanges externalCheck rec)
    (heq : modifyRoom params room affUsersChanges externalCheck version rec = rec) :
    version = rec.version ∧ ∀ user ∈ users affUsersChanges, user ∈ users rec.affUsers := by
  obtain ⟨res, hok, hcheck⟩ := h
  rw [modifyRoom, hok] at heq
  simp only [hcheck] at heq
  refine ⟨congrArg MucLightRoom.version heq, fun user huser => ?_⟩
  by_contra hnot
  rcases changeAffUsers_cases params.lib params.allowMultipleOwners hwf affUsersChanges with
    ⟨text, herror⟩ | ⟨res', hok', _, hdiff, _⟩
  · rw [hok] at herror
    cases herror
  · cases hok.symm.trans hok'
    have hjoins := (mem_joiningUsers_of_changeAffUsers hok).2 ⟨huser, hnot⟩
    have hin := ((hdiff.mem_joining user).1 hjoins).1
    exact hnot (congrArg MucLightRoom.affUsers heq ▸ hin)

namespace Store

/-- A change of one room. -/
def modify (params : Params U) (room : R) (affUsersChanges : AffUsers U)
    (externalCheck : ExternalCheck R U) (version : String) (store : Store R U) : Store R U :=
  Function.update store room
    ((store room).map (modifyRoom params room affUsersChanges externalCheck version))

/-- The change that takes a user out of a room. -/
def leave (params : Params U) (user : U) (version : String) (store : Store R U) (room : R) :
    Store R U :=
  store.modify params room [(user, .none)] (fun _ _ => none) version

/-- What a command does. -/
def step (params : Params U) (store : Store R U) : Command R U → Store R U
  | .createRoom room affUsers version _ =>
    Function.update store room (some ((store room).getD ⟨affUsers, version⟩))
  | .destroyRoom room => Function.update store room none
  | .modifyAffUsers room affUsersChanges externalCheck version =>
    store.modify params room affUsersChanges externalCheck version
  | .removeUser user version => fun room =>
    match store room with
    | some rec => if user ∈ users rec.affUsers then store.leave params user version room room
      else some rec
    | none => none

/-- The lists of occupants are well-formed. -/
def WellFormed (store : Store R U) : Prop :=
  ∀ room rec, store room = some rec → MucLight.WellFormed rec.affUsers

omit [DecidableEq R] in
theorem modifyRoom_wellFormed {rec : MucLightRoom U} (h : MucLight.WellFormed rec.affUsers)
    (params : Params U) (room : R) (affUsersChanges : AffUsers U)
    (externalCheck : ExternalCheck R U) (version : String) :
    MucLight.WellFormed
    (modifyRoom params room affUsersChanges externalCheck version rec).affUsers := by
  rw [modifyRoom]
  rcases changeAffUsers_cases params.lib params.allowMultipleOwners h affUsersChanges with
    ⟨text, herror⟩ | ⟨res, hok, hnew, _⟩
  · rw [herror]
    exact h
  · rw [hok]
    simp only
    split
    · exact hnew
    · exact h

section

variable {store : Store R U} (h : WellFormed store)

include h

theorem WellFormed.update {room : R}
    {entry : Option (MucLightRoom U)}
    (hentry : ∀ rec, entry = some rec → MucLight.WellFormed rec.affUsers) :
    WellFormed (Function.update store room entry) := by
  intro room' rec hrec
  by_cases heq : room' = room
  · subst heq
    rw [Function.update_self] at hrec
    exact hentry rec hrec
  · rw [Function.update_of_ne heq] at hrec
    exact h room' rec hrec

theorem WellFormed.modify (params : Params U) (room : R)
    (affUsersChanges : AffUsers U) (externalCheck : ExternalCheck R U) (version : String) :
    WellFormed (store.modify params room affUsersChanges externalCheck version) := by
  refine h.update fun rec hrec => ?_
  obtain ⟨old, hold, rfl⟩ := Option.map_eq_some_iff.1 hrec
  exact modifyRoom_wellFormed (h room old hold) params room affUsersChanges externalCheck version

/-- **The lists of occupants stay well-formed.** -/
theorem WellFormed.step (params : Params U)
    (command : Command R U) : WellFormed (store.step params command) := by
  cases command with
  | createRoom room affUsers version config =>
    refine h.update fun rec hrec => ?_
    cases hold : store room with
    | none =>
      rw [hold] at hrec
      cases hrec
      exact affUsers.2
    | some old =>
      rw [hold] at hrec
      cases hrec
      exact h room _ hold
  | destroyRoom room =>
    refine h.update fun rec hrec => ?_
    cases hrec
  | modifyAffUsers room affUsersChanges externalCheck version =>
    exact h.modify params room affUsersChanges externalCheck version
  | removeUser user version =>
    intro room rec hrec
    simp only [Store.step] at hrec
    split at hrec
    · next old hold =>
      split_ifs at hrec
      · exact h.modify params room _ _ version room rec hrec
      · cases hrec
        exact h room _ hold
    · cases hrec

end

section

variable (params : Params U) (user : U) (version : String)

theorem leave_self (store : Store R U) (room : R) : store.leave params user version room room =
    (store room).map (modifyRoom params room [(user, .none)] (fun _ _ => none) version) :=
  Function.update_self _ _ _

theorem leave_of_ne (store : Store R U)
    {room room' : R} (h : room' ≠ room) :
    store.leave params user version room room' = store room' :=
  Function.update_of_ne h _ _

/-- **Taking a user out of several rooms** is taking it out of each. -/
theorem foldl_leave {rooms : List R} (hnodup : rooms.Nodup) (store : Store R U) (room : R) :
    rooms.foldl (fun store room => store.leave params user version room) store room =
    if room ∈ rooms then store.leave params user version room room else store room := by
  induction rooms generalizing store with
  | nil => rfl
  | cons head rooms ih =>
    obtain ⟨hnot, hrooms⟩ := List.nodup_cons.1 hnodup
    rw [List.foldl_cons, ih hrooms]
    by_cases heq : room = head
    · subst heq
      rw [if_neg hnot, if_pos List.mem_cons_self]
    · rw [leave_self, leave_self, leave_of_ne _ _ _ _ heq]
      simp only [List.mem_cons, heq, false_or]

end

/-- A user is removed by taking it out of the rooms it is in. -/
theorem step_removeUser {params : Params U} {user : U} {version : String} {store : Store R U}
    {rooms : List R} (hnodup : rooms.Nodup)
    (hmem : ∀ room, room ∈ rooms ↔ ∃ rec, store room = some rec ∧ user ∈ users rec.affUsers) :
    rooms.foldl (fun store room => store.leave params user version room) store =
    store.step params (.removeUser user version) := by
  funext room
  rw [foldl_leave params user version hnodup]
  cases hroom : store room with
  | none =>
    have hnot : room ∉ rooms := by
      rw [hmem, hroom]
      rintro ⟨rec, hrec, _⟩
      cases hrec
    rw [if_neg hnot]
    simp only [step, hroom]
  | some rec =>
    have hiff : room ∈ rooms ↔ user ∈ users rec.affUsers := by
      rw [hmem, hroom]
      simp
    simp only [step, hroom]
    by_cases hin : room ∈ rooms
    · rw [if_pos hin, if_pos (hiff.1 hin)]
    · rw [if_neg hin, if_neg fun h => hin (hiff.2 h)]

end Store

end MongooseIM.MucLight
