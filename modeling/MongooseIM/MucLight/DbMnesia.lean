import MongooseIM.Erlang.Maps
import MongooseIM.MucLight.RoomStore

/-! # The Mnesia backend

`mod_muc_light_db_mnesia` keeps the occupants of a room in its record, and beside it a bag of pairs
of a user and a room, which it reads when a user is removed. -/

namespace MongooseIM.MucLight.Mnesia

open Erlang List

variable {R U : Type*} [DecidableEq R] [LinearOrder U]

/-- The tables. -/
structure Tables (R U : Type*) where
  mucLightRoom : AList fun _ : R => MucLightRoom U
  /-- `muc_light_user_room`, a bag. -/
  mucLightUserRoom : List (U × R)

namespace Tables

/-- No rooms. -/
def empty : Tables R U := ⟨∅, []⟩

/-- `mnesia:write(#muc_light_user_room{user = User, room = RoomUS})` -/
def writeUserRoom (room : R) (tables : Tables R U) (user : U) : Tables R U :=
  if (user, room) ∈ tables.mucLightUserRoom then tables
  else { tables with mucLightUserRoom := tables.mucLightUserRoom ++ [(user, room)] }

/-- `mnesia:delete_object(#muc_light_user_room{user = User, room = RoomUS})` -/
def deleteUserRoom (room : R) (tables : Tables R U) (user : U) : Tables R U :=
  { tables with
    mucLightUserRoom := tables.mucLightUserRoom.filter fun pair => pair ≠ (user, room) }

/-- `mnesia:write(#muc_light_room{})` -/
def writeRoom (room : R) (rec : MucLightRoom U) (tables : Tables R U) : Tables R U :=
  { tables with mucLightRoom := tables.mucLightRoom.insert room rec }

/-- `get_info/2` -/
def getInfo (tables : Tables R U) (room : R) : Option (MucLightRoom U) :=
  tables.mucLightRoom.lookup room

end Tables

/-! ## Transactions -/

/-- `create_room_transaction/4` -/
def createRoomTransaction (room : R) (affUsers : AffUsers U) (version : String)
    (tables : Tables R U) : Except DbError R × Tables R U :=
  match tables.getInfo room with
  | some _ => (.error .alreadyExists, tables)
  | none =>
    (.ok room,
      (users affUsers).foldl (fun tables user => tables.writeUserRoom room user)
        (tables.writeRoom room ⟨affUsers, version⟩))

/-- `destroy_room_transaction/1` -/
def destroyRoomTransaction (room : R) (tables : Tables R U) : Except DbError Unit × Tables R U :=
  match tables.getInfo room with
  | none => (.error .notExists, tables)
  | some rec =>
    let tables := (users rec.affUsers).foldl (fun tables user => tables.deleteUserRoom room user)
      tables
    (.ok (), { tables with mucLightRoom := tables.mucLightRoom.erase room })

/-- `update_users_rooms/3` -/
def updateUsersRooms (room : R) : List U → List U → Tables R U → Tables R U
  | user :: joiningUsers, leavingUsers, tables =>
    updateUsersRooms room joiningUsers leavingUsers (tables.writeUserRoom room user)
  | [], user :: leavingUsers, tables =>
    updateUsersRooms room [] leavingUsers (tables.deleteUserRoom room user)
  | [], [], tables => tables

/-- `verify_externally_and_submit/5` -/
def verifyExternallyAndSubmit (room : R) (rec : MucLightRoom U) (changeResult : ChangeSuccess U)
    (checkResult : Option String) (version : String) (tables : Tables R U) :
    Except DbError (Modified U) × Tables R U :=
  match checkResult with
  | none =>
    (.ok ⟨rec.affUsers, changeResult.newAffUsers, changeResult.changedAffUsers, rec.version⟩,
      updateUsersRooms room changeResult.joiningUsers changeResult.leavingUsers
        (tables.writeRoom room ⟨changeResult.newAffUsers, version⟩))
  | some reason => (.error (.external reason), tables)

variable (params : Params U)

/-- `modify_aff_users_transaction/5` -/
def modifyAffUsersTransaction (room : R) (affUsersChanges : AffUsers U)
    (externalCheck : ExternalCheck R U) (version : String) (tables : Tables R U) :
    Except DbError (Modified U) × Tables R U :=
  match tables.getInfo room with
  | none => (.error .notExists, tables)
  | some rec =>
    match changeAffUsers params.lib params.allowMultipleOwners rec.affUsers affUsersChanges with
    | .ok changeResult =>
      verifyExternallyAndSubmit room rec changeResult
        (externalCheck room changeResult.newAffUsers) version tables
    | .error failure => (.error (.change failure), tables)

/-- `remove_user_transaction/3`, less the list of results. -/
def removeUserTransaction (user : U) (version : String) (tables : Tables R U) : Tables R U :=
  let rooms := (tables.mucLightUserRoom.filter fun pair => pair.1 = user).map Prod.snd
  rooms.foldl
    (fun tables room =>
      (modifyAffUsersTransaction params room [(user, .none)] (fun _ _ => none) version tables).2)
    tables

/-- What a command leaves in the tables. -/
def step (tables : Tables R U) : Command R U → Tables R U
  | .createRoom room affUsers version _ => (createRoomTransaction room affUsers version tables).2
  | .destroyRoom room => (destroyRoomTransaction room tables).2
  | .modifyAffUsers room affUsersChanges externalCheck version =>
    (modifyAffUsersTransaction params room affUsersChanges externalCheck version tables).2
  | .removeUser user version => removeUserTransaction params user version tables

/-! ## The bag -/

/-- **The bag has a pair exactly when the room exists and the user is in it**, and has it once. -/
structure Indexed (tables : Tables R U) : Prop where
  mem_iff : ∀ user room, (user, room) ∈ tables.mucLightUserRoom ↔
    ∃ rec, tables.getInfo room = some rec ∧ user ∈ users rec.affUsers
  nodup : tables.mucLightUserRoom.Nodup

variable {room : R} {tables : Tables R U}

theorem mem_writeUserRoom {user : U} {pair : U × R} :
    pair ∈ (tables.writeUserRoom room user).mucLightUserRoom ↔
    pair = (user, room) ∨ pair ∈ tables.mucLightUserRoom := by
  rw [Tables.writeUserRoom]
  split_ifs with hmem
  · exact (or_iff_right_of_imp fun heq => heq ▸ hmem).symm
  · rw [mem_append, mem_singleton, or_comm]

theorem nodup_writeUserRoom (h : tables.mucLightUserRoom.Nodup)
    (user : U) : (tables.writeUserRoom room user).mucLightUserRoom.Nodup := by
  rw [Tables.writeUserRoom]
  split_ifs with hmem
  · exact h
  · exact h.append (nodup_singleton _) (disjoint_singleton.2 hmem)

@[simp] theorem mucLightRoom_writeUserRoom (room : R) (tables : Tables R U) (user : U) :
    (tables.writeUserRoom room user).mucLightRoom = tables.mucLightRoom := by
  rw [Tables.writeUserRoom]
  split_ifs <;> rfl

theorem foldl_writeUserRoom (room : R) (joining : List U) (tables : Tables R U) :
    (joining.foldl (fun tables user => tables.writeUserRoom room user) tables).mucLightRoom =
      tables.mucLightRoom ∧
    (tables.mucLightUserRoom.Nodup → (joining.foldl (fun tables user =>
      tables.writeUserRoom room user) tables).mucLightUserRoom.Nodup) ∧
    ∀ pair, pair ∈ (joining.foldl (fun tables user =>
        tables.writeUserRoom room user) tables).mucLightUserRoom ↔
      (pair.2 = room ∧ pair.1 ∈ joining) ∨ pair ∈ tables.mucLightUserRoom := by
  induction joining generalizing tables with
  | nil => exact ⟨rfl, id, fun pair => by simp⟩
  | cons user joining ih =>
    obtain ⟨hrooms, hnodup, hmem⟩ := ih (tables.writeUserRoom room user)
    refine ⟨?_, fun h => hnodup (nodup_writeUserRoom h user), fun pair => ?_⟩
    · rw [foldl_cons, hrooms, mucLightRoom_writeUserRoom]
    · rw [foldl_cons, hmem, mem_writeUserRoom, mem_cons, Prod.ext_iff]
      tauto

theorem foldl_deleteUserRoom (room : R) (leaving : List U) (tables : Tables R U) :
    (leaving.foldl (fun tables user => tables.deleteUserRoom room user) tables).mucLightRoom =
      tables.mucLightRoom ∧
    (tables.mucLightUserRoom.Nodup → (leaving.foldl (fun tables user =>
      tables.deleteUserRoom room user) tables).mucLightUserRoom.Nodup) ∧
    ∀ pair, pair ∈ (leaving.foldl (fun tables user =>
        tables.deleteUserRoom room user) tables).mucLightUserRoom ↔
      pair ∈ tables.mucLightUserRoom ∧ ¬(pair.2 = room ∧ pair.1 ∈ leaving) := by
  induction leaving generalizing tables with
  | nil => exact ⟨rfl, id, fun pair => by simp⟩
  | cons user leaving ih =>
    obtain ⟨hrooms, hnodup, hmem⟩ := ih (tables.deleteUserRoom room user)
    refine ⟨hrooms, fun h => hnodup (h.filter _), fun pair => ?_⟩
    rw [foldl_cons, hmem, Tables.deleteUserRoom, mem_filter, mem_cons,
      decide_eq_true_eq, ne_eq, Prod.ext_iff]
    tauto

/-- `update_users_rooms/3` writes first and then deletes. -/
theorem updateUsersRooms_eq (room : R) (joining leaving : List U) (tables : Tables R U) :
    updateUsersRooms room joining leaving tables =
    leaving.foldl (fun tables user => tables.deleteUserRoom room user)
      (joining.foldl (fun tables user => tables.writeUserRoom room user) tables) := by
  induction joining generalizing tables with
  | nil =>
    induction leaving generalizing tables with
    | nil =>
      rw [updateUsersRooms]
      rfl
    | cons user leaving ih =>
      rw [updateUsersRooms, ih]
      rfl
  | cons user joining ih =>
    rw [updateUsersRooms, ih]
    rfl

omit [LinearOrder U] in
theorem getInfo_writeRoom (room : R) (rec : MucLightRoom U) (tables : Tables R U) :
    (tables.writeRoom room rec).getInfo = Function.update tables.getInfo room (some rec) := by
  funext room'
  rw [Function.update_apply]
  exact lookup_insert tables.mucLightRoom room room' rec

/-! ## Commands -/

omit [LinearOrder U] in
theorem update_getInfo {entry : Option (MucLightRoom U)} (h : tables.getInfo room = entry) :
    tables.getInfo = Function.update tables.getInfo room entry := by
  rw [← h, Function.update_eq_self]

variable {tables' : Tables R U}

omit [LinearOrder U] in
theorem getInfo_congr
    (h : tables.mucLightRoom = tables'.mucLightRoom) : tables.getInfo = tables'.getInfo := by
  funext room
  rw [Tables.getInfo, Tables.getInfo, h]

omit [LinearOrder U] in
theorem Indexed.update (h : Indexed tables) {entry : Option (MucLightRoom U)}
    (hinfo : tables'.getInfo = Function.update tables.getInfo room entry)
    (hnodup : tables'.mucLightUserRoom.Nodup)
    (hother : ∀ user room', room' ≠ room →
    ((user, room') ∈ tables'.mucLightUserRoom ↔ (user, room') ∈ tables.mucLightUserRoom))
    (hroom : ∀ user, (user, room) ∈ tables'.mucLightUserRoom ↔
    ∃ rec, entry = some rec ∧ user ∈ users rec.affUsers) : Indexed tables' := by
  refine ⟨fun user room' => ?_, hnodup⟩
  rw [hinfo]
  by_cases heq : room' = room
  · subst heq
    rw [Function.update_self]
    exact hroom user
  · rw [Function.update_of_ne heq, hother user room' heq]
    exact h.mem_iff user room'

theorem createRoomTransaction_refines (h : Indexed tables) (room : R)
    (affUsers : AffUsers U) (version : String) :
    (createRoomTransaction room affUsers version tables).2.getInfo =
      Function.update tables.getInfo room
        (some ((tables.getInfo room).getD ⟨affUsers, version⟩)) ∧
    Indexed (createRoomTransaction room affUsers version tables).2 := by
  rw [createRoomTransaction]
  cases hroom : tables.getInfo room with
  | some rec => exact ⟨update_getInfo hroom, h⟩
  | none =>
    obtain ⟨hrooms, hnodup, hmem⟩ := foldl_writeUserRoom room (users affUsers)
      (tables.writeRoom room ⟨affUsers, version⟩)
    have hinfo := (getInfo_congr hrooms).trans (getInfo_writeRoom room ⟨affUsers, version⟩ tables)
    refine ⟨hinfo, h.update hinfo (hnodup h.nodup) (fun user room' hne => ?_) fun user => ?_⟩
    · rw [hmem]
      exact or_iff_right fun hin => hne hin.1
    · -- there were no pairs of a room that did not exist
      have hnone : (user, room) ∉ tables.mucLightUserRoom := by
        rw [h.mem_iff, hroom]
        rintro ⟨rec, hrec, _⟩
        cases hrec
      rw [hmem]
      constructor
      · rintro (hin | hin)
        · exact ⟨_, rfl, hin.2⟩
        · exact absurd hin hnone
      · rintro ⟨rec, hrec, hin⟩
        cases hrec
        exact Or.inl ⟨rfl, hin⟩

theorem getInfo_destroyRoomTransaction (room : R) (tables : Tables R U) :
    (destroyRoomTransaction room tables).2.getInfo = Function.update tables.getInfo room none := by
  cases hroom : tables.getInfo room with
  | none =>
    rw [destroyRoomTransaction, hroom]
    exact update_getInfo hroom
  | some rec =>
    obtain ⟨hrooms, _, _⟩ := foldl_deleteUserRoom room (users rec.affUsers) tables
    have hinfo (room' : R) : ((tables.mucLightRoom.erase room).lookup room' :
        Option (MucLightRoom U)) = Function.update tables.getInfo room none room' := by
      rw [lookup_erase, Function.update_apply]
      rfl
    funext room'
    rw [destroyRoomTransaction, hroom, ← hinfo, ← hrooms]
    rfl

theorem destroyRoomTransaction_refines (h : Indexed tables) (room : R) :
    (destroyRoomTransaction room tables).2.getInfo = Function.update tables.getInfo room none ∧
    Indexed (destroyRoomTransaction room tables).2 := by
  have hinfo := getInfo_destroyRoomTransaction room tables
  refine ⟨hinfo, ?_⟩
  rw [destroyRoomTransaction] at hinfo ⊢
  cases hroom : tables.getInfo room with
  | none => exact h
  | some rec =>
    obtain ⟨_, hnodup, hmem⟩ := foldl_deleteUserRoom room (users rec.affUsers) tables
    rw [hroom] at hinfo
    refine h.update hinfo (hnodup h.nodup) (fun user room' hne => ?_) fun user => ?_
    · rw [hmem]
      exact and_iff_left fun hin => hne hin.1
    · rw [hmem, h.mem_iff, hroom]
      constructor
      · rintro ⟨⟨rec', hrec, hin⟩, hnot⟩
        cases hrec
        exact absurd ⟨rfl, hin⟩ hnot
      · rintro ⟨rec', hrec, _⟩
        cases hrec

theorem modifyAffUsersTransaction_refines (h : Indexed tables)
    (hwf : Store.WellFormed tables.getInfo) (params : Params U) (room : R)
    (affUsersChanges : AffUsers U) (externalCheck : ExternalCheck R U) (version : String) :
    (modifyAffUsersTransaction params room affUsersChanges externalCheck version tables).2.getInfo =
      Store.modify params room affUsersChanges externalCheck version tables.getInfo ∧
    Indexed (modifyAffUsersTransaction params room affUsersChanges externalCheck version
      tables).2 := by
  rw [modifyAffUsersTransaction, Store.modify]
  cases hroom : tables.getInfo room with
  | none => exact ⟨update_getInfo hroom, h⟩
  | some rec =>
    -- nothing is written when the change is refused
    have hsame := update_getInfo hroom
    rw [Option.map_some, modifyRoom]
    simp only
    rcases changeAffUsers_cases params.lib params.allowMultipleOwners (hwf room rec hroom)
      affUsersChanges with ⟨text, herror⟩ | ⟨res, hok, hnew, hdiff, _⟩
    · rw [herror]
      exact ⟨hsame, h⟩
    · rw [hok]
      simp only [verifyExternallyAndSubmit]
      cases externalCheck room res.newAffUsers with
      | some reason => exact ⟨hsame, h⟩
      | none =>
        simp only [updateUsersRooms_eq]
        obtain ⟨hrooms, hnodup, hmem⟩ := foldl_writeUserRoom room res.joiningUsers
          (tables.writeRoom room ⟨res.newAffUsers, version⟩)
        obtain ⟨hrooms', hnodup', hmem'⟩ := foldl_deleteUserRoom room res.leavingUsers
          (res.joiningUsers.foldl (fun tables user => tables.writeUserRoom room user)
            (tables.writeRoom room ⟨res.newAffUsers, version⟩))
        have hinfo := (getInfo_congr (hrooms'.trans hrooms)).trans
          (getInfo_writeRoom room ⟨res.newAffUsers, version⟩ tables)
        refine ⟨hinfo, h.update hinfo (hnodup' (hnodup h.nodup)) (fun user room' hne => ?_)
          fun user => ?_⟩
        · rw [hmem', hmem]
          constructor
          · rintro ⟨hin | hin, _⟩
            · exact absurd hin.1 hne
            · exact hin
          · exact fun hin => ⟨Or.inr hin, fun hleave => hne hleave.1⟩
        · -- who joins is written, who leaves is deleted, and nobody does both
          have hold : (user, room) ∈ tables.mucLightUserRoom ↔ user ∈ users rec.affUsers := by
            rw [h.mem_iff, hroom]
            simp
          have hjoin := hdiff.mem_joining user
          have hleave := hdiff.mem_leaving user
          rw [hmem', hmem]
          simp only [Tables.writeRoom, true_and, hold, Option.some.injEq, exists_eq_left']
          constructor
          · rintro ⟨hin | hin, hnot⟩
            · exact (hjoin.1 hin).1
            · by_contra hout
              exact hnot (hleave.2 ⟨hin, hout⟩)
          · intro hin
            refine ⟨?_, fun hgone => (hleave.1 hgone).2 hin⟩
            by_cases hwas : user ∈ users rec.affUsers
            · exact Or.inr hwas
            · exact Or.inl (hjoin.2 ⟨hin, hwas⟩)

theorem foldl_leave_refines (params : Params U) (user : U) (version : String) (rooms : List R)
    (h : Indexed tables) (hwf : Store.WellFormed tables.getInfo) :
    (rooms.foldl (fun tables room => (modifyAffUsersTransaction params room [(user, .none)]
        (fun _ _ => none) version tables).2) tables).getInfo =
      rooms.foldl (fun store room => Store.leave params user version store room) tables.getInfo ∧
    Indexed (rooms.foldl (fun tables room => (modifyAffUsersTransaction params room
      [(user, .none)] (fun _ _ => none) version tables).2) tables) := by
  induction rooms generalizing tables with
  | nil => exact ⟨rfl, h⟩
  | cons room rooms ih =>
    obtain ⟨hinfo, hidx⟩ := modifyAffUsersTransaction_refines h hwf params room
      [(user, .none)] (fun _ _ => none) version
    have hwf' := hinfo ▸ hwf.modify params room [(user, .none)] (fun _ _ => none) version
    obtain ⟨hrest, hidx'⟩ := ih hidx hwf'
    refine ⟨?_, hidx'⟩
    rw [foldl_cons, foldl_cons, hrest, hinfo]
    rfl

/-- The rooms read for a user are those it is in. -/
theorem Indexed.mem_rooms (h : Indexed tables) {user : U} :
    room ∈ (tables.mucLightUserRoom.filter fun pair => pair.1 = user).map Prod.snd ↔
    ∃ rec, tables.getInfo room = some rec ∧ user ∈ users rec.affUsers := by
  rw [← h.mem_iff, mem_map]
  constructor
  · rintro ⟨⟨user', room'⟩, hin, rfl⟩
    obtain ⟨hin, heq⟩ := mem_filter.1 hin
    exact of_decide_eq_true heq ▸ hin
  · exact fun hin => ⟨(user, room), mem_filter.2 ⟨hin, decide_eq_true rfl⟩, rfl⟩

theorem Indexed.nodup_rooms (h : Indexed tables) {user : U} :
    ((tables.mucLightUserRoom.filter fun pair => pair.1 = user).map Prod.snd).Nodup := by
  refine List.Nodup.map_on ?_ (h.nodup.filter _)
  intro pair hin pair' hin' heq
  have hfirst := of_decide_eq_true (mem_filter.1 hin).2
  have hfirst' := of_decide_eq_true (mem_filter.1 hin').2
  exact Prod.ext (hfirst.trans hfirst'.symm) heq

/-- **A command does to the rooms what it has to do**, and keeps the bag in step with them. -/
theorem step_refines (h : Indexed tables)
    (hwf : Store.WellFormed tables.getInfo) (params : Params U) (command : Command R U) :
    (step params tables command).getInfo = Store.step params tables.getInfo command ∧
    Indexed (step params tables command) := by
  cases command with
  | createRoom room affUsers version config =>
    exact createRoomTransaction_refines h room affUsers version
  | destroyRoom room => exact destroyRoomTransaction_refines h room
  | modifyAffUsers room affUsersChanges externalCheck version =>
    exact modifyAffUsersTransaction_refines h hwf params room affUsersChanges externalCheck version
  | removeUser user version =>
    obtain ⟨hinfo, hidx⟩ := foldl_leave_refines params user version
      ((tables.mucLightUserRoom.filter fun pair => pair.1 = user).map Prod.snd) h hwf
    refine ⟨?_, hidx⟩
    rw [step, removeUserTransaction, hinfo]
    exact Store.step_removeUser h.nodup_rooms fun room => h.mem_rooms

end MongooseIM.MucLight.Mnesia
