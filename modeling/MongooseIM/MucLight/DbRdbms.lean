import MongooseIM.MucLight.RoomStore
import MongooseIM.Relational.Columns

/-! # The relational backend

`mod_muc_light_db_rdbms` keeps a row for each room and a row for each occupant, under the number of
the room. A change of affiliations is applied row by row from what has changed. A statement whose
values do not fit into their columns fails, and with it the transaction. -/

namespace MongooseIM.MucLight.Rdbms

open Erlang Relational

variable {R U : Type*} [LinearOrder R] [LinearOrder U]

/-! ## Tables -/

/-- How rooms and users stand in the tables. -/
structure Columns (R U : Type*) where
  /-- `luser` and `lserver` -/
  room : R → String × String
  /-- `luser` and `lserver` -/
  user : U → String × String
  /-- `mod_muc_light:config_schema/1` -/
  configSchema : R → List SchemaItem

/-- The column `version` can hold a version. -/
abbrev FitsVersion (version : String) : Prop := Varchar 20 version

/-- The text of a value. -/
def valueText : Value → String
  | .binary s => s
  | .integer i => integerToBinary i

/-- The columns `opt` and `val` can hold a field of the configuration. -/
abbrev FitsConfig (kv : String × Value) : Prop := Varchar 100 kv.1 ∧ Varchar 250 (valueText kv.2)

/-- The numbers that stand for affiliations. -/
inductive AffDb
  /-- `1` -/
  | one
  /-- `2` -/
  | two

/-- `aff_atom2db/1`; `none` is a crash. -/
def affAtom2db : Aff → Option AffDb
  | .owner => some .one
  | .member => some .two
  | .none => none

/-- `aff_db2atom/1` -/
def affDb2atom : AffDb → Aff
  | .one => .owner
  | .two => .member

/-- A row of `muc_light_rooms`. -/
structure RoomRow (R : Type*) where
  id : ℕ
  /-- `luser` and `lserver`, the primary key. -/
  room : R
  version : String

/-- A row of `muc_light_occupants`. -/
structure OccupantRow (U : Type*) where
  roomId : ℕ
  /-- `luser` and `lserver` -/
  user : U
  aff : AffDb

/-- The tables. -/
structure Tables (R U : Type*) where
  nextId : ℕ
  mucLightRooms : List (RoomRow R)
  mucLightOccupants : List (OccupantRow U)

namespace Tables

/-- No rooms. -/
def empty : Tables R U := ⟨0, [], []⟩

variable (columns : Columns R U) (room : R)

/-- `muc_light_insert_room`; it fails when the primary key is there. -/
def insertRoom (version : String) (tables : Tables R U) : Option (Tables R U) :=
  if FitsColumns (columns.room room) ∧ FitsVersion version ∧
      ∀ row ∈ tables.mucLightRooms, row.room ≠ room then
    some { tables with
      nextId := tables.nextId + 1
      mucLightRooms := tables.mucLightRooms ++ [⟨tables.nextId, room, version⟩] }
  else none

/-- `muc_light_select_room_id_and_version`, which also has what `muc_light_select_room_id` has. -/
def selectRoom (tables : Tables R U) : Option (RoomRow R) :=
  tables.mucLightRooms.find? fun row => row.room = room

/-- `muc_light_update_room_version` -/
def updateRoomVersion (version : String) (tables : Tables R U) : Option (Tables R U) :=
  if FitsVersion version then
    some { tables with
      mucLightRooms := tables.mucLightRooms.map fun row =>
        if row.room = room then { row with version := version } else row }
  else none

/-- `muc_light_delete_room` -/
def deleteRoom (tables : Tables R U) : Tables R U :=
  { tables with mucLightRooms := tables.mucLightRooms.filter fun row => row.room ≠ room }

variable (roomId : ℕ)

/-- `muc_light_select_affs_by_room_id` -/
def selectAffsByRoomId (tables : Tables R U) : List (U × AffDb) :=
  (tables.mucLightOccupants.filter fun row => row.roomId = roomId).map fun row =>
    (row.user, row.aff)

variable (user : U)

/-- `muc_light_insert_aff` -/
def insertAff (aff : Aff) (tables : Tables R U) : Option (Tables R U) :=
  if FitsColumns (columns.user user) then
    (affAtom2db aff).map fun aff =>
      { tables with mucLightOccupants := tables.mucLightOccupants ++ [⟨roomId, user, aff⟩] }
  else none

/-- `muc_light_insert_config`; the row itself is left out, as nothing here reads it. -/
def insertConfig (kv : String × Value) (tables : Tables R U) : Option (Tables R U) :=
  if FitsConfig kv then some tables else none

/-- `muc_light_update_aff` -/
def updateAff (aff : Aff) (tables : Tables R U) : Option (Tables R U) :=
  (affAtom2db aff).map fun aff =>
    { tables with
      mucLightOccupants := tables.mucLightOccupants.map fun row =>
        if row.roomId = roomId ∧ row.user = user then { row with aff := aff } else row }

/-- `muc_light_delete_aff` -/
def deleteAff (tables : Tables R U) : Tables R U :=
  { tables with
    mucLightOccupants := tables.mucLightOccupants.filter fun row =>
      ¬(row.roomId = roomId ∧ row.user = user) }

/-- `muc_light_delete_affs` -/
def deleteAffs (tables : Tables R U) : Tables R U :=
  { tables with
    mucLightOccupants := tables.mucLightOccupants.filter fun row => row.roomId ≠ roomId }

/-- `muc_light_select_user_rooms`, an inner join. -/
def selectUserRooms (tables : Tables R U) : List R :=
  (tables.mucLightOccupants.filter fun row => row.user = user).flatMap fun row =>
    (tables.mucLightRooms.filter fun roomRow => row.roomId = roomRow.id).map RoomRow.room

/-- `decode_affs/1` -/
def decodeAffs (affUsersDb : List (U × AffDb)) : AffUsers U :=
  sort (affUsersDb.map fun row => (row.1, affDb2atom row.2))

/-- `get_info/2` -/
def getInfo (tables : Tables R U) (room : R) : Option (MucLightRoom U) :=
  (tables.selectRoom room).map fun row =>
    ⟨decodeAffs (tables.selectAffsByRoomId row.id), row.version⟩

/-- `get_user_rooms/3` for all hosts. -/
def getUserRooms (tables : Tables R U) : List R :=
  usort (tables.selectUserRooms user)

end Tables

/-! ## Transactions -/

variable (columns : Columns R U)

/-- `create_room_transaction/5`; `none` when it is aborted. -/
def createRoomTransaction (room : R) (affUsers : AffUsers U) (version : String) (config : Entries)
    (tables : Tables R U) : Option (Tables R U) :=
  (tables.insertRoom columns room version).bind fun tables =>
    (tables.selectRoom room).bind fun row =>
      match toBinaryKv config (columns.configSchema room) with
      -- the match on `{ok, ConfigFields}`
      | .error _ => none
      | .ok configFields =>
        (affUsers.foldlM (fun (tables : Tables R U) affUser =>
          tables.insertAff columns row.id affUser.1 affUser.2) tables).bind fun tables =>
            configFields.foldlM (fun (tables : Tables R U) kv => tables.insertConfig kv) tables

/-- `create_room_with_specified_name/5`; `none` is a crash. -/
def createRoom (room : R) (affUsers : AffUsers U) (version : String) (config : Entries)
    (tables : Tables R U) : Option (Except DbError R × Tables R U) :=
  match createRoomTransaction columns room affUsers version config tables with
  | some tables => some (.ok room, tables)
  | none =>
    if (tables.selectRoom room).isSome then some (.error .alreadyExists, tables) else none

/-- `destroy_room_transaction/2` -/
def destroyRoomTransaction (room : R) (tables : Tables R U) : Except DbError Unit × Tables R U :=
  match tables.selectRoom room with
  | some row => (.ok (), (tables.deleteAffs row.id).deleteRoom room)
  | none => (.error .notExists, tables)

/-- The function that `apply_aff_users_transaction/4` runs for each change. -/
def applyAffUser (roomId : ℕ) (joiningUsers : List U) (tables : Tables R U) :
    U × Aff → Option (Tables R U)
  | (user, .none) => some (tables.deleteAff roomId user)
  | (user, aff) =>
    if user ∈ joiningUsers then tables.insertAff columns roomId user aff
    else tables.updateAff roomId user aff

/-- `apply_aff_users_transaction/4` -/
def applyAffUsersTransaction (roomId : ℕ) (affUsersChanged : AffUsers U) (joiningUsers : List U)
    (tables : Tables R U) : Option (Tables R U) :=
  affUsersChanged.foldlM (applyAffUser columns roomId joiningUsers) tables

variable (params : Params U)

/-- `modify_aff_users_transaction/7`, of a room that there is. -/
def modifyAffUsersRow (room : R) (row : RoomRow R)
    (affUsersChanges : AffUsers U) (externalCheck : ExternalCheck R U) (version : String)
    (tables : Tables R U) : Option (Except DbError (Modified U) × Tables R U) :=
  let affUsers := Tables.decodeAffs (tables.selectAffsByRoomId row.id)
  match changeAffUsers params.lib params.allowMultipleOwners affUsers affUsersChanges with
  | .ok res =>
    match externalCheck room res.newAffUsers with
    | none =>
      (applyAffUsersTransaction columns row.id res.changedAffUsers res.joiningUsers tables).bind
        fun tables => (tables.updateRoomVersion room version).map fun tables =>
          (.ok ⟨affUsers, res.newAffUsers, res.changedAffUsers, row.version⟩, tables)
    | some reason => some (.error (.external reason), tables)
  | .error failure => some (.error (.change failure), tables)

/-- `modify_aff_users_transaction/5`; `none` when it is aborted. -/
def modifyAffUsersTransaction (room : R) (affUsersChanges : AffUsers U)
    (externalCheck : ExternalCheck R U) (version : String) (tables : Tables R U) :
    Option (Except DbError (Modified U) × Tables R U) :=
  match tables.selectRoom room with
  | some row => modifyAffUsersRow columns params room row affUsersChanges externalCheck version tables
  | none => some (.error .notExists, tables)

/-- `remove_user_transaction/3`, less the list of results. -/
def removeUserTransaction (user : U) (version : String)
    (tables : Tables R U) : Option (Tables R U) :=
  (tables.getUserRooms user).foldlM
    (fun tables room =>
      (modifyAffUsersTransaction columns params room [(user, .none)] (fun _ _ => none) version
        tables).map Prod.snd)
    tables

/-- What a command leaves in the tables; `none` is a crash. -/
def step (tables : Tables R U) : Command R U → Option (Tables R U)
  | .createRoom room affUsers version config =>
    (createRoom columns room affUsers version config tables).map Prod.snd
  | .destroyRoom room => some (destroyRoomTransaction room tables).2
  | .modifyAffUsers room affUsersChanges externalCheck version =>
    (modifyAffUsersTransaction columns params room affUsersChanges externalCheck version
      tables).map Prod.snd
  | .removeUser user version => removeUserTransaction columns params user version tables

/-! ## Occupants -/

/-- The occupants of a room in the order of their rows. -/
def Tables.occupants (tables : Tables R U) (roomId : ℕ) : AffUsers U :=
  (tables.selectAffsByRoomId roomId).map fun row => (row.1, affDb2atom row.2)

variable {aff : Aff}

theorem affDb2atom_of_affAtom2db {affDb : AffDb} (h : affAtom2db aff = some affDb) :
    affDb2atom affDb = aff := by
  cases aff <;> cases h <;> rfl

theorem affDb2atom_ne_none (affDb : AffDb) : affDb2atom affDb ≠ .none := by
  cases affDb <;> decide

/-- Affiliations other than `none` have a number. -/
theorem exists_affAtom2db (h : aff ≠ .none) : ∃ affDb, affAtom2db aff = some affDb := by
  cases aff with
  | owner => exact ⟨.one, rfl⟩
  | member => exact ⟨.two, rfl⟩
  | none => exact absurd rfl h

section Occupants

variable {columns : Columns R U} {tables tables' : Tables R U} {roomId : ℕ} {user : U} {aff : Aff}

omit [LinearOrder R] [LinearOrder U] in
theorem occupants_eq (tables : Tables R U) (roomId : ℕ) : tables.occupants roomId =
    (tables.mucLightOccupants.filter fun row => row.roomId = roomId).map fun row =>
      (row.user, affDb2atom row.aff) := by
  rw [Tables.occupants, Tables.selectAffsByRoomId, List.map_map]
  rfl

omit [LinearOrder R] [LinearOrder U] in
/-- A new row: the columns hold the user, and its affiliation has a number. -/
theorem insertAff_eq_some : tables.insertAff columns roomId user aff = some tables' ↔
    FitsColumns (columns.user user) ∧ ∃ affDb, affAtom2db aff = some affDb ∧
    { tables with
      mucLightOccupants := tables.mucLightOccupants ++ [⟨roomId, user, affDb⟩] } = tables' := by
  rw [Tables.insertAff]
  split_ifs with hfits
  · rw [Option.map_eq_some_iff]
    exact (and_iff_right hfits).symm
  · exact iff_of_false nofun fun h => hfits h.1

omit [LinearOrder R] [LinearOrder U] in
theorem occupants_insertAff (h : tables.insertAff columns roomId user aff = some tables')
    (roomId' : ℕ) :
    tables'.occupants roomId' = if roomId' = roomId then tables.occupants roomId ++ [(user, aff)]
    else tables.occupants roomId' := by
  obtain ⟨_, affDb, haff, rfl⟩ := insertAff_eq_some.1 h
  have hback := affDb2atom_of_affAtom2db haff
  by_cases heq : roomId' = roomId
  · subst heq
    simp [occupants_eq, List.filter_append, hback]
  · have hne : ¬roomId = roomId' := fun h => heq h.symm
    simp [occupants_eq, List.filter_append, heq, hne]

omit [LinearOrder R] in
/-- The rows of an occupant are updated where they are. -/
theorem occupants_updateAff (h : tables.updateAff roomId user aff = some tables') (roomId' : ℕ) :
    tables'.occupants roomId' = if roomId' = roomId then
      (tables.occupants roomId).map fun affUser =>
        if affUser.1 = user then (user, aff) else affUser
    else tables.occupants roomId' := by
  obtain ⟨affDb, haff, rfl⟩ := Option.map_eq_some_iff.1 h
  have hback := affDb2atom_of_affAtom2db haff
  -- an update does not move a row to another room
  have hkeep : ((fun row : OccupantRow U => decide (row.roomId = roomId')) ∘ fun row =>
      if row.roomId = roomId ∧ row.user = user then { row with aff := affDb } else row) =
        fun row => decide (row.roomId = roomId') := by
    funext row
    simp only [Function.comp_apply]
    split_ifs <;> rfl
  rw [occupants_eq, occupants_eq, occupants_eq, List.filter_map, hkeep, List.map_map]
  split_ifs with heq
  · subst heq
    rw [List.map_map]
    refine List.map_congr_left fun row hrow => ?_
    have hid : row.roomId = roomId' := of_decide_eq_true (List.mem_filter.1 hrow).2
    simp only [Function.comp_apply, hid, true_and]
    split_ifs with huser
    · rw [hback, huser]
    · rfl
  · refine List.map_congr_left fun row hrow => ?_
    have hid : row.roomId = roomId' := of_decide_eq_true (List.mem_filter.1 hrow).2
    have hne : ¬(row.roomId = roomId ∧ row.user = user) := fun h => heq (hid.symm.trans h.1)
    simp only [Function.comp_apply, hne, if_false]

omit [LinearOrder R] in
theorem occupants_deleteAff (tables : Tables R U) (roomId : ℕ) (user : U) (roomId' : ℕ) :
    (tables.deleteAff roomId user).occupants roomId' =
    if roomId' = roomId then (tables.occupants roomId).filter fun affUser => affUser.1 ≠ user
    else tables.occupants roomId' := by
  rw [occupants_eq, occupants_eq, occupants_eq, Tables.deleteAff, List.filter_filter]
  split_ifs with heq
  · subst heq
    rw [List.filter_map, List.filter_filter]
    congr 1
    refine List.filter_congr fun row _ => ?_
    by_cases hid : row.roomId = roomId' <;> simp [hid]
  · congr 1
    refine List.filter_congr fun row _ => ?_
    have hne : row.roomId = roomId' → ¬row.roomId = roomId := fun h h' => heq (h.symm.trans h')
    by_cases hid : row.roomId = roomId'
    · simp [hid, heq]
    · simp [hid]

end Occupants

/-! ## Changes row by row -/

variable {affUsers : AffUsers U}

theorem affOf_append {user : U} (h : user ∉ users affUsers) (aff : Aff) (user' : U) :
    affOf (affUsers ++ [(user, aff)]) user' =
    if user' = user then aff else affOf affUsers user' := by
  rw [affOf, List.lookup_append, lookup_cons]
  split_ifs with heq
  · rw [heq, Erlang.lookup_eq_none_iff.2 h]
    rfl
  · simp [affOf]

/-- The affiliation after the rows of an occupant are updated. -/
theorem affOf_map_update {user : U} (h : user ∈ users affUsers) (aff : Aff) (user' : U) :
    affOf (affUsers.map fun affUser => if affUser.1 = user then (user, aff) else affUser) user' =
    if user' = user then aff else affOf affUsers user' := by
  have hlookup (affUsers : AffUsers U) :
      (affUsers.map fun affUser => if affUser.1 = user then (user, aff) else affUser).lookup user' =
        if user' = user then (affUsers.lookup user).map fun _ => aff
        else affUsers.lookup user' := by
    induction affUsers with
    | nil => simp
    | cons affUser affUsers ih =>
      obtain ⟨head, aff'⟩ := affUser
      rw [List.map_cons]
      by_cases hhead : head = user
      · subst hhead
        rw [if_pos rfl, lookup_cons, lookup_cons, lookup_cons, if_pos rfl]
        by_cases heq : user' = head
        · simp [heq]
        · rw [if_neg heq, if_neg heq, if_neg heq, ih, if_neg heq]
      · have hne : ¬user = head := fun h => hhead h.symm
        rw [if_neg hhead, lookup_cons, ih, lookup_cons, lookup_cons]
        by_cases heq : user' = user
        · simp [heq, hne]
        · simp [heq]
  rw [affOf, hlookup]
  split_ifs
  · cases huser : affUsers.lookup user with
    | none => exact absurd h (Erlang.lookup_eq_none_iff.1 huser)
    | some _ => rfl
  · rfl

/-- The affiliation after the rows of an occupant are deleted. -/
theorem affOf_filter_ne (affUsers : AffUsers U) (user user' : U) :
    affOf (affUsers.filter fun affUser => affUser.1 ≠ user) user' =
    if user' = user then .none else affOf affUsers user' := by
  induction affUsers with
  | nil => simp [affOf]
  | cons affUser affUsers ih =>
    obtain ⟨head, aff⟩ := affUser
    by_cases hhead : head = user
    · subst hhead
      rw [List.filter_cons_of_neg (by simp), ih]
      by_cases heq : user' = head
      · rw [if_pos heq, if_pos heq]
      · rw [if_neg heq, if_neg heq, affOf, affOf, lookup_cons, if_neg heq]
    · rw [List.filter_cons_of_pos (by simpa using hhead), affOf, lookup_cons]
      by_cases heq : user' = head
      · rw [if_pos heq, if_neg fun h => hhead (heq.symm.trans h), affOf, lookup_cons, if_pos heq]
      · rw [if_neg heq]
        show affOf _ user' = _
        rw [ih, affOf, affOf, lookup_cons, if_neg heq]

/-- The tables differ in the occupants of one room only. -/
structure SameBut (roomId : ℕ) (tables tables' : Tables R U) : Prop where
  nextId : tables'.nextId = tables.nextId
  rooms : tables'.mucLightRooms = tables.mucLightRooms
  others : ∀ id, id ≠ roomId → tables'.occupants id = tables.occupants id

section Apply

variable {columns : Columns R U} {tables : Tables R U} {roomId : ℕ}

omit [LinearOrder R] in
/-- **One change of what has changed.** It is a row more, a row less or another number in a row. -/
theorem applyAffUser_spec (hocc : (users (tables.occupants roomId)).Nodup) {joining : List U}
    (hfits : ∀ user ∈ joining, FitsColumns (columns.user user)) {user : U}
    (hjoin : aff ≠ .none → (user ∈ joining ↔ user ∉ users (tables.occupants roomId))) :
    ∃ tables', applyAffUser columns roomId joining tables (user, aff) = some tables' ∧
    SameBut roomId tables tables' ∧ (users (tables'.occupants roomId)).Nodup ∧
    (∀ user', affOf (tables'.occupants roomId) user' =
      if user' = user then aff else affOf (tables.occupants roomId) user') ∧
    ∀ user', user' ≠ user → (user' ∈ users (tables'.occupants roomId) ↔
      user' ∈ users (tables.occupants roomId)) := by
  by_cases hnone : aff = .none
  · subst hnone
    have hafter := occupants_deleteAff tables roomId user
    refine ⟨tables.deleteAff roomId user, rfl, ⟨rfl, rfl, fun id hne => ?_⟩, ?_, ?_, ?_⟩
    · rw [hafter, if_neg hne]
    · rw [hafter, if_pos rfl]
      exact (List.filter_sublist.map Prod.fst).nodup hocc
    · intro user'
      rw [hafter, if_pos rfl]
      exact affOf_filter_ne _ _ _
    · intro user' hne
      rw [hafter, if_pos rfl]
      simp only [users, List.mem_map, List.mem_filter, decide_eq_true_eq]
      constructor
      · rintro ⟨affUser, ⟨hmem, _⟩, rfl⟩
        exact ⟨affUser, hmem, rfl⟩
      · rintro ⟨affUser, hmem, rfl⟩
        exact ⟨affUser, ⟨hmem, hne⟩, rfl⟩
  have hjoin := hjoin hnone
  obtain ⟨affDb, haff⟩ := exists_affAtom2db hnone
  have happly : applyAffUser columns roomId joining tables (user, aff) =
      if user ∈ joining then tables.insertAff columns roomId user aff
      else tables.updateAff roomId user aff := by
    cases aff with
    | none => exact absurd rfl hnone
    | member => rfl
    | owner => rfl
  by_cases hin : user ∈ joining
  · -- a new row, as the user was not there
    have hnot := hjoin.1 hin
    obtain ⟨tables', hinsert⟩ : ∃ tables', tables.insertAff columns roomId user aff = some tables' :=
      ⟨_, insertAff_eq_some.2 ⟨hfits user hin, affDb, haff, rfl⟩⟩
    have hafter := occupants_insertAff hinsert
    have hframe : tables'.nextId = tables.nextId ∧ tables'.mucLightRooms = tables.mucLightRooms := by
      obtain ⟨_, _, _, rfl⟩ := insertAff_eq_some.1 hinsert
      exact ⟨rfl, rfl⟩
    refine ⟨tables', by rw [happly, if_pos hin, hinsert],
      ⟨hframe.1, hframe.2, fun id hne => by rw [hafter, if_neg hne]⟩, ?_, ?_, ?_⟩
    · rw [hafter, if_pos rfl, users, List.map_append]
      exact hocc.append (List.nodup_singleton _) (List.disjoint_singleton.2 hnot)
    · intro user'
      rw [hafter, if_pos rfl]
      exact affOf_append hnot aff user'
    · intro user' hne
      rw [hafter, if_pos rfl, users, List.map_append, List.mem_append]
      exact or_iff_left fun h => hne (List.mem_singleton.1 h)
  · have hthere : user ∈ users (tables.occupants roomId) := not_not.1 fun h => hin (hjoin.2 h)
    obtain ⟨tables', hupdate⟩ : ∃ tables', tables.updateAff roomId user aff = some tables' :=
      ⟨_, by rw [Tables.updateAff, haff]; rfl⟩
    have hafter := occupants_updateAff hupdate
    have hframe : tables'.nextId = tables.nextId ∧ tables'.mucLightRooms = tables.mucLightRooms := by
      obtain ⟨_, _, rfl⟩ := Option.map_eq_some_iff.1 hupdate
      exact ⟨rfl, rfl⟩
    have husers : users (tables'.occupants roomId) = users (tables.occupants roomId) := by
      rw [hafter, if_pos rfl, users, List.map_map]
      refine List.map_congr_left fun affUser _ => ?_
      simp only [Function.comp_apply]
      split_ifs with heq
      · exact heq.symm
      · rfl
    refine ⟨tables', by rw [happly, if_neg hin, hupdate],
      ⟨hframe.1, hframe.2, fun id hne => by rw [hafter, if_neg hne]⟩, husers ▸ hocc, ?_, ?_⟩
    · intro user'
      rw [hafter, if_pos rfl]
      exact affOf_map_update hthere aff user'
    · intro user' _
      rw [husers]

omit [LinearOrder R] in
/-- **What the rows of a room say after a change**: each changed user has its new affiliation. -/
theorem applyAffUsersTransaction_spec {changed : AffUsers U} (hnodup : (users changed).Nodup)
    (hocc : (users (tables.occupants roomId)).Nodup) {joining : List U}
    (hfits : ∀ user ∈ joining, FitsColumns (columns.user user))
    (hjoin : ∀ c ∈ changed, c.2 ≠ .none → (c.1 ∈ joining ↔ c.1 ∉ users (tables.occupants roomId))) :
    ∃ tables', applyAffUsersTransaction columns roomId changed joining tables = some tables' ∧
    SameBut roomId tables tables' ∧ (users (tables'.occupants roomId)).Nodup ∧
    ∀ user, affOf (tables'.occupants roomId) user =
      (changed.lookup user).getD (affOf (tables.occupants roomId) user) := by
  induction changed generalizing tables with
  | nil => exact ⟨tables, rfl, ⟨rfl, rfl, fun _ _ => rfl⟩, hocc, fun _ => rfl⟩
  | cons change changed ih =>
    obtain ⟨user, aff⟩ := change
    obtain ⟨hnot, hnodup⟩ := List.nodup_cons.1 hnodup
    obtain ⟨tables₁, happly, hsame, hocc₁, haff₁, husers₁⟩ :=
      applyAffUser_spec hocc hfits (hjoin _ List.mem_cons_self)
    have hne : ∀ c ∈ changed, c.1 ≠ user := fun c hc heq =>
      hnot (List.mem_map.2 ⟨c, hc, heq⟩)
    -- the other changes are of other users, who are where they were
    have hjoin₁ : ∀ c ∈ changed, c.2 ≠ .none →
        (c.1 ∈ joining ↔ c.1 ∉ users (tables₁.occupants roomId)) := by
      intro c hc hnone
      rw [hjoin c (List.mem_cons_of_mem _ hc) hnone, husers₁ c.1 (hne c hc)]
    obtain ⟨tables₂, hrest, hsame', hocc₂, haff₂⟩ := ih hnodup hocc₁ hjoin₁
    refine ⟨tables₂, ?_, ⟨hsame'.nextId.trans hsame.nextId, hsame'.rooms.trans hsame.rooms,
      fun id hid => (hsame'.others id hid).trans (hsame.others id hid)⟩, hocc₂, fun user' => ?_⟩
    · rw [applyAffUsersTransaction, List.foldlM_cons, happly]
      exact hrest
    · rw [haff₂, haff₁, lookup_cons]
      split_ifs with heq
      · subst heq
        rw [Erlang.lookup_eq_none_iff.2 hnot]
        rfl
      · rfl

omit [LinearOrder R] in
/-- A joining user whom the columns cannot hold aborts the change. -/
theorem applyAffUsersTransaction_eq_none {changed : AffUsers U} {joining : List U} {user : U}
    (hin : user ∈ joining) (hfits : ¬FitsColumns (columns.user user)) {aff : Aff}
    (hnone : aff ≠ .none) (hmem : (user, aff) ∈ changed) :
    applyAffUsersTransaction columns roomId changed joining tables = none := by
  have happly (tables : Tables R U) :
      applyAffUser columns roomId joining tables (user, aff) = none := by
    cases aff with
    | none => exact absurd rfl hnone
    | member | owner => simp [applyAffUser, hin, Tables.insertAff, hfits]
  exact foldlM_eq_none hmem happly tables

end Apply

end MongooseIM.MucLight.Rdbms
