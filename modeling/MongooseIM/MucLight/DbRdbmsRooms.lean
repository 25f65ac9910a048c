import MongooseIM.MucLight.DbRdbms

/-! # The relational backend keeps the rooms

A command whose values can be written and fit into the columns does what it has to do to the rooms;
any other is aborted. -/

namespace MongooseIM.MucLight.Rdbms

open Erlang List Relational

variable {R U : Type*} [LinearOrder R] [LinearOrder U]

/-! ## Consistent tables -/

/-- **The rows of a room are of distinct users, and rooms and their numbers are distinct.** No row
is of a room that is gone. -/
structure Consistent (tables : Tables R U) : Prop where
  rooms_nodup : (tables.mucLightRooms.map RoomRow.room).Nodup
  ids_nodup : (tables.mucLightRooms.map RoomRow.id).Nodup
  ids_lt : ∀ row ∈ tables.mucLightRooms, row.id < tables.nextId
  versions_fit : ∀ row ∈ tables.mucLightRooms, FitsVersion row.version
  known : ∀ id, (∀ row ∈ tables.mucLightRooms, row.id ≠ id) → tables.occupants id = []
  occupants_nodup : ∀ id, (users (tables.occupants id)).Nodup

section Rooms

variable {tables : Tables R U}

omit [LinearOrder R] [LinearOrder U] in
/-- The empty tables are consistent. -/
theorem consistent_empty : Consistent (Tables.empty : Tables R U) where
  rooms_nodup := nodup_nil
  ids_nodup := nodup_nil
  ids_lt row hrow := by cases hrow
  versions_fit row hrow := by cases hrow
  known _ _ := rfl
  occupants_nodup _ := nodup_nil

omit [LinearOrder U] in
/-- The row that is selected is the one of the room. -/
theorem selectRoom_eq_some (h : Consistent tables) {room : R} {row : RoomRow R} :
    tables.selectRoom room = some row ↔ row ∈ tables.mucLightRooms ∧ row.room = room := by
  rw [Tables.selectRoom]
  constructor
  · intro hfind
    exact ⟨mem_of_find?_eq_some hfind, by simpa using find?_some hfind⟩
  · rintro ⟨hmem, rfl⟩
    cases hfind : tables.mucLightRooms.find? fun row' => row'.room = row.room with
    | none =>
      rw [find?_eq_none] at hfind
      exact absurd (decide_eq_true rfl) (hfind row hmem)
    | some row' =>
      have hroom : row'.room = row.room := by simpa using find?_some hfind
      rw [inj_on_of_nodup_map h.rooms_nodup (mem_of_find?_eq_some hfind) hmem hroom]

omit [LinearOrder U] in
/-- A room is not found exactly when no row has its name. -/
theorem selectRoom_eq_none {room : R} : tables.selectRoom room = none ↔
    ∀ row ∈ tables.mucLightRooms, row.room ≠ room := by
  simp [Tables.selectRoom]

variable {affUsers : AffUsers U}

/-- Affiliations of distinct users can be sorted into a well-formed list. -/
theorem wellFormed_sort (hnodup : (users affUsers).Nodup)
    (hne : ∀ affUser ∈ affUsers, affUser.2 ≠ .none) : WellFormed (sort affUsers) :=
  ⟨pairwise_sort_of_nodup hnodup, fun affUser h => hne affUser ((sort_perm affUsers).mem_iff.1 h)⟩

/-- Sorting keeps everybody's affiliation. -/
theorem affOf_sort (hnodup : (users affUsers).Nodup) (user : U) :
    affOf (sort affUsers) user = affOf affUsers user := by
  have hperm := sort_perm affUsers
  rw [affOf, lookup_of_perm hperm ((hperm.map Prod.fst).nodup_iff.2 hnodup)]
  rfl

omit [LinearOrder R] [LinearOrder U] in
/-- Each row of the occupants has an affiliation. -/
theorem occupants_ne_none (tables : Tables R U) (roomId : ℕ) :
    ∀ affUser ∈ tables.occupants roomId, affUser.2 ≠ .none := by
  rintro affUser h
  obtain ⟨row, _, rfl⟩ := mem_map.1 h
  exact affDb2atom_ne_none row.2

omit [LinearOrder R] in
/-- The affiliations read for a room are well formed. -/
theorem wellFormed_decodeAffs (h : Consistent tables) (roomId : ℕ) :
    WellFormed (Tables.decodeAffs (tables.selectAffsByRoomId roomId)) :=
  wellFormed_sort (h.occupants_nodup roomId) (occupants_ne_none tables roomId)

omit [LinearOrder R] in
/-- The affiliations read for a room are those of its rows. -/
theorem affOf_decodeAffs (h : Consistent tables) (roomId : ℕ) (user : U) :
    affOf (Tables.decodeAffs (tables.selectAffsByRoomId roomId)) user =
    affOf (tables.occupants roomId) user :=
  affOf_sort (h.occupants_nodup roomId) user

/-- The rooms read from consistent tables are well formed. -/
theorem getInfo_wellFormed (h : Consistent tables) : Store.WellFormed tables.getInfo := by
  intro room rec hrec
  obtain ⟨row, _, rfl⟩ := Option.map_eq_some_iff.1 hrec
  exact wellFormed_decodeAffs h row.id

/-- Updating a room with what it is changes nothing. -/
theorem update_getInfo {room : R} {entry : Option (MucLightRoom U)}
    (h : tables.getInfo room = entry) :
    tables.getInfo = Function.update tables.getInfo room entry := by
  rw [← h, Function.update_eq_self]

omit [LinearOrder R] [LinearOrder U] in
/-- Tables that differ in the occupants of one room that exists. -/
theorem Consistent.sameBut (h : Consistent tables) {tables' : Tables R U} {row : RoomRow R}
    (hrow : row ∈ tables.mucLightRooms) (hsame : SameBut row.id tables tables')
    (hnodup : (users (tables'.occupants row.id)).Nodup) : Consistent tables' := by
  refine ⟨hsame.rooms ▸ h.rooms_nodup, hsame.rooms ▸ h.ids_nodup, ?_,
    hsame.rooms ▸ h.versions_fit, fun id hid => ?_, fun id => ?_⟩
  · rw [hsame.rooms, hsame.nextId]
    exact h.ids_lt
  · rw [hsame.rooms] at hid
    rw [hsame.others id fun heq => hid row hrow heq.symm]
    exact h.known id hid
  · by_cases heq : id = row.id
    · exact heq ▸ hnodup
    · rw [hsame.others id heq]
      exact h.occupants_nodup id

section Version

variable {tables' : Tables R U} {room : R} {version : String}
  (hupdate : tables.updateRoomVersion room version = some tables')

include hupdate

omit [LinearOrder U] in
/-- A new version is one that its column can hold. -/
theorem updateRoomVersion_eq_some : FitsVersion version ∧ { tables with
    mucLightRooms := tables.mucLightRooms.map fun row =>
      if row.room = room then { row with version := version } else row } = tables' := by
  rw [Tables.updateRoomVersion] at hupdate
  split_ifs at hupdate with hfits
  exact ⟨hfits, Option.some.inj hupdate⟩

omit [LinearOrder U] in
/-- A new version changes only the row of its room. -/
theorem selectRoom_updateRoomVersion (room' : R) : tables'.selectRoom room' =
    (tables.selectRoom room').map fun row =>
      if row.room = room then { row with version := version } else row := by
  obtain ⟨_, rfl⟩ := updateRoomVersion_eq_some hupdate
  have hkeep : ((fun row : RoomRow R => decide (row.room = room')) ∘ fun row =>
      if row.room = room then { row with version := version } else row) =
        fun row => decide (row.room = room') := by
    funext row
    simp only [Function.comp_apply]
    split_ifs <;> rfl
  rw [Tables.selectRoom, find?_map, hkeep]
  rfl

omit [LinearOrder U] in
/-- A new version keeps the tables consistent. -/
theorem Consistent.updateRoomVersion (h : Consistent tables) : Consistent tables' := by
  obtain ⟨hfits, rfl⟩ := updateRoomVersion_eq_some hupdate
  have hrooms : (tables.mucLightRooms.map fun row =>
      if row.room = room then { row with version := version } else row).map RoomRow.room =
        tables.mucLightRooms.map RoomRow.room := by
    rw [map_map]
    refine map_congr_left fun row _ => ?_
    simp only [Function.comp_apply]
    split_ifs <;> rfl
  have hids : (tables.mucLightRooms.map fun row =>
      if row.room = room then { row with version := version } else row).map RoomRow.id =
        tables.mucLightRooms.map RoomRow.id := by
    rw [map_map]
    refine map_congr_left fun row _ => ?_
    simp only [Function.comp_apply]
    split_ifs <;> rfl
  have hmem {id : ℕ} : (∃ row ∈ tables.mucLightRooms.map fun row =>
      if row.room = room then { row with version := version } else row,
        row.id = id) ↔ ∃ row ∈ tables.mucLightRooms, row.id = id := by
    rw [← mem_map, hids, mem_map]
  refine ⟨hrooms ▸ h.rooms_nodup, hids ▸ h.ids_nodup, fun row hrow => ?_, fun row hrow => ?_,
    fun id hid => ?_, h.occupants_nodup⟩
  · obtain ⟨row', hrow', heq⟩ := hmem.1 ⟨row, hrow, rfl⟩
    exact heq ▸ h.ids_lt row' hrow'
  · obtain ⟨row', hrow', rfl⟩ := mem_map.1 hrow
    split_ifs
    · exact hfits
    · exact h.versions_fit row' hrow'
  · refine h.known id fun row hrow heq => ?_
    obtain ⟨row', hrow', heq'⟩ := hmem.2 ⟨row, hrow, heq⟩
    exact hid row' hrow' heq'

end Version

end Rooms

/-! ## What can be written -/

section CanWrite

variable (columns : Columns R U) (params : Params U)

/-- A change of a room can be written: the columns can hold its new version and who joins. -/
def CanModify (room : R) (affUsersChanges : AffUsers U) (externalCheck : ExternalCheck R U)
    (version : String) (store : Store R U) : Prop :=
  ∀ rec, store room = some rec → Carries params room affUsersChanges externalCheck rec →
    FitsVersion version ∧ ∀ user ∈ users affUsersChanges, user ∉ users rec.affUsers →
      FitsColumns (columns.user user)

/-- **What a command writes can be written.** A new room has a configuration that the schema can
turn into fields. -/
def CanWrite (store : Store R U) : Command R U → Prop
  | .createRoom room affUsers version config => store room = none →
    FitsColumns (columns.room room) ∧ FitsVersion version ∧
      (∀ affUser ∈ affUsers.1, FitsColumns (columns.user affUser.1)) ∧
      ∃ configFields, toBinaryKv config (columns.configSchema room) = .ok configFields ∧
        ∀ kv ∈ configFields, FitsConfig kv
  | .destroyRoom _ => True
  | .modifyAffUsers room affUsersChanges externalCheck version =>
    CanModify columns params room affUsersChanges externalCheck version store
  | .removeUser user version => ∀ room rec, store room = some rec → user ∈ users rec.affUsers →
    Carries params room [(user, .none)] (fun _ _ => none) rec → FitsVersion version

end CanWrite

/-! ## Commands -/

section Commands

variable {tables : Tables R U}

/-- The room of a row that is found. -/
theorem getInfo_of_selectRoom {room : R} {row : RoomRow R} (h : tables.selectRoom room = some row) :
    tables.getInfo room =
    some ⟨Tables.decodeAffs (tables.selectAffsByRoomId row.id), row.version⟩ := by
  rw [Tables.getInfo, h, Option.map_some]

/-! ### A change of affiliations -/

section Modify

variable {columns : Columns R U} {params : Params U} {room : R} {affUsersChanges : AffUsers U}
  {externalCheck : ExternalCheck R U} {version : String}

/-- **A change that can be written is made**, or refused, as it has to be. -/
theorem modifyAffUsersTransaction_refines (h : Consistent tables)
    (hcan : CanModify columns params room affUsersChanges externalCheck version tables.getInfo) :
    ∃ out, modifyAffUsersTransaction columns params room affUsersChanges externalCheck version
      tables = some out ∧
    out.2.getInfo =
      Store.modify params room affUsersChanges externalCheck version tables.getInfo ∧
    Consistent out.2 := by
  rw [modifyAffUsersTransaction, Store.modify]
  cases hselect : tables.selectRoom room with
  | none =>
    have hroom : tables.getInfo room = none := by rw [Tables.getInfo, hselect, Option.map_none]
    refine ⟨_, rfl, ?_, h⟩
    rw [hroom]
    exact update_getInfo hroom
  | some row =>
    obtain ⟨hrow, rfl⟩ := (selectRoom_eq_some h).1 hselect
    have hroom := getInfo_of_selectRoom hselect
    have hsame := update_getInfo hroom
    have hwf := wellFormed_decodeAffs h row.id
    rw [hroom, Option.map_some, modifyRoom]
    simp only [modifyAffUsersRow]
    rcases changeAffUsers_cases params.lib params.allowMultipleOwners hwf affUsersChanges with
      ⟨text, herror⟩ | ⟨res, hok, hnew, hdiff, _⟩
    · rw [herror]
      exact ⟨_, rfl, hsame, h⟩
    rw [hok]
    simp only
    cases hcheck : externalCheck row.room res.newAffUsers with
    | some reason => exact ⟨_, rfl, hsame, h⟩
    | none =>
      obtain ⟨hversion, hfits⟩ := hcan _ hroom ⟨res, hok, hcheck⟩
      have hfits : ∀ user ∈ res.joiningUsers, FitsColumns (columns.user user) := fun user huser =>
        have hjoins := (mem_joiningUsers_of_changeAffUsers hok).1 huser
        hfits user hjoins.1 hjoins.2
      -- a changed user with an affiliation joins exactly when it has no row
      have husers (user : U) : user ∈ users (tables.occupants row.id) ↔
          user ∈ users (Tables.decodeAffs (tables.selectAffsByRoomId row.id)) :=
        ((sort_perm _).map Prod.fst).mem_iff.symm
      have hjoin : ∀ c ∈ res.changedAffUsers, c.2 ≠ .none →
          (c.1 ∈ res.joiningUsers ↔ c.1 ∉ users (tables.occupants row.id)) := by
        rintro ⟨user, aff⟩ hc hnone
        have haff := ((hdiff.mem_changed user aff).1 hc).1
        have hin : user ∈ users res.newAffUsers := by
          rw [hnew.mem_users_iff, haff]
          exact hnone
        rw [hdiff.mem_joining, husers]
        exact and_iff_right hin
      obtain ⟨tables', happly, hbut, hnodup, haff⟩ := applyAffUsersTransaction_spec
        hdiff.changed_nodup (h.occupants_nodup row.id) hfits hjoin
      have hcons := h.sameBut hrow hbut hnodup
      obtain ⟨updated, hupdate⟩ : ∃ updated,
          tables'.updateRoomVersion row.room version = some updated :=
        ⟨_, by rw [Tables.updateRoomVersion, if_pos hversion]⟩
      refine ⟨_, by rw [happly, Option.bind_some, hupdate]; rfl, ?_,
        hcons.updateRoomVersion hupdate⟩
      have hoccupants (id : ℕ) : updated.occupants id = tables'.occupants id := by
        obtain ⟨_, rfl⟩ := updateRoomVersion_eq_some hupdate
        rfl
      funext room'
      rw [Function.update_apply, Tables.getInfo, selectRoom_updateRoomVersion hupdate,
        Tables.selectRoom, hbut.rooms, ← Tables.selectRoom]
      split_ifs with heq
      · subst heq
        rw [hselect, Option.map_some, Option.map_some, if_pos rfl]
        have hlist : Tables.decodeAffs (updated.selectAffsByRoomId row.id) = res.newAffUsers := by
          refine (wellFormed_decodeAffs (hcons.updateRoomVersion hupdate) row.id).ext hnew
            fun user => ?_
          rw [affOf_decodeAffs (hcons.updateRoomVersion hupdate), hoccupants, haff]
          cases hchange : res.changedAffUsers.lookup user with
          | some aff =>
            exact ((hdiff.mem_changed user aff).1 (mem_of_lookup hchange)).1.symm
          | none =>
            rw [Option.getD_none, ← affOf_decodeAffs h]
            exact hdiff.affOf_eq (Erlang.lookup_eq_none_iff.1 hchange)
        exact congrArg some (congrArg (fun affUsers => MucLightRoom.mk affUsers version) hlist)
      · rw [Tables.getInfo]
        cases hother : tables.selectRoom room' with
        | none => rfl
        | some row' =>
          obtain ⟨hrow', rfl⟩ := (selectRoom_eq_some h).1 hother
          have hid : row'.id ≠ row.id := fun hid =>
            heq (inj_on_of_nodup_map h.ids_nodup hrow' hrow hid ▸ rfl)
          rw [Option.map_some, Option.map_some, if_neg heq]
          have hocc := (hoccupants row'.id).trans (hbut.others row'.id hid)
          exact congrArg some
            (congrArg (fun affUsers => MucLightRoom.mk (sort affUsers) row'.version) hocc)

/-- **A change that cannot be written is aborted.** -/
theorem modifyAffUsersTransaction_eq_none (h : Consistent tables)
    (hcan : ¬CanModify columns params room affUsersChanges externalCheck version tables.getInfo) :
    modifyAffUsersTransaction columns params room affUsersChanges externalCheck version tables =
    none := by
  simp only [CanModify, not_forall] at hcan
  obtain ⟨rec, hrec, ⟨res, hok, hcheck⟩, hnot⟩ := hcan
  obtain ⟨row, hselect, rfl⟩ := Option.map_eq_some_iff.1 hrec
  rw [modifyAffUsersTransaction, hselect]
  simp only [modifyAffUsersRow]
  rw [hok]
  simp only [hcheck]
  by_cases hversion : FitsVersion version
  · -- a joining user cannot be written
    have hjoins : ∃ user ∈ users affUsersChanges, user ∉ users (Tables.decodeAffs
        (tables.selectAffsByRoomId row.id)) ∧ ¬FitsColumns (columns.user user) := by
      by_contra hno
      refine hnot ⟨hversion, fun user huser hnew => ?_⟩
      by_contra hfits
      exact hno ⟨user, huser, hnew, hfits⟩
    obtain ⟨user, huser, hnew, hfits⟩ := hjoins
    have hin := (mem_joiningUsers_of_changeAffUsers hok).2 ⟨huser, hnew⟩
    rcases changeAffUsers_cases params.lib params.allowMultipleOwners
      (wellFormed_decodeAffs h row.id) affUsersChanges with
      ⟨text, herror⟩ | ⟨res', hok', hwf, hdiff, _⟩
    · rw [hok] at herror
      cases herror
    · cases hok.symm.trans hok'
      have haff := hwf.mem_users_iff.1 ((hdiff.mem_joining user).1 hin).1
      have hold : affOf (Tables.decodeAffs (tables.selectAffsByRoomId row.id)) user = .none := by
        by_contra hsome
        exact hnew ((wellFormed_decodeAffs h row.id).mem_users_iff.2 hsome)
      have hchanged := (hdiff.mem_changed user _).2 ⟨rfl, hold ▸ haff.symm⟩
      rw [applyAffUsersTransaction_eq_none hin hfits haff hchanged, Option.bind_none]
  · cases applyAffUsersTransaction columns row.id res.changedAffUsers res.joiningUsers tables with
    | none => rfl
    | some tables' => rw [Option.bind_some, Tables.updateRoomVersion, if_neg hversion]; rfl

/-- With a version that does not fit, nothing is changed. -/
theorem modifyAffUsersTransaction_of_not_fits (hversion : ¬FitsVersion version) (room : R)
    (affUsersChanges : AffUsers U) (externalCheck : ExternalCheck R U) :
    (modifyAffUsersTransaction columns params room affUsersChanges externalCheck version
    tables).map Prod.snd = none ∨
    (modifyAffUsersTransaction columns params room affUsersChanges externalCheck version
    tables).map Prod.snd = some tables := by
  rw [modifyAffUsersTransaction]
  cases tables.selectRoom room with
  | none => exact Or.inr rfl
  | some row =>
    simp only [modifyAffUsersRow]
    split
    · split
      · left
        cases applyAffUsersTransaction columns row.id _ _ tables with
        | none => rfl
        | some tables' => rw [Option.bind_some, Tables.updateRoomVersion, if_neg hversion]; rfl
      · exact Or.inr rfl
    · exact Or.inr rfl

end Modify

/-! ### A new room -/

omit [LinearOrder R] [LinearOrder U] in
/-- The rows of occupants that all have an affiliation and fit into the columns. -/
theorem foldlM_insertAff {columns : Columns R U} (tables : Tables R U) (roomId : ℕ)
    {affUsers : AffUsers U} (hne : ∀ affUser ∈ affUsers, affUser.2 ≠ .none)
    (hfits : ∀ affUser ∈ affUsers, FitsColumns (columns.user affUser.1)) :
    ∃ tables', affUsers.foldlM (fun (tables : Tables R U) affUser =>
      tables.insertAff columns roomId affUser.1 affUser.2) tables = some tables' ∧
    SameBut roomId tables tables' ∧
    tables'.occupants roomId = tables.occupants roomId ++ affUsers := by
  induction affUsers generalizing tables with
  | nil => exact ⟨tables, rfl, ⟨rfl, rfl, fun _ _ => rfl⟩, (append_nil _).symm⟩
  | cons affUser affUsers ih =>
    obtain ⟨affDb, haff⟩ := exists_affAtom2db (hne affUser mem_cons_self)
    obtain ⟨tables₁, hinsert⟩ :
        ∃ tables₁, tables.insertAff columns roomId affUser.1 affUser.2 = some tables₁ :=
      ⟨_, insertAff_eq_some.2 ⟨hfits _ mem_cons_self, affDb, haff, rfl⟩⟩
    have hframe : tables₁.nextId = tables.nextId ∧
        tables₁.mucLightRooms = tables.mucLightRooms := by
      obtain ⟨_, _, _, rfl⟩ := insertAff_eq_some.1 hinsert
      exact ⟨rfl, rfl⟩
    have hafter := occupants_insertAff hinsert
    obtain ⟨tables₂, hrest, hsame, hocc⟩ := ih tables₁
      (fun c hc => hne c (mem_cons_of_mem _ hc)) fun c hc => hfits c (mem_cons_of_mem _ hc)
    refine ⟨tables₂, ?_, ⟨hsame.nextId.trans hframe.1, hsame.rooms.trans hframe.2,
      fun id hid => ?_⟩, ?_⟩
    · rw [foldlM_cons, hinsert]
      exact hrest
    · rw [hsame.others id hid, hafter, if_neg hid]
    · rw [hocc, hafter, if_pos rfl, append_assoc]
      rfl

omit [LinearOrder U] in
/-- The row of a new room, which has no occupants yet. -/
theorem insertRoom_spec {columns : Columns R U} (h : Consistent tables) {room : R}
    (hnot : ∀ row ∈ tables.mucLightRooms, row.room ≠ room)
    (hroom : FitsColumns (columns.room room)) {version : String} (hversion : FitsVersion version) :
    ∃ inserted, tables.insertRoom columns room version = some inserted ∧
    inserted.mucLightRooms = tables.mucLightRooms ++ [⟨tables.nextId, room, version⟩] ∧
    (∀ id, inserted.occupants id = tables.occupants id) ∧ Consistent inserted := by
  have hinsert : tables.insertRoom columns room version = some { tables with
      nextId := tables.nextId + 1
      mucLightRooms := tables.mucLightRooms ++ [⟨tables.nextId, room, version⟩] } := by
    rw [Tables.insertRoom, if_pos ⟨hroom, hversion, hnot⟩]
  refine ⟨_, hinsert, rfl, fun _ => rfl, ?_, ?_, ?_, ?_, fun id hid => ?_, h.occupants_nodup⟩
  · rw [map_append]
    refine h.rooms_nodup.append (nodup_singleton _) (disjoint_singleton.2 ?_)
    intro hmem
    obtain ⟨row, hrow, heq⟩ := mem_map.1 hmem
    exact hnot row hrow heq
  · rw [map_append]
    refine h.ids_nodup.append (nodup_singleton _) (disjoint_singleton.2 ?_)
    intro hmem
    obtain ⟨row, hrow, heq⟩ := mem_map.1 hmem
    exact absurd heq (ne_of_lt (h.ids_lt row hrow))
  · rintro row hrow
    rcases mem_append.1 hrow with hrow | hrow
    · exact Nat.lt_succ_of_lt (h.ids_lt row hrow)
    · rw [mem_singleton.1 hrow]
      exact Nat.lt_succ_self _
  · rintro row hrow
    rcases mem_append.1 hrow with hrow | hrow
    · exact h.versions_fit row hrow
    · rw [mem_singleton.1 hrow]
      exact hversion
  · exact h.known id fun row hrow => hid row (mem_append_left _ hrow)

omit [LinearOrder R] [LinearOrder U] in
/-- The rows of a configuration are written when each of them fits. -/
theorem foldlM_insertConfig (tables : Tables R U) (configFields : List (String × Value)) :
    configFields.foldlM (fun (tables : Tables R U) kv => tables.insertConfig kv) tables =
    if ∀ kv ∈ configFields, FitsConfig kv then some tables else none := by
  have hkeep : configFields.foldl (fun (tables : Tables R U) _ => tables) tables = tables := by
    induction configFields with
    | nil => rfl
    | cons _ _ ih => exact ih
  have hinsert (tables : Tables R U) (kv : String × Value) :
      tables.insertConfig kv = if FitsConfig kv then some tables else none := rfl
  rw [foldlM_ite hinsert, hkeep]

/-- **A new room that can be written is there afterwards**, and one that exists stays. -/
theorem createRoom_refines {columns : Columns R U} (h : Consistent tables) (params : Params U)
    (room : R) (affUsers : {affUsers : AffUsers U // WellFormed affUsers}) (version : String)
    (config : Entries)
    (hcan : CanWrite columns params tables.getInfo (.createRoom room affUsers version config)) :
    ∃ out, createRoom columns room affUsers version config tables = some out ∧
    out.2.getInfo = Function.update tables.getInfo room
      (some ((tables.getInfo room).getD ⟨affUsers, version⟩)) ∧ Consistent out.2 := by
  obtain ⟨affUsers, hwf⟩ := affUsers
  cases hselect : tables.selectRoom room with
  | some row =>
    have hroom := getInfo_of_selectRoom hselect
    obtain ⟨hrow, heq⟩ := (selectRoom_eq_some h).1 hselect
    refine ⟨(.error .alreadyExists, tables), ?_, ?_, h⟩
    · rw [createRoom, createRoomTransaction, Tables.insertRoom,
        if_neg fun hinsert => hinsert.2.2 row hrow heq, Option.bind_none, hselect]
      rfl
    · rw [hroom]
      exact update_getInfo hroom
  | none =>
    have hnot := selectRoom_eq_none.1 hselect
    have hroom : tables.getInfo room = none := by rw [Tables.getInfo, hselect, Option.map_none]
    have hfresh : ∀ row ∈ tables.mucLightRooms, row.id ≠ tables.nextId := fun row hrow =>
      ne_of_lt (h.ids_lt row hrow)
    obtain ⟨hfits, hversion, husers, configFields, hfields, hconfig⟩ := hcan hroom
    obtain ⟨inserted, hinsert, hrooms, hoccupants, hcons⟩ := insertRoom_spec h hnot hfits hversion
    have hrowMem : (⟨tables.nextId, room, version⟩ : RoomRow R) ∈ inserted.mucLightRooms := by
      rw [hrooms]
      exact mem_append_right _ (mem_singleton_self _)
    have hselected : inserted.selectRoom room = some ⟨tables.nextId, room, version⟩ :=
      (selectRoom_eq_some hcons).2 ⟨hrowMem, rfl⟩
    obtain ⟨tables', hfold, hsame, hocc⟩ :=
      foldlM_insertAff inserted tables.nextId hwf.ne_none husers
    have hnew : tables'.occupants tables.nextId = affUsers := by
      rw [hocc, hoccupants, h.known tables.nextId hfresh, nil_append]
    have hcons' := hcons.sameBut hrowMem hsame (by rw [hnew]; exact hwf.nodup)
    refine ⟨(.ok room, tables'), ?_, ?_, hcons'⟩
    · rw [createRoom, createRoomTransaction, hinsert, Option.bind_some, hselected,
        Option.bind_some, hfields]
      simp only
      rw [hfold, Option.bind_some, foldlM_insertConfig, if_pos hconfig]
    · funext room'
      rw [Function.update_apply, hroom]
      simp only [Tables.getInfo, Tables.selectRoom, hsame.rooms]
      split_ifs with heq
      · subst heq
        have hlist : Tables.decodeAffs (tables'.selectAffsByRoomId tables.nextId) = affUsers := by
          refine (wellFormed_decodeAffs hcons' tables.nextId).ext hwf fun user => ?_
          rw [affOf_decodeAffs hcons', hnew]
        rw [← Tables.selectRoom, hselected, Option.map_some, hlist]
        rfl
      · rw [hrooms, find?_append]
        have hlast : ([⟨tables.nextId, room, version⟩] : List (RoomRow R)).find?
            (fun row => row.room = room') = none := by
          have hne : ¬room = room' := fun h => heq h.symm
          simp [hne]
        rw [hlast, Option.or_none]
        cases hother : tables.mucLightRooms.find? fun row => row.room = room' with
        | none => rfl
        | some row' =>
          have hid := hfresh row' (mem_of_find?_eq_some hother)
          have hocc' := (hsame.others row'.id hid).trans (hoccupants row'.id)
          exact congrArg some
            (congrArg (fun affUsers => MucLightRoom.mk (sort affUsers) row'.version) hocc')

/-- **A new room that cannot be written is not made**: its transaction is aborted. -/
theorem createRoom_eq_none {columns : Columns R U} {params : Params U} {room : R}
    {affUsers : {affUsers : AffUsers U // WellFormed affUsers}} {version : String}
    {config : Entries}
    (hcan : ¬CanWrite columns params tables.getInfo (.createRoom room affUsers version config)) :
    createRoom columns room affUsers version config tables = none := by
  rw [CanWrite, Classical.not_imp] at hcan
  obtain ⟨hroom, hnot⟩ := hcan
  have hselect : tables.selectRoom room = none := Option.map_eq_none_iff.1 hroom
  have habort : createRoomTransaction columns room affUsers version config tables = none := by
    by_contra hsome
    refine hnot ?_
    rw [createRoomTransaction] at hsome
    obtain ⟨tables', htables⟩ := Option.ne_none_iff_exists'.1 hsome
    obtain ⟨inserted, hinsert, htables⟩ := Option.bind_eq_some_iff.1 htables
    obtain ⟨row, _, htables⟩ := Option.bind_eq_some_iff.1 htables
    rw [Tables.insertRoom] at hinsert
    split_ifs at hinsert with hfits
    split at htables
    · cases htables
    · next configFields hfields =>
      obtain ⟨withAffs, haffs, htables⟩ := Option.bind_eq_some_iff.1 htables
      rw [foldlM_insertConfig] at htables
      split_ifs at htables with hconfig
      refine ⟨hfits.1, hfits.2.1, fun affUser hmem => ?_, configFields, hfields, hconfig⟩
      by_contra huser
      -- the row of an occupant who does not fit
      rw [foldlM_eq_none hmem fun (tables : Tables R U) => by
        rw [Tables.insertAff, if_neg huser]] at haffs
      cases haffs
  rw [createRoom, habort, hselect]
  rfl

/-! ### Rooms and users that leave -/

omit [LinearOrder R] [LinearOrder U] in
/-- Deleting the affiliations of a room leaves those of the others. -/
theorem occupants_deleteAffs (tables : Tables R U) (roomId roomId' : ℕ) :
    (tables.deleteAffs roomId).occupants roomId' =
    if roomId' = roomId then [] else tables.occupants roomId' := by
  rw [occupants_eq, occupants_eq, Tables.deleteAffs, filter_filter]
  split_ifs with heq
  · rw [map_eq_nil_iff, filter_eq_nil_iff]
    intro row _
    simp only [Bool.and_eq_true, decide_eq_true_eq, not_and]
    exact fun hid hne => hne (hid.trans heq)
  · congr 1
    refine filter_congr fun row _ => ?_
    by_cases hid : row.roomId = roomId'
    · simp [hid, heq]
    · simp [hid]

/-- **Destroying a room** takes it, and nothing else, out of the store. -/
theorem destroyRoomTransaction_refines (h : Consistent tables) (room : R) :
    (destroyRoomTransaction room tables).2.getInfo = Function.update tables.getInfo room none ∧
    Consistent (destroyRoomTransaction room tables).2 := by
  rw [destroyRoomTransaction]
  cases hselect : tables.selectRoom room with
  | none =>
    have hroom : tables.getInfo room = none := by rw [Tables.getInfo, hselect, Option.map_none]
    exact ⟨update_getInfo hroom, h⟩
  | some row =>
    obtain ⟨hrow, rfl⟩ := (selectRoom_eq_some h).1 hselect
    have hoccupants (id : ℕ) : ((tables.deleteAffs row.id).deleteRoom row.room).occupants id =
          if id = row.id then [] else tables.occupants id := occupants_deleteAffs tables row.id id
    have hsub : ((tables.deleteAffs row.id).deleteRoom row.room).mucLightRooms.Sublist
        tables.mucLightRooms := filter_sublist
    constructor
    · funext room'
      rw [Function.update_apply]
      split_ifs with heq
      · have hgone : ((tables.deleteAffs row.id).deleteRoom row.room).selectRoom room' = none := by
          rw [selectRoom_eq_none]
          rintro row' hrow' rfl
          exact of_decide_eq_true (mem_filter.1 hrow').2 heq
        rw [Tables.getInfo, hgone, Option.map_none]
      · have hkept : ((tables.deleteAffs row.id).deleteRoom row.room).selectRoom room' =
            tables.selectRoom room' := by
          rw [Tables.selectRoom, Tables.selectRoom, Tables.deleteRoom, Tables.deleteAffs,
            find?_filter]
          congr 1
          funext row'
          by_cases hroom' : row'.room = room'
          · simp [hroom', heq]
          · simp [hroom']
        rw [Tables.getInfo, Tables.getInfo, hkept]
        cases hother : tables.selectRoom room' with
        | none => rfl
        | some row' =>
          obtain ⟨hrow', rfl⟩ := (selectRoom_eq_some h).1 hother
          have hid : row'.id ≠ row.id := fun hid =>
            heq (inj_on_of_nodup_map h.ids_nodup hrow' hrow hid ▸ rfl)
          have hocc := hoccupants row'.id
          rw [if_neg hid] at hocc
          exact congrArg some
            (congrArg (fun affUsers => MucLightRoom.mk (sort affUsers) row'.version) hocc)
    · refine ⟨(hsub.map _).nodup h.rooms_nodup, (hsub.map _).nodup h.ids_nodup,
        fun row' hrow' => h.ids_lt row' (hsub.subset hrow'),
        fun row' hrow' => h.versions_fit row' (hsub.subset hrow'), fun id hid => ?_, fun id => ?_⟩
      · rw [hoccupants]
        split_ifs with heq
        · rfl
        · refine h.known id fun row' hrow' hid' => hid row' ?_ hid'
          refine mem_filter.2 ⟨hrow', decide_eq_true fun hroom => heq ?_⟩
          rw [← hid', inj_on_of_nodup_map h.rooms_nodup hrow' hrow hroom]
      · rw [hoccupants]
        split_ifs
        · exact nodup_nil
        · exact h.occupants_nodup id

/-- The rooms of a user are those it is an occupant of. -/
theorem mem_getUserRooms (h : Consistent tables) {user : U} {room : R} :
    room ∈ tables.getUserRooms user ↔
    ∃ rec, tables.getInfo room = some rec ∧ user ∈ users rec.affUsers := by
  have husers (roomId : ℕ) : user ∈ users (Tables.decodeAffs (tables.selectAffsByRoomId roomId)) ↔
        ∃ occupant ∈ tables.mucLightOccupants, occupant.roomId = roomId ∧ occupant.user = user := by
    have hperm : (Tables.decodeAffs (tables.selectAffsByRoomId roomId)).Perm
        (tables.occupants roomId) := sort_perm _
    rw [(hperm.map Prod.fst).mem_iff, occupants_eq]
    simp only [mem_map, mem_filter, decide_eq_true_eq]
    constructor
    · rintro ⟨_, ⟨occupant, ⟨hin, hid⟩, rfl⟩, rfl⟩
      exact ⟨occupant, hin, hid, rfl⟩
    · rintro ⟨occupant, hin, hid, rfl⟩
      exact ⟨_, ⟨occupant, ⟨hin, hid⟩, rfl⟩, rfl⟩
  rw [Tables.getUserRooms, mem_usort, Tables.selectUserRooms]
  simp only [mem_flatMap, mem_filter, mem_map, decide_eq_true_eq]
  constructor
  · rintro ⟨occupant, ⟨hin, huser⟩, row, ⟨hrow, hid⟩, rfl⟩
    refine ⟨_, getInfo_of_selectRoom ((selectRoom_eq_some h).2 ⟨hrow, rfl⟩), ?_⟩
    exact mem_map.1 ((husers row.id).2 ⟨occupant, hin, hid, huser⟩)
  · rintro ⟨rec, hrec, hin⟩
    obtain ⟨row, hselect, rfl⟩ := Option.map_eq_some_iff.1 hrec
    obtain ⟨hrow, rfl⟩ := (selectRoom_eq_some h).1 hselect
    obtain ⟨occupant, hocc, hid, huser⟩ := (husers row.id).1 (mem_map.2 hin)
    exact ⟨occupant, ⟨hocc, huser⟩, row, ⟨hrow, hid⟩, rfl⟩

section RemoveUser

variable {columns : Columns R U} {params : Params U} {user : U} {version : String}

/-- The rooms of a user, which it is taken out of one after the other. -/
theorem foldlM_leave_refines {rooms : List R} (hnodup : rooms.Nodup) (h : Consistent tables)
    (hcan : ∀ room ∈ rooms, CanModify columns params room [(user, .none)] (fun _ _ => none) version
    tables.getInfo) :
    ∃ tables', rooms.foldlM (fun tables room => (modifyAffUsersTransaction columns params room
        [(user, .none)] (fun _ _ => none) version tables).map Prod.snd) tables =
      some tables' ∧
    tables'.getInfo = rooms.foldl
      (fun store room => Store.leave params user version store room) tables.getInfo ∧
    Consistent tables' := by
  induction rooms generalizing tables with
  | nil => exact ⟨tables, rfl, rfl, h⟩
  | cons room rooms ih =>
    obtain ⟨hnot, hnodup⟩ := nodup_cons.1 hnodup
    obtain ⟨out, hmodify, hinfo, hcons⟩ :=
      modifyAffUsersTransaction_refines h (hcan room mem_cons_self)
    -- the rooms that are left are as they were
    have hcan' : ∀ room' ∈ rooms, CanModify columns params room' [(user, .none)]
        (fun _ _ => none) version out.2.getInfo := by
      intro room' hmem rec hrec
      have hne : room' ≠ room := fun heq => hnot (heq ▸ hmem)
      refine hcan room' (mem_cons_of_mem _ hmem) rec ?_
      rw [hinfo, ← Store.leave, Store.leave_of_ne params user version _ hne] at hrec
      exact hrec
    obtain ⟨tables', hrest, hinfo', hcons'⟩ := ih hnodup hcons hcan'
    refine ⟨tables', ?_, ?_, hcons'⟩
    · rw [foldlM_cons, hmodify]
      exact hrest
    · rw [foldl_cons, hinfo', hinfo]
      rfl

/-- **A user is taken out of all its rooms** when that can be written. -/
theorem removeUserTransaction_refines (h : Consistent tables)
    (hcan : CanWrite columns params tables.getInfo (.removeUser user version)) :
    ∃ tables', removeUserTransaction columns params user version tables = some tables' ∧
    tables'.getInfo = Store.step params tables.getInfo (.removeUser user version) ∧
    Consistent tables' := by
  have hrooms : ∀ room ∈ tables.getUserRooms user, CanModify columns params room
      [(user, .none)] (fun _ _ => none) version tables.getInfo := by
    intro room hmem rec hrec hcarries
    obtain ⟨rec', hrec', hin⟩ := (mem_getUserRooms h).1 hmem
    cases hrec.symm.trans hrec'
    refine ⟨hcan room rec hrec hin hcarries, fun user' huser' hnot => ?_⟩
    cases mem_singleton.1 huser'
    exact absurd hin hnot
  obtain ⟨tables', hrun, hinfo, hcons⟩ := foldlM_leave_refines (nodup_usort _) h hrooms
  refine ⟨tables', hrun, hinfo.trans ?_, hcons⟩
  exact Store.step_removeUser (nodup_usort _) fun room => mem_getUserRooms h

/-- A user is taken out of no room when one of them cannot be written. -/
theorem removeUserTransaction_eq_none (h : Consistent tables)
    (hcan : ¬CanWrite columns params tables.getInfo (.removeUser user version)) :
    removeUserTransaction columns params user version tables = none := by
  simp only [CanWrite, not_forall] at hcan
  obtain ⟨room, rec, hrec, hin, hcarries, hversion⟩ := hcan
  refine foldlM_eq_none_of_keeps
    (fun room' => modifyAffUsersTransaction_of_not_fits hversion room' _ _)
    ((mem_getUserRooms h).2 ⟨rec, hrec, hin⟩) ?_
  rw [modifyAffUsersTransaction_eq_none h fun hmodify =>
    hversion (hmodify rec hrec hcarries).1]
  rfl

end RemoveUser

/-! ### Every command -/

variable {columns : Columns R U} {params : Params U} {command : Command R U}

/-- **A command that can be written does to the rooms what it has to do.** -/
theorem step_refines (h : Consistent tables)
    (hcan : CanWrite columns params tables.getInfo command) :
    ∃ tables', step columns params tables command = some tables' ∧
    tables'.getInfo = Store.step params tables.getInfo command ∧ Consistent tables' := by
  cases command with
  | createRoom room affUsers version config =>
    obtain ⟨out, hout, hinfo, hcons⟩ := createRoom_refines h params room affUsers version config hcan
    exact ⟨out.2, by rw [step, hout]; rfl, hinfo, hcons⟩
  | destroyRoom room =>
    obtain ⟨hinfo, hcons⟩ := destroyRoomTransaction_refines h room
    exact ⟨_, rfl, hinfo, hcons⟩
  | modifyAffUsers room affUsersChanges externalCheck version =>
    obtain ⟨out, hout, hinfo, hcons⟩ := modifyAffUsersTransaction_refines h hcan
    exact ⟨out.2, by rw [step, hout]; rfl, hinfo, hcons⟩
  | removeUser user version => exact removeUserTransaction_refines h hcan

/-- **A command that cannot be written is aborted.** -/
theorem step_eq_none (h : Consistent tables)
    (hcan : ¬CanWrite columns params tables.getInfo command) :
    step columns params tables command = none := by
  cases command with
  | createRoom room affUsers version config => rw [step, createRoom_eq_none hcan, Option.map_none]
  | destroyRoom room => exact absurd trivial hcan
  | modifyAffUsers room affUsersChanges externalCheck version =>
    rw [step, modifyAffUsersTransaction_eq_none h hcan, Option.map_none]
  | removeUser user version => exact removeUserTransaction_eq_none h hcan

/-- The version of a stored room fits its column. -/
theorem fitsVersion_of_getInfo (h : Consistent tables) {room : R} {rec : MucLightRoom U}
    (hrec : tables.getInfo room = some rec) : FitsVersion rec.version := by
  obtain ⟨row, hselect, rfl⟩ := Option.map_eq_some_iff.1 hrec
  exact h.versions_fit row ((selectRoom_eq_some h).1 hselect).1

/-- **A command that leaves every room as it was can be written**: there is nothing new to write. -/
theorem canWrite_of_step_eq (h : Consistent tables)
    (heq : Store.step params tables.getInfo command = tables.getInfo) :
    CanWrite columns params tables.getInfo command := by
  have hwf := getInfo_wellFormed h
  cases command with
  | createRoom room affUsers version config =>
    intro hroom
    have hsame := congrFun heq room
    rw [Store.step, Function.update_self, hroom] at hsame
    cases hsame
  | destroyRoom room => trivial
  | modifyAffUsers room affUsersChanges externalCheck version =>
    intro rec hrec hcarries
    have hsame := congrFun heq room
    rw [Store.step, Store.modify, Function.update_self, hrec, Option.map_some] at hsame
    obtain ⟨hversion, hnobody⟩ := eq_of_modifyRoom_eq (hwf room rec hrec) hcarries
      (Option.some.inj hsame)
    refine ⟨hversion ▸ fitsVersion_of_getInfo h hrec, fun user huser hnot => ?_⟩
    exact absurd (hnobody user huser) hnot
  | removeUser user version =>
    intro room rec hrec hin hcarries
    have hsame := congrFun heq room
    simp only [Store.step, hrec, if_pos hin, Store.leave_self, Option.map_some] at hsame
    obtain ⟨hversion, _⟩ := eq_of_modifyRoom_eq (hwf room rec hrec) hcarries
      (Option.some.inj hsame)
    exact hversion ▸ fitsVersion_of_getInfo h hrec

end Commands

end MongooseIM.MucLight.Rdbms
