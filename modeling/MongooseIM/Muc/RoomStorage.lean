import MongooseIM.Erlang.Lists
import MongooseIM.Muc.RoomOpts
import MongooseIM.Relational.Columns

/-! # Stored rooms

The two storages of persistent rooms, and what a room is after it was stored and restored. The
library that writes and reads JSON is a parameter. -/

namespace MongooseIM.Muc

open Erlang Relational Xmpp List

/-! ## Mnesia -/

namespace Mnesia

/-- The table `muc_room`, by name and host. -/
abbrev Rooms := AList fun _ : String × String => List (OptName × OptValue)

/-- `store_room/4` -/
def storeRoom (mucHost roomName : String) (opts : List (OptName × OptValue)) (rooms : Rooms) :
    Rooms :=
  rooms.insert (roomName, mucHost) opts

/-- `restore_room/3`, none for `room_not_found`. -/
def restoreRoom (mucHost roomName : String) (rooms : Rooms) : Option (List (OptName × OptValue)) :=
  rooms.lookup (roomName, mucHost)

end Mnesia

/-! ## JSON -/

namespace OptName

/-- The text of the atom. -/
def text : OptName → String
  | title => "title"
  | description => "description"
  | allowChangeSubj => "allow_change_subj"
  | allowQueryUsers => "allow_query_users"
  | allowPrivateMessages => "allow_private_messages"
  | allowVisitorStatus => "allow_visitor_status"
  | allowVisitorNickchange => "allow_visitor_nickchange"
  | publicRoom => "public"
  | publicList => "public_list"
  | persistent => "persistent"
  | moderated => "moderated"
  | membersByDefault => "members_by_default"
  | membersOnly => "members_only"
  | allowUserInvites => "allow_user_invites"
  | allowMultipleSessions => "allow_multiple_sessions"
  | passwordProtected => "password_protected"
  | password => "password"
  | anonymous => "anonymous"
  | logging => "logging"
  | maxUsers => "max_users"
  | maygetmemberlist => "maygetmemberlist"
  | affiliations => "affiliations"
  | subject => "subject"
  | subjectAuthor => "subject_author"
  | subjectTimestamp => "subject_timestamp"

/-- All names. -/
def all : List OptName :=
  [title, description, allowChangeSubj, allowQueryUsers, allowPrivateMessages, allowVisitorStatus,
    allowVisitorNickchange, publicRoom, publicList, persistent, moderated, membersByDefault,
    membersOnly, allowUserInvites, allowMultipleSessions, passwordProtected, password, anonymous,
    logging, maxUsers, maygetmemberlist, affiliations, subject, subjectAuthor, subjectTimestamp]

/-- `binary_to_existing_atom/2`, none for a text that is no name of an option. -/
def ofText (key : String) : Option OptName := all.find? fun name => name.text = key

theorem ofText_text (name : OptName) : ofText name.text = some name := by
  cases name <;> decide +kernel

end OptName

/-- `jiffy`: objects as text. -/
structure Jiffy (Text : Type*) where
  encode : List (String × Term) → Option Text
  decode : Text → Option (List (String × Term))

/-- An object that was written is read again with its keys in order, but most atoms as texts. -/
def Jiffy.RoundTrips {Text : Type*} (jiffy : Jiffy Text) : Prop :=
  ∀ object, ∃ text, jiffy.encode object = some text ∧
    jiffy.decode text = some (object.map fun entry => (entry.1, entry.2.asJson))

/-! ## RDBMS -/

namespace Rdbms

/-- A row of `muc_rooms`. -/
structure RoomRow (Text : Type*) where
  id : ℕ
  mucHost : String
  roomName : String
  options : Text

/-- A row of `muc_room_aff`. -/
structure AffRow where
  roomId : ℕ
  user : Jid
  aff : ℕ

/-- The tables of rooms. Numbers of rooms are given out one after another, and host and name are
the primary key. -/
structure Tables (Text : Type*) where
  nextId : ℕ
  rooms : List (RoomRow Text)
  affs : List AffRow
  key : (rooms.map fun row => (row.mucHost, row.roomName)).Nodup
  serial : ∀ row ∈ rooms, row.id < nextId
  reference : ∀ row ∈ affs, row.roomId < nextId

variable {Text : Type*}

/-- `muc_select_room_id` and `muc_select_room` -/
def selectRooms (mucHost roomName : String) (tables : Tables Text) : List (RoomRow Text) :=
  tables.rooms.filter fun row => row.mucHost = mucHost && row.roomName = roomName

/-- `muc_select_aff` -/
def selectAffs (roomId : ℕ) (tables : Tables Text) : List AffRow :=
  tables.affs.filter fun row => row.roomId = roomId

/-- `muc_delete_aff` -/
def deleteAffs (roomId : ℕ) (tables : Tables Text) : Tables Text where
  nextId := tables.nextId
  rooms := tables.rooms
  affs := tables.affs.filter fun row => row.roomId ≠ roomId
  key := tables.key
  serial := tables.serial
  reference row h := tables.reference row (List.mem_of_mem_filter h)

/-- `muc_delete_room` -/
def deleteRoom (mucHost roomName : String) (tables : Tables Text) : Tables Text where
  nextId := tables.nextId
  rooms := tables.rooms.filter fun row => ¬(row.mucHost = mucHost ∧ row.roomName = roomName)
  affs := tables.affs
  key := tables.key.sublist (List.filter_sublist.map _)
  serial row h := tables.serial row (List.mem_of_mem_filter h)
  reference := tables.reference

/-- `muc_insert_room`, none when the key is taken or does not fit. -/
def insertRoom (mucHost roomName : String) (options : Text) (tables : Tables Text) :
    Option (Tables Text) :=
  if h : FitsColumns (mucHost, roomName) ∧
      (mucHost, roomName) ∉ tables.rooms.map fun row => (row.mucHost, row.roomName) then
    some
      { nextId := tables.nextId + 1
        rooms := tables.rooms ++ [⟨tables.nextId, mucHost, roomName, options⟩]
        affs := tables.affs
        key := by
          rw [List.map_append, List.nodup_append]
          refine ⟨tables.key, List.nodup_singleton _, ?_⟩
          rintro a ha b hb rfl
          rw [List.map_singleton, List.mem_singleton] at hb
          exact h.2 (hb ▸ ha)
        serial := by
          intro row hrow
          rcases List.mem_append.1 hrow with hrow | hrow
          · exact Nat.lt_succ_of_lt (tables.serial row hrow)
          · rw [List.mem_singleton.1 hrow]
            exact Nat.lt_succ_self _
        reference := fun row hrow => Nat.lt_succ_of_lt (tables.reference row hrow) }
  else none

/-- The columns of `muc_room_aff` can hold a JID. -/
def FitsAff (jid : Jid) : Prop :=
  Varchar 250 jid.luser ∧ Varchar 250 jid.lserver ∧ Varchar 250 jid.lresource

instance : DecidablePred FitsAff := fun _ => inferInstanceAs (Decidable (_ ∧ _))

/-- `muc_insert_aff`, none when there is no such room or the user does not fit. -/
def insertAff (row : AffRow) (tables : Tables Text) : Option (Tables Text) :=
  if h : FitsAff row.user ∧ ∃ room ∈ tables.rooms, room.id = row.roomId then
    some
      { nextId := tables.nextId
        rooms := tables.rooms
        affs := tables.affs ++ [row]
        key := tables.key
        serial := tables.serial
        reference := by
          intro row' hrow'
          rcases List.mem_append.1 hrow' with hrow' | hrow'
          · exact tables.reference row' hrow'
          · obtain ⟨room, hroom, hid⟩ := h.2
            rw [List.mem_singleton.1 hrow', ← hid]
            exact tables.serial room hroom }
  else none

/-- `aff_atom2db/1` -/
def affAtom2db (value : StoredAffiliation) : ℕ :=
  match value.affiliation with
  | .owner => 1
  | .member => 2
  | .admin => 3
  | .outcast => 4
  | .none => 5

/-- `aff_db2atom/1`, none for a number that stands for nothing. -/
def affDb2atom : ℕ → Option Affiliation
  | 1 => some .owner
  | 2 => some .member
  | 3 => some .admin
  | 4 => some .outcast
  | 5 => some .none
  | _ => Option.none

theorem affDb2atom_affAtom2db (value : StoredAffiliation) :
    affDb2atom (affAtom2db value) = some value.affiliation := by
  rw [affAtom2db]
  cases value.affiliation <;> rfl

/-- `forget_room_transaction/3` -/
def forgetRoomTransaction (mucHost roomName : String) (tables : Tables Text) :
    Option (Tables Text) :=
  match selectRooms mucHost roomName tables with
  | [row] => some (deleteRoom mucHost roomName (deleteAffs row.id tables))
  | [] => some tables
  | _ => none

/-- `store_aff/3` -/
def storeAff (roomId : ℕ) (affs : List (Jid × StoredAffiliation)) (tables : Tables Text) :
    Option (Tables Text) :=
  affs.foldlM (fun tables entry => insertAff ⟨roomId, entry.1, affAtom2db entry.2⟩ tables) tables

/-- `store_room_transaction/5` -/
def storeRoomTransaction (mucHost roomName : String) (extOpts : Text)
    (affs : List (Jid × StoredAffiliation)) (tables : Tables Text) : Option (Tables Text) := do
  let tables ← insertRoom mucHost roomName extOpts tables
  match selectRooms mucHost roomName tables with
  | [row] => storeAff row.id affs tables
  | _ => none

/-- `proplists:get_value(affiliations, Opts)`; none is stored for `undefined`. -/
def affiliationsOf (opts : List (OptName × OptValue)) : List (Jid × StoredAffiliation) :=
  match opts.find? fun opt => opt.1 = .affiliations with
  | some (_, .affiliations list) => list
  | _ => []

/-- An option as a member of a JSON object; lists of affiliations are no JSON. -/
def toEjson (opt : OptName × OptValue) : Option (String × Term) :=
  match opt.2 with
  | .term value => some (opt.1.text, value)
  | .affiliations _ => none

/-- `store_room/4`, none when it fails. -/
def storeRoom (jiffy : Jiffy Text) (mucHost roomName : String) (opts : List (OptName × OptValue))
    (tables : Tables Text) : Option (Tables Text) := do
  let affs := affiliationsOf opts
  let newOpts := opts.filter fun opt => opt.1 ≠ .affiliations
  let extOpts ← (newOpts.mapM toEjson).bind jiffy.encode
  let tables ← forgetRoomTransaction mucHost roomName tables
  storeRoomTransaction mucHost roomName extOpts affs tables

/-- `keys_as_atoms/1` -/
def keysAsAtoms (object : List (String × Term)) : Option (List (OptName × OptValue)) :=
  object.mapM fun entry => (OptName.ofText entry.1).map fun name => (name, .term entry.2)

/-- `decode_affs/1` -/
def decodeAffs (rows : List AffRow) : Option (List (Jid × StoredAffiliation)) :=
  rows.mapM fun row => (affDb2atom row.aff).map fun affiliation => (row.user, .plain affiliation)

/-- `restore_room/3`, none when there is no such room or something cannot be read. -/
def restoreRoom (jiffy : Jiffy Text) (mucHost roomName : String) (tables : Tables Text) :
    Option (List (OptName × OptValue)) :=
  match selectRooms mucHost roomName tables with
  | [row] => do
    let affs ← decodeAffs (selectAffs row.id tables)
    let opts ← (jiffy.decode row.options).bind keysAsAtoms
    return (.affiliations, .affiliations affs) :: opts
  | _ => none

/-! ### What the statements leave -/

section

variable (mucHost roomName : String) (tables : Tables Text)

theorem selectRooms_length : selectRooms mucHost roomName tables = [] ∨
    ∃ row, selectRooms mucHost roomName tables = [row] := by
  cases hrows : selectRooms mucHost roomName tables with
  | nil => exact .inl rfl
  | cons row rest =>
    cases rest with
    | nil => exact .inr ⟨row, rfl⟩
    | cons row' rest =>
      -- two rows of one key
      have hkey : ∀ r ∈ selectRooms mucHost roomName tables,
          (r.mucHost, r.roomName) = (mucHost, roomName) := by
        intro r hr
        have := (mem_filter.1 hr).2
        simpa using this
      have hnodup : ((selectRooms mucHost roomName tables).map
          fun r => (r.mucHost, r.roomName)).Nodup :=
        tables.key.sublist (filter_sublist.map _)
      rw [hrows] at hkey hnodup
      have hrow := hkey row mem_cons_self
      have hrow' := hkey row' (mem_cons_of_mem row mem_cons_self)
      refine absurd hnodup ?_
      simp [hrow, hrow']

/-- A room can be forgotten, whether it is there or not. -/
theorem exists_forgetRoomTransaction :
    ∃ tables', forgetRoomTransaction mucHost roomName tables = some tables' ∧
    selectRooms mucHost roomName tables' = [] := by
  rw [forgetRoomTransaction]
  rcases selectRooms_length mucHost roomName tables with hnone | ⟨row, hrow⟩
  · rw [hnone]
    exact ⟨tables, rfl, hnone⟩
  · rw [hrow]
    refine ⟨_, rfl, ?_⟩
    rw [selectRooms, filter_eq_nil_iff]
    intro r hr
    have := (mem_filter.1 hr).2
    simpa [not_and_or, imp_iff_not_or] using this

end

variable {tables : Tables Text} {mucHost roomName : String}

theorem insertRoom_eq (options : Text) (hfits : FitsColumns (mucHost, roomName))
    (h : selectRooms mucHost roomName tables = []) :
    ∃ tables', insertRoom mucHost roomName options tables = some tables' ∧
    selectRooms mucHost roomName tables' = [⟨tables.nextId, mucHost, roomName, options⟩] ∧
    tables'.affs = tables.affs := by
  have hkey : (mucHost, roomName) ∉ tables.rooms.map fun row => (row.mucHost, row.roomName) := by
    intro hmem
    obtain ⟨row, hrow, heq⟩ := mem_map.1 hmem
    obtain ⟨hhost, hname⟩ := Prod.mk.inj heq
    have hselected : row ∈ selectRooms mucHost roomName tables :=
      mem_filter.2 ⟨hrow, by simp [hhost, hname]⟩
    rw [h] at hselected
    cases hselected
  rw [insertRoom, dif_pos ⟨hfits, hkey⟩]
  refine ⟨_, rfl, ?_, rfl⟩
  rw [selectRooms] at h ⊢
  rw [filter_append, h]
  simp

/-- Rows that fit are written, where the room is. -/
theorem exists_storeAff {roomId : ℕ} {affs : List (Jid × StoredAffiliation)}
    (hfits : ∀ entry ∈ affs, FitsAff entry.1) (h : ∃ room ∈ tables.rooms, room.id = roomId) :
    ∃ tables', storeAff roomId affs tables = some tables' ∧ tables'.rooms = tables.rooms ∧
    tables'.affs = tables.affs ++
      affs.map fun entry => ⟨roomId, entry.1, affAtom2db entry.2⟩ := by
  induction affs generalizing tables with
  | nil => exact ⟨tables, rfl, rfl, by simp⟩
  | cons entry affs ih =>
    have hinsert : ∃ tables₁, insertAff ⟨roomId, entry.1, affAtom2db entry.2⟩ tables =
        some tables₁ ∧ tables₁.rooms = tables.rooms ∧
        tables₁.affs = tables.affs ++ [⟨roomId, entry.1, affAtom2db entry.2⟩] :=
      ⟨_, dif_pos ⟨hfits entry mem_cons_self, h⟩, rfl, rfl⟩
    obtain ⟨tables₁, heq, hrooms, haffs⟩ := hinsert
    obtain ⟨tables', heq', hrooms', haffs'⟩ :=
      ih (fun entry' hentry' => hfits entry' (mem_cons_of_mem _ hentry')) (by rwa [hrooms])
    refine ⟨tables', ?_, hrooms'.trans hrooms, ?_⟩
    · rw [storeAff, foldlM_cons, heq]
      exact heq'
    · rw [haffs', haffs, append_assoc]
      rfl

/-- **What a transaction leaves** for the next one: the room with its affiliations. -/
theorem exists_storeRoomTransaction (options : Text) {affs : List (Jid × StoredAffiliation)}
    (hfits : FitsColumns (mucHost, roomName)) (haffs : ∀ entry ∈ affs, FitsAff entry.1)
    (h : selectRooms mucHost roomName tables = []) :
    ∃ tables' id, storeRoomTransaction mucHost roomName options affs tables = some tables' ∧
    selectRooms mucHost roomName tables' = [⟨id, mucHost, roomName, options⟩] ∧
    selectAffs id tables' = affs.map fun entry => ⟨id, entry.1, affAtom2db entry.2⟩ := by
  obtain ⟨tables₁, hinsert, hselect, haffs₁⟩ := insertRoom_eq options hfits h
  have hroom : ∃ room ∈ tables₁.rooms, room.id = tables.nextId := by
    have hmem : (⟨tables.nextId, mucHost, roomName, options⟩ : RoomRow Text) ∈
        selectRooms mucHost roomName tables₁ := by
      rw [hselect]
      exact mem_singleton.2 rfl
    exact ⟨_, mem_of_mem_filter hmem, rfl⟩
  obtain ⟨tables₂, hstore, hrooms, haffs₂⟩ := exists_storeAff haffs hroom
  refine ⟨tables₂, tables.nextId, ?_, ?_, ?_⟩
  · rw [storeRoomTransaction, hinsert]
    simp [hselect, hstore]
  · rw [selectRooms, hrooms]
    exact hselect
  · rw [selectAffs, haffs₂, haffs₁, filter_append]
    have hold : tables.affs.filter (fun row => row.roomId = tables.nextId) = [] := by
      rw [filter_eq_nil_iff]
      intro row hrow
      have := tables.reference row hrow
      simp only [decide_eq_true_eq]
      omega
    rw [hold, nil_append, filter_eq_self]
    intro row hrow
    obtain ⟨entry, -, rfl⟩ := mem_map.1 hrow
    simp

/-- **A transaction with a name or a user that does not fit is aborted.** -/
theorem storeRoomTransaction_eq_none (options : Text) {affs : List (Jid × StoredAffiliation)}
    (h : ¬ (FitsColumns (mucHost, roomName) ∧ ∀ entry ∈ affs, FitsAff entry.1)) :
    storeRoomTransaction mucHost roomName options affs tables = none := by
  rw [storeRoomTransaction, insertRoom]
  split
  · next hinsert =>
    push Not at h
    obtain ⟨entry, hentry, hlong⟩ := h hinsert.1
    have habort (id : ℕ) (tables : Tables Text) : storeAff id affs tables = none :=
      foldlM_eq_none hentry (fun tables => dif_neg fun hrow => hlong hrow.1) tables
    simp only [Option.bind_eq_bind, Option.bind_some, habort]
    split <;> rfl
  · rfl

/-- The numbers of affiliations are read again, without the reasons. -/
theorem decodeAffs_map (id : ℕ) (affs : List (Jid × StoredAffiliation)) :
    decodeAffs (affs.map fun entry => ⟨id, entry.1, affAtom2db entry.2⟩) =
    some (affs.map fun entry => (entry.1, .plain entry.2.affiliation)) := by
  rw [decodeAffs]
  induction affs with
  | nil => rfl
  | cons entry affs ih =>
    rw [map_cons, mapM_cons, affDb2atom_affAtom2db, ih]
    rfl

theorem keysAsAtoms_map (opts : List (OptName × Term)) :
    keysAsAtoms (opts.map fun opt => (opt.1.text, opt.2)) =
    some (opts.map fun opt => (opt.1, .term opt.2)) := by
  rw [keysAsAtoms]
  induction opts with
  | nil => rfl
  | cons opt opts ih =>
    rw [map_cons, mapM_cons, OptName.ofText_text, ih]
    rfl

/-- **What is restored** after some options were stored with a list of affiliations. -/
theorem restoreRoom_of_storeRoom {jiffy : Jiffy Text} (hjiffy : jiffy.RoundTrips)
    (mucHost roomName : String) {opts : List (OptName × OptValue)}
    {terms : List (OptName × Term)} (tables : Tables Text)
    (hterms : (opts.filter fun opt => opt.1 ≠ .affiliations) =
    terms.map fun opt => (opt.1, .term opt.2)) (hfits : FitsColumns (mucHost, roomName))
    (haffs : ∀ entry ∈ affiliationsOf opts, FitsAff entry.1) :
    ∃ tables', storeRoom jiffy mucHost roomName opts tables = some tables' ∧
    restoreRoom jiffy mucHost roomName tables' =
      some ((.affiliations, .affiliations ((affiliationsOf opts).map fun entry =>
          (entry.1, .plain entry.2.affiliation))) ::
        terms.map fun opt => (opt.1, .term opt.2.asJson)) := by
  obtain ⟨text, hencode, hdecode⟩ := hjiffy (terms.map fun opt => (opt.1.text, opt.2))
  have hejson : (terms.map fun opt => (opt.1, OptValue.term opt.2)).mapM toEjson =
      some (terms.map fun opt => (opt.1.text, opt.2)) := by
    clear hterms hencode hdecode
    induction terms with
    | nil => rfl
    | cons opt terms ih =>
      rw [map_cons, mapM_cons, ih]
      rfl
  obtain ⟨tables₁, hforget, hnone⟩ := exists_forgetRoomTransaction mucHost roomName tables
  obtain ⟨tables₂, id, hstore, hselect, hrows⟩ :=
    exists_storeRoomTransaction text hfits haffs hnone
  refine ⟨tables₂, ?_, ?_⟩
  · rw [storeRoom, hterms, hejson]
    simp [hencode, hforget, hstore]
  · have hopts : (jiffy.decode text).bind keysAsAtoms =
        some (terms.map fun opt => (opt.1, .term opt.2.asJson)) := by
      have hkeys := keysAsAtoms_map (terms.map fun opt => (opt.1, opt.2.asJson))
      rw [map_map, map_map] at hkeys
      rw [hdecode, Option.bind_some, map_map]
      exact hkeys
    rw [restoreRoom, hselect]
    simp only [hrows, decodeAffs_map, hopts, Option.bind_eq_bind, Option.bind_some]
    rfl

/-- A room that does not fit is not stored. -/
theorem storeRoom_eq_none {jiffy : Jiffy Text} {opts : List (OptName × OptValue)}
    (h : ¬ (FitsColumns (mucHost, roomName) ∧ ∀ entry ∈ affiliationsOf opts, FitsAff entry.1)) :
    storeRoom jiffy mucHost roomName opts tables = none := by
  simp only [storeRoom, Option.bind_eq_bind, storeRoomTransaction_eq_none _ h,
    Option.bind_fun_none]

end Rdbms

/-! ## Rooms that are restored -/

/-- The options that are terms. -/
def termsOf (opts : List (OptName × OptValue)) : List (OptName × Term) :=
  opts.filterMap fun opt =>
    match opt.2 with
    | .term value => some (opt.1, value)
    | .affiliations _ => none

namespace RoomState

/-- **Nothing is lost**: configuration, affiliations and subject are those of before. -/
structure Survives (serviceMaxUsers : ℕ) (s s' : RoomState) : Prop where
  config : s'.config = capped serviceMaxUsers s.config
  affiliation : ∀ accessAdmin jid, s'.getAffiliation accessAdmin jid =
    s.getAffiliation accessAdmin jid
  subject : s'.subject = s.subject
  subjectAuthor : s'.subjectAuthor = s.subjectAuthor
  subjectTimestamp : s'.subjectTimestamp = s.subjectTimestamp

/-- The lowest of `max_users` and the limit does not depend on how the former was stored. -/
theorem minMaxUsers_maxUsersTerm (maxUsers : Option ℕ) (serviceMaxUsers : ℕ) :
    minMaxUsers (.term (maxUsersTerm maxUsers)) serviceMaxUsers =
      capMaxUsers serviceMaxUsers maxUsers ∧
    minMaxUsers (.term (maxUsersTerm maxUsers).asJson) serviceMaxUsers =
      capMaxUsers serviceMaxUsers maxUsers := by
  cases maxUsers with
  | none => exact ⟨rfl, rfl⟩
  | some n =>
    have hmin : (min (n : ℤ) (serviceMaxUsers : ℤ)).toNat = min n serviceMaxUsers := by omega
    exact ⟨hmin, hmin⟩

theorem filter_makeOpts (s : RoomState) : (s.makeOpts.filter fun opt => opt.1 ≠ .affiliations) =
    (termsOf s.makeOpts).map fun opt => (opt.1, .term opt.2) := rfl

theorem affiliationsOf_makeOpts (s : RoomState) :
    Rdbms.affiliationsOf s.makeOpts = toList s.affiliations := rfl

/-- Every value that `makeOpts` writes is read by `setOpt`, also after it was JSON. -/
theorem toBool_bool (b : Bool) : (OptValue.bool b).toBool = some b := Term.toBool_bool b

/-- A fresh state that has the configuration, affiliations and subject of a room. -/
def restored (serviceMaxUsers : ℕ) (s : RoomState) : RoomState where
  config := capped serviceMaxUsers s.config
  affiliations := fromList (toList s.affiliations)
  subject := s.subject
  subjectAuthor := s.subjectAuthor

/-- The same as JSON and the numbers of affiliations have it. -/
def restoredJson (serviceMaxUsers : ℕ) (s : RoomState) : RoomState where
  config :=
    { capped serviceMaxUsers s.config with
      maygetmemberlist := s.config.maygetmemberlist.map Scalar.asJson }
  affiliations := fromList ((toList s.affiliations).map fun entry =>
    (entry.1, .plain entry.2.affiliation))
  subject := s.subject
  subjectAuthor := s.subjectAuthor

section

variable (serviceMaxUsers : ℕ) (s : RoomState)

/-- **What comes back from the list**: everything but the timestamp of the subject. -/
theorem setOpts_makeOpts :
    setOpts serviceMaxUsers s.makeOpts {} = some (restored serviceMaxUsers s) := by
  simp only [setOpts, makeOpts, foldlM_cons, foldlM_nil, setOpt, toBool_bool,
    OptValue.text, OptValue.toText, OptValue.toScalars, Option.map_some, Option.bind_eq_bind,
    Option.bind_some, (minMaxUsers_maxUsersTerm _ _).1]
  simp only [mapConfig, restored, capped, Option.pure_def]

/-- What comes back from the terms as JSON has them, and affiliations without their reasons. -/
theorem setOpts_json :
    setOpts serviceMaxUsers ((.affiliations, .affiliations ((toList s.affiliations).map
      fun entry => (entry.1, .plain entry.2.affiliation))) ::
        (termsOf s.makeOpts).map fun opt => (opt.1, .term opt.2.asJson)) {} =
    some (restoredJson serviceMaxUsers s) := by
  have hbool : ∀ b, (OptValue.term (Term.bool b).asJson).toBool = some b := fun b => by
    rw [Term.asJson_bool]
    exact toBool_bool b
  simp only [termsOf, makeOpts, filterMap_cons, filterMap_nil, OptValue.text,
    OptValue.bool, map_cons, map_nil]
  simp only [setOpts, foldlM_cons, foldlM_nil, setOpt, hbool, Term.asJson_binary,
    Term.asJson_list, OptValue.toText, OptValue.toScalars, Option.map_some, Option.bind_eq_bind,
    Option.bind_some, (minMaxUsers_maxUsersTerm _ _).2]
  simp only [mapConfig, restoredJson, capped, Option.pure_def]

variable (accessAdmin : Jid → Bool)

theorem getAffiliation_restored
    (jid : Jid) : (restored serviceMaxUsers s).getAffiliation accessAdmin jid =
    s.getAffiliation accessAdmin jid := by
  refine getAffiliation_of_lookup (fun j => ?_) accessAdmin jid
  have hlookup := lookup_fromList_toList id s.affiliations j
  rw [Option.map_id] at hlookup
  have hlist : (toList s.affiliations).map (fun e => (e.1, id e.2)) = toList s.affiliations :=
    map_id' _
  rw [hlist] at hlookup
  exact congrArg _ hlookup

theorem getAffiliation_restoredJson (jid : Jid) :
    (restoredJson serviceMaxUsers s).getAffiliation accessAdmin jid =
    s.getAffiliation accessAdmin jid := by
  refine getAffiliation_of_lookup (fun j => ?_) accessAdmin jid
  have hlookup := lookup_fromList_toList
    (fun value => StoredAffiliation.plain value.affiliation) s.affiliations j
  change ((fromList _).lookup j).map _ = _
  rw [hlookup, Option.map_map]
  rfl

end

end RoomState

/-- The room after it was stored in Mnesia and restored. -/
def Mnesia.restart (serviceMaxUsers : ℕ) (mucHost roomName : String) (rooms : Mnesia.Rooms)
    (s : RoomState) : Option RoomState :=
  (Mnesia.restoreRoom mucHost roomName (Mnesia.storeRoom mucHost roomName s.makeOpts rooms)).bind
    fun opts => RoomState.setOpts serviceMaxUsers opts {}

/-- The room after it was stored in the tables and restored. -/
def Rdbms.restart {Text : Type*} (jiffy : Jiffy Text) (serviceMaxUsers : ℕ)
    (mucHost roomName : String) (tables : Rdbms.Tables Text) (s : RoomState) : Option RoomState :=
  (Rdbms.storeRoom jiffy mucHost roomName s.makeOpts tables).bind fun tables' =>
    (Rdbms.restoreRoom jiffy mucHost roomName tables').bind fun opts =>
      RoomState.setOpts serviceMaxUsers opts {}

/-- Mnesia gives back a room whose subject has no timestamp. -/
theorem Mnesia.restart_survives_iff (serviceMaxUsers : ℕ) (mucHost roomName : String)
    (rooms : Mnesia.Rooms) (s : RoomState) :
    (∃ s', Mnesia.restart serviceMaxUsers mucHost roomName rooms s = some s' ∧
    s.Survives serviceMaxUsers s') ↔ s.subjectTimestamp = "" := by
  have hrestart : Mnesia.restart serviceMaxUsers mucHost roomName rooms s =
      some (s.restored serviceMaxUsers) := by
    rw [Mnesia.restart, Mnesia.restoreRoom, Mnesia.storeRoom, lookup_insert, if_pos rfl,
      Option.bind_some, RoomState.setOpts_makeOpts]
  rw [hrestart]
  constructor
  · rintro ⟨s', hs', hsurvives⟩
    cases hs'
    exact hsurvives.subjectTimestamp.symm
  · intro htimestamp
    exact ⟨s.restored serviceMaxUsers, rfl, rfl, s.getAffiliation_restored serviceMaxUsers, rfl,
      rfl, htimestamp.symm⟩

/-- The columns can hold the name of a room and the users that have an affiliation. -/
def RoomState.Fits (mucHost roomName : String) (s : RoomState) : Prop :=
  FitsColumns (mucHost, roomName) ∧ ∀ entry ∈ toList s.affiliations, Rdbms.FitsAff entry.1

instance (mucHost roomName : String) : DecidablePred (RoomState.Fits mucHost roomName) := fun _ =>
  inferInstanceAs (Decidable (_ ∧ _))

/-- A room that does not fit is not given back by the tables. -/
theorem Rdbms.restart_eq_none {Text : Type*} {jiffy : Jiffy Text} {serviceMaxUsers : ℕ}
    {mucHost roomName : String} {tables : Rdbms.Tables Text} {s : RoomState}
    (h : ¬ s.Fits mucHost roomName) :
    Rdbms.restart jiffy serviceMaxUsers mucHost roomName tables s = none := by
  rw [Rdbms.restart, Rdbms.storeRoom_eq_none (by rwa [RoomState.affiliationsOf_makeOpts]),
    Option.bind_none]

/-- The tables give back a room that fits, whose subject has no timestamp and which lets no role see
the list of members, as far as JSON has no such atom. -/
theorem Rdbms.restart_survives_iff {Text : Type*} {jiffy : Jiffy Text} (hjiffy : jiffy.RoundTrips)
    (serviceMaxUsers : ℕ) (mucHost roomName : String) (tables : Rdbms.Tables Text)
    (s : RoomState) :
    (∃ s', Rdbms.restart jiffy serviceMaxUsers mucHost roomName tables s = some s' ∧
    s.Survives serviceMaxUsers s') ↔
    s.Fits mucHost roomName ∧ s.subjectTimestamp = "" ∧
      ∀ value ∈ s.config.maygetmemberlist, ∀ name, value = .atom name → name ∈ jsonAtoms := by
  by_cases hfits : s.Fits mucHost roomName
  swap
  · simp [Rdbms.restart_eq_none hfits, hfits]
  rw [and_iff_right hfits]
  obtain ⟨tables', hstore, hrestore⟩ := Rdbms.restoreRoom_of_storeRoom hjiffy mucHost roomName
    tables (RoomState.filter_makeOpts s) hfits.1 hfits.2
  rw [RoomState.affiliationsOf_makeOpts] at hrestore
  have hrestart : Rdbms.restart jiffy serviceMaxUsers mucHost roomName tables s =
      some (s.restoredJson serviceMaxUsers) := by
    rw [Rdbms.restart, hstore, Option.bind_some, hrestore, Option.bind_some, RoomState.setOpts_json]
  have hmembers : s.config.maygetmemberlist.map Scalar.asJson = s.config.maygetmemberlist ↔
      ∀ value ∈ s.config.maygetmemberlist, ∀ name, value = .atom name → name ∈ jsonAtoms := by
    have hself : s.config.maygetmemberlist.map Scalar.asJson = s.config.maygetmemberlist ↔
        ∀ value ∈ s.config.maygetmemberlist, value.asJson = id value := by
      rw [← map_inj_left, map_id]
    exact hself.trans (forall₂_congr fun value _ => Scalar.asJson_eq_self)
  rw [hrestart, ← hmembers]
  constructor
  · rintro ⟨s', hs', hsurvives⟩
    cases hs'
    exact ⟨hsurvives.subjectTimestamp.symm, congrArg Config.maygetmemberlist hsurvives.config⟩
  · rintro ⟨htimestamp, hlist⟩
    refine ⟨s.restoredJson serviceMaxUsers, rfl, ?_, s.getAffiliation_restoredJson serviceMaxUsers,
      rfl, rfl, htimestamp.symm⟩
    have hconfig : (s.restoredJson serviceMaxUsers).config =
        { RoomState.capped serviceMaxUsers s.config with
          maygetmemberlist := s.config.maygetmemberlist.map Scalar.asJson } := rfl
    rw [hconfig, hlist]
    rfl

/-- **When both storages give back a room**: when the columns can hold it, its subject has no
timestamp, and the list of those who may get the list of members has no atoms but those of JSON. -/
theorem storages_restore_iff {Text : Type*} {jiffy : Jiffy Text} (hjiffy : jiffy.RoundTrips)
    (serviceMaxUsers : ℕ) (mucHost roomName : String) (tables : Rdbms.Tables Text)
    (rooms : Mnesia.Rooms) (s : RoomState) :
    (∃ s', Rdbms.restart jiffy serviceMaxUsers mucHost roomName tables s = some s' ∧
      s.Survives serviceMaxUsers s') ∧
    (∃ s', Mnesia.restart serviceMaxUsers mucHost roomName rooms s = some s' ∧
      s.Survives serviceMaxUsers s') ↔
    s.Fits mucHost roomName ∧ s.subjectTimestamp = "" ∧
      ∀ value ∈ s.config.maygetmemberlist, ∀ name, value = .atom name → name ∈ jsonAtoms := by
  rw [Rdbms.restart_survives_iff hjiffy, Mnesia.restart_survives_iff]
  exact and_iff_left_of_imp fun h => h.2.1

/-- Objects as they are after they were written and read. -/
def Jiffy.objects : Jiffy (List (String × Term)) where
  encode object := some (object.map fun entry => (entry.1, entry.2.asJson))
  decode object := some object

theorem Jiffy.objects_roundTrips : Jiffy.objects.RoundTrips := fun _ => ⟨_, rfl, rfl⟩

/-- Without rooms. -/
def Rdbms.Tables.empty {Text : Type*} : Rdbms.Tables Text where
  nextId := 1
  rooms := []
  affs := []
  key := List.nodup_nil
  serial _ h := absurd h List.not_mem_nil
  reference _ h := absurd h List.not_mem_nil

/-- A persistent room with an owner, where moderators may get the list of members. -/
def RoomState.library : RoomState where
  config := { title := "Library", persistent := true, maygetmemberlist := [.atom "moderator"] }
  affiliations := fromList [(⟨"owner", "localhost", ""⟩, .plain .owner)]
  subject := "Books"
  subjectAuthor := "owner"
  subjectTimestamp := "2024-05-01T10:00:00Z"

/-- The room with an admin and an outcast, before anyone changed its subject. -/
def RoomState.newLibrary : RoomState where
  config :=
    { title := "Library", persistent := true, moderated := false, maxUsers := some 500,
      passwordProtected := true, password := "quiet", maygetmemberlist := [.binary "moderator"] }
  affiliations := fromList [(⟨"owner", "localhost", ""⟩, .plain .owner),
    (⟨"clerk", "localhost", ""⟩, .withReason .admin "the keys"),
    (⟨"shouter", "example.org", ""⟩, .plain .outcast)]
  subject := "Books"
  subjectAuthor := "owner"

/-- The room is given back with its title, password, affiliations and subject. -/
theorem storages_restore_plain :
    (∃ s', Rdbms.restart Jiffy.objects 200 "muc.localhost" "library" .empty RoomState.newLibrary =
      some s' ∧ RoomState.newLibrary.Survives 200 s') ∧
    ∃ s', Mnesia.restart 200 "muc.localhost" "library" ∅ RoomState.newLibrary = some s' ∧
      RoomState.newLibrary.Survives 200 s' := by
  refine (storages_restore_iff Jiffy.objects_roundTrips 200 "muc.localhost" "library" .empty ∅
    _).2 ⟨by decide +kernel, rfl, ?_⟩
  intro value hvalue name hname
  obtain rfl := mem_singleton.1 hvalue
  cases hname

/-- A room with a member whose name has 251 characters. -/
def RoomState.longName : RoomState where
  affiliations := fromList [(⟨"".pushn 'a' 251, "localhost", ""⟩, .plain .member)]

/-- The timestamp of the subject is lost in both storages; and with rows, when there is no timestamp,
the moderators of the list, and the whole room with a member whose name is too long. -/
theorem storages_lose_subject :
    (¬∃ s', Rdbms.restart Jiffy.objects 200 "muc.localhost" "library" .empty RoomState.library =
      some s' ∧ RoomState.library.Survives 200 s') ∧
    (¬∃ s', Mnesia.restart 200 "muc.localhost" "library" ∅ RoomState.library = some s' ∧
      RoomState.library.Survives 200 s') ∧
    (¬∃ s', Rdbms.restart Jiffy.objects 200 "muc.localhost" "library" .empty
        { RoomState.library with subjectTimestamp := "" } = some s' ∧
      RoomState.Survives 200 { RoomState.library with subjectTimestamp := "" } s') ∧
    Rdbms.restart Jiffy.objects 200 "muc.localhost" "library" .empty
      RoomState.longName = none := by
  have htimestamp : RoomState.library.subjectTimestamp ≠ "" := by decide
  rw [Rdbms.restart_survives_iff Jiffy.objects_roundTrips, Mnesia.restart_survives_iff,
    Rdbms.restart_survives_iff Jiffy.objects_roundTrips]
  refine ⟨fun h => htimestamp h.2.1, htimestamp, fun h => ?_, ?_⟩
  · have hmoderator := h.2.2 (.atom "moderator") mem_cons_self "moderator" rfl
    exact absurd hmoderator (by decide)
  · exact Rdbms.restart_eq_none (by decide +kernel)

end MongooseIM.Muc
