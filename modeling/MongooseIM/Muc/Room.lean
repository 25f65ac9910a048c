import MongooseIM.Erlang.Maps
import MongooseIM.Erlang.Terms
import MongooseIM.Xmpp.Stanza

/-! # The state of a chat room

The data of `mod_muc_room` that decides who is in a room and with what rights, and the functions
that read and write it. -/

namespace MongooseIM.Muc

open Erlang Xmpp Option

/-! ## Affiliations and roles -/

/-- `mod_muc:affiliation()` -/
inductive Affiliation
  | owner
  | admin
  | member
  | outcast
  | none
  deriving DecidableEq, Repr

/-- `mod_muc:role()` -/
inductive Role
  | moderator
  | participant
  | visitor
  | none
  deriving DecidableEq, Repr

/-- `binary_to_role/1`, which fails on other texts. -/
def binaryToRole : String → Option Role
  | "moderator" => some .moderator
  | "participant" => some .participant
  | "visitor" => some .visitor
  | "none" => some .none
  | _ => .none

/-- `binary_to_affiliation/1`, which fails on other texts. -/
def binaryToAffiliation : String → Option Affiliation
  | "owner" => some .owner
  | "admin" => some .admin
  | "member" => some .member
  | "outcast" => some .outcast
  | "none" => some .none
  | _ => .none

/-- A value of the affiliation map. -/
inductive StoredAffiliation
  | plain (affiliation : Affiliation)
  | withReason (affiliation : Affiliation) (reason : String)

/-- The affiliation without its reason. -/
def StoredAffiliation.affiliation : StoredAffiliation → Affiliation
  | plain affiliation => affiliation
  | withReason affiliation _ => affiliation

theorem StoredAffiliation.owner_ne_none : (plain .owner).affiliation ≠ .none := by decide

/-- The affiliation map. It is only ever written under bare JIDs, which may be those of a domain,
and an affiliation of `none` is not stored. -/
structure Affiliations where
  map : AList fun _ : Jid => StoredAffiliation
  bare : ∀ jid value, map.lookup jid = some value → jid.lresource = ""
  stored : ∀ jid value, map.lookup jid = some value → value.affiliation ≠ .none

namespace Affiliations

/-- The map without entries. -/
def empty : Affiliations := ⟨∅, by simp, by simp⟩

variable (affs : Affiliations) (jid : Jid)

/-- `maps:find/2` -/
def find : Option StoredAffiliation := affs.map.lookup jid

/-- `maps:put/3` under the bare JID. -/
def put (value : StoredAffiliation) (h : value.affiliation ≠ .none) : Affiliations where
  map := affs.map.insert jid.toBare value
  bare := by
    intro j v hj
    rw [lookup_insert] at hj
    split at hj
    · rename_i heq
      rw [heq]
      rfl
    · exact affs.bare j v hj
  stored := by
    intro j v hj
    rw [lookup_insert] at hj
    split at hj
    · cases hj
      exact h
    · exact affs.stored j v hj

/-- `maps:remove/2` under the bare JID. -/
def remove : Affiliations where
  map := affs.map.erase jid.toBare
  bare := by
    intro j v hj
    rw [lookup_erase] at hj
    split at hj
    · cases hj
    · exact affs.bare j v hj
  stored := by
    intro j v hj
    rw [lookup_erase] at hj
    split at hj
    · cases hj
    · exact affs.stored j v hj

theorem find_put (jid jid' : Jid) (value : StoredAffiliation) (h : value.affiliation ≠ .none) :
    (affs.put jid value h).find jid' = if jid' = jid.toBare then some value else affs.find jid' :=
  lookup_insert affs.map jid.toBare jid' value

theorem find_remove (jid jid' : Jid) :
    (affs.remove jid).find jid' = if jid' = jid.toBare then none else affs.find jid' :=
  lookup_erase affs.map jid.toBare jid'

theorem find_of_resource {affs : Affiliations} {jid : Jid} (h : jid.lresource ≠ "") :
    affs.find jid = none := by
  cases hfind : affs.find jid with
  | none => rfl
  | some value => exact absurd (affs.bare jid value hfind) h

end Affiliations

/-! ## Rooms -/

/-- `mod_muc:nick()` -/
abbrev Nick := String

/-- `#user{}` -/
structure User where
  jid : Jid
  nick : Nick
  role : Role

/-- `#config{}` -/
structure Config where
  title : String := ""
  description : String := ""
  allowChangeSubj : Bool := true
  allowQueryUsers : Bool := true
  allowPrivateMessages : Bool := true
  allowVisitorStatus : Bool := true
  allowVisitorNickchange : Bool := true
  publicRoom : Bool := true
  publicList : Bool := true
  persistent : Bool := false
  moderated : Bool := true
  membersByDefault : Bool := true
  membersOnly : Bool := false
  allowUserInvites : Bool := false
  allowMultipleSessions : Bool := false
  passwordProtected : Bool := false
  password : String := ""
  anonymous : Bool := true
  /-- none for `none` -/
  maxUsers : Option Nat := some 200
  /-- The atoms of roles, as long as nothing else is restored. -/
  maygetmemberlist : List Scalar := []
  logging : Bool := false

/-- The options of `mod_muc` that limit the number of occupants. -/
structure Options where
  maxUsers : Nat := 200
  maxUsersAdminThreshold : Nat := 5
  maxUserConferences : Nat := 10

/-- What a process that asks the HTTP service about a password sends back with the answer. -/
structure AuthRequest where
  fromJid : Jid
  nick : Nick
  role : Role

/-- `#state{}`, with the answers of the access rule of service admins. -/
structure Room where
  /-- `acl:match_rule/4` allows the JID by the rule `access_admin`. -/
  accessAdmin : Jid → Bool
  config : Config
  users : AList fun _ : Jid => User
  sessions : AList fun _ : Nick => List Jid
  affiliations : Affiliations
  options : Options := {}
  /-- `http_auth_pool` is not `none`. -/
  httpAuthPool : Bool := false
  httpAuthPids : List AuthRequest := []

namespace Room

/-! ## Affiliations in a room -/

/-- `lookup_affiliation/2` -/
def lookupAffiliation : List Jid → Affiliations → Affiliation
  | [], _ => .none
  | jid :: jids, affs =>
    match affs.find jid with
    | some value => value.affiliation
    | none => lookupAffiliation jids affs

variable (r : Room) (jid : Jid)

/-- `get_affiliation/2` -/
def getAffiliation : Affiliation :=
  if r.accessAdmin jid then .owner
  else
    let jid2 := { jid with luser := "" }
    lookupAffiliation [jid, jid.toBare, jid2, jid2.toBare] r.affiliations

/-- `get_service_affiliation/2` -/
def getServiceAffiliation : Affiliation :=
  if r.accessAdmin jid then .owner else .none

/-- `set_affiliation/3` -/
def setAffiliation (jid : Jid) (affiliation : Affiliation) (r : Room) : Room :=
  if h : affiliation = .none then { r with affiliations := r.affiliations.remove jid }
  else { r with affiliations := r.affiliations.put jid (.plain affiliation) h }

/-- `set_affiliation_and_reason/4` -/
def setAffiliationAndReason (jid : Jid) (affiliation : Affiliation) (reason : String) (r : Room) :
    Room :=
  if h : affiliation = .none then { r with affiliations := r.affiliations.remove jid }
  else { r with affiliations := r.affiliations.put jid (.withReason affiliation reason) h }

/-- `search_affiliation/2` -/
def searchAffiliation (affiliation : Affiliation) (r : Room) : List (Jid × StoredAffiliation) :=
  (r.affiliations.map.entries.map fun entry => (entry.1, entry.2)).filter
    fun entry => entry.2.affiliation = affiliation

/-- What the affiliation map says about an account or a domain itself. -/
def entry : Affiliation :=
  ((r.affiliations.find jid.toBare).map StoredAffiliation.affiliation).getD .none

/-! ## Occupants in a room -/

/-- `erase_matched_users_map/3`; none when the full JID is not there. -/
def eraseMatchedUsersMap (jid : Jid) (users : AList fun _ : Jid => User)
    (sessions : AList fun _ : Nick => List Jid) :
    Option ((AList fun _ : Jid => User) × (AList fun _ : Nick => List Jid)) :=
  if jid.lresource = "" then
    some (users.entries.foldl
      (fun acc entry =>
        if jid.areBareEqual entry.1 then (acc.1.erase entry.1, acc.2.erase entry.2.nick) else acc)
      (users, sessions))
  else
    (users.lookup jid).map fun user => (users.erase jid, sessions.erase user.nick)

/-- `erase_matched_users/2` -/
def eraseMatchedUsers (jid : Jid) (r : Room) : Option Room :=
  (eraseMatchedUsersMap jid r.users r.sessions).map fun maps =>
    { r with users := maps.1, sessions := maps.2 }

/-- `update_matched_users_map/3` -/
def updateMatchedUsersMap (f : User → User) (jid : Jid) (users : AList fun _ : Jid => User) :
    AList fun _ : Jid => User :=
  if jid.lresource = "" then
    users.entries.foldl
      (fun acc entry => if jid.areBareEqual entry.1 then acc.insert entry.1 (f entry.2) else acc)
      users
  else
    match users.lookup jid with
    | some user => users.insert jid (f user)
    | none => users

/-- `update_matched_users/3` -/
def updateMatchedUsers (f : User → User) (jid : Jid) (r : Room) : Room :=
  { r with users := updateMatchedUsersMap f jid r.users }

/-- `set_role/3` -/
def setRole (jid : Jid) (role : Role) (r : Room) : Option Room :=
  match role with
  | .none => eraseMatchedUsers jid r
  | _ => some (updateMatchedUsers (fun user => { user with role := role }) jid r)

/-- `get_role/2` -/
def getRole : Role :=
  match r.users.lookup jid with
  | some user => user.role
  | none => .none

/-- `find_jids_by_nick/2` -/
def findJidsByNick (nick : Nick) (r : Room) : List Jid :=
  match r.sessions.lookup nick with
  | some jids => jids
  | none => []

/-! ## What updates leave -/

/-- The occupants that an update by a JID is about: those of the account, or the one session. -/
def matched (jid other : Jid) : Bool :=
  if jid.lresource = "" then jid.areBareEqual other else jid = other

theorem matched_bare {jid other : Jid} (h : jid.lresource = "") :
    matched jid other ↔ other.toBare = jid := by
  rw [matched, if_pos h, Jid.areBareEqual, Bool.and_eq_true, decide_eq_true_eq, decide_eq_true_eq]
  constructor
  · rintro ⟨hu, hs⟩
    rw [Jid.toBare, ← hu, ← hs, ← h]
  · rintro rfl
    exact ⟨rfl, rfl⟩

theorem matched_full {jid other : Jid} (h : jid.lresource ≠ "") :
    matched jid other ↔ other = jid := by
  rw [matched, if_neg h, decide_eq_true_eq, eq_comm]

theorem toBare_of_matched {jid other : Jid} (h : matched jid other) :
    other.toBare = jid.toBare := by
  by_cases hr : jid.lresource = ""
  · rw [(matched_bare hr).1 h]
    cases jid
    subst hr
    rfl
  · rw [(matched_full hr).1 h]

variable (jid : Jid)

theorem matched_self : matched jid jid := by
  rw [matched]
  split
  · simp [Jid.areBareEqual]
  · simp

/-- The fold over all occupants updates both maps on their own. -/
theorem foldl_erase_both (l : List (Σ _ : Jid, User))
    (users : AList fun _ : Jid => User) (sessions : AList fun _ : Nick => List Jid) :
    l.foldl (fun acc entry =>
      if jid.areBareEqual entry.1 then (acc.1.erase entry.1, acc.2.erase entry.2.nick) else acc)
      (users, sessions) =
    (l.foldl (fun acc entry => if jid.areBareEqual entry.1 then acc.erase entry.1 else acc) users,
      l.foldl (fun acc entry => if jid.areBareEqual entry.1 then acc.erase entry.2.nick else acc)
        sessions) := by
  induction l generalizing users sessions with
  | nil => rfl
  | cons entry l ih =>
    rw [List.foldl_cons, List.foldl_cons, List.foldl_cons]
    split
    · exact ih _ _
    · exact ih _ _

open Classical in
/-- **What taking occupants out leaves**: the others, and the nicks that none of them had. -/
theorem eraseMatchedUsers_eq_some {jid : Jid} {r r' : Room}
    (h : eraseMatchedUsers jid r = some r') :
    ∃ users sessions, r' = { r with users := users, sessions := sessions } ∧
    (∀ j, users.lookup j = if matched jid j then none else r.users.lookup j) ∧
    ∀ nick, sessions.lookup nick =
      if ∃ j u, r.users.lookup j = some u ∧ matched jid j ∧ u.nick = nick then none
      else r.sessions.lookup nick := by
  obtain ⟨⟨users, sessions⟩, hmaps, rfl⟩ := map_eq_some_iff.1 h
  refine ⟨users, sessions, rfl, ?_⟩
  rw [eraseMatchedUsersMap] at hmaps
  split at hmaps
  · rename_i hbare
    rw [foldl_erase_both, some.injEq, Prod.mk.injEq] at hmaps
    obtain ⟨rfl, rfl⟩ := hmaps
    have hm : ∀ j, matched jid j = jid.areBareEqual j := fun j => if_pos hbare
    constructor
    · intro j
      rw [lookup_foldl_erase, hm]
      cases hj : r.users.lookup j with
      | none => simp
      | some u =>
        have hmem := AList.mem_lookup_iff.1 hj
        refine if_congr ⟨?_, ?_⟩ rfl rfl
        · rintro ⟨e, -, hp, rfl⟩
          exact hp
        · exact fun hp => ⟨⟨j, u⟩, hmem, hp, rfl⟩
    · intro nick
      rw [lookup_foldl_erase]
      refine if_congr ⟨?_, ?_⟩ rfl rfl
      · rintro ⟨⟨j, u⟩, hmem, hp, hnick⟩
        exact ⟨j, u, AList.mem_lookup_iff.2 hmem, (hm j).trans hp, hnick⟩
      · rintro ⟨j, u, hj, hp, hnick⟩
        exact ⟨⟨j, u⟩, AList.mem_lookup_iff.1 hj, (hm j).symm.trans hp, hnick⟩
  · rename_i hfull
    obtain ⟨user, huser, hmaps⟩ := map_eq_some_iff.1 hmaps
    cases hmaps
    constructor
    · intro j
      rw [lookup_erase]
      exact if_congr (matched_full hfull).symm rfl rfl
    · intro nick
      rw [lookup_erase]
      refine if_congr ⟨?_, ?_⟩ rfl rfl
      · rintro rfl
        exact ⟨jid, user, huser, (matched_full hfull).2 rfl, rfl⟩
      · rintro ⟨j, u, hj, hm, rfl⟩
        rw [(matched_full hfull).1 hm, huser, some.injEq] at hj
        rw [hj]

theorem eraseMatchedUsers_isSome {jid : Jid} (h : jid.lresource = "") (r : Room) :
    (eraseMatchedUsers jid r).isSome := by
  rw [eraseMatchedUsers, eraseMatchedUsersMap, if_pos h]
  rfl

/-- **What an update of occupants leaves**: the matched ones updated where they are. -/
theorem lookup_updateMatchedUsers (f : User → User) (jid : Jid) (r : Room) (j : Jid) :
    (updateMatchedUsers f jid r).users.lookup j =
    (r.users.lookup j).map fun user => if matched jid j then f user else user := by
  rw [updateMatchedUsers, updateMatchedUsersMap]
  split
  · rename_i hbare
    rw [lookup_foldl_insert _ f _ r.users.nodupKeys, matched, if_pos hbare]
    change (if _ then ((r.users.lookup j).map f).or (r.users.lookup j) else r.users.lookup j) = _
    cases r.users.lookup j <;> split <;> rfl
  · rename_i hfull
    have hm : matched jid j ↔ j = jid := matched_full hfull
    cases hjid : r.users.lookup jid with
    | none =>
      by_cases hj : j = jid
      · rw [hj, hjid]
        rfl
      · simp only [hm, hj]
        simp
    | some user =>
      rw [lookup_insert]
      by_cases hj : j = jid
      · rw [if_pos hj, hj, hjid]
        simp [matched, hfull]
      · rw [if_neg hj]
        simp only [hm, hj]
        simp

/-- The role of an occupant, none for a JID that is not in the room. -/
def roleAt : Option Role := (r.users.lookup jid).map User.role

theorem getRole_eq : r.getRole jid = (r.roleAt jid).getD .none := by
  rw [getRole, roleAt]
  cases r.users.lookup jid <;> rfl

/-- **What a change of role leaves** of the roles. -/
theorem roleAt_setRole {jid : Jid} {role : Role} {r r' : Room} (h : setRole jid role r = some r')
    (j : Jid) :
    r'.roleAt j = (r.roleAt j).bind fun old =>
    if matched jid j then (if role = .none then none else some role) else some old := by
  have hupdate : role ≠ .none → some (updateMatchedUsers (fun user => { user with role := role })
      jid r) = some r' → r'.roleAt j = (r.roleAt j).bind fun old =>
        if matched jid j then some role else some old := by
    intro _ hr'
    cases hr'
    rw [roleAt, roleAt, lookup_updateMatchedUsers]
    cases r.users.lookup j with
    | none => rfl
    | some u =>
      simp only [map_some, bind_some]
      split <;> rfl
  cases role with
  | none =>
    obtain ⟨users, sessions, rfl, husers, -⟩ := eraseMatchedUsers_eq_some h
    change (users.lookup j).map User.role = _
    rw [husers, roleAt]
    cases r.users.lookup j with
    | none => simp
    | some u =>
      simp only [map_some, bind_some]
      split <;> rfl
  | moderator => simpa using hupdate (by decide) h
  | participant => simpa using hupdate (by decide) h
  | visitor => simpa using hupdate (by decide) h

/-- A change of role by a bare JID never fails. -/
theorem setRole_isSome {jid : Jid} (h : jid.lresource = "") (role : Role) (r : Room) :
    (setRole jid role r).isSome := by
  cases role with
  | none => exact eraseMatchedUsers_isSome h r
  | moderator | participant | visitor => rfl

/-- A change of role fails only for a full JID that is not in the room. -/
theorem setRole_eq_none {jid : Jid} {role : Role} {r : Room} (h : setRole jid role r = none) :
    jid.lresource ≠ "" ∧ r.users.lookup jid = none := by
  have hfull : jid.lresource ≠ "" := by
    intro hbare
    have := setRole_isSome hbare role r
    rw [h] at this
    cases this
  refine ⟨hfull, ?_⟩
  cases role with
  | none =>
    rw [setRole, eraseMatchedUsers, eraseMatchedUsersMap, if_neg hfull] at h
    simpa using h
  | moderator | participant | visitor => cases h

theorem setRole_frame {jid : Jid} {role : Role} {r r' : Room} (h : setRole jid role r = some r') :
    r'.accessAdmin = r.accessAdmin ∧ r'.config = r.config ∧ r'.affiliations = r.affiliations := by
  cases role with
  | none =>
    obtain ⟨users, sessions, rfl, -⟩ := eraseMatchedUsers_eq_some h
    exact ⟨rfl, rfl, rfl⟩
  | moderator | participant | visitor =>
    cases h
    exact ⟨rfl, rfl, rfl⟩

theorem getAffiliation_of_frame {r r' : Room} (haccess : r'.accessAdmin = r.accessAdmin)
    (haffs : r'.affiliations = r.affiliations) (jid : Jid) :
    r'.getAffiliation jid = r.getAffiliation jid := by
  rw [getAffiliation, getAffiliation, haccess, haffs]

/-! ## What the affiliation map says -/

theorem setAffiliationAndReason_eq (affiliation : Affiliation) (reason : String) (r : Room) :
    ∃ affs, setAffiliationAndReason jid affiliation reason r = { r with affiliations := affs } := by
  rw [setAffiliationAndReason]
  split
  · exact ⟨_, rfl⟩
  · exact ⟨_, rfl⟩

theorem entry_remove (r : Room) (j : Jid) :
    ({ r with affiliations := r.affiliations.remove jid } : Room).entry j =
    if j.toBare = jid.toBare then .none else r.entry j := by
  change (((r.affiliations.remove jid).find j.toBare).map StoredAffiliation.affiliation).getD _ = _
  rw [Affiliations.find_remove]
  split <;> rfl

theorem entry_put (value : StoredAffiliation) (h : value.affiliation ≠ .none) (r : Room) (j : Jid) :
    ({ r with affiliations := r.affiliations.put jid value h } : Room).entry j =
    if j.toBare = jid.toBare then value.affiliation else r.entry j := by
  change (((r.affiliations.put jid value h).find j.toBare).map _).getD _ = _
  rw [Affiliations.find_put]
  split <;> rfl

/-- **What a change of affiliation leaves** of the entries. -/
theorem entry_setAffiliationAndReason (jid : Jid) (affiliation : Affiliation) (reason : String)
    (r : Room) (j : Jid) :
    (setAffiliationAndReason jid affiliation reason r).entry j =
    if j.toBare = jid.toBare then affiliation else r.entry j := by
  rw [setAffiliationAndReason]
  split
  · rename_i hnone
    rw [entry_remove, hnone]
  · rename_i hsome
    exact entry_put jid (.withReason affiliation reason) hsome r j

/-- An account has no entry exactly when nothing is stored for it. -/
theorem entry_eq_none {r : Room} {jid : Jid} :
    r.entry jid = .none ↔ r.affiliations.find jid.toBare = none := by
  rw [entry]
  cases hfind : r.affiliations.find jid.toBare with
  | none => simp
  | some value => simpa using r.affiliations.stored _ _ hfind

/-- The domain of a JID. -/
def domain (jid : Jid) : Jid := ⟨"", jid.lserver, ""⟩

/-- **The affiliation of a user**: service admins are owners; everybody else is what the entry of
the account says, and without one what the entry of the domain says. -/
theorem getAffiliation_eq (r : Room) (jid : Jid) : r.getAffiliation jid =
    if r.accessAdmin jid then .owner
    else if r.entry jid = .none then r.entry (domain jid)
    else r.entry jid := by
  have hlookup : ∀ (j : Jid) (rest : List Jid),
      lookupAffiliation (j :: j.toBare :: rest) r.affiliations =
        lookupAffiliation (j.toBare :: rest) r.affiliations := by
    intro j rest
    by_cases hr : j.lresource = ""
    · have hj : j.toBare = j := by rw [Jid.toBare, ← hr]
      rw [hj, lookupAffiliation, lookupAffiliation]
      split <;> rfl
    · rw [lookupAffiliation, Affiliations.find_of_resource hr]
  rw [getAffiliation]
  refine if_congr Iff.rfl rfl ?_
  simp only
  rw [hlookup, lookupAffiliation]
  cases hfind : r.affiliations.find jid.toBare with
  | some value =>
    rw [if_neg fun h => by simp [entry_eq_none.1 h] at hfind]
    simp only [entry, hfind, map_some, getD_some]
  | none =>
    rw [if_pos (entry_eq_none.2 hfind)]
    simp only
    rw [hlookup, lookupAffiliation]
    change _ = ((r.affiliations.find (domain jid)).map StoredAffiliation.affiliation).getD .none
    change (match r.affiliations.find (domain jid) with
      | some value => value.affiliation
      | none => lookupAffiliation [] r.affiliations) = _
    cases r.affiliations.find (domain jid) <;> rfl

section

variable {j j' : Jid} (h : j.toBare = j'.toBare)

include h

theorem entry_congr {r : Room} : r.entry j = r.entry j' := by
  rw [entry, entry, h]

theorem domain_congr : domain j = domain j' := by
  rw [domain, domain, ← Jid.lserver_toBare j, h, Jid.lserver_toBare]

theorem getAffiliation_congr {r : Room}
    (hj : r.accessAdmin j = false) (hj' : r.accessAdmin j' = false) :
    r.getAffiliation j = r.getAffiliation j' := by
  rw [getAffiliation_eq, getAffiliation_eq, hj, hj', entry_congr h, domain_congr h]

end

end Room

end MongooseIM.Muc
