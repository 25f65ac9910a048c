import MongooseIM.Muc.Room

/-! # Joining, leaving and changing nick

`process_presence1/4` with what it calls, and the two ways into a room: at once, or when the HTTP
service that was asked about the password has answered. An exception of the source is `none` here;
it stops the room. -/

namespace MongooseIM.Muc

open Erlang Xmpp Option

/-- The namespace of `muc`. -/
def nsMuc : String := "http://jabber.org/protocol/muc"

/-- What the HTTP service says about a password. -/
inductive AuthResult
  | allowed
  | invalidPassword (errorMsg : String)
  | error
  deriving DecidableEq

/-- What the room asks others for when a presence comes. -/
structure Environment where
  /-- `mod_muc:can_use_nick/4` -/
  canUseNick : Bool
  tabCountUser : Nat
  /-- `make_http_auth_request/4`, made at once when the room is empty. -/
  authResult : AuthResult

namespace Room

/-! ## Occupants and sessions -/

/-- `is_user_online/2` -/
def isUserOnline (r : Room) (jid : Jid) : Bool := (r.users.lookup jid).isSome

/-- `is_last_session/2` -/
def isLastSession (nick : Nick) (r : Room) : Bool :=
  match r.sessions.lookup nick with
  | some [_] => true
  | _ => false

/-- `is_nick_exists/2` -/
def isNickExists (nick : Nick) (r : Room) : Bool := (r.sessions.lookup nick).isSome

variable (jid : Jid) (r : Room)

/-- `is_visitor/2` -/
def isVisitor : Bool := r.getRole jid = .visitor

/-- `add_online_user/4` -/
def addOnlineUser (nick : Nick) (role : Role) (r : Room) : Room :=
  { r with
    users := r.users.insert jid ⟨jid, nick, role⟩
    -- `maps_append/3`
    sessions := r.sessions.insert nick (r.findJidsByNick nick ++ [jid]) }

/-- `remove_online_user/3` -/
def removeOnlineUser : Option Room := do
  let user ← r.users.lookup jid
  let sessions ←
    if isLastSession user.nick r then some (r.sessions.erase user.nick)
    else
      -- `maps:update_with/3` fails without the nick
      (r.sessions.lookup user.nick).map fun jids =>
        r.sessions.insert user.nick (jids.filter (· ≠ jid))
  return { r with users := r.users.erase jid, sessions := sessions }

/-- `add_user_presence/3`; the presence itself is not kept here. -/
def addUserPresence : Option Room := (r.users.lookup jid).map fun _ => r

/-- `add_user_presence_un/3` -/
def addUserPresenceUn : Option Room :=
  (r.users.lookup jid).map fun user =>
    { r with users := r.users.insert jid { user with role := .none } }

/-- `send_new_presence_un/3`: those who get the presence. -/
def sendNewPresenceUn : Option (List User) := do
  let user ← r.users.lookup jid
  if isLastSession user.nick r then return r.users.entries.map fun entry => entry.2
  else
    let userJids ← r.sessions.lookup user.nick
    userJids.mapM fun other => r.users.lookup other

/-- `change_nick/3` -/
def changeNick (nick : Nick) (r : Room) : Option Room := do
  let user ← r.users.lookup jid
  let jids ← r.sessions.lookup user.nick
  return { r with
    users := r.users.insert jid { user with nick := nick }
    sessions := (r.sessions.insert nick jids).erase user.nick }

/-- `is_new_nick_of_online_user/3`, none for `user_is_offline`. -/
def isNewNickOfOnlineUser (nick : Nick) (r : Room) : Option Bool :=
  (r.users.lookup jid).map fun user => nick ≠ "" && nick ≠ user.nick

/-! ## Joining -/

/-- `get_default_role/2` -/
def getDefaultRole (affiliation : Affiliation) (r : Room) : Role :=
  match affiliation with
  | .owner => .moderator
  | .admin => .moderator
  | .member => .participant
  | .outcast => .none
  | .none =>
    if r.config.membersOnly then .none
    else if r.config.membersByDefault then .participant
    else .visitor

/-- `get_max_users/1` -/
def getMaxUsers (r : Room) : Nat :=
  match r.config.maxUsers with
  | some maxUsers => min maxUsers r.options.maxUsers
  | none => r.options.maxUsers

/-- `is_user_limit_reached/3`, which is true as long as it is not. -/
def isUserLimitReached (env : Environment) (fromJid : Jid) (affiliation : Affiliation) (r : Room) :
    Bool :=
  let maxUsers := r.getMaxUsers
  let maxAdminUsers := maxUsers + r.options.maxUsersAdminThreshold
  let nUsers := r.users.entries.length
  (r.getServiceAffiliation fromJid = .owner ||
      ((affiliation = .admin || affiliation = .owner) && nUsers < maxAdminUsers) ||
      nUsers < maxUsers) &&
    env.tabCountUser < r.options.maxUserConferences

/-- `is_next_session_of_occupant/3` -/
def isNextSessionOfOccupant (fromJid : Jid) (nick : Nick) (r : Room) : Bool :=
  r.config.allowMultipleSessions &&
    (r.findJidsByNick nick).any fun jid =>
      fromJid.lserver = jid.lserver && fromJid.luser = jid.luser

/-- `new_user_strategy()` -/
inductive NewUserStrategy
  | limitReached
  | userBanned
  | requireMembership
  | conflictUse
  | conflictRegistered
  | requirePassword
  | invalidPassword
  | httpAuth
  | allowed

/-- `is_password_required/2` -/
def isPasswordRequired : Affiliation → Config → Bool
  | .owner, _ => false
  | _, config => config.passwordProtected

/-- `check_password/2` -/
def checkPassword (r : Room) (password : String) : NewUserStrategy :=
  if r.httpAuthPool then .httpAuth
  else if r.config.password = password then .allowed
  else .invalidPassword

/-- `extract_password/1` -/
def extractPassword (packet : Element) : Option String := do
  let x ← packet.children.find? fun child => child.name = "x" && child.attr? "xmlns" = some nsMuc
  let password ← x.children.find? fun child => child.name = "password"
  return password.cdata

/-- `choose_new_user_password_strategy/3` -/
def chooseNewUserPasswordStrategy (fromJid : Jid) (packet : Element) (r : Room) : NewUserStrategy :=
  if isPasswordRequired (r.getServiceAffiliation fromJid) r.config then
    match extractPassword packet with
    | none => .requirePassword
    | some password => checkPassword r password
  else .allowed

/-- `choose_new_user_strategy/6` -/
def chooseNewUserStrategy (env : Environment) (fromJid : Jid) (nick : Nick)
    (affiliation : Affiliation) (role : Role) (packet : Element) (r : Room) : NewUserStrategy :=
  match isUserLimitReached env fromJid affiliation r, isNickExists nick r,
    isNextSessionOfOccupant fromJid nick r, env.canUseNick, role, affiliation with
  | false, _, _, _, _, _ => .limitReached
  | _, _, _, _, .none, .outcast => .userBanned
  | _, _, _, _, .none, _ => .requireMembership
  | _, true, false, _, _, _ => .conflictUse
  | _, _, _, false, _, _ => .conflictRegistered
  | _, _, _, _, _, _ => chooseNewUserPasswordStrategy fromJid packet r

variable {env : Environment} {fromJid : Jid} {nick : Nick} {packet : Element} {r : Room}

/-- **A join that passes the checks** has a role, and its nick is free or in use by the account. -/
theorem chooseNewUserStrategy_admits {affiliation : Affiliation} {role : Role}
    (h : chooseNewUserStrategy env fromJid nick affiliation role packet r = .allowed ∨
    chooseNewUserStrategy env fromJid nick affiliation role packet r = .httpAuth) :
    role ≠ .none ∧ (isNickExists nick r → isNextSessionOfOccupant fromJid nick r) := by
  unfold chooseNewUserStrategy at h
  split at h
  -- the strategies that refuse
  case h_1 | h_2 | h_3 | h_4 | h_5 => simp at h
  case h_6 hmembers _ hconflict _ _ =>
    constructor
    · rintro rfl
      exact hmembers rfl
    · intro hexists
      by_contra hnext
      rw [Bool.not_eq_true] at hnext
      exact hconflict hexists hnext

/-- `do_add_new_user/5` -/
def doAddNewUser (fromJid : Jid) (nick : Nick) (role : Role) (r : Room) : Option Room :=
  addUserPresence fromJid (addOnlineUser fromJid nick role r)

/-- The session that comes in is there when its presence is kept. -/
theorem doAddNewUser_eq (fromJid : Jid) (nick : Nick) (role : Role) (r : Room) :
    doAddNewUser fromJid nick role r = some (addOnlineUser fromJid nick role r) := by
  have hlookup : (addOnlineUser fromJid nick role r).users.lookup fromJid =
      some ⟨fromJid, nick, role⟩ := by
    change (r.users.insert fromJid _).lookup fromJid = _
    rw [lookup_insert, if_pos rfl]
  rw [doAddNewUser, addUserPresence, hlookup]
  rfl

/-- `handle_http_auth_result/6` -/
def handleHttpAuthResult (result : AuthResult) (fromJid : Jid) (nick : Nick) (role : Role)
    (r : Room) : Option Room :=
  match result with
  | .allowed => doAddNewUser fromJid nick role r
  | .invalidPassword _ => some r
  | .error => some r

/-- `perform_http_auth/6` -/
def performHttpAuth (env : Environment) (fromJid : Jid) (nick : Nick) (role : Role) (r : Room) :
    Option Room :=
  if r.users.entries.isEmpty then handleHttpAuthResult env.authResult fromJid nick role r
  else some { r with httpAuthPids := ⟨fromJid, nick, role⟩ :: r.httpAuthPids }

/-- `add_new_user/4` -/
def addNewUser (env : Environment) (fromJid : Jid) (nick : Nick) (packet : Element) (r : Room) :
    Option Room :=
  let affiliation := r.getAffiliation fromJid
  let role := getDefaultRole affiliation r
  match chooseNewUserStrategy env fromJid nick affiliation role packet r with
  | .httpAuth => performHttpAuth env fromJid nick role r
  | .allowed => doAddNewUser fromJid nick role r
  -- the others are answered with an error
  | _ => some r

/-- `handle_new_user/5` -/
def handleNewUser (env : Environment) (fromJid : Jid) (nick : Nick) (packet : Element)
    (r : Room) : Option Room :=
  if nick = "" then some r
  else
    match packet.children.find? fun child => child.name = "x" with
    | none => some r
    | some _ => addNewUser env fromJid nick packet r

/-- **What a join can do**: nothing; or it passes the checks, and then the session comes in with
the default role of its affiliation, or waits for the HTTP service. -/
theorem handleNewUser_cases (env : Environment) (fromJid : Jid) (nick : Nick) (packet : Element)
    (r : Room) :
    let role := getDefaultRole (r.getAffiliation fromJid) r
    let handled := handleNewUser env fromJid nick packet r
    handled = some r ∨
      (role ≠ .none ∧ (isNickExists nick r → isNextSessionOfOccupant fromJid nick r)) ∧
        (handled = doAddNewUser fromJid nick role r ∨
          handled = some { r with httpAuthPids := ⟨fromJid, nick, role⟩ :: r.httpAuthPids }) := by
  intro role handled
  have hadd : addNewUser env fromJid nick packet r = some r ∨
      (role ≠ .none ∧ (isNickExists nick r → isNextSessionOfOccupant fromJid nick r)) ∧
        (addNewUser env fromJid nick packet r = doAddNewUser fromJid nick role r ∨
          addNewUser env fromJid nick packet r =
            some { r with httpAuthPids := ⟨fromJid, nick, role⟩ :: r.httpAuthPids }) := by
    unfold addNewUser
    simp only
    split
    · rename_i hs
      have hadmits := chooseNewUserStrategy_admits (.inr hs)
      rw [performHttpAuth]
      split
      · -- an empty room waits for the answer at once
        cases env.authResult with
        | allowed => exact .inr ⟨hadmits, .inl rfl⟩
        | invalidPassword errorMsg => exact .inl rfl
        | error => exact .inl rfl
      · exact .inr ⟨hadmits, .inr rfl⟩
    · rename_i hs
      exact .inr ⟨chooseNewUserStrategy_admits (.inl hs), .inl rfl⟩
    · exact .inl rfl
  show handleNewUser env fromJid nick packet r = some r ∨ _ ∧
    (handleNewUser env fromJid nick packet r = _ ∨ handleNewUser env fromJid nick packet r = _)
  unfold handleNewUser
  split
  · exact .inl rfl
  · split
    · exact .inl rfl
    · exact hadd

/-! ## Presences -/

/-- `expulse_participant/4` -/
def expulseParticipant (fromJid : Jid) (r : Room) : Option Room := do
  let r' ← addUserPresenceUn fromJid r
  let _ ← sendNewPresenceUn fromJid r'
  removeOnlineUser fromJid r'

/-- `process_presence_unavailable/3` -/
def processPresenceUnavailable (fromJid : Jid) (r : Room) : Option Room :=
  if r.isUserOnline fromJid then do
    let r' ← addUserPresenceUn fromJid r
    let _ ← sendNewPresenceUn fromJid r'
    removeOnlineUser fromJid r'
  else some r

/-- `process_presence_error/4`, and likewise the error messages that put their sender out. -/
def processPresenceError (fromJid : Jid) (r : Room) : Option Room :=
  if r.isUserOnline fromJid then expulseParticipant fromJid r else some r

/-- `choose_nick_change_strategy/3` -/
inductive NickChangeStrategy
  | notAllowedVisitor
  | conflictUse
  | conflictRegistered
  | allowed
  deriving DecidableEq

/-- `choose_nick_change_strategy/3` -/
def chooseNickChangeStrategy (env : Environment) (fromJid : Jid) (nick : Nick) (r : Room) :
    NickChangeStrategy :=
  match isNickExists nick r, env.canUseNick, r.config.allowVisitorNickchange,
    isVisitor fromJid r with
  | _, _, false, true => .notAllowedVisitor
  | true, _, _, _ => .conflictUse
  | _, false, _, _ => .conflictRegistered
  | _, _, _, _ => .allowed

/-- `process_presence_nick_change/5` -/
def processPresenceNickChange (env : Environment) (fromJid : Jid) (nick : Nick) (r : Room) :
    Option Room :=
  match chooseNickChangeStrategy env fromJid nick r with
  | .allowed => changeNick fromJid nick r
  -- the others are answered with an error
  | _ => some r

/-- `process_presence1/4` -/
def processPresence1 (env : Environment) (fromJid : Jid) (nick : Nick) (packet : Element)
    (r : Room) : Option Room :=
  match (packet.attr? "type").getD "" with
  | "unavailable" => processPresenceUnavailable fromJid r
  | "error" => processPresenceError fromJid r
  | "" =>
    match isNewNickOfOnlineUser fromJid nick r with
    | some true => processPresenceNickChange env fromJid nick r
    -- `process_simple_presence/3`
    | some false => addUserPresence fromJid r
    | none => handleNewUser env fromJid nick packet r
  | _ => some r

/-! ## Who is in the room after a presence -/

/-- Nobody comes in; those who stay have the JID and the role they had, in the same room. -/
structure Stays (r r' : Room) : Prop where
  users : ∀ j u', r'.users.lookup j = some u' →
    ∃ u, r.users.lookup j = some u ∧ u'.jid = u.jid ∧ u'.role = u.role
  accessAdmin : r'.accessAdmin = r.accessAdmin
  config : r'.config = r.config
  affiliations : r'.affiliations = r.affiliations

theorem Stays.refl (r : Room) : Stays r r := ⟨fun _ u hu => ⟨u, hu, rfl, rfl⟩, rfl, rfl, rfl⟩

variable {jid : Jid} {r' : Room}

theorem removeOnlineUser_eq_some (h : removeOnlineUser jid r = some r') :
    ∃ sessions, r' = { r with users := r.users.erase jid, sessions := sessions } := by
  obtain ⟨user, -, h⟩ := bind_eq_some_iff.1 h
  split at h
  · exact ⟨_, (some.inj h).symm⟩
  · obtain ⟨sessions, -, h⟩ := bind_eq_some_iff.1 h
    exact ⟨sessions, (some.inj h).symm⟩

theorem stays_expulseParticipant (h : expulseParticipant jid r = some r') : Stays r r' := by
  obtain ⟨r₁, hun, h⟩ := bind_eq_some_iff.1 h
  obtain ⟨receivers, -, h⟩ := bind_eq_some_iff.1 h
  obtain ⟨user, -, rfl⟩ := map_eq_some_iff.1 hun
  obtain ⟨sessions, rfl⟩ := removeOnlineUser_eq_some h
  refine ⟨fun j u hu => ?_, rfl, rfl, rfl⟩
  change ((r.users.insert jid _).erase jid).lookup j = some u at hu
  rw [lookup_erase] at hu
  split at hu
  · cases hu
  · rename_i hj
    rw [lookup_insert, if_neg hj] at hu
    exact ⟨u, hu, rfl, rfl⟩

theorem stays_processPresenceError (h : processPresenceError jid r = some r') : Stays r r' := by
  unfold processPresenceError at h
  split at h
  · exact stays_expulseParticipant h
  · cases h
    exact Stays.refl r

theorem stays_changeNick (h : changeNick jid nick r = some r') : Stays r r' := by
  obtain ⟨user, huser, h⟩ := bind_eq_some_iff.1 h
  obtain ⟨jids, -, h⟩ := bind_eq_some_iff.1 h
  cases h
  refine ⟨fun j u hu => ?_, rfl, rfl, rfl⟩
  change (r.users.insert jid { user with nick := nick }).lookup j = some u at hu
  rw [lookup_insert] at hu
  split at hu
  · rename_i hj
    cases hu
    exact ⟨user, hj ▸ huser, rfl, rfl⟩
  · exact ⟨u, hu, rfl, rfl⟩

/-- **What a presence can do**: those who are in the room stay or go, or one session comes in with
the default role of its affiliation. -/
theorem processPresence1_cases (h : processPresence1 env fromJid nick packet r = some r') :
    Stays r r' ∨ getDefaultRole (r.getAffiliation fromJid) r ≠ .none ∧
      r' = addOnlineUser fromJid nick (getDefaultRole (r.getAffiliation fromJid) r) r := by
  unfold processPresence1 at h
  split at h
  · exact .inl (stays_processPresenceError h)
  · exact .inl (stays_processPresenceError h)
  · split at h
    · unfold processPresenceNickChange at h
      split at h
      · exact .inl (stays_changeNick h)
      · cases h
        exact .inl (Stays.refl r)
    · obtain ⟨user, -, rfl⟩ := map_eq_some_iff.1 h
      exact .inl (Stays.refl r)
    · obtain hsame | ⟨⟨hrole, -⟩, hjoins | hwaits⟩ := handleNewUser_cases env fromJid nick packet r
      · cases (hsame.symm.trans h)
        exact .inl (Stays.refl r)
      · rw [hjoins, doAddNewUser_eq] at h
        exact .inr ⟨hrole, (some.inj h).symm⟩
      · cases (hwaits.symm.trans h)
        exact .inl ⟨(Stays.refl r).users, rfl, rfl, rfl⟩
  · cases h
    exact .inl (Stays.refl r)

end Room

end MongooseIM.Muc
