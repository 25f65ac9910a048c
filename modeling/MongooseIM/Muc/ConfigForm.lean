import MongooseIM.Erlang.Integers
import MongooseIM.Erlang.Lists
import MongooseIM.Muc.RoomOpts

/-! # The configuration form of a room

An owner is shown the configuration as a form and submits the form with what is to change. The
fields of the form and the options that are submitted are two hand-written lists. -/

namespace MongooseIM.Muc

open Erlang

/-! ## The form -/

/-- `mongoose_data_forms:field()` -/
structure FormField where
  type : String
  label : String
  var : String
  values : List String
  /-- Labels and values; a value alone is its own label. -/
  options : List (String × String) := []

/-- What the children of the result are made of. -/
structure ConfigForm where
  instructions : String
  title : String
  fields : List FormField

/-- What `get_config/3` reads besides the configuration. -/
structure FormContext where
  /-- `service_translations:do/2` in the language of the request. -/
  translate : String → String
  jid : String
  serviceMaxUsers : ℕ
  defaultRoomMaxUsers : ℕ
  /-- `acl:match_rule/4` of `access_persistent` allows the owner. -/
  accessPersistent : Bool
  /-- `mod_muc_log:check_access_log/3` allows the owner. -/
  accessLog : Bool

namespace FormContext

variable (ctx : FormContext)

/-- `xfield/5` -/
def xfield (type label var val : String) : FormField :=
  { type, label := ctx.translate label, var, values := [val] }

/-- `boolxfield/4` -/
def boolxfield (label var : String) (val : Bool) : FormField :=
  ctx.xfield "boolean" label var (if val then "1" else "0")

variable (label var val : String)

/-- `stringxfield/4` -/
def stringxfield : FormField := ctx.xfield "text-single" label var val

/-- `privatexfield/4` -/
def privatexfield : FormField := ctx.xfield "text-private" label var val

/-- `getmemberlist_field/1` -/
def getmemberlistField : FormField :=
  let values := ["moderator", "participant", "visitor"]
  { type := "list-multi"
    label := ctx.translate "Roles and affiliations that may retrieve member list"
    var := "muc#roomconfig_getmemberlist"
    values
    options := values.map fun opt => (ctx.translate opt, opt) }

/-- `?MAX_USERS_DEFAULT_LIST` -/
def maxUsersDefaultList : List ℕ := [5, 10, 20, 30, 50, 100, 200, 500, 1000, 2000, 5000]

variable (config : Config)

/-- `maxusers_field/2` -/
def maxusersField : FormField :=
  let maxUsersRoom := RoomState.capMaxUsers ctx.serviceMaxUsers config.maxUsers
  let numbers := usort
    (ctx.serviceMaxUsers :: ctx.defaultRoomMaxUsers :: maxUsersRoom :: maxUsersDefaultList)
  { type := "list-single"
    label := ctx.translate "Maximum Number of Occupants"
    var := "muc#roomconfig_maxusers"
    values := [integerToBinary maxUsersRoom]
    options := (numbers.filter fun n => n ≤ ctx.serviceMaxUsers).map fun n =>
      (integerToBinary n, integerToBinary n) }

/-- `whois_field/2` -/
def whoisField : FormField :=
  { type := "list-single"
    label := ctx.translate "moderators only"
    var := "muc#roomconfig_whois"
    values := [if config.anonymous then "moderators" else "anyone"]
    options := [(ctx.translate "moderators only", "moderators"), (ctx.translate "anyone", "anyone")] }

/-- `get_config/3` -/
def getConfig : ConfigForm where
  instructions := ctx.translate "You need an x:data capable client to configure room"
  title := ctx.translate "Configuration of room " ++ ctx.jid
  fields :=
    [ctx.stringxfield "Room title" "muc#roomconfig_roomname" config.title,
      ctx.stringxfield "Room description" "muc#roomconfig_roomdesc" config.description] ++
    (if ctx.accessPersistent then
      [ctx.boolxfield "Make room persistent" "muc#roomconfig_persistentroom" config.persistent]
    else []) ++
    [ctx.boolxfield "Make room public searchable" "muc#roomconfig_publicroom" config.publicRoom,
      ctx.boolxfield "Make participants list public" "public_list" config.publicList,
      ctx.boolxfield "Make room password protected" "muc#roomconfig_passwordprotectedroom"
        config.passwordProtected,
      ctx.privatexfield "Password" "muc#roomconfig_roomsecret"
        (if config.passwordProtected then config.password else ""),
      ctx.getmemberlistField,
      ctx.maxusersField config,
      ctx.whoisField config,
      ctx.boolxfield "Make room members-only" "muc#roomconfig_membersonly" config.membersOnly,
      ctx.boolxfield "Make room moderated" "muc#roomconfig_moderatedroom" config.moderated,
      ctx.boolxfield "Default users as participants" "members_by_default" config.membersByDefault,
      ctx.boolxfield "Allow users to change the subject" "muc#roomconfig_changesubject"
        config.allowChangeSubj,
      ctx.boolxfield "Allow users to send private messages" "allow_private_messages"
        config.allowPrivateMessages,
      ctx.boolxfield "Allow users to query other users" "allow_query_users" config.allowQueryUsers,
      ctx.boolxfield "Allow users to send invites" "muc#roomconfig_allowinvites"
        config.allowUserInvites,
      ctx.boolxfield "Allow users to enter room with multiple sessions"
        "muc#roomconfig_allowmultisessions" config.allowMultipleSessions,
      ctx.boolxfield "Allow visitors to send status text in presence updates"
        "muc#roomconfig_allowvisitorstatus" config.allowVisitorStatus,
      ctx.boolxfield "Allow visitors to change nickname" "muc#roomconfig_allowvisitornickchange"
        config.allowVisitorNickchange] ++
    (if ctx.accessLog then
      [ctx.boolxfield "Enable logging" "muc#roomconfig_enablelogging" config.logging]
    else [])

end FormContext

/-- A variable with its values. -/
abbrev XOption := String × List String

/-- The variables and values of a form. -/
def ConfigForm.kvs (form : ConfigForm) : List XOption :=
  form.fields.map fun field => (field.var, field.values)

/-! ## The options -/

/-- What options end with other than a configuration. -/
inductive XOptionFailure
  /-- `{error, bad_request}` -/
  | badRequest
  | caseClause

/-- The atom of a role. -/
def Role.toScalar : Role → Scalar
  | .moderator => .atom "moderator"
  | .participant => .atom "participant"
  | .visitor => .atom "visitor"
  | .none => .atom "none"

/-- `?SET_BOOL_XOPT` -/
def setBoolXopt (set : Bool → Config) (val : String) : Except XOptionFailure Config :=
  if val = "0" ∨ val = "false" then .ok (set false)
  else if val = "1" ∨ val = "true" then .ok (set true)
  else .error .badRequest

variable (set : ℕ → Config)

/-- `?SET_NAT_XOPT` -/
def setNatXopt (val : String) : Except XOptionFailure Config :=
  match binaryToInteger val with
  | some i => if 0 < i then .ok (set i.toNat) else .error .badRequest
  | none => .error .badRequest

/-- The variables that `set_xoption/2` has clauses for. -/
inductive XVar
  | roomname
  | roomdesc
  | changesubject
  | allowQueryUsers
  | allowPrivateMessages
  | allowvisitorstatus
  | allowvisitornickchange
  | publicroom
  | publicList
  | persistentroom
  | moderatedroom
  | membersByDefault
  | membersonly
  | allowinvites
  | allowmultisessions
  | passwordprotectedroom
  | roomsecret
  | anonymous
  | whois
  | maxusers
  | getmemberlist
  | enablelogging
  deriving DecidableEq

namespace XVar

/-- The variable in the clause. -/
def name : XVar → String
  | roomname => "muc#roomconfig_roomname"
  | roomdesc => "muc#roomconfig_roomdesc"
  | changesubject => "muc#roomconfig_changesubject"
  | allowQueryUsers => "allow_query_users"
  | allowPrivateMessages => "allow_private_messages"
  | allowvisitorstatus => "muc#roomconfig_allowvisitorstatus"
  | allowvisitornickchange => "muc#roomconfig_allowvisitornickchange"
  | publicroom => "muc#roomconfig_publicroom"
  | publicList => "public_list"
  | persistentroom => "muc#roomconfig_persistentroom"
  | moderatedroom => "muc#roomconfig_moderatedroom"
  | membersByDefault => "members_by_default"
  | membersonly => "muc#roomconfig_membersonly"
  | allowinvites => "muc#roomconfig_allowinvites"
  | allowmultisessions => "muc#roomconfig_allowmultisessions"
  | passwordprotectedroom => "muc#roomconfig_passwordprotectedroom"
  | roomsecret => "muc#roomconfig_roomsecret"
  | anonymous => "anonymous"
  | whois => "muc#roomconfig_whois"
  | maxusers => "muc#roomconfig_maxusers"
  | getmemberlist => "muc#roomconfig_getmemberlist"
  | enablelogging => "muc#roomconfig_enablelogging"

/-- The variables in the order of the clauses. -/
def all : List XVar :=
  [roomname, roomdesc, changesubject, allowQueryUsers, allowPrivateMessages, allowvisitorstatus,
    allowvisitornickchange, publicroom, publicList, persistentroom, moderatedroom, membersByDefault,
    membersonly, allowinvites, allowmultisessions, passwordprotectedroom, roomsecret, anonymous,
    whois, maxusers, getmemberlist, enablelogging]

/-- The clause for a variable. -/
def ofName (var : String) : Option XVar := all.find? fun x => x.name = var

end XVar

variable (config : Config)

/-- The clauses of `set_xoption/2`. -/
def setVar : XVar → List String → Except XOptionFailure Config
  | .roomname, [val] => .ok { config with title := val }
  | .roomdesc, [val] => .ok { config with description := val }
  | .changesubject, [val] => setBoolXopt (fun v => { config with allowChangeSubj := v }) val
  | .allowQueryUsers, [val] => setBoolXopt (fun v => { config with allowQueryUsers := v }) val
  | .allowPrivateMessages, [val] =>
    setBoolXopt (fun v => { config with allowPrivateMessages := v }) val
  | .allowvisitorstatus, [val] => setBoolXopt (fun v => { config with allowVisitorStatus := v }) val
  | .allowvisitornickchange, [val] =>
    setBoolXopt (fun v => { config with allowVisitorNickchange := v }) val
  | .publicroom, [val] => setBoolXopt (fun v => { config with publicRoom := v }) val
  | .publicList, [val] => setBoolXopt (fun v => { config with publicList := v }) val
  | .persistentroom, [val] => setBoolXopt (fun v => { config with persistent := v }) val
  | .moderatedroom, [val] => setBoolXopt (fun v => { config with moderated := v }) val
  | .membersByDefault, [val] => setBoolXopt (fun v => { config with membersByDefault := v }) val
  | .membersonly, [val] => setBoolXopt (fun v => { config with membersOnly := v }) val
  | .allowinvites, [val] => setBoolXopt (fun v => { config with allowUserInvites := v }) val
  | .allowmultisessions, [val] =>
    setBoolXopt (fun v => { config with allowMultipleSessions := v }) val
  | .passwordprotectedroom, [val] =>
    setBoolXopt (fun v => { config with passwordProtected := v }) val
  | .roomsecret, [val] => .ok { config with password := val }
  | .anonymous, [val] => setBoolXopt (fun v => { config with anonymous := v }) val
  | .whois, [val] =>
    if val = "moderators" then .ok { config with anonymous := true }
    else if val = "anyone" then .ok { config with anonymous := false }
    else .error .badRequest
  | .maxusers, [val] =>
    if val = "none" then .ok { config with maxUsers := none }
    else setNatXopt (fun n => { config with maxUsers := some n }) val
  | .getmemberlist, val =>
    if val = ["none"] then .ok { config with maygetmemberlist := [] }
    else
      match val.mapM binaryToRole with
      | some roles => .ok { config with maygetmemberlist := roles.map Role.toScalar }
      | none => .error .caseClause
  | .enablelogging, [val] => setBoolXopt (fun v => { config with logging := v }) val
  | _, _ => .error .badRequest

/-- One option in `set_xoption/2`. -/
def setOption (opt : XOption) : Except XOptionFailure Config :=
  match XVar.ofName opt.1 with
  | some var => setVar config var opt.2
  | none => .error .badRequest

/-- `set_xoption/2` -/
def setXoption : List XOption → Config → Except XOptionFailure Config
  | [], config => .ok config
  | opt :: opts, config => (setOption config opt).bind (setXoption opts)

/-! ## Fields and their values -/

/-- The fields of `#config{}`. -/
inductive ConfigField
  | title
  | description
  | allowChangeSubj
  | allowQueryUsers
  | allowPrivateMessages
  | allowVisitorStatus
  | allowVisitorNickchange
  | publicRoom
  | publicList
  | persistent
  | moderated
  | membersByDefault
  | membersOnly
  | allowUserInvites
  | allowMultipleSessions
  | passwordProtected
  | password
  | anonymous
  | maxUsers
  | maygetmemberlist
  | logging
  deriving DecidableEq

/-- The value of a field. -/
inductive ConfigValue
  | text (value : String)
  | bool (value : Bool)
  | maxUsers (value : Option ℕ)
  | roles (value : List Scalar)

/-- A configuration as a map. -/
def Config.value : ConfigField → ConfigValue
  | .title => .text config.title
  | .description => .text config.description
  | .allowChangeSubj => .bool config.allowChangeSubj
  | .allowQueryUsers => .bool config.allowQueryUsers
  | .allowPrivateMessages => .bool config.allowPrivateMessages
  | .allowVisitorStatus => .bool config.allowVisitorStatus
  | .allowVisitorNickchange => .bool config.allowVisitorNickchange
  | .publicRoom => .bool config.publicRoom
  | .publicList => .bool config.publicList
  | .persistent => .bool config.persistent
  | .moderated => .bool config.moderated
  | .membersByDefault => .bool config.membersByDefault
  | .membersOnly => .bool config.membersOnly
  | .allowUserInvites => .bool config.allowUserInvites
  | .allowMultipleSessions => .bool config.allowMultipleSessions
  | .passwordProtected => .bool config.passwordProtected
  | .password => .text config.password
  | .anonymous => .bool config.anonymous
  | .maxUsers => .maxUsers config.maxUsers
  | .maygetmemberlist => .roles config.maygetmemberlist
  | .logging => .bool config.logging

/-- The field that a variable is for. -/
def XVar.field : XVar → ConfigField
  | roomname => .title
  | roomdesc => .description
  | changesubject => .allowChangeSubj
  | allowQueryUsers => .allowQueryUsers
  | allowPrivateMessages => .allowPrivateMessages
  | allowvisitorstatus => .allowVisitorStatus
  | allowvisitornickchange => .allowVisitorNickchange
  | publicroom => .publicRoom
  | publicList => .publicList
  | persistentroom => .persistent
  | moderatedroom => .moderated
  | membersByDefault => .membersByDefault
  | membersonly => .membersOnly
  | allowinvites => .allowUserInvites
  | allowmultisessions => .allowMultipleSessions
  | passwordprotectedroom => .passwordProtected
  | roomsecret => .password
  | anonymous => .anonymous
  | whois => .anonymous
  | maxusers => .maxUsers
  | getmemberlist => .maygetmemberlist
  | enablelogging => .logging

/-- The field that an option names. -/
def fieldOf (var : String) : Option ConfigField := (XVar.ofName var).map XVar.field

variable {config' : Config}

theorem Config.ext_value {config : Config}
    (h : ∀ field, config.value field = config'.value field) : config = config' := by
  have htext (field : ConfigField) {s s' : String} (hs : config.value field = .text s)
      (hs' : config'.value field = .text s') : s = s' :=
    ConfigValue.text.inj (hs.symm.trans ((h field).trans hs'))
  have hbool (field : ConfigField) {b b' : Bool} (hb : config.value field = .bool b)
      (hb' : config'.value field = .bool b') : b = b' :=
    ConfigValue.bool.inj (hb.symm.trans ((h field).trans hb'))
  cases config
  cases config'
  congr 1
  all_goals first
    | exact ConfigValue.maxUsers.inj (h .maxUsers)
    | exact ConfigValue.roles.inj (h .maygetmemberlist)
    | skip
  · exact htext .title rfl rfl
  · exact htext .description rfl rfl
  · exact hbool .allowChangeSubj rfl rfl
  · exact hbool .allowQueryUsers rfl rfl
  · exact hbool .allowPrivateMessages rfl rfl
  · exact hbool .allowVisitorStatus rfl rfl
  · exact hbool .allowVisitorNickchange rfl rfl
  · exact hbool .publicRoom rfl rfl
  · exact hbool .publicList rfl rfl
  · exact hbool .persistent rfl rfl
  · exact hbool .moderated rfl rfl
  · exact hbool .membersByDefault rfl rfl
  · exact hbool .membersOnly rfl rfl
  · exact hbool .allowUserInvites rfl rfl
  · exact hbool .allowMultipleSessions rfl rfl
  · exact hbool .passwordProtected rfl rfl
  · exact htext .password rfl rfl
  · exact hbool .anonymous rfl rfl
  · exact hbool .logging rfl rfl

variable {val : String}

theorem setBoolXopt_ok {set : Bool → Config}
    (h : setBoolXopt set val = .ok config') : ∃ v, config' = set v := by
  rw [setBoolXopt] at h
  split_ifs at h
  · exact ⟨false, (Except.ok.inj h).symm⟩
  · exact ⟨true, (Except.ok.inj h).symm⟩

theorem setNatXopt_ok {set : ℕ → Config}
    (h : setNatXopt set val = .ok config') : ∃ n, config' = set n := by
  rw [setNatXopt] at h
  split at h
  · split_ifs at h
    exact ⟨_, (Except.ok.inj h).symm⟩
  · cases h

variable {field : ConfigField}

theorem setVar_ok {config : Config} {var : XVar} {values : List String}
    (h : setVar config var values = .ok config') (hne : field ≠ var.field) :
    config'.value field = config.value field := by
  unfold setVar at h
  split at h
  case h_1 | h_2 | h_17 =>
      cases h
      cases field <;> first | rfl | exact absurd rfl hne
  case h_19 =>
      split_ifs at h <;> cases h <;> cases field <;> first | rfl | exact absurd rfl hne
  case h_20 =>
      split_ifs at h
      · cases h
        cases field <;> first | rfl | exact absurd rfl hne
      · obtain ⟨n, rfl⟩ := setNatXopt_ok h
        cases field <;> first | rfl | exact absurd rfl hne
  case h_21 =>
      split_ifs at h
      · cases h
        cases field <;> first | rfl | exact absurd rfl hne
      · split at h
        · cases h
          cases field <;> first | rfl | exact absurd rfl hne
        · cases h
  case h_23 => cases h
  -- the flags
  all_goals
    obtain ⟨v, rfl⟩ := setBoolXopt_ok h
    cases field <;> first | rfl | exact absurd rfl hne

variable {opt : XOption}

/-- **An option changes the field that it names** and no other. -/
theorem setOption_ok {config : Config} (h : setOption config opt = .ok config')
    (hne : fieldOf opt.1 ≠ some field) : config'.value field = config.value field := by
  rw [setOption] at h
  rw [fieldOf] at hne
  cases hvar : XVar.ofName opt.1 with
  | none =>
    rw [hvar] at h
    cases h
  | some var =>
    rw [hvar] at h hne
    exact setVar_ok h fun heq => hne (congrArg some heq.symm)

section

variable {opts : List XOption} {config : Config} (h : setXoption opts config = .ok config')

include h

/-- **Options change the fields that they name** and no others. -/
theorem setXoption_ok (hne : ∀ opt ∈ opts, fieldOf opt.1 ≠ some field) :
    config'.value field = config.value field := by
  induction opts generalizing config with
  | nil =>
    cases h
    rfl
  | cons opt opts ih =>
    obtain ⟨hopt, hopts⟩ := List.forall_mem_cons.1 hne
    rw [setXoption] at h
    cases hset : setOption config opt with
    | error failure =>
      rw [hset] at h
      cases h
    | ok config1 =>
      rw [hset] at h
      exact (ih h hopts).trans (setOption_ok hset hopt)

theorem exists_of_setXoption_ok (hmem : opt ∈ opts) :
    ∃ before after, setOption before opt = .ok after := by
  induction opts generalizing config with
  | nil => cases hmem
  | cons opt' opts ih =>
    rw [setXoption] at h
    cases hset : setOption config opt' with
    | error failure =>
      rw [hset] at h
      cases h
    | ok config1 =>
      rw [hset] at h
      rcases List.mem_cons.1 hmem with rfl | hmem
      · exact ⟨config, config1, hset⟩
      · exact ih h hmem

end

/-- An option sets its field to a value, whatever the configuration is. -/
def SetsTo (opt : XOption) (field : ConfigField) (value : ConfigValue) : Prop :=
  fieldOf opt.1 = some field ∧
    ∀ config, ∃ config', setOption config opt = .ok config' ∧ config'.value field = value

/-- **Options that set their fields to what is expected** lead there, in any order. -/
theorem setXoption_of_setsTo {expected : ConfigField → ConfigValue} {opts : List XOption}
    (h : ∀ opt ∈ opts, ∃ field, SetsTo opt field (expected field)) (config : Config) :
    ∃ config', setXoption opts config = .ok config' ∧ ∀ field,
    config.value field = expected field ∨ (∃ opt ∈ opts, fieldOf opt.1 = some field) →
      config'.value field = expected field := by
  induction opts generalizing config with
  | nil =>
    refine ⟨config, rfl, fun field hfield => hfield.resolve_right ?_⟩
    rintro ⟨opt, hmem, -⟩
    cases hmem
  | cons opt opts ih =>
    obtain ⟨⟨field, hnamed, hsets⟩, hopts⟩ := List.forall_mem_cons.1 h
    obtain ⟨config1, hset, hvalue⟩ := hsets config
    obtain ⟨config', hrun, hreached⟩ := ih hopts config1
    refine ⟨config', by rw [setXoption, hset]; exact hrun, fun field' hfield' => ?_⟩
    -- later options leave the field or set it to the same value
    by_cases heq : field' = field
    · subst heq
      exact hreached field' (Or.inl hvalue)
    · have hne : fieldOf opt.1 ≠ some field' := by
        rw [hnamed]
        exact fun hsome => heq (Option.some.inj hsome).symm
      rcases hfield' with hold | ⟨opt', hmem, hnamed'⟩
      · exact hreached field' (Or.inl ((setOption_ok hset hne).trans hold))
      · rcases List.mem_cons.1 hmem with rfl | hmem
        · exact absurd hnamed' hne
        · exact hreached field' (Or.inr ⟨opt', hmem, hnamed'⟩)

/-! ## What the form shows -/

/-- The roles that the form shows. -/
def allRoles : List Scalar := [.atom "moderator", .atom "participant", .atom "visitor"]

variable (ctx : FormContext)

/-- What a form that is submitted as it is has to lead to: the number of occupants is capped by the
service, and a room that is not protected has no password. -/
def resubmitted (config : Config) : Config :=
  { config with
    maxUsers := some (RoomState.capMaxUsers ctx.serviceMaxUsers config.maxUsers)
    password := if config.passwordProtected then config.password else "" }

/-- What it leads to. -/
def shownConfig (config : Config) : Config :=
  { resubmitted ctx config with maygetmemberlist := allRoles }

/-- A flag as it is shown. -/
def showBool (b : Bool) : List String := [if b then "1" else "0"]

/-- The values that the form shows for a variable. -/
def shown (config : Config) : XVar → List String
  | .roomname => [config.title]
  | .roomdesc => [config.description]
  | .changesubject => showBool config.allowChangeSubj
  | .allowQueryUsers => showBool config.allowQueryUsers
  | .allowPrivateMessages => showBool config.allowPrivateMessages
  | .allowvisitorstatus => showBool config.allowVisitorStatus
  | .allowvisitornickchange => showBool config.allowVisitorNickchange
  | .publicroom => showBool config.publicRoom
  | .publicList => showBool config.publicList
  | .persistentroom => showBool config.persistent
  | .moderatedroom => showBool config.moderated
  | .membersByDefault => showBool config.membersByDefault
  | .membersonly => showBool config.membersOnly
  | .allowinvites => showBool config.allowUserInvites
  | .allowmultisessions => showBool config.allowMultipleSessions
  | .passwordprotectedroom => showBool config.passwordProtected
  | .roomsecret => [(resubmitted ctx config).password]
  | .anonymous => showBool config.anonymous
  | .whois => [if config.anonymous then "moderators" else "anyone"]
  | .maxusers => [integerToBinary (RoomState.capMaxUsers ctx.serviceMaxUsers config.maxUsers)]
  | .getmemberlist => ["moderator", "participant", "visitor"]
  | .enablelogging => showBool config.logging

/-- The variables of the form, which has no `anonymous`. -/
def formVars : List XVar :=
  [.roomname, .roomdesc, .persistentroom, .publicroom, .publicList, .passwordprotectedroom,
    .roomsecret, .getmemberlist, .maxusers, .whois, .membersonly, .moderatedroom, .membersByDefault,
    .changesubject, .allowPrivateMessages, .allowQueryUsers, .allowinvites, .allowmultisessions,
    .allowvisitorstatus, .allowvisitornickchange, .enablelogging]

theorem exists_mem_formVars (field : ConfigField) : ∃ var ∈ formVars, var.field = field := by
  cases field <;> decide

theorem ofName_name (var : XVar) : XVar.ofName var.name = some var := by
  cases var <;> decide

/-- **The form of an owner who sees all fields** shows every variable. -/
theorem kvs_getConfig {ctx : FormContext} (hpersistent : ctx.accessPersistent = true)
    (hlog : ctx.accessLog = true) (config : Config) :
    (ctx.getConfig config).kvs = formVars.map fun var => (var.name, shown ctx config var) := by
  simp only [ConfigForm.kvs, FormContext.getConfig, hpersistent, hlog, if_true]
  rfl

theorem setBoolXopt_shown (set : Bool → Config) (b : Bool) :
    setBoolXopt set (if b then "1" else "0") = .ok (set b) := by
  cases b <;> rfl

theorem setNatXopt_integerToBinary (n : ℕ) :
    setNatXopt set (integerToBinary n) = if 0 < n then .ok (set n) else .error .badRequest := by
  rw [setNatXopt, binaryToInteger_integerToBinary]
  simp

/-- No number is written as `none`. -/
theorem integerToBinary_ne_none (n : ℤ) : integerToBinary n ≠ "none" := by
  intro h
  have hread := binaryToInteger_integerToBinary n
  rw [h] at hread
  cases hread

/-- The number of occupants is taken when it is positive. -/
theorem setVar_maxusers (config before : Config) :
    setVar before .maxusers (shown ctx config .maxusers) =
    if 0 < RoomState.capMaxUsers ctx.serviceMaxUsers config.maxUsers then
      .ok { before with maxUsers := (resubmitted ctx config).maxUsers }
    else .error .badRequest := by
  rw [shown, setVar, if_neg (integerToBinary_ne_none _), setNatXopt_integerToBinary]
  rfl

section

variable {ctx : FormContext} {config : Config}
    (hpos : 0 < RoomState.capMaxUsers ctx.serviceMaxUsers config.maxUsers) (var : XVar)

include hpos

/-- **A variable of the form sets its field to what is shown.** -/
theorem setVar_shown
    (before : Config) : ∃ after, setVar before var (shown ctx config var) = .ok after ∧
    after.value var.field = (shownConfig ctx config).value var.field := by
  cases var with
  | roomname => exact ⟨_, rfl, rfl⟩
  | roomdesc => exact ⟨_, rfl, rfl⟩
  | roomsecret => exact ⟨_, rfl, rfl⟩
  | whois =>
    cases hanonymous : config.anonymous with
    | false =>
      refine ⟨{ before with anonymous := false }, ?_, ?_⟩
      · simp [setVar, shown, hanonymous]
      · simp [Config.value, XVar.field, shownConfig, resubmitted, hanonymous]
    | true =>
      refine ⟨{ before with anonymous := true }, ?_, ?_⟩
      · simp [setVar, shown, hanonymous]
      · simp [Config.value, XVar.field, shownConfig, resubmitted, hanonymous]
  | maxusers => exact ⟨_, (setVar_maxusers ctx config before).trans (if_pos hpos), rfl⟩
  | getmemberlist => exact ⟨{ before with maygetmemberlist := allRoles }, rfl, rfl⟩
  | _ =>
    -- the flags
    simp only [setVar, shown, showBool, setBoolXopt_shown]
    exact ⟨_, rfl, rfl⟩

/-- An option of the form sets its field to what is shown. -/
theorem setsTo_shown : SetsTo (var.name, shown ctx config var) var.field
    ((shownConfig ctx config).value var.field) := by
  refine ⟨by rw [fieldOf, ofName_name]; rfl, fun before => ?_⟩
  obtain ⟨after, hset, hvalue⟩ := setVar_shown hpos var before
  exact ⟨after, by rw [setOption, ofName_name]; exact hset, hvalue⟩

end

/-! ## Submitting the form -/

/-- **The form is faithful to a configuration.** -/
structure FormFaithful (ctx : FormContext) (config : Config) : Prop where
  /-- The form as it is changes nothing, in whichever order its fields are submitted. -/
  unchanged : ∀ opts, opts.Perm (ctx.getConfig config).kvs →
    setXoption opts config = .ok (resubmitted ctx config)
  onlyNamed : ∀ opts config', setXoption opts config = .ok config' → ∀ field,
    (∀ opt ∈ opts, fieldOf opt.1 ≠ some field) → config'.value field = config.value field

section Submission

variable {ctx : FormContext} (hpersistent : ctx.accessPersistent = true)
  (hlog : ctx.accessLog = true) {config : Config} {opts : List XOption}

include hpersistent hlog

/-- **The form leads to the list of all roles.** -/
theorem setXoption_kvs (hpos : 0 < RoomState.capMaxUsers ctx.serviceMaxUsers config.maxUsers)
    (hperm : opts.Perm (ctx.getConfig config).kvs) :
    setXoption opts config = .ok (shownConfig ctx config) := by
  rw [kvs_getConfig hpersistent hlog] at hperm
  have hsets : ∀ opt ∈ opts, ∃ field, SetsTo opt field ((shownConfig ctx config).value field) := by
    intro opt hopt
    obtain ⟨var, -, rfl⟩ := List.mem_map.1 (hperm.mem_iff.1 hopt)
    exact ⟨var.field, setsTo_shown hpos var⟩
  obtain ⟨config', hrun, hreached⟩ := setXoption_of_setsTo hsets config
  rw [hrun]
  -- every field has a variable in the form, so nothing of the old configuration is left
  refine congrArg _ (Config.ext_value fun field => hreached field (Or.inr ?_))
  obtain ⟨var, hvar, rfl⟩ := exists_mem_formVars field
  exact ⟨_, hperm.mem_iff.2 (List.mem_map_of_mem hvar), (setsTo_shown hpos var).1⟩

theorem setXoption_kvs_ne (hpos : ¬ 0 < RoomState.capMaxUsers ctx.serviceMaxUsers config.maxUsers)
    (hperm : opts.Perm (ctx.getConfig config).kvs) (config' : Config) :
    setXoption opts config ≠ .ok config' := by
  intro hrun
  rw [kvs_getConfig hpersistent hlog] at hperm
  have hmem : XVar.maxusers ∈ formVars := by decide
  obtain ⟨before, after, hset⟩ :=
    exists_of_setXoption_ok hrun (hperm.mem_iff.2 (List.mem_map_of_mem hmem))
  rw [setOption, ofName_name] at hset
  dsimp only at hset
  rw [setVar_maxusers, if_neg hpos] at hset
  cases hset

/-- The form of an owner who sees all fields is faithful exactly where moderators, participants and
visitors may get the list of members, in this order, and there is room for somebody. -/
theorem formFaithful_iff (config : Config) :
    FormFaithful ctx config ↔ config.maygetmemberlist = allRoles ∧
    0 < RoomState.capMaxUsers ctx.serviceMaxUsers config.maxUsers := by
  constructor
  · intro hfaithful
    have hrun := hfaithful.unchanged _ (.refl _)
    by_cases hpos : 0 < RoomState.capMaxUsers ctx.serviceMaxUsers config.maxUsers
    · rw [setXoption_kvs hpersistent hlog hpos (.refl _)] at hrun
      exact ⟨(congrArg Config.maygetmemberlist (Except.ok.inj hrun)).symm, hpos⟩
    · exact absurd hrun (setXoption_kvs_ne hpersistent hlog hpos (.refl _) _)
  · rintro ⟨hlist, hpos⟩
    refine ⟨fun opts hperm => ?_, fun opts config' hrun field hne => setXoption_ok hrun hne⟩
    rw [setXoption_kvs hpersistent hlog hpos hperm, shownConfig, ← hlist]
    rfl

end Submission

/-- An owner who is allowed everything, of a service with up to 200 occupants in a room. -/
def ownerContext : FormContext where
  translate := id
  jid := "library@muc.localhost"
  serviceMaxUsers := 200
  defaultRoomMaxUsers := 200
  accessPersistent := true
  accessLog := true

/-- A protected room where all occupants may get the list of members. -/
theorem formFaithful_library : FormFaithful ownerContext
    { title := "Library", passwordProtected := true, password := "books"
      maygetmemberlist := allRoles } :=
  (formFaithful_iff rfl rfl _).2 ⟨rfl, by decide⟩

/-- Nobody may get the list of members of a room as it is created, and everybody may when its form
is submitted as it is. -/
theorem form_opens_memberlist :
    setXoption (ownerContext.getConfig {}).kvs {} = .ok { maygetmemberlist := allRoles } ∧
    ¬ FormFaithful ownerContext {} := by
  have hrun : setXoption (ownerContext.getConfig {}).kvs {} =
      .ok { maygetmemberlist := allRoles } := setXoption_kvs rfl rfl (by decide) (.refl _)
  refine ⟨hrun, fun hfaithful => ?_⟩
  have hsame := hrun.symm.trans (hfaithful.unchanged _ (.refl _))
  exact absurd (congrArg Config.maygetmemberlist (Except.ok.inj hsame)) (by decide)

end MongooseIM.Muc
