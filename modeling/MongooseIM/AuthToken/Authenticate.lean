import MongooseIM.AuthToken.Tokens

/-! # Logins with tokens

The table `auth_token` of `mod_auth_token_rdbms`, how `mod_auth_token` makes and checks tokens with
it, and what `cyrsasl_oauth`, `cyrsasl` and `mongoose_c2s_sasl` make of the result. -/

namespace MongooseIM.AuthToken

open Erlang Xmpp

/-! ## The table -/

/-- The rows of `auth_token`: the sequence number of every owner. -/
abbrev Table := AList fun _ : String => ℤ

/-- `jid:to_bare_binary/1` -/
def toBareBinary (j : Jid) : String := j.toBare.toBinary

variable (owner : Jid) (table : Table)

/-- `get_valid_sequence_number/2`: an upsert, which leaves a row that is there, and a select. -/
def getValidSequenceNumber : ℤ × Table :=
  match table.lookup (toBareBinary owner) with
  | some seqNo => (seqNo, table)
  | none => (1, table.insert (toBareBinary owner) 1)

/-- The result of `revoke/2`. -/
inductive Revoked
  | ok
  | notFound

/-- `revoke/2` -/
def revoke : Revoked × Table :=
  match table.lookup (toBareBinary owner) with
  | some seqNo => (.ok, table.insert (toBareBinary owner) (seqNo + 1))
  | none => (.notFound, table)

/-- `clean_tokens/2` -/
def cleanTokens : Table := table.erase (toBareBinary owner)

/-- Every row is there still. -/
def Extends (table table' : Table) : Prop :=
  ∀ key seqNo, table.lookup key = some seqNo → table'.lookup key = some seqNo

theorem Extends.refl : Extends table table := fun _ _ h => h

/-- The number that is valid is the one of the row, and no row changes. -/
theorem getValidSequenceNumber_spec :
    (getValidSequenceNumber owner table).2.lookup (toBareBinary owner) =
      some (getValidSequenceNumber owner table).1 ∧
    Extends table (getValidSequenceNumber owner table).2 := by
  unfold getValidSequenceNumber
  split
  · next seqNo hrow => exact ⟨hrow, Extends.refl table⟩
  · next hrow =>
    refine ⟨AList.lookup_insert table, fun key seqNo hkey => ?_⟩
    show (table.insert (toBareBinary owner) 1).lookup key = some seqNo
    rw [lookup_insert, if_neg ?_, hkey]
    rintro rfl
    rw [hrow] at hkey
    cases hkey

theorem lookup_revoke (key : String) : (revoke owner table).2.lookup key =
    if key = toBareBinary owner then (table.lookup key).map (· + 1) else table.lookup key := by
  unfold revoke
  split
  · next seqNo hrow =>
    show (table.insert (toBareBinary owner) (seqNo + 1)).lookup key = _
    rw [lookup_insert]
    split
    · next hkey => rw [hkey, hrow, Option.map_some]
    · rfl
  · next hrow =>
    split
    · next hkey => rw [hkey, hrow, Option.map_none]
    · rfl

/-! ## Making and checking -/

/-- What a token is checked for. -/
inductive Criterion
  | macValid
  | notExpired
  | notRevoked

/-- `validation_result()` -/
inductive ValidationResult
  /-- `{ok, mod_auth_token, LUser}`, or with a new access token. -/
  | ok (luser : String) (accessToken : Option String)
  /-- `{error, {LUser, Criteria}}` with the criteria that are not met. -/
  | notValid (luser : String) (failed : List Criterion)
  /-- `{error, Reason}` -/
  | error

/-- The result of `authenticate/2`, the table and the token that was made. -/
structure Authenticated where
  result : ValidationResult
  table : Table
  made : Option Token := none

namespace Settings

variable (settings : Settings) (now : ℕ)

/-- `token/3`: the token, `none` if it cannot be made. -/
def token (user : Jid) (type : TokenType) (table : Table) : Option Token × Table :=
  match type with
  | .access =>
    let expiry := now + periodToSeconds settings.accessPeriod
    (settings.tokenWithMac { type, expiryDatetime := expiry, userJid := user }, table)
  | .refresh =>
    let expiry := now + periodToSeconds settings.refreshPeriod
    let (validSeqNo, table) := getValidSequenceNumber user table
    (settings.tokenWithMac
      { type, expiryDatetime := expiry, userJid := user, sequenceNo := some validSeqNo }, table)
  | .provision => (none, table)

/-- `create_tokens/2` and `create_token_response/3`, which serialize the two tokens. -/
def createTokens (user : Jid) (table : Table) : Option (Token × Token) × Table :=
  let (access, table) := settings.token now user .access table
  let (refresh, table) := settings.token now user .refresh table
  match access, refresh with
  | some access, some refresh => (some (access, refresh), table)
  | _, _ => (none, table)

variable (t : Token)

/-- `is_mac_valid/2`, `none` if there is no key -/
def isMacValid : Option Bool :=
  t.tokenBody.bind fun body => (settings.keyedHash body t.type).map fun mac =>
    t.macSignature = some mac

/-- `is_not_expired/1` -/
def isNotExpired : Bool := now < t.expiryDatetime

variable (table : Table)

/-- `is_revoked/2` -/
def isRevoked : Bool × Table :=
  match t.type with
  | .access | .provision => (false, table)
  | .refresh =>
    let (validSeqNo, table) := getValidSequenceNumber t.userJid table
    (t.sequenceNo.any (· < validSeqNo), table)

/-- `validate_token/2`: the criteria, `none` if there is no key. -/
def validateToken : Option (List (Criterion × Bool)) × Table :=
  match settings.isMacValid t with
  | none => (none, table)
  | some macValid =>
    let notExpired := isNotExpired now t
    let (revoked, table) := isRevoked t table
    (some [(.macValid, macValid), (.notExpired, notExpired), (.notRevoked, !revoked)], table)

/-- `authenticate/2` -/
def authenticate (serialized : String) (table : Table) : Authenticated :=
  match settings.deserialize serialized with
  | none => { result := .error, table }
  | some t =>
    match settings.validateToken now t table with
    | (none, table) => { result := .error, table }
    | (some criteria, table) =>
      if criteria.all (·.2) then
        match t.type with
        | .access => { result := .ok t.userJid.luser none, table }
        | .refresh =>
          match settings.token now t.userJid .access table with
          | (some made, table) =>
            { result := .ok t.userJid.luser (serialize made), table, made := some made }
          | (none, table) => { result := .error, table }
        -- the vCard is set by a hook, and the login goes on whether it works or not
        | .provision => { result := .ok t.userJid.luser none, table }
      else
        let failed := criteria.filterMap fun c => if c.2 then none else some c.1
        { result := .notValid t.userJid.luser failed, table }

/-- The checks of a token that all hold. -/
def Validated : Prop :=
  settings.isMacValid t = some true ∧ isNotExpired now t = true ∧ (isRevoked t table).1 = false

instance (now : ℕ) (t : Token) (table : Table) : Decidable (settings.Validated now t table) :=
  inferInstanceAs (Decidable (_ ∧ _ ∧ _))

variable {settings} {now : ℕ} {serialized : String} {table : Table}

/-- The two tokens that a user gets; the refresh token has the number of the row. -/
theorem createTokens_spec {user : Jid} {tokens : Option (Token × Token)} {table' : Table}
    (h : settings.createTokens now user table = (tokens, table')) :
    Extends table table' ∧ ∀ access refresh, tokens = some (access, refresh) →
    (∃ expiry, settings.tokenWithMac
      { type := .access, expiryDatetime := expiry, userJid := user } = some access) ∧
    ∃ expiry n, settings.tokenWithMac
      { type := .refresh, expiryDatetime := expiry, userJid := user, sequenceNo := some n } =
        some refresh ∧
      table'.lookup (toBareBinary user) = some n := by
  obtain ⟨hrow, hextends⟩ := getValidSequenceNumber_spec user table
  unfold createTokens at h
  dsimp only [token] at h
  split at h
  · next access refresh haccess hrefresh =>
    cases h
    refine ⟨hextends, fun access' refresh' h => ?_⟩
    cases h
    exact ⟨⟨_, haccess⟩, _, _, hrefresh, hrow⟩
  · cases h
    refine ⟨hextends, fun access refresh h => ?_⟩
    cases h

theorem extends_isRevoked (t : Token) : Extends table (isRevoked t table).2 := by
  unfold isRevoked
  split
  · exact Extends.refl table
  · exact Extends.refl table
  · exact (getValidSequenceNumber_spec t.userJid table).2

/-- The criteria are all met by the tokens that are valid. -/
theorem validateToken_all {t : Token} {criteria : List (Criterion × Bool)} {table' : Table}
    (h : settings.validateToken now t table = (some criteria, table')) :
    criteria.all (·.2) = true ↔ settings.Validated now t table := by
  unfold validateToken at h
  split at h
  · cases h
  · next macValid hmac =>
    obtain ⟨rfl, -⟩ : [(Criterion.macValid, macValid), (.notExpired, isNotExpired now t),
        (.notRevoked, !(isRevoked t table).1)] = criteria ∧ (isRevoked t table).2 = table' := by
      simpa using h
    simp [Validated, hmac]

theorem extends_validateToken (t : Token) :
    Extends table (settings.validateToken now t table).2 := by
  unfold validateToken
  split
  · exact Extends.refl table
  · exact extends_isRevoked t

/-- **What a check does**: an accepted token is valid, the rows stay, and only a valid refresh token
makes a new one. -/
structure Checked (settings : Settings) (now : ℕ) (serialized : String) (table : Table)
    (authenticated : Authenticated) : Prop where
  extends_table : Extends table authenticated.table
  accepted : ∀ luser response, authenticated.result = .ok luser response →
    ∃ t, settings.deserialize serialized = some t ∧ luser = t.userJid.luser ∧
      settings.Validated now t table
  made : ∀ made, authenticated.made = some made →
    ∃ t expiry, settings.deserialize serialized = some t ∧
      settings.tokenWithMac
        { type := .access, expiryDatetime := expiry, userJid := t.userJid } = some made

theorem checked_authenticate :
    Checked settings now serialized table (settings.authenticate now serialized table) := by
  unfold authenticate
  split
  · exact ⟨Extends.refl table, nofun, nofun⟩
  · next t hread =>
    have hextends : Extends table (settings.validateToken now t table).2 := extends_validateToken t
    split
    · next table' hvalid =>
      rw [hvalid] at hextends
      exact ⟨hextends, nofun, nofun⟩
    · next criteria table' hvalid =>
      rw [hvalid] at hextends
      split
      · next hall =>
        have hvalidated := (validateToken_all hvalid).1 hall
        have haccepted : ∀ luser response luser' response',
            ValidationResult.ok luser response = .ok luser' response' → luser = t.userJid.luser →
            ∃ t, settings.deserialize serialized = some t ∧ luser' = t.userJid.luser ∧
              settings.Validated now t table := by
          rintro luser response luser' response' h rfl
          cases h
          exact ⟨t, hread, rfl, hvalidated⟩
        split
        · exact ⟨hextends, fun _ _ h => haccepted _ _ _ _ h rfl, nofun⟩
        · split
          · next made table'' hmade =>
            obtain ⟨hmac, rfl⟩ := Prod.mk.inj hmade
            refine ⟨hextends, fun _ _ h => haccepted _ _ _ _ h rfl, fun made' h => ?_⟩
            cases h
            exact ⟨t, _, hread, hmac⟩
          · next table'' hmade =>
            obtain ⟨-, rfl⟩ := Prod.mk.inj hmade
            exact ⟨hextends, nofun, nofun⟩
        · exact ⟨hextends, fun _ _ h => haccepted _ _ _ _ h rfl, nofun⟩
      · exact ⟨hextends, nofun, nofun⟩

end Settings

/-! ## On a stream -/

/-- What a mechanism returns. -/
inductive SaslResult
  /-- `{ok, Creds}`: the `username` and the `sasl_success_response` of the credentials. -/
  | ok (username : String) (response : Option String)
  /-- `{error, <<"not-authorized">>}`, or with the name of the user. -/
  | error (username : Option String)

/-- `cyrsasl_oauth:mech_step/2` on the result of `authenticate/2` -/
def mechStep : ValidationResult → SaslResult
  | .ok luser accessToken => .ok luser accessToken
  | .notValid luser _ => .error (some luser)
  | .error => .error none

/-- `cyrsasl:check_credentials/2` where the mechanism succeeds -/
def checkCredentials (lib : Library) : SaslResult → SaslResult
  | .ok username response =>
    match lib.nodeprep username with
    | none => .error none
    | some "" => .error none
    | some _ => .ok username response
  | .error username => .error username

/-- The result of a step of authentication. -/
inductive StepResult
  /-- The address is `none` where `jid:make_bare/2` gives `error`. -/
  | success (serverOut : Option String) (jid : Option Jid)
  | failure (username : Option String)

/-- `mongoose_c2s_sasl:handle_sasl_step/3` on a stream of the domain `lserver` -/
def handleSaslStep (lib : Library) (lserver : String) : SaslResult → StepResult
  | .ok username response => .success response (lib.makeBare username lserver)
  | .error username => .failure username

/-- X-OAUTH on a stream of the domain `lserver`. -/
def Settings.login (settings : Settings) (lserver serialized : String) (now : ℕ) (table : Table) :
    StepResult × Authenticated :=
  let authenticated := settings.authenticate now serialized table
  (handleSaslStep settings.lib lserver
    (checkCredentials settings.lib (mechStep authenticated.result)), authenticated)

/-- A login that succeeds has a token that was accepted, and the address has the name of its owner
at the domain of the stream. -/
theorem Settings.login_success {settings : Settings} {lserver serialized : String} {now : ℕ}
    {table : Table} {serverOut : Option String} {jid : Option Jid}
    (h : (settings.login lserver serialized now table).1 = .success serverOut jid) :
    ∃ t, settings.deserialize serialized = some t ∧ settings.Validated now t table ∧
    jid = settings.lib.makeBare t.userJid.luser lserver := by
  have hchecked : Checked settings now serialized table
      (settings.authenticate now serialized table) := checked_authenticate
  unfold login at h
  dsimp only at h
  cases hresult : (settings.authenticate now serialized table).result with
  | ok luser response =>
    obtain ⟨t, hread, rfl, hvalid⟩ := hchecked.accepted _ _ hresult
    refine ⟨t, hread, hvalid, ?_⟩
    rw [hresult, mechStep, checkCredentials] at h
    split at h
    · cases h
    · cases h
    · exact (StepResult.success.inj h).2.symm
  | notValid luser failed =>
    rw [hresult] at h
    cases h
  | error =>
    rw [hresult] at h
    cases h

end MongooseIM.AuthToken
