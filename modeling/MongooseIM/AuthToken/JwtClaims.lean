import MongooseIM.Erlang.Binaries

/-! # Users of JSON Web Tokens

`ejabberd_auth_jwt:check_password/4`, with the claims that `custom_ejabberd_auth_jwt` reads. -/

namespace MongooseIM.JwtClaims

open Erlang

/-- The claims of a token that are strings, by the kind of their keys. -/
structure TokenData where
  atoms : List (String × String)
  binaries : List (String × String)

/-- What `check_password/4` has from elsewhere. -/
structure Env where
  strTolower : String → String
  /-- `custom_ejabberd_auth_jwt:verify/3`, with the key and the algorithm of the host type. -/
  verify : String → Option TokenData
  /-- `username_key` -/
  userKey : String

/-- `find_claim_user/2` -/
def findClaimUser (userKey : String) (tokenData : TokenData) : Option String :=
  match tokenData.atoms.lookup userKey with
  | some claim => some claim
  | none => tokenData.binaries.lookup userKey

variable (env : Env)

/-- `normalize_login_user/1` -/
def normalizeLoginUser (lUser : String) : String := env.strTolower lUser

/-- `normalize_claim_user/2` -/
def normalizeClaimUser (claimUser lServer : String) : String :=
  let claimUserNorm := env.strTolower claimUser
  let lServerNorm := env.strTolower lServer
  match split '@' claimUserNorm with
  -- the clause for the server is followed by one for any domain
  | [loc, domain] => if domain = lServerNorm then loc else loc
  | _ => claimUserNorm

/-- `check_password/4` -/
def checkPassword (lUser lServer password : String) : Bool :=
  match env.verify password with
  | some tokenData =>
    match findClaimUser env.userKey tokenData with
    | some claimUser => normalizeClaimUser env claimUser lServer = normalizeLoginUser env lUser
    | none => false
  | none => false

/-- A user and a server as they log in. -/
structure Normalised (env : Env) (lUser lServer : String) : Prop where
  user_fixed : env.strTolower lUser = lUser
  server_fixed : env.strTolower lServer = lServer
  user_plain : '@' ∉ lUser.toList
  server_plain : '@' ∉ lServer.toList

/-- A user at a domain. -/
def address (user domain : String) : String := joinWith '@' [user, domain]

variable {env : Env} {lUser lServer : String}

theorem split_of_notMem {user : String} (huser : '@' ∉ user.toList) : split '@' user = [user] := by
  have hjoin := split_joinWith (c := '@') (List.cons_ne_nil user []) (by simpa using huser)
  rwa [joinWith_singleton] at hjoin

theorem split_address {user domain : String} (huser : '@' ∉ user.toList)
    (hdomain : '@' ∉ domain.toList) : split '@' (address user domain) = [user, domain] :=
  split_joinWith (List.cons_ne_nil _ _) (by simp [huser, hdomain])

/-- **The user of a claim** is the login user for the user alone and at any domain. -/
theorem normalizeClaimUser_eq_iff (h : Normalised env lUser lServer) (claimUser : String) :
    normalizeClaimUser env claimUser lServer = lUser ↔ env.strTolower claimUser = lUser ∨
    ∃ domain, '@' ∉ domain.toList ∧ env.strTolower claimUser = address lUser domain := by
  simp only [normalizeClaimUser, ite_self]
  split
  · next loc domain hsplit =>
    have hclaim : address loc domain = env.strTolower claimUser := by
      rw [address, ← hsplit, joinWith_split]
    have hdomain : '@' ∉ domain.toList := notMem_of_mem_split (by rw [hsplit]; simp)
    constructor
    · rintro rfl
      exact .inr ⟨domain, hdomain, hclaim.symm⟩
    · rintro (heq | ⟨domain', hdomain', heq⟩)
      · rw [heq, split_of_notMem h.user_plain] at hsplit
        cases hsplit
      · rw [heq, split_address h.user_plain hdomain'] at hsplit
        exact (List.cons.inj hsplit).1.symm
  · next hsplit =>
    refine ⟨.inl, ?_⟩
    rintro (heq | ⟨domain, hdomain, heq⟩)
    · exact heq
    · exact absurd (heq ▸ split_address h.user_plain hdomain) (hsplit _ _)

/-- **A token authenticates only the account it names**, unless it names the user at another
domain. -/
theorem checkPassword_exact_iff (h : Normalised env lUser lServer) {password claimUser : String}
    {tokenData : TokenData} (hverify : env.verify password = some tokenData)
    (hclaim : findClaimUser env.userKey tokenData = some claimUser) :
    (checkPassword env lUser lServer password = true ↔
      env.strTolower claimUser = lUser ∨ env.strTolower claimUser = address lUser lServer) ↔
    ¬ ∃ domain, '@' ∉ domain.toList ∧ domain ≠ lServer ∧
      env.strTolower claimUser = address lUser domain := by
  have hcheck : checkPassword env lUser lServer password = true ↔
      normalizeClaimUser env claimUser lServer = lUser := by
    simp only [checkPassword, hverify, hclaim, decide_eq_true_eq, normalizeLoginUser, h.user_fixed]
  rw [hcheck, normalizeClaimUser_eq_iff h]
  constructor
  · rintro hexact ⟨domain, hdomain, hne, heq⟩
    have hsplit := split_address h.user_plain hdomain
    rcases hexact.1 (.inr ⟨domain, hdomain, heq⟩) with huser | hserver
    · rw [← heq, huser, split_of_notMem h.user_plain] at hsplit
      cases hsplit
    · rw [← heq, hserver, split_address h.user_plain h.server_plain] at hsplit
      exact hne (List.cons.inj (List.cons.inj hsplit).2).1.symm
  · intro hnone
    refine or_congr_right ⟨?_, fun heq => ⟨lServer, h.server_plain, heq⟩⟩
    rintro ⟨domain, hdomain, heq⟩
    by_cases hserver : domain = lServer
    · rw [heq, hserver]
    · exact absurd ⟨domain, hdomain, hserver, heq⟩ hnone

/-- Tokens of one issuer that all name the user `alice` of another domain. -/
def otherTenant : Env where
  strTolower s := s
  verify _ := some ⟨[("sub", "alice@b.example")], []⟩
  userKey := "sub"

theorem checkPassword_exact_iff_alice :
    (checkPassword otherTenant "alice" "b.example" "token" = true ↔
      "alice@b.example" = "alice" ∨ "alice@b.example" = address "alice" "b.example") ↔
    ¬ ∃ domain, '@' ∉ domain.toList ∧ domain ≠ "b.example" ∧
      "alice@b.example" = address "alice" domain :=
  have h : Normalised otherTenant "alice" "b.example" := ⟨rfl, rfl, by decide, by decide⟩
  checkPassword_exact_iff h rfl rfl

/-- A user of another domain logs in as the one of this domain. -/
theorem other_domain_logs_in : checkPassword otherTenant "alice" "a.example" "token" = true ∧
    ¬ ("alice@b.example" = "alice" ∨ "alice@b.example" = address "alice" "a.example") := by
  decide

end MongooseIM.JwtClaims
