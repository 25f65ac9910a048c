import MongooseIM.Scram.Serialization

/-! # Digests and SCRAM credentials

`do_check_digest/5` goes through the hashes that are supported, and passes its arguments on one
place further to the left. -/

namespace MongooseIM.Scram

open Erlang List

/-- What the arguments can be. -/
inductive Value
  | scram (m : ScramMap)
  | binary (bytes : Bytes)
  | generator (digestGen : Bytes → Bytes)

/-- `ejabberd_auth:check_digest/4` -/
def authCheckDigest (digest : Bytes) (digestGen : Bytes → Bytes) (password passwd : Bytes) : Bool :=
  if digest = [] ∧ password = [] then false else digest = digestGen passwd

/-- `ejabberd_auth:check_digest/4` of any values; none when what it calls is no function. -/
def valueCheckDigest (digest digestGen password : Value) (passwd : Bytes) : Option Bool :=
  match digest, digestGen, password with
  | .binary [], _, .binary [] => some false
  | .binary digest, .generator digestGen, _ => some (digest = digestGen passwd)
  -- a term of another kind is not equal to a digest
  | _, .generator _, _ => some false
  | _, _, _ => none

/-- `do_check_digest/5`; none when it crashes. -/
def doCheckDigest : List (Sha × Bytes) → Value → Value → Value → Value → Option Bool
  | [], _, _, _, _ => some false
  | (hash, _) :: remaining, scramMap, digest, digestGen, password =>
    match scramMap with
    | .scram m => do
      let keys ← m.keys hash
      let passwd ← base64Decode keys.storedKey
      let accepted ← valueCheckDigest digest digestGen password passwd
      if accepted then some true
      else doCheckDigest remaining digest digestGen password (.binary passwd)
    | _ => none

/-- `check_digest/4` of a map -/
def checkDigest (m : ScramMap) (digest : Bytes) (digestGen : Bytes → Bytes) (password : Bytes) :
    Option Bool :=
  doCheckDigest supportedShaTypes (.scram m) (.binary digest) (.generator digestGen)
    (.binary password)

variable (m : ScramMap) (digest : Bytes) (digestGen : Bytes → Bytes) (password : Bytes)

/-- The stored key of a hash that the map has is decoded, and accepted. -/
def Accepts (hash : Sha) : Prop :=
  ∃ keys passwd, m.keys hash = some keys ∧ base64Decode keys.storedKey = some passwd ∧
    authCheckDigest digest digestGen password passwd = true

/-- There is an answer, and it is whether the key of one of the hashes is accepted. -/
def TriesEveryHash : Prop :=
  ∃ answer, checkDigest m digest digestGen password = some answer ∧
    (answer = true ↔ ∃ hash, Accepts m digest digestGen password hash)

/-- In the right places the values are checked as they are. -/
theorem valueCheckDigest_eq (passwd : Bytes) :
    valueCheckDigest (.binary digest) (.generator digestGen) (.binary password) passwd =
    some (authCheckDigest digest digestGen password passwd) := by
  rcases digest with _ | ⟨d, ds⟩ <;> rcases password with _ | ⟨p, ps⟩ <;>
    simp [valueCheckDigest, authCheckDigest]

/-- **The second hash is looked up in the digest**, which is no map. -/
theorem doCheckDigest_shifted {remaining : List (Sha × Bytes)} (h : remaining ≠ [])
    (digestGen password passwd : Value) :
    doCheckDigest remaining (.binary digest) digestGen password passwd = none := by
  obtain ⟨⟨hash, label⟩, remaining, rfl⟩ := exists_cons_of_ne_nil h
  rfl

/-- The key of SHA-1 is accepted, or there is no answer. -/
theorem checkDigest_eq_some {answer : Bool} :
    checkDigest m digest digestGen password = some answer ↔
    answer = true ∧ Accepts m digest digestGen password .sha := by
  have hmore : [(Sha.sha224, Sha.sha224.label), (.sha256, Sha.sha256.label),
      (.sha384, Sha.sha384.label), (.sha512, Sha.sha512.label)] ≠ [] := cons_ne_nil _ _
  rw [checkDigest, supportedShaTypes, doCheckDigest]
  simp only [valueCheckDigest_eq, doCheckDigest_shifted _ hmore, Accepts]
  cases hkeys : m.keys .sha with
  | none => simp
  | some keys =>
    cases hpasswd : base64Decode keys.storedKey with
    | none => simp [hpasswd]
    | some passwd =>
      cases haccepted : authCheckDigest digest digestGen password passwd <;>
        cases answer <;> simp [hpasswd, haccepted]

/-- **Every hash is tried** exactly when the first one is enough. -/
theorem checkDigest_exact_iff :
    TriesEveryHash m digest digestGen password ↔ Accepts m digest digestGen password .sha := by
  constructor
  · rintro ⟨answer, hanswer, -⟩
    exact ((checkDigest_eq_some m digest digestGen password).1 hanswer).2
  · intro haccepts
    refine ⟨true, (checkDigest_eq_some m digest digestGen password).2 ⟨rfl, haccepts⟩, ?_⟩
    exact iff_of_true rfl ⟨.sha, haccepts⟩

/-- Credentials with the keys of two hashes. -/
def twoKeys : ScramMap where
  iterationCount := some 4096
  keys := fun hash =>
    match hash with
    | .sha => some ⟨latin1 "QSXC", latin1 "Wt==", latin1 "6dlG"⟩
    | .sha512 => some ⟨latin1 "rYTz", latin1 "p0s=", latin1 "a2V5"⟩
    | _ => none

/-- The key of SHA-512 is accepted, but there is no answer; nor is there one when no key is. -/
theorem other_hashes_crash :
    Accepts twoKeys (latin1 "key") id (latin1 "secret") .sha512 ∧
    checkDigest twoKeys (latin1 "key") id (latin1 "secret") = none ∧
    checkDigest twoKeys (latin1 "no") id (latin1 "secret") = none ∧
    ¬ TriesEveryHash twoKeys (latin1 "key") id (latin1 "secret") := by
  refine ⟨⟨_, latin1 "key", rfl, by decide, by decide⟩, by decide, by decide, ?_⟩
  rintro ⟨answer, hanswer, -⟩
  have hnone : checkDigest twoKeys (latin1 "key") id (latin1 "secret") = none := by decide
  rw [hnone] at hanswer
  cases hanswer

end MongooseIM.Scram
