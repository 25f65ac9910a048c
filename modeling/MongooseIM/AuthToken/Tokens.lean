import MongooseIM.Erlang.Binaries
import MongooseIM.Erlang.Integers
import MongooseIM.Erlang.Maps
import MongooseIM.Xmpp.Stanza

/-! # Tokens

`mod_auth_token`: what a token is, how it is written and read, and how one is made and checked
against the sequence numbers of the table `auth_token`. Times are seconds; `datetime_to_seconds` and
`seconds_to_datetime` are inverse to each other and are left out. -/

namespace MongooseIM.AuthToken

open Erlang Xmpp Option

/-- `token_type()` -/
inductive TokenType
  | access
  | refresh
  | provision
  deriving DecidableEq

/-- `atom_to_binary/2` on the type of a token -/
def TokenType.toBinary : TokenType → String
  | .access => "access"
  | .refresh => "refresh"
  | .provision => "provision"

/-- `#token{}`, `none` for `undefined`. -/
structure Token where
  type : TokenType
  expiryDatetime : ℕ
  userJid : Jid
  sequenceNo : Option ℤ := none
  vcard : Option Element := none
  macSignature : Option (List UInt8) := none
  tokenBody : Option String := none

/-- The names of the keys. -/
inductive KeyName
  | tokenSecret
  | provisionPreShared

/-- `key_name/1` -/
def keyName : TokenType → KeyName
  | .access | .refresh => .tokenSecret
  | .provision => .provisionPreShared

/-- The units of a `period()`. -/
inductive PeriodUnit
  | days
  | hours
  | minutes
  | seconds

/-- `period()` -/
structure Period where
  value : ℕ
  unit : PeriodUnit

/-- `period_to_seconds/2` -/
def periodToSeconds (period : Period) : ℕ :=
  match period.unit with
  | .days => 24 * 3600 * period.value
  | .hours => 3600 * period.value
  | .minutes => 60 * period.value
  | .seconds => period.value

/-- What the module is given on one host type: libraries, keys and options. -/
structure Settings where
  lib : Library
  /-- `exml:parse/1` -/
  parse : String → Option Element
  /-- `exml:to_binary/1` -/
  toBinary : Element → String
  /-- `crypto:mac(hmac, sha384, Key, Data)` -/
  mac : String → String → List UInt8
  /-- `get_key_for_host_type/2`, `none` when no such key is configured -/
  getKeyForHostType : KeyName → Option String
  /-- The option `validity_period`. -/
  accessPeriod : Period := ⟨1, .hours⟩
  refreshPeriod : Period := ⟨25, .days⟩

/-! ## Writing and reading -/

/-- `field_separator/0` -/
def fieldSeparator : Char := Char.ofNat 0

namespace Settings

variable (settings : Settings) (t : Token)

/-- The fields that are covered by the MAC; a token of another shape is an error. -/
def fields : Option (List String) :=
  let common := [t.type.toBinary, t.userJid.toBinary, integerToBinary t.expiryDatetime]
  match t.type, t.sequenceNo with
  | .access, none => some common
  | .refresh, some seqNo => some (common ++ [integerToBinary seqNo])
  | .provision, none => t.vcard.map fun vcard => common ++ [settings.toBinary vcard]
  | _, _ => none

/-- `join_fields/1` -/
def joinFields : Option String := (settings.fields t).map (joinWith fieldSeparator)

/-- `keyed_hash(Body, hmac_opts(HostType, Type))` -/
def keyedHash (body : String) (type : TokenType) : Option (List UInt8) :=
  (settings.getKeyForHostType (keyName type)).map fun key => settings.mac key body

/-- `token_with_mac/2` on the record with the primary fields. -/
def tokenWithMac : Option Token := do
  let body ← settings.joinFields t
  let mac ← settings.keyedHash body t.type
  return { t with tokenBody := some body, macSignature := some mac }

/-- `serialize/1`, which fails on an incomplete token -/
def serialize : Option String := do
  let mac ← t.macSignature
  let body ← t.tokenBody
  return body ++ String.singleton fieldSeparator ++ encodeHex mac

/-- `decode_token_type/1` -/
def decodeTokenType : String → Option TokenType
  | "access" => some .access
  | "refresh" => some .refresh
  | "provision" => some .provision
  | _ => none

/-- `seconds_to_datetime(binary_to_integer(Expiry))`, which takes no negative numbers -/
def decodeExpiry (expiry : String) : Option ℕ := do
  let seconds ← binaryToInteger expiry
  if 0 ≤ seconds then some seconds.toNat else none

/-- The fields that come behind the first three. -/
def decodeRest : List String → Option Token
  | [bMac] =>
    match t.type with
    | .access => (decodeHex bMac).map fun mac => { t with macSignature := some mac }
    | _ => none
  | [field, bMac] =>
    match t.type with
    | .refresh => do
        let seqNo ← binaryToInteger field
        let mac ← decodeHex bMac
        return { t with sequenceNo := some seqNo, macSignature := some mac }
    | .provision => do
        let vcard ← settings.parse field
        let mac ← decodeHex bMac
        return { t with vcard := some vcard, macSignature := some mac }
    | .access => none
  | _ => none

/-- `deserialize/1`, `none` when it fails -/
def deserialize (serialized : String) : Option Token :=
  match split fieldSeparator serialized with
  | bType :: user :: expiry :: rest => do
      let type ← decodeTokenType bType
      let expiryDatetime ← decodeExpiry expiry
      let userJid ← settings.lib.fromBinary user
      let t ← settings.decodeRest { type, expiryDatetime, userJid } rest
      let body ← settings.joinFields t
      return { t with tokenBody := some body }
  | _ => none

end Settings

/-! ## Valid addresses -/

/-- An address that `jid` has normalised: it is read back from its text, which holds no separator,
and its parts are prepared already. -/
structure ValidJid (lib : Library) (j : Jid) : Prop where
  fromBinary : lib.fromBinary j.toBinary = some j
  separator : fieldSeparator ∉ j.toBinary.toList
  nodeprep : lib.nodeprep j.luser = some j.luser
  nameprep : lib.nameprep j.lserver = some j.lserver

instance (lib : Library) (j : Jid) : Decidable (ValidJid lib j) :=
  decidable_of_iff (lib.fromBinary j.toBinary = some j ∧ fieldSeparator ∉ j.toBinary.toList ∧
      lib.nodeprep j.luser = some j.luser ∧ lib.nameprep j.lserver = some j.lserver)
    ⟨fun h => ⟨h.1, h.2.1, h.2.2.1, h.2.2.2⟩, fun h => ⟨h.1, h.2, h.3, h.4⟩⟩

/-- What `jid:from_binary/1` reads is valid. -/
def NormalisesJids (lib : Library) : Prop :=
  ∀ text j, fieldSeparator ∉ text.toList → lib.fromBinary text = some j → ValidJid lib j

/-- An element that `exml` reads back from its text to one that is written the same. -/
structure Readable (settings : Settings) (el : Element) : Prop where
  separator : fieldSeparator ∉ (settings.toBinary el).toList
  parse : ∃ el', settings.parse (settings.toBinary el) = some el' ∧
    settings.toBinary el' = settings.toBinary el

/-! ## Round trip -/

namespace Settings

variable {settings : Settings}

theorem notMem_integerToBinary (i : ℤ) : fieldSeparator ∉ (integerToBinary i).toList := by
  have hdigit : ∀ n : ℕ, ∀ c ∈ n.repr.toList, c ≠ fieldSeparator := by
    rintro n c hc rfl
    rw [Nat.toList_repr] at hc
    have := Nat.isDigit_of_mem_toDigits (by omega) (by omega) hc
    exact absurd this (by decide)
  cases i with
  | ofNat n => exact fun hmem => hdigit n _ hmem rfl
  | negSucc n =>
    show fieldSeparator ∉ ("-" ++ (n + 1).repr).toList
    rw [String.toList_append, List.mem_append]
    rintro (hmem | hmem)
    · exact absurd hmem (by decide)
    · exact hdigit _ _ hmem rfl

theorem notMem_type (type : TokenType) : fieldSeparator ∉ type.toBinary.toList := by
  cases type <;> decide

theorem decodeTokenType_toBinary (type : TokenType) :
    decodeTokenType type.toBinary = some type := by
  cases type <;> rfl

theorem toBinary_inj {type type' : TokenType} (h : type.toBinary = type'.toBinary) :
    type = type' := by
  rw [← some_inj, ← decodeTokenType_toBinary, h, decodeTokenType_toBinary]

theorem decodeExpiry_integerToBinary (n : ℕ) : decodeExpiry (integerToBinary n) = some n := by
  simp [decodeExpiry, binaryToInteger_integerToBinary]

variable {t : Token}

theorem fields_eq_some {fs : List String} (h : settings.fields t = some fs) :
    ∃ rest, fs = t.type.toBinary :: t.userJid.toBinary :: integerToBinary t.expiryDatetime :: rest ∧
    ((t.type = .access ∧ t.sequenceNo = none ∧ rest = []) ∨
      (∃ seqNo, t.type = .refresh ∧ t.sequenceNo = some seqNo ∧ rest = [integerToBinary seqNo]) ∨
      ∃ vcard, t.type = .provision ∧ t.sequenceNo = none ∧ t.vcard = some vcard ∧
        rest = [settings.toBinary vcard]) := by
  unfold fields at h
  dsimp only at h
  split at h
  · next htype hseq =>
    cases h
    exact ⟨[], rfl, Or.inl ⟨htype, hseq, rfl⟩⟩
  · next seqNo htype hseq =>
    cases h
    exact ⟨_, rfl, Or.inr (Or.inl ⟨seqNo, htype, hseq, rfl⟩)⟩
  · next htype hseq =>
    obtain ⟨vcard, hvcard, rfl⟩ := map_eq_some_iff.1 h
    exact ⟨_, rfl, Or.inr (Or.inr ⟨vcard, htype, hseq, hvcard, rfl⟩)⟩
  · cases h

variable {made : Token}

/-- The parts of a token that `token_with_mac` has made. -/
theorem tokenWithMac_eq_some (h : settings.tokenWithMac t = some made) :
    ∃ body mac, settings.joinFields t = some body ∧ settings.keyedHash body t.type = some mac ∧
    made = { t with tokenBody := some body, macSignature := some mac } := by
  simp only [tokenWithMac, bind_eq_bind, bind_eq_some_iff, pure_def, some_inj] at h
  obtain ⟨body, hbody, mac, hmac, rfl⟩ := h
  exact ⟨body, mac, hbody, hmac, rfl⟩

/-- The fields that a token and its copy have in common. -/
structure SameToken (t t' : Token) : Prop where
  type : t'.type = t.type
  expiryDatetime : t'.expiryDatetime = t.expiryDatetime
  userJid : t'.userJid = t.userJid
  sequenceNo : t'.sequenceNo = t.sequenceNo
  tokenBody : t'.tokenBody = t.tokenBody
  macSignature : t'.macSignature = t.macSignature

variable {serialized body : String} {t' : Token} {rest : List String}

/-- What `deserialize` reads from the three first fields and the rest. -/
theorem deserialize_of_split (howner : settings.lib.fromBinary t.userJid.toBinary = some t.userJid)
    (hsplit : split fieldSeparator serialized =
    t.type.toBinary :: t.userJid.toBinary :: integerToBinary t.expiryDatetime :: rest)
    (hrest : settings.decodeRest ⟨t.type, t.expiryDatetime, t.userJid, none, none, none, none⟩
    rest = some t')
    (hbody : settings.joinFields t' = some body) :
    settings.deserialize serialized = some { t' with tokenBody := some body } := by
  simp [deserialize, hsplit, decodeTokenType_toBinary, decodeExpiry_integerToBinary, howner, hrest,
    hbody]

/-- **Round trip.** A token that was made with a MAC is read back. -/
theorem deserialize_serialize (howner : ValidJid settings.lib t.userJid)
    (hvcard : t.type = .provision → ∀ vcard, t.vcard = some vcard → Readable settings vcard)
    (hmade : settings.tokenWithMac t = some made) :
    ∃ serialized copy, serialize made = some serialized ∧
    settings.deserialize serialized = some copy ∧ SameToken made copy := by
  obtain ⟨body, mac, hbody, -, rfl⟩ := tokenWithMac_eq_some hmade
  obtain ⟨fields, hfields, rfl⟩ := map_eq_some_iff.1 hbody
  obtain ⟨rest, rfl, hshape⟩ := fields_eq_some hfields
  -- the fields and the MAC are split again
  have hsplit : (∀ f ∈ rest, fieldSeparator ∉ f.toList) →
      split fieldSeparator (joinWith fieldSeparator (t.type.toBinary :: t.userJid.toBinary ::
          integerToBinary t.expiryDatetime :: rest) ++ String.singleton fieldSeparator ++
          encodeHex mac) =
        t.type.toBinary :: t.userJid.toBinary :: integerToBinary t.expiryDatetime ::
          (rest ++ [encodeHex mac]) := by
    intro hrest
    rw [← joinWith_concat (by simp), split_joinWith (by simp)]
    · simp
    · intro f hf
      simp only [List.cons_append, List.mem_cons, List.mem_append, List.not_mem_nil, or_false] at hf
      rcases hf with rfl | rfl | rfl | hf | rfl
      · exact notMem_type _
      · exact howner.separator
      · exact notMem_integerToBinary _
      · exact hrest f hf
      · exact notMem_encodeHex (by decide) mac
  have hmac := decodeHex_encodeHex mac
  -- the rest is decoded to a token with the same body
  obtain ⟨copy, hread, hcopy, hsame⟩ : ∃ copy, settings.decodeRest
      ⟨t.type, t.expiryDatetime, t.userJid, none, none, none, none⟩ (rest ++ [encodeHex mac]) =
        some copy ∧ settings.joinFields copy = settings.joinFields t ∧
      (∀ body, SameToken { t with tokenBody := body, macSignature := some mac }
        { copy with tokenBody := body }) := by
    rcases hshape with ⟨htype, hseq, rfl⟩ | ⟨seqNo, htype, hseq, rfl⟩ |
        ⟨vcard, htype, hseq, hv, rfl⟩
    · refine ⟨⟨.access, t.expiryDatetime, t.userJid, none, none, some mac, none⟩, ?_, ?_, ?_⟩
      · simp [decodeRest, htype, hmac]
      · simp [joinFields, fields, htype, hseq]
      · exact fun body => ⟨htype.symm, rfl, rfl, hseq.symm, rfl, rfl⟩
    · refine ⟨⟨.refresh, t.expiryDatetime, t.userJid, some seqNo, none, some mac, none⟩, ?_, ?_, ?_⟩
      · simp [decodeRest, htype, hmac, binaryToInteger_integerToBinary]
      · simp [joinFields, fields, htype, hseq]
      · exact fun body => ⟨htype.symm, rfl, rfl, hseq.symm, rfl, rfl⟩
    · obtain ⟨vcard', hparse, htext⟩ := (hvcard htype vcard hv).parse
      refine ⟨⟨.provision, t.expiryDatetime, t.userJid, none, some vcard', some mac, none⟩,
        ?_, ?_, ?_⟩
      · simp [decodeRest, htype, hmac, hparse]
      · simp [joinFields, fields, htype, hseq, hv, htext]
      · exact fun body => ⟨htype.symm, rfl, rfl, hseq.symm, rfl, rfl⟩
  have hrest : ∀ f ∈ rest, fieldSeparator ∉ f.toList := by
    rcases hshape with ⟨-, -, rfl⟩ | ⟨seqNo, -, -, rfl⟩ | ⟨vcard, htype, -, hv, rfl⟩
    · simp
    · simpa using notMem_integerToBinary seqNo
    · simpa using (hvcard htype vcard hv).separator
  refine ⟨_, _, rfl, deserialize_of_split howner.fromBinary (hsplit hrest) hread
    (hcopy.trans hbody), hsame _⟩

/-- The rest of the fields leaves the first three alone. -/
theorem decodeRest_eq_some (h : settings.decodeRest t rest = some t') :
    t'.type = t.type ∧ t'.expiryDatetime = t.expiryDatetime ∧ t'.userJid = t.userJid := by
  unfold decodeRest at h
  split at h
  · split at h
    · obtain ⟨mac, -, rfl⟩ := map_eq_some_iff.1 h
      exact ⟨rfl, rfl, rfl⟩
    · cases h
  · split at h
    · simp only [bind_eq_bind, bind_eq_some_iff, pure_def, some_inj] at h
      obtain ⟨seqNo, -, mac, -, rfl⟩ := h
      exact ⟨rfl, rfl, rfl⟩
    · simp only [bind_eq_bind, bind_eq_some_iff, pure_def, some_inj] at h
      obtain ⟨vcard, -, mac, -, rfl⟩ := h
      exact ⟨rfl, rfl, rfl⟩
    · cases h
  · cases h

theorem of_deserialize (hlib : NormalisesJids settings.lib)
    (h : settings.deserialize serialized = some t) :
    ValidJid settings.lib t.userJid ∧ settings.joinFields t = t.tokenBody := by
  unfold deserialize at h
  split at h
  · next bType user expiry rest hsplit =>
    simp only [bind_eq_bind, bind_eq_some_iff, pure_def, some_inj] at h
    obtain ⟨type, -, expiryDatetime, -, userJid, hjid, t', hrest, body, hbody, rfl⟩ := h
    have huser : fieldSeparator ∉ user.toList := by
      refine notMem_of_mem_split (s := serialized) ?_
      rw [hsplit]
      exact List.mem_cons_of_mem _ List.mem_cons_self
    have howner : t'.userJid = userJid := (decodeRest_eq_some hrest).2.2
    refine ⟨?_, hbody⟩
    show ValidJid settings.lib t'.userJid
    rw [howner]
    exact hlib user userJid huser hjid
  · cases h

/-- **A body tells the token**: its type, its owner, its expiry and its number. -/
theorem joinFields_inj (hvalid : ValidJid settings.lib t.userJid)
    (hvalid' : ValidJid settings.lib t'.userJid) (h : settings.joinFields t = some body)
    (h' : settings.joinFields t' = some body) :
    t'.type = t.type ∧ t'.userJid = t.userJid ∧ t'.expiryDatetime = t.expiryDatetime ∧
    t'.sequenceNo = t.sequenceNo := by
  obtain ⟨fs, hfs, hbody⟩ := map_eq_some_iff.1 h
  obtain ⟨fs', hfs', hbody'⟩ := map_eq_some_iff.1 h'
  obtain ⟨rest, rfl, hshape⟩ := fields_eq_some hfs
  obtain ⟨rest', rfl, hshape'⟩ := fields_eq_some hfs'
  have hall := hbody'.trans hbody.symm
  obtain ⟨htype, hall⟩ := joinWith_cons_inj (notMem_type _) (notMem_type _) (by simp) (by simp) hall
  obtain ⟨howner, hall⟩ :=
    joinWith_cons_inj hvalid'.separator hvalid.separator (by simp) (by simp) hall
  have htype : t'.type = t.type := toBinary_inj htype
  have howner : t'.userJid = t.userJid := by
    rw [← some_inj, ← hvalid'.fromBinary, howner, hvalid.fromBinary]
  -- the expiry is the last field of an access token, and one more comes behind it otherwise
  have hexpiry : t'.expiryDatetime = t.expiryDatetime ∧ t'.sequenceNo = t.sequenceNo := by
    rcases hshape with ⟨ht, hseq, rfl⟩ | ⟨seqNo, ht, hseq, rfl⟩ | ⟨vcard, ht, hseq, -, rfl⟩ <;>
      rcases hshape' with ⟨ht', hseq', rfl⟩ | ⟨seqNo', ht', hseq', rfl⟩ |
        ⟨vcard', ht', hseq', -, rfl⟩ <;>
      first
      | exact absurd (ht'.symm.trans (htype.trans ht)) (by decide)
      | skip
    · rw [joinWith_singleton, joinWith_singleton] at hall
      exact ⟨Int.ofNat_inj.1 (integerToBinary_inj hall), hseq'.trans hseq.symm⟩
    · obtain ⟨hexpiry, hall⟩ := joinWith_cons_inj (notMem_integerToBinary _)
        (notMem_integerToBinary _) (by simp) (by simp) hall
      rw [joinWith_singleton, joinWith_singleton] at hall
      refine ⟨Int.ofNat_inj.1 (integerToBinary_inj hexpiry), ?_⟩
      rw [hseq', hseq, integerToBinary_inj hall]
    · obtain ⟨hexpiry, -⟩ := joinWith_cons_inj (notMem_integerToBinary _)
        (notMem_integerToBinary _) (by simp) (by simp) hall
      exact ⟨Int.ofNat_inj.1 (integerToBinary_inj hexpiry), hseq'.trans hseq.symm⟩
  exact ⟨htype, howner, hexpiry⟩

end Settings

end MongooseIM.AuthToken
