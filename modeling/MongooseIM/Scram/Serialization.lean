import Mathlib.Data.List.Basic
import Mathlib.Logic.Function.Basic
import MongooseIM.Erlang.Binaries
import MongooseIM.Erlang.Bytes
import MongooseIM.Erlang.Integers

/-! # Stored SCRAM credentials

What `mongoose_scram` writes into a column of a database, and how it reads the column. -/

namespace MongooseIM.Scram

open Erlang List

/-- `sha_key()` -/
inductive Sha
  | sha
  | sha224
  | sha256
  | sha384
  | sha512
  deriving DecidableEq

/-- `?SCRAM_SHA1_PREFIX` and the others, of ten bytes each. -/
def Sha.label : Sha → Bytes
  | .sha => latin1 "===SHA1==="
  | .sha224 => latin1 "==SHA224=="
  | .sha256 => latin1 "==SHA256=="
  | .sha384 => latin1 "==SHA384=="
  | .sha512 => latin1 "==SHA512=="

/-- `supported_sha_types/0` -/
def supportedShaTypes : List (Sha × Bytes) :=
  [(.sha, Sha.sha.label), (.sha224, Sha.sha224.label), (.sha256, Sha.sha256.label),
    (.sha384, Sha.sha384.label), (.sha512, Sha.sha512.label)]

/-- `server_and_stored_key_type()` -/
structure Keys where
  salt : Bytes
  serverKey : Bytes
  storedKey : Bytes

/-- A map with the keys of `scram_map()`. -/
@[ext] structure ScramMap where
  /-- `iteration_count` -/
  iterationCount : Option ℤ := none
  keys : Sha → Option Keys := fun _ => none

/-- `scram_map()`: a count that is not negative, and one hash at least. -/
structure ScramMap.WellFormed (m : ScramMap) : Prop where
  count : ∃ n : ℤ, m.iterationCount = some n ∧ 0 ≤ n
  hash : ∃ hash, (m.keys hash).isSome

/-- `#scram{}` -/
structure ScramRecord where
  storedkey : Bytes
  serverkey : Bytes
  salt : Bytes
  iterationcount : ℤ

/-- `scram_record_to_map/1` -/
def scramRecordToMap (r : ScramRecord) : ScramMap where
  iterationCount := some r.iterationcount
  keys := fun hash =>
    match hash with
    | .sha => some ⟨r.salt, r.serverkey, r.storedkey⟩
    | _ => none

/-- `$,` -/
def comma : UInt8 := 44

/-- `$|` -/
def bar : UInt8 := 124

/-- `?SCRAM_SERIAL_PREFIX` -/
def scramSerial : Bytes := latin1 "==SCRAM==,"

/-- `?MULTI_SCRAM_SERIAL_PREFIX` -/
def multiScramSerial : Bytes := latin1 "==MULTI_SCRAM==,"

/-- `serialize/1` of a record -/
def serializeRecord (r : ScramRecord) : Bytes :=
  scramSerial ++ r.storedkey ++ comma :: r.serverkey ++ comma :: r.salt ++
    comma :: latin1 (integerToBinary r.iterationcount)

/-- `do_serialize/3`; none when the keys of a hash are missing. -/
def doSerialize (serialized : Bytes) (m : ScramMap) : List (Sha × Bytes) → Option Bytes
  | [] => some serialized
  | (hash, label) :: remaining => do
    let keys ← m.keys hash
    doSerialize (serialized ++ comma :: label ++ keys.salt ++ bar :: keys.storedKey ++
      bar :: keys.serverKey) m remaining

/-- `serialize/1` of a map; none when it has no count. -/
def serializeMap (m : ScramMap) : Option Bytes := do
  let iterationCount ← m.iterationCount
  let configedSha := supportedShaTypes.filter fun (hash, _) => (m.keys hash).isSome
  doSerialize (multiScramSerial ++ latin1 (integerToBinary iterationCount)) m configedSha

/-- The elements of the lists that `deserialize/1` makes a map of. -/
inductive Entry
  | iterationCount (n : ℤ)
  | sha (key : Sha) (keys : Keys)
  /-- What `?LOG_WARNING` returns. -/
  | ok

/-- `deserialize/2`, where `[]` and a term are lists that `lists:flatten/1` joins. -/
def deserializeSha : List (Sha × Bytes) → Bytes → List Entry
  | [], _ => []
  | (hash, label) :: remaining, shaDetails =>
    match shaDetails.dropPrefix? label with
    | some details =>
      match details.splitOn bar with
      | [salt, storedKey, serverKey] => [.sha hash ⟨salt, serverKey, storedKey⟩]
      | _ => [.ok]
    | none => deserializeSha remaining shaDetails

/-- The term order, as far as a count is compared: atoms come before tuples, and the atom
`iteration_count` before the names of the hashes. -/
def Entry.rank : Entry → ℕ
  | .ok => 0
  | .iterationCount _ => 1
  | .sha _ _ => 2

/-- An element is put into a map; only pairs can be. -/
def mapsPut (m : ScramMap) : Entry → Option ScramMap
  | .iterationCount n => some { m with iterationCount := some n }
  | .sha hash keys => some { m with keys := Function.update m.keys hash (some keys) }
  | .ok => none

/-- `maps:from_list/1`; none for an error. -/
def mapsFromList (l : List Entry) : Option ScramMap := l.foldlM mapsPut {}

/-- The reasons of `deserialize/1`. -/
inductive Error
  | incorrectScram
  | corruptedScram

/-- `deserialize/1`; none when it crashes. -/
def deserialize (bin : Bytes) : Option (Except Error ScramMap) :=
  match bin.dropPrefix? scramSerial with
  | some serialized =>
    match serialized.splitOn comma with
    | [storedKey, serverKey, salt, iterationCount] => do
      let n ← binaryToInteger (latin1Text iterationCount)
      return .ok (scramRecordToMap ⟨storedKey, serverKey, salt, n⟩)
    | _ => some (.error .incorrectScram)
  | none =>
    match bin.dropPrefix? multiScramSerial with
    | some serialized =>
      match serialized.splitOn comma with
      | iterationCountBin :: listOfShaSpecificDetails => do
        let n ← binaryToInteger (latin1Text iterationCountBin)
        let deserializedKeys := listOfShaSpecificDetails.map (deserializeSha supportedShaTypes)
        let resultList := merge [.iterationCount n] deserializedKeys.flatten fun a b =>
          a.rank ≤ b.rank
        return .ok (← mapsFromList resultList)
      | [] => some (.error .incorrectScram)
    | none => some (.error .corruptedScram)

/-! ## What is written -/

/-- Keys that the separators can be found between. -/
structure Keys.Plain (keys : Keys) : Prop where
  salt : comma ∉ keys.salt ∧ bar ∉ keys.salt
  serverKey : comma ∉ keys.serverKey ∧ bar ∉ keys.serverKey
  storedKey : comma ∉ keys.storedKey ∧ bar ∉ keys.storedKey

/-- What is written of a hash, after the comma. -/
def Keys.field (keys : Keys) (hash : Sha) : Bytes :=
  hash.label ++ [bar].intercalate [keys.salt, keys.storedKey, keys.serverKey]

theorem comma_notMem_label (hash : Sha) : comma ∉ hash.label := by
  cases hash <;> decide

theorem Keys.Plain.comma_notMem_field {keys : Keys} (h : keys.Plain) (hash : Sha) :
    comma ∉ keys.field hash := by
  have hbar : comma ≠ bar := by decide
  simp [Keys.field, intercalate_cons_cons, comma_notMem_label, h.salt.1, h.serverKey.1,
    h.storedKey.1, hbar]

/-- An integer is read back from its bytes, -/
theorem binaryToInteger_latin1 (n : ℤ) :
    binaryToInteger (latin1Text (latin1 (integerToBinary n))) = some n := by
  have hsmall : ∀ c ∈ (integerToBinary n).toList, c.toNat < 256 := by
    intro c hc
    rcases of_mem_integerToBinary hc with rfl | hdigit
    · decide
    · exact (Char.isDigit_iff_toNat.1 hdigit).2.trans_lt (by decide)
  rw [latin1Text_latin1 hsmall, binaryToInteger_integerToBinary]

/-- which are no commas. -/
theorem comma_notMem_latin1 (n : ℤ) : comma ∉ latin1 (integerToBinary n) := by
  intro hmem
  obtain ⟨c, hc, hcomma⟩ := mem_map.1 hmem
  have hnat : c.toNat % 256 = 44 := by
    rw [← UInt8.toNat_ofNat', hcomma]
    rfl
  rcases of_mem_integerToBinary hc with rfl | hdigit
  · exact absurd hnat (by decide)
  · have := Char.isDigit_iff_toNat.1 hdigit
    have hzero : '0'.toNat = 48 := rfl
    have hnine : '9'.toNat = 57 := rfl
    omega

variable {m : ScramMap}

/-- The fields are written one after another, each behind a comma. -/
theorem doSerialize_eq (fields : List (Sha × Keys)) (hkeys : ∀ f ∈ fields, m.keys f.1 = some f.2)
    (serialized : Bytes) :
    doSerialize serialized m (fields.map fun f => (f.1, f.1.label)) =
    some (serialized ++ (fields.map fun f => comma :: f.2.field f.1).flatten) := by
  induction fields generalizing serialized with
  | nil => simp [doSerialize]
  | cons f fields ih =>
    obtain ⟨hf, hfields⟩ := forall_mem_cons.1 hkeys
    rw [map_cons, doSerialize, hf]
    show doSerialize _ m _ = _
    rw [ih hfields]
    simp [Keys.field, intercalate_cons_cons]

theorem append_flatten_eq_intercalate (first : Bytes) (fields : List Bytes) :
    first ++ (fields.map (comma :: ·)).flatten = [comma].intercalate (first :: fields) := by
  induction fields generalizing first with
  | nil => simp
  | cons field fields ih =>
    rw [intercalate_cons_cons, ← ih field]
    simp

/-! ## What is read -/

theorem dropPrefix?_append {a b : Bytes} (h : a.length = b.length) (rest : Bytes) :
    (a ++ rest).dropPrefix? b = if a = b then some rest else none := by
  induction a generalizing b with
  | nil =>
    obtain rfl := length_eq_zero_iff.1 h.symm
    simp
  | cons x a ih =>
    cases b with
    | nil => cases h
    | cons y b =>
      rw [cons_append, dropPrefix?, ih (Nat.succ.inj h)]
      by_cases hxy : x = y <;> simp [hxy]

theorem label_inj {hash other : Sha} : hash.label = other.label ↔ hash = other := by
  refine ⟨fun h => ?_, congrArg _⟩
  revert h
  cases hash <;> cases other <;> decide

theorem length_label (hash : Sha) : hash.label.length = 10 := by
  cases hash <;> rfl

/-- A field with a label is one of the hash. -/
theorem deserializeSha_label (hash : Sha) (details : Bytes) :
    deserializeSha supportedShaTypes (hash.label ++ details) =
    match details.splitOn bar with
    | [salt, storedKey, serverKey] => [.sha hash ⟨salt, serverKey, storedKey⟩]
    | _ => [.ok] := by
  have hdrop (other : Sha) : (hash.label ++ details).dropPrefix? other.label =
      if hash = other then some details else none := by
    rw [dropPrefix?_append ((length_label hash).trans (length_label other).symm)]
    exact if_congr label_inj rfl rfl
  cases hash <;> simp [supportedShaTypes, deserializeSha, hdrop]

theorem dropPrefix?_eq_none {a b : Bytes} (h : ¬ b <+: a) : a.dropPrefix? b = none := by
  rw [← Option.not_isSome_iff_eq_none, Option.isSome_iff_exists]
  rintro ⟨rest, hdrop⟩
  obtain ⟨b', rfl, hb⟩ := dropPrefix?_eq_some_iff.1 hdrop
  obtain rfl := beq_iff_eq.1 hb
  exact h (prefix_append _ _)

/-- A field without a label is left out. -/
theorem deserializeSha_of_no_label {field : Bytes} (h : ∀ hash : Sha, ¬ hash.label <+: field) :
    deserializeSha supportedShaTypes field = [] := by
  simp [supportedShaTypes, deserializeSha, dropPrefix?_eq_none (h _)]

/-- The pairs that are read, put into a map one after another. -/
def putKeys (pairs : List (Sha × Keys)) (keys : Sha → Option Keys) : Sha → Option Keys :=
  pairs.foldl (fun keys pair => Function.update keys pair.1 (some pair.2)) keys

theorem foldlM_mapsPut (pairs : List (Sha × Keys)) (m : ScramMap) :
    (pairs.map fun pair => Entry.sha pair.1 pair.2).foldlM mapsPut m =
    some { m with keys := putKeys pairs m.keys } := by
  induction pairs generalizing m with
  | nil => rfl
  | cons pair pairs ih =>
    rw [map_cons, foldlM_cons]
    show foldlM mapsPut _ _ = _
    rw [ih]
    rfl

theorem isSome_putKeys {pairs : List (Sha × Keys)} {keys : Sha → Option Keys} {hash : Sha} :
    (putKeys pairs keys hash).isSome ↔ (keys hash).isSome ∨ ∃ pair ∈ pairs, pair.1 = hash := by
  induction pairs generalizing keys with
  | nil => simp [putKeys]
  | cons pair pairs ih =>
    rw [putKeys, foldl_cons]
    show (putKeys pairs _ hash).isSome ↔ _
    rw [ih]
    simp only [mem_cons, exists_eq_or_imp]
    by_cases hpair : hash = pair.1
    · simp [hpair]
    · rw [Function.update_of_ne hpair, or_iff_right (Ne.symm hpair)]

/-- A list with something else than pairs is not one of a map. -/
theorem foldlM_mapsPut_of_mem {l : List Entry} (h : .ok ∈ l) (m : ScramMap) :
    l.foldlM mapsPut m = none := by
  induction l generalizing m with
  | nil => cases h
  | cons entry l ih =>
    rw [foldlM_cons]
    rcases mem_cons.1 h with rfl | h
    · rfl
    · cases mapsPut m entry with
      | none => rfl
      | some m' => exact ih h m'

/-- The map that is made of a count and fields. -/
theorem mapsFromList_merge (n : ℤ) (pairs : List (Sha × Keys)) :
    mapsFromList (merge [.iterationCount n] (pairs.map fun pair => Entry.sha pair.1 pair.2)
    fun a b => a.rank ≤ b.rank) =
    some { iterationCount := some n, keys := putKeys pairs fun _ => none } := by
  have hmerge : merge [.iterationCount n] (pairs.map fun pair => Entry.sha pair.1 pair.2)
      (fun a b => a.rank ≤ b.rank) =
      .iterationCount n :: pairs.map fun pair => Entry.sha pair.1 pair.2 := by
    cases pairs with
    | nil => simp
    | cons pair pairs => simp [Entry.rank]
  rw [hmerge, mapsFromList, foldlM_cons]
  exact foldlM_mapsPut pairs _

/-- The hashes, in the order in which they are tried. -/
def hashes : List Sha := [.sha, .sha224, .sha256, .sha384, .sha512]

theorem mem_hashes (hash : Sha) : hash ∈ hashes := by
  cases hash <;> decide

/-- The keys that a map has of some hashes. -/
def ScramMap.pairs (m : ScramMap) (hashes : List Sha) : List (Sha × Keys) :=
  hashes.filterMap fun hash => (m.keys hash).map fun keys => (hash, keys)

theorem keys_of_mem_pairs {hashes : List Sha} {pair : Sha × Keys} (h : pair ∈ m.pairs hashes) :
    m.keys pair.1 = some pair.2 := by
  obtain ⟨hash, -, hpair⟩ := mem_filterMap.1 h
  obtain ⟨keys, hkeys, rfl⟩ := Option.map_eq_some_iff.1 hpair
  exact hkeys

theorem pairs_cons_of_none {hash : Sha} (h : m.keys hash = none) (hashes : List Sha) :
    m.pairs (hash :: hashes) = m.pairs hashes := by
  simp [ScramMap.pairs, h]

theorem pairs_cons_of_some {hash : Sha} {keys : Keys} (h : m.keys hash = some keys)
    (hashes : List Sha) : m.pairs (hash :: hashes) = (hash, keys) :: m.pairs hashes := by
  simp [ScramMap.pairs, h]

theorem filter_supportedShaTypes (m : ScramMap) :
    (supportedShaTypes.filter fun (hash, _) => (m.keys hash).isSome) =
    (m.pairs hashes).map fun pair => (pair.1, pair.1.label) := by
  have hlist : supportedShaTypes = hashes.map fun hash => (hash, hash.label) := rfl
  rw [hlist]
  induction hashes with
  | nil => rfl
  | cons hash hashes ih =>
    cases hkeys : m.keys hash with
    | none => simpa [pairs_cons_of_none hkeys, hkeys] using ih
    | some keys => simpa [pairs_cons_of_some hkeys, hkeys] using ih

/-- The keys are what they were, once all pairs are put into a map. -/
theorem putKeys_pairs (hashes : List Sha) (keys : Sha → Option Keys) (hash : Sha) :
    putKeys (m.pairs hashes) keys hash =
    if hash ∈ hashes then (m.keys hash).or (keys hash) else keys hash := by
  induction hashes generalizing keys with
  | nil => rfl
  | cons other hashes ih =>
    cases hother : m.keys other with
    | none =>
      rw [pairs_cons_of_none hother, ih]
      by_cases heq : hash = other
      · simp [heq, hother]
      · simp [heq]
    | some k =>
      rw [pairs_cons_of_some hother, putKeys, foldl_cons]
      show putKeys (m.pairs hashes) _ hash = _
      rw [ih]
      by_cases heq : hash = other
      · simp [heq, hother]
      · simp [heq]

/-! ## Reading what was written -/

theorem dropPrefix?_multiScramSerial (rest : Bytes) :
    (multiScramSerial ++ rest).dropPrefix? scramSerial = none := by
  simp [multiScramSerial, scramSerial, latin1, dropPrefix?]

/-- The second format, by its fields. -/
theorem deserialize_multi {rest count : Bytes} {fields : List Bytes}
    (hsplit : rest.splitOn comma = count :: fields) :
    deserialize (multiScramSerial ++ rest) =
    (binaryToInteger (latin1Text count)).bind fun n =>
      (mapsFromList (merge [.iterationCount n]
        (fields.map (deserializeSha supportedShaTypes)).flatten fun a b => a.rank ≤ b.rank)).map
        Except.ok := by
  rw [deserialize, dropPrefix?_multiScramSerial]
  simp only [dropPrefix?_append_of_beq _ (beq_self_eq_true multiScramSerial), hsplit]
  refine congrArg _ (funext fun n => ?_)
  cases mapsFromList _ <;> rfl

/-- **Maps are read back.** -/
theorem deserialize_serializeMap (hwf : m.WellFormed)
    (hplain : ∀ hash keys, m.keys hash = some keys → keys.Plain) :
    ∃ bin, serializeMap m = some bin ∧ deserialize bin = some (.ok m) := by
  obtain ⟨n, hn, -⟩ := hwf.count
  have hmem : ∀ pair ∈ m.pairs hashes, m.keys pair.1 = some pair.2 :=
    fun pair hpair => keys_of_mem_pairs hpair
  refine ⟨multiScramSerial ++ [comma].intercalate (latin1 (integerToBinary n) ::
    (m.pairs hashes).map fun pair => pair.2.field pair.1), ?_, ?_⟩
  · rw [serializeMap, hn]
    show doSerialize _ m (supportedShaTypes.filter _) = _
    rw [filter_supportedShaTypes, doSerialize_eq _ hmem, ← append_flatten_eq_intercalate, map_map,
      append_assoc]
    rfl
  · have hfields : ∀ field ∈ (m.pairs hashes).map (fun pair => pair.2.field pair.1),
        comma ∉ field := by
      intro field hfield
      obtain ⟨pair, hpair, rfl⟩ := mem_map.1 hfield
      exact (hplain pair.1 pair.2 (hmem pair hpair)).comma_notMem_field pair.1
    have hread : (((m.pairs hashes).map fun pair => pair.2.field pair.1).map
        (deserializeSha supportedShaTypes)).flatten =
          (m.pairs hashes).map fun pair => Entry.sha pair.1 pair.2 := by
      rw [map_map, ← flatMap_def, map_eq_flatMap]
      refine flatMap_congr fun pair hpair => ?_
      have hkeys := hplain pair.1 pair.2 (hmem pair hpair)
      have hsplit : ([bar].intercalate [pair.2.salt, pair.2.storedKey, pair.2.serverKey]).splitOn
          bar = [pair.2.salt, pair.2.storedKey, pair.2.serverKey] := by
        refine splitOn_intercalate bar ?_ (cons_ne_nil _ _)
        simp [hkeys.salt.2, hkeys.storedKey.2, hkeys.serverKey.2]
      show deserializeSha supportedShaTypes (pair.2.field pair.1) = _
      rw [Keys.field, deserializeSha_label, hsplit]
    have hsplit := splitOn_intercalate comma
      (forall_mem_cons.2 ⟨comma_notMem_latin1 n, hfields⟩) (cons_ne_nil _ _)
    rw [deserialize_multi hsplit, binaryToInteger_latin1, Option.bind_some, hread,
      mapsFromList_merge, Option.map_some]
    congr 2
    refine ScramMap.ext hn.symm (funext fun hash => ?_)
    show putKeys _ _ hash = _
    rw [putKeys_pairs, if_pos (mem_hashes hash), Option.or_none]

/-- The first format, by its fields. -/
theorem deserialize_scram {rest storedKey serverKey salt count : Bytes}
    (hsplit : rest.splitOn comma = [storedKey, serverKey, salt, count]) :
    deserialize (scramSerial ++ rest) = (binaryToInteger (latin1Text count)).map fun n =>
    .ok (scramRecordToMap ⟨storedKey, serverKey, salt, n⟩) := by
  rw [deserialize, dropPrefix?_append_of_beq _ (beq_self_eq_true scramSerial)]
  simp only [hsplit]
  cases binaryToInteger (latin1Text count) <;> rfl

theorem deserialize_scram_of_ne {rest : Bytes}
    (hsplit : ∀ storedKey serverKey salt count,
    rest.splitOn comma ≠ [storedKey, serverKey, salt, count]) :
    deserialize (scramSerial ++ rest) = some (.error .incorrectScram) := by
  rw [deserialize, dropPrefix?_append_of_beq _ (beq_self_eq_true scramSerial)]
  dsimp only
  split
  · rename_i hfour
    exact absurd hfour (hsplit _ _ _ _)
  · rfl

/-- **Records are read back** when their keys have no comma, and only then. -/
theorem deserialize_serializeRecord_iff (r : ScramRecord) :
    deserialize (serializeRecord r) = some (.ok (scramRecordToMap r)) ↔
    comma ∉ r.storedkey ∧ comma ∉ r.serverkey ∧ comma ∉ r.salt := by
  have hbin : serializeRecord r = scramSerial ++ [comma].intercalate
      [r.storedkey, r.serverkey, r.salt, latin1 (integerToBinary r.iterationcount)] := by
    simp [serializeRecord, intercalate_cons_cons]
  rw [hbin]
  constructor
  · intro h
    by_cases hfour : ∃ a b c d, ([comma].intercalate [r.storedkey, r.serverkey, r.salt,
        latin1 (integerToBinary r.iterationcount)]).splitOn comma = [a, b, c, d]
    · obtain ⟨a, b, c, d, hsplit⟩ := hfour
      rw [deserialize_scram hsplit] at h
      obtain ⟨n, -, hmap⟩ := Option.map_eq_some_iff.1 h
      have hkeys := congrArg (fun m : ScramMap => m.keys .sha) (Except.ok.inj hmap)
      obtain ⟨hsalt, hserver, hstored⟩ : c = r.salt ∧ b = r.serverkey ∧ a = r.storedkey := by
        simpa [scramRecordToMap] using hkeys
      -- the parts of a split have no separator
      have hparts : ∀ part ∈ [a, b, c, d], comma ∉ part := by
        intro part hpart
        exact notMem_of_mem_splitOn (hsplit ▸ hpart)
      rw [← hsalt, ← hserver, ← hstored]
      exact ⟨hparts a (by simp), hparts b (by simp), hparts c (by simp)⟩
    · rw [deserialize_scram_of_ne fun a b c d hsplit => hfour ⟨a, b, c, d, hsplit⟩] at h
      cases h
  · rintro ⟨hstored, hserver, hsalt⟩
    have hparts : ∀ part ∈ [r.storedkey, r.serverkey, r.salt,
        latin1 (integerToBinary r.iterationcount)], comma ∉ part := by
      simp [hstored, hserver, hsalt, comma_notMem_latin1]
    have hsplit := splitOn_intercalate comma hparts (cons_ne_nil _ _)
    rw [deserialize_scram hsplit, binaryToInteger_latin1]
    rfl

/-! ## Reading any binary -/

/-- A field that reads as a count. -/
def ReadsCount (count : Bytes) : Prop :=
  ∃ n : ℤ, binaryToInteger (latin1Text count) = some n ∧ 0 ≤ n

/-- A field is one of the hash. -/
def IsField (hash : Sha) (field : Bytes) : Prop := hash.label <+: field

/-- A field has three parts behind the label, if it has one. -/
def ReadsField (field : Bytes) : Prop :=
  ∀ hash : Sha, ∀ details, field = hash.label ++ details → (details.splitOn bar).length = 3

/-- The binaries that are safe to read. -/
structure Readable (bin : Bytes) : Prop where
  /-- Four fields in the first format end with a count. -/
  scram : ∀ rest storedKey serverKey salt count, bin = scramSerial ++ rest →
    rest.splitOn comma = [storedKey, serverKey, salt, count] → ReadsCount count
  /-- The second format starts with a count; its fields can be read, and one is of a hash. -/
  multi : ∀ rest count fields, bin = multiScramSerial ++ rest →
    rest.splitOn comma = count :: fields →
      ReadsCount count ∧ (∀ field ∈ fields, ReadsField field) ∧
        ∃ field ∈ fields, ∃ hash, IsField hash field

/-- Reading does not crash, and what is read is well formed. -/
def Decodes (bin : Bytes) : Prop :=
  ∃ result, deserialize bin = some result ∧ ∀ m, result = .ok m → m.WellFormed

theorem deserializeSha_cases (field : Bytes) :
    (∃ hash : Sha, ∃ details, field = hash.label ++ details) ∨
    (∀ hash, ¬ IsField hash field) ∧ deserializeSha supportedShaTypes field = [] := by
  by_cases h : ∃ hash, IsField hash field
  · obtain ⟨hash, details, rfl⟩ := h
    exact .inl ⟨hash, details, rfl⟩
  · have hnone : ∀ hash, ¬ IsField hash field := not_exists.1 h
    exact .inr ⟨hnone, deserializeSha_of_no_label hnone⟩

/-- A label is that of one hash. -/
theorem isField_label {hash other : Sha} {details : Bytes} :
    IsField other (hash.label ++ details) ↔ other = hash := by
  constructor
  · rintro ⟨details', h⟩
    have hlength := (length_label other).trans (length_label hash).symm
    exact label_inj.1 (append_inj h hlength).1
  · rintro rfl
    exact prefix_append _ _

/-- Fields that can be read are read as pairs of their hashes, -/
theorem exists_pairs {fields : List Bytes} (h : ∀ field ∈ fields, ReadsField field) :
    ∃ pairs : List (Sha × Keys), (fields.map (deserializeSha supportedShaTypes)).flatten =
      (pairs.map fun pair => Entry.sha pair.1 pair.2) ∧
    ∀ hash, (∃ pair ∈ pairs, pair.1 = hash) ↔ ∃ field ∈ fields, IsField hash field := by
  induction fields with
  | nil => exact ⟨[], rfl, fun hash => by simp⟩
  | cons field fields ih =>
    obtain ⟨hfield, hfields⟩ := forall_mem_cons.1 h
    obtain ⟨pairs, hpairs, hhashes⟩ := ih hfields
    rw [map_cons, flatten_cons, hpairs]
    rcases deserializeSha_cases field with ⟨hash, details, rfl⟩ | ⟨hnone, hread⟩
    · obtain ⟨salt, storedKey, serverKey, hsplit⟩ := length_eq_three.1 (hfield hash details rfl)
      refine ⟨(hash, ⟨salt, serverKey, storedKey⟩) :: pairs, ?_, fun other => ?_⟩
      · rw [deserializeSha_label, hsplit]
        rfl
      · simp only [mem_cons, exists_eq_or_imp, isField_label, hhashes]
        exact or_congr_left eq_comm
    · refine ⟨pairs, by rw [hread, nil_append], fun other => ?_⟩
      simp [hhashes, hnone]

/-- and one that cannot be read leaves what the log returns. -/
theorem ok_mem_flatten {fields : List Bytes} {field : Bytes} (hmem : field ∈ fields)
    (h : ¬ ReadsField field) :
    Entry.ok ∈ (fields.map (deserializeSha supportedShaTypes)).flatten := by
  unfold ReadsField at h
  push Not at h
  obtain ⟨hash, details, rfl, hlength⟩ := h
  refine mem_flatten.2 ⟨_, mem_map_of_mem hmem, ?_⟩
  rw [deserializeSha_label]
  split
  · rename_i hsplit
    exact absurd (by rw [hsplit]; rfl) hlength
  · exact mem_singleton_self _

theorem wellFormed_scramRecordToMap {r : ScramRecord} :
    (scramRecordToMap r).WellFormed ↔ 0 ≤ r.iterationcount := by
  constructor
  · intro h
    obtain ⟨n, hn, hpos⟩ := h.count
    exact Option.some.inj hn ▸ hpos
  · intro h
    exact ⟨⟨r.iterationcount, rfl, h⟩, ⟨.sha, rfl⟩⟩

theorem decodes_scram_iff {rest storedKey serverKey salt count : Bytes}
    (hsplit : rest.splitOn comma = [storedKey, serverKey, salt, count]) :
    Decodes (scramSerial ++ rest) ↔ ReadsCount count := by
  rw [Decodes, deserialize_scram hsplit]
  constructor
  · rintro ⟨result, hresult, hwf⟩
    obtain ⟨n, hn, rfl⟩ := Option.map_eq_some_iff.1 hresult
    exact ⟨n, hn, wellFormed_scramRecordToMap.1 (hwf _ rfl)⟩
  · rintro ⟨n, hn, hpos⟩
    refine ⟨_, by rw [hn, Option.map_some], ?_⟩
    rintro m ⟨⟩
    exact wellFormed_scramRecordToMap.2 hpos

theorem decodes_multi_iff {rest count : Bytes} {fields : List Bytes}
    (hsplit : rest.splitOn comma = count :: fields) :
    Decodes (multiScramSerial ++ rest) ↔ ReadsCount count ∧
    (∀ field ∈ fields, ReadsField field) ∧ ∃ field ∈ fields, ∃ hash, IsField hash field := by
  rw [Decodes, deserialize_multi hsplit]
  cases hn : binaryToInteger (latin1Text count) with
  | none =>
    refine iff_of_false ?_ ?_
    · rintro ⟨result, hresult, -⟩
      cases hresult
    · rintro ⟨⟨n, hcount, -⟩, -⟩
      rw [hn] at hcount
      cases hcount
  | some n =>
    rw [Option.bind_some]
    by_cases hfields : ∀ field ∈ fields, ReadsField field
    · obtain ⟨pairs, hpairs, hhashes⟩ := exists_pairs hfields
      rw [hpairs, mapsFromList_merge, Option.map_some]
      have hkeys (hash : Sha) : (putKeys pairs (fun _ => none) hash).isSome ↔
          ∃ field ∈ fields, IsField hash field := by
        rw [isSome_putKeys, hhashes]
        simp
      constructor
      · rintro ⟨result, hresult, hwf⟩
        cases hresult
        obtain ⟨⟨n', hcount, hpos⟩, ⟨hash, hhash⟩⟩ := hwf _ rfl
        cases hcount
        obtain ⟨field, hmem, hfield⟩ := (hkeys hash).1 hhash
        exact ⟨⟨n, hn, hpos⟩, hfields, field, hmem, hash, hfield⟩
      · rintro ⟨⟨n', hcount, hpos⟩, -, field, hmem, hash, hfield⟩
        cases hn.symm.trans hcount
        refine ⟨_, rfl, ?_⟩
        rintro m ⟨⟩
        exact ⟨⟨n, rfl, hpos⟩, ⟨hash, (hkeys hash).2 ⟨field, hmem, hfield⟩⟩⟩
    · -- a map is made of something else than pairs
      refine iff_of_false ?_ fun h => hfields h.2.1
      push Not at hfields
      obtain ⟨field, hmem, hbad⟩ := hfields
      have hok := mem_merge_right (l := [Entry.iterationCount n])
        (fun a b => decide (a.rank ≤ b.rank)) (ok_mem_flatten hmem hbad)
      rw [mapsFromList, foldlM_mapsPut_of_mem hok]
      rintro ⟨result, hresult, -⟩
      cases hresult

/-- **The binaries that are safe to read.** -/
theorem decodes_iff (bin : Bytes) : Decodes bin ↔ Readable bin := by
  have hdiffer (rest rest' : Bytes) : scramSerial ++ rest ≠ multiScramSerial ++ rest' := by
    intro h
    have hdrop := dropPrefix?_append_of_beq rest (beq_self_eq_true scramSerial)
    rw [h, dropPrefix?_multiScramSerial] at hdrop
    cases hdrop
  by_cases hscram : ∃ rest, bin = scramSerial ++ rest
  · obtain ⟨rest, rfl⟩ := hscram
    by_cases hfour : ∃ a b c d, rest.splitOn comma = [a, b, c, d]
    · obtain ⟨a, b, c, d, hsplit⟩ := hfour
      rw [decodes_scram_iff hsplit]
      refine ⟨fun hcount => ⟨?_, fun rest' _ _ h => absurd h (hdiffer rest rest')⟩,
        fun hread => hread.scram rest a b c d rfl hsplit⟩
      rintro rest' a' b' c' d' h hsplit'
      obtain rfl := append_cancel_left h
      rw [hsplit] at hsplit'
      cases hsplit'
      exact hcount
    · refine iff_of_true ⟨_, deserialize_scram_of_ne fun a b c d h => hfour ⟨a, b, c, d, h⟩, ?_⟩
        ⟨?_, fun rest' _ _ h => absurd h (hdiffer rest rest')⟩
      · rintro m ⟨⟩
      · rintro rest' a b c d h hsplit
        obtain rfl := append_cancel_left h
        exact absurd ⟨a, b, c, d, hsplit⟩ hfour
  · by_cases hmulti : ∃ rest, bin = multiScramSerial ++ rest
    · obtain ⟨rest, rfl⟩ := hmulti
      obtain ⟨count, fields, hsplit⟩ := exists_cons_of_ne_nil (splitOn_ne_nil comma rest)
      rw [decodes_multi_iff hsplit]
      refine ⟨fun hall => ⟨fun rest' _ _ _ _ h => absurd ⟨rest', h⟩ hscram, ?_⟩,
        fun hread => hread.multi rest count fields rfl hsplit⟩
      rintro rest' count' fields' h hsplit'
      obtain rfl := append_cancel_left h
      rw [hsplit] at hsplit'
      cases hsplit'
      exact hall
    · have hnone : deserialize bin = some (.error .corruptedScram) := by
        rw [deserialize, dropPrefix?_eq_none fun ⟨rest, h⟩ => hscram ⟨rest, h.symm⟩,
          dropPrefix?_eq_none fun ⟨rest, h⟩ => hmulti ⟨rest, h.symm⟩]
      refine iff_of_true ⟨_, hnone, ?_⟩
        ⟨fun rest _ _ _ _ h => absurd ⟨rest, h⟩ hscram, fun rest _ _ h => absurd ⟨rest, h⟩ hmulti⟩
      rintro m ⟨⟩

/-- **Stored credentials are read back**: maps whose keys are plain, and records exactly when their
keys have no comma; and reading any binary is safe exactly when it is `Readable`. -/
theorem deserialize_exact_iff (m : ScramMap) (r : ScramRecord) (bin : Bytes) :
    (m.WellFormed → (∀ hash keys, m.keys hash = some keys → keys.Plain) →
    ∃ stored, serializeMap m = some stored ∧ deserialize stored = some (.ok m)) ∧
    (deserialize (serializeRecord r) = some (.ok (scramRecordToMap r)) ↔
    comma ∉ r.storedkey ∧ comma ∉ r.serverkey ∧ comma ∉ r.salt) ∧
    (Decodes bin ↔ Readable bin) :=
  ⟨deserialize_serializeMap, deserialize_serializeRecord_iff r, decodes_iff bin⟩

/-- Credentials with two of the hashes. -/
def twoHashes : ScramMap where
  iterationCount := some 4096
  keys := fun hash =>
    match hash with
    | .sha => some ⟨latin1 "QSXC", latin1 "Wt==", latin1 "6dlG"⟩
    | .sha512 => some ⟨latin1 "rYTz", latin1 "p0s=", latin1 "sX2f"⟩
    | _ => none

theorem deserialize_exact_iff_twoHashes : ∃ bin, serializeMap twoHashes = some bin ∧
    deserialize bin = some (.ok twoHashes) := by
  refine (deserialize_exact_iff twoHashes ⟨[], [], [], 0⟩ []).1 ⟨⟨4096, rfl, by decide⟩, ⟨.sha, rfl⟩⟩ ?_
  rintro (_ | _ | _ | _ | _) keys hkeys <;> cases hkeys <;>
    exact ⟨by decide, by decide, by decide⟩

/-- A count that is none, and a hash without one of its keys. -/
theorem corrupted_rows_crash :
    deserialize (latin1 "==SCRAM==,a,b,c,x") = none ∧
    ¬ Decodes (latin1 "==SCRAM==,a,b,c,x") ∧
    ¬ Decodes (latin1 "==MULTI_SCRAM==,4096,===SHA1===a|b") := by
  refine ⟨by decide, ?_, fun h => ?_⟩
  · rintro ⟨result, hresult, -⟩
    cases hresult
  · have hsplit : (latin1 "4096,===SHA1===a|b").splitOn comma =
        [latin1 "4096", latin1 "===SHA1===a|b"] := by decide
    have hfields := ((decodes_multi_iff hsplit).1 h).2.1
    have hlength := hfields (latin1 "===SHA1===a|b") (by simp) .sha (latin1 "a|b") rfl
    revert hlength
    decide

end MongooseIM.Scram
