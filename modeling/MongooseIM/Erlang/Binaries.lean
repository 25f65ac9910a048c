import Mathlib.Data.List.Basic
import Mathlib.Data.List.TakeWhile

/-! # Binaries with separators, and hexadecimal ones

Fields that do not contain their separator, and hexadecimal digits, are read back as written. -/

namespace MongooseIM.Erlang

open List

theorem append_cons_inj {α : Type*} {c : α} {l l' r r' : List α} (hl : c ∉ l) (hl' : c ∉ l')
    (h : l ++ c :: r = l' ++ c :: r') : l = l' ∧ r = r' := by
  induction l generalizing l' with
  | nil =>
    cases l' with
    | nil => simpa using h
    | cons a l' =>
      have : c = a := (cons.inj h).1
      simp [this] at hl'
  | cons a l ih =>
    cases l' with
    | nil =>
      have : a = c := (cons.inj h).1
      simp [this] at hl
    | cons a' l' =>
      obtain ⟨rfl, hrest⟩ : a = a' ∧ l ++ c :: r = l' ++ c :: r' := by simpa using h
      obtain ⟨rfl, rfl⟩ := ih (fun hc => hl (mem_cons_of_mem _ hc))
        (fun hc => hl' (mem_cons_of_mem _ hc)) hrest
      exact ⟨rfl, rfl⟩

/-- `binary:split/3` at every occurrence of a character -/
def split (c : Char) (s : String) : List String := (s.toList.splitOn c).map String.ofList

/-- Fields with a character between them. -/
def joinWith (c : Char) (fields : List String) : String :=
  String.ofList ([c].intercalate (fields.map String.toList))

variable {c : Char} {fields : List String}

@[simp] theorem joinWith_singleton (f : String) : joinWith c [f] = f := by simp [joinWith]

theorem toList_joinWith_cons {f : String} (hfields : fields ≠ []) :
    (joinWith c (f :: fields)).toList = f.toList ++ c :: (joinWith c fields).toList := by
  obtain ⟨f', fields', rfl⟩ := exists_cons_of_ne_nil hfields
  simp [joinWith, intercalate_cons_cons]

theorem joinWith_concat (hfields : fields ≠ []) (f : String) :
    joinWith c (fields ++ [f]) = joinWith c fields ++ String.singleton c ++ f := by
  rw [← String.toList_inj]
  induction fields with
  | nil => exact absurd rfl hfields
  | cons g fields ih =>
    rw [cons_append, toList_joinWith_cons (by simp)]
    rcases eq_nil_or_concat fields with rfl | ⟨_, _, rfl⟩
    · simp [joinWith]
    · rw [ih (by simp), String.toList_append, String.toList_append, String.toList_append,
        String.toList_append, toList_joinWith_cons (by simp)]
      simp

/-- **Fields are read back.** -/
theorem split_joinWith (hfields : fields ≠ []) (h : ∀ f ∈ fields, c ∉ f.toList) :
    split c (joinWith c fields) = fields := by
  rw [split, joinWith, String.toList_ofList, splitOn_intercalate]
  · rw [map_map]
    exact (map_congr_left fun f _ => String.ofList_toList).trans (map_id fields)
  · intro l hl
    obtain ⟨f, hf, rfl⟩ := mem_map.1 hl
    exact h f hf
  · simpa using hfields

variable (s : String)

/-- The parts of a binary, with the separators between them again. -/
theorem joinWith_split : joinWith c (split c s) = s := by
  have hparts : (split c s).map String.toList = s.toList.splitOn c := by
    rw [split, map_map]
    exact (map_congr_left fun l _ => String.toList_ofList).trans (map_id _)
  rw [joinWith, hparts, intercalate_splitOn, String.ofList_toList]

theorem notMem_of_mem_splitOn {α : Type*} [DecidableEq α] {a : α} {l part : List α}
    (hpart : part ∈ l.splitOn a) : a ∉ part := by
  induction l generalizing part with
  | nil =>
    rw [splitOn_nil, mem_singleton] at hpart
    simp [hpart]
  | cons b l ih =>
    rw [splitOn_cons_eq_if_modifyHead] at hpart
    split at hpart
    · rcases mem_cons.1 hpart with rfl | hpart
      · exact not_mem_nil
      · exact ih hpart
    · next hb =>
      -- `b` is put in front of the first part
      obtain ⟨first, rest, hsplit⟩ := exists_cons_of_ne_nil (splitOn_ne_nil a l)
      rw [hsplit, modifyHead_cons] at hpart
      rcases mem_cons.1 hpart with rfl | hpart
      · have hfirst : a ∉ first := ih (by rw [hsplit]; exact mem_cons_self)
        have hne : a ≠ b := fun h => hb (by simp [h])
        simp [hne, hfirst]
      · exact ih (by rw [hsplit]; exact mem_cons_of_mem _ hpart)

theorem notMem_of_mem_split {s f : String} (hf : f ∈ split c s) : c ∉ f.toList := by
  obtain ⟨l, hl, rfl⟩ := mem_map.1 hf
  rw [String.toList_ofList]
  exact notMem_of_mem_splitOn hl

/-- The first fields of two texts, when more come behind both. -/
theorem joinWith_cons_inj {f f' : String} {fields' : List String} (hf : c ∉ f.toList)
    (hf' : c ∉ f'.toList) (hfields : fields ≠ []) (hfields' : fields' ≠ [])
    (h : joinWith c (f :: fields) = joinWith c (f' :: fields')) :
    f = f' ∧ joinWith c fields = joinWith c fields' := by
  have hchars := congrArg String.toList h
  rw [toList_joinWith_cons hfields, toList_joinWith_cons hfields'] at hchars
  obtain ⟨hfirst, hrest⟩ := append_cons_inj hf hf' hchars
  exact ⟨String.toList_inj.1 hfirst, String.toList_inj.1 hrest⟩

/-- `binary:split/2` at a character: what is before it, and what is behind it if it occurs. -/
def splitOnce (c : Char) (s : String) : String × Option String :=
  match s.toList.dropWhile (· ≠ c) with
  | [] => (s, none)
  | _ :: rest => (String.ofList (s.toList.takeWhile (· ≠ c)), some (String.ofList rest))

theorem splitOnce_of_notMem {s : String} (h : c ∉ s.toList) : splitOnce c s = (s, none) := by
  have hdrop : s.toList.dropWhile (· ≠ c) = [] := by
    rw [dropWhile_eq_nil_iff]
    intro d hd
    simpa using ne_of_mem_of_not_mem hd h
  rw [splitOnce, hdrop]

/-- Two parts are read back when the first does not contain the separator. -/
theorem splitOnce_append {f rest : String} (h : c ∉ f.toList) :
    splitOnce c (f ++ String.singleton c ++ rest) = (f, some rest) := by
  have hall : ∀ d ∈ f.toList, decide (d ≠ c) = true := by
    intro d hd
    simpa using ne_of_mem_of_not_mem hd h
  have hchars : (f ++ String.singleton c ++ rest).toList = f.toList ++ c :: rest.toList := by simp
  have hdrop : (f.toList ++ c :: rest.toList).dropWhile (· ≠ c) = c :: rest.toList := by
    rw [dropWhile_append_of_pos hall]
    simp
  have htake : (f.toList ++ c :: rest.toList).takeWhile (· ≠ c) = f.toList := by
    rw [takeWhile_append_of_pos hall]
    simp
  simp only [splitOnce, hchars, hdrop, htake, String.ofList_toList]

theorem notMem_splitOnce : c ∉ (splitOnce c s).1.toList := by
  unfold splitOnce
  split
  · rename_i hdrop
    rw [dropWhile_eq_nil_iff] at hdrop
    intro hmem
    simpa using hdrop c hmem
  · intro hmem
    rw [String.toList_ofList] at hmem
    simpa using mem_takeWhile_imp hmem

/-- The value of a digit, in either case. -/
def hexValue (c : Char) : Option ℕ :=
  if '0' ≤ c ∧ c ≤ '9' then some (c.toNat - '0'.toNat)
  else if 'a' ≤ c ∧ c ≤ 'f' then some (c.toNat - 'a'.toNat + 10)
  else if 'A' ≤ c ∧ c ≤ 'F' then some (c.toNat - 'A'.toNat + 10)
  else none

/-- The two digits of a byte. -/
def hexDigits (byte : UInt8) : List Char :=
  [Nat.digitChar (byte.toNat / 16), Nat.digitChar (byte.toNat % 16)]

/-- `binary:encode_hex(Bytes, lowercase)` -/
def encodeHex (bytes : List UInt8) : String := String.ofList (bytes.flatMap hexDigits)

/-- The bytes that pairs of digits denote. -/
def hexBytes : List Char → Option (List UInt8)
  | [] => some []
  | [_] => none
  | high :: low :: rest => do
      let high ← hexValue high
      let low ← hexValue low
      let rest ← hexBytes rest
      return UInt8.ofNat (16 * high + low) :: rest

/-- `binary:decode_hex/1` -/
def decodeHex : Option (List UInt8) := hexBytes s.toList

theorem hexValue_digitChar {n : ℕ} (h : n < 16) : hexValue (Nat.digitChar n) = some n := by
  have : ∀ n : Fin 16, hexValue (Nat.digitChar n) = some n.val := by decide
  exact this ⟨n, h⟩

/-- **Bytes are read back.** -/
theorem decodeHex_encodeHex (bytes : List UInt8) : decodeHex (encodeHex bytes) = some bytes := by
  rw [decodeHex, encodeHex, String.toList_ofList]
  induction bytes with
  | nil => rfl
  | cons byte bytes ih =>
    have hbyte : byte.toNat < 256 := byte.toNat_lt
    have hhigh : hexValue (Nat.digitChar (byte.toNat / 16)) = some (byte.toNat / 16) :=
      hexValue_digitChar (by omega)
    have hlow : hexValue (Nat.digitChar (byte.toNat % 16)) = some (byte.toNat % 16) :=
      hexValue_digitChar (Nat.mod_lt _ (by omega))
    show hexBytes (Nat.digitChar (byte.toNat / 16) :: Nat.digitChar (byte.toNat % 16) ::
      bytes.flatMap hexDigits) = _
    rw [hexBytes, hhigh, hlow, ih]
    have hsum : 16 * (byte.toNat / 16) + byte.toNat % 16 = byte.toNat := Nat.div_add_mod _ _
    show some (UInt8.ofNat (16 * (byte.toNat / 16) + byte.toNat % 16) :: bytes) = _
    rw [hsum, UInt8.ofNat_toNat]

theorem notMem_encodeHex (hc : hexValue c = none) (bytes : List UInt8) :
    c ∉ (encodeHex bytes).toList := by
  rw [encodeHex, String.toList_ofList]
  intro hmem
  obtain ⟨byte, -, hmem⟩ := mem_flatMap.1 hmem
  have hbyte : byte.toNat < 256 := byte.toNat_lt
  simp only [hexDigits, mem_cons, not_mem_nil, or_false] at hmem
  rcases hmem with rfl | rfl
  · rw [hexValue_digitChar (by omega)] at hc
    cases hc
  · rw [hexValue_digitChar (Nat.mod_lt _ (by omega))] at hc
    cases hc

end MongooseIM.Erlang
