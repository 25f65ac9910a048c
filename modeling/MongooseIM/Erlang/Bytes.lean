import Mathlib.Algebra.Group.Nat.Defs
import Mathlib.Data.List.Basic

/-! # Binaries as bytes

Integer segments, Latin-1 texts, Base64 and the atoms that `binary_to_atom/2` can make. -/

namespace MongooseIM.Erlang

/-- A binary. -/
abbrev Bytes := List UInt8

/-- The bytes of a text. -/
def utf8 (s : String) : Bytes := s.toUTF8.data.toList

/-- The text of these bytes; none when they are not UTF-8. -/
def ofUtf8 (bytes : Bytes) : Option String := String.fromUTF8? ⟨bytes.toArray⟩

theorem ofUtf8_utf8 (s : String) : ofUtf8 (utf8 s) = some s := by
  have hvalid := s.isValidUTF8
  simp [ofUtf8, String.fromUTF8?, utf8, hvalid]
  rfl

@[simp] theorem length_utf8 (s : String) : (utf8 s).length = s.utf8ByteSize := rfl

/-- The bytes of a text in ISO 8859-1, as a literal stands for them. -/
def latin1 (s : String) : Bytes := s.toList.map fun c => UInt8.ofNat c.toNat

/-- The text whose characters the bytes are. -/
def latin1Text (bytes : Bytes) : String :=
  String.ofList (bytes.map fun byte => Char.ofNat byte.toNat)

/-- Texts are read back when they have no other characters. -/
theorem latin1Text_latin1 {s : String} (h : ∀ c ∈ s.toList, c.toNat < 256) :
    latin1Text (latin1 s) = s := by
  have hchar : ∀ c ∈ s.toList, Char.ofNat (UInt8.ofNat c.toNat).toNat = c := by
    intro c hc
    have hbyte : (UInt8.ofNat c.toNat).toNat = c.toNat := by
      rw [UInt8.toNat_ofNat', Nat.mod_eq_of_lt (h c hc)]
    rw [hbyte, Char.ofNat_toNat]
  have hlist : (latin1 s).map (fun byte => Char.ofNat byte.toNat) = s.toList := by
    rw [latin1, List.map_map]
    exact (List.map_congr_left hchar).trans (List.map_id s.toList)
  rw [latin1Text, hlist, String.ofList_toList]

/-- `<<N:Size/unit:8>>`, which keeps the lowest bytes. -/
def integerBytes : ℕ → ℕ → Bytes
  | 0, _ => []
  | size + 1, n => integerBytes size (n / 256) ++ [UInt8.ofNat n]

/-- `binary:decode_unsigned/1` -/
def decodeUnsigned (bytes : Bytes) : ℕ := bytes.foldl (fun n byte => 256 * n + byte.toNat) 0

@[simp] theorem length_integerBytes (size n : ℕ) : (integerBytes size n).length = size := by
  induction size generalizing n with
  | zero => rfl
  | succ size ih => rw [integerBytes, List.length_append, ih, List.length_singleton]

theorem decodeUnsigned_integerBytes_mod (size n : ℕ) :
    decodeUnsigned (integerBytes size n) = n % 256 ^ size := by
  induction size generalizing n with
  | zero => simp [integerBytes, decodeUnsigned, Nat.mod_one]
  | succ size ih =>
    have hlast : (UInt8.ofNat n).toNat = n % 256 := UInt8.toNat_ofNat'
    unfold decodeUnsigned at ih
    rw [integerBytes, decodeUnsigned, List.foldl_append, ih, List.foldl_cons, List.foldl_nil,
      hlast, Nat.pow_succ', Nat.mod_mul, Nat.add_comm]

/-- **What fits is read back.** -/
theorem decodeUnsigned_integerBytes {size n : ℕ} (h : n < 256 ^ size) :
    decodeUnsigned (integerBytes size n) = n := by
  rw [decodeUnsigned_integerBytes_mod, Nat.mod_eq_of_lt h]

/-- The digits of `base64`. -/
def base64Digits : List Char :=
  "ABCDEFGHIJKLMNOPQRSTUVWXYZabcdefghijklmnopqrstuvwxyz0123456789+/".toList

/-- The digit of six bits. -/
def base64Digit (n : ℕ) : Char := base64Digits.getD n '='

/-- `base64:encode/1` -/
def base64Encode : Bytes → List Char
  | [] => []
  | [a] => [base64Digit (a.toNat / 4), base64Digit (a.toNat % 4 * 16), '=', '=']
  | [a, b] => [base64Digit (a.toNat / 4), base64Digit (a.toNat % 4 * 16 + b.toNat / 16),
      base64Digit (b.toNat % 16 * 4), '=']
  | a :: b :: c :: rest =>
    base64Digit (a.toNat / 4) :: base64Digit (a.toNat % 4 * 16 + b.toNat / 16) ::
      base64Digit (b.toNat % 16 * 4 + c.toNat / 64) :: base64Digit (c.toNat % 64) ::
      base64Encode rest

example : base64Encode (utf8 "localhost") = "bG9jYWxob3N0".toList := by decide

theorem length_base64Encode (bytes : Bytes) :
    (base64Encode bytes).length = 4 * ((bytes.length + 2) / 3) := by
  induction bytes using base64Encode.induct with
  | case1 => rfl
  | case2 a => simp [base64Encode]
  | case3 a b => simp [base64Encode]
  | case4 a b c rest ih =>
    rw [base64Encode]
    simp only [List.length_cons, ih]
    omega

/-- The value of a digit of `base64`. -/
def base64Value (byte : UInt8) : Option ℕ := base64Digits.idxOf? (Char.ofNat byte.toNat)

/-- Four digits are three bytes; what is filled up with `=` is the last of the text. -/
def base64Quads : Bytes → Option Bytes
  | [] => some []
  | [a, b, 61, 61] => do
      let a ← base64Value a
      let b ← base64Value b
      return [UInt8.ofNat (4 * a + b / 16)]
  | [a, b, c, 61] => do
      let a ← base64Value a
      let b ← base64Value b
      let c ← base64Value c
      return [UInt8.ofNat (4 * a + b / 16), UInt8.ofNat (b % 16 * 16 + c / 4)]
  | a :: b :: c :: d :: rest => do
      let a ← base64Value a
      let b ← base64Value b
      let c ← base64Value c
      let d ← base64Value d
      let rest ← base64Quads rest
      return UInt8.ofNat (4 * a + b / 16) :: UInt8.ofNat (b % 16 * 16 + c / 4) ::
        UInt8.ofNat (c % 4 * 64 + d) :: rest
  | _ => none

/-- Tabulators, ends of lines and blanks. -/
def base64Space (byte : UInt8) : Bool := byte == 9 || byte == 10 || byte == 13 || byte == 32

/-- `base64:decode/1`, which leaves out white space; none for an error. -/
def base64Decode (bytes : Bytes) : Option Bytes :=
  base64Quads (bytes.filter fun byte => !base64Space byte)

example : base64Decode (latin1 "bG9jYWxo b3N0Lg==") = some (latin1 "localhost.") := by decide

/-- The byte of a digit. -/
def base64Byte (n : ℕ) : UInt8 := UInt8.ofNat (base64Digit n).toNat

theorem base64Byte_spec :
    ∀ n < 64, base64Value (base64Byte n) = some n ∧ base64Byte n ≠ 61 := by
  decide

theorem mem_base64Encode (bytes : Bytes) :
    ∀ c ∈ base64Encode bytes, c ∈ '=' :: base64Digits := by
  have hpad : '=' ∈ '=' :: base64Digits := List.mem_cons_self
  have hdigit (n : ℕ) : base64Digit n ∈ '=' :: base64Digits := by
    rw [base64Digit, List.getD_eq_getElem?_getD]
    cases hget : base64Digits[n]? with
    | none => exact hpad
    | some c => exact List.mem_cons_of_mem _ (List.mem_of_getElem? hget)
  induction bytes using base64Encode.induct with
  | case1 => simp [base64Encode]
  | case2 a => simp [base64Encode, -List.mem_cons, List.forall_mem_cons, hdigit, hpad]
  | case3 a b => simp [base64Encode, -List.mem_cons, List.forall_mem_cons, hdigit, hpad]
  | case4 a b c rest ih =>
    simpa [base64Encode, -List.mem_cons, List.forall_mem_cons, hdigit] using ih

/-- Its digits are ASCII. -/
theorem utf8_base64Encode (bytes : Bytes) : utf8 (String.ofList (base64Encode bytes)) =
    (base64Encode bytes).map fun c => UInt8.ofNat c.toNat := by
  have hascii : ('=' :: base64Digits).all fun c =>
      String.utf8EncodeChar c = [UInt8.ofNat c.toNat] := by decide
  have hutf8 (l : List Char) : utf8 (String.ofList l) = l.flatMap String.utf8EncodeChar := by
    simp [utf8, List.utf8Encode]
  rw [hutf8, ← List.flatMap_pure_eq_map]
  exact List.flatMap_congr fun c hc =>
    of_decide_eq_true (List.all_eq_true.1 hascii c (mem_base64Encode bytes c hc))

/-- **What is encoded is decoded.** -/
theorem base64Decode_base64Encode (bytes : Bytes) :
    base64Decode (utf8 (String.ofList (base64Encode bytes))) = some bytes := by
  have hspace : ('=' :: base64Digits).all fun c => !base64Space (UInt8.ofNat c.toNat) := by decide
  have hbyte (a : UInt8) : a.toNat < 256 := a.toNat_lt
  have hofNat {n : ℕ} {a : UInt8} (h : n = a.toNat) : UInt8.ofNat n = a := by
    rw [h, UInt8.ofNat_toNat]
  rw [base64Decode, utf8_base64Encode, List.filter_eq_self.2]
  · induction bytes using base64Encode.induct with
    | case1 => rfl
    | case2 a =>
      have ha := hbyte a
      have hfirst := base64Byte_spec (a.toNat / 4) (by omega)
      have hsecond := base64Byte_spec (a.toNat % 4 * 16) (by omega)
      show base64Quads [base64Byte _, base64Byte _, 61, 61] = _
      rw [base64Quads, hfirst.1, hsecond.1]
      exact congrArg (fun a => some [a]) (hofNat (by omega))
    | case3 a b =>
      have ha := hbyte a
      have hb := hbyte b
      have hfirst := base64Byte_spec (a.toNat / 4) (by omega)
      have hsecond := base64Byte_spec (a.toNat % 4 * 16 + b.toNat / 16) (by omega)
      have hthird := base64Byte_spec (b.toNat % 16 * 4) (by omega)
      show base64Quads [base64Byte _, base64Byte _, base64Byte _, 61] = _
      rw [base64Quads, hfirst.1, hsecond.1, hthird.1]
      · exact congrArg₂ (fun a b => some [a, b]) (hofNat (by omega)) (hofNat (by omega))
      · exact hthird.2
    | case4 a b c rest ih =>
      have ha := hbyte a
      have hb := hbyte b
      have hc := hbyte c
      have hfirst := base64Byte_spec (a.toNat / 4) (by omega)
      have hsecond := base64Byte_spec (a.toNat % 4 * 16 + b.toNat / 16) (by omega)
      have hthird := base64Byte_spec (b.toNat % 16 * 4 + c.toNat / 64) (by omega)
      have hfourth := base64Byte_spec (c.toNat % 64) (by omega)
      show base64Quads (base64Byte _ :: base64Byte _ :: base64Byte _ :: base64Byte _ :: _) = _
      rw [base64Quads, hfirst.1, hsecond.1, hthird.1, hfourth.1]
      · simp only [Option.bind_eq_bind, Option.bind_some, ih]
        exact congrArg some (congrArg₂ List.cons (hofNat (by omega)) (congrArg₂ List.cons
          (hofNat (by omega)) (congrArg (· :: rest) (hofNat (by omega)))))
      · exact fun _ heq _ => hfourth.2 heq
      · exact fun heq _ => hfourth.2 heq
  · intro byte hmem
    obtain ⟨c, hc, rfl⟩ := List.mem_map.1 hmem
    exact List.all_eq_true.1 hspace c (mem_base64Encode bytes c hc)

/-- An atom. -/
structure Atom where
  text : List Char
  short : text.length ≤ 255

/-- `binary_to_atom/2`; none for a `system_limit` error. -/
def binaryToAtom (text : List Char) : Option Atom :=
  if h : text.length ≤ 255 then some ⟨text, h⟩ else none

theorem isSome_binaryToAtom {text : List Char} :
    (binaryToAtom text).isSome ↔ text.length ≤ 255 := by
  unfold binaryToAtom
  split <;> simp_all

end MongooseIM.Erlang
