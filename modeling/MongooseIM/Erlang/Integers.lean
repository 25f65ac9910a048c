import Mathlib.Data.Int.Notation
import Mathlib.Data.Nat.Notation

/-! # Integers as text

`binary_to_integer/1` takes a sign and then digits only; what `integer_to_binary/1` writes it reads
back. -/

namespace MongooseIM.Erlang

/-- `binary_to_integer/1` -/
def binaryToInteger (s : String) : Option ℤ :=
  match s.toList with
  | '-' :: digits => (natOf digits).map fun n => -(n : ℤ)
  | '+' :: digits => (natOf digits).map fun n => (n : ℤ)
  | digits => (natOf digits).map fun n => (n : ℤ)
where
  natOf (digits : List Char) : Option ℕ :=
    if digits ≠ [] ∧ digits.all Char.isDigit then
      some (digits.foldl (fun n c => 10 * n + (c.toNat - '0'.toNat)) 0)
    else none

/-- `integer_to_binary/1` -/
def integerToBinary : ℤ → String
  | .ofNat n => n.repr
  | .negSucc n => "-" ++ (n + 1).repr

/-- The digits that a number is written with denote it. -/
theorem natOf_toDigits (n : ℕ) : binaryToInteger.natOf (Nat.toDigits 10 n) = some n := by
  have hdigits : (Nat.toDigits 10 n).all Char.isDigit = true := by
    rw [List.all_eq_true]
    intro c hc
    exact Nat.isDigit_of_mem_toDigits (by omega) (by omega) hc
  have hvalue := Nat.ofDigitChars_ten_toDigits (n := n)
  rw [Nat.ofDigitChars_eq_foldl] at hvalue
  rw [binaryToInteger.natOf, if_pos ⟨Nat.toDigits_ne_nil, hdigits⟩, hvalue]

/-- The digits of a number have no sign before them. -/
theorem binaryToInteger_digits {s : String} (h : ∀ c ∈ s.toList, c.isDigit = true) :
    binaryToInteger s = (binaryToInteger.natOf s.toList).map fun n => (n : ℤ) := by
  rw [binaryToInteger]
  split
  · next heq => exact absurd (h '-' (by rw [heq]; exact List.mem_cons_self)) (by decide)
  · next heq => exact absurd (h '+' (by rw [heq]; exact List.mem_cons_self)) (by decide)
  · rfl

/-- **An integer is read back from its text.** -/
theorem binaryToInteger_integerToBinary (i : ℤ) : binaryToInteger (integerToBinary i) = some i := by
  cases i with
  | ofNat n =>
    have hdigits : ∀ c ∈ n.repr.toList, c.isDigit = true := by
      intro c hc
      rw [Nat.toList_repr] at hc
      exact Nat.isDigit_of_mem_toDigits (by omega) (by omega) hc
    rw [integerToBinary, binaryToInteger_digits hdigits, Nat.toList_repr, natOf_toDigits]
    rfl
  | negSucc n =>
    have hlist : ("-" ++ (n + 1).repr).toList = '-' :: Nat.toDigits 10 (n + 1) := by simp
    rw [integerToBinary, binaryToInteger, hlist]
    show (binaryToInteger.natOf (Nat.toDigits 10 (n + 1))).map (fun n => -(n : ℤ)) = _
    rw [natOf_toDigits]
    rfl

theorem integerToBinary_inj {i j : ℤ} (h : integerToBinary i = integerToBinary j) : i = j := by
  rw [← Option.some_inj, ← binaryToInteger_integerToBinary, h, binaryToInteger_integerToBinary]

/-- An integer is written with digits, and a sign if it is negative. -/
theorem of_mem_integerToBinary {i : ℤ} {c : Char} (h : c ∈ (integerToBinary i).toList) :
    c = '-' ∨ c.isDigit = true := by
  cases i with
  | ofNat n =>
    rw [integerToBinary, Nat.toList_repr] at h
    exact .inr (Nat.isDigit_of_mem_toDigits (by omega) (by omega) h)
  | negSucc n =>
    have hlist : (integerToBinary (.negSucc n)).toList = '-' :: Nat.toDigits 10 (n + 1) := by
      simp [integerToBinary]
    rw [hlist] at h
    exact (List.mem_cons.1 h).imp_right (Nat.isDigit_of_mem_toDigits (by omega) (by omega))

end MongooseIM.Erlang
