import Mathlib.Data.Int.Basic
import Mathlib.Data.List.Basic

/-! # What a column can hold

A statement that writes a text longer than its `VARCHAR` column, or a number beyond its `INT`
column, fails and changes nothing. A loop of statements in a transaction fails with any of them. -/

namespace MongooseIM.Relational

/-- A text fits into a column of type `VARCHAR(n)`. -/
def Varchar (n : ℕ) (text : String) : Prop := text.length ≤ n

/-- A number fits into a column of type `INT`, which has 32 bits. -/
def Int32 (number : ℤ) : Prop := -2147483648 ≤ number ∧ number < 2147483648

instance (n : ℕ) (text : String) : Decidable (Varchar n text) :=
  inferInstanceAs (Decidable (_ ≤ _))

/-- A number fits into a column of type `BIGINT`, which has 64 bits. -/
def Int64 (number : ℤ) : Prop :=
  -9223372036854775808 ≤ number ∧ number < 9223372036854775808

instance : DecidablePred Int32 := fun _ => inferInstanceAs (Decidable (_ ∧ _))

instance : DecidablePred Int64 := fun _ => inferInstanceAs (Decidable (_ ∧ _))

/-- Zero fits into every numeric column. -/
@[simp] theorem int32_zero : Int32 0 := by decide

/-- A name and a server fit into two columns of type `VARCHAR(250)`. -/
abbrev FitsColumns (us : String × String) : Prop := Varchar 250 us.1 ∧ Varchar 250 us.2

/-! ## Loops of statements -/

variable {α σ : Type*} {f : σ → α → Option σ}

/-- A loop of statements gets to its end when each of them can write its values. -/
theorem foldlM_ite {ok : α → Prop} [DecidablePred ok] {g : σ → α → σ}
    (hf : ∀ s a, f s a = if ok a then some (g s a) else none) (l : List α) (s : σ) :
    l.foldlM f s = if ∀ a ∈ l, ok a then some (l.foldl g s) else none := by
  induction l generalizing s with
  | nil => simp
  | cons a l ih =>
    rw [List.foldlM_cons, hf]
    by_cases ha : ok a
    · rw [if_pos ha, Option.bind_eq_bind, Option.bind_some, ih]
      simp [ha]
    · simp [ha]

/-- **A statement that fails on any tables aborts the loop** that runs it. -/
theorem foldlM_eq_none {l : List α} {a : α} (hmem : a ∈ l) (ha : ∀ s, f s a = none) (s : σ) :
    l.foldlM f s = none := by
  induction l generalizing s with
  | nil => cases hmem
  | cons b l ih =>
    rw [List.foldlM_cons]
    rcases List.mem_cons.1 hmem with rfl | hmem
    · rw [ha]
      rfl
    · cases f s b with
      | none => rfl
      | some s' => exact ih hmem s'

/-- The same when the passes before it leave the tables as they are. -/
theorem foldlM_eq_none_of_keeps {s : σ} (hkeep : ∀ a, f s a = none ∨ f s a = some s) {l : List α}
    {a : α} (hmem : a ∈ l) (ha : f s a = none) : l.foldlM f s = none := by
  induction l with
  | nil => cases hmem
  | cons b l ih =>
    rw [List.foldlM_cons]
    rcases List.mem_cons.1 hmem with rfl | hmem
    · rw [ha]
      rfl
    · rcases hkeep b with hb | hb
      · rw [hb]
        rfl
      · rw [hb]
        exact ih hmem

end MongooseIM.Relational
