import Mathlib.Data.Int.Notation

/-! # Terms

The terms that are stored as they are, and what JSON makes of them. -/

namespace MongooseIM.Erlang

/-- A term without parts; binaries are texts here. -/
inductive Scalar
  | atom (name : String)
  | binary (text : String)
  | integer (value : ℤ)
  deriving DecidableEq, Repr

/-- A term, or a list of them. -/
inductive Term
  | scalar (value : Scalar)
  | list (values : List Scalar)
  deriving DecidableEq, Repr

/-- `true` and `false` -/
def Term.bool (b : Bool) : Term := .scalar (.atom (if b then "true" else "false"))

/-- A boolean as long as the term is one. -/
def Term.toBool : Term → Option Bool
  | .scalar (.atom "true") => some true
  | .scalar (.atom "false") => some false
  | _ => none

@[simp] theorem Term.toBool_bool (b : Bool) : (Term.bool b).toBool = some b := by
  cases b <;> rfl

/-- The atoms that JSON has. -/
def jsonAtoms : List String := ["true", "false", "null"]

/-- JSON has three atoms; the others become texts. -/
def Scalar.asJson : Scalar → Scalar
  | .atom name => if name ∈ jsonAtoms then .atom name else .binary name
  | .binary text => .binary text
  | .integer value => .integer value

/-- Lists stay lists. -/
def Term.asJson : Term → Term
  | .scalar value => .scalar value.asJson
  | .list values => .list (values.map Scalar.asJson)

@[simp] theorem Term.asJson_bool (b : Bool) : (Term.bool b).asJson = Term.bool b := by
  cases b <;> rfl

@[simp] theorem Term.asJson_binary (text : String) :
    (Term.scalar (.binary text)).asJson = .scalar (.binary text) := rfl

@[simp] theorem Term.asJson_list (values : List Scalar) :
    (Term.list values).asJson = .list (values.map Scalar.asJson) := rfl

theorem Scalar.asJson_eq_self {value : Scalar} :
    value.asJson = value ↔ ∀ name, value = .atom name → name ∈ jsonAtoms := by
  cases value with
  | atom name =>
    rw [Scalar.asJson]
    split
    · rename_i hjson
      exact iff_of_true rfl fun name' h => (Scalar.atom.inj h) ▸ hjson
    · rename_i hjson
      exact iff_of_false nofun fun h => hjson (h name rfl)
  | binary text => exact iff_of_true rfl nofun
  | integer value => exact iff_of_true rfl nofun

end MongooseIM.Erlang
