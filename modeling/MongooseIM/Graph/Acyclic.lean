import Mathlib.Logic.Relation

/-! # Acyclic relations

What happens to the cycles of a relation when the edges that leave one vertex are replaced. -/

namespace MongooseIM.Graph

open Relation

variable {α : Type*} {r r' : α → α → Prop} {n a b : α}

/-- No vertex reaches itself by one step or more. -/
def Acyclic (r : α → α → Prop) : Prop := ∀ a, ¬ TransGen r a a

theorem acyclic_of_empty (h : ∀ a b, ¬ r a b) : Acyclic r := by
  intro a hcycle
  obtain ⟨b, hstep, -⟩ := TransGen.head'_iff.1 hcycle
  exact h a b hstep

theorem Acyclic.mono (hr : Acyclic r) (h : ∀ a b, r' a b → r a b) : Acyclic r' :=
  fun a hcycle => hr a (TransGen.mono h a a hcycle)

/-- Two relations with the same edges, those that leave `n` apart. -/
def AgreeOff (n : α) (r r' : α → α → Prop) : Prop := ∀ a b, a ≠ n → (r a b ↔ r' a b)

section

variable (h : AgreeOff n r r')

include h

theorem AgreeOff.symm : AgreeOff n r' r := fun a b ha => (h a b ha).symm

/-- Up to the first visit of `n` only common edges are used. -/
theorem AgreeOff.reach (hreach : ReflTransGen r a n) : ReflTransGen r' a n := by
  induction hreach using ReflTransGen.head_induction_on with
  | refl => exact .refl
  | @head b c hstep _ ih =>
    by_cases hb : b = n
    · subst hb
      exact .refl
    · exact .head ((h b c hb).1 hstep) ih

/-- What reaches `n` does not depend on the edges that leave `n`. -/
theorem AgreeOff.reach_iff : ReflTransGen r a n ↔ ReflTransGen r' a n := ⟨h.reach, h.symm.reach⟩

/-- A path either uses common edges only, or it visits `n` and leaves it again. -/
theorem AgreeOff.split (hpath : TransGen r' a b) :
    TransGen r a b ∨ (ReflTransGen r' a n ∧ TransGen r' n b) := by
  induction hpath with
  | @single b hstep =>
    by_cases ha : a = n
    · subst ha
      exact .inr ⟨.refl, .single hstep⟩
    · exact .inl (.single ((h a b ha).2 hstep))
  | @tail b c hab hstep ih =>
    by_cases hb : b = n
    · subst hb
      exact .inr ⟨hab.to_reflTransGen, .single hstep⟩
    · rcases ih with hcommon | ⟨hto, hfrom⟩
      · exact .inl (hcommon.tail ((h b c hb).2 hstep))
      · exact .inr ⟨hto, hfrom.tail hstep⟩

/-- **Replacing the edges of one vertex** keeps a relation acyclic exactly if no new target reaches
the vertex. -/
theorem acyclic_iff_of_agreeOff (hr : Acyclic r) :
    Acyclic r' ↔ ∀ p, r' n p → ¬ ReflTransGen r p n := by
  constructor
  · intro hr' p hstep hreach
    exact hr' n (.head' hstep (h.reach hreach))
  · intro hnone a hcycle
    have hn : TransGen r' n n := by
      rcases h.split hcycle with hcommon | ⟨hto, hfrom⟩
      · exact absurd hcommon (hr a)
      · exact hfrom.trans_left hto
    obtain ⟨p, hstep, hreach⟩ := TransGen.head'_iff.1 hn
    exact hnone p hstep (h.reach_iff.2 hreach)

end

end MongooseIM.Graph
