import Mathlib.Data.List.Basic
import Mathlib.Data.List.Induction
import Mathlib.Data.Option.Basic

/-! # Runs of a partial step function

A process is given by `step : σ → ε → Option σ`: what a state and an event lead to, with `none`
when the process cannot take the event (it crashes, or the event is not possible there). -/

namespace MongooseIM.Transition

open List

variable {σ ε : Type*} {step : σ → ε → Option σ} {ok : σ → ε → Prop}

/-- The state after the events `es`, in order; `none` when one of the steps does not exist. -/
def run (step : σ → ε → Option σ) : σ → List ε → Option σ
  | s, [] => some s
  | s, e :: es => (step s e).bind fun s' => run step s' es

variable (s : σ)

@[simp] theorem run_nil : run step s [] = some s := rfl

theorem run_cons (e : ε) (es : List ε) :
    run step s (e :: es) = (step s e).bind fun s' => run step s' es := rfl

variable {s t : σ} {es : List ε}

/-- A run of a nonempty list of events takes one step and runs on from there. -/
theorem run_cons_eq_some {e : ε} :
    run step s (e :: es) = some t ↔ ∃ s', step s e = some s' ∧ run step s' es = some t := by
  rw [run_cons, Option.bind_eq_some_iff]

/-- Running `es₁ ++ es₂` is running `es₁` and then, from the state reached, `es₂`. -/
theorem run_append (s : σ) (es₁ es₂ : List ε) :
    run step s (es₁ ++ es₂) = (run step s es₁).bind fun s' => run step s' es₂ := by
  induction es₁ generalizing s with
  | nil => rfl
  | cons e es ih =>
    rw [cons_append, run_cons, run_cons, Option.bind_assoc]
    congr 1
    funext s'
    exact ih s'

theorem run_concat (es : List ε) (e : ε) :
    run step s (es ++ [e]) = (run step s es).bind fun s' => step s' e := by
  rw [run_append]
  congr 1
  funext s'
  rw [run_cons]
  simp

theorem run_some (f : σ → ε → σ) (s : σ) (es : List ε) :
    run (fun s e => some (f s e)) s es = some (es.foldl f s) := by
  induction es generalizing s with
  | nil => rfl
  | cons e es ih => exact ih (f s e)

/-! ## Guarded runs -/

/-- Every step taken from `s` along `es` starts from a state and an event that meet `ok`. -/
def Guarded (step : σ → ε → Option σ) (ok : σ → ε → Prop) : σ → List ε → Prop
  | _, [] => True
  | s, e :: es => ok s e ∧
      match step s e with
      | none => True
      | some s' => Guarded step ok s' es

@[simp] theorem guarded_nil (s : σ) : Guarded step ok s [] := trivial

theorem guarded_cons (s : σ) (e : ε) (es : List ε) :
    Guarded step ok s (e :: es) ↔ ok s e ∧ ∀ s', step s e = some s' → Guarded step ok s' es := by
  rw [Guarded]
  cases step s e <;> simp

variable {es₁ es₂ : List ε}

/-- A run is guarded if its first part is and, from the state that this reaches, its second part. -/
theorem guarded_append (h₁ : Guarded step ok s es₁)
    (hrun : run step s es₁ = some t) (h₂ : Guarded step ok t es₂) :
    Guarded step ok s (es₁ ++ es₂) := by
  induction es₁ generalizing s with
  | nil =>
    cases hrun
    exact h₂
  | cons e es ih =>
    obtain ⟨s', hse, hrest⟩ := run_cons_eq_some.1 hrun
    obtain ⟨hok, hg⟩ := (guarded_cons s e es).1 h₁
    refine (guarded_cons s e _).2 ⟨hok, fun s'' hs'' => ?_⟩
    cases (hse.symm.trans hs'')
    exact ih (hg s' hse) hrest

/-- A run with one more step is guarded if the run is and the last step meets the guard. -/
theorem guarded_concat {e : ε} (hrun : run step s es = some t) :
    Guarded step ok s (es ++ [e]) ↔ Guarded step ok s es ∧ ok t e := by
  induction es generalizing s with
  | nil =>
    cases hrun
    rw [nil_append, guarded_cons]
    simp
  | cons e' es ih =>
    obtain ⟨s', hse, hrest⟩ := run_cons_eq_some.1 hrun
    rw [cons_append, guarded_cons, guarded_cons, hse]
    constructor
    · rintro ⟨hok, hg⟩
      obtain ⟨hg', hlast⟩ := (ih hrest).1 (hg s' rfl)
      exact ⟨⟨hok, fun s'' hs'' => Option.some.inj hs'' ▸ hg'⟩, hlast⟩
    · rintro ⟨⟨hok, hg⟩, hlast⟩
      exact ⟨hok, fun s'' hs'' => Option.some.inj hs'' ▸ (ih hrest).2 ⟨hg s' rfl, hlast⟩⟩

/-- A guard that every step meets is met by every run. -/
theorem guarded_of_forall (h : ∀ s e, ok s e) (s : σ) (es : List ε) : Guarded step ok s es := by
  induction es generalizing s with
  | nil => trivial
  | cons e es ih => exact (guarded_cons s e es).2 ⟨h s e, fun s' _ => ih s'⟩

variable {ok' : σ → ε → Prop}

/-- Two guards that agree as long as an invariant holds, which the first one keeps. -/
theorem guarded_congr {P : σ → Prop} (hok : ∀ s e, P s → (ok s e ↔ ok' s e))
    (hstep : ∀ s e s', P s → ok s e → step s e = some s' → P s') (hs : P s)
    (es : List ε) : Guarded step ok s es ↔ Guarded step ok' s es := by
  induction es generalizing s with
  | nil => exact Iff.rfl
  | cons e es ih =>
    rw [guarded_cons, guarded_cons, ← hok s e hs]
    refine and_congr_right fun he => forall₂_congr fun s' hse => ?_
    exact ih (hstep s e s' hs he hse)

/-- A guard that follows from another one as long as an invariant holds, which that one keeps. -/
theorem Guarded.of_invariant {P : σ → Prop} (hok : ∀ s e, P s → ok s e → ok' s e)
    (hstep : ∀ s e s', P s → ok s e → step s e = some s' → P s') (hs : P s)
    (hg : Guarded step ok s es) : Guarded step ok' s es := by
  induction es generalizing s with
  | nil => trivial
  | cons e es ih =>
    obtain ⟨he, hrest⟩ := (guarded_cons s e es).1 hg
    refine (guarded_cons s e es).2 ⟨hok s e hs he, fun s' hse => ?_⟩
    exact ih (hstep s e s' hs he hse) (hrest s' hse)

instance Guarded.decidable [∀ s e, Decidable (ok s e)] :
    ∀ (s : σ) (es : List ε), Decidable (Guarded step ok s es)
  | _, [] => isTrue trivial
  | s, e :: es =>
    have : Decidable (match step s e with
        | none => True
        | some s' => Guarded step ok s' es) :=
      match step s e with
      | none => isTrue trivial
      | some s' => Guarded.decidable s' es
    inferInstanceAs (Decidable (ok s e ∧ _))

/-! ## Induction over runs -/

variable {P : List ε → σ → Prop}

/-- **Induction over a guarded run.** A property of the events taken so far and the state they
lead to, kept by every guarded step, holds after the run. -/
theorem run_history_induction
    (hstep : ∀ h s e s', P h s → ok s e → step s e = some s' → P (h ++ [e]) s')
    {h : List ε} (hs : P h s) (hg : Guarded step ok s es)
    (hrun : run step s es = some t) : P (h ++ es) t := by
  induction es generalizing h s with
  | nil =>
    cases hrun
    simpa using hs
  | cons e es ih =>
    obtain ⟨s', hse, hrest⟩ := run_cons_eq_some.1 hrun
    obtain ⟨hok, hg'⟩ := (guarded_cons s e es).1 hg
    have := ih (hstep h s e s' hs hok hse) (hg' s' hse) hrest
    simpa using this

/-- Induction over a run without a guard, with the events taken so far. -/
theorem run_induction
    (hstep : ∀ h s e s', P h s → step s e = some s' → P (h ++ [e]) s') (hs : P [] s)
    (hrun : run step s es = some t) : P es t := by
  have hg : Guarded step (fun _ _ => True) s es := guarded_of_forall (fun _ _ => trivial) s es
  have := run_history_induction (h := []) (fun h s e s' hP _ => hstep h s e s' hP) hs hg hrun
  simpa using this

/-- **Invariants of guarded runs.** A property of states that every guarded step keeps holds in
every state a guarded run reaches. -/
theorem run_invariant {P : σ → Prop}
    (hstep : ∀ s e s', P s → ok s e → step s e = some s' → P s') (hs : P s)
    (hg : Guarded step ok s es)
    (hrun : run step s es = some t) : P t :=
  run_history_induction (P := fun _ s => P s) (h := [])
    (fun _ s e s' hP hok => hstep s e s' hP hok) hs hg hrun

/-- **Progress.** When an invariant lets every step of a run exist, the run reaches its end. -/
theorem run_isSome {P : σ → Prop}
    (hstep : ∀ s e, P s → ok s e → ∃ s', step s e = some s' ∧ P s') (hs : P s)
    (hg : Guarded step ok s es) :
    ∃ t, run step s es = some t := by
  induction es generalizing s with
  | nil => exact ⟨s, rfl⟩
  | cons e es ih =>
    obtain ⟨hok, hg'⟩ := (guarded_cons s e es).1 hg
    obtain ⟨s', hse, hs'⟩ := hstep s e hs hok
    obtain ⟨t, ht⟩ := ih hs' (hg' s' hse)
    exact ⟨t, run_cons_eq_some.2 ⟨s', hse, ht⟩⟩

/-- Nothing is asked of the events behind a step that does not exist. -/
theorem guarded_append_of_none (hrun : run step s es₁ = none) :
    Guarded step ok s (es₁ ++ es₂) ↔ Guarded step ok s es₁ := by
  induction es₁ generalizing s with
  | nil => cases hrun
  | cons e es ih =>
    rw [cons_append, guarded_cons, guarded_cons]
    refine and_congr_right fun _ => forall₂_congr fun s' hse => ?_
    refine ih ?_
    rwa [run_cons, hse] at hrun

/-- **The guard is the exact condition.** Where a step that breaks the guard exists and a step keeps
a property exactly when it meets the guard, the property holds all along a run exactly when the run
is guarded. -/
theorem guarded_iff_holds_along_of_broken
    (hbroken : ∀ h s e, P h s → ¬ ok s e → ∃ s', step s e = some s')
    (hstep : ∀ h s e s', P h s → step s e = some s' → (P (h ++ [e]) s' ↔ ok s e)) (hs : P [] s)
    (es : List ε) :
    Guarded step ok s es ↔ ∀ h t, h <+: es → run step s h = some t → P h t := by
  induction es using reverseRecOn with
  | nil =>
    refine iff_of_true trivial ?_
    intro h t hinit hrun
    obtain rfl := prefix_nil.1 hinit
    cases hrun
    exact hs
  | append_singleton es e ih =>
    have hlonger : run step s (es ++ [e]) = none →
        ((∀ h t, h <+: es ++ [e] → run step s h = some t → P h t) ↔
          ∀ h t, h <+: es → run step s h = some t → P h t) := by
      intro hnone
      constructor
      · intro hall h t hinit
        exact hall h t (hinit.trans (prefix_append es [e]))
      · intro hall h t hinit ht
        rcases prefix_concat_iff.1 hinit with rfl | hinit
        · rw [hnone] at ht
          cases ht
        · exact hall h t hinit ht
    cases hrun : run step s es with
    | none =>
      have hnone : run step s (es ++ [e]) = none := by rw [run_concat, hrun, Option.bind_none]
      rw [guarded_append_of_none hrun, ih, hlonger hnone]
    | some t =>
      rw [guarded_concat hrun, ih]
      have hrun' : run step s (es ++ [e]) = step t e := by
        rw [run_concat, hrun, Option.bind_some]
      cases hse : step t e with
      | none =>
        rw [hlonger (hrun'.trans hse)]
        refine ⟨And.left, fun hall => ⟨hall, ?_⟩⟩
        by_contra hok
        obtain ⟨t', ht'⟩ := hbroken es t e (hall es t prefix_rfl hrun) hok
        rw [hse] at ht'
        cases ht'
      | some t' =>
        constructor
        · rintro ⟨hall, hok⟩ h u hinit hu
          rcases prefix_concat_iff.1 hinit with rfl | hinit
          · cases ((hrun'.trans hse).symm.trans hu)
            exact (hstep es t e t' (hall es t prefix_rfl hrun) hse).2 hok
          · exact hall h u hinit hu
        · intro hall
          have hshort : ∀ h u, h <+: es → run step s h = some u → P h u := by
            intro h u hinit hu
            exact hall h u (hinit.trans (prefix_append es [e])) hu
          refine ⟨hshort, ?_⟩
          exact (hstep es t e t' (hshort es t prefix_rfl hrun) hse).1
            (hall (es ++ [e]) t' prefix_rfl (hrun'.trans hse))

theorem guarded_iff_holds_along (htotal : ∀ s e, ∃ s', step s e = some s')
    (hstep : ∀ h s e s', P h s → step s e = some s' → (P (h ++ [e]) s' ↔ ok s e)) (hs : P [] s)
    (es : List ε) :
    Guarded step ok s es ↔ ∀ h t, h <+: es → run step s h = some t → P h t :=
  guarded_iff_holds_along_of_broken (fun _ s e _ _ => htotal s e) hstep hs es

/-- The same for a property of states that does not say what carries it: an invariant `I` may be
used, which a step keeps as long as the property holds. -/
theorem guarded_iff_holds_along_of_invariant {I P : σ → Prop}
    (hbroken : ∀ s e, I s → P s → ¬ ok s e → ∃ s', step s e = some s')
    (hinvariant : ∀ s e s', I s → P s → step s e = some s' → P s' → I s')
    (hstep : ∀ s e s', I s → P s → step s e = some s' → (P s' ↔ ok s e)) (hI : I s) (hP : P s)
    (es : List ε) :
    Guarded step ok s es ↔ ∀ h t, h <+: es → run step s h = some t → P t := by
  rw [guarded_iff_holds_along_of_broken (P := fun _ s => I s ∧ P s)
    (fun _ s e hs => hbroken s e hs.1 hs.2)
    (fun _ s e s' hs hse => by
      rw [← hstep s e s' hs.1 hs.2 hse]
      exact ⟨And.right, fun h => ⟨hinvariant s e s' hs.1 hs.2 hse h, h⟩⟩) ⟨hI, hP⟩ es]
  refine ⟨fun hall h t hinit hrun => (hall h t hinit hrun).2, fun hall h t hinit hrun => ?_⟩
  refine ⟨?_, hall h t hinit hrun⟩
  -- on the initial part `h` of the events, where the property holds all along
  induction h using reverseRecOn generalizing t with
  | nil =>
    cases hrun
    exact hI
  | append_singleton h e ih =>
    rw [run_concat, Option.bind_eq_some_iff] at hrun
    obtain ⟨u, hu, hse⟩ := hrun
    have hshort : h <+: es := (prefix_append h [e]).trans hinit
    have hrun : run step s (h ++ [e]) = some t := by rw [run_concat, hu, Option.bind_some, hse]
    exact hinvariant u e t (ih u hshort hu) (hall h u hshort hu) hse (hall _ t hinit hrun)

/-- **Forward simulation.** When every guarded step is matched by a step of `astep` that keeps the
relation `R`, a guarded run is matched by the run of `astep` on the same events. -/
theorem run_simulation {τ : Type*} {astep : τ → ε → τ} {R : σ → τ → Prop}
    (hstep : ∀ s a e s', R s a → ok s e → step s e = some s' → R s' (astep a e)) {a : τ}
    (hs : R s a) (hg : Guarded step ok s es)
    (hrun : run step s es = some t) : R t (es.foldl astep a) := by
  have := run_history_induction (P := fun h s => R s (h.foldl astep a)) (h := [])
    (fun h s e s' hR hok hse => by
      rw [foldl_concat]
      exact hstep s _ e s' hR hok hse) hs hg hrun
  simpa using this

end MongooseIM.Transition
