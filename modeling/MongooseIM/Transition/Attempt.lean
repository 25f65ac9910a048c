import MongooseIM.Transition.Run

/-! # How a computation that may fail ends

`Ends x P Q` says of `x : Except ε α` how it ends: in a value with `P`, or in an error with `Q`.
It is read through a program from the front: `ends_bind` for a sequence, `ends_ite` for a branch,
`ends_foldlM` for a loop, and `ends_foldlM_of_guarded` for one whose passes meet a guard; where one
does not, there is `foldlM_error_of_not_guarded`. -/

namespace MongooseIM.Transition

universe u

variable {ε : Type*} {α β : Type u} {P P' : α → Prop} {Q Q' : ε → Prop}

/-- The computation ends in a value with `P` or in an error with `Q`. -/
def Ends (x : Except ε α) (P : α → Prop) (Q : ε → Prop) : Prop :=
  match x with
  | .ok a => P a
  | .error e => Q e

@[simp] theorem ends_ok (a : α) : Ends (.ok a : Except ε α) P Q ↔ P a := Iff.rfl

@[simp] theorem ends_error (e : ε) : Ends (.error e : Except ε α) P Q ↔ Q e := Iff.rfl

@[simp] theorem ends_pure (a : α) : Ends (pure a : Except ε α) P Q ↔ P a := Iff.rfl

variable {x : Except ε α}

/-- A sequence ends as its second part does after the first one. -/
theorem ends_bind {f : α → Except ε β} {P : β → Prop} :
    Ends (x >>= f) P Q ↔ Ends x (fun a => Ends (f a) P Q) Q := by
  cases x <;> rfl

theorem ends_map {f : α → β} {P : β → Prop} : Ends (f <$> x) P Q ↔ Ends x (fun a => P (f a)) Q := by
  cases x <;> rfl

/-- A branch ends well if it does whichever way the test goes. -/
theorem ends_ite {c : Prop} [Decidable c] {y : Except ε α} (hx : c → Ends x P Q)
    (hy : ¬ c → Ends y P Q) : Ends (if c then x else y) P Q := by
  by_cases h : c
  · rw [if_pos h]
    exact hx h
  · rw [if_neg h]
    exact hy h

theorem Ends.mono (h : Ends x P Q) (hP : ∀ a, P a → P' a)
    (hQ : ∀ e, Q e → Q' e) : Ends x P' Q' := by
  cases x with
  | ok a => exact hP a h
  | error e => exact hQ e h

theorem ends_of_ok (h : ∀ a, x = .ok a → P a) : Ends x P fun _ => True := by
  cases x with
  | ok a => exact h a rfl
  | error e => trivial

theorem Ends.and (h : Ends x P Q) (h' : Ends x P' Q') :
    Ends x (fun a => P a ∧ P' a) fun e => Q e ∧ Q' e := by
  cases x with
  | ok a => exact ⟨h, h'⟩
  | error e => exact ⟨h, h'⟩

variable {f : β → α → Except ε β} {l : List α} {b : β} {I : List α → β → Prop}

/-- **Loops.** What every pass keeps, with the elements still to come, holds at the end. -/
theorem ends_foldlM (hstep : ∀ a as b, I (a :: as) b → Ends (f b a) (I as) Q) (h : I l b) :
    Ends (l.foldlM f b) (I []) Q := by
  induction l generalizing b with
  | nil => exact h
  | cons a as ih =>
    rw [List.foldlM_cons, ends_bind]
    exact (hstep a as b h).mono (fun _ hb => ih hb) fun _ he => he

variable {ok : β → α → Prop}

/-- **Guarded loops.** The same where only the passes that meet a guard are known to keep it. -/
theorem ends_foldlM_of_guarded (hstep : ∀ a as b, I (a :: as) b → ok b a → Ends (f b a) (I as) Q)
    (h : I l b) (hguarded : Guarded (fun b a => (f b a).toOption) ok b l) :
    Ends (l.foldlM f b) (I []) Q := by
  induction l generalizing b with
  | nil => exact h
  | cons a as ih =>
    rw [guarded_cons] at hguarded
    rw [List.foldlM_cons, ends_bind]
    have hfirst := hstep a as b h hguarded.1
    cases hf : f b a with
    | error e =>
      rw [hf] at hfirst
      exact hfirst
    | ok b' =>
      rw [hf] at hfirst
      exact ih hfirst (hguarded.2 b' (by rw [hf]; rfl))

/-- A loop with a pass that does not meet its guard, where such a pass ends in an error. -/
theorem foldlM_error_of_not_guarded (hstep : ∀ b a, ¬ ok b a → ∃ e, f b a = .error e ∧ Q e)
    (hguarded : ¬ Guarded (fun b a => (f b a).toOption) ok b l) :
    ∃ e, l.foldlM f b = .error e ∧ Q e := by
  induction l generalizing b with
  | nil => exact absurd trivial hguarded
  | cons a as ih =>
    rw [List.foldlM_cons]
    by_cases hok : ok b a
    · rw [guarded_cons, not_and] at hguarded
      have hrest := hguarded hok
      cases hf : f b a with
      | error e =>
        rw [hf] at hrest
        exact absurd (fun s' hs' => nomatch (hs' : none = some s')) hrest
      | ok b' =>
        refine ih fun hb' => hrest fun s' hs' => ?_
        rw [hf] at hs'
        cases hs'
        exact hb'
    · obtain ⟨e, hf, hq⟩ := hstep b a hok
      exact ⟨e, by rw [hf]; rfl, hq⟩

end MongooseIM.Transition
