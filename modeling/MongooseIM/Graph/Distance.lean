import Mathlib.Data.Nat.Find

/-! # Distances in a directed graph

Walks with their lengths, and the length of the shortest ones: next to the vertices at one distance
stand those at the next one. -/

namespace MongooseIM.Graph

variable {α : Type*} {r : α → α → Prop} {a b : α} {m n : ℕ}

/-- A walk of `n` edges leads from `a` to `b`. -/
def Steps (r : α → α → Prop) : ℕ → α → α → Prop
  | 0, a, b => a = b
  | n + 1, a, b => ∃ c, Steps r n a c ∧ r c b

/-- The shortest walks from `a` to `b` have `n` edges. -/
def Distance (r : α → α → Prop) (a b : α) (n : ℕ) : Prop :=
  Steps r n a b ∧ ∀ m < n, ¬ Steps r m a b

theorem Distance.eq (h : Distance r a b m) (h' : Distance r a b n) : m = n := by
  rcases lt_trichotomy m n with hlt | heq | hlt
  · exact absurd h.1 (h'.2 m hlt)
  · exact heq
  · exact absurd h'.1 (h.2 n hlt)

/-- What is reached has a distance, no greater than the walk. -/
theorem Steps.exists_distance (h : Steps r n a b) : ∃ m ≤ n, Distance r a b m := by
  classical
  have hex : ∃ m, Steps r m a b := ⟨n, h⟩
  exact ⟨Nat.find hex, Nat.find_min' hex h, Nat.find_spec hex, fun m hm => Nat.find_min hex hm⟩

@[simp] theorem distance_zero_iff : Distance r a b 0 ↔ a = b :=
  and_iff_left fun _ hlt => absurd hlt (Nat.not_lt_zero _)

/-- **One level further**: next to the last level, and in none so far. -/
theorem distance_succ_iff : Distance r a b (n + 1) ↔
    (∃ c, Distance r a c n ∧ r c b) ∧ ∀ m < n + 1, ¬ Distance r a b m := by
  constructor
  · rintro ⟨⟨c, hsteps, hedge⟩, hmin⟩
    refine ⟨⟨c, ⟨hsteps, fun m hlt hc => ?_⟩, hedge⟩, fun m hlt hd => hmin m hlt hd.1⟩
    exact hmin (m + 1) (Nat.succ_lt_succ hlt) ⟨c, hc, hedge⟩
  · rintro ⟨⟨c, hc, hedge⟩, hmin⟩
    refine ⟨⟨c, hc.1, hedge⟩, fun m hlt hsteps => ?_⟩
    obtain ⟨k, hk, hd⟩ := hsteps.exists_distance
    exact hmin k (Nat.lt_of_le_of_lt hk hlt) hd

/-- A property of lengths that excludes the length `n`, and with a length the next one, excludes all
from `n` on. -/
theorem not_of_le (p : ℕ → α → Prop) (hsucc : ∀ k b, p (k + 1) b → ∃ c, p k c)
    (hn : ∀ b, ¬ p n b) (h : n ≤ m) : ∀ b, ¬ p m b := by
  induction m, h using Nat.le_induction with
  | base => exact hn
  | succ m _ ih =>
    intro b hb
    obtain ⟨c, hc⟩ := hsucc m b hb
    exact ih c hc

theorem not_steps_of_le (hn : ∀ b, ¬ Steps r n a b) (h : n ≤ m) : ∀ b, ¬ Steps r m a b :=
  not_of_le (fun k b => Steps r k a b) (fun _ _ ⟨c, hc, _⟩ => ⟨c, hc⟩) hn h

theorem not_distance_of_le (hn : ∀ b, ¬ Distance r a b n) (h : n ≤ m) :
    ∀ b, ¬ Distance r a b m := by
  refine not_of_le (fun k b => Distance r a b k) (fun k b hb => ?_) hn h
  obtain ⟨⟨c, hc, -⟩, -⟩ := distance_succ_iff.1 hb
  exact ⟨c, hc⟩

end MongooseIM.Graph
