import Mathlib.Data.List.Nodup
import MongooseIM.Graph.Acyclic

/-! # Depth-first search

Searches of a graph that is given by the successors of each vertex. -/

namespace MongooseIM.Graph

open Relation List

variable {α : Type*}

/-- The list is a walk of one step or more from the first vertex to the last. -/
inductive Walk (r : α → α → Prop) : α → α → List α → Prop
  | single {a b : α} (h : r a b) : Walk r a b [a, b]
  | cons {a b c : α} {l : List α} (h : r a b) (hl : Walk r b c l) : Walk r a c (a :: l)

section

variable {r s : α → α → Prop} {a b : α} {l : List α}

theorem Walk.transGen (h : Walk r a b l) : TransGen r a b := by
  induction h with
  | single h => exact .single h
  | cons h _ ih => exact .head h ih

theorem Walk.exists_cons (h : Walk r a b l) : ∃ l', l = a :: l' := by
  cases h with
  | single h => exact ⟨_, rfl⟩
  | cons h hl => exact ⟨_, rfl⟩

/-- A walk along steps that are also steps of another relation. -/
theorem Walk.of_pairs (h : Walk r a b l) (hs : ∀ p ∈ l.zip l.tail, r p.1 p.2 → s p.1 p.2) :
    Walk s a b l := by
  induction h with
  | @single a b h => exact .single (hs (a, b) (by simp) h)
  | @cons a b c l h hl ih =>
    obtain ⟨l', rfl⟩ := hl.exists_cons
    refine .cons (hs (a, b) (by simp) h) (ih fun p hp => hs p ?_)
    simp only [tail_cons, zip_cons_cons, mem_cons] at hp ⊢
    exact Or.inr hp

end

variable [DecidableEq α] (out : α → List α)

/-- `a` leads to `b`. -/
def Leads (a b : α) : Prop := b ∈ out a

/-- One successor of `a` in a search, which goes on from it if it is new. -/
def tryNext (target : α) (search : α → List α → Option (List α) × List α) (a : α)
    (found : Option (List α) × List α) (b : α) : Option (List α) × List α :=
  match found with
  | (some path, visited) => (some path, visited)
  | (none, visited) =>
    if b = target then (some [a, b], visited)
    else if b ∈ visited then (none, visited)
    else ((search b (b :: visited)).1.map (a :: ·), (search b (b :: visited)).2)

/-- `digraph:one_path/8`: a path from `a` to the target, and the vertices that have been visited.
The search goes as many steps deep as the number says. -/
def onePath (target : α) : ℕ → α → List α → Option (List α) × List α
  | 0, _, visited => (none, visited)
  | n + 1, a, visited => (out a).foldl (tryNext target (onePath target n) a) (none, visited)

section

variable {out} {target a b : α} {before todo vertices : List α}
  {found : Option (List α) × List α}

/-- What a search from `a` knows, with the successors that are still to come: a path, or that the
vertices it has left behind lead nowhere new. -/
structure Searching (out : α → List α) (target a : α) (before todo : List α)
    (found : Option (List α) × List α) : Prop where
  walk : ∀ path, found.1 = some path → Walk (Leads out) a target path
  subset : before ⊆ found.2
  closed : found.1 = none → ∀ x ∈ found.2, x ∉ before → ∀ y ∈ out x, y ≠ target ∧ y ∈ found.2
  done : found.1 = none → ∀ y ∈ out a, y ∉ todo → y ≠ target ∧ y ∈ found.2

omit [DecidableEq α] in
theorem searching_start (out : α → List α) (target a : α) (before : List α) :
    Searching out target a before (out a) (none, before) where
  walk := by simp
  subset := List.Subset.refl _
  closed _ x hx hnot := absurd hx hnot
  done _ y hy hnot := absurd hy hnot

theorem length_filter_notMem_lt {seen seen' : List α} (hsub : seen ⊆ seen') (hb : b ∈ vertices)
    (hnew : b ∉ seen) (hseen : b ∈ seen') :
    (vertices.filter (· ∉ seen')).length < (vertices.filter (· ∉ seen)).length := by
  have hsublist : (vertices.filter (· ∉ seen')).Sublist (vertices.filter (· ∉ seen)) := by
    apply monotone_filter_right
    intro x hx
    simp only [decide_eq_true_eq] at hx ⊢
    exact fun h => hx (hsub h)
  refine Nat.lt_of_le_of_ne hsublist.length_le fun heq => ?_
  have hmem : b ∈ vertices.filter (· ∉ seen') := by
    rw [hsublist.eq_of_length heq]
    simp [hb, hnew]
  simp [hseen] at hmem

theorem Searching.tryNext {search : α → List α → Option (List α) × List α} {n : ℕ}
    (hsearch : ∀ b seen, (vertices.filter (· ∉ seen)).length < n →
    Searching out target b seen [] (search b seen))
    (hb : b ∈ out a) (hvertex : b ∈ vertices)
    (hfuel : (vertices.filter (· ∉ before)).length < n + 1)
    (h : Searching out target a before (b :: todo) found) :
    Searching out target a before todo (tryNext target search a found b) := by
  obtain ⟨path?, seen⟩ := found
  cases path? with
  | some path => exact ⟨h.walk, h.subset, by simp [Graph.tryNext], by simp [Graph.tryNext]⟩
  | none =>
    have hclosed := h.closed rfl
    have hdone := h.done rfl
    unfold Graph.tryNext
    dsimp only
    split_ifs with htarget hseen
    · refine ⟨fun path hpath => ?_, h.subset, by simp, by simp⟩
      obtain rfl : [a, b] = path := by simpa using hpath
      exact htarget ▸ .single hb
    · refine { h with done := fun _ y hy hnot => ?_ }
      by_cases hyb : y = b
      · exact hyb ▸ ⟨htarget, hseen⟩
      · exact hdone y hy (by simp [hyb, hnot])
    · have hfewer : (vertices.filter (· ∉ b :: seen)).length < n := by
        have hle : (vertices.filter (· ∉ seen)).length ≤ (vertices.filter (· ∉ before)).length := by
          apply List.Sublist.length_le
          apply monotone_filter_right
          intro x hx
          simp only [decide_eq_true_eq] at hx ⊢
          exact fun hbefore => hx (h.subset hbefore)
        have hlt := length_filter_notMem_lt (subset_cons_self _ _) hvertex hseen mem_cons_self
        omega
      have hnext := hsearch b (b :: seen) hfewer
      have hseenSub : ∀ x ∈ seen, x ∈ (search b (b :: seen)).2 :=
        fun x hx => hnext.subset (mem_cons_of_mem _ hx)
      refine ⟨fun path hpath => ?_, fun x hx => hseenSub x (h.subset hx),
        fun hnone x hx hnot => ?_, fun hnone y hy hnot => ?_⟩
      · obtain ⟨path', hpath', rfl⟩ := Option.map_eq_some_iff.1 hpath
        exact .cons hb (hnext.walk path' hpath')
      · rw [Option.map_eq_none_iff] at hnone
        intro y hy
        -- visited before `b`, or `b` itself, or behind it
        by_cases hxseen : x ∈ seen
        · exact ⟨(hclosed x hxseen hnot y hy).1, hseenSub y (hclosed x hxseen hnot y hy).2⟩
        · by_cases hxb : x = b
          · subst hxb
            exact hnext.done hnone y hy not_mem_nil
          · exact hnext.closed hnone x hx (by simp [hxb, hxseen]) y hy
      · by_cases hyb : y = b
        · subst hyb
          exact ⟨htarget, hnext.subset mem_cons_self⟩
        · have := hdone y hy (by simp [hyb, hnot])
          exact ⟨this.1, hseenSub y this.2⟩

section

variable (hout : ∀ x, out x ⊆ vertices)

include hout

/-- **The search.** As deep as there are vertices left it finds a path, or `a` is done. -/
theorem searching_onePath {n : ℕ} (a : α) (before : List α)
    (hfuel : (vertices.filter (· ∉ before)).length < n) :
    Searching out target a before [] (onePath out target n a before) := by
  induction n generalizing a before with
  | zero => omega
  | succ n ih =>
    have hloop : ∀ (succs : List α) (found : Option (List α) × List α), succs ⊆ out a →
        Searching out target a before succs found →
        Searching out target a before []
          (succs.foldl (tryNext target (onePath out target n) a) found) := by
      intro succs
      induction succs with
      | nil => exact fun found _ h => h
      | cons b succs ihs =>
        intro found hsub h
        have hb : b ∈ out a := hsub mem_cons_self
        apply ihs _ fun x hx => hsub (mem_cons_of_mem _ hx)
        exact h.tryNext ih hb (hout a hb) hfuel
    exact hloop (out a) (none, before) (List.Subset.refl _) (searching_start out target a before)

theorem walk_of_onePath {path : List α}
    (h : (onePath out target (vertices.length + 1) a [a]).1 = some path) :
    Walk (Leads out) a target path :=
  (searching_onePath hout a [a] (Nat.lt_succ_of_le (length_filter_le _ _))).walk path h

theorem not_reaches_of_onePath (h : (onePath out target (vertices.length + 1) a [a]).1 = none) :
    ¬ TransGen (Leads out) a target := by
  have hend : Searching out target a [a] [] (onePath out target (vertices.length + 1) a [a]) :=
    searching_onePath hout a [a] (Nat.lt_succ_of_le (length_filter_le _ _))
  -- what has been visited is closed under successors, and the target is not among these
  have hstep : ∀ x ∈ (onePath out target (vertices.length + 1) a [a]).2, ∀ y ∈ out x,
      y ≠ target ∧ y ∈ (onePath out target (vertices.length + 1) a [a]).2 := by
    intro x hx y hy
    by_cases hxa : x = a
    · exact hend.done h y (hxa ▸ hy) not_mem_nil
    · exact hend.closed h x hx (by simpa using hxa) y hy
  have hall : ∀ y, TransGen (Leads out) a y →
      y ≠ target ∧ y ∈ (onePath out target (vertices.length + 1) a [a]).2 := by
    intro y hreach
    induction hreach with
    | single hy => exact hstep a (hend.subset mem_cons_self) _ hy
    | tail _ hy ih => exact hstep _ ih.2 _ hy
  exact fun hreach => (hall target hreach).1 rfl

end

end

/-- `digraph_utils:posttraverse/4`, so many steps deep: the vertices visited, and those left, the
last one first. -/
def posttraverse : ℕ → List α → List α × List α → List α × List α
  | 0, _, s => s
  | n + 1, vs, s => vs.foldl (fun s v =>
    if v ∈ s.1 then s
    else
      let below := posttraverse n (out v) (v :: s.1, s.2)
      (below.1, v :: below.2)) s

/-- `digraph_utils:topsort/1` of an acyclic graph. -/
def topsort (vertices : List α) : List α :=
  (posttraverse out (vertices.length + 1) vertices ([], [])).2

section

variable {out} {vertices vs : List α} {s s' : List α × List α}

/-- The vertices that have been left are closed under successors and stand before them. -/
structure Left (out : α → List α) (vertices : List α) (s : List α × List α) : Prop where
  subset : s.2 ⊆ s.1
  mem : s.1 ⊆ vertices
  nodup : s.2.Nodup
  closed : ∀ x ∈ s.2, out x ⊆ s.2
  pairwise : s.2.Pairwise fun a b => ¬ Leads out b a

/-- What a part of the traversal does: the vertices that have been entered but not left are the same
ones after it. -/
structure Traversed (s s' : List α × List α) : Prop where
  visited : s.1 ⊆ s'.1
  left : s.2 ⊆ s'.2
  open_iff : ∀ x, (x ∈ s'.1 ∧ x ∉ s'.2) ↔ (x ∈ s.1 ∧ x ∉ s.2)

omit [DecidableEq α] in
theorem Traversed.refl (s : List α × List α) : Traversed s s :=
  ⟨List.Subset.refl _, List.Subset.refl _, fun _ => Iff.rfl⟩

omit [DecidableEq α] in
theorem Traversed.trans {s'' : List α × List α} (h : Traversed s s') (h' : Traversed s' s'') :
    Traversed s s'' :=
  ⟨List.Subset.trans h.visited h'.visited, List.Subset.trans h.left h'.left,
    fun x => (h'.open_iff x).trans (h.open_iff x)⟩

/-- The ways into a vertex that has been entered but not left: it leads to all that come next. -/
def OpenLeads (out : α → List α) (s : List α × List α) (vs : List α) : Prop :=
  ∀ x ∈ s.1, x ∉ s.2 → ∀ v ∈ vs, TransGen (Leads out) x v

/-- A new vertex is left when its successors have been. -/
theorem Left.leave {v : α} (hleft : Left out vertices s) (hseen : v ∉ s.1) {t : List α × List α}
    (ht : Left out vertices t) (htraversed : Traversed (v :: s.1, s.2) t) (hsucc : out v ⊆ t.2) :
    Left out vertices (t.1, v :: t.2) ∧ Traversed s (t.1, v :: t.2) := by
  have hvopen := (htraversed.open_iff v).2 ⟨mem_cons_self, fun hmem => hseen (hleft.subset hmem)⟩
  refine ⟨⟨cons_subset.2 ⟨hvopen.1, ht.subset⟩, ht.mem, nodup_cons.2 ⟨hvopen.2, ht.nodup⟩,
    ?_, ?_⟩, ⟨?_, ?_, ?_⟩⟩
  · intro x hx y hy
    rcases mem_cons.1 hx with rfl | hx
    · exact mem_cons_of_mem _ (hsucc hy)
    · exact mem_cons_of_mem _ (ht.closed x hx hy)
  · exact pairwise_cons.2 ⟨fun b hb hlead => hvopen.2 (ht.closed b hb hlead), ht.pairwise⟩
  · exact fun x hx => htraversed.visited (mem_cons_of_mem _ hx)
  · exact fun x hx => mem_cons_of_mem _ (htraversed.left hx)
  · intro x
    by_cases hxv : x = v
    · subst hxv
      simp [hseen]
    · simpa [hxv] using htraversed.open_iff x

section

variable (hacyclic : Acyclic (Leads out)) (hout : ∀ x, out x ⊆ vertices)

include hacyclic hout

/-- **The traversal.** In an acyclic graph all the vertices are left in the end. -/
theorem left_posttraverse {n : ℕ} (vs : List α) (s : List α × List α) (hvs : vs ⊆ vertices)
    (hfuel : (vertices.filter (· ∉ s.1)).length < n) (hleft : Left out vertices s)
    (hopen : OpenLeads out s vs) :
    Left out vertices (posttraverse out n vs s) ∧ Traversed s (posttraverse out n vs s) ∧
    vs ⊆ (posttraverse out n vs s).2 := by
  induction n generalizing vs s with
  | zero => omega
  | succ n ih =>
    unfold posttraverse
    induction vs generalizing s with
    | nil => exact ⟨hleft, .refl s, nil_subset _⟩
    | cons v vs ihs =>
      have hv : v ∈ vertices := hvs mem_cons_self
      have hrest : vs ⊆ vertices := fun x hx => hvs (mem_cons_of_mem _ hx)
      rw [foldl_cons]
      -- it is enough that `v` is left and the others are as before
      suffices hone : ∀ t, Left out vertices t → Traversed s t → v ∈ t.2 →
          Left out vertices (vs.foldl _ t) ∧ Traversed s (vs.foldl _ t) ∧
            v :: vs ⊆ (vs.foldl _ t).2 by
        split_ifs with hseen
        · refine hone s hleft (.refl s) ?_
          by_contra hnot
          exact hacyclic v (hopen v hseen hnot v mem_cons_self)
        · have hfewer : (vertices.filter (· ∉ v :: s.1)).length < n := by
            have := length_filter_notMem_lt (subset_cons_self _ _) hv hseen mem_cons_self
            omega
          obtain ⟨hl, ht, hsucc⟩ := ih (out v) (v :: s.1, s.2) (hout v) hfewer
            ⟨fun x hx => mem_cons_of_mem _ (hleft.subset hx),
              cons_subset.2 ⟨hv, hleft.mem⟩, hleft.nodup, hleft.closed, hleft.pairwise⟩ (by
                intro x hx hnot w hw
                rcases mem_cons.1 hx with rfl | hx
                · exact .single hw
                · exact (hopen x hx hnot v mem_cons_self).tail hw)
          obtain ⟨hl, ht⟩ := hleft.leave hseen hl ht hsucc
          exact hone _ hl ht mem_cons_self
      intro t hl ht hvt
      have hfuel' : (vertices.filter (· ∉ t.1)).length < n + 1 := by
        refine Nat.lt_of_le_of_lt (List.Sublist.length_le ?_) hfuel
        apply monotone_filter_right
        intro x hx
        simp only [decide_eq_true_eq] at hx ⊢
        exact fun hs => hx (ht.visited hs)
      obtain ⟨hl', ht', hsub⟩ := ihs t hrest hfuel' hl fun x hx hnot w hw =>
        hopen x ((ht.open_iff x).1 ⟨hx, hnot⟩).1 ((ht.open_iff x).1 ⟨hx, hnot⟩).2 w
          (mem_cons_of_mem _ hw)
      exact ⟨hl', ht.trans ht', cons_subset.2 ⟨ht'.left hvt, hsub⟩⟩

theorem left_topsort :
    Left out vertices (posttraverse out (vertices.length + 1) vertices ([], [])) ∧
    vertices ⊆ topsort out vertices := by
  obtain ⟨hleft, -, hall⟩ := left_posttraverse hacyclic hout (n := vertices.length + 1) vertices
    ([], []) (List.Subset.refl _) (Nat.lt_succ_of_le (length_filter_le _ _))
    ⟨nil_subset _, nil_subset _, nodup_nil, by simp, List.Pairwise.nil⟩ (by
      intro x hx
      simp at hx)
  exact ⟨hleft, hall⟩

theorem nodup_topsort : (topsort out vertices).Nodup := (left_topsort hacyclic hout).1.nodup

theorem mem_topsort {v : α} : v ∈ topsort out vertices ↔ v ∈ vertices := by
  obtain ⟨hleft, hall⟩ := left_topsort hacyclic hout
  exact ⟨fun h => hleft.mem (hleft.subset h), fun h => hall h⟩

/-- **Topological order.** No vertex stands behind one that it leads to. -/
theorem pairwise_topsort : (topsort out vertices).Pairwise fun a b => ¬ Leads out b a :=
  (left_topsort hacyclic hout).1.pairwise

end

end

end MongooseIM.Graph
