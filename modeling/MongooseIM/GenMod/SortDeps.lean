import MongooseIM.GenMod.ResolveDeps
import MongooseIM.Graph.DepthFirst
import MongooseIM.Transition.Attempt

/-! # Sorting modules by their dependencies

`gen_mod_deps:sort_deps/2`: the dependencies are added one by one to an acyclic graph, a hard one
that would close a cycle in the place of a dependency on the cycle that is not hard. -/

namespace MongooseIM.GenMod

open Graph Transition Relation List

/-- An edge of a graph. -/
structure Edge (α : Type*) where
  id : ℕ
  source : α
  target : α
  label : Hardness
  deriving DecidableEq

/-- A graph of `digraph`, made with the option `acyclic`. -/
structure Digraph (α : Type*) where
  vertices : List α := []
  /-- The edges, in the order in which they were added. -/
  edges : List (Edge α) := []
  next : ℕ := 0

/-- The errors of `sort_deps/2`. -/
inductive Error (α : Type*)
  | dependencyCycle (cyclePath : List α)
  /-- `find_edge/3` finds several edges. -/
  | caseClause (edges : List (Edge α))
  /-- The second `digraph:add_edge/4` returns an error. -/
  | badmatch (cyclePath : List α)
  deriving DecidableEq

universe u

variable {α ω : Type u} [DecidableEq α]

namespace Digraph

variable (g : Digraph α)

/-- `digraph:out_neighbours/2`, the newest edge first -/
def outNeighbours (v : α) : List α :=
  ((g.edges.filter fun e => e.source = v).map Edge.target).reverse

/-- `digraph:add_vertex/2` -/
def addVertex (v : α) : Digraph α :=
  if v ∈ g.vertices then g else { g with vertices := g.vertices ++ [v] }

variable (v₁ v₂ : α)

/-- `digraph:get_path/3` -/
def getPath : Option (List α) :=
  (onePath g.outNeighbours v₂ (g.vertices.length + 1) v₁ [v₁]).1

/-- The edge is added, whatever it closes. -/
def insertEdge (label : Hardness) : Digraph α :=
  { g with edges := g.edges ++ [⟨g.next, v₁, v₂, label⟩], next := g.next + 1 }

/-- `digraph:add_edge/4`; the error is `{bad_edge, Path}`. -/
def addEdge (label : Hardness) : Except (List α) (Digraph α) :=
  if v₁ = v₂ then .error [v₁, v₂]
  else
    match g.getPath v₂ v₁ with
    | none => .ok (g.insertEdge v₁ v₂ label)
    | some path => .error path

/-- `digraph:del_edge/2` -/
def delEdge (id : ℕ) : Digraph α :=
  { g with edges := g.edges.filter fun e => e.id ≠ id }

/-- The edges from `a` to `b`. -/
def edgesBetween (a b : α) : List (Edge α) :=
  g.edges.filter fun e => e.source = a ∧ e.target = b

end Digraph

/-- `find_edge/3` -/
def findEdge (g : Digraph α) (a b : α) : Except (Error α) (Option (Edge α)) :=
  match g.edgesBetween a b with
  | [e] => .ok (some e)
  | [] => .ok none
  | es => .error (.caseClause es)

/-- The pairs of vertices that follow each other on a cycle. -/
def cyclePairs (cyclePath : List α) : List (α × α) :=
  cyclePath.zip (cyclePath.tail ++ cyclePath.head?.toList)

/-- The edges of `find_soft_edge/2` between the pairs of vertices. -/
def findEdges (g : Digraph α) : List (α × α) → Except (Error α) (List (Edge α))
  | [] => .ok []
  | p :: pairs => do
      let edge ← findEdge g p.1 p.2
      let edges ← findEdges g pairs
      return edge.toList ++ edges

/-- `find_soft_edge/2` -/
def findSoftEdge (g : Digraph α) (cyclePath : List α) : Except (Error α) (Option (Edge α)) := do
  let edges ← findEdges g (cyclePairs cyclePath)
  match edges.find? fun e => e.label = .optional with
  | none => return edges.find? fun e => e.label = .soft
  | some e => return some e

/-- `process_dep/4` -/
def processDep (module : α) (g : Digraph α) (dep : ModuleDep α ω) : Except (Error α) (Digraph α) :=
  let g := g.addVertex dep.name
  match g.addEdge dep.name module dep.hardness with
  | .ok g => .ok g
  | .error cyclePath =>
    if dep.hardness = .hard then do
      match ← findSoftEdge g cyclePath with
      | none => .error (.dependencyCycle cyclePath)
      | some e =>
        match (g.delEdge e.id).addEdge dep.name module .hard with
        | .ok g => return g
        | .error path => .error (.badmatch path)
    else .ok g

section

variable (deps : α → Option (ω → List (Dep α ω)))

/-- `process_module_dep/4` -/
def processModuleDep (g : Digraph α) (entry : Σ _ : α, ω) : Except (Error α) (Digraph α) :=
  (getDeps deps entry.1 entry.2).foldlM (processDep entry.1) (g.addVertex entry.1)

variable (modules : AList fun _ : α => ω)

/-- `sort_deps/2` -/
def sortDeps : Except (Error α) (List (α × ω)) := do
  let g ← modules.entries.foldlM (processModuleDep deps) {}
  return (topsort g.outNeighbours g.vertices).filterMap fun m =>
    (modules.lookup m).map fun opts => (m, opts)

/-- A module that is resolved depends hard on another one. -/
def DependsHard (module dep : α) : Prop :=
  ∃ opts, modules.lookup module = some opts ∧
    ∃ d ∈ getDeps deps module opts, d.hardness = .hard ∧ d.name = dep

/-- `sort_deps/2` fails with a cycle if there is one of hard dependencies, and else returns every
module once, behind those that it depends on hard. -/
def SortsRight : Prop :=
  (¬ Acyclic (DependsHard deps modules) →
    ∃ cyclePath, sortDeps deps modules = .error (.dependencyCycle cyclePath)) ∧
  (Acyclic (DependsHard deps modules) →
    ∃ sorted, sortDeps deps modules = .ok sorted ∧
      sorted.Perm (modules.entries.map fun e => (e.1, e.2)) ∧
      sorted.Pairwise fun a b => ¬ DependsHard deps modules a.1 b.1)

/-- When a hard dependency closes a cycle, the path found has no double edges, and no other path is
left when the edge that is not hard is dropped. -/
def Clear (module : α) (g : Digraph α) (dep : ModuleDep α ω) : Prop :=
  let g := g.addVertex dep.name
  dep.hardness = .hard → dep.name ≠ module → ∀ path, g.getPath module dep.name = some path →
    (∀ p ∈ cyclePairs path, (g.edgesBetween p.1 p.2).length ≤ 1) ∧
      ∀ e, findSoftEdge g path = .ok (some e) → (g.delEdge e.id).getPath module dep.name = none

/-- The dependencies of a module are clear. -/
def ClearModule (g : Digraph α) (entry : Σ _ : α, ω) : Prop :=
  Guarded (fun g dep => (processDep entry.1 g dep).toOption) (Clear entry.1) (g.addVertex entry.1)
    (getDeps deps entry.1 entry.2)

/-- All dependencies are clear, in the order in which they are added. -/
def ClearModules : Prop :=
  Guarded (fun g entry => (processModuleDep deps g entry).toOption) (ClearModule deps) {}
    modules.entries

end

section

variable {g g' : Digraph α} {a b v : α} {label : Hardness}

theorem Digraph.leads_iff :
    Leads g.outNeighbours a b ↔ ∃ e ∈ g.edges, e.source = a ∧ e.target = b := by
  simp [Leads, Digraph.outNeighbours, and_assoc]

theorem Digraph.leads_insertEdge (v₁ v₂ : α) : Leads (g.insertEdge v₁ v₂ label).outNeighbours a b ↔
    Leads g.outNeighbours a b ∨ (v₁ = a ∧ v₂ = b) := by
  simp [Digraph.leads_iff, Digraph.insertEdge, or_and_right, exists_or]

@[simp] theorem Digraph.edges_addVertex (g : Digraph α) (v : α) :
    (g.addVertex v).edges = g.edges := by
  unfold Digraph.addVertex
  split <;> rfl

@[simp] theorem Digraph.next_addVertex (g : Digraph α) (v : α) : (g.addVertex v).next = g.next := by
  unfold Digraph.addVertex
  split <;> rfl

theorem Digraph.mem_vertices_addVertex {w : α} :
    w ∈ (g.addVertex v).vertices ↔ w ∈ g.vertices ∨ w = v := by
  unfold Digraph.addVertex
  split
  next h => exact ⟨Or.inl, fun hw => hw.elim id fun heq => heq ▸ h⟩
  next => simp

/-- A graph as the dependencies leave it; `hard` says which ones are hard. -/
structure Digraph.Built (hard : α → α → Prop) (g : Digraph α) : Prop where
  endpoints : ∀ e ∈ g.edges, e.source ∈ g.vertices ∧ e.target ∈ g.vertices
  ids : (g.edges.map Edge.id).Nodup
  fresh : ∀ e ∈ g.edges, e.id < g.next
  acyclic : Acyclic (Leads g.outNeighbours)
  hardEdges : ∀ e ∈ g.edges, e.label = .hard → hard e.target e.source

/-- A hard dependency has its edge. -/
def Digraph.HasHard (g : Digraph α) (module dep : α) : Prop :=
  ∃ e ∈ g.edges, e.source = dep ∧ e.target = module ∧ e.label = .hard

variable {hard : α → α → Prop}

theorem Digraph.Built.outNeighbours_subset (h : g.Built hard) (v : α) :
    g.outNeighbours v ⊆ g.vertices := by
  intro w hw
  obtain ⟨e, he, -, rfl⟩ := Digraph.leads_iff.1 hw
  exact (h.endpoints e he).2

theorem Digraph.built_empty : (({} : Digraph α)).Built hard where
  endpoints := by simp
  ids := by simp
  fresh := by simp
  acyclic := acyclic_of_empty fun a b h => by simp [Digraph.leads_iff] at h
  hardEdges := by simp

theorem Digraph.Built.addVertex (h : g.Built hard) (v : α) : (g.addVertex v).Built hard where
  endpoints e he := by
    rw [Digraph.edges_addVertex] at he
    simp only [Digraph.mem_vertices_addVertex]
    exact (h.endpoints e he).imp Or.inl Or.inl
  ids := by simpa using h.ids
  fresh := by simpa using h.fresh
  acyclic := h.acyclic.mono fun a b hab => by simpa [Digraph.leads_iff] using hab
  hardEdges := by simpa using h.hardEdges

theorem Digraph.Built.delEdge (h : g.Built hard) (id : ℕ) : (g.delEdge id).Built hard where
  endpoints e he := h.endpoints e (mem_of_mem_filter he)
  ids := (filter_sublist.map _).nodup h.ids
  fresh e he := h.fresh e (mem_of_mem_filter he)
  acyclic := h.acyclic.mono fun a b hab => by
    obtain ⟨e, he, hab⟩ := Digraph.leads_iff.1 hab
    exact Digraph.leads_iff.2 ⟨e, mem_of_mem_filter he, hab⟩
  hardEdges e he := h.hardEdges e (mem_of_mem_filter he)

variable {e : Edge α}

theorem Digraph.Built.hasHard_delEdge (h : g.Built hard) (he : e ∈ g.edges)
    (hsoft : e.label ≠ .hard) (hhas : g.HasHard a b) : (g.delEdge e.id).HasHard a b := by
  obtain ⟨e', he', hsource, htarget, hlabel⟩ := hhas
  refine ⟨e', mem_filter.2 ⟨he', decide_eq_true fun hid => ?_⟩, hsource, htarget, hlabel⟩
  obtain rfl : e' = e := inj_on_of_nodup_map h.ids he' he hid
  exact hsoft hlabel

omit [DecidableEq α] in
theorem Digraph.HasHard.insertEdge (h : g.HasHard a b) (v₁ v₂ : α) :
    (g.insertEdge v₁ v₂ label).HasHard a b := by
  obtain ⟨e, he, hab⟩ := h
  exact ⟨e, mem_append_left _ he, hab⟩

variable {v₁ v₂ : α}

section

variable (h : g.Built hard) (h₁ : v₁ ∈ g.vertices) (h₂ : v₂ ∈ g.vertices)

include h h₁ h₂

theorem Digraph.Built.insertEdge (hne : v₁ ≠ v₂) (hpath : ¬ TransGen (Leads g.outNeighbours) v₂ v₁)
    (hlabel : label = .hard → hard v₂ v₁) : (g.insertEdge v₁ v₂ label).Built hard where
  endpoints e he := by
    rcases mem_append.1 he with he | he
    · exact h.endpoints e he
    · obtain rfl := mem_singleton.1 he
      exact ⟨h₁, h₂⟩
  ids := by
    rw [Digraph.insertEdge, map_append, nodup_append]
    refine ⟨h.ids, nodup_singleton _, ?_⟩
    intro id hid id' hid' heq
    obtain ⟨e, he, rfl⟩ := mem_map.1 hid
    have hlt := h.fresh e he
    have : id' = g.next := by simpa using hid'
    omega
  fresh e he := by
    show e.id < g.next + 1
    rcases mem_append.1 he with he | he
    · exact Nat.lt_succ_of_lt (h.fresh e he)
    · obtain rfl := mem_singleton.1 he
      exact Nat.lt_succ_self _
  acyclic := by
    have hagree : AgreeOff v₁ (Leads g.outNeighbours)
        (Leads (g.insertEdge v₁ v₂ label).outNeighbours) := by
      intro a b ha
      rw [Digraph.leads_insertEdge]
      exact ⟨Or.inl, fun h => h.resolve_right fun heq => ha heq.1.symm⟩
    rw [acyclic_iff_of_agreeOff hagree h.acyclic]
    intro p hp hreach
    rcases (Digraph.leads_insertEdge v₁ v₂).1 hp with hold | ⟨-, rfl⟩
    · exact h.acyclic v₁ (.head' hold hreach)
    · rcases reflTransGen_iff_eq_or_transGen.1 hreach with heq | htrans
      · exact hne heq
      · exact hpath htrans
  hardEdges e he hhard := by
    rcases mem_append.1 he with he | he
    · exact h.hardEdges e he hhard
    · obtain rfl := mem_singleton.1 he
      exact hlabel hhard

theorem Digraph.Built.addEdge (hlabel : label = .hard → hard v₂ v₁)
    (hadd : g.addEdge v₁ v₂ label = .ok g') :
    g' = g.insertEdge v₁ v₂ label ∧ g'.Built hard := by
  unfold Digraph.addEdge at hadd
  split at hadd
  next => cases hadd
  next hne =>
    split at hadd
    next hpath =>
      cases hadd
      have hnone := not_reaches_of_onePath h.outNeighbours_subset hpath
      exact ⟨rfl, h.insertEdge h₁ h₂ hne hnone hlabel⟩
    next => cases hadd

end

variable {pairs : List (α × α)}

theorem findEdges_eq_ok {edges : List (Edge α)} (h : findEdges g pairs = .ok edges) :
    (∀ e ∈ edges, e ∈ g.edges) ∧ ∀ p ∈ pairs, ∀ e ∈ g.edgesBetween p.1 p.2, e ∈ edges := by
  induction pairs generalizing edges with
  | nil =>
    cases h
    simp
  | cons p pairs ih =>
    simp only [findEdges] at h
    cases hedge : findEdge g p.1 p.2 with
    | error e => simp [hedge, bind, Except.bind] at h
    | ok edge =>
      cases hrest : findEdges g pairs with
      | error e => simp [hedge, hrest, bind, Except.bind] at h
      | ok rest =>
        obtain rfl : edge.toList ++ rest = edges := by
          simpa [hedge, hrest, bind, Except.bind, pure, Except.pure] using h
        obtain ⟨hmem, hall⟩ := ih hrest
        have hfirst : edge.toList = g.edgesBetween p.1 p.2 := by
          unfold findEdge at hedge
          split at hedge
          next e he => cases hedge; exact he.symm
          next he => cases hedge; exact he.symm
          next => cases hedge
        refine ⟨fun e he => ?_, fun p' hp' e he => ?_⟩
        · rcases mem_append.1 he with he | he
          · rw [hfirst] at he
            exact mem_of_mem_filter he
          · exact hmem e he
        · rcases mem_cons.1 hp' with rfl | hp'
          · exact mem_append_left _ (hfirst ▸ he)
          · exact mem_append_right _ (hall p' hp' e he)

theorem exists_findEdges (h : ∀ p ∈ pairs, (g.edgesBetween p.1 p.2).length ≤ 1) :
    ∃ edges, findEdges g pairs = .ok edges := by
  induction pairs with
  | nil => exact ⟨[], rfl⟩
  | cons p pairs ih =>
    obtain ⟨edges, hedges⟩ := ih fun p' hp' => h p' (mem_cons_of_mem _ hp')
    have hp := h p mem_cons_self
    simp only [findEdges, findEdge, hedges]
    match hbetween : g.edgesBetween p.1 p.2 with
    | [] => exact ⟨edges, rfl⟩
    | [e] => exact ⟨e :: edges, rfl⟩
    | _ :: _ :: _ => simp [hbetween] at hp

theorem findEdges_eq_error {p : α × α} (hp : p ∈ pairs) (h : 1 < (g.edgesBetween p.1 p.2).length) :
    ∃ edges, findEdges g pairs = .error (.caseClause edges) := by
  induction pairs with
  | nil => cases hp
  | cons p' pairs ih =>
    simp only [findEdges]
    unfold findEdge
    match hbetween : g.edgesBetween p'.1 p'.2 with
    | _ :: _ :: _ => exact ⟨_, rfl⟩
    | [] =>
      rcases mem_cons.1 hp with rfl | hp
      · simp [hbetween] at h
      · obtain ⟨edges, hedges⟩ := ih hp
        exact ⟨edges, by simp [hedges, bind, Except.bind]⟩
    | [e] =>
      rcases mem_cons.1 hp with rfl | hp
      · simp [hbetween] at h
      · obtain ⟨edges, hedges⟩ := ih hp
        exact ⟨edges, by simp [hedges, bind, Except.bind]⟩

omit [DecidableEq α] in
theorem mem_zip_append {β : Type*} {l : List α} {m : List β} (m' : List β) {p : α × β}
    (hp : p ∈ l.zip m) : p ∈ l.zip (m ++ m') := by
  induction l generalizing m with
  | nil => simp at hp
  | cons a l ih =>
    cases m with
    | nil => simp at hp
    | cons b m =>
      simp only [zip_cons_cons, cons_append, mem_cons] at hp ⊢
      exact hp.imp_right ih

variable {path : List α}

theorem findSoftEdge_eq_ok {found : Option (Edge α)} (h : findSoftEdge g path = .ok found) :
    ∃ edges, findEdges g (cyclePairs path) = .ok edges ∧
    (∀ e, found = some e → e ∈ edges ∧ e.label ≠ .hard) ∧
    (found = none → ∀ e ∈ edges, e.label = .hard) := by
  unfold findSoftEdge at h
  cases hedges : findEdges g (cyclePairs path) with
  | error e => simp [hedges, bind, Except.bind] at h
  | ok edges =>
    simp only [hedges, bind, Except.bind] at h
    refine ⟨edges, rfl, ?_⟩
    split at h
    next hoptional =>
      cases h
      refine ⟨fun e he => ?_, fun hsoft e he => ?_⟩
      · have := find?_some he
        exact ⟨mem_of_find?_eq_some he, by simp_all⟩
      · have h₁ := find?_eq_none.1 hoptional e he
        have h₂ := find?_eq_none.1 hsoft e he
        cases hlabel : e.label <;> simp_all
    next e hoptional =>
      cases h
      refine ⟨fun e' he' => ?_, fun hnone => nomatch hnone⟩
      cases he'
      have := find?_some hoptional
      exact ⟨mem_of_find?_eq_some hoptional, by simp_all⟩

/-- A walk all of whose edges are hard is one of hard dependencies. -/
theorem Digraph.Built.hard_walk (h : g.Built hard) (hwalk : Walk (Leads g.outNeighbours) a b path)
    (hnone : findSoftEdge g path = .ok none) : TransGen (fun x y => hard y x) a b := by
  obtain ⟨edges, hedges, -, hhard⟩ := findSoftEdge_eq_ok hnone
  refine (hwalk.of_pairs fun p hp hlead => ?_).transGen
  obtain ⟨e, he, hsource, htarget⟩ := Digraph.leads_iff.1 hlead
  have hbetween : e ∈ g.edgesBetween p.1 p.2 := mem_filter.2 ⟨he, decide_eq_true ⟨hsource, htarget⟩⟩
  have hmem := (findEdges_eq_ok hedges).2 p (mem_zip_append _ hp) e hbetween
  rw [← hsource, ← htarget]
  exact h.hardEdges e he (hhard rfl e hmem)

/-- The error that says that there is a cycle of hard dependencies. -/
def IsCycle (hard : α → α → Prop) (e : Error α) : Prop :=
  (∃ path, e = .dependencyCycle path) ∧ ¬ Acyclic hard

/-- What a dependency leaves behind. -/
structure Extends (hard : α → α → Prop) (g g' : Digraph α) : Prop where
  built : g'.Built hard
  vertices : g.vertices ⊆ g'.vertices
  hasHard : ∀ a b, g.HasHard a b → g'.HasHard a b

theorem Extends.trans {g'' : Digraph α} (h : Extends hard g g') (h' : Extends hard g' g'') :
    Extends hard g g'' :=
  ⟨h'.built, List.Subset.trans h.vertices h'.vertices,
    fun a b hab => h'.hasHard a b (h.hasHard a b hab)⟩

theorem Digraph.Built.extends_addVertex (h : g.Built hard) (v : α) :
    Extends hard g (g.addVertex v) where
  built := h.addVertex v
  vertices := fun w hw => Digraph.mem_vertices_addVertex.2 (Or.inl hw)
  hasHard a b hab := by simpa [Digraph.HasHard] using hab

theorem Digraph.Built.extends_delEdge (h : g.Built hard) (he : e ∈ g.edges)
    (hsoft : e.label ≠ .hard) : Extends hard g (g.delEdge e.id) :=
  ⟨h.delEdge e.id, List.Subset.refl _, fun _ _ => h.hasHard_delEdge he hsoft⟩

/-- An edge that is added, with the one that it stands for. -/
theorem Digraph.Built.extends_addEdge (h : g.Built hard) (h₁ : v₁ ∈ g.vertices)
    (h₂ : v₂ ∈ g.vertices) (hlabel : label = .hard → hard v₂ v₁)
    (hadd : g.addEdge v₁ v₂ label = .ok g') :
    Extends hard g g' ∧ (label = .hard → g'.HasHard v₂ v₁) := by
  obtain ⟨rfl, hbuilt⟩ := h.addEdge h₁ h₂ hlabel hadd
  refine ⟨⟨hbuilt, List.Subset.refl _, fun _ _ hab => hab.insertEdge v₁ v₂⟩, ?_⟩
  rintro rfl
  exact ⟨⟨g.next, v₁, v₂, .hard⟩, mem_append_right _ mem_cons_self, rfl, rfl, rfl⟩

theorem Digraph.addEdge_eq_error (h : g.addEdge a b label = .error path) :
    (a = b ∧ path = [a, b]) ∨ (a ≠ b ∧ g.getPath b a = some path) := by
  unfold Digraph.addEdge at h
  split at h
  next heq => exact Or.inl ⟨heq, (Except.error.inj h).symm⟩
  next hne =>
    split at h
    next => cases h
    next path' hpath =>
      obtain rfl := Except.error.inj h
      exact Or.inr ⟨hne, hpath⟩

theorem Digraph.addEdge_of_getPath (hne : a ≠ b) (h : g.getPath b a = none) :
    g.addEdge a b label = .ok (g.insertEdge a b label) := by
  simp [Digraph.addEdge, hne, h]

variable {module : α} {dep : ModuleDep α ω}

/-- **One dependency.** Where the cycles are clear, it is added or closes a cycle of hard ones. -/
theorem ends_processDep (h : g.Built hard) (hmodule : module ∈ g.vertices)
    (hdep : dep.hardness = .hard → hard module dep.name)
    (hclear : Clear module g dep) :
    Ends (processDep module g dep)
    (fun g' => Extends hard g g' ∧ (dep.hardness = .hard → g'.HasHard module dep.name))
    (IsCycle hard) := by
  have hvertex := h.extends_addVertex dep.name
  have hdepVertex : dep.name ∈ (g.addVertex dep.name).vertices :=
    Digraph.mem_vertices_addVertex.2 (Or.inr rfl)
  unfold processDep
  dsimp only
  split
  next g' hadd =>
    obtain ⟨hextends, hhas⟩ :=
      hvertex.built.extends_addEdge hdepVertex (hvertex.vertices hmodule) hdep hadd
    exact ⟨hvertex.trans hextends, hhas⟩
  next cyclePath hbad =>
    split
    next hhard =>
      rcases Digraph.addEdge_eq_error hbad with ⟨hself, rfl⟩ | ⟨hne, hpath⟩
      · -- a module that depends on itself
        have hnobody : ((g.addVertex dep.name).edgesBetween dep.name dep.name) = [] := by
          refine filter_eq_nil_iff.2 fun e he hloop => ?_
          refine hvertex.built.acyclic dep.name (.single (Digraph.leads_iff.2 ⟨e, he, ?_⟩))
          simpa using hloop
        have hnone : findSoftEdge (g.addVertex dep.name) [dep.name, module] = .ok none := by
          simp [findSoftEdge, cyclePairs, findEdges, findEdge, ← hself, hnobody, bind, Except.bind,
            pure, Except.pure]
        simp only [hnone, bind, Except.bind, ends_error]
        exact ⟨⟨_, rfl⟩, fun hacyclic => hacyclic module (.single (hself ▸ hdep hhard))⟩
      · obtain ⟨hsingle, hbroken⟩ := hclear hhard hne cyclePath hpath
        have hwalk := walk_of_onePath hvertex.built.outNeighbours_subset hpath
        obtain ⟨edges, hedges⟩ := exists_findEdges hsingle
        cases hfound : findSoftEdge (g.addVertex dep.name) cyclePath with
        | error e =>
          unfold findSoftEdge at hfound
          simp only [hedges, bind, Except.bind] at hfound
          split at hfound <;> cases hfound
        | ok found =>
          simp only [bind, Except.bind]
          cases found with
          | none =>
            -- all edges of the walk are hard
            refine ⟨⟨_, rfl⟩, fun hacyclic => ?_⟩
            have hback := transGen_swap.1 (hvertex.built.hard_walk hwalk hfound)
            exact hacyclic module (.head (hdep hhard) hback)
          | some e =>
            have hnone := hbroken e hfound
            obtain ⟨edges', hedges', hsoft, -⟩ := findSoftEdge_eq_ok hfound
            obtain ⟨he, hlabel⟩ := hsoft e rfl
            have hdel := hvertex.built.extends_delEdge ((findEdges_eq_ok hedges').1 e he) hlabel
            have hadd : ((g.addVertex dep.name).delEdge e.id).addEdge dep.name module .hard =
                .ok _ := Digraph.addEdge_of_getPath hne hnone
            simp only [hadd]
            obtain ⟨hextends, hhas⟩ := hdel.built.extends_addEdge hdepVertex
              (hvertex.vertices hmodule) (fun _ => hdep hhard) hadd
            exact ⟨hvertex.trans (hdel.trans hextends), fun _ => hhas rfl⟩
    next hsoft => exact ⟨hvertex, fun hhard => absurd hhard hsoft⟩

/-- A dependency that is not clear makes `sort_deps/2` crash. -/
theorem processDep_eq_error (h : ¬ Clear module g dep) :
    ∃ e, processDep module g dep = .error e ∧ ∀ path, e ≠ .dependencyCycle path := by
  simp only [Clear, not_forall, exists_prop] at h
  obtain ⟨hhard, hne, path, hpath, hbad⟩ := h
  have hadd : (g.addVertex dep.name).addEdge dep.name module .hard = .error path := by
    simp [Digraph.addEdge, hne, hpath]
  rw [not_and_or] at hbad
  simp only [processDep, hhard, hadd, if_true]
  rcases hbad with hpair | hbroken
  · simp only [not_forall, not_le] at hpair
    obtain ⟨p, hp, hmany⟩ := hpair
    obtain ⟨edges, hedges⟩ := findEdges_eq_error hp hmany
    exact ⟨.caseClause edges, by simp [findSoftEdge, hedges, bind, Except.bind], by simp⟩
  · simp only [not_forall, exists_prop] at hbroken
    obtain ⟨e, hfound, hpath'⟩ := hbroken
    obtain ⟨path', hpath'⟩ := Option.ne_none_iff_exists'.1 hpath'
    have hagain : ((g.addVertex dep.name).delEdge e.id).addEdge dep.name module .hard =
        .error path' := by
      simp [Digraph.addEdge, hne, hpath']
    exact ⟨.badmatch path', by simp [hfound, hagain, bind, Except.bind], by simp⟩

variable {deps : α → Option (ω → List (Dep α ω))} {modules : AList fun _ : α => ω}
  {entry : Σ _ : α, ω}

/-- The dependencies of a module are in the graph. -/
structure Added (deps : α → Option (ω → List (Dep α ω))) (entry : Σ _ : α, ω)
    (todo : List (ModuleDep α ω)) (g : Digraph α) : Prop where
  vertex : entry.1 ∈ g.vertices
  hasHard : ∀ d ∈ getDeps deps entry.1 entry.2, d ∈ todo ∨
    (d.hardness = .hard → g.HasHard entry.1 d.name)

theorem Added.extends {todo : List (ModuleDep α ω)} (h : Added deps entry todo g)
    (hextends : Extends hard g g') : Added deps entry todo g' :=
  ⟨hextends.vertices h.vertex, fun d hd =>
    (h.hasHard d hd).imp_right fun hhas hhard => hextends.hasHard _ _ (hhas hhard)⟩

/-- **One module.** -/
theorem ends_processModuleDep (h : g.Built hard)
    (hdeps : ∀ d ∈ getDeps deps entry.1 entry.2, d.hardness = .hard → hard entry.1 d.name)
    (hclear : ClearModule deps g entry) :
    Ends (processModuleDep deps g entry) (fun g' => Extends hard g g' ∧ Added deps entry [] g')
    (IsCycle hard) := by
  have hvertex := h.extends_addVertex entry.1
  refine ends_foldlM_of_guarded
    (I := fun todo g' => todo ⊆ getDeps deps entry.1 entry.2 ∧ Extends hard g g' ∧
      Added deps entry todo g')
    (fun d todo g' hI hok => ?_)
    ⟨List.Subset.refl _, hvertex, Digraph.mem_vertices_addVertex.2 (Or.inr rfl),
      fun d hd => Or.inl hd⟩ hclear |>.mono (fun _ hI => hI.2) fun _ => id
  obtain ⟨hsub, hextends, hadded⟩ := hI
  have hd := hdeps d (hsub mem_cons_self)
  refine (ends_processDep hextends.built hadded.vertex hd hok).mono ?_ fun _ => id
  rintro g'' ⟨hextends', hhas⟩
  refine ⟨fun x hx => hsub (mem_cons_of_mem _ hx), hextends.trans hextends',
    hextends'.vertices hadded.vertex, fun d' hd' => ?_⟩
  rcases (hadded.extends hextends').hasHard d' hd' with htodo | hhas'
  · rcases mem_cons.1 htodo with rfl | htodo
    · exact Or.inr hhas
    · exact Or.inl htodo
  · exact Or.inr hhas'

theorem dependsHard_of_mem (hentry : entry ∈ modules.entries) {d : ModuleDep α ω}
    (hd : d ∈ getDeps deps entry.1 entry.2) (hhard : d.hardness = .hard) :
    DependsHard deps modules entry.1 d.name :=
  ⟨entry.2, AList.mem_lookup_iff.2 hentry, d, hd, hhard, rfl⟩

/-- **All modules.** The graph has every hard dependency, or there is a cycle of them. -/
theorem ends_foldlM_processModuleDep (hclear : ClearModules deps modules) :
    Ends (modules.entries.foldlM (processModuleDep deps) {})
    (fun g => g.Built (DependsHard deps modules) ∧ ∀ entry ∈ modules.entries,
      Added deps entry [] g) (IsCycle (DependsHard deps modules)) := by
  refine ends_foldlM_of_guarded
    (I := fun todo g => todo ⊆ modules.entries ∧ g.Built (DependsHard deps modules) ∧
      ∀ entry ∈ modules.entries, entry ∈ todo ∨ Added deps entry [] g)
    (fun entry todo g hI hok => ?_)
    ⟨List.Subset.refl _, Digraph.built_empty, fun _ => Or.inl⟩ hclear |>.mono
    (fun g hI => ⟨hI.2.1, fun entry hentry =>
      (hI.2.2 entry hentry).resolve_left not_mem_nil⟩) fun _ => id
  obtain ⟨hsub, hbuilt, hadded⟩ := hI
  have hentry : entry ∈ modules.entries := hsub mem_cons_self
  refine (ends_processModuleDep hbuilt (fun d hd => dependsHard_of_mem hentry hd) hok).mono ?_
    fun _ => id
  rintro g' ⟨hextends, hnew⟩
  refine ⟨fun x hx => hsub (mem_cons_of_mem _ hx), hextends.built, fun e he => ?_⟩
  rcases hadded e he with htodo | hold
  · rcases mem_cons.1 htodo with rfl | htodo
    · exact Or.inr hnew
    · exact Or.inl htodo
  · exact Or.inr (hold.extends hextends)

/-- Every hard dependency is an edge of the graph, the other way round. -/
theorem leads_of_dependsHard (hadded : ∀ entry ∈ modules.entries, Added deps entry [] g)
    (h : DependsHard deps modules a b) : Leads g.outNeighbours b a := by
  obtain ⟨opts, hlookup, d, hd, hhard, rfl⟩ := h
  have hall := hadded ⟨a, opts⟩ (AList.mem_lookup_iff.1 hlookup)
  obtain ⟨e, he, hsource, htarget, -⟩ := ((hall.hasHard d hd).resolve_left not_mem_nil) hhard
  exact Digraph.leads_iff.2 ⟨e, he, hsource, htarget⟩

theorem topsort_sorts (hbuilt : g.Built hard)
    (hadded : ∀ entry ∈ modules.entries, Added deps entry [] g) :
    let sorted := (topsort g.outNeighbours g.vertices).filterMap fun m =>
      (modules.lookup m).map fun opts => (m, opts)
    sorted.Perm (modules.entries.map fun e => (e.1, e.2)) ∧
      sorted.Pairwise fun a b => ¬ DependsHard deps modules a.1 b.1 := by
  intro sorted
  have hout := hbuilt.outNeighbours_subset
  have hname : ∀ m p, p ∈ (modules.lookup m).map (fun opts => (m, opts)) → p.1 = m := by
    intro m p hp
    obtain ⟨opts, -, rfl⟩ := Option.map_eq_some_iff.1 hp
    rfl
  constructor
  · refine (perm_ext_iff_of_nodup ?_ ?_).2 fun p => ?_
    · refine (nodup_topsort hbuilt.acyclic hout).filterMap fun m m' p hp hp' => ?_
      exact (hname m p hp).symm.trans (hname m' p hp')
    · refine (List.Nodup.of_map Sigma.fst modules.nodupKeys).map fun x y h => ?_
      exact Sigma.ext (congrArg Prod.fst h) (heq_of_eq (congrArg Prod.snd h))
    · simp only [sorted, mem_filterMap, Option.map_eq_some_iff, mem_map]
      constructor
      · rintro ⟨m, -, opts, hlookup, rfl⟩
        exact ⟨⟨m, opts⟩, AList.mem_lookup_iff.1 hlookup, rfl⟩
      · rintro ⟨e, he, rfl⟩
        exact ⟨e.1, (mem_topsort hbuilt.acyclic hout).2 (hadded e he).vertex, e.2,
          AList.mem_lookup_iff.2 he, rfl⟩
  · refine (pairwise_topsort hbuilt.acyclic hout).filterMap _ fun m m' hnot p hp p' hp' hhard => ?_
    rw [hname m p hp, hname m' p' hp'] at hhard
    exact hnot (leads_of_dependsHard hadded hhard)

/-- **Sorting.** The modules are sorted as their dependencies ask exactly if every cycle that is met
is clear. -/
theorem sortsRight_iff (deps : α → Option (ω → List (Dep α ω))) (modules : AList fun _ : α => ω) :
    SortsRight deps modules ↔ ClearModules deps modules := by
  constructor
  · intro hright
    by_contra hclear
    obtain ⟨e, herror, hne⟩ := foldlM_error_of_not_guarded
      (Q := fun e => ∀ path, e ≠ Error.dependencyCycle path) (fun g entry hmodule =>
        foldlM_error_of_not_guarded (fun g dep hdep => processDep_eq_error hdep) hmodule) hclear
    have hfold : modules.entries.foldlM (processModuleDep deps) {} = .error e := herror
    have hsort : sortDeps deps modules = .error e := by
      simp [sortDeps, hfold, bind, Except.bind]
    by_cases hacyclic : Acyclic (DependsHard deps modules)
    · obtain ⟨sorted, hsorted, -⟩ := hright.2 hacyclic
      rw [hsort] at hsorted
      cases hsorted
    · obtain ⟨path, hcycle⟩ := hright.1 hacyclic
      rw [hsort] at hcycle
      exact hne path (Except.error.inj hcycle)
  · intro hclear
    have hends := ends_foldlM_processModuleDep hclear
    cases hfold : modules.entries.foldlM (processModuleDep deps) {} with
    | error e =>
      rw [hfold] at hends
      obtain ⟨⟨path, rfl⟩, hcyclic⟩ := hends
      exact ⟨fun _ => ⟨path, by simp [sortDeps, hfold, bind, Except.bind]⟩,
        fun hacyclic => absurd hacyclic hcyclic⟩
    | ok g =>
      rw [hfold] at hends
      obtain ⟨hbuilt, hadded⟩ := hends
      have hacyclic : Acyclic (DependsHard deps modules) := by
        intro m hcycle
        refine hbuilt.acyclic m (transGen_swap.1 ?_)
        exact TransGen.mono (fun a b hab => leads_of_dependsHard hadded hab) m m hcycle
      refine ⟨fun hcyclic => absurd hacyclic hcyclic, fun _ => ?_⟩
      exact ⟨_, by simp [sortDeps, hfold, bind, Except.bind, pure, Except.pure],
        topsort_sorts hbuilt hadded⟩

end

/-- **The start order** is right exactly if every cycle that is met is clear; what is resolved has
the given modules and their dependencies, and is reached where these are bounded. -/
theorem start_order_iff {κ β : Type u} [DecidableEq κ] [DecidableEq β]
    (deps : α → Option (Opts κ β → List (Dep α (Opts κ β)))) :
    (∀ modules : ModuleMap α κ β, SortsRight deps modules ↔ ClearModules deps modules) ∧
    ∀ given : List (α × Opts κ β), (∀ fuel known, resolve deps fuel given = some known →
      (∀ e ∈ given, e.1 ∈ known) ∧ ∀ m opts, known.lookup m = some opts →
        ∀ dep ∈ getDeps deps m opts, dep.hardness ≠ .optional → dep.name ∈ known) ∧
    ((∃ limit, Bounded deps given limit) →
      ∃ fuel known, resolve deps fuel given = some known) := by
  refine ⟨sortsRight_iff deps, fun given => ⟨fun fuel known h => resolve_closed h, ?_⟩⟩
  rintro ⟨limit, hbounded⟩
  exact resolve_isSome hbounded

/-! ### Cycles that are not clear -/

/-- A map of modules without options. -/
def modulesOf (names : List String) : ModuleMap String String String :=
  names.foldr (fun name modules => modules.insert name ∅) ∅

/-- `mod_m` depends hard on `mod_a`, which leads back to it in two ways that are not hard. -/
def twoWays : String → Option (Opts String String → List (Dep String (Opts String String)))
  | "mod_a" => some fun _ => [.module "mod_b" ∅ .soft, .module "mod_c" ∅ .soft]
  | "mod_b" => some fun _ => [.module "mod_m" ∅ .soft]
  | "mod_c" => some fun _ => [.module "mod_m" ∅ .soft]
  | "mod_m" => some fun _ => [.module "mod_a" ∅ .hard]
  | _ => none

/-- `mod_a` depends on `mod_m` twice, and `mod_m` on `mod_a`. -/
def twice : String → Option (Opts String String → List (Dep String (Opts String String)))
  | "mod_a" => some fun _ => [.module "mod_m" ∅ .hard, .module "mod_m" ∅ .soft]
  | "mod_m" => some fun _ => [.module "mod_a" ∅ .hard]
  | _ => none

theorem dependsHard_twoWays {a b : String}
    (h : DependsHard twoWays (modulesOf ["mod_a", "mod_b", "mod_c", "mod_m"]) a b) :
    a = "mod_m" ∧ b = "mod_a" := by
  obtain ⟨opts, hlookup, d, hd, hhard, rfl⟩ := h
  have hmem : a ∈ modulesOf ["mod_a", "mod_b", "mod_c", "mod_m"] :=
    AList.lookup_isSome.1 (by simp [hlookup])
  have hname : a = "mod_a" ∨ a = "mod_b" ∨ a = "mod_c" ∨ a = "mod_m" := by
    simpa [modulesOf, AList.singleton, AList.mem_keys, AList.keys] using hmem
  rcases hname with rfl | rfl | rfl | rfl
  · obtain rfl | rfl : d = ⟨"mod_b", ∅, .soft⟩ ∨ d = ⟨"mod_c", ∅, .soft⟩ := by
      simpa [getDeps, twoWays, Dep.moduleDep?] using hd
    · cases hhard
    · cases hhard
  · obtain rfl : d = ⟨"mod_m", ∅, .soft⟩ := by simpa [getDeps, twoWays, Dep.moduleDep?] using hd
    cases hhard
  · obtain rfl : d = ⟨"mod_m", ∅, .soft⟩ := by simpa [getDeps, twoWays, Dep.moduleDep?] using hd
    cases hhard
  · obtain rfl : d = ⟨"mod_a", ∅, .hard⟩ := by simpa [getDeps, twoWays, Dep.moduleDep?] using hd
    exact ⟨rfl, rfl⟩

/-- Modules without a cycle of hard dependencies are not sorted; and a cycle of them is not reported
where one of the modules depends on another one twice. -/
theorem modules_not_sorted :
    (¬ SortsRight twoWays (modulesOf ["mod_a", "mod_b", "mod_c", "mod_m"]) ∧
    sortDeps twoWays (modulesOf ["mod_a", "mod_b", "mod_c", "mod_m"]) =
      .error (.badmatch ["mod_m", "mod_b", "mod_a"])) ∧
    ¬ SortsRight twice (modulesOf ["mod_a", "mod_m"]) ∧
    sortDeps twice (modulesOf ["mod_a", "mod_m"]) =
      .error (.caseClause [⟨0, "mod_m", "mod_a", .hard⟩, ⟨1, "mod_m", "mod_a", .soft⟩]) := by
  have hways : sortDeps twoWays (modulesOf ["mod_a", "mod_b", "mod_c", "mod_m"]) =
      .error (.badmatch ["mod_m", "mod_b", "mod_a"]) := by decide +kernel
  have htwice : sortDeps twice (modulesOf ["mod_a", "mod_m"]) =
      .error (.caseClause [⟨0, "mod_m", "mod_a", .hard⟩, ⟨1, "mod_m", "mod_a", .soft⟩]) := by
    decide +kernel
  refine ⟨⟨fun hright => ?_, hways⟩, fun hright => ?_, htwice⟩
  · have hacyclic : Acyclic (DependsHard twoWays
        (modulesOf ["mod_a", "mod_b", "mod_c", "mod_m"])) := by
      intro m hcycle
      obtain ⟨b, hfirst, -⟩ := TransGen.head'_iff.1 hcycle
      obtain ⟨c, -, hlast⟩ := TransGen.tail'_iff.1 hcycle
      have := (dependsHard_twoWays hfirst).1.symm.trans (dependsHard_twoWays hlast).2
      exact absurd this (by decide)
    obtain ⟨sorted, hsorted, -⟩ := hright.2 hacyclic
    rw [hways] at hsorted
    cases hsorted
  · have hcyclic : ¬ Acyclic (DependsHard twice (modulesOf ["mod_a", "mod_m"])) := by
      intro hacyclic
      refine hacyclic "mod_a" (.tail (b := "mod_m") (.single ?_) ?_)
      · exact ⟨∅, by decide +kernel, ⟨"mod_m", ∅, .hard⟩, mem_cons_self, rfl, rfl⟩
      · exact ⟨∅, by decide +kernel, ⟨"mod_a", ∅, .hard⟩, mem_cons_self, rfl, rfl⟩
    obtain ⟨path, hpath⟩ := hright.1 hcyclic
    rw [htwice] at hpath
    cases hpath

end MongooseIM.GenMod
