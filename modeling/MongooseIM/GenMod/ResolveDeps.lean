import Mathlib.Algebra.GroupWithZero.Nat
import Mathlib.Algebra.Order.BigOperators.Group.List
import Mathlib.Algebra.Order.Group.Nat
import Mathlib.Data.Finmap
import MongooseIM.Erlang.Maps

/-! # Resolving the dependencies of modules

`gen_mod_deps:resolve_deps/2`: the modules that the given ones need, with their options. A module
whose options change is asked for its dependencies again. -/

namespace MongooseIM.GenMod

open Erlang List

/-- `hardness()` -/
inductive Hardness
  | soft
  | hard
  | optional
  deriving DecidableEq

/-- An element of `gen_mod_deps:deps()`. -/
inductive Dep (α ω : Type*)
  /-- `module_dep()` -/
  | module (name : α) (opts : ω) (hardness : Hardness)
  | service (name : String)

/-- `module_dep()` -/
structure ModuleDep (α ω : Type*) where
  name : α
  opts : ω
  hardness : Hardness

/-- The dependency on a module. -/
def Dep.moduleDep? {α ω : Type*} : Dep α ω → Option (ModuleDep α ω)
  | .module name opts hardness => some ⟨name, opts, hardness⟩
  | .service _ => none

/-- `gen_mod:get_deps/3`, with the callbacks `deps/2` of the modules that have one. -/
def getDeps {α ω : Type*} (deps : α → Option (ω → List (Dep α ω))) (module : α) (opts : ω) :
    List (ModuleDep α ω) :=
  match deps module with
  | some callback => (callback opts).filterMap Dep.moduleDep?
  | none => []

/-- `module_opts()` -/
abbrev Opts (κ β : Type*) := Finmap fun _ : κ => β

/-- `merge_opts/3`: the new options go before the previous ones. -/
def mergeOpts {κ β : Type*} [DecidableEq κ] (previousOpts opts : Opts κ β) : Opts κ β :=
  opts ∪ previousOpts

/-- An element of `ModuleQueue`. -/
inductive Queued (α ω : Type*)
  | module (name : α) (opts : ω)
  /-- `{Module, Opts, Hardness}` -/
  | dep (dep : ModuleDep α ω)

variable {α κ β : Type*} [DecidableEq α] [DecidableEq κ] [DecidableEq β]

/-- `module_map()` -/
abbrev ModuleMap (α κ β : Type*) := AList fun _ : α => Opts κ β

section

variable (deps : α → Option (Opts κ β → List (Dep α (Opts κ β))))

/-- The options of a module that is taken from the queue; `none` for `undefined`, when they are the
previous ones. -/
def newOpts (known : ModuleMap α κ β) (module : α) (opts : Opts κ β) : Option (Opts κ β) :=
  match known.lookup module with
  | some previousOpts =>
    if mergeOpts previousOpts opts = previousOpts then none
    else some (mergeOpts previousOpts opts)
  | none => some opts

/-- `resolve_deps/4`, for as many steps as the number says; `none` when they do not suffice. -/
def resolveDeps : ℕ → List (Queued α (Opts κ β)) → ModuleMap α κ β → ModuleMap α κ β →
    Option (ModuleMap α κ β)
  | 0, _, _, _ => none
  | n + 1, [], optionalMods, known =>
    let newQueue := optionalMods.entries.filter fun e => e.1 ∈ known
    if newQueue = [] then some known
    else resolveDeps n (newQueue.map fun e => .module e.1 e.2)
      (filterKeys (fun m => m ∉ known) optionalMods) known
  | n + 1, .dep dep :: queue, optionalMods, known =>
    if dep.hardness = .optional then
      resolveDeps n queue (optionalMods.insert dep.name dep.opts) known
    else resolveDeps n (.module dep.name dep.opts :: queue) optionalMods known
  | n + 1, .module m opts :: queue, optionalMods, known =>
    match newOpts known m opts with
    | none => resolveDeps n queue optionalMods known
    | some opts =>
      resolveDeps n ((getDeps deps m opts).map .dep ++ queue) optionalMods
        (known.insert m opts)

/-- `resolve_deps/2` for given modules. -/
def resolve (fuel : ℕ) (given : List (α × Opts κ β)) : Option (ModuleMap α κ β) :=
  resolveDeps deps fuel (given.map fun e => .module e.1 e.2) ∅ ∅

/-! ## What is resolved -/

/-- The modules that have to be there: the given ones, and what the known ones depend on with their
options, unless optionally. -/
def Required (given : List α) (known : ModuleMap α κ β) (m : α) : Prop :=
  m ∈ given ∨ ∃ m' opts, known.lookup m' = some opts ∧
    ∃ dep ∈ getDeps deps m' opts, dep.hardness ≠ .optional ∧ dep.name = m

/-- The module that an element of the queue makes known. -/
def Queued.required? {ω : Type*} : Queued α ω → Option α
  | .module name _ => some name
  | .dep d => if d.hardness = .optional then none else some d.name

/-- What is required is known or waits in the queue. -/
def Closing (given : List α) (queue : List (Queued α (Opts κ β))) (known : ModuleMap α κ β) :
    Prop :=
  ∀ m, Required deps given known m → m ∈ known ∨ ∃ q ∈ queue, q.required? = some m

end

variable {deps : α → Option (Opts κ β → List (Dep α (Opts κ β)))} {given : List α}
  {queue : List (Queued α (Opts κ β))} {optionalMods known known' : ModuleMap α κ β}

omit [DecidableEq κ] [DecidableEq β] in
/-- An element of the queue that is known, or makes nothing known. -/
theorem Closing.drop {q : Queued α (Opts κ β)} (h : Closing deps given (q :: queue) known)
    (hq : ∀ m, q.required? = some m → m ∈ known) : Closing deps given queue known := by
  intro m hm
  rcases h m hm with hknown | ⟨q', hq', hmq⟩
  · exact Or.inl hknown
  · rcases mem_cons.1 hq' with rfl | hq'
    · exact Or.inl (hq m hmq)
    · exact Or.inr ⟨q', hq', hmq⟩

variable {m : α} {opts : Opts κ β}

omit [DecidableEq κ] [DecidableEq β] in
/-- A module gets options, and its dependencies with these wait in front of the queue. -/
theorem Closing.insert {old : Opts κ β} (h : Closing deps given (.module m old :: queue) known) :
    Closing deps given ((getDeps deps m opts).map .dep ++ queue) (known.insert m opts) := by
  intro m' hm'
  have hbefore : Required deps given known m' → m' ∈ known.insert m opts ∨
        ∃ q ∈ (getDeps deps m opts).map .dep ++ queue, q.required? = some m' := by
    intro hrequired
    rcases h m' hrequired with hknown | ⟨q, hq, hmq⟩
    · exact Or.inl (AList.mem_insert _ |>.2 (Or.inr hknown))
    · rcases mem_cons.1 hq with rfl | hq
      · cases hmq
        exact Or.inl (AList.mem_insert _ |>.2 (Or.inl rfl))
      · exact Or.inr ⟨q, mem_append_right _ hq, hmq⟩
  rcases hm' with hgiven | ⟨m₀, opts₀, hlookup, dep, hdep, hhard, rfl⟩
  · exact hbefore (Or.inl hgiven)
  · by_cases hm₀ : m₀ = m
    · subst hm₀
      obtain rfl : opts = opts₀ := by simpa using hlookup
      refine Or.inr ⟨.dep dep, mem_append_left _ (mem_map_of_mem hdep), ?_⟩
      simp [Queued.required?, hhard]
    · rw [AList.lookup_insert_ne hm₀] at hlookup
      exact hbefore (Or.inr ⟨m₀, opts₀, hlookup, dep, hdep, hhard, rfl⟩)

theorem newOpts_eq_none (h : newOpts known m opts = none) : m ∈ known := by
  unfold newOpts at h
  split at h
  next previousOpts hlookup => exact AList.lookup_isSome.1 (by simp [hlookup])
  next => cases h

/-- **What is resolved.** The result has what is required by it. -/
theorem closed_resolveDeps {fuel : ℕ} (h : Closing deps given queue known)
    (hresult : resolveDeps deps fuel queue optionalMods known = some known') :
    ∀ m, Required deps given known' m → m ∈ known' := by
  induction fuel generalizing queue optionalMods known with
  | zero => simp [resolveDeps] at hresult
  | succ n ih =>
    match queue with
    | [] =>
      simp only [resolveDeps] at hresult
      split at hresult
      · cases hresult
        intro m hm
        simpa using h m hm
      · -- what waited optionally is added to the queue
        refine ih (fun m hm => ?_) hresult
        exact Or.inl (by simpa using h m hm)
    | .dep dep :: queue =>
      simp only [resolveDeps] at hresult
      split at hresult
      next hoptional => exact ih (h.drop (by simp [Queued.required?, hoptional])) hresult
      next hhard =>
        refine ih (fun m hm => ?_) hresult
        simpa [Queued.required?, hhard] using h m hm
    | .module m opts :: queue =>
      simp only [resolveDeps] at hresult
      split at hresult
      next hnone =>
        refine ih (h.drop fun m' hm' => ?_) hresult
        cases hm'
        exact newOpts_eq_none hnone
      next => exact ih h.insert hresult

/-- The result has the given modules, and what its modules depend on with their final options. -/
theorem resolve_closed {fuel : ℕ} {given : List (α × Opts κ β)}
    (hresult : resolve deps fuel given = some known') :
    (∀ e ∈ given, e.1 ∈ known') ∧ ∀ m opts, known'.lookup m = some opts →
    ∀ dep ∈ getDeps deps m opts, dep.hardness ≠ .optional → dep.name ∈ known' := by
  have hstart : Closing deps (given.map Prod.fst)
      (given.map fun e => Queued.module e.1 e.2) (∅ : ModuleMap α κ β) := by
    rintro m (hm | ⟨m', opts, hlookup, -⟩)
    · obtain ⟨e, he, rfl⟩ := mem_map.1 hm
      exact Or.inr ⟨_, mem_map_of_mem he, rfl⟩
    · simp at hlookup
  have hclosed := closed_resolveDeps hstart hresult
  refine ⟨fun e he => hclosed _ (Or.inl (mem_map_of_mem he)), ?_⟩
  intro m opts hlookup dep hdep hhard
  exact hclosed _ (Or.inr ⟨m, opts, hlookup, dep, hdep, hhard, rfl⟩)

/-! ## When the resolver ends -/

/-- The options of a module are among those that a map has for it. -/
def Fits (limit : ModuleMap α κ β) (m : α) (opts : Opts κ β) : Prop :=
  ∃ l, limit.lookup m = some l ∧ ∀ k v, opts.lookup k = some v → l.lookup k = some v

/-- Finitely many modules are asked for, and an option of a module always gets the same value. -/
structure Bounded (deps : α → Option (Opts κ β → List (Dep α (Opts κ β))))
    (given : List (α × Opts κ β)) (limit : ModuleMap α κ β) : Prop where
  given : ∀ e ∈ given, Fits limit e.1 e.2
  deps : ∀ m opts, Fits limit m opts → ∀ d ∈ getDeps deps m opts, Fits limit d.name d.opts

/-- What an element of the queue asks for. -/
def Queued.request : Queued α (Opts κ β) → α × Opts κ β
  | .module name opts => (name, opts)
  | .dep d => (d.name, d.opts)

/-- The number of options that a module may still get, and one for the module itself. -/
def leftOf (known : ModuleMap α κ β) (e : Σ _ : α, Opts κ β) : ℕ :=
  match known.lookup e.1 with
  | none => e.2.keys.card + 1
  | some opts => e.2.keys.card - opts.keys.card

/-- The number of options that may still come. -/
def left (limit known : ModuleMap α κ β) : ℕ := (limit.entries.map (leftOf known)).sum

/-- The number of steps for an element of the queue. -/
def Queued.weight {ω : Type*} : Queued α ω → ℕ
  | .module _ _ => 1
  | .dep d => if d.hardness = .optional then 3 else 2

/-- The number of steps without a change of options. -/
def weight (queue : List (Queued α (Opts κ β))) (optionalMods : ModuleMap α κ β) : ℕ :=
  (queue.map Queued.weight).sum + 2 * optionalMods.entries.length

variable {limit : ModuleMap α κ β} {previousOpts : Opts κ β}

omit [DecidableEq β] in
theorem Fits.mergeOpts (h : Fits limit m opts) (h' : Fits limit m previousOpts) :
    Fits limit m (mergeOpts previousOpts opts) := by
  obtain ⟨l, hl, hopts⟩ := h
  obtain ⟨l', hl', hprevious⟩ := h'
  cases (hl.symm.trans hl')
  refine ⟨l, hl, fun k v hv => ?_⟩
  rcases Finmap.mem_lookup_union.1 hv with hv | ⟨-, hv⟩
  · exact hopts k v hv
  · exact hprevious k v hv

omit [DecidableEq β] in
theorem card_lt_card_mergeOpts (h : Fits limit m opts) (h' : Fits limit m previousOpts)
    (hne : mergeOpts previousOpts opts ≠ previousOpts) :
    previousOpts.keys.card < (mergeOpts previousOpts opts).keys.card := by
  apply Finset.card_lt_card
  have hsub : previousOpts.keys ⊆ (mergeOpts previousOpts opts).keys := by
    intro k hk
    rw [Finmap.mem_keys] at hk ⊢
    exact Finmap.mem_union.2 (Or.inr hk)
  refine Finset.ssubset_iff_subset_ne.2 ⟨hsub, fun heq => hne (Finmap.ext_lookup fun k => ?_)⟩
  obtain ⟨l, hl, hmerged⟩ := h.mergeOpts h'
  obtain ⟨l', hl', hprevious⟩ := h'
  cases (hl.symm.trans hl')
  have hmem : k ∈ mergeOpts previousOpts opts ↔ k ∈ previousOpts := by
    rw [← Finmap.mem_keys, ← Finmap.mem_keys, heq]
  by_cases hk : k ∈ previousOpts
  · obtain ⟨v, hv⟩ := Finmap.mem_iff.1 hk
    obtain ⟨v', hv'⟩ := Finmap.mem_iff.1 (hmem.2 hk)
    rw [hv, hv', ← hprevious k v hv, ← hmerged k v' hv']
  · rw [Finmap.lookup_eq_none.2 hk, Finmap.lookup_eq_none.2 (hmem.not.2 hk)]

omit [DecidableEq β] in
theorem Fits.card_le {l : Opts κ β}
    (h : Fits limit m opts) (hl : limit.lookup m = some l) : opts.keys.card ≤ l.keys.card := by
  obtain ⟨l', hl', hopts⟩ := h
  cases (hl.symm.trans hl')
  apply Finset.card_le_card
  intro k hk
  rw [Finmap.mem_keys] at hk ⊢
  obtain ⟨v, hv⟩ := Finmap.mem_iff.1 hk
  exact Finmap.mem_iff.2 ⟨v, hopts k v hv⟩

theorem left_insert_lt {opts' : Opts κ β}
    (hopts : Fits limit m opts) (hknown : ∀ m opts, known.lookup m = some opts → Fits limit m opts)
    (hnew : newOpts known m opts = some opts') :
    Fits limit m opts' ∧ left limit (known.insert m opts') < left limit known := by
  obtain ⟨l, hl, -⟩ := id hopts
  have hone : Fits limit m opts' ∧ leftOf (known.insert m opts') ⟨m, l⟩ < leftOf known ⟨m, l⟩ := by
    simp only [leftOf, AList.lookup_insert]
    unfold newOpts at hnew
    split at hnew
    next previousOpts hlookup =>
      split at hnew
      next => cases hnew
      next hne =>
        cases hnew
        have hfits := hopts.mergeOpts (hknown m previousOpts hlookup)
        have hlt := card_lt_card_mergeOpts hopts (hknown m previousOpts hlookup) hne
        have hle := hfits.card_le hl
        refine ⟨hfits, ?_⟩
        rw [hlookup]
        show l.keys.card - _ < l.keys.card - _
        omega
    next hlookup =>
      cases hnew
      refine ⟨hopts, ?_⟩
      rw [hlookup]
      show l.keys.card - _ < l.keys.card + 1
      omega
  refine ⟨hone.1, sum_lt_sum _ _ (fun e he => ?_) ⟨⟨m, l⟩, AList.mem_lookup_iff.1 hl, hone.2⟩⟩
  by_cases hem : e.1 = m
  · obtain ⟨m', l'⟩ := e
    obtain rfl : m' = m := hem
    cases (hl.symm.trans (AList.mem_lookup_iff.2 he))
    exact hone.2.le
  · simp [leftOf, AList.lookup_insert_ne hem]

/-- All that is asked for, waits or is known is within the bound. -/
structure AllFit (limit : ModuleMap α κ β) (queue : List (Queued α (Opts κ β)))
    (optionalMods known : ModuleMap α κ β) : Prop where
  queue : ∀ q ∈ queue, Fits limit q.request.1 q.request.2
  optionalMods : ∀ m opts, optionalMods.lookup m = some opts → Fits limit m opts
  known : ∀ m opts, known.lookup m = some opts → Fits limit m opts

omit [DecidableEq κ] [DecidableEq β] in
/-- The optional modules that are known are fewer steps when they are queued. -/
theorem weight_optional_lt {newQueue : List (Σ _ : α, Opts κ β)}
    (hqueue : newQueue = optionalMods.entries.filter fun e => e.1 ∈ known) (hne : newQueue ≠ []) :
    weight (newQueue.map fun e => Queued.module e.1 e.2)
    (filterKeys (fun m => m ∉ known) optionalMods) < weight [] optionalMods := by
  have hpos := length_pos_iff.2 hne
  have hones : ((newQueue.map fun e => Queued.module e.1 e.2).map Queued.weight).sum =
      newQueue.length := by
    simp [Queued.weight, Function.comp_def]
  have hsplit : newQueue.length + (filterKeys (fun m => m ∉ known) optionalMods).entries.length =
      optionalMods.entries.length := by
    rw [hqueue, length_eq_length_filter_add (l := optionalMods.entries)
      (fun e => decide (e.1 ∈ known))]
    simp [filterKeys]
  simp only [weight, hones, map_nil, sum_nil]
  omega

variable {given : List (α × Opts κ β)}

/-- **The resolver ends** where what is asked for is bounded. -/
theorem resolveDeps_isSome
    (hbounded : Bounded deps given limit) (h : AllFit limit queue optionalMods known) :
    ∃ fuel known', resolveDeps deps fuel queue optionalMods known = some known' := by
  -- the options that may still come, and among equals the steps without a change
  induction hleft : left limit known using Nat.strong_induction_on
    generalizing queue optionalMods known with
  | _ n ihLeft =>
  induction hweight : weight queue optionalMods using Nat.strong_induction_on
    generalizing queue optionalMods with
  | _ w ihWeight =>
  have hstep : ∀ queue' optionalMods', AllFit limit queue' optionalMods' known →
      weight queue' optionalMods' < w → ∃ fuel known',
        resolveDeps deps fuel queue' optionalMods' known = some known' :=
    fun queue' optionalMods' hfit hlt => ihWeight _ hlt hfit rfl
  match queue with
  | [] =>
    by_cases hnew : optionalMods.entries.filter (fun e => e.1 ∈ known) = []
    · exact ⟨1, known, by simp only [resolveDeps, if_pos hnew]⟩
    · have hfit : AllFit limit
          ((optionalMods.entries.filter fun e => e.1 ∈ known).map fun e => .module e.1 e.2)
          (filterKeys (fun m => m ∉ known) optionalMods) known := by
        refine ⟨fun q hq => ?_, fun m opts hlookup => ?_, h.known⟩
        · obtain ⟨e, he, rfl⟩ := mem_map.1 hq
          exact h.optionalMods e.1 e.2 (AList.mem_lookup_iff.2 (mem_of_mem_filter he))
        · rw [lookup_filterKeys, Option.ite_none_right_eq_some] at hlookup
          exact h.optionalMods m opts hlookup.2
      obtain ⟨fuel, known', hresult⟩ := hstep _ _ hfit (hweight ▸ weight_optional_lt rfl hnew)
      exact ⟨fuel + 1, known', by simp only [resolveDeps, if_neg hnew, hresult]⟩
  | .dep d :: queue =>
    have hrest : ∀ q ∈ queue, Fits limit q.request.1 q.request.2 :=
      fun q hq => h.queue q (mem_cons_of_mem _ hq)
    have hd : Fits limit d.name d.opts := h.queue (.dep d) mem_cons_self
    by_cases hoptional : d.hardness = .optional
    · have hfit : AllFit limit queue (optionalMods.insert d.name d.opts) known := by
        refine ⟨hrest, fun m opts hlookup => ?_, h.known⟩
        by_cases hm : m = d.name
        · subst hm
          obtain rfl : d.opts = opts := by simpa using hlookup
          exact hd
        · rw [AList.lookup_insert_ne hm] at hlookup
          exact h.optionalMods m opts hlookup
      have hlength : (optionalMods.insert d.name d.opts).entries.length ≤
          optionalMods.entries.length + 1 := by
        rw [AList.entries_insert, length_cons]
        exact Nat.succ_le_succ (kerase_sublist _ _).length_le
      have hlt : weight queue (optionalMods.insert d.name d.opts) < w := by
        simp only [weight, map_cons, sum_cons, Queued.weight, hoptional, if_true] at hweight ⊢
        omega
      obtain ⟨fuel, known', hresult⟩ := hstep _ _ hfit hlt
      exact ⟨fuel + 1, known', by simp only [resolveDeps, if_pos hoptional, hresult]⟩
    · have hfit : AllFit limit (.module d.name d.opts :: queue) optionalMods known :=
        ⟨forall_mem_cons.2 ⟨hd, hrest⟩, h.optionalMods, h.known⟩
      have hlt : weight (.module d.name d.opts :: queue) optionalMods < w := by
        simp only [weight, map_cons, sum_cons, Queued.weight, if_neg hoptional] at hweight ⊢
        omega
      obtain ⟨fuel, known', hresult⟩ := hstep _ _ hfit hlt
      exact ⟨fuel + 1, known', by simp only [resolveDeps, if_neg hoptional, hresult]⟩
  | .module m opts :: queue =>
    have hrest : ∀ q ∈ queue, Fits limit q.request.1 q.request.2 :=
      fun q hq => h.queue q (mem_cons_of_mem _ hq)
    have hm : Fits limit m opts := h.queue (.module m opts) mem_cons_self
    cases hnew : newOpts known m opts with
    | none =>
      have hlt : weight queue optionalMods < w := by
        simp only [weight, map_cons, sum_cons, Queued.weight] at hweight ⊢
        omega
      obtain ⟨fuel, known', hresult⟩ := hstep _ _ ⟨hrest, h.optionalMods, h.known⟩ hlt
      exact ⟨fuel + 1, known', by simp only [resolveDeps, hnew, hresult]⟩
    | some opts' =>
      obtain ⟨hfits, hlt⟩ := left_insert_lt hm h.known hnew
      have hfit : AllFit limit ((getDeps deps m opts').map .dep ++ queue) optionalMods
          (known.insert m opts') := by
        refine ⟨fun q hq => ?_, h.optionalMods, fun m' opts₀ hlookup => ?_⟩
        · rcases mem_append.1 hq with hq | hq
          · obtain ⟨d, hd, rfl⟩ := mem_map.1 hq
            exact hbounded.deps m opts' hfits d hd
          · exact hrest q hq
        · by_cases hmm : m' = m
          · subst hmm
            obtain rfl : opts' = opts₀ := by simpa using hlookup
            exact hfits
          · rw [AList.lookup_insert_ne hmm] at hlookup
            exact h.known m' opts₀ hlookup
      obtain ⟨fuel, known', hresult⟩ := ihLeft _ (hleft ▸ hlt) hfit rfl
      exact ⟨fuel + 1, known', by simp only [resolveDeps, hnew, hresult]⟩

theorem resolve_isSome (hbounded : Bounded deps given limit) :
    ∃ fuel known', resolve deps fuel given = some known' := by
  refine resolveDeps_isSome hbounded ⟨fun q hq => ?_, by simp, by simp⟩
  obtain ⟨e, he, rfl⟩ := mem_map.1 hq
  exact hbounded.given e he

end MongooseIM.GenMod
