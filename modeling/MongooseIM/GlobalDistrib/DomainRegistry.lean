import Mathlib.Data.Finset.Union
import MongooseIM.Transition.Run

/-! # Domains of global distribution

The domains in `mod_global_distrib_mapping_redis`. A node keeps its domains in two tables and, for
the other nodes, in two sets of Redis; a key maps the domain to a host. The keys of domains are
other than those of the sets, and nothing expires. -/

namespace MongooseIM.GlobalDistrib.DomainRegistry

open Transition

variable {D : Type*} [DecidableEq D]

/-- A node of a host. -/
structure Node where
  host : String
  name : String
  deriving DecidableEq

/-- The nodes, and the Redis server that they share. -/
structure System (D : Type*) where
  started : Finset Node := ∅
  /-- `?DOMAINS_ETS` -/
  domainsEts : Node → Finset D := fun _ => ∅
  /-- `?PUBLIC_DOMAINS_ETS` -/
  publicDomainsEts : Node → Finset D := fun _ => ∅
  /-- The set `hosts`. -/
  hosts : Finset String := ∅
  /-- The fields of `nodes_key/1`. -/
  nodes : String → Finset String := fun _ => ∅
  /-- The set of `domains_key/2`. -/
  domains : Node → Finset D := fun _ => ∅
  /-- The set of `public_domains_key/2`. -/
  publicDomains : Node → Finset D := fun _ => ∅
  mapping : D → Option String := fun _ => none

/-- `SADD` and `ets:insert/2` -/
def add (sets : Node → Finset D) (node : Node) (domain : D) : Node → Finset D :=
  Function.update sets node (insert domain (sets node))

/-- `SREM` and `ets:delete/2` -/
def remove (sets : Node → Finset D) (node : Node) (domain : D) : Node → Finset D :=
  Function.update sets node ((sets node).erase domain)

namespace System

variable (s : System D) (node : Node) (domain : D)

/-- `put_domain/2` -/
def putDomain (isHidden : Bool) : System D :=
  let s1 := { s with
    domainsEts := add s.domainsEts node domain
    domains := add s.domains node domain
    mapping := Function.update s.mapping domain (some node.host) }
  if isHidden then s1
  else { s1 with
    publicDomainsEts := add s.publicDomainsEts node domain
    publicDomains := add s.publicDomains node domain }

/-- `delete_domain/1`, with `do_delete/1`. -/
def deleteDomain : System D :=
  { s with
    domainsEts := remove s.domainsEts node domain
    publicDomainsEts := remove s.publicDomainsEts node domain
    mapping := if s.mapping domain = some node.host then Function.update s.mapping domain none
      else s.mapping
    domains := remove s.domains node domain }

/-- `refresh_set/2` -/
def refreshSet (existing members : Finset D) : Finset D :=
  let toDelete := existing \ members
  (existing \ toDelete) ∪ members

/-- `refresh/1`: hosts, nodes, domains and public domains. -/
def refresh : System D :=
  { s with
    hosts := insert node.host s.hosts
    nodes := Function.update s.nodes node.host (insert node.name (s.nodes node.host))
    domains := Function.update s.domains node (refreshSet (s.domains node) (s.domainsEts node))
    mapping := fun domain =>
      if domain ∈ s.domainsEts node then some node.host else s.mapping domain
    publicDomains := Function.update s.publicDomains node
      (refreshSet (s.publicDomains node) (s.publicDomainsEts node)) }

/-- `start/1`, up to the initial refresh. -/
def start : System D :=
  refresh { s with started := insert node s.started } node

/-- `get_domains/1`: the union of the sets of the nodes that are listed. -/
def union (sets : Node → Finset D) : Finset D :=
  s.hosts.biUnion fun host => (s.nodes host).biUnion fun name => sets ⟨host, name⟩

/-- `get_domains/0` -/
def getDomains : Finset D := s.union s.domains

/-- `get_public_domains/0` -/
def getPublicDomains : Finset D := s.union s.publicDomains

/-- `get_domain/1` -/
def getDomain : Option String := s.mapping domain

end System

/-- What happens at a node. -/
inductive Event (D : Type*)
  | start (node : Node)
  | putDomain (node : Node) (domain : D) (isHidden : Bool)
  | deleteDomain (node : Node) (domain : D)
  | refresh (node : Node)

/-- What the operations say. -/
structure Ledger (D : Type*) where
  registered : Node → Finset D := fun _ => ∅
  /-- The domains that were public when they were last registered. -/
  lastPublic : Finset D := ∅

/-- An operation in the ledger. -/
def Ledger.record (l : Ledger D) : Event D → Ledger D
  | .putDomain node domain isHidden => {
      registered := add l.registered node domain
      lastPublic := if isHidden then l.lastPublic.erase domain else insert domain l.lastPublic }
  | .deleteDomain node domain => { l with registered := remove l.registered node domain }
  | .start _ | .refresh _ => l

/-- The system and the ledger of its operations. -/
structure World (D : Type*) where
  sys : System D := {}
  ledger : Ledger D := {}

/-- The node at which it happens has started; a node starts once. -/
def Event.Enabled (s : System D) : Event D → Prop
  | .start node => node ∉ s.started
  | .putDomain node _ _ | .deleteDomain node _ | .refresh node => node ∈ s.started

instance (s : System D) (e : Event D) : Decidable (e.Enabled s) := by
  cases e <;> unfold Event.Enabled <;> infer_instance

/-- An operation. -/
def System.perform (s : System D) : Event D → System D
  | .start node => s.start node
  | .putDomain node domain isHidden => s.putDomain node domain isHidden
  | .deleteDomain node domain => s.deleteDomain node domain
  | .refresh node => s.refresh node

/-- One operation. -/
def step (w : World D) (e : Event D) : Option (World D) :=
  if e.Enabled w.sys then some ⟨w.sys.perform e, w.ledger.record e⟩ else none

theorem step_eq_some {w w' : World D} {e : Event D} :
    step w e = some w' ↔ e.Enabled w.sys ∧ ⟨w.sys.perform e, w.ledger.record e⟩ = w' := by
  simp [step]

/-- A domain is registered somewhere. -/
def Ledger.Registered (l : Ledger D) (domain : D) : Prop := ∃ node, domain ∈ l.registered node

/-- **What is looked up is what is registered.** -/
structure Exact (w : World D) : Prop where
  domains : ∀ domain, domain ∈ w.sys.getDomains ↔ w.ledger.Registered domain
  publicDomains : ∀ domain,
    domain ∈ w.sys.getPublicDomains ↔ w.ledger.Registered domain ∧ domain ∈ w.ledger.lastPublic
  mapped : ∀ domain, w.ledger.Registered domain →
    ∃ node, domain ∈ w.ledger.registered node ∧ w.sys.getDomain domain = some node.host

/-- **What an operation has to meet.** -/
def Meets (w : World D) : Event D → Prop
  | .start _ => True
  | .putDomain _ domain isHidden => isHidden = true → ∀ other, domain ∉ w.sys.publicDomains other
  | .deleteDomain node domain =>
    ((∃ other ≠ node, domain ∈ w.ledger.registered other) →
      w.sys.mapping domain ≠ some node.host) ∧
    ((¬ ∃ other ≠ node, domain ∈ w.ledger.registered other) →
      ∀ other, domain ∉ w.sys.publicDomains other)
  | .refresh node =>
    ∀ domain ∈ w.sys.publicDomains node, domain ∉ w.sys.publicDomainsEts node →
      ∃ other ≠ node, domain ∈ w.sys.publicDomains other

/-- An operation that takes place meets its condition. -/
def StepOk (w : World D) (e : Event D) : Prop := e.Enabled w.sys → Meets w e

/-! ## The invariant -/

variable {w w' : World D} {sets : Node → Finset D} {node : Node} {domain : D}

/-- The nodes that are listed are those that have started, and their sets are those of the tables,
but for public domains that are left behind. -/
structure Inv (w : World D) : Prop where
  hosts : ∀ node ∈ w.sys.started, node.host ∈ w.sys.hosts
  nodes : ∀ node, node ∈ w.sys.started ↔ node.name ∈ w.sys.nodes node.host
  stored : w.sys.domains = w.sys.domainsEts
  recorded : w.ledger.registered = w.sys.domainsEts
  leftBehind : ∀ node, w.sys.publicDomainsEts node ⊆ w.sys.publicDomains node
  idle : ∀ node, node ∉ w.sys.started →
    w.sys.domainsEts node = ∅ ∧ w.sys.publicDomains node = ∅

theorem mem_add {other : Node} {d : D} :
    d ∈ add sets node domain other ↔ (other = node ∧ d = domain) ∨ d ∈ sets other := by
  by_cases h : other = node
  · subst h
    simp [add]
  · simp [add, h]

theorem mem_remove {other : Node} {d : D} :
    d ∈ remove sets node domain other ↔ ¬ (other = node ∧ d = domain) ∧ d ∈ sets other := by
  by_cases h : other = node
  · subst h
    simp [remove]
  · simp [remove, h]

@[simp] theorem refreshSet_eq (existing members : Finset D) :
    System.refreshSet existing members = members := by
  ext d
  simp only [System.refreshSet, Finset.mem_union, Finset.mem_sdiff]
  tauto

/-- The union of the listed sets is that of all. -/
theorem Inv.mem_union (h : Inv w) (hidle : ∀ node, node ∉ w.sys.started → sets node = ∅) :
    domain ∈ w.sys.union sets ↔ ∃ node, domain ∈ sets node := by
  simp only [System.union, Finset.mem_biUnion]
  constructor
  · rintro ⟨host, -, name, -, hmem⟩
    exact ⟨⟨host, name⟩, hmem⟩
  · rintro ⟨node, hmem⟩
    by_cases hstarted : node ∈ w.sys.started
    · exact ⟨node.host, h.hosts node hstarted, node.name, (h.nodes node).1 hstarted, hmem⟩
    · simp [hidle node hstarted] at hmem

/-- The public sets hold the domains last registered as public. -/
def PublicExact (w : World D) : Prop :=
  ∀ domain, (∃ node, domain ∈ w.sys.publicDomains node) ↔
    w.ledger.Registered domain ∧ domain ∈ w.ledger.lastPublic

/-- A registered domain has a host where it is registered. -/
def MappedExact (w : World D) : Prop :=
  ∀ domain, w.ledger.Registered domain →
    ∃ node, domain ∈ w.ledger.registered node ∧ w.sys.mapping domain = some node.host

/-- **Under the invariant** the domains are always exact, so that two parts are left. -/
theorem Inv.exact_iff (h : Inv w) : Exact w ↔ PublicExact w ∧ MappedExact w := by
  have hpublic : ∀ domain, domain ∈ w.sys.getPublicDomains ↔
      ∃ node, domain ∈ w.sys.publicDomains node :=
    fun _ => h.mem_union fun node hnode => (h.idle node hnode).2
  have hdomains : ∀ domain, domain ∈ w.sys.getDomains ↔ w.ledger.Registered domain := by
    intro domain
    rw [Ledger.Registered, h.recorded, ← h.stored]
    exact h.mem_union fun node hnode => h.stored ▸ (h.idle node hnode).1
  constructor
  · exact fun hexact => ⟨fun domain => (hpublic domain).symm.trans (hexact.publicDomains domain),
      hexact.mapped⟩
  · exact fun ⟨hpub, hmapped⟩ => ⟨hdomains, fun domain => (hpublic domain).trans (hpub domain),
      hmapped⟩

/-- The first refresh of a node lists it and finds its tables empty. -/
theorem Inv.start (h : Inv w) (hnode : node ∉ w.sys.started) :
    Inv ⟨w.sys.start node, w.ledger⟩ ∧ (w.sys.start node).publicDomains = w.sys.publicDomains ∧
    (w.sys.start node).mapping = w.sys.mapping := by
  -- a node that has not started has nothing to write
  obtain ⟨hets, hpublic⟩ := h.idle node hnode
  have hnone : w.sys.publicDomainsEts node = ∅ := Finset.subset_empty.1 (hpublic ▸ h.leftBehind node)
  have hsame : (w.sys.start node).publicDomains = w.sys.publicDomains := by
    simp [System.start, System.refresh, hnone, ← hpublic]
  refine ⟨⟨fun other hother => ?_, fun other => ?_, ?_, h.recorded, ?_, fun other hother => ?_⟩,
    hsame, by simp [System.start, System.refresh, hets]⟩
  · rcases Finset.mem_insert.1 hother with rfl | hother
    · exact Finset.mem_insert_self _ _
    · exact Finset.mem_insert_of_mem (h.hosts other hother)
  · obtain ⟨host, name⟩ := node
    obtain ⟨host', name'⟩ := other
    by_cases heq : host' = host
    · subst heq
      simp [System.start, System.refresh, h.nodes]
    · simp [System.start, System.refresh, h.nodes, heq]
  · simp [System.start, System.refresh, h.stored]
  · rw [hsame]
    exact h.leftBehind
  · rw [hsame]
    exact h.idle other fun hstarted => hother (Finset.mem_insert_of_mem hstarted)

/-- A later refresh drops the public domains that are left behind, and maps the domains to the
host. -/
theorem Inv.refresh_eq (h : Inv w) (hnode : node ∈ w.sys.started) :
    w.sys.refresh node = { w.sys with
    mapping := fun domain =>
      if domain ∈ w.sys.domainsEts node then some node.host else w.sys.mapping domain
    publicDomains := Function.update w.sys.publicDomains node (w.sys.publicDomainsEts node) } := by
  simp [System.refresh, Finset.insert_eq_of_mem (h.hosts node hnode),
    Finset.insert_eq_of_mem ((h.nodes node).1 hnode), h.stored]

theorem Inv.of_step (h : Inv w) {e : Event D} (hstep : step w e = some w') : Inv w' := by
  obtain ⟨hnode, rfl⟩ := step_eq_some.1 hstep
  cases e with
  | start node =>
    exact (h.start hnode).1
  | putDomain node domain isHidden =>
    -- only nodes that have started register domains
    have hidle : ∀ (sets : Node → Finset D) other, other ∉ w.sys.started → sets other = ∅ →
        add sets node domain other = ∅ := by
      rintro sets other hother hempty
      have hne : other ≠ node := fun heq => hother (heq ▸ hnode)
      rw [add, Function.update_of_ne hne, hempty]
    cases isHidden with
    | true =>
      refine ⟨h.hosts, h.nodes, ?_, ?_, h.leftBehind, fun other hother => ?_⟩
      · simp [System.perform, System.putDomain, h.stored]
      · simp [System.perform, System.putDomain, Ledger.record, h.recorded]
      · exact ⟨hidle _ other hother (h.idle other hother).1, (h.idle other hother).2⟩
    | false =>
      refine ⟨h.hosts, h.nodes, ?_, ?_, fun other d => ?_, fun other hother => ?_⟩
      · simp [System.perform, System.putDomain, h.stored]
      · simp [System.perform, System.putDomain, Ledger.record, h.recorded]
      · simp only [System.perform, System.putDomain, Bool.false_eq_true, if_false, mem_add]
        exact Or.imp_right fun hd => h.leftBehind other hd
      · exact ⟨hidle _ other hother (h.idle other hother).1,
          hidle _ other hother (h.idle other hother).2⟩
  | deleteDomain node domain =>
    refine ⟨h.hosts, h.nodes, ?_, ?_, fun other d hd => ?_, fun other hother => ?_⟩
    · simp [System.perform, System.deleteDomain, h.stored]
    · simp [System.perform, System.deleteDomain, Ledger.record, h.recorded]
    · exact h.leftBehind other (mem_remove.1 hd).2
    · have hne : other ≠ node := fun heq => hother (heq ▸ hnode)
      exact ⟨(Function.update_of_ne hne _ _).trans (h.idle other hother).1, (h.idle other hother).2⟩
  | refresh node =>
    rw [System.perform, h.refresh_eq hnode]
    refine { h with leftBehind := fun other => ?_, idle := fun other hother => ?_ }
    · by_cases heq : other = node
      · simp [heq]
      · simpa [heq] using h.leftBehind other
    · have hne : other ≠ node := fun heq => hother (heq ▸ hnode)
      simpa [hne] using h.idle other hother

/-! ## What each operation keeps -/

/-- A hidden registration leaves the public sets as they are. -/
theorem putDomain_exact_iff (hpublic : PublicExact w) (hmapped : MappedExact w) (isHidden : Bool) :
    PublicExact ⟨w.sys.putDomain node domain isHidden,
      w.ledger.record (.putDomain node domain isHidden)⟩ ∧
    MappedExact ⟨w.sys.putDomain node domain isHidden,
      w.ledger.record (.putDomain node domain isHidden)⟩ ↔
    (isHidden = true → ∀ other, domain ∉ w.sys.publicDomains other) := by
  have hregistered : ∀ d, (w.ledger.record (.putDomain node domain isHidden)).Registered d ↔
      d = domain ∨ w.ledger.Registered d := by
    intro d
    simp only [Ledger.Registered, Ledger.record, mem_add, exists_or, exists_and_right, exists_eq,
      true_and]
  have hmapping : (w.sys.putDomain node domain isHidden).mapping =
      Function.update w.sys.mapping domain (some node.host) := by
    cases isHidden <;> rfl
  have hmapped' : MappedExact ⟨w.sys.putDomain node domain isHidden,
      w.ledger.record (.putDomain node domain isHidden)⟩ := by
    intro d hd
    simp only [hmapping, Ledger.record, mem_add]
    by_cases heq : d = domain
    · exact ⟨node, Or.inl ⟨rfl, heq⟩, by simp [heq]⟩
    · obtain ⟨other, hother, hhost⟩ := hmapped d (((hregistered d).1 hd).resolve_left heq)
      exact ⟨other, Or.inr hother, by simp [heq, hhost]⟩
  rw [and_iff_left hmapped']
  simp only [PublicExact, hregistered]
  cases isHidden with
  | true =>
    simp only [System.putDomain, if_true, Ledger.record, Finset.mem_erase, forall_true_left]
    -- the domain must not stay in a public set, as it is hidden now
    constructor
    · intro hall other hmem
      exact ((hall domain).1 ⟨other, hmem⟩).2.1 rfl
    · intro hnone d
      by_cases heq : d = domain
      · subst heq
        simp [hnone]
      · simp [heq, hpublic d]
  | false =>
    simp only [System.putDomain, Bool.false_eq_true, if_false, Ledger.record, mem_add,
      Finset.mem_insert, false_implies, iff_true]
    intro d
    by_cases heq : d = domain
    · simp [heq]
    · simp [heq, hpublic d]

/-- A removal leaves the public sets as they are, and removes the host of another node's domain
where it is the own one. -/
theorem deleteDomain_exact_iff (hpublic : PublicExact w) (hmapped : MappedExact w) :
    PublicExact ⟨w.sys.deleteDomain node domain, w.ledger.record (.deleteDomain node domain)⟩ ∧
    MappedExact ⟨w.sys.deleteDomain node domain, w.ledger.record (.deleteDomain node domain)⟩ ↔
    ((∃ other ≠ node, domain ∈ w.ledger.registered other) →
      w.sys.mapping domain ≠ some node.host) ∧
    ((¬ ∃ other ≠ node, domain ∈ w.ledger.registered other) →
      ∀ other, domain ∉ w.sys.publicDomains other) := by
  have hregistered : ∀ d, (w.ledger.record (.deleteDomain node domain)).Registered d ↔
      ∃ other, ¬ (other = node ∧ d = domain) ∧ d ∈ w.ledger.registered other := by
    intro d
    simp only [Ledger.Registered, Ledger.record, mem_remove]
  have hother : ∀ d ≠ domain, (w.ledger.record (.deleteDomain node domain)).Registered d ↔
      w.ledger.Registered d := by
    intro d hne
    rw [hregistered]
    simp [hne, Ledger.Registered]
  have hself : (w.ledger.record (.deleteDomain node domain)).Registered domain ↔
      ∃ other ≠ node, domain ∈ w.ledger.registered other := by
    simp [hregistered]
  have hmapping : ∀ d ≠ domain, (w.sys.deleteDomain node domain).mapping d = w.sys.mapping d := by
    intro d hne
    simp only [System.deleteDomain]
    split_ifs <;> simp [hne]
  rw [and_comm]
  refine and_congr ⟨fun hall helsewhere hhost => ?_, fun hcond d hd => ?_⟩
    ⟨fun hall hnowhere other hmem => ?_, fun hcond d => ?_⟩
  · -- the key of the own host is deleted, although another node has the domain
    obtain ⟨other, -, hgone⟩ := hall domain (hself.2 helsewhere)
    simp [System.deleteDomain, hhost] at hgone
  · by_cases heq : d = domain
    · subst heq
      obtain ⟨elsewhere, helsewhere, hreg⟩ := hself.1 hd
      have hne := hcond ⟨elsewhere, helsewhere, hreg⟩
      obtain ⟨other, hreg, hhost⟩ := hmapped d ⟨elsewhere, hreg⟩
      refine ⟨other, mem_remove.2 ⟨fun h => hne (h.1 ▸ hhost), hreg⟩, ?_⟩
      simp only [System.deleteDomain, if_neg hne]
      exact hhost
    · obtain ⟨other, hreg, hhost⟩ := hmapped d ((hother d heq).1 hd)
      exact ⟨other, mem_remove.2 ⟨fun h => heq h.2, hreg⟩, (hmapping d heq).trans hhost⟩
  · -- nobody has the domain any more, so it must be in no public set
    exact hnowhere (hself.1 ((hall domain).1 ⟨other, hmem⟩).1)
  · by_cases heq : d = domain
    · subst heq
      by_cases helsewhere : ∃ other ≠ node, d ∈ w.ledger.registered other
      · obtain ⟨other, -, hreg⟩ := id helsewhere
        exact (hpublic d).trans
          (and_congr_left fun _ => iff_of_true ⟨other, hreg⟩ (hself.2 helsewhere))
      · refine iff_of_false (fun ⟨other, hmem⟩ => hcond helsewhere other hmem) fun hreg => ?_
        exact helsewhere (hself.1 hreg.1)
    · exact (hpublic d).trans (and_congr_left fun _ => (hother d heq).symm)

/-- A refresh removes the public domains that are left behind. -/
theorem Inv.refresh_exact_iff (h : Inv w) (hpublic : PublicExact w) (hmapped : MappedExact w)
    (hnode : node ∈ w.sys.started) :
    PublicExact ⟨w.sys.refresh node, w.ledger⟩ ∧ MappedExact ⟨w.sys.refresh node, w.ledger⟩ ↔
    ∀ domain ∈ w.sys.publicDomains node, domain ∉ w.sys.publicDomainsEts node →
      ∃ other ≠ node, domain ∈ w.sys.publicDomains other := by
  rw [h.refresh_eq hnode, and_iff_left]
  · simp only [PublicExact, ← hpublic _]
    constructor
    · intro hall d hd hgone
      obtain ⟨other, hother⟩ := (hall d).2 ⟨node, hd⟩
      by_cases heq : other = node
      · subst heq
        exact absurd (by simpa using hother) hgone
      · exact ⟨other, heq, by simpa [heq] using hother⟩
    · rintro hcond d
      constructor
      · rintro ⟨other, hother⟩
        by_cases heq : other = node
        · subst heq
          exact ⟨other, h.leftBehind other (by simpa using hother)⟩
        · exact ⟨other, by simpa [heq] using hother⟩
      · rintro ⟨other, hother⟩
        by_cases hkept : other = node → d ∈ w.sys.publicDomainsEts node
        · refine ⟨other, ?_⟩
          by_cases heq : other = node
          · simpa [heq] using hkept heq
          · simpa [heq] using hother
        · -- left behind by this node: another one must list it
          obtain ⟨rfl, hgone⟩ := Classical.not_imp.1 hkept
          obtain ⟨third, hne, hthird⟩ := hcond d hother hgone
          exact ⟨third, by simpa [hne] using hthird⟩
  · intro d hd
    by_cases hown : d ∈ w.sys.domainsEts node
    · exact ⟨node, h.recorded ▸ hown, if_pos hown⟩
    · simpa only [if_neg hown] using hmapped d hd

/-- **An operation keeps the registry exact** where it meets its condition, and only there. -/
theorem Inv.exact_step_iff (h : Inv w) (hexact : Exact w) {e : Event D}
    (hstep : step w e = some w') : Exact w' ↔ Meets w e := by
  obtain ⟨hpublic, hmapped⟩ := h.exact_iff.1 hexact
  rw [(h.of_step hstep).exact_iff]
  obtain ⟨hnode, rfl⟩ := step_eq_some.1 hstep
  cases e with
  | start node =>
    obtain ⟨-, hsame, hmapping⟩ := h.start hnode
    refine iff_of_true ⟨?_, ?_⟩ trivial
    · simpa only [PublicExact, System.perform, Ledger.record, hsame] using hpublic
    · simpa only [MappedExact, System.perform, Ledger.record, hmapping] using hmapped
  | putDomain node domain isHidden =>
    exact putDomain_exact_iff hpublic hmapped isHidden
  | deleteDomain node domain =>
    exact deleteDomain_exact_iff hpublic hmapped
  | refresh node =>
    exact h.refresh_exact_iff hpublic hmapped hnode

/-- **The registry is exact after every operation** exactly where each operation meets its
condition. -/
theorem registry_exact_iff (es : List (Event D)) : Guarded step StepOk {} es ↔
    ∀ h w, h <+: es → run step ({} : World D) h = some w → Exact w := by
  have hinv : Inv ({} : World D) := by
    refine ⟨?_, ?_, rfl, rfl, fun _ => subset_rfl, fun _ _ => ⟨rfl, rfl⟩⟩ <;> simp
  have hexact : Exact ({} : World D) := by
    rw [hinv.exact_iff]
    constructor
    · simp [PublicExact, Ledger.Registered]
    · simp [MappedExact, Ledger.Registered]
  refine guarded_iff_holds_along_of_invariant (fun w e _ _ hbroken => ?_)
    (fun w e w' h _ hstep _ => h.of_step hstep) (fun w e w' h hexact hstep => ?_) hinv hexact es
  · -- only an operation that takes place breaks its condition
    obtain ⟨henabled, -⟩ := Classical.not_imp.1 hbroken
    exact ⟨_, step_eq_some.2 ⟨henabled, rfl⟩⟩
  · rw [h.exact_step_iff hexact hstep, StepOk, forall_prop_of_true (step_eq_some.1 hstep).1]

/-- A node of the first host. -/
def nodeOne : Node := ⟨"hostone", "node1"⟩

/-- **A public domain that is deleted** is still looked up as public. -/
theorem deleted_domain_public :
    (∃ w, run step {} [.start nodeOne, .putDomain nodeOne "shakespeare.lit" false,
        .deleteDomain nodeOne "shakespeare.lit"] = some w ∧
      "shakespeare.lit" ∈ w.sys.getPublicDomains ∧ "shakespeare.lit" ∉ w.sys.getDomains ∧
      ¬ w.ledger.Registered "shakespeare.lit") ∧
    ¬ ∀ (es : List (Event String)) (w : World String), run step {} es = some w → Exact w := by
  have hresult : ∃ w, run step {} [.start nodeOne, .putDomain nodeOne "shakespeare.lit" false,
      .deleteDomain nodeOne "shakespeare.lit"] = some w ∧
      "shakespeare.lit" ∈ w.sys.getPublicDomains ∧ "shakespeare.lit" ∉ w.sys.getDomains ∧
      ¬ w.ledger.Registered "shakespeare.lit" := by
    refine ⟨_, rfl, by decide, by decide, ?_⟩
    rintro ⟨node, hnode⟩
    obtain ⟨hne, hmem⟩ := mem_remove.1 hnode
    rcases mem_add.1 hmem with heq | hmem
    · exact hne heq
    · exact Finset.notMem_empty _ hmem
  refine ⟨hresult, fun hall => ?_⟩
  obtain ⟨w, hrun, hpublic, -, hgone⟩ := hresult
  exact hgone (((hall _ w hrun).publicDomains "shakespeare.lit").1 hpublic).1

end MongooseIM.GlobalDistrib.DomainRegistry
