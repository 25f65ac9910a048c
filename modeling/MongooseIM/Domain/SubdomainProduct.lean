import MongooseIM.Domain.SubdomainCore

/-! # The table of subdomains is the product of patterns and domains

A pair of a template and a domain is added by the enumeration of the domains when the template is
registered, or by the cast of the domain, or by both. Which of them has come by already is read off
the casts that are on the way. -/

namespace MongooseIM.Domain.Subdomains

open Erlang Domain List Option

variable {H S X : Type*} [DecidableEq H] [DecidableEq X]

/-! ## What the operations leave -/

namespace Core

omit [DecidableEq X] in
theorem lookup_foldl_erase (names : List String) (m : AList fun _ : String => X) (name : String) :
    (names.foldl (fun m name => m.erase name) m).lookup name =
    if name ∈ names then none else m.lookup name := by
  have hfold := get_foldl (fun m : AList fun _ : String => X => m.lookup name)
    (f := fun m other => m.erase other) (v := none) (p := fun other => other = name) (l := names)
    (fun m other _ h => by rw [h, AList.lookup_erase])
    (fun m other _ h => AList.lookup_erase_ne fun hname => h hname.symm) m
  simpa using hfold

omit [DecidableEq H] [DecidableEq X] in
/-- **What a removal leaves**: the items that do not match. -/
theorem lookup_removeSubdomains (p : SubdomainItem H X → Bool) (core : Core H X) (name : String) :
    (core.removeSubdomains p).subdomains.lookup name =
    (core.subdomains.lookup name).filter fun item => ! p item := by
  rw [removeSubdomains, lookup_foldl_erase]
  cases hlookup : core.subdomains.lookup name with
  | none => simp
  | some item =>
    -- a name is erased exactly when the item under it matches
    have hmem : name ∈ (core.subdomains.entries.filter fun entry => p entry.2).map Sigma.fst ↔
        p item = true := by
      rw [List.mem_map]
      constructor
      · rintro ⟨⟨name', item'⟩, hentry, rfl⟩
        obtain ⟨hentry, hp⟩ := mem_filter.1 hentry
        have hitem' := AList.mem_lookup_iff.2 hentry
        rw [hlookup, Option.mem_some_iff] at hitem'
        rwa [hitem']
      · intro hp
        refine ⟨⟨name, item⟩, mem_filter.2 ⟨?_, hp⟩, rfl⟩
        exact AList.mem_lookup_iff.1 (by rw [hlookup]; rfl)
    by_cases hp : p item = true
    · simp [hmem, hp, Option.filter]
    · simp [hmem, hp, Option.filter]

variable (item : SubdomainItem H X)

@[simp] theorem registrations_addSubdomain (core : Core H X) :
    (core.addSubdomain item).registrations = core.registrations := by
  rw [addSubdomain]
  split
  · rfl
  · split_ifs <;> rfl

/-- **What adding an item leaves under a name**: what was there, else the item if it is its. -/
theorem lookup_addSubdomain (core : Core H X) (name : String) :
    (core.addSubdomain item).subdomains.lookup name =
    (core.subdomains.lookup name).or (if name = item.subdomain then some item else none) := by
  rw [addSubdomain]
  split
  · rename_i hfree
    rw [lookup_insert]
    split_ifs with hname
    · rw [hname, hfree, none_or]
    · rw [or_none]
  · rename_i existing hexisting
    -- the name is taken: the table stays, whichever item has it
    have hsame : (core.subdomains.lookup name).or
        (if name = item.subdomain then some item else none) = core.subdomains.lookup name := by
      split_ifs with hname
      · rw [hname, hexisting, some_or]
      · rw [or_none]
    rw [hsame]
    split_ifs <;> rfl

/-! ## Nothing else is in the table -/

/-- The items are under their names and come from registered patterns, and what has collided has
the same name. -/
structure Listed (parents : H × SubdomainPattern → Option String → Prop) (core : Core H X) :
    Prop where
  items : ∀ name item, core.subdomains.lookup name = some item →
    name = item.subdomain ∧ IsProduct core.registrations parents item
  collide : ∀ collision ∈ core.collisions,
    collision.2 ≠ collision.1 ∧ collision.2.subdomain = collision.1.subdomain

variable {parents parents' : H × SubdomainPattern → Option String → Prop} {core : Core H X}

omit [DecidableEq X] in
theorem Listed.mono (h : core.Listed parents)
    (hsub : ∀ key parent, parents key parent → parents' key parent) : core.Listed parents' := by
  refine ⟨fun name item hitem => ?_, h.collide⟩
  obtain ⟨hname, key, packetHandler, parent, hreg, hparent, heq⟩ := h.items name item hitem
  exact ⟨hname, key, packetHandler, parent, hreg, hsub key parent hparent, heq⟩

variable {item : SubdomainItem H X}

theorem Listed.addSubdomain (h : core.Listed parents)
    (hitem : IsProduct core.registrations parents item) :
    (core.addSubdomain item).Listed parents := by
  constructor
  · intro name other hother
    rw [registrations_addSubdomain]
    rw [lookup_addSubdomain, or_eq_some_iff] at hother
    rcases hother with hother | ⟨-, hother⟩
    · exact h.items name other hother
    · split_ifs at hother with hname
      cases hother
      exact ⟨hname, hitem⟩
  · intro collision hcollision
    rw [Core.addSubdomain] at hcollision
    have hother : ∀ c ∈ core.otherCollisions item, c.2 ≠ c.1 ∧ c.2.subdomain = c.1.subdomain :=
      fun c hc => h.collide c (mem_of_mem_filter hc)
    split at hcollision
    · exact hother collision hcollision
    · rename_i existing hexisting
      split_ifs at hcollision with heq
      · exact hother collision hcollision
      · rcases mem_cons.1 hcollision with rfl | hcollision
        · exact ⟨heq, (h.items _ _ hexisting).1.symm⟩
        · exact hother collision hcollision

variable {key : H × SubdomainPattern}

omit [DecidableEq X] in
theorem Listed.insert (h : core.Listed parents) (packetHandler : X)
    (hnew : core.registrations.lookup key = none) :
    ({ core with registrations := core.registrations.insert key packetHandler } :
    Core H X).Listed parents := by
  refine ⟨fun name item hitem => ?_, h.collide⟩
  obtain ⟨hname, key', packetHandler', parent, hreg, hparent, heq⟩ := h.items name item hitem
  refine ⟨hname, key', packetHandler', parent, ?_, hparent, heq⟩
  rw [lookup_insert, if_neg, hreg]
  rintro rfl
  rw [hnew] at hreg
  cases hreg

omit [DecidableEq X] in
/-- Items that go leave the others, and with them patterns and parents that the others do not
need. -/
theorem Listed.removeSubdomains (h : core.Listed parents) (p : SubdomainItem H X → Bool)
    (hkeep : ∀ key packetHandler parent, parents key parent →
    p (makeSubdomainItem key packetHandler parent) = false → parents' key parent) :
    (core.removeSubdomains p).Listed parents' := by
  refine ⟨fun name item hitem => ?_, h.collide⟩
  rw [lookup_removeSubdomains, filter_eq_some_iff] at hitem
  obtain ⟨hitem, hp⟩ := hitem
  obtain ⟨hname, key, packetHandler, parent, hreg, hparent, rfl⟩ := h.items name item hitem
  exact ⟨hname, key, packetHandler, parent, hreg,
    hkeep key packetHandler parent hparent (by simpa using hp), rfl⟩

omit [DecidableEq X] in
theorem Listed.handleUnregister (h : core.Listed parents) (key : H × SubdomainPattern) :
    (core.handleUnregister key).Listed parents := by
  -- what is left does not come from the pattern
  have hleft : (core.removeSubdomains fun item =>
      item.subdomainPattern = key.2 ∧ item.hostType = key.1).Listed
      (fun key' parent => parents key' parent ∧ key' ≠ key) := by
    refine h.removeSubdomains _ fun key' packetHandler parent hparent hp => ⟨hparent, ?_⟩
    rintro rfl
    simp [makeSubdomainItem] at hp
  refine ⟨fun name item hitem => ?_, hleft.collide⟩
  obtain ⟨hname, key', packetHandler, parent, hreg, ⟨hparent, hne⟩, heq⟩ :=
    hleft.items name item hitem
  refine ⟨hname, key', packetHandler, parent, ?_, hparent, heq⟩
  rw [Core.handleUnregister, lookup_erase, if_neg hne]
  exact hreg

/-! ## Everything that is due is in the table -/

/-- The item has its name in the table, or its latest addition was refused. -/
def Placed (core : Core H X) (item : SubdomainItem H X) : Prop :=
  core.subdomains.lookup item.subdomain = some item ∨
    ∃ existing, (item, existing) ∈ core.collisions

theorem placed_addSubdomain_self (item : SubdomainItem H X) (core : Core H X) :
    (core.addSubdomain item).Placed item := by
  rw [addSubdomain]
  split
  · exact .inl (AList.lookup_insert _)
  · rename_i existing hexisting
    split_ifs with heq
    · exact .inl (by rw [hexisting, heq])
    · exact .inr ⟨existing, mem_cons_self⟩

theorem Placed.addSubdomain (h : core.Placed item)
    (added : SubdomainItem H X) : (core.addSubdomain added).Placed item := by
  by_cases hadded : item = added
  · rw [hadded]
    exact placed_addSubdomain_self added core
  · rcases h with hthere | ⟨existing, hrefused⟩
    · refine .inl ?_
      rw [lookup_addSubdomain, hthere, some_or]
    · refine .inr ⟨existing, ?_⟩
      have hkept : (item, existing) ∈ core.otherCollisions added := by
        simpa [otherCollisions, hrefused] using hadded
      rw [Core.addSubdomain]
      split
      · exact hkept
      · split_ifs
        · exact hkept
        · exact mem_cons_of_mem _ hkept

omit [DecidableEq H] [DecidableEq X] in
/-- An item that a removal does not match stays placed. -/
theorem Placed.removeSubdomains (h : core.Placed item)
    {p : SubdomainItem H X → Bool} (hp : p item = false) :
    (core.removeSubdomains p).Placed item := by
  rcases h with hthere | hrefused
  · refine .inl ?_
    rw [lookup_removeSubdomains, hthere]
    simp [Option.filter, hp]
  · exact .inr hrefused

/-- The items that registered patterns give with these parents are placed. -/
def Covers (parents : H × SubdomainPattern → Option String → Prop) (core : Core H X) : Prop :=
  ∀ key packetHandler parent, core.registrations.lookup key = some packetHandler →
    parents key parent → core.Placed (makeSubdomainItem key packetHandler parent)

theorem Covers.addSubdomain (h : core.Covers parents) (added : SubdomainItem H X) :
    (core.addSubdomain added).Covers parents := by
  intro key packetHandler parent hreg hparent
  rw [registrations_addSubdomain] at hreg
  exact (h key packetHandler parent hreg hparent).addSubdomain added

theorem Covers.addSubdomain_self (h : core.Covers parents)
    {packetHandler : X} (hreg : core.registrations.lookup key = some packetHandler)
    (parent : Option String) :
    (core.addSubdomain (makeSubdomainItem key packetHandler parent)).Covers
    fun key' parent' => parents key' parent' ∨ key' = key ∧ parent' = parent := by
  rintro key' packetHandler' parent' hreg' (hparent | ⟨rfl, rfl⟩)
  · exact h.addSubdomain _ key' packetHandler' parent' hreg' hparent
  · rw [registrations_addSubdomain, hreg] at hreg'
    cases hreg'
    exact placed_addSubdomain_self _ _

omit [DecidableEq X] in
theorem Covers.insert (h : core.Covers parents) (key : H × SubdomainPattern) (packetHandler : X) :
    ({ core with registrations := core.registrations.insert key packetHandler } :
    Core H X).Covers fun key' parent => parents key' parent ∧ key' ≠ key := by
  rintro key' packetHandler' parent hreg ⟨hparent, hne⟩
  rw [lookup_insert, if_neg hne] at hreg
  exact h key' packetHandler' parent hreg hparent

omit [DecidableEq X] in
theorem Covers.removeSubdomains (h : core.Covers parents) (p : SubdomainItem H X → Bool)
    (hkeep : ∀ key packetHandler parent, parents' key parent →
    parents key parent ∧ p (makeSubdomainItem key packetHandler parent) = false) :
    (core.removeSubdomains p).Covers parents' := by
  intro key packetHandler parent hreg hparent
  obtain ⟨hbefore, hp⟩ := hkeep key packetHandler parent hparent
  exact (h key packetHandler parent hreg hbefore).removeSubdomains hp

omit [DecidableEq X] in
theorem Covers.handleUnregister (h : core.Covers parents) (key : H × SubdomainPattern) :
    (core.handleUnregister key).Covers parents := by
  intro key' packetHandler parent hreg hparent
  rw [Core.handleUnregister, lookup_erase] at hreg
  split_ifs at hreg with hne
  have hleft : (core.removeSubdomains fun item =>
      item.subdomainPattern = key.2 ∧ item.hostType = key.1).Placed
      (makeSubdomainItem key' packetHandler parent) := by
    refine (h key' packetHandler parent hreg hparent).removeSubdomains ?_
    have hother : ¬ (key'.2 = key.2 ∧ key'.1 = key.1) := fun heq => hne (Prod.ext heq.2 heq.1)
    exact decide_eq_false hother
  exact hleft

/-! ## A domain is added -/

omit [DecidableEq X] in
theorem mem_templatesOf {hostType : H} {reg : (H × SubdomainPattern) × X} :
    reg ∈ core.templatesOf hostType ↔ core.registrations.lookup reg.1 = some reg.2 ∧
    reg.1.1 = hostType ∧ reg.1.2.isTemplate = true := by
  rw [templatesOf, List.mem_map]
  constructor
  · rintro ⟨⟨key, packetHandler⟩, hmem, rfl⟩
    obtain ⟨hmem, hfits⟩ := mem_filter.1 hmem
    exact ⟨AList.mem_lookup_iff.2 hmem, by simpa using hfits⟩
  · rintro ⟨hreg, hfits⟩
    exact ⟨⟨reg.1, reg.2⟩, mem_filter.2 ⟨AList.mem_lookup_iff.1 hreg, by simpa using hfits⟩, rfl⟩

@[simp] theorem registrations_addSubdomains (regs : List ((H × SubdomainPattern) × X))
    (domain : String) (core : Core H X) :
    (core.addSubdomains regs domain).registrations = core.registrations := by
  induction regs generalizing core with
  | nil => rfl
  | cons reg regs ih =>
    rw [addSubdomains, foldl_cons, ← addSubdomains, ih, registrations_addSubdomain]

variable {regs : List ((H × SubdomainPattern) × X)}

/-- **Adding the items of a domain** keeps what is covered and covers the domain. -/
theorem Covers.addSubdomains (h : core.Covers parents)
    (hregs : ∀ reg ∈ regs, core.registrations.lookup reg.1 = some reg.2) (domain : String) :
    (core.addSubdomains regs domain).Covers fun key parent => parents key parent ∨
    parent = some domain ∧ key ∈ regs.map Prod.fst := by
  induction regs generalizing core parents with
  | nil =>
    intro key packetHandler parent hreg hparent
    exact h key packetHandler parent hreg (by simpa using hparent)
  | cons reg regs ih =>
    have hnext := ih (h.addSubdomain_self (hregs reg mem_cons_self) (some domain))
      fun reg' hreg' => by
        rw [registrations_addSubdomain]
        exact hregs reg' (mem_cons_of_mem _ hreg')
    rw [Core.addSubdomains, foldl_cons, ← Core.addSubdomains]
    intro key packetHandler parent hreg hparent
    refine hnext key packetHandler parent hreg ?_
    simp only [map_cons, mem_cons] at hparent
    tauto

theorem Listed.addSubdomains (h : core.Listed parents)
    {domain : String} (hregs : ∀ reg ∈ regs, core.registrations.lookup reg.1 = some reg.2 ∧
    parents reg.1 (some domain)) : (core.addSubdomains regs domain).Listed parents := by
  induction regs generalizing core with
  | nil => exact h
  | cons reg regs ih =>
    rw [Core.addSubdomains, foldl_cons, ← Core.addSubdomains]
    obtain ⟨hreg, hparent⟩ := hregs reg mem_cons_self
    refine ih (h.addSubdomain ⟨reg.1, reg.2, some domain, hreg, hparent, rfl⟩) ?_
    intro reg' hreg'
    rw [registrations_addSubdomain]
    exact hregs reg' (mem_cons_of_mem _ hreg')

end Core

/-! ## The casts on the way -/

/-- What a cast says of a domain and a host type. -/
def about (hostType : H) (domain : String) : Cast String H → Option Bool
  | .addDomain hostType' domain' =>
    if hostType' = hostType ∧ domain' = domain then some true else none
  | .removeDomain hostType' domain' =>
    if hostType' = hostType ∧ domain' = domain then some false else none

/-- What the last of the casts that concern a domain says. -/
def lastAbout (hostType : H) (domain : String) : List (Cast String H) → Option Bool
  | [] => none
  | cast :: casts => (lastAbout hostType domain casts).or (about hostType domain cast)

theorem lastAbout_append (hostType : H) (domain : String) (casts casts' : List (Cast String H)) :
    lastAbout hostType domain (casts ++ casts') =
    (lastAbout hostType domain casts').or (lastAbout hostType domain casts) := by
  induction casts with
  | nil => simp [lastAbout]
  | cons cast casts ih => rw [cons_append, lastAbout, lastAbout, ih, Option.or_assoc]

/-- When the last cast says that the domain goes, a removal is on the way. -/
theorem removeDomain_mem_of_lastAbout {hostType : H} {domain : String}
    {casts : List (Cast String H)} (h : lastAbout hostType domain casts = some false) :
    .removeDomain hostType domain ∈ casts := by
  induction casts with
  | nil => cases h
  | cons cast casts ih =>
    rw [lastAbout, or_eq_some_iff] at h
    rcases h with h | ⟨-, h⟩
    · exact mem_cons_of_mem _ (ih h)
    · cases cast with
      | addDomain hostType' domain' => simp [about] at h
      | removeDomain hostType' domain' =>
        simp only [about, ite_none_right_eq_some, and_true] at h
        rw [h.1, h.2]
        exact mem_cons_self

/-- The cast of a message. -/
def Message.cast? : Message H X → Option (Cast String H)
  | .cast told => some told
  | _ => none

/-- The enumeration has still to come by the domain for this registration. -/
def Pc.Awaits (key : H × SubdomainPattern) (domain : String) : Pc H X → Prop
  | .idle => False
  | .forEachDomain key' _ unvisited selected => key' = key ∧ domain ∈ unvisited ++ selected

namespace System

variable (s : System H S X)

/-- The casts that `mongoose_subdomain_core` has not taken yet, in their order. -/
def casts : List (Cast String H) :=
  s.mailbox.filterMap Message.cast? ++ s.pending.toList

/-- The node has the domain with this host type, or its removal is on the way. -/
def Live (key : H × SubdomainPattern) (domain : String) : Prop :=
  s.domainCore.getHostType domain = some key.1 ∨ .removeDomain key.1 domain ∈ s.casts

/-- The node has the domain, no cast about it is on the way, and no enumeration is to come by. -/
def Due (key : H × SubdomainPattern) (domain : String) : Prop :=
  s.domainCore.getHostType domain = some key.1 ∧ lastAbout key.1 domain s.casts = none ∧
    ¬ s.pc.Awaits key domain

/-- **The invariant.** The last cast agrees with the table of domains, items belong to domains that
are there or about to be removed, and what is due is covered. -/
structure Sound (s : System H S X) : Prop where
  agrees : ∀ hostType domain told, lastAbout hostType domain s.casts = some told →
    (s.domainCore.getHostType domain = some hostType ↔ told = true)
  listed : s.core.Listed (Parent s.Live)
  covers : s.core.Covers (Parent s.Due)
  enumerating : ∀ key packetHandler unvisited selected,
    s.pc = .forEachDomain key packetHandler unvisited selected →
      s.core.registrations.lookup key = some packetHandler ∧ key.2.isTemplate = true ∧
        ∀ domain ∈ selected, s.Live key domain

omit [DecidableEq X] in
theorem sound_init (pairs : List (String × H)) (hostTypes : List H) :
    (init pairs hostTypes : System H S X).Sound := by
  constructor
  · intro hostType domain told h
    cases h
  · refine ⟨fun name item hitem => ?_, fun collision hcollision => ?_⟩
    · simp [init, Core.empty] at hitem
    · simp [init, Core.empty] at hcollision
  · intro key packetHandler parent hreg
    simp [init, Core.empty] at hreg
  · intro key packetHandler unvisited selected hpc
    cases hpc

/-! ### The steps of `mongoose_domain_core` -/

variable {s s' : System H S X}

omit [DecidableEq X] in
/-- A domain is inserted or deleted: the cast about it is the last one. Every other domain, and this
one with every other host type, is as before. -/
theorem Sound.tell (h : s.Sound) (hostType : H) (domain : String)
    (cast : Cast String H) (hcasts : s'.casts = s.casts ++ [cast])
    (hcore : s'.core = s.core)
    (hcast : ∀ hostType' domain', about hostType' domain' cast =
    if hostType = hostType' ∧ domain = domain' then
      some (decide (s'.domainCore.getHostType domain = some hostType)) else none)
    (hother : ∀ hostType' domain', ¬ (hostType = hostType' ∧ domain = domain') →
    (s'.domainCore.getHostType domain' = some hostType' ↔
      s.domainCore.getHostType domain' = some hostType'))
    (hgone : s.domainCore.getHostType domain = some hostType →
    .removeDomain hostType domain ∈ s'.casts)
    (hpc : ∀ key domain', s'.domainCore.getHostType domain' = some key.1 →
    s.pc.Awaits key domain' → s'.pc.Awaits key domain')
    (henum : ∀ key packetHandler unvisited selected,
    s'.pc = .forEachDomain key packetHandler unvisited selected →
      ∃ before, s.pc = .forEachDomain key packetHandler before selected) : s'.Sound := by
  have hlast : ∀ hostType' domain', lastAbout hostType' domain' s'.casts =
      (about hostType' domain' cast).or (lastAbout hostType' domain' s.casts) := by
    intro hostType' domain'
    rw [hcasts, lastAbout_append]
    simp [lastAbout]
  have hlive : ∀ key domain', s.Live key domain' → s'.Live key domain' := by
    rintro key domain' (hthere | hremoved)
    · by_cases hsame : hostType = key.1 ∧ domain = domain'
      · obtain ⟨rfl, rfl⟩ := hsame
        exact .inr (hgone hthere)
      · exact .inl ((hother key.1 domain' hsame).2 hthere)
    · exact .inr (by rw [hcasts]; exact mem_append_left _ hremoved)
  constructor
  · intro hostType' domain' told htold
    rw [hlast, hcast] at htold
    split_ifs at htold with hsame
    · obtain ⟨rfl, rfl⟩ := hsame
      rw [some_or, some_inj] at htold
      rw [← htold, decide_eq_true_iff]
    · rw [hother hostType' domain' hsame]
      exact h.agrees hostType' domain' told (by simpa using htold)
  · rw [hcore]
    refine h.listed.mono fun key parent hparent => ?_
    cases parent with
    | none => exact hparent
    | some domain' => exact ⟨hparent.1, hlive key domain' hparent.2⟩
  · rw [hcore]
    rintro key packetHandler (_ | domain') hreg hparent
    · exact h.covers key packetHandler none hreg hparent
    · obtain ⟨htemplate, hthere, hnone, hawaits⟩ := hparent
      rw [hlast, hcast] at hnone
      -- the domain of the cast is not due, since the cast is on the way
      split_ifs at hnone with hsame
      · simp at hnone
      · exact h.covers key packetHandler (some domain') hreg
          ⟨htemplate, (hother key.1 domain' hsame).1 hthere, by simpa using hnone,
            fun hbefore => hawaits (hpc key domain' hthere hbefore)⟩
  · intro key packetHandler unvisited selected hforEach
    obtain ⟨before, hbefore⟩ := henum key packetHandler unvisited selected hforEach
    obtain ⟨hreg, htemplate, hselected⟩ := h.enumerating key packetHandler before selected hbefore
    exact ⟨by rw [hcore, hreg], htemplate, fun domain' hmem =>
      hlive key domain' (hselected domain' hmem)⟩

omit [DecidableEq X] in
theorem Sound.congr (h : s.Sound)
    (htable : ∀ domain, s'.domainCore.getHostType domain = s.domainCore.getHostType domain)
    (hcasts : s'.casts = s.casts) (hcore : s'.core = s.core) (hpc : s'.pc = s.pc) : s'.Sound := by
  have hlive : s'.Live = s.Live := by
    funext key domain
    rw [Live, Live, htable, hcasts]
  have hdue : s'.Due = s.Due := by
    funext key domain
    rw [Due, Due, htable, hcasts, hpc]
  constructor
  · intro hostType domain told
    rw [hcasts, htable]
    exact h.agrees hostType domain told
  · rw [hcore, hlive]
    exact h.listed
  · rw [hcore, hdue]
    exact h.covers
  · rw [hcore, hlive, hpc]
    exact h.enumerating

omit [DecidableEq H] in
/-- After a change of the table of domains, by cases on the domain. -/
theorem getHostType_insert (core : DomainCore String H S) (domain domain' : String) (hostType : H)
    (source : Source S) :
    ({ core with table := core.table.insert domain (hostType, source) } :
    DomainCore String H S).getHostType domain' =
    if domain' = domain then some hostType else core.getHostType domain' := by
  rw [DomainCore.getHostType, lookup_insert]
  split_ifs <;> rfl

section

variable (h : s.Sound) (domain : String)

include h

theorem Sound.insert (hostType : H)
    (source : S) : (s.step (.insert domain hostType source)).Sound := by
  rw [step]
  cases hpending : s.pending with
  | some cast => exact h
  | none =>
    simp only
    rcases s.domainCore.handleInsert_cases domain hostType source with
      ⟨hfree, -, heq⟩ | ⟨⟨old, hold⟩, -, heq⟩ | ⟨res, heq, -⟩
    · -- a new domain, with its cast
      rw [heq]
      have hnone : s.domainCore.getHostType domain = none := by
        rw [DomainCore.getHostType, hfree]
        rfl
      refine h.tell hostType domain (.addDomain hostType domain) ?_ rfl ?_ ?_ ?_ ?_ ?_
      · simp [casts, hpending]
      · intro hostType' domain'
        simp [about, getHostType_insert]
      · intro hostType' domain' hne
        simp only [getHostType_insert]
        split_ifs with hsame
        · subst hsame
          simp only [hnone, some_inj, reduceCtorEq, iff_false]
          exact fun heq => hne ⟨heq, rfl⟩
        · rfl
      · intro hthere
        rw [hnone] at hthere
        cases hthere
      · exact fun key domain' _ hawaits => hawaits
      · exact fun key packetHandler unvisited selected hpc => ⟨unvisited, hpc⟩
    · -- the same domain again
      rw [heq]
      refine h.congr (fun domain' => ?_) (by simp [casts, hpending]) rfl rfl
      simp only [getHostType_insert]
      split_ifs with hsame
      · rw [hsame, DomainCore.getHostType, hold]
        rfl
      · rfl
    · rw [heq]
      exact h.congr (fun _ => rfl) (by simp [casts, hpending]) rfl rfl

theorem Sound.delete : (s.step (.delete domain)).Sound := by
  rw [step]
  cases hpending : s.pending with
  | some cast => exact h
  | none =>
    simp only
    rcases s.domainCore.handleDelete_cases domain with ⟨hostType, source, hthere, heq⟩ | ⟨heq, -⟩
    · rw [heq]
      have hbefore : s.domainCore.getHostType domain = some hostType := by
        rw [DomainCore.getHostType, hthere]
        rfl
      have hafter : ∀ domain', ({ s.domainCore with
          table := s.domainCore.table.erase domain } : DomainCore String H S).getHostType domain' =
          if domain' = domain then none else s.domainCore.getHostType domain' := by
        intro domain'
        rw [DomainCore.getHostType, lookup_erase]
        split_ifs <;> rfl
      refine h.tell hostType domain (.removeDomain hostType domain) ?_ rfl ?_ ?_ ?_ ?_ ?_
      · simp [casts, hpending]
      · intro hostType' domain'
        simp [about, hafter]
      · intro hostType' domain' hne
        simp only [hafter]
        split_ifs with hsame
        · subst hsame
          simp only [hbefore, some_inj, false_iff]
          exact fun heq => hne ⟨heq, rfl⟩
        · rfl
      · intro _
        simp [casts]
      · -- the enumeration does not wait for the deleted domain, which is not due
        intro key domain' hstill hawaits
        simp only [hafter] at hstill
        split_ifs at hstill with hsame
        cases hpc : s.pc with
        | idle => rw [hpc] at hawaits; exact hawaits
        | forEachDomain key' packetHandler unvisited selected =>
          rw [hpc] at hawaits
          simpa [Pc.withoutDomain, Pc.Awaits, hsame] using hawaits
      · intro key packetHandler unvisited selected hforEach
        cases hpc : s.pc with
        | idle => simp [hpc, Pc.withoutDomain] at hforEach
        | forEachDomain key' packetHandler' unvisited' selected' =>
          simp only [hpc, Pc.withoutDomain, Pc.forEachDomain.injEq] at hforEach
          obtain ⟨rfl, rfl, -, rfl⟩ := hforEach
          exact ⟨unvisited', rfl⟩
    · rw [heq]
      exact h

/-! ### The steps of `mongoose_subdomain_core` -/

theorem Sound.select : (s.step (.select domain)).Sound := by
  rw [step]
  cases hpc : s.pc with
  | idle => exact h
  | forEachDomain key packetHandler unvisited selected =>
    simp only
    split_ifs with hthere
    · obtain ⟨hreg, htemplate, hselected⟩ := h.enumerating key packetHandler unvisited selected hpc
      refine ⟨h.agrees, h.listed, ?_, ?_⟩
      · -- the enumeration still comes by the domain, which is now selected
        rintro key' packetHandler' (_ | domain') hreg' hparent
        · exact h.covers key' packetHandler' none hreg' hparent
        · obtain ⟨htemplate', hthere', hnone, hawaits⟩ := hparent
          refine h.covers key' packetHandler' (some domain') hreg' ⟨htemplate', hthere', hnone, ?_⟩
          rw [hpc]
          rintro ⟨rfl, hmem⟩
          refine hawaits ⟨rfl, ?_⟩
          by_cases hsame : domain' = domain
          · simp [hsame]
          · rcases mem_append.1 hmem with hmem | hmem
            · simp [hmem, hsame]
            · simp [hmem]
      · intro key' packetHandler' unvisited' selected' hforEach
        simp only [Pc.forEachDomain.injEq] at hforEach
        obtain ⟨rfl, rfl, -, rfl⟩ := hforEach
        refine ⟨hreg, htemplate, fun domain' hmem => ?_⟩
        rcases mem_append.1 hmem with hmem | hmem
        · exact hselected domain' hmem
        · rw [mem_singleton.1 hmem]
          exact .inl hthere
    · exact h

end

theorem Sound.handleRegisterSync (h : s.Sound) (hidle : s.pc = .idle)
    (key : H × SubdomainPattern) (packetHandler : X) :
    (s.handleRegisterSync key packetHandler).Sound := by
  rw [System.handleRegisterSync]
  split
  · exact h
  · rename_i hnew
    have hlisted := h.listed.insert packetHandler hnew
    have hcovers := h.covers.insert key packetHandler
    have hreg : (s.core.registrations.insert key packetHandler).lookup key = some packetHandler :=
      AList.lookup_insert _
    split
    · rename_i subdomain hfqdn
      have hparent : Parent s.Live key none := by rw [Parent, hfqdn]; rfl
      refine ⟨h.agrees, ?_, ?_, ?_⟩
      · exact hlisted.addSubdomain ⟨key, packetHandler, none, hreg, hparent, rfl⟩
      · intro key' packetHandler' parent hreg' hparent'
        refine hcovers.addSubdomain_self hreg none key' packetHandler' parent hreg' ?_
        by_cases hsame : key' = key
        · subst hsame
          cases parent with
          | none => exact .inr ⟨rfl, rfl⟩
          | some domain => simp [Parent, hfqdn, SubdomainPattern.isTemplate] at hparent'
        · exact .inl ⟨hparent', hsame⟩
      · intro key' packetHandler' unvisited selected hforEach
        cases hidle.symm.trans hforEach
    · rename_i head htemplate
      refine ⟨h.agrees, hlisted, ?_, ?_⟩
      · intro key' packetHandler' parent hreg' hparent'
        refine hcovers key' packetHandler' parent hreg' ?_
        cases parent with
        | none =>
          refine ⟨hparent', ?_⟩
          rintro rfl
          simp [Parent, htemplate, SubdomainPattern.isTemplate] at hparent'
        | some domain =>
          obtain ⟨htemplate', hthere, hnone, hawaits⟩ := hparent'
          refine ⟨⟨htemplate', hthere, hnone, by rw [hidle]; exact id⟩, ?_⟩
          rintro rfl
          -- the enumeration starts with every domain of the host type
          refine hawaits ⟨rfl, mem_append_left _ (mem_filter.2 ⟨?_, ?_⟩)⟩
          · have hsome : (s.domainCore.table.lookup domain).isSome := by
              rw [← isSome_map (f := Prod.fst)]
              exact isSome_iff_exists.2 ⟨_, hthere⟩
            exact AList.mem_keys.2 (AList.lookup_isSome.1 hsome)
          · exact decide_eq_true hthere
      · intro key' packetHandler' unvisited selected hforEach
        simp only [Pc.forEachDomain.injEq] at hforEach
        obtain ⟨rfl, rfl, -, rfl⟩ := hforEach
        exact ⟨hreg, by rw [htemplate]; rfl, by simp⟩

omit [DecidableEq X] in
theorem Sound.handleUnregister (h : s.Sound) (hidle : s.pc = .idle) (key : H × SubdomainPattern) :
    ({ s with core := s.core.handleUnregister key } : System H S X).Sound := by
  refine ⟨h.agrees, h.listed.handleUnregister key, h.covers.handleUnregister key, ?_⟩
  intro key' packetHandler unvisited selected hforEach
  cases hidle.symm.trans hforEach

variable {hostType : H} {domain : String} {cast : Cast String H} {casts : List (Cast String H)}

/-- A cast is taken that nothing later on the way contradicts: what was said before is not about
the domain. -/
theorem lastAbout_of_cons (hnone : lastAbout hostType domain casts = none) :
    lastAbout hostType domain (cast :: casts) = about hostType domain cast := by
  rw [lastAbout, hnone, none_or]

theorem lastAbout_cons_of_some {told : Bool} (htold : lastAbout hostType domain casts = some told) :
    lastAbout hostType domain (cast :: casts) = some told := by
  rw [lastAbout, htold, some_or]

theorem Sound.handleAddDomain (h : s.Sound) (hidle : s.pc = .idle)
    (hcasts : s.casts = .addDomain hostType domain :: s'.casts)
    (htable : s'.domainCore = s.domainCore) (hpc : s'.pc = .idle)
    (hcore : s'.core = s.core.handleAddDomain hostType domain) : s'.Sound := by
  have hlive : ∀ key domain', s.Live key domain' → s'.Live key domain' := by
    rintro key domain' (hthere | hremoved)
    · exact .inl (by rw [htable]; exact hthere)
    · rw [hcasts] at hremoved
      exact .inr (by simpa using hremoved)
  -- the domain is still there unless its removal is on the way
  have hhere : ∀ key : H × SubdomainPattern, key.1 = hostType → s'.Live key domain := by
    rintro key rfl
    cases hlast : lastAbout key.1 domain s'.casts with
    | none =>
      have hadd : lastAbout key.1 domain s.casts = some true := by
        rw [hcasts, lastAbout_of_cons hlast]
        simp [about]
      exact .inl (by rw [htable]; exact (h.agrees _ _ _ hadd).2 rfl)
    | some told =>
      have hbefore : lastAbout key.1 domain s.casts = some told := by
        rw [hcasts, lastAbout_cons_of_some hlast]
      cases told with
      | true => exact .inl (by rw [htable]; exact (h.agrees _ _ _ hbefore).2 rfl)
      | false => exact .inr (removeDomain_mem_of_lastAbout hlast)
  constructor
  · intro hostType' domain' told htold
    rw [htable]
    exact h.agrees hostType' domain' told (by rw [hcasts, lastAbout_cons_of_some htold])
  · rw [hcore]
    refine Core.Listed.addSubdomains (h.listed.mono fun key parent hparent => ?_) ?_
    · cases parent with
      | none => exact hparent
      | some domain' => exact ⟨hparent.1, hlive key domain' hparent.2⟩
    · intro reg hmem
      obtain ⟨hreg, hhost, htemplate⟩ := Core.mem_templatesOf.1 hmem
      exact ⟨hreg, htemplate, hhere reg.1 hhost⟩
  · rw [hcore]
    intro key packetHandler parent hreg hparent
    refine h.covers.addSubdomains (fun reg hmem => (Core.mem_templatesOf.1 hmem).1) domain
      key packetHandler parent hreg ?_
    rw [Core.handleAddDomain, Core.registrations_addSubdomains] at hreg
    cases parent with
    | none => exact .inl hparent
    | some domain' =>
      obtain ⟨htemplate, hthere, hnone, -⟩ := hparent
      by_cases hsame : hostType = key.1 ∧ domain = domain'
      · obtain ⟨rfl, rfl⟩ := hsame
        exact .inr ⟨rfl, List.mem_map.2
          ⟨(key, packetHandler), Core.mem_templatesOf.2 ⟨hreg, rfl, htemplate⟩, rfl⟩⟩
      · rw [htable] at hthere
        refine .inl ⟨htemplate, hthere, ?_, by rw [hidle]; exact id⟩
        rw [hcasts, lastAbout_of_cons hnone, about, if_neg hsame]
  · intro key packetHandler unvisited selected hforEach
    cases hpc.symm.trans hforEach

omit [DecidableEq X] in
theorem Sound.handleRemoveDomain (h : s.Sound) (hidle : s.pc = .idle)
    (hcasts : s.casts = .removeDomain hostType domain :: s'.casts)
    (htable : s'.domainCore = s.domainCore) (hpc : s'.pc = .idle)
    (hcore : s'.core = s.core.handleRemoveDomain hostType domain) : s'.Sound := by
  constructor
  · intro hostType' domain' told htold
    rw [htable]
    exact h.agrees hostType' domain' told (by rw [hcasts, lastAbout_cons_of_some htold])
  · rw [hcore]
    refine h.listed.removeSubdomains _ fun key packetHandler parent hparent hkept => ?_
    cases parent with
    | none => exact hparent
    | some domain' =>
      refine ⟨hparent.1, ?_⟩
      rcases hparent.2 with hthere | hremoved
      · exact .inl (by rw [htable]; exact hthere)
      · -- the items of the removed domain are gone, so this is another removal
        rw [hcasts, mem_cons, Cast.removeDomain.injEq] at hremoved
        rcases hremoved with ⟨hhost, hdomain⟩ | hremoved
        · simp [makeSubdomainItem, hhost, hdomain] at hkept
        · exact .inr hremoved
  · rw [hcore]
    refine h.covers.removeSubdomains _ fun key packetHandler parent hparent => ?_
    cases parent with
    | none => exact ⟨hparent, by simp [makeSubdomainItem]⟩
    | some domain' =>
      obtain ⟨htemplate, hthere, hnone, -⟩ := hparent
      rw [htable] at hthere
      have hlast : lastAbout key.1 domain' s.casts =
          if hostType = key.1 ∧ domain = domain' then some false else none := by
        rw [hcasts, lastAbout_of_cons hnone, about]
      by_cases hsame : hostType = key.1 ∧ domain = domain'
      · rw [if_pos hsame] at hlast
        exact absurd ((h.agrees _ _ _ hlast).1 hthere) (by simp)
      · rw [if_neg hsame] at hlast
        refine ⟨⟨htemplate, hthere, hlast, by rw [hidle]; exact id⟩, ?_⟩
        refine decide_eq_false fun heq => hsame ?_
        simp only [makeSubdomainItem, some_inj] at heq
        exact ⟨heq.2.symm, heq.1.symm⟩
  · intro key packetHandler unvisited selected hforEach
    cases hpc.symm.trans hforEach

theorem Sound.work (h : s.Sound) : s.work.Sound := by
  rw [System.work]
  split
  · rename_i hidle
    split
    · exact h
    · rename_i message rest hmailbox
      have hcasts : s.casts = message.cast?.toList ++ rest.filterMap Message.cast? ++
          s.pending.toList := by
        rw [casts, hmailbox, filterMap_cons]
        cases message.cast? <;> rfl
      cases message with
      | register key packetHandler =>
        refine Sound.handleRegisterSync (s := { s with mailbox := rest }) ?_ hidle key packetHandler
        exact h.congr (fun _ => rfl) hcasts.symm rfl rfl
      | unregister key =>
        refine Sound.handleUnregister (s := { s with mailbox := rest }) ?_ hidle key
        exact h.congr (fun _ => rfl) hcasts.symm rfl rfl
      | cast told =>
        cases told with
        | addDomain hostType domain => exact h.handleAddDomain hidle hcasts rfl hidle rfl
        | removeDomain hostType domain => exact h.handleRemoveDomain hidle hcasts rfl hidle rfl
  · -- a selected domain is handled
    rename_i key packetHandler unvisited domain selected hpc
    obtain ⟨hreg, htemplate, hselected⟩ := h.enumerating _ _ _ _ hpc
    refine ⟨h.agrees, ?_, ?_, ?_⟩
    · refine h.listed.addSubdomain ⟨key, packetHandler, some domain, hreg, ⟨htemplate, ?_⟩, rfl⟩
      exact hselected domain mem_cons_self
    · intro key' packetHandler' parent hreg' hparent
      refine h.covers.addSubdomain_self hreg (some domain) key' packetHandler' parent hreg' ?_
      cases parent with
      | none => exact .inl hparent
      | some domain' =>
        obtain ⟨htemplate', hthere, hnone, hawaits⟩ := hparent
        by_cases hsame : key' = key ∧ domain' = domain
        · exact .inr ⟨hsame.1, congrArg some hsame.2⟩
        · refine .inl ⟨htemplate', hthere, hnone, ?_⟩
          rw [hpc]
          rintro ⟨rfl, hmem⟩
          refine hawaits ⟨rfl, ?_⟩
          simp only [mem_append, mem_cons] at hmem ⊢
          tauto
    · intro key' packetHandler' unvisited' selected' hforEach
      simp only [Pc.forEachDomain.injEq] at hforEach
      obtain ⟨rfl, rfl, -, rfl⟩ := hforEach
      refine ⟨by rw [Core.registrations_addSubdomain]; exact hreg, htemplate, ?_⟩
      exact fun domain' hmem => hselected domain' (mem_cons_of_mem _ hmem)
  · -- the enumeration ends
    rename_i key packetHandler hpc
    refine ⟨h.agrees, h.listed, ?_, fun _ _ _ _ hforEach => by cases hforEach⟩
    intro key' packetHandler' parent hreg' hparent
    refine h.covers key' packetHandler' parent hreg' ?_
    cases parent with
    | none => exact hparent
    | some domain' =>
      obtain ⟨htemplate', hthere, hnone, -⟩ := hparent
      refine ⟨htemplate', hthere, hnone, ?_⟩
      rw [hpc]
      rintro ⟨-, hmem⟩
      simp at hmem
  · exact h

/-! ### Runs -/

theorem Sound.step (h : s.Sound) (event : Event H S X) : (s.step event).Sound := by
  cases event with
  | insert domain hostType source => exact h.insert domain hostType source
  | delete domain => exact h.delete domain
  | cast =>
    rw [System.step]
    split
    · exact h
    · rename_i told hpending
      refine h.congr (fun _ => rfl) ?_ rfl rfl
      simp [casts, hpending, Message.cast?]
  | register key packetHandler =>
    refine h.congr (fun _ => rfl) ?_ rfl rfl
    simp [System.step, casts, Message.cast?]
  | unregister key =>
    refine h.congr (fun _ => rfl) ?_ rfl rfl
    simp [System.step, casts, Message.cast?]
  | select domain => exact h.select domain
  | work => exact h.work

theorem sound_run (pairs : List (String × H)) (hostTypes : List H)
    (events : List (Event H S X)) : (run pairs hostTypes events).Sound := by
  rw [run]
  induction events using reverseRecOn with
  | nil => exact sound_init pairs hostTypes
  | append_singleton events event ih =>
    rw [foldl_concat]
    exact ih.step event

/-- **The table of subdomains is the product.** Once all mailboxes are empty, every item is that of
a registered pattern and a current domain, and each such pair has its item, unless its latest
addition was refused for its name. -/
theorem subdomains_are_product (pairs : List (String × H)) (hostTypes : List H)
    (events : List (Event H S X)) (hquiet : (run pairs hostTypes events).Quiet) :
    (∀ name item, (run pairs hostTypes events).core.subdomains.lookup name = some item →
    name = item.subdomain ∧ (run pairs hostTypes events).Registered item) ∧
    ∀ item, (run pairs hostTypes events).Registered item →
    (run pairs hostTypes events).core.subdomains.lookup item.subdomain = some item ∨
    ∃ existing, (item, existing) ∈ (run pairs hostTypes events).core.collisions ∧
      existing ≠ item ∧ existing.subdomain = item.subdomain := by
  have h := sound_run pairs hostTypes events
  generalize run pairs hostTypes events = s at h hquiet
  obtain ⟨hidle, hmailbox, hpending⟩ := hquiet
  have hcasts : s.casts = [] := by simp [casts, hmailbox, hpending]
  constructor
  · refine fun name item hitem => (h.listed.mono fun key parent hparent => ?_).items name item hitem
    cases parent with
    | none => exact hparent
    | some domain =>
      rcases hparent.2 with hthere | hremoved
      · exact ⟨hparent.1, hthere⟩
      · rw [hcasts] at hremoved
        cases hremoved
  · rintro item ⟨key, packetHandler, parent, hreg, hparent, rfl⟩
    have hplaced := h.covers key packetHandler parent hreg ?_
    · refine hplaced.imp_right fun ⟨existing, hcollision⟩ => ?_
      exact ⟨existing, hcollision, h.listed.collide _ hcollision⟩
    · cases parent with
      | none => exact hparent
      | some domain =>
        refine ⟨hparent.1, hparent.2, by rw [hcasts]; rfl, ?_⟩
        rw [hidle]
        exact id

/-! ### A collision -/

/-- Two templates of one host type and two domains that give one name. -/
def collidingEvents : List (Event String Unit Unit) :=
  [.register ("example", .template "muc.eu.") (), .work, .work,
    .register ("example", .template "muc.") (), .work, .work,
    .insert "example.com" "example" (), .cast, .work,
    .insert "eu.example.com" "example" (), .cast, .work]

theorem subdomains_are_product_collided :
    (run [] ["example"] collidingEvents).core.subdomains.lookup "muc.eu.example.com" =
    some (makeSubdomainItem ("example", .template "muc.eu.") () (some "example.com")) ∧
    (run [] ["example"] collidingEvents).Registered
    (makeSubdomainItem ("example", .template "muc.eu.") () (some "example.com")) := by
  have hlookup : (run [] ["example"] collidingEvents).core.subdomains.lookup "muc.eu.example.com" =
      some (makeSubdomainItem ("example", .template "muc.eu.") () (some "example.com")) := by decide
  refine ⟨hlookup, ?_⟩
  have hquiet : (run [] ["example"] collidingEvents).Quiet := ⟨by rfl, by decide, by decide⟩
  exact ((subdomains_are_product [] ["example"] collidingEvents hquiet).1 _ _ hlookup).2

/-- **The other pair is not added again.** The domain whose item has the name is deleted: the other
pair is registered, and no item has the name. -/
theorem colliding_pair_not_added_again :
    (run [] ["example"] (collidingEvents ++ [.delete "example.com", .cast, .work])).Quiet ∧
    (run [] ["example"] (collidingEvents ++ [.delete "example.com", .cast, .work])).Registered
    (makeSubdomainItem ("example", .template "muc.") () (some "eu.example.com")) ∧
    (run [] ["example"] (collidingEvents ++
    [.delete "example.com", .cast, .work])).core.subdomains.lookup "muc.eu.example.com" = none := by
  refine ⟨⟨by rfl, by decide, by decide⟩, ?_, by decide⟩
  exact ⟨("example", .template "muc."), (), some "eu.example.com", by decide,
    ⟨by decide, by decide⟩, rfl⟩

end System

end MongooseIM.Domain.Subdomains
