import MongooseIM.Domain.DomainCore

/-! # The table of subdomains

`mongoose_subdomain_core` keeps an item for each registered pattern and each domain of its host
type. It is told of domains by casts of `mongoose_domain_core`, which changes its own table first,
and reads that table when a pattern is registered. -/

namespace MongooseIM.Domain.Subdomains

open Erlang Domain

/-- `subdomain_pattern()`: `{fqdn, Subdomain}` or `{prefix, Prefix}`. -/
inductive SubdomainPattern
  | fqdn (subdomain : String)
  | template (head : String)
  deriving DecidableEq

/-- `mongoose_subdomain_utils:subdomain_type/1` is `subdomain`. -/
def SubdomainPattern.isTemplate : SubdomainPattern → Bool
  | .fqdn _ => false
  | .template _ => true

/-- `mongoose_subdomain_utils:get_fqdn/2` -/
def getFqdn : SubdomainPattern → String → String
  | .fqdn subdomain, _ => subdomain
  | .template head, domain => head ++ domain

/-- `#subdomain_item{}`; no parent domain stands for `no_parent_domain`. -/
structure SubdomainItem (H X : Type*) where
  hostType : H
  subdomain : String
  parentDomain : Option String
  subdomainPattern : SubdomainPattern
  packetHandler : X
  deriving DecidableEq

variable {H X : Type*}

/-- `make_subdomain_item/2` -/
def makeSubdomainItem (key : H × SubdomainPattern) (packetHandler : X) (domain : Option String) :
    SubdomainItem H X where
  hostType := key.1
  subdomain := getFqdn key.2 (domain.getD "")
  parentDomain := domain
  subdomainPattern := key.2
  packetHandler := packetHandler

variable [DecidableEq H] [DecidableEq X]

/-! ## The process -/

/-- The tables of `mongoose_subdomain_core`. -/
structure Core (H X : Type*) where
  /-- `?REGISTRATION_TABLE` -/
  registrations : AList fun _ : H × SubdomainPattern => X
  /-- `?SUBDOMAINS_TABLE`, by name. -/
  subdomains : AList fun _ : String => SubdomainItem H X
  /-- The items whose latest addition was refused, each with the item that had the name then:
  what `report_subdomains_collision/2` has logged. -/
  collisions : List (SubdomainItem H X × SubdomainItem H X)

namespace Core

/-- Nothing is registered. -/
def empty : Core H X := ⟨∅, ∅, []⟩

variable (item : SubdomainItem H X) (core : Core H X)

/-- The collisions but for those of this item. -/
def otherCollisions : List (SubdomainItem H X × SubdomainItem H X) :=
  core.collisions.filter fun collision => collision.1 ≠ item

/-- `add_subdomain/2` -/
def addSubdomain : Core H X :=
  match core.subdomains.lookup item.subdomain with
  | none => { core with
      subdomains := core.subdomains.insert item.subdomain item
      collisions := core.otherCollisions item }
  | some existing =>
    if existing = item then { core with collisions := core.otherCollisions item }
    else { core with collisions := (item, existing) :: core.otherCollisions item }

variable (hostType : H)

/-- The registrations that `handle_add_domain/2` finds. -/
def templatesOf : List ((H × SubdomainPattern) × X) :=
  (core.registrations.entries.filter fun reg =>
    reg.1.1 = hostType && reg.1.2.isTemplate).map fun reg => (reg.1, reg.2)

/-- `add_subdomains/2` -/
def addSubdomains (regs : List ((H × SubdomainPattern) × X)) (domain : String) (core : Core H X) :
    Core H X :=
  regs.foldl (fun core reg => core.addSubdomain (makeSubdomainItem reg.1 reg.2 (some domain))) core

/-- `remove_subdomains/1` of the items that match. -/
def removeSubdomains (p : SubdomainItem H X → Bool) (core : Core H X) : Core H X :=
  { core with
    subdomains := ((core.subdomains.entries.filter fun entry => p entry.2).map Sigma.fst).foldl
      (fun subdomains name => subdomains.erase name) core.subdomains }

/-- `handle_unregister/2` -/
def handleUnregister (key : H × SubdomainPattern) (core : Core H X) : Core H X :=
  let core := core.removeSubdomains fun item =>
    item.subdomainPattern = key.2 ∧ item.hostType = key.1
  { core with registrations := core.registrations.erase key }

/-- `handle_add_domain/2` -/
def handleAddDomain (domain : String) (core : Core H X) : Core H X :=
  core.addSubdomains (core.templatesOf hostType) domain

/-- `handle_remove_domain/2` -/
def handleRemoveDomain (domain : String) (core : Core H X) : Core H X :=
  core.removeSubdomains fun item => item.parentDomain = some domain ∧ item.hostType = hostType

end Core

/-! ## The processes together -/

/-- What the mailbox of `mongoose_subdomain_core` holds. -/
inductive Message (H X : Type*)
  | register (key : H × SubdomainPattern) (packetHandler : X)
  | unregister (key : H × SubdomainPattern)
  | cast (cast : Cast String H)

/-- Where `mongoose_subdomain_core` is. -/
inductive Pc (H X : Type*)
  | idle
  /-- In `for_each_domain/2` for a registration: the domains that were in the table from its start
  on and are not selected yet, and the selected ones that are not handled yet. -/
  | forEachDomain (key : H × SubdomainPattern) (packetHandler : X) (unvisited selected : List String)

/-- Both processes. -/
structure System (H S X : Type*) where
  domainCore : DomainCore String H S
  /-- The cast that `mongoose_domain_core` has to send for its latest change. -/
  pending : Option (Cast String H)
  mailbox : List (Message H X)
  core : Core H X
  pc : Pc H X

/-- What happens. -/
inductive Event (H S X : Type*)
  /-- `mongoose_domain_core` takes a call of `insert/3` and writes its table. -/
  | insert (domain : String) (hostType : H) (source : S)
  /-- `mongoose_domain_core` takes a call of `delete/1` and writes its table. -/
  | delete (domain : String)
  /-- `mongoose_domain_core` sends its cast. -/
  | cast
  /-- The call `register_subdomain/3` -/
  | register (key : H × SubdomainPattern) (packetHandler : X)
  /-- The call `unregister_subdomain/2` -/
  | unregister (key : H × SubdomainPattern)
  /-- `for_each_domain/2` selects a domain. -/
  | select (domain : String)
  /-- `mongoose_subdomain_core` takes a message, or handles a selected domain. -/
  | work

/-- A domain that is deleted while the table is being selected need not be selected. -/
def Pc.withoutDomain (domain : String) : Pc H X → Pc H X
  | .idle => .idle
  | .forEachDomain key packetHandler unvisited selected =>
    .forEachDomain key packetHandler (unvisited.filter fun other => other ≠ domain) selected

namespace System

variable {S : Type*} (pairs : List (String × H))

/-- A node with these static domains and these host types. -/
def init (hostTypes : List H) : System H S X :=
  ⟨.init pairs hostTypes, none, [], .empty, .idle⟩

variable (s : System H S X)

/-- The domains of a host type. -/
def domainsOf (hostType : H) : List String :=
  s.domainCore.table.keys.filter fun domain => s.domainCore.getHostType domain = some hostType

/-- `handle_register_sync/4` -/
def handleRegisterSync (key : H × SubdomainPattern) (packetHandler : X) : System H S X :=
  match s.core.registrations.lookup key with
  | some _ => s
  | none =>
    let core := { s.core with registrations := s.core.registrations.insert key packetHandler }
    match key.2 with
    | .fqdn _ => { s with core := core.addSubdomain (makeSubdomainItem key packetHandler none) }
    | .template _ => { s with
        core := core
        pc := .forEachDomain key packetHandler (s.domainsOf key.1) [] }

/-- A message is taken. -/
def handle (s : System H S X) : Message H X → System H S X
  | .register key packetHandler => s.handleRegisterSync key packetHandler
  | .unregister key => { s with core := s.core.handleUnregister key }
  | .cast (.addDomain hostType domain) => { s with core := s.core.handleAddDomain hostType domain }
  | .cast (.removeDomain hostType domain) =>
    { s with core := s.core.handleRemoveDomain hostType domain }

/-- One step of `mongoose_subdomain_core`: a selection ends only when it has come by every domain
that was there all the time. -/
def work : System H S X :=
  match s.pc with
  | .idle =>
    match s.mailbox with
    | [] => s
    | message :: rest => handle { s with mailbox := rest } message
  | .forEachDomain key packetHandler unvisited (domain :: selected) => { s with
      core := s.core.addSubdomain (makeSubdomainItem key packetHandler (some domain))
      pc := .forEachDomain key packetHandler unvisited selected }
  | .forEachDomain _ _ [] [] => { s with pc := .idle }
  | .forEachDomain _ _ (_ :: _) [] => s

/-- One step of the processes; what is not possible changes nothing. -/
def step : Event H S X → System H S X
  | .insert domain hostType source =>
    match s.pending with
    | some _ => s
    | none =>
      let (_, domainCore, cast) := s.domainCore.handleInsert domain hostType source
      { s with domainCore := domainCore, pending := cast }
  | .delete domain =>
    match s.pending with
    | some _ => s
    | none =>
      match s.domainCore.handleDelete domain with
      | (_, none) => s
      | (domainCore, some cast) => { s with
          domainCore := domainCore
          pending := some cast
          pc := s.pc.withoutDomain domain }
  | .cast =>
    match s.pending with
    | none => s
    | some cast => { s with mailbox := s.mailbox ++ [.cast cast], pending := none }
  | .register key packetHandler => { s with mailbox := s.mailbox ++ [.register key packetHandler] }
  | .unregister key => { s with mailbox := s.mailbox ++ [.unregister key] }
  | .select domain =>
    match s.pc with
    | .idle => s
    | .forEachDomain key packetHandler unvisited selected =>
      if s.domainCore.getHostType domain = some key.1 then { s with
        pc := .forEachDomain key packetHandler (unvisited.filter fun other => other ≠ domain)
          (selected ++ [domain]) }
      else s
  | .work => s.work

/-- The processes after these events. -/
def run (hostTypes : List H) (events : List (Event H S X)) : System H S X :=
  events.foldl step (init pairs hostTypes)

/-- All mailboxes are empty and nobody is at work. -/
def Quiet : Prop :=
  s.pc = .idle ∧ s.mailbox = [] ∧ s.pending = none

end System

/-- The parents with which a pattern gives an item: none for a full name, the domains for a
template. -/
def Parent (domains : H × SubdomainPattern → String → Prop) (key : H × SubdomainPattern) :
    Option String → Prop
  | none => key.2.isTemplate = false
  | some domain => key.2.isTemplate = true ∧ domains key domain

/-- The item is what a registered pattern gives with one of its parents. -/
def IsProduct (registrations : AList fun _ : H × SubdomainPattern => X)
    (parents : H × SubdomainPattern → Option String → Prop) (item : SubdomainItem H X) : Prop :=
  ∃ key packetHandler parent, registrations.lookup key = some packetHandler ∧ parents key parent ∧
    item = makeSubdomainItem key packetHandler parent

/-- The product of the registered patterns and the current domains. -/
def System.Registered {S : Type*} (s : System H S X) (item : SubdomainItem H X) : Prop :=
  IsProduct s.core.registrations
    (Parent fun key domain => s.domainCore.getHostType domain = some key.1) item

end MongooseIM.Domain.Subdomains
