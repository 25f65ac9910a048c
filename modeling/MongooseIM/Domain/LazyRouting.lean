import Mathlib.Data.List.Induction
import MongooseIM.Erlang.Maps

/-! # Lazy routing

`mongoose_lazy_routing` enters a domain or a subdomain into its routing table when it is first
looked up, and keeps the IQ handlers of the components in step with that table and with its table
of IQ handlers. Domains and subdomains live in the tables of two other processes, which delete an
entry first and tell the router by a cast later. -/

namespace MongooseIM.Domain.LazyRouting

open Erlang List Option

variable {H D P N C X : Type*}

/-- The second element of a routing entry: `HostType`, or `{HostType, SubdomainPattern}`. -/
structure Target (H P : Type*) where
  hostType : H
  subdomainPattern : Option P
  deriving DecidableEq

/-- `#iq_table_key{}` -/
structure IqTableKey (H P N C : Type*) where
  target : Target H P
  namespace_ : N
  component : C
  deriving DecidableEq

variable [DecidableEq H] [DecidableEq D] [DecidableEq P] [DecidableEq N] [DecidableEq C]

/-- The tables of the process, and the handlers of the components by component, domain and
namespace, as they are once the components have read their messages. -/
structure Tables (H D P N C X : Type*) where
  /-- `?ROUTING_TABLE` -/
  routing : AList fun _ : D => Target H P
  iqs : AList fun _ : IqTableKey H P N C => X
  /-- What `gen_iq_component` has registered. -/
  handlers : C × D × N → Option X

namespace Tables

/-- Nothing is registered. -/
def empty : Tables H D P N C X := ⟨∅, ∅, fun _ => none⟩

variable (t : Tables H D P N C X)

/-- `get_iqs/1` -/
def getIqs (target : Target H P) : List (IqTableKey H P N C × X) :=
  (t.iqs.entries.filter fun iq => iq.1.target = target).map fun iq => (iq.1, iq.2)

/-- `ets:match_object(?ROUTING_TABLE, {'_', Target})` -/
def matchDomains (target : Target H P) : List (D × Target H P) :=
  (t.routing.entries.filter fun domain => domain.2 = target).map fun domain => (domain.1, domain.2)

variable (iqs : List (IqTableKey H P N C × X)) (domains : List (D × Target H P))

/-- The pairs of an IQ and a domain that `check_that_domain_and_iq_match/2` lets pass. -/
def matching : List ((C × D × N) × X) :=
  iqs.flatMap fun iq =>
    (domains.filter fun domain => iq.1.target = domain.2).map fun domain =>
      ((iq.1.component, domain.1, iq.1.namespace_), iq.2)

variable (handlers : C × D × N → Option X)

/-- `register_iqs/2` -/
def registerIqs : C × D × N → Option X :=
  (matching iqs domains).foldl (fun handlers pair => Function.update handlers pair.1 (some pair.2))
    handlers

/-- `unregister_iqs/2` -/
def unregisterIqs : C × D × N → Option X :=
  (matching iqs domains).foldl (fun handlers pair => Function.update handlers pair.1 none) handlers

variable (key : IqTableKey H P N C)

/-- `handle_register_iq_handler_for_domain/4` and `handle_register_iq_handler_for_subdomain/5` -/
def handleRegisterIqHandler (iqHandler : X) (t : Tables H D P N C X) : Tables H D P N C X :=
  match t.iqs.lookup key with
  | some _ => t
  | none => { t with
      iqs := t.iqs.insert key iqHandler
      handlers := registerIqs [(key, iqHandler)] (t.matchDomains key.target) t.handlers }

/-- `handle_unregister_iq_handler_for_domain/3` and
`handle_unregister_iq_handler_for_subdomain/4` -/
def handleUnregisterIqHandler (t : Tables H D P N C X) : Tables H D P N C X :=
  match t.iqs.lookup key with
  | none => t
  | some iqHandler => { t with
      iqs := t.iqs.erase key
      handlers := unregisterIqs [(key, iqHandler)] (t.matchDomains key.target) t.handlers }

/-- `add_domain/2` and `add_subdomain/1` -/
def addDomain (domain : D) (target : Target H P) (t : Tables H D P N C X) : Tables H D P N C X :=
  match t.routing.lookup domain with
  | some _ => t
  | none => { t with
      routing := t.routing.insert domain target
      handlers := registerIqs (t.getIqs target) [(domain, target)] t.handlers }

/-- `handle_maybe_remove_domain/2` and `handle_maybe_remove_subdomain/1` -/
def handleMaybeRemove (domain : D) (target : Target H P) (t : Tables H D P N C X) :
    Tables H D P N C X :=
  if t.routing.lookup domain = some target then { t with
    routing := t.routing.erase domain
    handlers := unregisterIqs (t.getIqs target) [(domain, target)] t.handlers }
  else t

end Tables

/-! ## The join -/

/-- Writing some keys of a function: an unwritten one keeps its value. -/
theorem foldl_update_of_notMem {κ ν ε : Type*} [DecidableEq κ] {f : ε → κ} {g : ε → ν}
    {entries : List ε} {k : κ} (h : ∀ e ∈ entries, f e ≠ k) (m : κ → ν) :
    entries.foldl (fun m e => Function.update m (f e) (g e)) m k = m k := by
  induction entries generalizing m with
  | nil => rfl
  | cons e entries ih =>
    rw [foldl_cons, ih fun e' he' => h e' (mem_cons_of_mem _ he'),
      Function.update_of_ne (h e mem_cons_self).symm]

/-- A written key has the value that all writes to it agree on. -/
theorem foldl_update_of_mem {κ ν ε : Type*} [DecidableEq κ] {f : ε → κ} {g : ε → ν}
    {entries : List ε} {k : κ} {v : ν} (hsame : ∀ e ∈ entries, f e = k → g e = v)
    (hmem : ∃ e ∈ entries, f e = k) (m : κ → ν) :
    entries.foldl (fun m e => Function.update m (f e) (g e)) m k = v := by
  induction entries generalizing m with
  | nil => obtain ⟨e, he, -⟩ := hmem; cases he
  | cons e entries ih =>
    have hrest : ∀ e' ∈ entries, f e' = k → g e' = v :=
      fun e' he' => hsame e' (mem_cons_of_mem _ he')
    rw [foldl_cons]
    by_cases hlater : ∃ e' ∈ entries, f e' = k
    · exact ih hrest hlater _
    · have hne : ∀ e' ∈ entries, f e' ≠ k := fun e' he' heq => hlater ⟨e', he', heq⟩
      have hfirst : f e = k := by
        obtain ⟨e', he', heq⟩ := hmem
        rcases mem_cons.1 he' with rfl | he'
        · exact heq
        · exact absurd heq (hne e' he')
      rw [foldl_update_of_notMem hne, hfirst, Function.update_self, hsame e mem_cons_self hfirst]

namespace Tables

/-- **The handlers are the join of the two tables.** -/
def Join (t : Tables H D P N C X) : Prop :=
  ∀ c d n, t.handlers (c, d, n) =
    (t.routing.lookup d).bind fun target => t.iqs.lookup ⟨target, n, c⟩

variable {t : Tables H D P N C X} {target : Target H P}

omit [DecidableEq D] in
theorem mem_getIqs {iq : IqTableKey H P N C × X} :
    iq ∈ t.getIqs target ↔ t.iqs.lookup iq.1 = some iq.2 ∧ iq.1.target = target := by
  rw [← mem_def, AList.mem_lookup_iff, getIqs, List.mem_map]
  constructor
  · rintro ⟨entry, hentry, rfl⟩
    simpa using hentry
  · rintro ⟨hmem, htarget⟩
    exact ⟨⟨iq.1, iq.2⟩, by simpa [htarget] using hmem, rfl⟩

omit [DecidableEq N] [DecidableEq C] in
theorem mem_matchDomains {domain : D × Target H P} : domain ∈ t.matchDomains target ↔
    t.routing.lookup domain.1 = some domain.2 ∧ domain.2 = target := by
  rw [← mem_def, AList.mem_lookup_iff, matchDomains, List.mem_map]
  constructor
  · rintro ⟨entry, hentry, rfl⟩
    simpa using hentry
  · rintro ⟨hmem, htarget⟩
    exact ⟨⟨domain.1, domain.2⟩, by simpa [htarget] using hmem, rfl⟩

variable {iqs : List (IqTableKey H P N C × X)} {domains : List (D × Target H P)} {c : C} {d : D}
  {n : N} {x : X}

omit [DecidableEq D] [DecidableEq N] [DecidableEq C] in
theorem mem_matching : ((c, d, n), x) ∈ matching iqs domains ↔
    ∃ target, (⟨target, n, c⟩, x) ∈ iqs ∧ (d, target) ∈ domains := by
  simp only [matching, mem_flatMap, List.mem_map, mem_filter, decide_eq_true_eq]
  constructor
  · rintro ⟨⟨⟨target, n', c'⟩, x'⟩, hiq, ⟨d', target'⟩, ⟨hdomain, htarget⟩, heq⟩
    simp only [Prod.mk.injEq] at heq htarget
    obtain ⟨⟨rfl, rfl, rfl⟩, rfl⟩ := heq
    obtain rfl := htarget
    exact ⟨target, hiq, hdomain⟩
  · rintro ⟨target, hiq, hdomain⟩
    exact ⟨_, hiq, _, ⟨hdomain, rfl⟩, rfl⟩

section

variable (handlers : C × D × N → Option X)

/-- **Registering** sets the handlers of the pairs that match, which must not differ. -/
theorem registerIqs_eq (hsame : ∀ x', ((c, d, n), x') ∈ matching iqs domains → x' = x)
    (hmem : ((c, d, n), x) ∈ matching iqs domains) :
    registerIqs iqs domains handlers (c, d, n) = some x := by
  refine foldl_update_of_mem ?_ ⟨_, hmem, rfl⟩ handlers
  rintro ⟨k, x'⟩ hx' rfl
  rw [hsame x' hx']

/-- **Unregistering** clears the handlers of the pairs that match. -/
theorem unregisterIqs_eq (hmem : ((c, d, n), x) ∈ matching iqs domains) :
    unregisterIqs iqs domains handlers (c, d, n) = none :=
  foldl_update_of_mem (fun _ _ _ => rfl) ⟨_, hmem, rfl⟩ handlers

theorem registerIqs_of_notMem (h : ∀ x, ((c, d, n), x) ∉ matching iqs domains) :
    registerIqs iqs domains handlers (c, d, n) = handlers (c, d, n) := by
  refine foldl_update_of_notMem ?_ handlers
  rintro ⟨k, x⟩ hx rfl
  exact h x hx

theorem unregisterIqs_of_notMem (h : ∀ x, ((c, d, n), x) ∉ matching iqs domains) :
    unregisterIqs iqs domains handlers (c, d, n) = handlers (c, d, n) := by
  refine foldl_update_of_notMem ?_ handlers
  rintro ⟨k, x⟩ hx rfl
  exact h x hx

end

/-- **A new IQ handler** is given to every domain with its target. -/
theorem Join.handleRegisterIqHandler (h : t.Join) (key : IqTableKey H P N C) (iqHandler : X) :
    (t.handleRegisterIqHandler key iqHandler).Join := by
  rw [Tables.handleRegisterIqHandler]
  cases hlookup : t.iqs.lookup key with
  | some _ => exact h
  | none =>
    intro c d n
    show registerIqs _ _ t.handlers (c, d, n) =
      (t.routing.lookup d).bind fun target => (t.iqs.insert key iqHandler).lookup ⟨target, n, c⟩
    by_cases hkey : t.routing.lookup d = some key.target ∧ c = key.component ∧ n = key.namespace_
    · obtain ⟨hroute, rfl, rfl⟩ := hkey
      rw [hroute, bind_some, AList.lookup_insert]
      refine registerIqs_eq t.handlers ?_ ?_
      · intro x hx
        obtain ⟨target, hiq, -⟩ := mem_matching.1 hx
        exact (Prod.ext_iff.1 (mem_singleton.1 hiq)).2
      · exact mem_matching.2 ⟨key.target, mem_singleton.2 rfl, mem_matchDomains.2 ⟨hroute, rfl⟩⟩
    · rw [registerIqs_of_notMem, h c d n]
      · refine bind_congr fun target htarget => ?_
        rw [AList.lookup_insert_ne]
        rintro rfl
        exact hkey ⟨htarget, rfl, rfl⟩
      · intro x hx
        obtain ⟨target, hiq, hdomain⟩ := mem_matching.1 hx
        obtain ⟨rfl, -⟩ := Prod.ext_iff.1 (mem_singleton.1 hiq)
        exact hkey ⟨(mem_matchDomains.1 hdomain).1, rfl, rfl⟩

/-- **An IQ handler that goes** is taken from every domain with its target. -/
theorem Join.handleUnregisterIqHandler (h : t.Join)
    (key : IqTableKey H P N C) : (t.handleUnregisterIqHandler key).Join := by
  rw [Tables.handleUnregisterIqHandler]
  cases hlookup : t.iqs.lookup key with
  | none => exact h
  | some iqHandler =>
    intro c d n
    show unregisterIqs _ _ t.handlers (c, d, n) =
      (t.routing.lookup d).bind fun target => (t.iqs.erase key).lookup ⟨target, n, c⟩
    by_cases hkey : t.routing.lookup d = some key.target ∧ c = key.component ∧ n = key.namespace_
    · obtain ⟨hroute, rfl, rfl⟩ := hkey
      rw [hroute, bind_some, AList.lookup_erase]
      exact unregisterIqs_eq t.handlers (mem_matching.2 ⟨key.target, mem_singleton.2 rfl,
        mem_matchDomains.2 ⟨hroute, rfl⟩⟩)
    · rw [unregisterIqs_of_notMem, h c d n]
      · refine bind_congr fun target htarget => ?_
        rw [AList.lookup_erase_ne]
        rintro rfl
        exact hkey ⟨htarget, rfl, rfl⟩
      · intro x hx
        obtain ⟨target, hiq, hdomain⟩ := mem_matching.1 hx
        obtain ⟨rfl, -⟩ := Prod.ext_iff.1 (mem_singleton.1 hiq)
        exact hkey ⟨(mem_matchDomains.1 hdomain).1, rfl, rfl⟩

omit [DecidableEq D] in
/-- The pairs of one domain with the IQ handlers of its target. -/
theorem mem_matching_getIqs {domain : D} :
    ((c, d, n), x) ∈ matching (t.getIqs target) [(domain, target)] ↔
    d = domain ∧ t.iqs.lookup ⟨target, n, c⟩ = some x := by
  rw [mem_matching]
  constructor
  · rintro ⟨target', hiq, hdomain⟩
    obtain ⟨rfl, rfl⟩ := Prod.ext_iff.1 (mem_singleton.1 hdomain)
    exact ⟨rfl, (mem_getIqs.1 hiq).1⟩
  · rintro ⟨rfl, hlookup⟩
    exact ⟨target, mem_getIqs.2 ⟨hlookup, rfl⟩, mem_singleton.2 rfl⟩

/-- **A domain that is entered** gets the IQ handlers of its target. -/
theorem Join.addDomain (h : t.Join) (domain : D) (target : Target H P) :
    (t.addDomain domain target).Join := by
  rw [Tables.addDomain]
  cases hlookup : t.routing.lookup domain with
  | some _ => exact h
  | none =>
    intro c d n
    show registerIqs _ _ t.handlers (c, d, n) =
      ((t.routing.insert domain target).lookup d).bind fun target => t.iqs.lookup ⟨target, n, c⟩
    by_cases hd : d = domain
    · subst hd
      rw [AList.lookup_insert, bind_some]
      cases hiq : t.iqs.lookup ⟨target, n, c⟩ with
      | some x =>
        refine registerIqs_eq t.handlers ?_ (mem_matching_getIqs.2 ⟨rfl, hiq⟩)
        intro x' hx'
        exact some.inj ((mem_matching_getIqs.1 hx').2.symm.trans hiq)
      | none =>
        rw [registerIqs_of_notMem, h c d n, hlookup, bind_none]
        intro x hx
        cases hiq.symm.trans (mem_matching_getIqs.1 hx).2
    · rw [registerIqs_of_notMem, h c d n, AList.lookup_insert_ne hd]
      exact fun x hx => hd (mem_matching_getIqs.1 hx).1

/-- **A domain that is removed** loses the IQ handlers of its target. -/
theorem Join.handleMaybeRemove (h : t.Join) (domain : D)
    (target : Target H P) : (t.handleMaybeRemove domain target).Join := by
  rw [Tables.handleMaybeRemove]
  split_ifs with hlookup
  · intro c d n
    show unregisterIqs _ _ t.handlers (c, d, n) =
      ((t.routing.erase domain).lookup d).bind fun target => t.iqs.lookup ⟨target, n, c⟩
    by_cases hd : d = domain
    · subst hd
      rw [AList.lookup_erase, bind_none]
      cases hiq : t.iqs.lookup ⟨target, n, c⟩ with
      | some x => exact unregisterIqs_eq t.handlers (mem_matching_getIqs.2 ⟨rfl, hiq⟩)
      | none =>
        rw [unregisterIqs_of_notMem, h c d n, hlookup, bind_some, hiq]
        intro x hx
        cases hiq.symm.trans (mem_matching_getIqs.1 hx).2
    · rw [unregisterIqs_of_notMem, h c d n, AList.lookup_erase_ne hd]
      exact fun x hx => hd (mem_matching_getIqs.1 hx).1
  · exact h

end Tables

/-! ## The process among the others -/

/-- The calls that change something. -/
inductive Call (H D P N C X : Type*)
  | maybeAddDomainOrSubdomain (domain : D)
  | registerIqHandler (key : IqTableKey H P N C) (iqHandler : X)
  | unregisterIqHandler (key : IqTableKey H P N C)

/-- What the mailbox of the process holds. -/
inductive Message (H D P N C X : Type*)
  | call (request : Call H D P N C X)
  | maybeRemoveDomain (hostType : H) (domain : D)
  | maybeRemoveSubdomain (subdomain : D) (hostType : H) (pattern : P)

/-- Where the process is in `handle_maybe_add_domain_or_subdomain/1`; `idle` outside. -/
inductive Pc (H D P : Type*)
  | idle
  | getDomainHostType (domain : D)
  | addDomain (hostType : H) (domain : D)
  | getSubdomainInfo (domain : D)
  | addSubdomain (subdomain : D) (hostType : H) (pattern : P)

/-- A process that owns a table of names. It deletes an entry and then has a cast to send. -/
structure Owner (D V : Type*) where
  table : AList fun _ : D => V
  pending : Option (D × V)

namespace Owner

variable {V : Type*}

/-- An empty table. -/
def empty : Owner D V := ⟨∅, none⟩

variable (o : Owner D V)

/-- `ets:insert_new/2`. An owner with a cast to send sends it before anything else. -/
def insertNew (name : D) (value : V) : Owner D V :=
  match o.pending, o.table.lookup name with
  | none, none => { o with table := o.table.insert name value }
  | _, _ => o

/-- `ets:delete/2` of an entry. -/
def delete (name : D) : Owner D V :=
  match o.pending, o.table.lookup name with
  | none, some value => ⟨o.table.erase name, some (name, value)⟩
  | _, _ => o

/-- An entry is found that is to be told as removed, though it stays. -/
def check (name : D) : Owner D V :=
  match o.pending, o.table.lookup name with
  | none, some value => { o with pending := some (name, value) }
  | _, _ => o

/-- An entry is in the table, or its removal is told or to be told. -/
def Announces (told : Prop) (name : D) (value : V) : Prop :=
  o.table.lookup name = some value ∨ o.pending = some (name, value) ∨ told

variable {o : Owner D V} {name : D} {value : V}

section

variable {told : Prop} (h : o.Announces told name value) (name' : D)

include h

theorem Announces.insertNew (value' : V) :
    (o.insertNew name' value').Announces told name value := by
  rw [Owner.insertNew]
  split
  · rename_i hpending hlookup
    refine h.imp (fun hname => ?_) id
    -- the entry is another one: the new name had none
    rw [AList.lookup_insert_ne, hname]
    rintro rfl
    cases hlookup.symm.trans hname
  · exact h

theorem Announces.delete : (o.delete name').Announces told name value := by
  rw [Owner.delete]
  split
  · rename_i value' hpending hlookup
    rcases h with hentry | hpending' | htold
    · by_cases hname : name = name'
      · subst hname
        cases (hlookup.symm.trans hentry)
        exact .inr (.inl rfl)
      · refine .inl ?_
        rw [AList.lookup_erase_ne hname, hentry]
    · cases hpending.symm.trans hpending'
    · exact .inr (.inr htold)
  · exact h

theorem Announces.check : (o.check name').Announces told name value := by
  rw [Owner.check]
  split
  · rename_i value' hpending hlookup
    rcases h with hentry | hpending' | htold
    · exact .inl hentry
    · cases hpending.symm.trans hpending'
    · exact .inr (.inr htold)
  · exact h

end

theorem Announces.told {told told' : Prop} (h : o.Announces told name value) (hkeep : told → told')
    (hcast : o.pending = some (name, value) → told') :
    Announces { o with pending := none } told' name value := by
  rcases h with hentry | hpending | htold
  · exact .inl hentry
  · exact .inr (.inr (hcast hpending))
  · exact .inr (.inr (hkeep htold))

end Owner

/-- The process, and the owners of the tables of domains and subdomains. -/
structure System (H D P N C X : Type*) where
  tables : Tables H D P N C X
  mailbox : List (Message H D P N C X)
  pc : Pc H D P
  /-- `mongoose_domain_core` -/
  domainCore : Owner D H
  /-- `mongoose_subdomain_core` -/
  subdomainCore : Owner D (H × P)

/-- What happens. -/
inductive Event (H D P N C X : Type*)
  | call (request : Call H D P N C X)
  /-- The process goes on with a lookup or takes a message. -/
  | work
  /-- `ets:insert_new` for a domain. -/
  | insertDomain (hostType : H) (domain : D)
  /-- `ets:delete` for a domain. -/
  | deleteDomain (domain : D)
  /-- The cast `maybe_remove_domain`. -/
  | castDomain
  /-- `ets:insert_new` for a subdomain. -/
  | insertSubdomain (subdomain : D) (hostType : H) (pattern : P)
  /-- `ets:delete` for a subdomain. -/
  | deleteSubdomain (subdomain : D)
  /-- `check_domain_name/2` finds a subdomain of that name. -/
  | checkDomainName (domain : D)
  /-- The cast `maybe_remove_subdomain`. -/
  | castSubdomain

namespace System

/-- Empty tables and mailbox. -/
def empty : System H D P N C X := ⟨.empty, [], .idle, .empty, .empty⟩

variable (s : System H D P N C X)

/-- A message is taken from the mailbox. -/
def handle (rest : List (Message H D P N C X)) : Message H D P N C X → System H D P N C X
  | .call (.maybeAddDomainOrSubdomain domain) =>
    match s.tables.routing.lookup domain with
    | some _ => { s with mailbox := rest }
    | none => { s with mailbox := rest, pc := .getDomainHostType domain }
  | .call (.registerIqHandler key iqHandler) =>
    { s with mailbox := rest, tables := s.tables.handleRegisterIqHandler key iqHandler }
  | .call (.unregisterIqHandler key) =>
    { s with mailbox := rest, tables := s.tables.handleUnregisterIqHandler key }
  | .maybeRemoveDomain hostType domain =>
    { s with mailbox := rest, tables := s.tables.handleMaybeRemove domain ⟨hostType, none⟩ }
  | .maybeRemoveSubdomain subdomain hostType pattern =>
    { s with
      mailbox := rest
      tables := s.tables.handleMaybeRemove subdomain ⟨hostType, some pattern⟩ }

/-- One step of the process; `try_to_add_domain_or_subdomain/1` reads the tables of the others one
after the other. -/
def work : System H D P N C X :=
  match s.pc with
  | .idle =>
    match s.mailbox with
    | [] => s
    | message :: rest => s.handle rest message
  | .getDomainHostType domain =>
    match s.domainCore.table.lookup domain with
    | some hostType => { s with pc := .addDomain hostType domain }
    | none => { s with pc := .getSubdomainInfo domain }
  | .addDomain hostType domain =>
    { s with pc := .idle, tables := s.tables.addDomain domain ⟨hostType, none⟩ }
  | .getSubdomainInfo domain =>
    match s.subdomainCore.table.lookup domain with
    | some (hostType, pattern) => { s with pc := .addSubdomain domain hostType pattern }
    | none => { s with pc := .idle }
  | .addSubdomain subdomain hostType pattern =>
    { s with pc := .idle, tables := s.tables.addDomain subdomain ⟨hostType, some pattern⟩ }

/-- One step of the system; what is not possible changes nothing. -/
def step : Event H D P N C X → System H D P N C X
  | .call request => { s with mailbox := s.mailbox ++ [.call request] }
  | .work => s.work
  | .insertDomain hostType domain =>
    { s with domainCore := s.domainCore.insertNew domain hostType }
  | .deleteDomain domain => { s with domainCore := s.domainCore.delete domain }
  | .castDomain =>
    match s.domainCore.pending with
    | some (domain, hostType) => { s with
        mailbox := s.mailbox ++ [.maybeRemoveDomain hostType domain]
        domainCore := { s.domainCore with pending := none } }
    | none => s
  | .insertSubdomain subdomain hostType pattern =>
    { s with subdomainCore := s.subdomainCore.insertNew subdomain (hostType, pattern) }
  | .deleteSubdomain subdomain => { s with subdomainCore := s.subdomainCore.delete subdomain }
  | .checkDomainName domain => { s with subdomainCore := s.subdomainCore.check domain }
  | .castSubdomain =>
    match s.subdomainCore.pending with
    | some (subdomain, hostType, pattern) => { s with
        mailbox := s.mailbox ++ [.maybeRemoveSubdomain subdomain hostType pattern]
        subdomainCore := { s.subdomainCore with pending := none } }
    | none => s

/-- The system after these events. -/
def run (events : List (Event H D P N C X)) : System H D P N C X := events.foldl step empty

/-! ## Routes name what is registered -/

/-- **What the target says of the name is registered**, or its removal is on the way. -/
def Current (name : D) : Target H P → Prop
  | ⟨hostType, none⟩ =>
    s.domainCore.Announces (.maybeRemoveDomain hostType name ∈ s.mailbox) name hostType
  | ⟨hostType, some pattern⟩ => s.subdomainCore.Announces
      (.maybeRemoveSubdomain name hostType pattern ∈ s.mailbox) name (hostType, pattern)

/-- What holds at any time. -/
structure Sound (s : System H D P N C X) : Prop where
  join : s.tables.Join
  current : ∀ name target, s.tables.routing.lookup name = some target → s.Current name target
  reading :
    match s.pc with
    | .addDomain hostType domain => s.Current domain ⟨hostType, none⟩
    | .addSubdomain subdomain hostType pattern => s.Current subdomain ⟨hostType, some pattern⟩
    | _ => True

theorem empty_sound : (empty : System H D P N C X).Sound where
  join _ _ _ := rfl
  current name target h := by cases h
  reading := trivial

/-- The others, and new calls, leave the tables and the lookup alone. -/
theorem step_others {event : Event H D P N C X} (he : event ≠ .work) :
    (s.step event).tables = s.tables ∧ (s.step event).pc = s.pc := by
  cases event with
  | work => exact absurd rfl he
  | castDomain | castSubdomain =>
    rw [step]
    split <;> exact ⟨rfl, rfl⟩
  | _ => exact ⟨rfl, rfl⟩

/-- **What is current stays so**: an entry goes only with a removal on the way, and this only goes
with a cast. -/
theorem Current.step_others {s : System H D P N C X} {name : D} {target : Target H P}
    (h : s.Current name target) {event : Event H D P N C X} (he : event ≠ .work) :
    (s.step event).Current name target := by
  obtain ⟨hostType, pattern⟩ := target
  have hmail : ∀ (m new : Message H D P N C X), m ∈ s.mailbox → m ∈ s.mailbox ++ [new] :=
    fun m new hm => mem_append_left _ hm
  have hlast : ∀ new : Message H D P N C X, new ∈ s.mailbox ++ [new] :=
    fun new => mem_append_right _ (mem_singleton.2 rfl)
  cases pattern with
  | none =>
    cases event with
    | work => exact absurd rfl he
    | insertDomain hostType' domain => exact Owner.Announces.insertNew h domain hostType'
    | deleteDomain domain => exact Owner.Announces.delete h domain
    | castDomain =>
      rw [step]
      split
      · rename_i domain hostType' hpending
        refine Owner.Announces.told h (hmail _ _) fun hname => ?_
        obtain ⟨rfl, rfl⟩ := Prod.ext_iff.1 (some.inj (hpending.symm.trans hname))
        exact hlast _
      · exact h
    | castSubdomain =>
      rw [step]
      split
      · exact h.imp id (Or.imp id (hmail _ _))
      · exact h
    | call request => exact h.imp id (Or.imp id (hmail _ _))
    | insertSubdomain | deleteSubdomain | checkDomainName => exact h
  | some pattern =>
    cases event with
    | work => exact absurd rfl he
    | insertSubdomain name' hostType' pattern' =>
      exact Owner.Announces.insertNew h name' (hostType', pattern')
    | deleteSubdomain name' => exact Owner.Announces.delete h name'
    | checkDomainName domain => exact Owner.Announces.check h domain
    | castSubdomain =>
      rw [step]
      split
      · rename_i name' hostType' pattern' hpending
        refine Owner.Announces.told h (hmail _ _) fun hname => ?_
        obtain ⟨rfl, hvalue⟩ := Prod.ext_iff.1 (some.inj (hpending.symm.trans hname))
        obtain ⟨rfl, rfl⟩ := Prod.ext_iff.1 hvalue
        exact hlast _
      · exact h
    | castDomain =>
      rw [step]
      split
      · exact h.imp id (Or.imp id (hmail _ _))
      · exact h
    | call request => exact h.imp id (Or.imp id (hmail _ _))
    | insertDomain | deleteDomain => exact h

/-- The removal that makes a target current, once it is in the mailbox. -/
def removal (name : D) : Target H P → Message H D P N C X
  | ⟨hostType, none⟩ => .maybeRemoveDomain hostType name
  | ⟨hostType, some pattern⟩ => .maybeRemoveSubdomain name hostType pattern

omit [DecidableEq H] [DecidableEq P] [DecidableEq N] [DecidableEq C] in
/-- A target stays current when a message is taken that does not remove it. -/
theorem Current.taken {s s' : System H D P N C X} {name : D} {target : Target H P}
    {message : Message H D P N C X} (h : s.Current name target)
    (hdomains : s'.domainCore = s.domainCore) (hsubdomains : s'.subdomainCore = s.subdomainCore)
    (hmailbox : s.mailbox = message :: s'.mailbox) (hne : message ≠ removal name target) :
    s'.Current name target := by
  obtain ⟨hostType, pattern⟩ := target
  have hrest : removal name ⟨hostType, pattern⟩ ∈ s.mailbox →
      removal name ⟨hostType, pattern⟩ ∈ s'.mailbox := by
    intro hm
    rw [hmailbox] at hm
    exact (mem_cons.1 hm).resolve_left fun heq => hne heq.symm
  cases pattern with
  | none =>
    rw [Current, hdomains]
    exact h.imp id (Or.imp id hrest)
  | some pattern =>
    rw [Current, hsubdomains]
    exact h.imp id (Or.imp id hrest)

end System

variable {target target' : Target H P} {t : Tables H D P N C X}

theorem lookup_handleMaybeRemove {domain name : D} :
    (t.handleMaybeRemove domain target).routing.lookup name = some target' ↔
    t.routing.lookup name = some target' ∧ ¬ (name = domain ∧ target' = target) := by
  rw [Tables.handleMaybeRemove]
  split_ifs with h
  · rw [lookup_erase]
    by_cases hname : name = domain
    · subst hname
      rw [if_pos rfl]
      simp only [reduceCtorEq, true_and, false_iff, not_and, not_not]
      intro hlookup
      exact some.inj (hlookup.symm.trans h)
    · simp [hname]
  · refine (and_iff_left_of_imp ?_).symm
    rintro hlookup ⟨rfl, rfl⟩
    exact h hlookup

theorem lookup_addDomain {domain name : D}

    (h : (t.addDomain domain target).routing.lookup name = some target') :
    t.routing.lookup name = some target' ∨ name = domain ∧ target' = target := by
  rw [Tables.addDomain] at h
  split at h
  · exact .inl h
  · rw [lookup_insert] at h
    split_ifs at h with hname
    · exact .inr ⟨hname, (some.inj h).symm⟩
    · exact .inl h

namespace System

section

variable {s : System H D P N C X} (h : s.Sound)

include h

/-- **Taking a message** keeps the state sound. -/
theorem Sound.handle {message : Message H D P N C X}
    {rest : List (Message H D P N C X)} (hpc : s.pc = .idle)
    (hmailbox : s.mailbox = message :: rest) : (s.handle rest message).Sound := by
  cases message with
  | call request =>
    cases request with
    | maybeAddDomainOrSubdomain domain =>
      rw [System.handle]
      split
      · refine ⟨h.join, fun name target hlookup => ?_, by rw [hpc]; trivial⟩
        exact (h.current name target hlookup).taken rfl rfl hmailbox
          (by cases target with | mk t p => cases p <;> simp [removal])
      · refine ⟨h.join, fun name target hlookup => ?_, trivial⟩
        exact (h.current name target hlookup).taken rfl rfl hmailbox
          (by cases target with | mk t p => cases p <;> simp [removal])
    | registerIqHandler key iqHandler =>
      refine ⟨h.join.handleRegisterIqHandler key iqHandler, fun name target hlookup => ?_,
        by rw [System.handle, hpc]; trivial⟩
      refine (h.current name target ?_).taken rfl rfl hmailbox
        (by cases target with | mk t p => cases p <;> simp [removal])
      rw [← hlookup, System.handle, Tables.handleRegisterIqHandler]
      split <;> rfl
    | unregisterIqHandler key =>
      refine ⟨h.join.handleUnregisterIqHandler key, fun name target hlookup => ?_,
        by rw [System.handle, hpc]; trivial⟩
      refine (h.current name target ?_).taken rfl rfl hmailbox
        (by cases target with | mk t p => cases p <;> simp [removal])
      rw [← hlookup, System.handle, Tables.handleUnregisterIqHandler]
      split <;> rfl
  | maybeRemoveDomain hostType domain =>
    refine ⟨h.join.handleMaybeRemove domain ⟨hostType, none⟩, fun name target hlookup => ?_,
      by rw [System.handle, hpc]; trivial⟩
    obtain ⟨hold, hne⟩ := lookup_handleMaybeRemove.1 hlookup
    refine (h.current name target hold).taken rfl rfl hmailbox fun heq => hne ?_
    obtain ⟨hostType', pattern⟩ := target
    cases pattern with
    | none =>
      cases heq
      exact ⟨rfl, rfl⟩
    | some pattern => cases heq
  | maybeRemoveSubdomain subdomain hostType pattern =>
    refine ⟨h.join.handleMaybeRemove subdomain ⟨hostType, some pattern⟩,
      fun name target hlookup => ?_, by rw [System.handle, hpc]; trivial⟩
    obtain ⟨hold, hne⟩ := lookup_handleMaybeRemove.1 hlookup
    refine (h.current name target hold).taken rfl rfl hmailbox fun heq => hne ?_
    obtain ⟨hostType', pattern'⟩ := target
    cases pattern' with
    | none => cases heq
    | some pattern' =>
      cases heq
      exact ⟨rfl, rfl⟩

/-- **A step of the process** keeps the state sound. -/
theorem Sound.work : s.work.Sound := by
  obtain ⟨join, current, reading⟩ := h
  rw [System.work]
  split
  · rename_i hpc
    split
    · exact ⟨join, current, reading⟩
    · rename_i message rest hmailbox
      exact Sound.handle ⟨join, current, reading⟩ hpc hmailbox
  · split
    · rename_i hostType hlookup
      exact ⟨join, current, .inl hlookup⟩
    · exact ⟨join, current, trivial⟩
  · rename_i hostType domain hpc
    rw [hpc] at reading
    refine ⟨join.addDomain domain _, fun name target hlookup => ?_, trivial⟩
    rcases lookup_addDomain hlookup with hold | ⟨rfl, rfl⟩
    · exact current name target hold
    · exact reading
  · split
    · rename_i hostType pattern hlookup
      exact ⟨join, current, .inl hlookup⟩
    · exact ⟨join, current, trivial⟩
  · rename_i subdomain hostType pattern hpc
    rw [hpc] at reading
    refine ⟨join.addDomain subdomain _, fun name target hlookup => ?_, trivial⟩
    rcases lookup_addDomain hlookup with hold | ⟨rfl, rfl⟩
    · exact current name target hold
    · exact reading

/-- **Every step keeps the state sound.** -/
theorem Sound.step (event : Event H D P N C X) : (s.step event).Sound := by
  by_cases he : event = .work
  · subst he
    exact h.work
  · obtain ⟨htables, hpc⟩ := step_others s he
    refine ⟨by rw [htables]; exact h.join, fun name target hlookup => ?_, ?_⟩
    · rw [htables] at hlookup
      exact (h.current name target hlookup).step_others he
    · have hreading := h.reading
      rw [hpc]
      split
      · rename_i hs
        rw [hs] at hreading
        exact hreading.step_others he
      · rename_i hs
        rw [hs] at hreading
        exact hreading.step_others he
      · trivial

end

theorem run_sound (events : List (Event H D P N C X)) : (run events).Sound := by
  induction events using reverseRecOn with
  | nil => exact empty_sound
  | append_singleton events event ih =>
    rw [run, foldl_concat]
    exact ih.step event

/-- All messages are handled and no cast is left to send. -/
def Quiet (s : System H D P N C X) : Prop :=
  s.pc = .idle ∧ s.mailbox = [] ∧ s.domainCore.pending = none ∧ s.subdomainCore.pending = none

/-- **Routes and IQ handlers are in step.** After every run an IQ handler is registered exactly when
the routing table and the IQ table have its entries; once all messages are handled, every routing
entry names a registered domain or subdomain. -/
theorem lazy_routing_in_step (events : List (Event H D P N C X)) :
    (∀ c d n, (∃ iqHandler, (run events).tables.handlers (c, d, n) = some iqHandler) ↔
    ∃ target, (run events).tables.routing.lookup d = some target ∧
      ⟨target, n, c⟩ ∈ (run events).tables.iqs) ∧
    ((run events).Quiet → ∀ name hostType pattern,
    (run events).tables.routing.lookup name = some ⟨hostType, pattern⟩ → match pattern with
      | none => (run events).domainCore.table.lookup name = some hostType
      | some pattern =>
        (run events).subdomainCore.table.lookup name = some (hostType, pattern)) := by
  obtain ⟨join, current, -⟩ := run_sound events
  constructor
  · intro c d n
    rw [join c d n]
    simp only [bind_eq_some_iff, ← AList.lookup_isSome, isSome_iff_exists]
    exact ⟨fun ⟨x, target, hroute, hiq⟩ => ⟨target, hroute, x, hiq⟩,
      fun ⟨target, hroute, x, hiq⟩ => ⟨x, target, hroute, hiq⟩⟩
  · rintro ⟨-, hmailbox, hdomains, hsubdomains⟩ name hostType pattern hlookup
    have hcurrent := current name _ hlookup
    cases pattern with
    | none => simpa [Current, Owner.Announces, hmailbox, hdomains] using hcurrent
    | some pattern => simpa [Current, Owner.Announces, hmailbox, hsubdomains] using hcurrent

end System

end MongooseIM.Domain.LazyRouting
