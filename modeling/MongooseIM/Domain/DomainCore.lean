import Mathlib.Data.List.Induction
import MongooseIM.Erlang.Maps

/-! # The table of domains

`mongoose_domain_core` keeps the domains that the node serves, each with its host type. Static
domains come from the configuration and stay; dynamic ones are inserted and deleted by the loader. -/

namespace MongooseIM.Domain

open Erlang

variable {D H S : Type*}

/-- `config`, or `{dynamic, Source}`. -/
inductive Source (S : Type*)
  | config
  | dynamic (source : S)

/-- The tables of `mongoose_domain_core`. -/
structure DomainCore (D H S : Type*) where
  /-- `?HOST_TYPE_TABLE` -/
  hostTypes : List H
  table : AList fun _ : D => H × Source S

/-- What `mongoose_domain_core` casts to `mongoose_subdomain_core`. -/
inductive Cast (D H : Type*)
  | addDomain (hostType : H) (domain : D)
  | removeDomain (hostType : H) (domain : D)

/-- The results of `insert/3`. -/
inductive InsertResult
  | ok
  | static
  | badInsert
  | unknownHostType

namespace DomainCore

variable [DecidableEq D] [DecidableEq H]

/-- `insert_initial_pair/3` -/
def insertInitialPair (table : AList fun _ : D => H × Source S) (pair : D × H) :
    AList fun _ : D => H × Source S :=
  match table.lookup pair.1 with
  | some _ => table
  | none => table.insert pair.1 (pair.2, .config)

/-- `init/1` -/
def init (pairs : List (D × H)) (hostTypes : List H) : DomainCore D H S where
  hostTypes := hostTypes
  table := pairs.foldl insertInitialPair ∅

variable (core : DomainCore D H S)

/-- `get_host_type/1` -/
def getHostType (domain : D) : Option H :=
  (core.table.lookup domain).map Prod.fst

/-- `is_static/1` -/
def isStatic (domain : D) : Bool :=
  match core.table.lookup domain with
  | some (_, .config) => true
  | _ => false

variable (domain : D)

/-- `handle_insert/3` -/
def handleInsert (hostType : H) (source : S) (core : DomainCore D H S) :
    InsertResult × DomainCore D H S × Option (Cast D H) :=
  if hostType ∈ core.hostTypes then
    match core.table.lookup domain with
    | some (_, .config) => (.static, core, none)
    | none => (.ok, { core with table := core.table.insert domain (hostType, .dynamic source) },
        some (.addDomain hostType domain))
    | some (coreHostType, .dynamic _) =>
      if coreHostType = hostType then
        (.ok, { core with table := core.table.insert domain (hostType, .dynamic source) }, none)
      else (.badInsert, core, none)
  else (.unknownHostType, core, none)

variable (core : DomainCore D H S)

/-- `handle_delete/1` -/
def handleDelete : DomainCore D H S × Option (Cast D H) :=
  match core.table.lookup domain with
  | some (_, .config) => (core, none)
  | none => (core, none)
  | some (hostType, .dynamic _) =>
    ({ core with table := core.table.erase domain }, some (.removeDomain hostType domain))

omit [DecidableEq H] in
/-- The domains that are there from the start are static. -/
theorem init_config {pairs : List (D × H)} {hostTypes : List H} {domain : D} {entry : H × Source S}
    (h : (init pairs hostTypes).table.lookup domain = some entry) : entry.2 = .config := by
  rw [init] at h
  induction pairs using List.reverseRecOn generalizing entry with
  | nil => simp at h
  | append_singleton pairs pair ih =>
    rw [List.foldl_concat, insertInitialPair] at h
    split at h
    · exact ih h
    · rw [lookup_insert] at h
      split_ifs at h
      · rw [← Option.some.inj h]
      · exact ih h

/-- **What an insertion can do**: a new domain is entered and cast; an entry with the same host type
gets the source; else nothing happens. -/
theorem handleInsert_cases (hostType : H) (source : S) (core : DomainCore D H S) :
    (core.table.lookup domain = none ∧ hostType ∈ core.hostTypes ∧
    core.handleInsert domain hostType source = (.ok,
      { core with table := core.table.insert domain (hostType, .dynamic source) },
      some (.addDomain hostType domain))) ∨
    ((∃ old, core.table.lookup domain = some (hostType, .dynamic old)) ∧ hostType ∈ core.hostTypes ∧
    core.handleInsert domain hostType source = (.ok,
      { core with table := core.table.insert domain (hostType, .dynamic source) }, none)) ∨
    (∃ res, core.handleInsert domain hostType source = (res, core, none) ∧
    (res = .unknownHostType ∧ hostType ∉ core.hostTypes ∨ res = .static ∧ core.isStatic domain ∨
      res = .badInsert ∧ hostType ∈ core.hostTypes ∧
        ∃ other old, core.table.lookup domain = some (other, .dynamic old) ∧
          other ≠ hostType)) := by
  rw [handleInsert]
  split_ifs with hallowed
  · rcases hlookup : core.table.lookup domain with _ | ⟨coreHostType, _ | old⟩
    · exact .inl ⟨rfl, hallowed, rfl⟩
    · exact .inr (.inr ⟨.static, rfl, .inr (.inl ⟨rfl, by rw [isStatic, hlookup]⟩)⟩)
    · by_cases hsame : coreHostType = hostType
      · subst hsame
        exact .inr (.inl ⟨⟨old, rfl⟩, hallowed, by simp⟩)
      · exact .inr (.inr ⟨.badInsert, by simp [hsame],
          .inr (.inr ⟨rfl, hallowed, coreHostType, old, rfl, hsame⟩)⟩)
  · exact .inr (.inr ⟨.unknownHostType, rfl, .inl ⟨rfl, hallowed⟩⟩)

omit [DecidableEq H] in
/-- **What a deletion can do**: a dynamic domain goes and its host type is cast. -/
theorem handleDelete_cases :
    (∃ hostType source, core.table.lookup domain = some (hostType, .dynamic source) ∧
    core.handleDelete domain = ({ core with table := core.table.erase domain },
      some (.removeDomain hostType domain))) ∨
    (core.handleDelete domain = (core, none) ∧
    (core.table.lookup domain = none ∨ core.isStatic domain)) := by
  rw [handleDelete, isStatic]
  rcases core.table.lookup domain with _ | ⟨hostType, _ | source⟩
  · exact .inr ⟨rfl, .inl rfl⟩
  · exact .inr ⟨rfl, .inr rfl⟩
  · exact .inl ⟨hostType, source, rfl, rfl⟩

end DomainCore

end MongooseIM.Domain
