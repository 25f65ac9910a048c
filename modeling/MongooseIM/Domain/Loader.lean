import MongooseIM.Domain.DomainCore
import MongooseIM.Domain.DomainSql

/-! # The loader of domains

`mongoose_domain_loader` brings the table of domains of a node up to date with the database. It
loads all settings once, and from then on reads the events between the last id that it knows and
the largest one. An id without an event is a gap: a dummy event is inserted there, and then the id
is read. -/

namespace MongooseIM.Domain.Loader

open Erlang Keyset Domain

variable {D H : Type*} [DecidableEq D] [DecidableEq H]

/-! ## Rows -/

/-- `maybe_insert_to_core/2` -/
def maybeInsertToCore (domain : D) (hostType : H) (source : Nat) (core : DomainCore D H Nat) :
    DomainCore D H Nat :=
  match core.handleInsert domain hostType source with
  | (.badInsert, core, _) =>
    ((core.handleDelete domain).1.handleInsert domain hostType source).2.1
  | (_, core, _) => core

/-- `apply_change/1` -/
def applyChange (row : Row D H) (source : Nat) (core : DomainCore D H Nat) : DomainCore D H Nat :=
  match row.domain, row.hostType with
  | none, _ => core
  | some domain, none => (core.handleDelete domain).1
  | some domain, some hostType => maybeInsertToCore domain hostType source core

/-- `lists:seq/2` -/
def seq (fromId toId : Nat) : List Nat := List.range' fromId (toId + 1 - fromId)

/-- `ids_to_gaps/3` -/
def idsToGaps (minId maxId : Nat) (ids : List Nat) : List Nat :=
  (seq minId maxId).filter fun id => id ∉ ids

/-- `rows_to_ids/1` -/
def rowsToIds (rows : List (Row D H)) : List Nat := rows.map Row.id

/-- `remove_outdated_domains_from_core/0` -/
def removeOutdatedDomainsFromCore (source : Nat) (core : DomainCore D H Nat) : DomainCore D H Nat :=
  ((core.table.entries.filter fun entry =>
      match entry.2.2 with
      | .config => false
      | .dynamic other => other ≠ source).map Sigma.fst).foldl
    (fun core domain => (core.handleDelete domain).1) core

/-! ## The loader -/

/-- The state of `mongoose_loader_state`: the ids up to which the node is synced; none for
`null`. -/
inductive LoaderState
  | undefined
  | reset
  | synced (minMax : Option (Nat × Nat))
  deriving DecidableEq

/-- What comes after a list of gaps. -/
inductive After
  /-- The end of `cold_load/0` -/
  | initial
  | morePages
  | done
  deriving DecidableEq

/-- The page size of `check_for_updates/2`. -/
def updatesPageSize : Nat := 1000

/-- The page size of `cold_load/0`. -/
def basePageSize : Nat := 1000

/-- `limit_max_id/3` -/
def limitMaxId : Option (Nat × Nat) → Nat × Nat → Nat → Nat
  | none, (minId, maxId), pageSize => min maxId (minId + pageSize)
  | some (_, oldMax), (_, maxId), pageSize => min maxId (oldMax + pageSize)

/-- `check_if_id_is_still_relevant/2` restarts the service. -/
def isIrrelevant : Option (Nat × Nat) → Nat → Bool
  | none, _ => false
  | some (_, oldMax), minId => oldMax < minId

/-- `NewGapsFromBelow` in `check_for_updates/2`. -/
def newGapsFromBelow : Option (Nat × Nat) → Nat → List Nat
  | none, _ => []
  | some (oldMin, _), minId =>
    if minId = oldMin then []
    else if oldMin < minId then []
    else seq minId oldMin

/-- `FromId` in `check_for_updates/2`. -/
def fromIdOf : Option (Nat × Nat) → Nat → Nat
  | none, minId => minId
  | some (_, oldMax), _ => oldMax + 1

/-- Where the process is. -/
inductive Pc (D H : Type*)
  /-- `initial_load/0` is to come. -/
  | starting
  /-- `find_gaps_between/2`, which looks at the ids one after another. -/
  | findGaps (minMax : Nat × Nat) (unseen gaps : List Nat)
  /-- `load_data_from_base_loop/3` -/
  | loadData (minMax : Option (Nat × Nat)) (fromId : Nat) (gaps : List Nat)
  | idle
  /-- `check_for_updates/0` -/
  | check
  /-- `select_updates_between/2` for the new ids. -/
  | page (minId maxId fromId : Nat) (gapsFromBelow : List Nat) (after : After)
  | applying (rows : List (Row D H)) (next : Pc D H)
  | fixGaps (gaps : List Nat) (retries : Nat) (minMax : Option (Nat × Nat)) (after : After)
  /-- `insert_dummy_events/1` -/
  | dummies (unfilled gaps : List Nat) (retries : Nat) (minMax : Option (Nat × Nat))
    (after : After)
  /-- `select_updates_between/2` for one gap after another. -/
  | reading (unread : List Nat) (rows : List (Row D H)) (gaps : List Nat) (retries : Nat)
    (minMax : Option (Nat × Nat)) (after : After)

/-- A node and the database. -/
structure System (D H : Type*) where
  db : Database D H
  core : DomainCore D H Nat
  loader : LoaderState
  /-- The process `service_domain_db`, a new one after each restart. -/
  self : Nat
  /-- `reset_and_shutdown` is in the mailbox. -/
  shutdown : Bool
  pc : Pc D H

/-- What happens. -/
inductive Event (D H : Type*)
  /-- A transaction changes `domain_settings` and inserts its event. -/
  | insertEvent (domain : D) (settings : Option (H × Status))
  | commit (eventId : Nat)
  | abort (eventId : Nat)
  | insertDummyEvent (eventId : Nat)
  /-- The message `check_for_updates` -/
  | checkForUpdates
  /-- The loader goes on; a dummy event can be inserted, or the insertion fails. -/
  | work (dummyOk : Bool)

/-- What `check_for_updates/0` reports when there is nothing to do. -/
inductive Report
  | emptyDb
  | noNewUpdates
  deriving DecidableEq

namespace System

/-- A node with these static domains and host types, and an empty database. -/
def init (pairs : List (D × H)) (hostTypes : List H) : System D H :=
  ⟨.empty, .init pairs hostTypes, .undefined, 0, false, .starting⟩

variable (s : System D H)

/-- What the check reports at once. -/
def reports : Option Report :=
  match s.pc, s.db.getMinmaxEventId with
  | .check, none => some .emptyDb
  | .check, some minMax => if s.loader = .synced (some minMax) then some .noNewUpdates else none
  | _, _ => none

/-- `initial_load/0` -/
def initialLoad : System D H :=
  match s.loader with
  | .synced _ => { s with pc := .check }
  | _ =>
    match s.db.getMinmaxEventId with
    | none => { s with pc := .loadData none 0 [] }
    | some minMax => { s with pc := .findGaps minMax (seq minMax.1 minMax.2) [] }

/-- `check_for_updates/2` up to its query of the page, when there is something new. -/
def checkForUpdates (minId maxId : Nat) (old : Option (Nat × Nat)) : System D H :=
  let maxEventId := limitMaxId old (minId, maxId) updatesPageSize
  let gapsFromBelow := newGapsFromBelow old minId
  let after := if maxEventId < maxId then After.morePages else After.done
  { s with
    shutdown := s.shutdown || isIrrelevant old minId
    pc := if old.map Prod.snd = some maxEventId then
        .fixGaps gapsFromBelow 3 (some (minId, maxEventId)) after
      else .page minId maxEventId (fromIdOf old minId) gapsFromBelow after }

/-- The process fails and is started again. -/
def crash : System D H := { s with self := s.self + 1, pc := .starting }

/-- The gaps are fixed: the state is set. -/
def finish (minMax : Option (Nat × Nat)) : After → System D H
  | .initial => { s with
      loader := .synced minMax
      core := if s.loader = .reset then removeOutdatedDomainsFromCore s.self s.core else s.core
      pc := .check }
  | .morePages => { s with loader := .synced minMax, pc := .check }
  | .done => { s with loader := .synced minMax, pc := .idle }

/-- The loader goes on. -/
def work (dummyOk : Bool) : Option (System D H) :=
  match s.pc with
  | .idle =>
    -- `reset_and_shutdown` is taken
    if s.shutdown then some { crash s with loader := .reset, shutdown := false } else none
  | .starting => some (initialLoad s)
  | .findGaps minMax [] gaps => some { s with pc := .loadData (some minMax) 0 gaps }
  | .findGaps minMax (id :: unseen) gaps =>
    if id ∈ s.db.events then some { s with pc := .findGaps minMax unseen gaps }
    else some { s with pc := .findGaps minMax unseen (gaps ++ [id]) }
  | .loadData minMax fromId gaps =>
    let rows := s.db.selectFrom fromId basePageSize
    match rows.getLast? with
    | none => some { s with pc := .fixGaps gaps 3 minMax .initial }
    | some last => some { s with pc := .applying rows (.loadData minMax last.id gaps) }
  | .check =>
    match s.db.getMinmaxEventId, s.loader with
    | none, _ => some { s with pc := .idle }
    | some minMax, .synced old =>
      if old = some minMax then some { s with pc := .idle }
      else some (checkForUpdates s minMax.1 minMax.2 old)
    | some _, _ => some (crash s)
  | .page minId maxId fromId gapsFromBelow after =>
    let rows := s.db.selectUpdatesBetween fromId maxId
    some { s with pc := .applying rows (.fixGaps
      (gapsFromBelow ++ idsToGaps fromId maxId (rowsToIds rows)) 3 (some (minId, maxId)) after) }
  | .applying [] next => some { s with pc := next }
  | .applying (row :: rows) next =>
    some { s with core := applyChange row s.self s.core, pc := .applying rows next }
  | .fixGaps [] _ minMax after => some (finish s minMax after)
  | .fixGaps (_ :: _) 0 _ _ => some (crash s)
  | .fixGaps (id :: gaps) (retries + 1) minMax after =>
    some { s with pc := .dummies (id :: gaps) (id :: gaps) retries minMax after }
  | .dummies [] gaps retries minMax after =>
    some { s with pc := .reading gaps [] gaps retries minMax after }
  | .dummies (id :: unfilled) gaps retries minMax after => some { s with
      db := if dummyOk then s.db.insertDummyEvent id else s.db
      pc := .dummies unfilled gaps retries minMax after }
  | .reading [] rows gaps retries minMax after => some { s with
      pc := .applying (ukeysort Row.id rows)
        (.fixGaps (gaps.diff (rowsToIds rows)) retries minMax after) }
  | .reading (id :: unread) rows gaps retries minMax after => some { s with
      pc := .reading unread (rows ++ s.db.selectUpdatesBetween id id) gaps retries minMax after }

/-- One step; `none` for what cannot happen. -/
def step : Event D H → Option (System D H)
  | .insertEvent domain settings => some { s with db := s.db.insertEvent domain settings }
  | .commit eventId =>
    (s.db.transactions.find? fun tx => tx.eventId = eventId).map fun tx =>
      { s with db := s.db.commit tx }
  | .abort eventId => some { s with db := s.db.endTransaction eventId }
  | .insertDummyEvent eventId =>
    if eventId < s.db.nextEventId then some { s with db := s.db.insertDummyEvent eventId }
    else none
  | .checkForUpdates =>
    match s.pc with
    | .idle => some { s with pc := .check }
    | _ => none
  | .work dummyOk => work s dummyOk

end System

/-! ## The database as the node should see it -/

variable (core : DomainCore D H Nat)

/-- The host type with which the table has a domain that was not configured. -/
def dynamicHostType (domain : D) : Option H :=
  match core.table.lookup domain with
  | some (hostType, .dynamic _) => some hostType
  | _ => none

/-- What the table should have for a domain with such a row: its host type, if it is allowed and the
domain is not static. -/
def wantedOf (domain : D) (hostType : Option H) : Option H :=
  hostType.filter fun hostType => hostType ∈ core.hostTypes ∧ core.isStatic domain = false

/-- The dynamic domains of the table are the enabled rows whose host type is allowed and whose
domain is not static. -/
def System.InStep (s : System D H) : Prop :=
  ∀ domain hostType, dynamicHostType s.core domain = some hostType ↔
    s.db.enabledHostType domain = some hostType ∧ hostType ∈ s.core.hostTypes ∧
      s.core.isStatic domain = false

end MongooseIM.Domain.Loader
