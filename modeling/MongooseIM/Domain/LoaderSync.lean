import MongooseIM.Domain.Loader
import MongooseIM.Transition.Run

/-! # The table of domains converges to the database

The loader only remembers a range of ids. A domain whose entry differs from its row has an event
outside this range, or at an id that the loader still has to read, or a row that it has read and not
applied yet. -/

namespace MongooseIM.Domain.Loader

open Erlang Keyset Domain List Option

variable {D H : Type*} [DecidableEq D] [DecidableEq H]

/-! ## What a row does -/

/-- Deletions and insertions leave the host types and the static domains. -/
def SameStatic (core core' : DomainCore D H Nat) : Prop :=
  core'.hostTypes = core.hostTypes ∧ ∀ domain, core'.isStatic domain = core.isStatic domain

variable {core : DomainCore D H Nat}

/-- What is wanted depends on the static part only. -/
theorem wantedOf_congr {core' : DomainCore D H Nat} (h : SameStatic core core') :
    wantedOf core' = wantedOf core := by
  funext domain hostType
  rw [wantedOf, wantedOf, h.1, h.2]

variable {domain : D}

omit [DecidableEq H] in
/-- A static domain is not a dynamic one. -/
theorem dynamicHostType_eq_none_of_isStatic
    (h : core.isStatic domain = true) : dynamicHostType core domain = none := by
  rw [DomainCore.isStatic] at h
  rw [dynamicHostType]
  split at h
  · rename_i heq
    rw [heq]
  · cases h

omit [DecidableEq H] in
/-- A deletion takes one dynamic domain. -/
theorem handleDelete_spec (core : DomainCore D H Nat) (domain : D) :
    SameStatic core (core.handleDelete domain).1 ∧
    ∀ domain', dynamicHostType (core.handleDelete domain).1 domain' =
    if domain' = domain then none else dynamicHostType core domain' := by
  rcases core.handleDelete_cases domain with ⟨hostType, source, hlookup, heq⟩ | ⟨heq, hnone⟩
  · rw [heq]
    refine ⟨⟨rfl, fun domain' => ?_⟩, fun domain' => ?_⟩
    · simp only [DomainCore.isStatic, lookup_erase]
      split_ifs with hsame
      · rw [hsame, hlookup]
      · rfl
    · simp only [dynamicHostType, lookup_erase]
      split_ifs <;> rfl
  · rw [heq]
    refine ⟨⟨rfl, fun _ => rfl⟩, fun domain' => ?_⟩
    split_ifs with hsame
    · subst hsame
      rcases hnone with hnone | hstatic
      · simp [dynamicHostType, hnone]
      · exact dynamicHostType_eq_none_of_isStatic hstatic
    · rfl

omit [DecidableEq H] in
/-- An entry is written for a domain that is not static. -/
theorem insert_spec (hostType : H) (source : Nat) (hdynamic : core.isStatic domain = false) :
    SameStatic core
    { core with table := core.table.insert domain (hostType, .dynamic source) } ∧
    ∀ domain', dynamicHostType
    { core with table := core.table.insert domain (hostType, .dynamic source) } domain' =
    if domain' = domain then some hostType else dynamicHostType core domain' := by
  refine ⟨⟨rfl, fun domain' => ?_⟩, fun domain' => ?_⟩
  · simp only [DomainCore.isStatic, lookup_insert]
    split_ifs with hsame
    · rw [hsame, ← DomainCore.isStatic, hdynamic]
    · rfl
  · simp only [dynamicHostType, lookup_insert]
    split_ifs <;> rfl

/-- A domain is inserted, over an entry with another host type too, when its host type is allowed or
the table does not have it. -/
theorem maybeInsertToCore_spec (core : DomainCore D H Nat) (domain : D) (hostType : H)
    (source : Nat)
    (hallowed : hostType ∉ core.hostTypes → dynamicHostType core domain = none) :
    SameStatic core (maybeInsertToCore domain hostType source core) ∧
    ∀ domain', dynamicHostType (maybeInsertToCore domain hostType source core) domain' =
    if domain' = domain then wantedOf core domain (some hostType)
    else dynamicHostType core domain' := by
  -- an entry can be written, now or after a deletion
  have hwritten : ∀ core' : DomainCore D H Nat, SameStatic core core' →
      (∀ domain', domain' ≠ domain → dynamicHostType core' domain' = dynamicHostType core domain') →
      hostType ∈ core.hostTypes → core.isStatic domain = false →
      SameStatic core
        { core' with table := core'.table.insert domain (hostType, .dynamic source) } ∧
      ∀ domain', dynamicHostType
        { core' with table := core'.table.insert domain (hostType, .dynamic source) } domain' =
        if domain' = domain then wantedOf core domain (some hostType)
        else dynamicHostType core domain' := by
    intro core' hsame hother hmem hdynamic
    obtain ⟨hsame', hspec⟩ := insert_spec hostType source ((hsame.2 domain).trans hdynamic)
    refine ⟨⟨hsame'.1.trans hsame.1, fun d => (hsame'.2 d).trans (hsame.2 d)⟩, fun domain' => ?_⟩
    rw [hspec]
    split_ifs with hdomain
    · simp [wantedOf, Option.filter, hmem, hdynamic]
    · exact hother domain' hdomain
  have hdynamic : ∀ entry, core.table.lookup domain = some entry →
      (∃ old, entry.2 = .dynamic old) → core.isStatic domain = false := by
    rintro ⟨other, -⟩ hlookup ⟨old, rfl⟩
    rw [DomainCore.isStatic, hlookup]
  rw [maybeInsertToCore]
  rcases core.handleInsert_cases domain hostType source with
    ⟨hnone, hmem, heq⟩ | ⟨⟨old, hold⟩, hmem, heq⟩ | ⟨res, heq, hres⟩
  · rw [heq]
    refine hwritten core ⟨rfl, fun _ => rfl⟩ (fun _ _ => rfl) hmem ?_
    rw [DomainCore.isStatic, hnone]
  · rw [heq]
    exact hwritten core ⟨rfl, fun _ => rfl⟩ (fun _ _ => rfl) hmem (hdynamic _ hold ⟨old, rfl⟩)
  · rw [heq]
    rcases hres with ⟨rfl, hunknown⟩ | ⟨rfl, hstatic⟩ | ⟨rfl, hmem, other, old, hold, hne⟩
    · refine ⟨⟨rfl, fun _ => rfl⟩, fun domain' => ?_⟩
      split_ifs with hsame
      · rw [hsame, hallowed hunknown]
        simp [wantedOf, Option.filter, hunknown]
      · rfl
    · refine ⟨⟨rfl, fun _ => rfl⟩, fun domain' => ?_⟩
      split_ifs with hsame
      · rw [hsame, dynamicHostType_eq_none_of_isStatic hstatic]
        simp [wantedOf, Option.filter, hstatic]
      · rfl
    · -- the update of the domain is enforced: the insertion finds no entry any more
      obtain ⟨hsame, hspec⟩ := handleDelete_spec core domain
      have hdeleted : (core.handleDelete domain).1.table.lookup domain = none := by
        rw [DomainCore.handleDelete, hold]
        simp
      simp only
      rcases (core.handleDelete domain).1.handleInsert_cases domain hostType source with
        ⟨-, -, heq'⟩ | ⟨⟨old', hold'⟩, -, -⟩ | ⟨res', -, hres'⟩
      · rw [heq']
        refine hwritten _ hsame (fun domain' hother => ?_) hmem (hdynamic _ hold ⟨old, rfl⟩)
        rw [hspec, if_neg hother]
      · rw [hdeleted] at hold'
        cases hold'
      · exfalso
        rcases hres' with ⟨-, hunknown⟩ | ⟨-, hstatic⟩ | ⟨-, -, other', old', hold', -⟩
        · exact hunknown (hsame.1 ▸ hmem)
        · rw [DomainCore.isStatic, hdeleted] at hstatic
          cases hstatic
        · rw [hdeleted] at hold'
          cases hold'

/-- The row names a host type that is not allowed for a domain that the table has. -/
def Ignored (core : DomainCore D H Nat) (row : Row D H) : Prop :=
  match row.domain, row.hostType with
  | some domain, some hostType =>
    hostType ∉ core.hostTypes ∧ dynamicHostType core domain ≠ none
  | _, _ => False

instance (core : DomainCore D H Nat) (row : Row D H) : Decidable (Ignored core row) := by
  unfold Ignored
  split <;> infer_instance

variable {row : Row D H}

/-- **What a row does.** Its domain gets what the row says, unless the row is ignored. -/
theorem applyChange_spec (source : Nat) (h : ¬ Ignored core row) :
    SameStatic core (applyChange row source core) ∧
    ∀ domain, dynamicHostType (applyChange row source core) domain =
    if row.domain = some domain then wantedOf core domain row.hostType
    else dynamicHostType core domain := by
  rw [applyChange]
  cases hdomain : row.domain with
  | none => exact ⟨⟨rfl, fun _ => rfl⟩, fun domain => by simp⟩
  | some domain =>
    cases hhostType : row.hostType with
    | none =>
      obtain ⟨hsame, hspec⟩ := handleDelete_spec core domain
      refine ⟨hsame, fun domain' => ?_⟩
      rw [hspec]
      simp only [some_inj, eq_comm (a := domain)]
      rfl
    | some hostType =>
      simp only [Ignored, hdomain, hhostType, not_and_not_right] at h
      obtain ⟨hsame, hspec⟩ := maybeInsertToCore_spec core domain hostType source h
      refine ⟨hsame, fun domain' => ?_⟩
      rw [hspec]
      simp only [some_inj, eq_comm (a := domain)]
      split_ifs with heq
      · rw [heq]
      · rfl

/-! ## Rows that are read and not applied yet -/

/-- What a row says of a domain. -/
def rowFor (domain : D) (row : Row D H) : Option (Option H) :=
  if row.domain = some domain then some row.hostType else none

/-- What the last of these rows says of a domain. -/
def lastFor (domain : D) : List (Row D H) → Option (Option H)
  | [] => none
  | row :: rows => (lastFor domain rows).or (rowFor domain row)

omit [DecidableEq H] in
/-- The last row for a domain in two lists. -/
theorem lastFor_append (domain : D) (rows rows' : List (Row D H)) :
    lastFor domain (rows ++ rows') = (lastFor domain rows').or (lastFor domain rows) := by
  induction rows with
  | nil => simp [lastFor]
  | cons row rows ih => rw [cons_append, lastFor, lastFor, ih, Option.or_assoc]

variable {rows : List (Row D H)}

omit [DecidableEq H] in
/-- What the last row says is said by some row. -/
theorem exists_row_of_lastFor {hostType : Option H} (h : lastFor domain rows = some hostType) :
    ∃ row ∈ rows, row.domain = some domain ∧ row.hostType = hostType := by
  induction rows with
  | nil => cases h
  | cons row rows ih =>
    rw [lastFor, or_eq_some_iff] at h
    rcases h with h | ⟨-, h⟩
    · obtain ⟨row', hmem, hrow'⟩ := ih h
      exact ⟨row', mem_cons_of_mem _ hmem, hrow'⟩
    · rw [rowFor, ite_none_right_eq_some] at h
      exact ⟨row, mem_cons_self, h.1, some.inj h.2⟩

omit [DecidableEq H] in
/-- A domain with a row has a last one. -/
theorem lastFor_ne_none (hmem : row ∈ rows)
    (hdomain : row.domain = some domain) : lastFor domain rows ≠ none := by
  induction rows with
  | nil => cases hmem
  | cons row' rows ih =>
    rw [lastFor, Ne, or_eq_none_iff, not_and_or]
    rcases mem_cons.1 hmem with rfl | hmem
    · exact .inr (by simp [rowFor, hdomain])
    · exact .inl (ih hmem)

/-! ## The invariant -/

/-- What the loader has taken in, and what it is about to. -/
structure View (D H : Type*) where
  /-- The ids of which nothing is left to be read, but for the missing ones. -/
  minMax : Option (Nat × Nat)
  missing : List Nat
  rows : List (Row D H)
  /-- The settings with larger ids are still to be loaded. -/
  base : Option Nat

/-- The id is in the range. -/
def InRange (minMax : Option (Nat × Nat)) (id : Nat) : Prop :=
  ∃ range ∈ minMax, range.1 ≤ id ∧ id ≤ range.2

/-- Between two checks. -/
def LoaderState.view : LoaderState → View D H
  | .synced minMax => ⟨minMax, [], [], none⟩
  | _ => ⟨none, [], [], some 0⟩

/-- At every place of the loader. -/
def Pc.view (loader : LoaderState) : Pc D H → View D H
  | .starting | .idle | .check | .page .. => loader.view
  | .findGaps minMax unseen gaps => ⟨some minMax, gaps ++ unseen, [], some 0⟩
  | .loadData minMax fromId gaps => ⟨minMax, gaps, [], some fromId⟩
  | .applying rows next => { next.view loader with rows := rows ++ (next.view loader).rows }
  | .fixGaps gaps _ minMax _ => ⟨minMax, gaps, [], none⟩
  | .dummies _ gaps _ minMax _ => ⟨minMax, gaps, [], none⟩
  | .reading _ rows gaps _ minMax _ => ⟨minMax, gaps.diff (rowsToIds rows), rows, none⟩

/-- The initial load comes first, and checks follow it. -/
def Phase (loader : LoaderState) (after : After) : Prop :=
  match loader with
  | .undefined => after = .initial
  | .reset => False
  | .synced _ => after ≠ .initial

/-- What the place of the loader has to do with the rest. -/
def Fits (loader : LoaderState) (core : DomainCore D H Nat) (nextEventId : Nat) : Pc D H → Prop
  | .starting => loader ≠ .reset ∧
      (loader = .undefined → ∀ domain, dynamicHostType core domain = none)
  | .findGaps _ unseen gaps => loader = .undefined ∧ (gaps ++ unseen).Pairwise (· < ·) ∧
      ∀ domain, dynamicHostType core domain = none
  | .loadData _ _ gaps => loader = .undefined ∧ gaps.Pairwise (· < ·)
  | .idle | .check => ∃ minMax, loader = .synced minMax
  | .page minId maxId fromId gapsFromBelow after => ∃ old, loader = .synced old ∧
      fromId = fromIdOf old minId ∧ gapsFromBelow = newGapsFromBelow old minId ∧
      minId ≤ maxId ∧ maxId < nextEventId ∧
      (∀ range ∈ old, minId ≤ range.1 ∧ range.2 ≤ maxId) ∧ after ≠ .initial
  | .applying _ next =>
    (match next with
    | .loadData .. | .fixGaps .. => True
    | _ => False) ∧ Fits loader core nextEventId next
  | .fixGaps gaps _ _ after => Phase loader after ∧ gaps.Pairwise (· < ·)
  | .dummies unfilled gaps _ _ after => Phase loader after ∧ gaps.Pairwise (· < ·) ∧
      ∀ id ∈ unfilled, id < nextEventId
  | .reading unread rows gaps _ _ after => Phase loader after ∧ gaps.Pairwise (· < ·) ∧
      (rowsToIds rows ++ unread).Sublist gaps

variable (db : Database D H)

/-- The table will have the domain as the database has it once the rows are applied. -/
def Settled (core : DomainCore D H Nat) (rows : List (Row D H)) (domain : D) : Prop :=
  ((lastFor domain rows).map (wantedOf core domain)).getD (dynamicHostType core domain) =
    wantedOf core domain (db.enabledHostType domain)

/-- There is an event about the domain at such an id. -/
def HasEvent (domain : D) (p : Nat → Prop) : Prop :=
  ∃ id, db.events.lookup id = some (some domain) ∧ p id

/-- The row of the domain is still to be loaded. -/
def ToLoad (base : Option Nat) (domain : D) : Prop :=
  ∃ fromId ∈ base, ∃ settings, db.settings.lookup domain = some settings ∧
    settings.status = .enabled ∧ fromId < settings.id

/-- **Why a domain will be right**: it is, or an event about it is still to be read, or its row is
still to be loaded. -/
def Covered (core : DomainCore D H Nat) (view : View D H) (domain : D) : Prop :=
  Settled db core view.rows domain ∨
    HasEvent db domain (fun id => ¬ InRange view.minMax id ∨ id ∈ view.missing) ∨
    ToLoad db view.base domain

/-- What holds of the part of the events that has been taken in. -/
structure Taken (db : Database D H) (core : DomainCore D H Nat) (view : View D H) : Prop where
  filled : ∀ id, InRange view.minMax id → id ∈ db.events ∨ id ∈ view.missing
  missing_lt : ∀ id ∈ view.missing, id < db.nextEventId
  ordered : ∀ range ∈ view.minMax, range.1 ≤ range.2
  covered : ∀ domain, Covered db core view domain

/-- The rows that are read are current, or there is an event outside of the range. -/
def Fresh (minMax : Option (Nat × Nat)) (rows : List (Row D H)) : Prop :=
  ∀ row ∈ rows, ∀ domain, row.domain = some domain →
    row.hostType = db.enabledHostType domain ∨ HasEvent db domain fun id => ¬ InRange minMax id

/-- **The invariant**, which holds of the loader's state too when it is in the middle of a check. -/
structure System.Sound (s : System D H) : Prop where
  db : s.db.WellFormed
  shutdown : s.shutdown = false
  fits : Fits s.loader s.core s.db.nextEventId s.pc
  taken : Taken s.db s.core (s.pc.view s.loader)
  synced : ∀ minMax, s.loader = .synced minMax →
    Taken s.db s.core ⟨minMax, [], [], none⟩ ∧ Fresh s.db minMax (s.pc.view s.loader).rows

variable {db : Database D H} {db' : Database D H}

omit [DecidableEq D] [DecidableEq H] in
/-- An event stays where ids are only added. -/
theorem HasEvent.mono {p q : Nat → Prop} (h : HasEvent db domain p)
    (hevents : ∀ id domain, db.events.lookup id = some domain → db'.events.lookup id = some domain)
    (hsub : ∀ id, db.events.lookup id = some (some domain) → p id → q id) :
    HasEvent db' domain q := by
  obtain ⟨id, hlookup, hp⟩ := h
  exact ⟨id, hevents id _ hlookup, hsub id hlookup hp⟩

/-! ### Changes of the database -/

/-- What everybody does to the database: events stay, and a domain whose row changes has a new
event. -/
structure Changed (db db' : Database D H) : Prop where
  wellFormed : db'.WellFormed
  next_le : db.nextEventId ≤ db'.nextEventId
  events : ∀ id domain, db.events.lookup id = some domain → db'.events.lookup id = some domain
  settings : ∀ domain, db'.settings.lookup domain = db.settings.lookup domain ∨
    ∃ id, id ∉ db.events ∧ db'.events.lookup id = some (some domain)

variable {view : View D H}

/-- What has been taken stays so when the database changes. -/
theorem Taken.changed (h : Taken db core view) (hdb : Changed db db') : Taken db' core view := by
  refine ⟨fun id hrange => ?_, fun id hid => (h.missing_lt id hid).trans_le hdb.next_le,
    h.ordered, fun domain => ?_⟩
  · refine (h.filled id hrange).imp_left fun hid => ?_
    obtain ⟨domain, hlookup⟩ := isSome_iff_exists.1 (AList.lookup_isSome.2 hid)
    exact AList.lookup_isSome.1 (by rw [hdb.events id domain hlookup]; rfl)
  · rcases hdb.settings domain with hsame | ⟨id, hnew, hlookup⟩
    · refine (h.covered domain).imp (fun hsettled => ?_) (Or.imp (fun hevent => ?_) fun hload => ?_)
      · rw [Settled, Database.enabledHostType, hsame]
        exact hsettled
      · exact hevent.mono hdb.events fun _ _ hp => hp
      · obtain ⟨fromId, hbase, settings, hlookup, hrest⟩ := hload
        exact ⟨fromId, hbase, settings, hsame.trans hlookup, hrest⟩
    · -- the id of the new event had no event before, so it has not been taken in
      refine .inr (.inl ⟨id, hlookup, ?_⟩)
      by_cases hrange : InRange view.minMax id
      · exact .inr ((h.filled id hrange).resolve_left hnew)
      · exact .inl hrange

variable {minMax : Option (Nat × Nat)}

/-- What is fresh stays so when the database changes. -/
theorem Fresh.changed (h : Fresh db minMax rows)
    (htaken : Taken db core ⟨minMax, [], [], none⟩) (hdb : Changed db db') :
    Fresh db' minMax rows := by
  intro row hrow domain hdomain
  rcases hdb.settings domain with hsame | ⟨id, hnew, hlookup⟩
  · rcases h row hrow domain hdomain with hcurrent | hevent
    · refine .inl (hcurrent.trans ?_)
      rw [Database.enabledHostType, Database.enabledHostType, hsame]
    · exact .inr (hevent.mono hdb.events fun _ _ hp => hp)
  · refine .inr ⟨id, hlookup, fun hrange => ?_⟩
    rcases htaken.filled id hrange with hid | hid
    · exact hnew hid
    · cases hid

omit [DecidableEq H] in
/-- Ids that fit go on to fit. -/
theorem Fits.mono {loader : LoaderState} {next next' : Nat}
    {pc : Pc D H} (h : Fits loader core next pc) (hle : next ≤ next') :
    Fits loader core next' pc := by
  induction pc with
  | starting => exact h
  | findGaps minMax unseen gaps => exact h
  | loadData minMax fromId gaps => exact h
  | idle => exact h
  | check => exact h
  | page minId maxId fromId gapsFromBelow after =>
    obtain ⟨old, hold, hfrom, hbelow, hle', hlt, hrest⟩ := h
    exact ⟨old, hold, hfrom, hbelow, hle', hlt.trans_le hle, hrest⟩
  | applying rows next ih => exact ⟨h.1, ih h.2⟩
  | fixGaps gaps retries minMax after => exact h
  | dummies unfilled gaps retries minMax after =>
    exact ⟨h.1, h.2.1, fun id hid => (h.2.2 id hid).trans_le hle⟩
  | reading unread rows gaps retries minMax after => exact h

/-- **The invariant holds after a change of the database.** -/
theorem System.Sound.changed {s : System D H} (h : s.Sound)
    (hdb : Changed s.db db) : ({ s with db := db } : System D H).Sound := by
  refine ⟨hdb.wellFormed, h.shutdown, h.fits.mono hdb.next_le, h.taken.changed hdb, ?_⟩
  intro minMax hloader
  obtain ⟨htaken, hfresh⟩ := h.synced minMax hloader
  exact ⟨htaken.changed hdb, hfresh.changed htaken hdb⟩

omit [DecidableEq H] in
/-- A new event is a change. -/
theorem changed_insertEvent (h : db.WellFormed) (domain : D)
    (settings : Option (H × Status)) : Changed db (db.insertEvent domain settings) :=
  ⟨h.insertEvent domain settings, Nat.le_succ _, fun _ _ hlookup => hlookup, fun _ => .inl rfl⟩

omit [DecidableEq H] in
/-- The end of a transaction is a change. -/
theorem changed_endTransaction (h : db.WellFormed) (eventId : Nat) :
    Changed db (db.endTransaction eventId) :=
  ⟨h.endTransaction eventId, le_rfl, fun _ _ hlookup => hlookup, fun _ => .inl rfl⟩

variable {id : Nat} {eventId : Nat}

omit [DecidableEq D] [DecidableEq H] in
/-- A new id hides no other one. -/
theorem lookup_insert_of_notMem (hnew : eventId ∉ db.events)
    (domain : Option D) {domain' : Option D}
    (hlookup : db.events.lookup id = some domain') :
    (db.events.insert eventId domain).lookup id = some domain' := by
  rw [lookup_insert, if_neg, hlookup]
  rintro rfl
  exact hnew (AList.lookup_isSome.1 (by rw [hlookup]; rfl))

omit [DecidableEq H] in
/-- A dummy event is a change. -/
theorem changed_insertDummyEvent (h : db.WellFormed)
    (hlt : eventId < db.nextEventId) : Changed db (db.insertDummyEvent eventId) := by
  refine ⟨h.insertDummyEvent hlt, ?_, fun id domain hlookup => ?_, fun domain => .inl ?_⟩
  · rw [Database.insertDummyEvent]
    split <;> exact le_rfl
  · rw [Database.insertDummyEvent]
    split
    · exact hlookup
    · rename_i hnone
      exact lookup_insert_of_notMem (AList.lookup_eq_none.1 hnone) none hlookup
  · rw [Database.insertDummyEvent]
    split <;> rfl

omit [DecidableEq H] in
/-- A commit is a change. -/
theorem changed_commit (h : db.WellFormed) {tx : Transaction D H}
    (htx : tx ∈ db.transactions) : Changed db (db.commit tx) := by
  obtain ⟨-, hnew⟩ := h.open_eventId tx htx
  refine ⟨h.commit htx, le_rfl, fun id domain hlookup => ?_, fun domain => ?_⟩
  · exact lookup_insert_of_notMem hnew (some tx.domain) hlookup
  · by_cases hsame : domain = tx.domain
    · subst hsame
      exact .inr ⟨tx.eventId, hnew, AList.lookup_insert _⟩
    · refine .inl ?_
      rw [Database.commit, Database.endTransaction, Database.lookup_writeSettings, if_neg hsame]

/-! ### Rows are applied -/

section

variable (source : Nat) (hrow : ¬ Ignored core row)

include hrow

/-- A row that is applied is settled. -/
theorem Settled.apply (h : Settled db core (row :: rows) domain) :
    Settled db (applyChange row source core) rows domain := by
  obtain ⟨hsame, hspec⟩ := applyChange_spec source hrow
  rw [Settled, wantedOf_congr hsame, hspec, ← h, lastFor, rowFor]
  cases lastFor domain rows with
  | some hostType => rfl
  | none => split_ifs <;> rfl

/-- A row that is applied is taken. -/
theorem Taken.apply (h : Taken db core { view with rows := row :: rows }) :
    Taken db (applyChange row source core) { view with rows := rows } :=
  { h with covered := fun domain => (h.covered domain).imp_left (Settled.apply source hrow) }

/-- So is one that has just been read. -/
theorem Taken.apply_fresh
    (h : Taken db core ⟨minMax, [], [], none⟩) (hfresh : Fresh db minMax [row]) :
    Taken db (applyChange row source core) ⟨minMax, [], [], none⟩ := by
  obtain ⟨hsame, hspec⟩ := applyChange_spec source hrow
  refine { h with covered := fun domain => ?_ }
  by_cases hdomain : row.domain = some domain
  · rcases hfresh row mem_cons_self domain hdomain with hcurrent | hevent
    · refine .inl ?_
      rw [Settled, wantedOf_congr hsame, hspec, if_pos hdomain, hcurrent]
      rfl
    · exact .inr (.inl (hevent.mono (fun _ _ hlookup => hlookup) fun _ _ hout => .inl hout))
  · refine (h.covered domain).imp_left fun hsettled => ?_
    rw [Settled, wantedOf_congr hsame, hspec, if_neg hdomain]
    exact hsettled

end

/-! ### Rows are read -/

/-- The rows say what the database has now. -/
def Current (db : Database D H) (rows : List (Row D H)) : Prop :=
  ∀ row ∈ rows, ∀ domain, row.domain = some domain → row.hostType = db.enabledHostType domain

omit [DecidableEq H] in
/-- Updates are read as they are. -/
theorem current_selectUpdatesBetween (db : Database D H) (fromId toId : Nat) :
    Current db (db.selectUpdatesBetween fromId toId) := by
  intro row hrow domain hdomain
  obtain ⟨eventId, eventDomain, -, -, -, rfl⟩ := Database.mem_selectUpdatesBetween.1 hrow
  simp only [Database.eventRow] at hdomain ⊢
  rw [hdomain]
  rfl

omit [DecidableEq H] in
/-- Pages are read as they are. -/
theorem current_selectFrom (db : Database D H) (fromId limit : Nat) :
    Current db (db.selectFrom fromId limit) := by
  intro row hrow domain hdomain
  obtain ⟨rowDomain, settings, hlookup, -, henabled, rfl⟩ := Database.of_mem_selectFrom hrow
  cases hdomain
  obtain ⟨id, hostType, status⟩ := settings
  simp only at henabled
  subst henabled
  rw [Database.enabledHostType, hlookup]

variable {rows' : List (Row D H)}

/-- A row just read settles its domain. -/
theorem settled_append_of_current (rows : List (Row D H)) (hcurrent : Current db rows')
    (hrow : row ∈ rows') (hdomain : row.domain = some domain) :
    Settled db core (rows ++ rows') domain := by
  rw [Settled, lastFor_append]
  obtain ⟨hostType, hlast⟩ := ne_none_iff_exists'.1 (lastFor_ne_none hrow hdomain)
  obtain ⟨row', hrow', hdomain', rfl⟩ := exists_row_of_lastFor hlast
  rw [hlast, some_or, map_some, getD_some, hcurrent row' hrow' domain hdomain']

/-- More rows that are current change nothing. -/
theorem Settled.append (hcurrent : Current db rows')
    (h : Settled db core rows domain) : Settled db core (rows ++ rows') domain := by
  cases hlast : lastFor domain rows' with
  | none =>
    rw [Settled, lastFor_append, hlast, none_or]
    exact h
  | some hostType =>
    obtain ⟨row, hrow, hdomain, -⟩ := exists_row_of_lastFor hlast
    exact settled_append_of_current rows hcurrent hrow hdomain

omit [DecidableEq H] in
/-- Current rows are fresh. -/
theorem Fresh.append (h : Fresh db minMax rows) (hcurrent : Current db rows') :
    Fresh db minMax (rows ++ rows') := by
  intro row hrow domain hdomain
  rcases mem_append.1 hrow with hrow | hrow
  · exact h row hrow domain hdomain
  · exact .inl (hcurrent row hrow domain hdomain)

/-! #### The initial load -/

variable {fromId : Nat} {toId : Nat}

theorem mem_seq : id ∈ seq fromId toId ↔ fromId ≤ id ∧ id ≤ toId := by
  rw [seq, mem_range'_1]
  omega

theorem pairwise_seq (fromId toId : Nat) : (seq fromId toId).Pairwise (· < ·) := pairwise_lt_range'

/-- Without dynamic domains every domain is right or still to be loaded. -/
theorem covered_of_empty (hdb : db.WellFormed)
    (hempty : ∀ domain, dynamicHostType core domain = none) (minMax : Option (Nat × Nat))
    (missing : List Nat) (domain : D) : Covered db core ⟨minMax, missing, [], some 0⟩ domain := by
  cases hlookup : db.settings.lookup domain with
  | none =>
    refine .inl ?_
    rw [Settled, Database.enabledHostType, hlookup]
    exact hempty domain
  | some settings =>
    by_cases henabled : settings.status = .enabled
    · exact .inr (.inr ⟨0, rfl, settings, hlookup, henabled,
        (hdb.settingsId_bounds domain settings hlookup).1⟩)
    · refine .inl ?_
      have hnone : db.enabledHostType domain = none := by
        rw [Database.enabledHostType, hlookup]
        obtain ⟨id, hostType, status⟩ := settings
        cases status <;> first | rfl | exact absurd rfl henabled
      rw [Settled, hnone]
      exact hempty domain

variable {missing : List Nat}

/-- A page is loaded. -/
theorem Taken.loadPage (hdb : db.WellFormed)
    (h : Taken db core ⟨minMax, missing, [], some fromId⟩) {last : Row D H}
    (hlast : (db.selectFrom fromId basePageSize).getLast? = some last) :
    Taken db core ⟨minMax, missing, db.selectFrom fromId basePageSize, some last.id⟩ := by
  refine { h with covered := fun domain => ?_ }
  have hcurrent := current_selectFrom db fromId basePageSize
  rcases h.covered domain with hsettled | hevent | hload
  · exact .inl (hsettled.append hcurrent)
  · exact .inr (.inl hevent)
  · obtain ⟨fromId', hfrom, settings, hlookup, henabled, hlt⟩ := hload
    cases hfrom
    rcases Database.selectFrom_covers hdb basePageSize hlookup hlt henabled with hpage | habove
    · exact .inl (settled_append_of_current [] hcurrent hpage rfl)
    · exact .inr (.inr ⟨last.id, rfl, settings, hlookup, henabled,
        habove last (mem_of_getLast? hlast)⟩)

/-- The last page has been loaded. -/
theorem Taken.loaded (h : Taken db core ⟨minMax, missing, [], some fromId⟩)
    (hlast : (db.selectFrom fromId basePageSize).getLast? = none) :
    Taken db core ⟨minMax, missing, [], none⟩ := by
  refine { h with covered := fun domain => ?_ }
  rcases h.covered domain with hsettled | hevent | hload
  · exact .inl hsettled
  · exact .inr (.inl hevent)
  · obtain ⟨fromId', hfrom, settings, hlookup, henabled, hlt⟩ := hload
    cases hfrom
    have hle := Database.le_of_selectFrom_eq_nil (by decide) (getLast?_eq_none_iff.1 hlast)
      hlookup henabled
    omega

/-! #### A page of events -/

omit [DecidableEq D] [DecidableEq H] in
/-- A gap is an id that is not there. -/
theorem mem_idsToGaps {ids : List Nat} :
    id ∈ idsToGaps fromId toId ids ↔ (fromId ≤ id ∧ id ≤ toId) ∧ id ∉ ids := by
  rw [idsToGaps, mem_filter, mem_seq, decide_eq_true_iff]

variable {old : Option (Nat × Nat)} {minId : Nat}

/-- The gaps below the last minimum. -/
theorem mem_newGapsFromBelow : id ∈ newGapsFromBelow old minId ↔
    ∃ range ∈ old, minId < range.1 ∧ minId ≤ id ∧ id ≤ range.1 := by
  rcases old with _ | ⟨oldMin, oldMax⟩
  · simp [newGapsFromBelow]
  · simp only [newGapsFromBelow, mem_some_iff, exists_eq_left']
    split_ifs with heq hlt
    · simp [heq]
    · simp [hlt.le]
    · rw [mem_seq]
      omega

/-- These gaps are in order. -/
theorem pairwise_newGapsFromBelow (old : Option (Nat × Nat)) (minId : Nat) :
    (newGapsFromBelow old minId).Pairwise (· < ·) := by
  rcases old with _ | ⟨oldMin, oldMax⟩
  · exact List.Pairwise.nil
  · rw [newGapsFromBelow]
    split_ifs
    · exact List.Pairwise.nil
    · exact List.Pairwise.nil
    · exact pairwise_seq _ _

/-- All gaps are in order. -/
theorem pairwise_gaps (hordered : ∀ range ∈ old, range.1 ≤ range.2)
    (minId maxId : Nat) (ids : List Nat) :
    (newGapsFromBelow old minId ++ idsToGaps (fromIdOf old minId) maxId ids).Pairwise (· < ·) := by
  refine pairwise_append.2 ⟨pairwise_newGapsFromBelow old minId, (pairwise_seq _ _).filter _, ?_⟩
  intro id hid id' hid'
  obtain ⟨range, hrange, -, -, hle⟩ := mem_newGapsFromBelow.1 hid
  obtain ⟨⟨hfrom, -⟩, -⟩ := mem_idsToGaps.1 hid'
  obtain ⟨oldMin, oldMax⟩ := range
  rw [mem_def.1 hrange, fromIdOf] at hfrom
  have := hordered _ hrange
  simp only at this hle
  omega

/-- The page is read: what is new between the smallest and the last id of the page is in the rows or
a gap. -/
theorem Taken.page {maxId : Nat} (h : Taken db core ⟨old, [], [], none⟩) (hle : minId ≤ maxId)
    (hlt : maxId < db.nextEventId) (hold : ∀ range ∈ old, minId ≤ range.1 ∧ range.2 ≤ maxId)
    (hrows : rows = db.selectUpdatesBetween (fromIdOf old minId) maxId) :
    Taken db core ⟨some (minId, maxId), newGapsFromBelow old minId ++
    idsToGaps (fromIdOf old minId) maxId (rowsToIds rows), rows, none⟩ := by
  have hread : ∀ id domain, db.events.lookup id = some domain → fromIdOf old minId ≤ id →
      id ≤ maxId → db.eventRow id domain ∈ rows := by
    intro id domain hlookup hfrom hto
    rw [hrows]
    exact Database.mem_selectUpdatesBetween.2 ⟨id, domain, hlookup, hfrom, hto, rfl⟩
  -- an id of the new range is in the old one, below it, or in the page
  have hsplit : ∀ id, minId ≤ id → id ≤ maxId → InRange old id ∨ id ∈ newGapsFromBelow old minId ∨
      fromIdOf old minId ≤ id := by
    intro id hmin hmax
    rcases old with _ | ⟨oldMin, oldMax⟩
    · exact .inr (.inr hmin)
    · rw [mem_newGapsFromBelow, fromIdOf]
      by_cases hbelow : id < oldMin
      · exact .inr (.inl ⟨_, rfl, by simp only; omega, hmin, by simp only; omega⟩)
      · by_cases habove : oldMax < id
        · exact .inr (.inr habove)
        · exact .inl ⟨_, rfl, by simp only; omega, by simp only; omega⟩
  constructor
  · rintro id ⟨range, hrange, hmin, hmax⟩
    cases hrange
    simp only at hmin hmax
    rcases hsplit id hmin hmax with hin | hbelow | hfrom
    · exact .inl ((h.filled id hin).resolve_right (by simp))
    · exact .inr (mem_append_left _ hbelow)
    · by_cases hid : id ∈ db.events
      · exact .inl hid
      · refine .inr (mem_append_right _ (mem_idsToGaps.2 ⟨⟨hfrom, hmax⟩, fun hmem => hid ?_⟩))
        obtain ⟨row, hrow, rfl⟩ := mem_map.1 hmem
        rw [hrows] at hrow
        obtain ⟨id', domain, hlookup, -, -, rfl⟩ := Database.mem_selectUpdatesBetween.1 hrow
        exact AList.lookup_isSome.1 (by rw [Database.eventRow, hlookup]; rfl)
  · intro id hid
    rcases mem_append.1 hid with hid | hid
    · obtain ⟨range, hrange, hlt', -, hle'⟩ := mem_newGapsFromBelow.1 hid
      have := h.ordered range hrange
      have := (hold range hrange).2
      omega
    · exact (mem_idsToGaps.1 hid).1.2.trans_lt hlt
  · rintro range hrange
    cases hrange
    exact hle
  · intro domain
    have hcurrent : Current db rows := by
      rw [hrows]
      exact current_selectUpdatesBetween db _ _
    rcases h.covered domain with hsettled | ⟨id, hlookup, hnew⟩ | ⟨fromId, hbase, -⟩
    · exact .inl (hsettled.append hcurrent)
    · have hout : ¬ InRange old id := hnew.resolve_right (by simp)
      by_cases hin : InRange (some (minId, maxId)) id
      · obtain ⟨range, hrange, hmin, hmax⟩ := hin
        cases hrange
        rcases hsplit id hmin hmax with hin | hbelow | hfrom
        · exact absurd hin hout
        · exact .inr (.inl ⟨id, hlookup, .inr (mem_append_left _ hbelow)⟩)
        · exact .inl (settled_append_of_current [] hcurrent (hread id _ hlookup hfrom hmax) rfl)
      · exact .inr (.inl ⟨id, hlookup, .inl hin⟩)
    · cases hbase

/-! #### Gaps -/

/-- Missing ids that are read are taken. -/
theorem Taken.read {missing' : List Nat}
    (h : Taken db core ⟨minMax, missing, rows, none⟩) (hcurrent : Current db rows')
    (hsub : ∀ id ∈ missing', id ∈ missing)
    (hread : ∀ id ∈ missing, id ∉ missing' → id ∈ db.events ∧ ∀ domain,
    db.events.lookup id = some (some domain) → ∃ row ∈ rows', row.domain = some domain) :
    Taken db core ⟨minMax, missing', rows ++ rows', none⟩ := by
  refine ⟨fun id hrange => ?_, fun id hid => h.missing_lt id (hsub id hid), h.ordered, ?_⟩
  · rcases h.filled id hrange with hid | hid
    · exact .inl hid
    · by_cases hstill : id ∈ missing'
      · exact .inr hstill
      · exact .inl (hread id hid hstill).1
  · intro domain
    rcases h.covered domain with hsettled | ⟨id, hlookup, hnew⟩ | ⟨fromId, hbase, -⟩
    · exact .inl (hsettled.append hcurrent)
    · by_cases hstill : ¬ InRange minMax id ∨ id ∈ missing'
      · exact .inr (.inl ⟨id, hlookup, hstill⟩)
      · obtain ⟨hin, hnot⟩ := not_or.1 hstill
        obtain ⟨row, hrow, hdomain⟩ := (hread id (hnew.resolve_left hin) hnot).2 domain hlookup
        exact .inl (settled_append_of_current rows hcurrent hrow hdomain)
    · cases hbase

omit [DecidableEq D] [DecidableEq H] in
theorem rowsToIds_append (rows rows' : List (Row D H)) :
    rowsToIds (rows ++ rows') = rowsToIds rows ++ rowsToIds rows' :=
  map_append

/-- The next gap is read: it is not missing any more if it has an event by now. -/
theorem Taken.readGap {gaps : List Nat} (hgaps : gaps.Pairwise (· < ·)) (id : Nat)
    (h : Taken db core ⟨minMax, gaps.diff (rowsToIds rows), rows, none⟩) :
    Taken db core ⟨minMax, gaps.diff (rowsToIds (rows ++ db.selectUpdatesBetween id id)),
    rows ++ db.selectUpdatesBetween id id, none⟩ := by
  have hnodup : gaps.Nodup := hgaps.imp ne_of_lt
  refine h.read (current_selectUpdatesBetween db id id) (fun id' hid' => ?_) fun id' hid' hnot => ?_
  · rw [hnodup.mem_sdiff_iff, rowsToIds_append, mem_append, not_or] at hid'
    exact hnodup.mem_sdiff_iff.2 ⟨hid'.1, hid'.2.1⟩
  · rw [hnodup.mem_sdiff_iff] at hid' hnot
    rw [rowsToIds_append, mem_append, not_and_not_right] at hnot
    obtain ⟨row, hrow, rfl⟩ := mem_map.1 ((hnot hid'.1).resolve_left hid'.2)
    obtain ⟨eventId, domain, hlookup, -, -, rfl⟩ := Database.mem_selectUpdatesBetween.1 hrow
    refine ⟨AList.lookup_isSome.1 (by rw [Database.eventRow, hlookup]; rfl), ?_⟩
    intro domain' hlookup'
    refine ⟨_, hrow, ?_⟩
    simp only [Database.eventRow] at hlookup' ⊢
    exact some.inj (hlookup.symm.trans hlookup')

omit [DecidableEq H] in
/-- The rows of the gaps are read in their order. -/
theorem sublist_readGap {gaps unread : List Nat}
    (h : (rowsToIds rows ++ id :: unread).Sublist gaps) :
    (rowsToIds (rows ++ db.selectUpdatesBetween id id) ++ unread).Sublist gaps := by
  rw [rowsToIds_append, append_assoc]
  refine List.Sublist.trans (List.Sublist.append_left ?_ _) h
  rw [Database.selectUpdatesBetween_self]
  cases db.events.lookup id with
  | none => exact sublist_cons_self id unread
  | some domain => exact List.Sublist.refl _

omit [DecidableEq D] [DecidableEq H] in
/-- Rows in the order of their ids are sorted already. -/
theorem ukeysort_eq_self {gaps : List Nat} (hgaps : gaps.Pairwise (· < ·))
    (h : (rowsToIds rows).Sublist gaps) : ukeysort Row.id rows = rows :=
  ukeysort_of_perm (List.Perm.refl _) (pairwise_map.1 (hgaps.sublist h))

/-! ### The steps of the loader -/

namespace System

variable {s : System D H}

/-- A step that keeps the view is sound. -/
theorem Sound.move (h : s.Sound) (pc : Pc D H) (hfits : Fits s.loader s.core s.db.nextEventId pc)
    (htaken : Taken s.db s.core (pc.view s.loader))
    (hfresh : ∀ minMax, s.loader = .synced minMax → Fresh s.db minMax (pc.view s.loader).rows) :
    ({ s with pc := pc } : System D H).Sound :=
  ⟨h.db, h.shutdown, hfits, htaken, fun minMax hloader =>
    ⟨(h.synced minMax hloader).1, hfresh minMax hloader⟩⟩

/-- So is one that only moves on. -/
theorem Sound.stay (h : s.Sound) (pc : Pc D H) (hview : pc.view s.loader = s.pc.view s.loader)
    (hfits : Fits s.loader s.core s.db.nextEventId pc) :
    ({ s with pc := pc } : System D H).Sound := by
  refine h.move pc hfits (by rw [hview]; exact h.taken) fun minMax hloader => ?_
  rw [hview]
  exact (h.synced minMax hloader).2

variable {minMax : Option (Nat × Nat)}

/-- And a loader that starts again. -/
theorem Sound.restart (h : s.Sound) (hloader : s.loader = .synced minMax) (self : Nat) (pc : Pc D H)
    (hview : pc.view s.loader = s.loader.view)
    (hfits : Fits s.loader s.core s.db.nextEventId pc) :
    ({ s with self := self, pc := pc } : System D H).Sound := by
  have htaken : Taken s.db s.core (pc.view s.loader) := by
    rw [hview, hloader]
    exact (h.synced minMax hloader).1
  refine ⟨h.db, h.shutdown, hfits, htaken, fun minMax' hloader' => ⟨(h.synced _ hloader').1, ?_⟩⟩
  simp only
  rw [hview, hloader]
  intro row hrow
  cases hrow

/-- The initial load begins. -/
theorem Sound.initialLoad (h : s.Sound) (hpc : s.pc = .starting) : s.initialLoad.Sound := by
  obtain ⟨hreset, hempty⟩ : s.loader ≠ .reset ∧
      (s.loader = .undefined → ∀ domain, dynamicHostType s.core domain = none) := by
    have hfits := h.fits
    rw [hpc] at hfits
    exact hfits
  cases hloader : s.loader with
  | reset => exact absurd hloader hreset
  | synced minMax =>
    have heq : s.initialLoad = { s with pc := .check } := by rw [System.initialLoad, hloader]
    rw [heq]
    exact h.stay .check (by rw [hpc]; rfl) ⟨minMax, hloader⟩
  | undefined =>
    have hnone := hempty hloader
    have hnotSynced : ∀ pc : Pc D H, ∀ minMax, s.loader = .synced minMax →
        Fresh s.db minMax (pc.view s.loader).rows := by
      intro pc minMax hsynced
      cases hloader.symm.trans hsynced
    cases hminMax : s.db.getMinmaxEventId with
    | none =>
      have heq : s.initialLoad = { s with pc := .loadData none 0 [] } := by
        rw [System.initialLoad, hloader, hminMax]
      rw [heq]
      refine h.move (.loadData none 0 []) ⟨hloader, List.Pairwise.nil⟩
        ⟨?_, by simp [Pc.view], by simp [Pc.view], covered_of_empty h.db hnone none []⟩
        (hnotSynced _)
      rintro id ⟨range, hrange, -⟩
      cases hrange
    | some minMax =>
      obtain ⟨minId, maxId⟩ := minMax
      obtain ⟨hmin, hmax, hall⟩ := Database.getMinmaxEventId_eq_some hminMax
      have heq : s.initialLoad =
          { s with pc := .findGaps (minId, maxId) (seq minId maxId) [] } := by
        rw [System.initialLoad, hloader, hminMax]
      rw [heq]
      refine h.move (.findGaps (minId, maxId) (seq minId maxId) [])
        ⟨hloader, pairwise_seq minId maxId, hnone⟩
        ⟨?_, fun id hid => ?_, ?_, covered_of_empty h.db hnone _ _⟩ (hnotSynced _)
      · rintro id ⟨range, hrange, hrest⟩
        cases hrange
        exact .inr (mem_seq.2 hrest)
      · exact (mem_seq.1 hid).2.trans_lt (h.db.eventId_lt maxId hmax)
      · rintro range hrange
        cases hrange
        exact (hall maxId hmax).1

variable {gaps : List Nat}

/-- An id is looked at: either it has an event or it is a gap. -/
theorem Sound.findGap (h : s.Sound) {minMax : Nat × Nat} {id : Nat}
    {unseen : List Nat} (hpc : s.pc = .findGaps minMax (id :: unseen) gaps) :
    (id ∈ s.db.events → ({ s with pc := .findGaps minMax unseen gaps } : System D H).Sound) ∧
    ({ s with pc := .findGaps minMax unseen (gaps ++ [id]) } : System D H).Sound := by
  have hfits := h.fits
  have htaken := h.taken
  rw [hpc] at hfits htaken
  obtain ⟨hloader, hpairwise, hempty⟩ := hfits
  constructor
  · intro hid
    have hsub : (gaps ++ unseen).Sublist (gaps ++ id :: unseen) :=
      List.Sublist.append_left (sublist_cons_self id unseen) gaps
    refine h.move (.findGaps minMax unseen gaps) ⟨hloader, hpairwise.sublist hsub, hempty⟩
      ⟨fun id' hrange => ?_, fun id' hid' => htaken.missing_lt id' (hsub.subset hid'),
        htaken.ordered, covered_of_empty h.db hempty _ _⟩
      (fun minMax' hsynced => by cases hloader.symm.trans hsynced)
    rcases htaken.filled id' hrange with hid' | hid'
    · exact .inl hid'
    · rcases mem_append.1 hid' with hid' | hid'
      · exact .inr (mem_append_left _ hid')
      · rcases mem_cons.1 hid' with rfl | hid'
        · exact .inl hid
        · exact .inr (mem_append_right _ hid')
  · have hsame : gaps ++ [id] ++ unseen = gaps ++ id :: unseen := by simp
    refine h.stay (.findGaps minMax unseen (gaps ++ [id])) ?_
      ⟨hloader, by rw [hsame]; exact hpairwise, hempty⟩
    rw [hpc, Pc.view, Pc.view, hsame]

variable {retries : Nat} {after : After}

/-- The state is set: what was to be taken in is taken in. -/
theorem Sound.finish (h : s.Sound) (hpc : s.pc = .fixGaps [] retries minMax after) :
    (s.finish minMax after).Sound := by
  have hfits := h.fits
  have htaken := h.taken
  rw [hpc] at hfits htaken
  have htaken' : Taken s.db s.core ⟨minMax, [], [], none⟩ := htaken
  have hreset : s.loader ≠ .reset := by
    intro hreset
    rw [hreset] at hfits
    exact hfits.1
  have hsynced : ∀ minMax', LoaderState.synced minMax = .synced minMax' →
      Taken s.db s.core ⟨minMax', [], [], none⟩ ∧ Fresh s.db minMax' [] := by
    intro minMax' heq
    obtain rfl := LoaderState.synced.inj heq
    exact ⟨htaken', fun row hrow => by cases hrow⟩
  cases after with
  | initial =>
    rw [System.finish, if_neg hreset]
    exact ⟨h.db, h.shutdown, ⟨minMax, rfl⟩, htaken', hsynced⟩
  | morePages => exact ⟨h.db, h.shutdown, ⟨minMax, rfl⟩, htaken', hsynced⟩
  | done => exact ⟨h.db, h.shutdown, ⟨minMax, rfl⟩, htaken', hsynced⟩

variable {minId maxId : Nat}

/-- `check_for_updates/2` finds something new. -/
theorem Sound.checkForUpdates (h : s.Sound) (hpc : s.pc = .check)
    {old : Option (Nat × Nat)} (hloader : s.loader = .synced old)
    (hminMax : s.db.getMinmaxEventId = some (minId, maxId)) :
    (s.checkForUpdates minId maxId old).Sound := by
  obtain ⟨hmin, hmax, hall⟩ := Database.getMinmaxEventId_eq_some hminMax
  have htaken := (h.synced old hloader).1
  -- the old range is within the ids of the events
  have hold : ∀ range ∈ old, minId ≤ range.1 ∧ range.1 ≤ range.2 ∧ range.2 ≤ maxId := by
    intro range hrange
    have hordered := htaken.ordered range hrange
    have hfirst := (htaken.filled range.1 ⟨range, hrange, le_rfl, hordered⟩).resolve_right (by simp)
    have hlast := (htaken.filled range.2 ⟨range, hrange, hordered, le_rfl⟩).resolve_right (by simp)
    exact ⟨(hall _ hfirst).1, hordered, (hall _ hlast).2⟩
  have hle : minId ≤ maxId := (hall maxId hmax).1
  have hlt : maxId < s.db.nextEventId := h.db.eventId_lt maxId hmax
  have hrelevant : isIrrelevant old minId = false := by
    rcases old with _ | range
    · rfl
    · obtain ⟨hfirst, hordered, -⟩ := hold range rfl
      simp only [isIrrelevant, decide_eq_false_iff_not]
      omega
  have hafter : (if limitMaxId old (minId, maxId) updatesPageSize < maxId then After.morePages
      else After.done) ≠ .initial := by
    split_ifs <;> decide
  -- the page ends between the old range and the largest id
  have hlimit : minId ≤ limitMaxId old (minId, maxId) updatesPageSize ∧
      limitMaxId old (minId, maxId) updatesPageSize ≤ maxId ∧
      ∀ range ∈ old, range.2 ≤ limitMaxId old (minId, maxId) updatesPageSize := by
    rcases old with _ | range
    · simp only [limitMaxId]
      exact ⟨by omega, by omega, by simp⟩
    · obtain ⟨hfirst, hordered, hlast⟩ := hold range rfl
      simp only [limitMaxId]
      refine ⟨by omega, by omega, fun range' hrange' => ?_⟩
      cases hrange'
      omega
  obtain ⟨hminLe, hmaxLe, hbounds⟩ := hlimit
  simp only [System.checkForUpdates, hrelevant, Bool.or_false]
  generalize (if limitMaxId old (minId, maxId) updatesPageSize < maxId then After.morePages
    else After.done) = after at hafter
  generalize limitMaxId old (minId, maxId) updatesPageSize = toId at hminLe hmaxLe hbounds
  by_cases hsame : old.map Prod.snd = some toId
  · -- only ids below the old range are new
    rw [if_pos hsame]
    refine h.move (.fixGaps (newGapsFromBelow old minId) 3 (some (minId, toId)) after)
      ⟨?_, pairwise_newGapsFromBelow _ _⟩ ?_ fun _ _ row hrow => by cases hrow
    · rw [hloader]
      exact hafter
    · have hpage := htaken.page hminLe (hmaxLe.trans_lt hlt)
        (fun range hrange => ⟨(hold range hrange).1, hbounds range hrange⟩) rfl
      obtain ⟨⟨oldMin, oldMax⟩, rfl, rfl⟩ := map_eq_some_iff.1 hsame
      rwa [fromIdOf, Database.selectUpdatesBetween_eq_nil (Nat.lt_succ_self oldMax),
        show idsToGaps (oldMax + 1) oldMax (rowsToIds ([] : List (Row D H))) = [] by
          simp [idsToGaps, seq], append_nil] at hpage
  · rw [if_neg hsame]
    refine h.stay (.page minId toId (fromIdOf old minId) (newGapsFromBelow old minId) after) ?_
      ⟨old, hloader, rfl, rfl, hminLe, hmaxLe.trans_lt hlt,
        fun range hrange => ⟨(hold range hrange).1, hbounds range hrange⟩, hafter⟩
    rw [hpc]
    rfl

/-- A page of settings is loaded, or all of them are. -/
theorem Sound.loadData (h : s.Sound) {fromId : Nat} (hpc : s.pc = .loadData minMax fromId gaps) :
    ((s.db.selectFrom fromId basePageSize).getLast? = none →
    ({ s with pc := .fixGaps gaps 3 minMax .initial } : System D H).Sound) ∧
    ∀ last, (s.db.selectFrom fromId basePageSize).getLast? = some last → ({ s with
      pc := .applying (s.db.selectFrom fromId basePageSize)
        (.loadData minMax last.id gaps) } : System D H).Sound := by
  have hfits := h.fits
  have htaken := h.taken
  rw [hpc] at hfits htaken
  obtain ⟨hloader, hpairwise⟩ := hfits
  have hnotSynced : ∀ (rows : List (Row D H)) (minMax' : Option (Nat × Nat)),
      s.loader = .synced minMax' → Fresh s.db minMax' rows := by
    intro rows minMax' hsynced
    cases hloader.symm.trans hsynced
  constructor
  · intro hlast
    refine h.move (.fixGaps gaps 3 minMax .initial) ⟨?_, hpairwise⟩ (Taken.loaded htaken hlast)
      (hnotSynced _)
    rw [hloader]
    rfl
  · intro last hlast
    refine h.move (.applying _ (.loadData minMax last.id gaps)) ⟨trivial, hloader, hpairwise⟩ ?_
      (hnotSynced _)
    have hpage := Taken.loadPage h.db htaken hlast
    simpa [Pc.view] using hpage

variable {rows : List (Row D H)}

/-- A page of updates is read. -/
theorem Sound.page (h : s.Sound) {fromId : Nat} {gapsFromBelow : List Nat}
    (hpc : s.pc = .page minId maxId fromId gapsFromBelow after)
    (hrows : rows = s.db.selectUpdatesBetween fromId maxId) :
    ({ s with
    pc := .applying rows (.fixGaps (gapsFromBelow ++
      idsToGaps fromId maxId (rowsToIds rows)) 3 (some (minId, maxId)) after) } :
        System D H).Sound := by
  have hfits := h.fits
  rw [hpc] at hfits
  obtain ⟨old, hloader, rfl, rfl, hle, hlt, hold, hafter⟩ := hfits
  obtain ⟨htaken, -⟩ := h.synced old hloader
  refine h.move (.applying rows (.fixGaps _ 3 _ after)) ⟨trivial, ?_, ?_⟩ ?_ fun minMax _ => ?_
  · rw [hloader]
    exact hafter
  · exact pairwise_gaps htaken.ordered minId maxId _
  · have hpage := htaken.page hle hlt hold hrows
    simpa [Pc.view] using hpage
  · intro row hrow domain hdomain
    refine .inl (current_selectUpdatesBetween s.db (fromIdOf old minId) maxId row ?_ domain hdomain)
    simpa [Pc.view, hrows] using hrow

variable {next : Pc D H}

/-- A row is applied. -/
theorem Sound.apply (h : s.Sound) {row : Row D H} (hpc : s.pc = .applying (row :: rows) next)
    (hrow : ¬ Ignored s.core row) :
    ({ s with core := applyChange row s.self s.core, pc := .applying rows next } :
    System D H).Sound := by
  have hfits := h.fits
  have htaken := h.taken
  have hsynced := h.synced
  rw [hpc] at hfits htaken hsynced
  refine ⟨h.db, h.shutdown, ⟨hfits.1, ?_⟩, htaken.apply s.self hrow, fun minMax hloader => ?_⟩
  · -- what comes next does not look at the table
    cases next with
    | loadData minMax fromId gaps => exact hfits.2
    | fixGaps gaps retries minMax after => exact hfits.2
    | _ => exact hfits.1.elim
  · obtain ⟨hown, hfresh⟩ := hsynced minMax hloader
    refine ⟨hown.apply_fresh s.self hrow fun row' hrow' => ?_, fun row' hrow' => ?_⟩
    · rw [mem_singleton.1 hrow']
      exact hfresh row mem_cons_self
    · exact hfresh row' (mem_cons_of_mem _ hrow')

/-- All rows are applied. -/
theorem Sound.applied (h : s.Sound)
    (hpc : s.pc = .applying [] next) : ({ s with pc := next } : System D H).Sound := by
  have hfits := h.fits
  rw [hpc] at hfits
  refine h.stay next ?_ hfits.2
  rw [hpc]
  rfl

/-- A dummy event is inserted. -/
theorem Sound.dummy (h : s.Sound) {id : Nat} {unfilled : List Nat}
    (hpc : s.pc = .dummies (id :: unfilled) gaps retries minMax after) (dummyOk : Bool) :
    ({ s with
    db := if dummyOk then s.db.insertDummyEvent id else s.db
    pc := .dummies unfilled gaps retries minMax after } : System D H).Sound := by
  have hfits := h.fits
  rw [hpc] at hfits
  obtain ⟨hphase, hpairwise, hlt⟩ := hfits
  have hmoved : ({ s with pc := .dummies unfilled gaps retries minMax after } :
      System D H).Sound := by
    refine h.stay (.dummies unfilled gaps retries minMax after) (by rw [hpc]; rfl)
      ⟨hphase, hpairwise, fun id' hid' => hlt id' (mem_cons_of_mem _ hid')⟩
  cases dummyOk with
  | false => exact hmoved
  | true => exact hmoved.changed (changed_insertDummyEvent h.db (hlt id mem_cons_self))

/-- A missing id is read. -/
theorem Sound.read (h : s.Sound) {id : Nat} {unread : List Nat}
    (hpc : s.pc = .reading (id :: unread) rows gaps retries minMax after) :
    ({ s with
    pc := .reading unread (rows ++ s.db.selectUpdatesBetween id id) gaps retries minMax
      after } : System D H).Sound := by
  have hfits := h.fits
  have htaken := h.taken
  have hsynced := h.synced
  rw [hpc] at hfits htaken hsynced
  obtain ⟨hphase, hpairwise, hsublist⟩ := hfits
  refine h.move (.reading unread _ gaps retries minMax after)
    ⟨hphase, hpairwise, sublist_readGap hsublist⟩ (htaken.readGap hpairwise id) ?_
  intro minMax' hloader
  exact (hsynced minMax' hloader).2.append (current_selectUpdatesBetween s.db id id)

/-- All gaps are read: the rows are applied in their order. -/
theorem Sound.readAll (h : s.Sound) (hpc : s.pc = .reading [] rows gaps retries minMax after) :
    ({ s with
    pc := .applying (ukeysort Row.id rows)
      (.fixGaps (gaps.diff (rowsToIds rows)) retries minMax after) } : System D H).Sound := by
  have hfits := h.fits
  rw [hpc] at hfits
  obtain ⟨hphase, hpairwise, hsublist⟩ := hfits
  rw [append_nil] at hsublist
  rw [ukeysort_eq_self hpairwise hsublist]
  refine h.stay (.applying rows (.fixGaps _ retries minMax after)) ?_
    ⟨trivial, hphase, hpairwise.sublist (diff_sublist _ _)⟩
  rw [hpc]
  simp [Pc.view]

variable {s' : System D H}

/-- **Every step of the loader keeps the invariant**, unless a row is ignored or the initial load is
given up. -/
theorem Sound.work (h : s.Sound) {dummyOk : Bool}
    (hignored : ∀ row rows next, s.pc = .applying (row :: rows) next → ¬ Ignored s.core row)
    (hload : ∀ id gaps minMax after, s.pc = .fixGaps (id :: gaps) 0 minMax after →
    s.loader ≠ .undefined)
    (hwork : s.work dummyOk = some s') : s'.Sound := by
  have hfits := h.fits
  have htaken := h.taken
  cases hpc : s.pc with
  | starting =>
    rw [System.work, hpc] at hwork
    exact some.inj hwork ▸ h.initialLoad hpc
  | idle =>
    simp [System.work, hpc, h.shutdown] at hwork
  | findGaps minMax unseen gaps =>
    rw [hpc] at hfits
    obtain ⟨hloader, hpairwise, hempty⟩ := hfits
    cases unseen with
    | nil =>
      rw [System.work, hpc] at hwork
      cases hwork
      rw [append_nil] at hpairwise
      refine h.stay (.loadData (some minMax) 0 gaps) ?_ ⟨hloader, hpairwise⟩
      rw [hpc, Pc.view, Pc.view, append_nil]
    | cons id unseen =>
      rw [System.work, hpc] at hwork
      simp only at hwork
      split_ifs at hwork with hid
      · exact some.inj hwork ▸ (h.findGap hpc).1 hid
      · exact some.inj hwork ▸ (h.findGap hpc).2
  | loadData minMax fromId gaps =>
    rw [System.work, hpc] at hwork
    simp only at hwork
    split at hwork
    · rename_i hlast
      exact some.inj hwork ▸ (h.loadData hpc).1 hlast
    · rename_i last hlast
      exact some.inj hwork ▸ (h.loadData hpc).2 last hlast
  | check =>
    rw [hpc] at hfits
    obtain ⟨old, hloader⟩ := hfits
    rw [System.work, hpc] at hwork
    simp only at hwork
    cases hminMax : s.db.getMinmaxEventId with
    | none =>
      rw [hminMax] at hwork
      cases hwork
      exact h.stay .idle (by rw [hpc]; rfl) ⟨old, hloader⟩
    | some minMax =>
      simp only [hminMax, hloader] at hwork
      split_ifs at hwork with hsame
      · rw [← hloader] at hwork
        cases hwork
        exact h.stay .idle (by rw [hpc]; rfl) ⟨old, hloader⟩
      · exact some.inj hwork ▸ h.checkForUpdates hpc hloader hminMax
  | page minId maxId fromId gapsFromBelow after =>
    rw [System.work, hpc] at hwork
    exact some.inj hwork ▸ h.page hpc rfl
  | applying rows next =>
    cases rows with
    | nil =>
      rw [System.work, hpc] at hwork
      exact some.inj hwork ▸ h.applied hpc
    | cons row rows =>
      rw [System.work, hpc] at hwork
      exact some.inj hwork ▸ h.apply hpc (hignored row rows next hpc)
  | fixGaps gaps retries minMax after =>
    rw [hpc] at hfits
    obtain ⟨hphase, hpairwise⟩ := hfits
    cases gaps with
    | nil =>
      rw [System.work, hpc] at hwork
      exact some.inj hwork ▸ h.finish hpc
    | cons id gaps =>
      cases retries with
      | zero =>
        -- the check is made again with the state it started with
        rw [System.work, hpc] at hwork
        cases hloader : s.loader with
        | undefined => exact absurd hloader (hload id gaps minMax after hpc)
        | reset =>
          rw [hloader] at hphase
          exact hphase.elim
        | synced old =>
          refine some.inj hwork ▸ h.restart hloader (s.self + 1) .starting rfl ?_
          exact ⟨by rw [hloader]; simp, fun hundefined => by simp [hloader] at hundefined⟩
      | succ retries =>
        rw [System.work, hpc] at hwork
        cases hwork
        refine h.stay (.dummies (id :: gaps) (id :: gaps) retries minMax after)
          (by rw [hpc]; rfl) ⟨hphase, hpairwise, fun id' hid' => ?_⟩
        rw [hpc] at htaken
        exact htaken.missing_lt id' hid'
  | dummies unfilled gaps retries minMax after =>
    rw [System.work, hpc] at hwork
    cases unfilled with
    | nil =>
      cases hwork
      rw [hpc] at hfits
      refine h.stay (.reading gaps [] gaps retries minMax after) ?_
        ⟨hfits.1, hfits.2.1, List.Sublist.refl _⟩
      rw [hpc]
      rfl
    | cons id unfilled => exact some.inj hwork ▸ h.dummy hpc dummyOk
  | reading unread rows gaps retries minMax after =>
    rw [System.work, hpc] at hwork
    cases unread with
    | nil => exact some.inj hwork ▸ h.readAll hpc
    | cons id unread => exact some.inj hwork ▸ h.read hpc

/-! ### Runs -/

/-- The step ignores no row of a domain that the table has, and does not give up the initial load
with gaps that are left after the last try. -/
def Keeps (s : System D H) : Event D H → Prop
  | .work _ =>
    match s.pc with
    | .applying (row :: _) _ => ¬ Ignored s.core row
    | .fixGaps (_ :: _) 0 _ _ => s.loader ≠ .undefined
    | _ => True
  | _ => True

instance (s : System D H) (event : Event D H) : Decidable (s.Keeps event) := by
  unfold Keeps
  split
  · split <;> infer_instance
  · infer_instance

omit [DecidableEq H] in
/-- At first there is no dynamic domain. -/
theorem dynamicHostType_init (pairs : List (D × H)) (hostTypes : List H) (domain : D) :
    dynamicHostType (DomainCore.init pairs hostTypes) domain = none := by
  rw [dynamicHostType]
  split
  · rename_i hostType source hlookup
    cases DomainCore.init_config hlookup
  · rfl

/-- The initial state is sound. -/
theorem sound_init (pairs : List (D × H)) (hostTypes : List H) :
    (init pairs hostTypes : System D H).Sound := by
  have hempty := dynamicHostType_init pairs hostTypes
  refine ⟨Database.wellFormed_empty, rfl, ⟨?_, fun _ => hempty⟩, ⟨?_, ?_, ?_, ?_⟩, ?_⟩
  · simp [init]
  · rintro id ⟨range, hrange, -⟩
    cases hrange
  · exact fun id hid => by cases hid
  · exact fun range hrange => by cases hrange
  · exact covered_of_empty Database.wellFormed_empty hempty none []
  · exact fun minMax hsynced => by cases hsynced

/-- **A step that ignores no row is sound.** -/
theorem Sound.step (h : s.Sound) {event : Event D H} (hkeeps : s.Keeps event)
    (hstep : s.step event = some s') : s'.Sound := by
  cases event with
  | insertEvent domain settings =>
    exact some.inj hstep ▸ h.changed (changed_insertEvent h.db domain settings)
  | commit eventId =>
    obtain ⟨tx, hfind, rfl⟩ := map_eq_some_iff.1 hstep
    exact h.changed (changed_commit h.db (mem_of_find?_eq_some hfind))
  | abort eventId =>
    exact some.inj hstep ▸ h.changed (changed_endTransaction h.db eventId)
  | insertDummyEvent eventId =>
    rw [System.step] at hstep
    split_ifs at hstep with hlt
    exact some.inj hstep ▸ h.changed (changed_insertDummyEvent h.db hlt)
  | checkForUpdates =>
    have hfits := h.fits
    cases hpc : s.pc <;> simp only [System.step, hpc, reduceCtorEq, some_inj] at hstep
    rw [hpc] at hfits
    exact hstep ▸ h.stay .check (by rw [hpc]; rfl) hfits
  | work dummyOk =>
    refine h.work (fun row rows next hpc => ?_) (fun id gaps minMax after hpc => ?_) hstep
    · rw [Keeps, hpc] at hkeeps
      exact hkeeps
    · rw [Keeps, hpc] at hkeeps
      exact hkeeps

/-- When the check has nothing to do, every domain is right. -/
theorem Sound.inStep (h : s.Sound) {report : Report}
    (hreports : s.reports = some report) : s.InStep := by
  have hsettled : ∀ domain, Settled s.db s.core [] domain := by
    intro domain
    have htaken := h.taken
    have hfits := h.fits
    rw [reports] at hreports
    split at hreports
    · rename_i hpc hminMax
      rw [hpc] at htaken hfits
      obtain ⟨minMax, hloader⟩ := hfits
      rw [hloader] at htaken
      rcases htaken.covered domain with hsettled | ⟨id, hlookup, -⟩ | ⟨fromId, hbase, -⟩
      · exact hsettled
      · -- there are no events
        refine absurd (AList.lookup_isSome.1 ?_) (Database.notMem_of_getMinmaxEventId hminMax id)
        rw [hlookup]
        rfl
      · cases hbase
    · rename_i minMax hpc hminMax
      split_ifs at hreports with hloader
      rw [hpc, hloader] at htaken
      rcases htaken.covered domain with hsettled | ⟨id, hlookup, hout⟩ | ⟨fromId, hbase, -⟩
      · exact hsettled
      · -- all events are in the range
        have hmem : id ∈ s.db.events := AList.lookup_isSome.1 (by rw [hlookup]; rfl)
        exact absurd ⟨minMax, rfl, (Database.getMinmaxEventId_eq_some hminMax).2.2 id hmem⟩
          (hout.resolve_right (by simp [Pc.view, LoaderState.view]))
      · cases hbase
    · cases hreports
  intro domain hostType
  have heq : dynamicHostType s.core domain =
      wantedOf s.core domain (s.db.enabledHostType domain) := hsettled domain
  rw [heq, wantedOf, filter_eq_some_iff, decide_eq_true_iff]

/-- **The table converges to the database**: when the check reports nothing new, the dynamic domains
are the enabled rows of an allowed host type, unless a row for a domain of the table was ignored or
the initial load given up. -/
theorem in_step_when_reported (pairs : List (D × H)) (hostTypes : List H)
    (events : List (Event D H)) (s : System D H) (report : Report)
    (hrun : Transition.run step (init pairs hostTypes) events = some s)
    (hkeeps : Transition.Guarded step Keeps (init pairs hostTypes) events)
    (hreports : s.reports = some report) : s.InStep :=
  (Transition.run_invariant (fun _ _ _ h hkeeps hstep => h.step hkeeps hstep)
    (sound_init pairs hostTypes) hkeeps hrun).inStep hreports

/-- The second event commits first; the node starts before the first one commits. -/
def lateCommit : List (Event String String) :=
  [.insertEvent "a.example" (some ("first", .enabled)),
    .insertEvent "b.example" (some ("first", .enabled)), .commit 2] ++
  List.replicate 9 (.work true) ++ [.commit 1, .checkForUpdates] ++
  List.replicate 12 (.work true) ++ [.checkForUpdates]

theorem in_step_when_reported_lateCommit :
    ∃ s : System String String, Transition.run step (init [] ["first"]) lateCommit = some s ∧
    dynamicHostType s.core "a.example" = some "first" := by
  obtain ⟨s, hrun⟩ := isSome_iff_exists.1
    (show (Transition.run step (init [] ["first"]) lateCommit).isSome by decide +kernel)
  have hreports : (Transition.run step (init [] ["first"]) lateCommit).bind reports =
      some .noNewUpdates := by decide +kernel
  have henabled : (Transition.run step (init [] ["first"]) lateCommit).map
      (fun s => (s.db.enabledHostType "a.example", s.core.hostTypes, s.core.isStatic "a.example")) =
      some (some "first", ["first"], false) := by decide +kernel
  rw [hrun, bind_some] at hreports
  rw [hrun, map_some, some_inj, Prod.mk.injEq, Prod.mk.injEq] at henabled
  obtain ⟨henabled, hallowed, hstatic⟩ := henabled
  refine ⟨s, hrun, (in_step_when_reported [] ["first"] lateCommit s .noNewUpdates hrun
    (by decide +kernel) hreports "a.example" "first").2 ⟨henabled, ?_, hstatic⟩⟩
  rw [hallowed]
  exact mem_singleton_self _

/-- A domain is deleted and inserted again with a host type that the node does not allow. -/
def movedAway : List (Event String String) :=
  [.insertEvent "a.example" (some ("first", .enabled)), .commit 1] ++
  List.replicate 9 (.work true) ++
  [.insertEvent "a.example" none, .commit 2,
    .insertEvent "a.example" (some ("second", .enabled)), .commit 3, .checkForUpdates] ++
  List.replicate 6 (.work true) ++ [.checkForUpdates]

/-- **The old host type stays.** There is nothing new, and the table still has the domain with the
host type that it had before. -/
theorem moved_domain_keeps_host_type :
    ∃ s : System String String, Transition.run step (init [] ["first"]) movedAway = some s ∧
    s.reports = some .noNewUpdates ∧ dynamicHostType s.core "a.example" = some "first" ∧
    s.db.enabledHostType "a.example" = some "second" ∧ ¬ s.InStep := by
  obtain ⟨s, hrun⟩ := isSome_iff_exists.1
    (show (Transition.run step (init [] ["first"]) movedAway).isSome by decide +kernel)
  have hend : (Transition.run step (init [] ["first"]) movedAway).map (fun s =>
      (s.reports, dynamicHostType s.core "a.example", s.db.enabledHostType "a.example")) =
      some (some .noNewUpdates, some "first", some "second") := by decide +kernel
  rw [hrun, map_some, some_inj, Prod.mk.injEq, Prod.mk.injEq] at hend
  obtain ⟨hreports, htable, henabled⟩ := hend
  refine ⟨s, hrun, hreports, htable, henabled, fun hinStep => ?_⟩
  have hsame := ((hinStep "a.example" "first").1 htable).1
  rw [henabled] at hsame
  exact absurd hsame (by decide)

end System

end MongooseIM.Domain.Loader
