import MongooseIM.Erlang.Maps
import MongooseIM.Relational.Keyset

/-! # The tables `domain_settings` and `domain_events`

`mongoose_domain_sql` changes a row of `domain_settings` and inserts a row of `domain_events` in one
transaction. The ids of the rows are allocated when the statements run, and are seen by others only
when the transaction commits: late, in another order, or never. -/

namespace MongooseIM.Domain

open Erlang Keyset List

/-- `domain_settings.status` -/
inductive Status
  | disabled
  | enabled
  | deleting
  deriving DecidableEq

/-- A row of `domain_settings`, but for its domain. -/
structure Settings (H : Type*) where
  id : Nat
  hostType : H
  status : Status

/-- A transaction that has inserted its event and not committed yet. -/
structure Transaction (D H : Type*) where
  eventId : Nat
  /-- The id of the row of `domain_settings`, if there was none. -/
  settingsId : Nat
  domain : D
  /-- What it leaves in `domain_settings` for the domain. -/
  settings : Option (H × Status)

/-- The database. -/
structure Database (D H : Type*) where
  settings : AList fun _ : D => Settings H
  /-- `domain_events` by id; the dummy domain is `none`. -/
  events : AList fun _ : Nat => Option D
  nextEventId : Nat
  nextSettingsId : Nat
  transactions : List (Transaction D H)

/-- A row of the result of a query. -/
structure Row (D H : Type*) where
  id : Nat
  /-- `none` for the dummy domain `<<>>`. -/
  domain : Option D
  /-- `none` for `null`. -/
  hostType : Option H

namespace Database

variable {D H : Type*} [DecidableEq D]

/-- Without rows; both sequences start with 1. -/
def empty : Database D H := ⟨∅, ∅, 1, 1, []⟩

variable (db : Database D H)

/-- The host type of the enabled row for a domain. -/
def enabledHostType (domain : D) : Option H :=
  match db.settings.lookup domain with
  | some ⟨_, hostType, .enabled⟩ => some hostType
  | _ => none

/-- A transaction inserts its event, which gets the next id. -/
def insertEvent (domain : D) (settings : Option (H × Status)) (db : Database D H) :
    Database D H := { db with
  nextEventId := db.nextEventId + 1
  nextSettingsId := db.nextSettingsId + 1
  transactions := ⟨db.nextEventId, db.nextSettingsId, domain, settings⟩ :: db.transactions }

variable (tx : Transaction D H)

/-- The row of `domain_settings` that a transaction leaves; a row that is updated keeps its id. -/
def writeSettings (settings : AList fun _ : D => Settings H) : AList fun _ : D => Settings H :=
  match tx.settings with
  | none => settings.erase tx.domain
  | some (hostType, status) =>
    settings.insert tx.domain
      ⟨((settings.lookup tx.domain).map Settings.id).getD tx.settingsId, hostType, status⟩

/-- The transaction with this event is over. -/
def endTransaction (eventId : Nat) (db : Database D H) : Database D H :=
  { db with transactions := db.transactions.filter fun tx => tx.eventId ≠ eventId }

/-- A transaction commits. -/
def commit (db : Database D H) : Database D H :=
  endTransaction tx.eventId { db with
    settings := writeSettings tx db.settings
    events := db.events.insert tx.eventId (some tx.domain) }

/-- `insert_dummy_events/1` for one id. A transaction that has the id is aborted; otherwise the
insertion would have waited for its end. -/
def insertDummyEvent (eventId : Nat) (db : Database D H) : Database D H :=
  match db.events.lookup eventId with
  | some _ => db
  | none => endTransaction eventId { db with events := db.events.insert eventId none }

/-- The row of the query of events: the settings are joined when it runs. -/
def eventRow (eventId : Nat) (domain : Option D) : Row D H :=
  ⟨eventId, domain, domain.bind db.enabledHostType⟩

/-- `select_updates_between/2` -/
def selectUpdatesBetween (fromId toId : Nat) : List (Row D H) :=
  ascending Row.id ((db.events.entries.filter fun event =>
    fromId ≤ event.1 ∧ event.1 ≤ toId).map fun event => db.eventRow event.1 event.2)

/-- The row of `select_from/2` for a row of `domain_settings`, if it is enabled and above. -/
def settingsRow (fromId : Nat) (entry : (_ : D) × Settings H) : Option (Row D H) :=
  if fromId < entry.2.id ∧ entry.2.status = .enabled then
    some ⟨entry.2.id, some entry.1, some entry.2.hostType⟩
  else none

/-- `select_from/2` -/
def selectFrom (fromId limit : Nat) : List (Row D H) :=
  (ascending Row.id (db.settings.entries.filterMap (settingsRow fromId))).take limit

/-- `get_minmax_event_id/0` -/
def getMinmaxEventId : Option (Nat × Nat) :=
  match db.events.keys.min?, db.events.keys.max? with
  | some minId, some maxId => some (minId, maxId)
  | _, _ => none

/-- The ids below the sequences: an open transaction has ids of its own, and two domains have two
rows. -/
structure WellFormed (db : Database D H) : Prop where
  eventId_lt : ∀ eventId ∈ db.events, eventId < db.nextEventId
  open_eventId : ∀ tx ∈ db.transactions, tx.eventId < db.nextEventId ∧ tx.eventId ∉ db.events
  open_settingsId : ∀ tx ∈ db.transactions, 0 < tx.settingsId ∧
    tx.settingsId < db.nextSettingsId ∧
    ∀ domain settings, db.settings.lookup domain = some settings → settings.id ≠ tx.settingsId
  open_eventId_nodup : (db.transactions.map Transaction.eventId).Nodup
  open_settingsId_nodup : (db.transactions.map Transaction.settingsId).Nodup
  settingsId_bounds : ∀ domain settings, db.settings.lookup domain = some settings →
    0 < settings.id ∧ settings.id < db.nextSettingsId
  settingsId_inj : ∀ domain domain' settings settings',
    db.settings.lookup domain = some settings → db.settings.lookup domain' = some settings' →
      settings.id = settings'.id → domain = domain'
  next_pos : 0 < db.nextSettingsId

variable {db : Database D H} {eventId : Nat} {tx : Transaction D H}

omit [DecidableEq D] in
theorem mem_transactions_endTransaction :
    tx ∈ (db.endTransaction eventId).transactions ↔ tx ∈ db.transactions ∧ tx.eventId ≠ eventId := by
  simp [endTransaction]

theorem wellFormed_empty : (empty : Database D H).WellFormed := by
  constructor <;> simp [empty]

section

variable (h : db.WellFormed)

include h

theorem WellFormed.insertEvent (domain : D)
    (settings : Option (H × Status)) : (db.insertEvent domain settings).WellFormed := by
  constructor
  · intro eventId hmem
    exact (h.eventId_lt eventId hmem).trans (Nat.lt_succ_self _)
  · intro tx htx
    rcases mem_cons.1 htx with rfl | htx
    · exact ⟨Nat.lt_succ_self _, fun hmem => (h.eventId_lt _ hmem).false⟩
    · obtain ⟨hlt, hnew⟩ := h.open_eventId tx htx
      exact ⟨hlt.trans (Nat.lt_succ_self _), hnew⟩
  · intro tx htx
    rcases mem_cons.1 htx with rfl | htx
    · refine ⟨h.next_pos, Nat.lt_succ_self _, fun domain' settings' hlookup => ?_⟩
      exact (h.settingsId_bounds domain' settings' hlookup).2.ne
    · obtain ⟨hpos, hlt, hnew⟩ := h.open_settingsId tx htx
      exact ⟨hpos, hlt.trans (Nat.lt_succ_self _), hnew⟩
  · refine nodup_cons.2 ⟨fun hmem => ?_, h.open_eventId_nodup⟩
    obtain ⟨tx, htx, heq⟩ := mem_map.1 hmem
    exact (h.open_eventId tx htx).1.ne heq
  · refine nodup_cons.2 ⟨fun hmem => ?_, h.open_settingsId_nodup⟩
    obtain ⟨tx, htx, heq⟩ := mem_map.1 hmem
    exact (h.open_settingsId tx htx).2.1.ne heq
  · intro domain' settings' hlookup
    obtain ⟨hpos, hlt⟩ := h.settingsId_bounds domain' settings' hlookup
    exact ⟨hpos, hlt.trans (Nat.lt_succ_self _)⟩
  · exact h.settingsId_inj
  · exact Nat.succ_pos _

theorem WellFormed.endTransaction (eventId : Nat) : (db.endTransaction eventId).WellFormed := by
  have hsub : (db.endTransaction eventId).transactions.Sublist db.transactions := filter_sublist
  exact ⟨h.eventId_lt, fun tx htx => h.open_eventId tx (hsub.subset htx),
    fun tx htx => h.open_settingsId tx (hsub.subset htx),
    (hsub.map _).nodup h.open_eventId_nodup, (hsub.map _).nodup h.open_settingsId_nodup,
    h.settingsId_bounds, h.settingsId_inj, h.next_pos⟩

/-- An event is inserted and the transaction with its id ends. -/
theorem WellFormed.insert (hlt : eventId < db.nextEventId) (domain : Option D) :
    (Database.endTransaction eventId
    { db with events := db.events.insert eventId domain }).WellFormed := by
  have hend := h.endTransaction eventId
  refine ⟨?_, ?_, hend.open_settingsId, hend.open_eventId_nodup, hend.open_settingsId_nodup,
    h.settingsId_bounds, h.settingsId_inj, h.next_pos⟩
  · intro eventId' hmem
    rcases (AList.mem_insert _).1 hmem with rfl | hmem
    · exact hlt
    · exact h.eventId_lt eventId' hmem
  · intro tx htx
    obtain ⟨htx, hne⟩ := mem_transactions_endTransaction.1 htx
    obtain ⟨hlt', hnew⟩ := h.open_eventId tx htx
    refine ⟨hlt', fun hmem => ?_⟩
    rcases (AList.mem_insert _).1 hmem with heq | hmem
    · exact hne heq
    · exact hnew hmem

theorem WellFormed.insertDummyEvent
    (hlt : eventId < db.nextEventId) : (db.insertDummyEvent eventId).WellFormed := by
  rw [Database.insertDummyEvent]
  split
  · exact h
  · exact h.insert hlt none

end

/-- What a transaction leaves in `domain_settings`, by cases on the domain. -/
theorem lookup_writeSettings (settings : AList fun _ : D => Settings H) (domain : D) :
    (writeSettings tx settings).lookup domain = if domain = tx.domain then
    tx.settings.map fun row =>
      ⟨((settings.lookup tx.domain).map Settings.id).getD tx.settingsId, row.1, row.2⟩
    else settings.lookup domain := by
  rw [writeSettings]
  split
  · rename_i hnone
    rw [lookup_erase, hnone]
    rfl
  · rename_i hostType status hsome
    rw [lookup_insert, hsome]
    rfl

theorem WellFormed.commit (h : db.WellFormed)
    (htx : tx ∈ db.transactions) : (db.commit tx).WellFormed := by
  obtain ⟨hlt, -⟩ := h.open_eventId tx htx
  obtain ⟨hpos, hltId, hnewId⟩ := h.open_settingsId tx htx
  have hinsert := h.insert hlt (some tx.domain)
  -- the row of the transaction has the id of the old row or that of the transaction
  have hid : ∀ settings, (writeSettings tx db.settings).lookup tx.domain = some settings →
      (∃ old, db.settings.lookup tx.domain = some old ∧ settings.id = old.id) ∨
        settings.id = tx.settingsId := by
    intro settings hlookup
    rw [lookup_writeSettings, if_pos rfl, Option.map_eq_some_iff] at hlookup
    obtain ⟨row, -, rfl⟩ := hlookup
    cases hold : db.settings.lookup tx.domain with
    | none => exact .inr rfl
    | some old => exact .inl ⟨old, rfl, rfl⟩
  have hother : ∀ domain settings, (writeSettings tx db.settings).lookup domain = some settings →
      domain ≠ tx.domain → db.settings.lookup domain = some settings := by
    intro domain settings hlookup hne
    rwa [lookup_writeSettings, if_neg hne] at hlookup
  have hcross : ∀ domain settings settings', domain ≠ tx.domain →
      (writeSettings tx db.settings).lookup domain = some settings →
        (writeSettings tx db.settings).lookup tx.domain = some settings' →
          settings.id ≠ settings'.id := by
    intro domain settings settings' hne hlookup hlookup' heq
    have hlookup := hother domain settings hlookup hne
    rcases hid settings' hlookup' with ⟨old, hold, hold'⟩ | hnew
    · exact hne (h.settingsId_inj _ _ _ _ hlookup hold (heq.trans hold'))
    · exact hnewId domain settings hlookup (heq.trans hnew)
  refine { hinsert with
      open_settingsId := ?_
      settingsId_bounds := ?_
      settingsId_inj := ?_
      next_pos := h.next_pos }
  · intro tx' htx'
    obtain ⟨hmem, hne⟩ := mem_transactions_endTransaction.1 htx'
    obtain ⟨hpos', hltId', hnewId'⟩ := h.open_settingsId tx' hmem
    refine ⟨hpos', hltId', fun domain settings hlookup heq => ?_⟩
    by_cases hsame : domain = tx.domain
    · subst hsame
      rcases hid settings hlookup with ⟨old, hold, hold'⟩ | hnew
      · exact hnewId' _ old hold (hold'.symm.trans heq)
      · have htxs := inj_on_of_nodup_map h.open_settingsId_nodup hmem htx (heq.symm.trans hnew)
        exact hne (congrArg Transaction.eventId htxs)
    · exact hnewId' domain settings (hother domain settings hlookup hsame) heq
  · intro domain settings hlookup
    by_cases hsame : domain = tx.domain
    · subst hsame
      rcases hid settings hlookup with ⟨old, hold, hold'⟩ | hnew
      · rw [hold']
        exact h.settingsId_bounds _ old hold
      · rw [hnew]
        exact ⟨hpos, hltId⟩
    · exact h.settingsId_bounds domain settings (hother domain settings hlookup hsame)
  · intro domain domain' settings settings' hlookup hlookup' heq
    by_cases hsame : domain = tx.domain
    · by_cases hsame' : domain' = tx.domain
      · rw [hsame, hsame']
      · subst hsame
        exact absurd heq.symm (hcross domain' settings' settings hsame' hlookup' hlookup)
    · by_cases hsame' : domain' = tx.domain
      · subst hsame'
        exact absurd heq (hcross domain settings settings' hsame hlookup hlookup')
      · exact h.settingsId_inj _ _ _ _ (hother domain settings hlookup hsame)
          (hother domain' settings' hlookup' hsame') heq

omit [DecidableEq D] in
theorem getMinmaxEventId_eq_some {minId maxId : Nat}
    (h : db.getMinmaxEventId = some (minId, maxId)) :
    minId ∈ db.events ∧ maxId ∈ db.events ∧ ∀ eventId ∈ db.events, minId ≤ eventId ∧
    eventId ≤ maxId := by
  rw [getMinmaxEventId] at h
  split at h
  · rename_i minId' maxId' hmin hmax
    cases h
    obtain ⟨hminMem, hminLe⟩ := min?_eq_some_iff.1 hmin
    obtain ⟨hmaxMem, hmaxLe⟩ := max?_eq_some_iff.1 hmax
    exact ⟨hminMem, hmaxMem, fun eventId hmem => ⟨hminLe eventId hmem, hmaxLe eventId hmem⟩⟩
  · cases h

omit [DecidableEq D] in
theorem notMem_of_getMinmaxEventId (h : db.getMinmaxEventId = none)
    (eventId : Nat) : eventId ∉ db.events := by
  rw [getMinmaxEventId] at h
  intro hmem
  have hne : db.events.keys ≠ [] := ne_nil_of_mem hmem
  cases hmin : db.events.keys.min? with
  | none => exact hne (min?_eq_none_iff.1 hmin)
  | some minId =>
    cases hmax : db.events.keys.max? with
    | none => exact hne (max?_eq_none_iff.1 hmax)
    | some maxId => simp [hmin, hmax] at h

variable {fromId : Nat} {toId : Nat} {row : Row D H}

theorem mem_selectUpdatesBetween : row ∈ db.selectUpdatesBetween fromId toId ↔ ∃ eventId domain,
    db.events.lookup eventId = some domain ∧ fromId ≤ eventId ∧ eventId ≤ toId ∧
      row = db.eventRow eventId domain := by
  rw [selectUpdatesBetween, (ascending_perm _ _).mem_iff, mem_map]
  constructor
  · rintro ⟨⟨eventId, domain⟩, hmem, rfl⟩
    obtain ⟨hmem, hrange⟩ := mem_filter.1 hmem
    obtain ⟨hfrom, hto⟩ := of_decide_eq_true hrange
    exact ⟨eventId, domain, AList.mem_lookup_iff.2 hmem, hfrom, hto, rfl⟩
  · rintro ⟨eventId, domain, hlookup, hfrom, hto, rfl⟩
    refine ⟨⟨eventId, domain⟩, mem_filter.2 ⟨AList.mem_lookup_iff.1 hlookup, ?_⟩, rfl⟩
    exact decide_eq_true ⟨hfrom, hto⟩

theorem selectUpdatesBetween_eq_nil (h : toId < fromId) :
    db.selectUpdatesBetween fromId toId = [] := by
  refine eq_nil_iff_forall_not_mem.2 fun row hrow => ?_
  obtain ⟨eventId, domain, -, hfrom, hto, -⟩ := mem_selectUpdatesBetween.1 hrow
  omega

theorem increasing_selectUpdatesBetween (db : Database D H) (fromId toId : Nat) :
    Increasing Row.id (db.selectUpdatesBetween fromId toId) := by
  refine increasing_ascending ?_
  rw [map_map]
  exact (filter_sublist.map Sigma.fst).nodup db.events.nodupKeys

theorem selectUpdatesBetween_self (eventId : Nat) : db.selectUpdatesBetween eventId eventId =
    (db.events.lookup eventId).toList.map (db.eventRow eventId) := by
  have hincreasing := increasing_selectUpdatesBetween db eventId eventId
  have hone : Increasing Row.id ((db.events.lookup eventId).toList.map (db.eventRow eventId)) := by
    cases db.events.lookup eventId with
    | none => exact List.Pairwise.nil
    | some domain => exact pairwise_singleton _ _
  refine hincreasing.eq_of_perm hone ((perm_ext_iff_of_nodup ?_ ?_).2 fun row => ?_)
  · exact (nodup_keys_of_pairwise hincreasing).of_map
  · exact (nodup_keys_of_pairwise hone).of_map
  · rw [mem_selectUpdatesBetween, mem_map]
    constructor
    · rintro ⟨eventId', domain, hlookup, hfrom, hto, rfl⟩
      obtain rfl := le_antisymm hto hfrom
      exact ⟨domain, by rw [hlookup]; exact mem_singleton_self _, rfl⟩
    · rintro ⟨domain, hmem, rfl⟩
      exact ⟨eventId, domain, Option.mem_toList.1 hmem, le_rfl, le_rfl, rfl⟩

omit [DecidableEq D] in
theorem settingsRow_eq_some {entry : (_ : D) × Settings H} :
    settingsRow fromId entry = some row ↔ fromId < entry.2.id ∧ entry.2.status = .enabled ∧
    row = ⟨entry.2.id, some entry.1, some entry.2.hostType⟩ := by
  simp [settingsRow, and_assoc, eq_comm]

variable {limit : Nat}

/-- The rows of a page of settings are enabled and above. -/
theorem of_mem_selectFrom (h : row ∈ db.selectFrom fromId limit) : ∃ domain settings,
    db.settings.lookup domain = some settings ∧ fromId < settings.id ∧
      settings.status = .enabled ∧ row = ⟨settings.id, some domain, some settings.hostType⟩ := by
  have hmem := (ascending_perm _ _).mem_iff.1 (mem_of_mem_take h)
  obtain ⟨⟨domain, settings⟩, hentry, hrow⟩ := mem_filterMap.1 hmem
  obtain ⟨hfrom, henabled, rfl⟩ := settingsRow_eq_some.1 hrow
  exact ⟨domain, settings, AList.mem_lookup_iff.2 hentry, hfrom, henabled, rfl⟩

theorem nodup_settingsRow (h : db.WellFormed) (fromId : Nat) :
    ((db.settings.entries.filterMap (settingsRow fromId)).map Row.id).Nodup := by
  refine List.Nodup.map_on ?_ (List.Nodup.filterMap ?_ ?_)
  · intro row hrow row' hrow' heq
    obtain ⟨⟨domain, settings⟩, hentry, hsome⟩ := mem_filterMap.1 hrow
    obtain ⟨⟨domain', settings'⟩, hentry', hsome'⟩ := mem_filterMap.1 hrow'
    obtain ⟨-, -, rfl⟩ := settingsRow_eq_some.1 hsome
    obtain ⟨-, -, rfl⟩ := settingsRow_eq_some.1 hsome'
    have hlookup := AList.mem_lookup_iff.2 hentry
    have hlookup' := AList.mem_lookup_iff.2 hentry'
    obtain rfl := h.settingsId_inj _ _ _ _ hlookup hlookup' heq
    cases (hlookup.symm.trans hlookup')
    rfl
  · rintro ⟨domain, id, hostType, status⟩ ⟨domain', id', hostType', status'⟩ row hrow hrow'
    obtain ⟨-, henabled, hrow⟩ := settingsRow_eq_some.1 hrow
    obtain ⟨-, henabled', hrow'⟩ := settingsRow_eq_some.1 hrow'
    simp only at henabled henabled'
    simp only [hrow, Row.mk.injEq, Option.some_inj] at hrow'
    obtain ⟨rfl, rfl, rfl⟩ := hrow'
    rw [henabled, henabled']
  · exact db.settings.nodupKeys.nodup

variable {domain : D} {settings : Settings H}

/-- **Pages of settings leave nothing out**: an enabled row above is in the page or above its last
row. -/
theorem selectFrom_covers (h : db.WellFormed) (limit : Nat)
    (hlookup : db.settings.lookup domain = some settings)
    (hfrom : fromId < settings.id) (henabled : settings.status = .enabled) :
    ⟨settings.id, some domain, some settings.hostType⟩ ∈ db.selectFrom fromId limit ∨
    ∀ row ∈ db.selectFrom fromId limit, row.id < settings.id := by
  have hincreasing := increasing_ascending (nodup_settingsRow h fromId)
  have hmem : (⟨settings.id, some domain, some settings.hostType⟩ : Row D H) ∈
      ascending Row.id (db.settings.entries.filterMap (settingsRow fromId)) := by
    refine (ascending_perm _ _).mem_iff.2 (mem_filterMap.2 ⟨⟨domain, settings⟩, ?_, ?_⟩)
    · exact AList.mem_lookup_iff.1 hlookup
    · exact settingsRow_eq_some.2 ⟨hfrom, henabled, rfl⟩
  rw [← take_append_drop limit (ascending Row.id _)] at hmem hincreasing
  rcases mem_append.1 hmem with hpage | hrest
  · exact .inl hpage
  · exact .inr fun row hrow => (pairwise_append.1 hincreasing).2.2 row hrow _ hrest

/-- **The last page is empty**: no enabled row is above. -/
theorem le_of_selectFrom_eq_nil (hlimit : limit ≠ 0) (h : db.selectFrom fromId limit = [])
    (hlookup : db.settings.lookup domain = some settings) (henabled : settings.status = .enabled) :
    settings.id ≤ fromId := by
  by_contra hlt
  rw [selectFrom, take_eq_nil_iff, or_iff_right hlimit] at h
  have hmem : (⟨settings.id, some domain, some settings.hostType⟩ : Row D H) ∈
      db.settings.entries.filterMap (settingsRow fromId) :=
    mem_filterMap.2 ⟨⟨domain, settings⟩, AList.mem_lookup_iff.1 hlookup,
      settingsRow_eq_some.2 ⟨not_le.1 hlt, henabled, rfl⟩⟩
  rw [← (ascending_perm Row.id _).mem_iff, h] at hmem
  cases hmem

end Database

end MongooseIM.Domain
