import MongooseIM.Relational.Columns
import MongooseIM.Relational.Greatest

/-! # Smart markers

A row of the table is the newest marker of a user towards a recipient, in a thread, of a type. The
synchronous backend writes every marker; the asynchronous one gives it to an aggregating worker,
which keeps the last of the markers that wait for a request under one key. A statement with values
that the columns cannot hold fails, which both only log. -/

namespace MongooseIM.SmartMarkers

open Relational List

/-- Bare JIDs as the library prints them. -/
structure BareJids (J : Type*) where
  /-- `jid:to_bare_binary/1` -/
  toBareBinary : J → String
  injective : Function.Injective toBareBinary

/-- `mongoose_chat_markers:chat_marker_type()` -/
inductive MarkerType
  | received
  | displayed
  | acknowledged
  deriving DecidableEq

/-- `maybe_thread()`, as `get_thread/1` makes it: never the empty binary. -/
abbrev MaybeThread := Option { thread : String // thread ≠ "" }

/-- What tells the tasks of `mod_smart_markers_rdbms_async` apart. -/
structure Key (J : Type*) where
  /-- The user part of `from`. -/
  luser : String
  /-- The domain of `from`. -/
  lserver : String
  /-- `to` -/
  toJid : J
  thread : MaybeThread
  type : MarkerType
  deriving DecidableEq

/-- `mod_smart_markers:chat_marker()`; its keys are those of `Key`, of `from` nothing else is
used. -/
structure ChatMarker (J : Type*) where
  /-- `from`, `to`, `thread` and `type`. -/
  key : Key J
  timestamp : ℤ
  id : String
  deriving DecidableEq

/-- The key columns of the table. -/
structure KeyColumns where
  lserver : String
  luser : String
  toJid : String
  thread : String
  type : String
  deriving DecidableEq

/-- The other columns of the table. -/
structure Row where
  msgId : String
  timestamp : ℤ
  deriving DecidableEq

/-- The table `smart_markers`. -/
abbrev Table := KeyColumns → Option Row

variable {J : Type*}

/-- `encode_thread/1` -/
def encodeThread : MaybeThread → String
  | none => ""
  | some thread => thread

/-- `encode_type/1` -/
def encodeType : MarkerType → String
  | .received => "R"
  | .displayed => "D"
  | .acknowledged => "A"

variable (lib : BareJids J)

/-- `KeyValues` of `update_chat_marker/2` and `request/2`. -/
def keyValues (key : Key J) : KeyColumns where
  lserver := key.lserver
  luser := key.luser
  toJid := lib.toBareBinary key.toJid
  thread := encodeThread key.thread
  type := encodeType key.type

/-- `UpdateValues` of `update_chat_marker/2` and `request/2`. -/
def ChatMarker.updateValues (marker : ChatMarker J) : Row := ⟨marker.id, marker.timestamp⟩

/-- Values that the columns of `smart_markers` can hold. -/
def Fits (insertKey : KeyColumns) (updateValues : Row) : Prop :=
  (FitsColumns (insertKey.lserver, insertKey.luser) ∧
      FitsColumns (insertKey.toJid, insertKey.thread)) ∧
    Varchar 250 updateValues.msgId ∧ Int64 updateValues.timestamp

instance (insertKey : KeyColumns) (updateValues : Row) : Decidable (Fits insertKey updateValues) :=
  inferInstanceAs (Decidable (_ ∧ _))

/-- What `smart_markers_upsert` does: a row is added, or replaced if its time stamp is smaller;
`none` if the statement fails. -/
def upsert (insertKey : KeyColumns) (updateValues : Row) (table : Table) : Option Table :=
  if Fits insertKey updateValues then some (Function.update table insertKey
    (keepGreater Row.timestamp (table insertKey) updateValues)) else none

/-- `update_chat_marker/2` of `mod_smart_markers_rdbms`: `verify/2` only logs a failure. -/
def updateChatMarker (table : Table) (marker : ChatMarker J) : Table :=
  (upsert (keyValues lib marker.key) marker.updateValues table).getD table

/-- `aggregate/3` of `mod_smart_markers_rdbms_async`. -/
def aggregate (_ newTask : ChatMarker J) : ChatMarker J := newTask

/-- `request/2` of `mod_smart_markers_rdbms_async`, as the database executes it. -/
def request (table : Table) (marker : ChatMarker J) : Table :=
  (upsert (keyValues lib marker.key) marker.updateValues table).getD table

/-- A marker that can be stored. -/
def ChatMarker.Fits (marker : ChatMarker J) : Prop :=
  SmartMarkers.Fits (keyValues lib marker.key) marker.updateValues

instance (marker : ChatMarker J) : Decidable (marker.Fits lib) :=
  inferInstanceAs (Decidable (SmartMarkers.Fits _ _))

section Groups

variable [DecidableEq J]

/-- The markers with a key. -/
def ofKey (key : Key J) (markers : List (ChatMarker J)) : List (ChatMarker J) :=
  markers.filter fun marker => marker.key = key

/-- The task that the tasks of a group are aggregated to. -/
def aggregateAll : List (ChatMarker J) → Option (ChatMarker J)
  | [] => none
  | marker :: markers => some (markers.foldl aggregate marker)

/-- **Requests come from groups of tasks**: the tasks of a key are cut into groups, each is
aggregated, and the results are requested in this order. -/
structure Grouped (tasks requests : List (ChatMarker J))
    (groups : Key J → List (List (ChatMarker J))) : Prop where
  tasks_eq : ∀ key, ofKey key tasks = (groups key).flatten
  requests_eq : ∀ key, ofKey key requests = (groups key).filterMap aggregateAll

/-- **The requests leave what the tasks would**: under each key the row that was there or the first
of the newest tasks. -/
structure Agrees (lib : BareJids J) (table : Table) (tasks requests : List (ChatMarker J)) :
    Prop where
  same : requests.foldl (request lib) table = tasks.foldl (updateChatMarker lib) table
  newest : ∀ key, requests.foldl (request lib) table (keyValues lib key) =
    firstGreatest Row.timestamp
      ((table (keyValues lib key)).toList ++ (ofKey key tasks).map ChatMarker.updateValues)

/-- The tasks that end a group and can be stored. -/
def ends (groups : List (List (ChatMarker J))) : List (ChatMarker J) :=
  (groups.filterMap List.getLast?).filter (ChatMarker.Fits lib)

/-- **The newest task of a key is not lost in its group**: if it is newer than the row, then of the
groups that end in a task that fits and is as new, the first ends in one with its id. -/
def KeepsNewest (stored : Option Row) (groups : List (List (ChatMarker J))) : Prop :=
  ∀ marker ∈ firstGreatest ChatMarker.timestamp groups.flatten,
    (∀ row ∈ stored, row.timestamp < marker.timestamp) →
      ((ends lib groups).find? fun last => marker.timestamp ≤ last.timestamp).map ChatMarker.id =
        some marker.id

instance (stored : Option Row) (groups : List (List (ChatMarker J))) :
    Decidable (KeepsNewest lib stored groups) :=
  inferInstanceAs (Decidable (∀ marker ∈ firstGreatest ChatMarker.timestamp groups.flatten,
    (∀ row ∈ stored, row.timestamp < marker.timestamp) → _))

end Groups

variable (lib : BareJids J)

theorem keyValues_injective : Function.Injective (keyValues lib) := by
  rintro ⟨luser, lserver, toJid, thread, type⟩ ⟨luser', lserver', toJid', thread', type'⟩ h
  simp only [keyValues, KeyColumns.mk.injEq] at h
  obtain ⟨rfl, rfl, hto, hthread, htype⟩ := h
  obtain rfl := lib.injective hto
  have hthread : thread = thread' := by
    rcases thread with _ | ⟨thread, hne⟩ <;> rcases thread' with _ | ⟨thread', hne'⟩
    · rfl
    · exact absurd hthread.symm hne'
    · exact absurd hthread hne
    · obtain rfl : thread = thread' := hthread
      rfl
  have htype : type = type' := by
    cases type <;> cases type' <;> first | rfl | simp [encodeType] at htype
  rw [hthread, htype]

/-- **A row depends on the markers of its key that fit.** -/
theorem row_foldl [DecidableEq J] (key : Key J) (table : Table) (markers : List (ChatMarker J)) :
    markers.foldl (updateChatMarker lib) table (keyValues lib key) =
    (((ofKey key markers).filter (ChatMarker.Fits lib)).map ChatMarker.updateValues).foldl
      (keepGreater Row.timestamp) (table (keyValues lib key)) := by
  induction markers generalizing table with
  | nil => rfl
  | cons marker markers ih =>
    rw [foldl_cons, ih, updateChatMarker, upsert]
    by_cases hfits : Fits (keyValues lib marker.key) marker.updateValues
    · rw [if_pos hfits, Option.getD_some]
      by_cases hkey : marker.key = key
      · subst hkey
        have hkept : marker.Fits lib := hfits
        simp [ofKey, hkept]
      · have hne : keyValues lib key ≠ keyValues lib marker.key :=
          fun heq => hkey (keyValues_injective lib heq.symm)
        simp [ofKey, hkey, hne]
    · have hdropped : ¬ marker.Fits lib := hfits
      rw [if_neg hfits, Option.getD_none, ofKey, ofKey, filter_cons]
      split_ifs
      · rw [filter_cons_of_neg (by simpa using hdropped)]
      · rfl

/-- Markers are put into a row as the first of the newest is. -/
theorem foldl_updateValues (stored : Option Row) (markers : List (ChatMarker J)) :
    (markers.map ChatMarker.updateValues).foldl (keepGreater Row.timestamp) stored =
    (firstGreatest ChatMarker.timestamp markers).elim stored fun marker =>
      keepGreater Row.timestamp stored marker.updateValues := by
  rw [foldl_keepGreater, firstGreatest_map]
  show ((firstGreatest ChatMarker.timestamp markers).map ChatMarker.updateValues).elim _ _ = _
  rcases firstGreatest ChatMarker.timestamp markers with _ | marker
  · rfl
  · rfl

/-- The last of the tasks of a group is the one that is requested. -/
theorem aggregateAll_eq (markers : List (ChatMarker J)) :
    aggregateAll markers = markers.getLast? := by
  induction markers using reverseRecOn with
  | nil => rfl
  | append_singleton markers marker _ =>
    rw [getLast?_concat]
    rcases markers with _ | ⟨first, markers⟩
    · rfl
    · rw [cons_append, aggregateAll, foldl_concat, aggregate]

/-- What a list leaves in a row is the first of the newest, the row included. -/
theorem firstGreatest_stored (stored : Option Row) (values : List Row) :
    firstGreatest Row.timestamp (stored.toList ++ values) =
    values.foldl (keepGreater Row.timestamp) stored := by
  rw [firstGreatest, foldl_append]
  rcases stored with _ | row
  · rfl
  · rfl

/-- A row that no marker is written under stays. -/
theorem row_foldl_of_ne {columns : KeyColumns} (table : Table)
    {markers : List (ChatMarker J)} (h : ∀ marker ∈ markers, columns ≠ keyValues lib marker.key) :
    markers.foldl (updateChatMarker lib) table columns = table columns := by
  induction markers generalizing table with
  | nil => rfl
  | cons marker markers ih =>
    rw [forall_mem_cons] at h
    rw [foldl_cons, ih _ h.2, updateChatMarker, upsert]
    split_ifs
    · exact Function.update_of_ne h.1 _ _
    · rfl

/-- A task that ends a group is one of the tasks. -/
theorem mem_flatten_of_mem_ends {groups : List (List (ChatMarker J))} {last : ChatMarker J}
    (h : last ∈ groups.filterMap getLast?) : last ∈ groups.flatten := by
  obtain ⟨group, hgroup, hlast⟩ := mem_filterMap.1 h
  exact mem_flatten.2 ⟨group, hgroup, mem_of_getLast? hlast⟩

theorem mem_flatten_of_mem_ends_fits {groups : List (List (ChatMarker J))} {last : ChatMarker J}
    (h : last ∈ ends lib groups) : last ∈ groups.flatten :=
  mem_flatten_of_mem_ends (mem_of_mem_filter h)

/-- A row that is older than what comes is replaced. -/
theorem keepGreater_of_older {stored : Option Row} {values : Row}
    (h : ∀ row ∈ stored, row.timestamp < values.timestamp) :
    keepGreater Row.timestamp stored values = some values := by
  rcases stored with _ | row
  · rfl
  · rw [keepGreater_some, if_pos (h row rfl)]

/-- **The first task that ends a group and is as new as the newest one** is the first of the newest
that end a group. -/
theorem find?_ends {ends : List (ChatMarker J)} {marker : ChatMarker J} (last : ChatMarker J)
    (hle : ∀ other ∈ ends, other.timestamp ≤ marker.timestamp) :
    (ends.find? fun other => marker.timestamp ≤ other.timestamp) = some last ↔
    firstGreatest ChatMarker.timestamp ends = some last ∧ last.timestamp = marker.timestamp := by
  rw [find?_eq_some_iff_append, firstGreatest_eq_some_iff]
  constructor
  · rintro ⟨hlast, before, after, rfl, hbefore⟩
    have heq : last.timestamp = marker.timestamp :=
      le_antisymm (hle last (by simp)) (of_decide_eq_true hlast)
    refine ⟨⟨before, after, rfl, ?_, ?_⟩, heq⟩
    · intro other hother
      rw [heq]
      simpa using hbefore other hother
    · intro other hother
      rw [heq]
      exact hle other (by simp [hother])
  · rintro ⟨⟨before, after, rfl, hbefore, _⟩, heq⟩
    refine ⟨decide_eq_true heq.ge, before, after, rfl, ?_⟩
    intro other hother
    have hlt := hbefore other hother
    rw [heq] at hlt
    simpa using hlt

/-- A row as new as every marker stays. -/
theorem row_kept {markers : List (ChatMarker J)} {time : ℤ} {row : Row}
    (hle : ∀ marker ∈ markers, marker.timestamp ≤ time) (hrow : time ≤ row.timestamp) :
    (markers.map ChatMarker.updateValues).foldl (keepGreater Row.timestamp) (some row) =
    some row := by
  refine foldl_keepGreater_of_le ?_
  intro values hvalues
  obtain ⟨marker, hmarker, rfl⟩ := mem_map.1 hvalues
  exact (hle marker hmarker).trans hrow

/-- **A row is left as the newest task would leave it exactly when that is not lost in its group.** -/
theorem row_eq_iff (stored : Option Row) (groups : List (List (ChatMarker J))) :
    ((ends lib groups).map ChatMarker.updateValues).foldl (keepGreater Row.timestamp) stored =
    (groups.flatten.map ChatMarker.updateValues).foldl (keepGreater Row.timestamp) stored ↔
      KeepsNewest lib stored groups := by
  rw [KeepsNewest]
  have hmem : ∀ last ∈ ends lib groups, last ∈ groups.flatten :=
    fun _ => mem_flatten_of_mem_ends_fits lib
  generalize ends lib groups = ends at hmem ⊢
  rcases htask : firstGreatest ChatMarker.timestamp groups.flatten with _ | marker
  · rw [firstGreatest_eq_none_iff] at htask
    have hnil : ends = [] := by
      rw [eq_nil_iff_forall_not_mem]
      intro last hlast
      have hflatten := hmem last hlast
      rw [htask] at hflatten
      cases hflatten
    rw [hnil, htask]
    simp
  have hle : ∀ last ∈ groups.flatten, last.timestamp ≤ marker.timestamp :=
    fun last hlast => key_le_of_firstGreatest htask hlast
  simp only [Option.mem_def, Option.some.injEq, forall_eq']
  by_cases hnewer : ∀ row, stored = some row → row.timestamp < marker.timestamp
  · -- the newest task replaces the row, so that a task with its values has to be requested first
    have hput : keepGreater Row.timestamp stored marker.updateValues = some marker.updateValues :=
      keepGreater_of_older hnewer
    rw [foldl_updateValues, foldl_updateValues, htask, Option.elim_some, hput,
      imp_iff_right hnewer, Option.map_eq_some_iff]
    have hfind (last : ChatMarker J) := find?_ends last fun other hother =>
      hle other (hmem other hother)
    constructor
    · intro heq
      have hstored : stored ≠ some marker.updateValues := by
        intro hrow
        exact lt_irrefl _ (hnewer _ hrow)
      rcases hlast : firstGreatest ChatMarker.timestamp ends with _ | last
      · rw [hlast] at heq
        exact absurd heq hstored
      · rw [hlast, Option.elim_some] at heq
        have hvalues : last.updateValues = marker.updateValues := by
          rcases stored with _ | row
          · exact Option.some.inj heq
          · rw [keepGreater_some] at heq
            split_ifs at heq with hlt
            · exact Option.some.inj heq
            · exact absurd heq hstored
        obtain ⟨hid, htimestamp⟩ := Row.mk.inj hvalues
        exact ⟨last, (hfind last).2 ⟨hlast, htimestamp⟩, hid⟩
    · rintro ⟨last, hfound, hid⟩
      obtain ⟨hlast, htimestamp⟩ := (hfind last).1 hfound
      have hvalues : last.updateValues = marker.updateValues := by
        rw [ChatMarker.updateValues, hid, htimestamp]
        rfl
      rw [hlast, Option.elim_some, hvalues, hput]
  · -- nothing that is requested is newer than the row
    refine iff_of_true ?_ (fun hall => absurd hall hnewer)
    push Not at hnewer
    obtain ⟨row, rfl, hrow⟩ := hnewer
    rw [row_kept hle hrow, row_kept (fun last hlast => hle last (hmem last hlast)) hrow]

/-- A newest task that is not lost in its group fits, so the synchronous backend has it too. -/
theorem KeepsNewest.row_eq {lib : BareJids J} {stored : Option Row}
    {groups : List (List (ChatMarker J))} {key : Key J} (h : KeepsNewest lib stored groups)
    (hkey : ∀ marker ∈ groups.flatten, marker.key = key) :
    ((groups.flatten.filter (ChatMarker.Fits lib)).map ChatMarker.updateValues).foldl
      (keepGreater Row.timestamp) stored =
    (groups.flatten.map ChatMarker.updateValues).foldl (keepGreater Row.timestamp) stored := by
  rcases htask : firstGreatest ChatMarker.timestamp groups.flatten with _ | marker
  · rw [firstGreatest_eq_none_iff.1 htask, filter_nil]
  have hle : ∀ last ∈ groups.flatten, last.timestamp ≤ marker.timestamp :=
    fun last hlast => key_le_of_firstGreatest htask hlast
  by_cases hnewer : ∀ row, stored = some row → row.timestamp < marker.timestamp
  · obtain ⟨last, hfind, hid⟩ := Option.map_eq_some_iff.1 (h marker htask hnewer)
    have hlast := mem_of_find?_eq_some hfind
    have hflatten := mem_flatten_of_mem_ends_fits lib hlast
    have hfits : marker.Fits lib := by
      -- a task is its key, its time stamp and its id
      have htimestamp : last.timestamp = marker.timestamp :=
        le_antisymm (hle last hflatten) (by simpa using find?_some hfind)
      have hkeys : last.key = marker.key :=
        (hkey last hflatten).trans (hkey marker (mem_of_firstGreatest htask)).symm
      obtain rfl : last = marker := by
        cases last
        cases marker
        simp_all
      simpa using (mem_filter.1 hlast).2
    rw [foldl_updateValues, foldl_updateValues, htask,
      firstGreatest_filter htask (by simpa using hfits)]
  · push Not at hnewer
    obtain ⟨row, rfl, hrow⟩ := hnewer
    rw [row_kept hle hrow, row_kept (fun last hlast => hle last (mem_of_mem_filter hlast)) hrow]

/-- What alice has seen of what bob wrote. -/
def seen : Key String := ⟨"alice", "host", "bob@host", none, .displayed⟩

/-- JIDs that are texts. -/
def textJids : BareJids String := ⟨id, Function.injective_id⟩

variable (groups : List (List (ChatMarker String)))

/-- The groups of one key. -/
def groupsOf (key : Key String) : List (List (ChatMarker String)) :=
  if key = seen then groups else []

/-- Tasks of one key are grouped as they are cut. -/
theorem grouped_groupsOf (h : ∀ marker ∈ groups.flatten, marker.key = seen) :
    Grouped groups.flatten (groups.filterMap aggregateAll) (groupsOf groups) := by
  have haggregate : (aggregateAll : List (ChatMarker String) → _) = getLast? :=
    funext aggregateAll_eq
  have hofKey {markers : List (ChatMarker String)} (hmem : ∀ marker ∈ markers, marker.key = seen)
      (key : Key String) : ofKey key markers = if key = seen then markers else [] := by
    rw [ofKey]
    split_ifs with hkey
    · rw [hkey, filter_eq_self]
      simpa using hmem
    · rw [filter_eq_nil_iff]
      intro marker hmarker
      have hne : ¬ seen = key := fun heq => hkey heq.symm
      simp [hmem marker hmarker, hne]
  constructor
  · intro key
    rw [hofKey h, groupsOf]
    split_ifs
    · rfl
    · rfl
  · intro key
    have hends : ∀ marker ∈ groups.filterMap aggregateAll, marker.key = seen := by
      rw [haggregate]
      exact fun marker hmarker => h marker (mem_flatten_of_mem_ends hmarker)
    rw [hofKey hends, groupsOf]
    split_ifs
    · rfl
    · rfl

/-- An id that its column cannot hold. -/
def longId : String := "".pushn 'x' 251

end MongooseIM.SmartMarkers
