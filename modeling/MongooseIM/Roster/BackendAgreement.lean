import MongooseIM.Roster.Backends
import MongooseIM.Transition.Run

/-! # What a roster set leaves, and whether the storages agree

Mnesia keeps the old groups of an item; the other backend refuses a group that comes twice, an owner
its columns cannot hold and a contact with several numbers. -/

namespace MongooseIM.Roster

open Erlang Relational Xmpp Transition List

variable {K : Type*} [DecidableEq K]

/-! ## The rows of `rostergroups` -/

namespace RdbmsTables

variable {group : String} {tables : RdbmsTables K} {key : K}

theorem mem_getGroupsByJid :
    group ∈ tables.getGroupsByJid key ↔ (key, group) ∈ tables.rostergroups := by
  simp [getGroupsByJid]

theorem getGroupsByJid_nodup (key : K) (tables : RdbmsTables K) :
    (tables.getGroupsByJid key).Nodup := by
  refine List.Nodup.map_on ?_ (tables.nodup.filter _)
  intro row hrow row' hrow' heq
  have hkey : row.1 = key := by simpa using (mem_filter.1 hrow).2
  have hkey' : row'.1 = key := by simpa using (mem_filter.1 hrow').2
  exact Prod.ext (hkey.trans hkey'.symm) heq

variable {tables' : RdbmsTables K}

theorem rosterGroupInsert_eq_some : tables.rosterGroupInsert key group = some tables' ↔
    (key, group) ∉ tables.rostergroups ∧ tables'.rosterusers = tables.rosterusers ∧
      tables'.rostergroups = (key, group) :: tables.rostergroups := by
  rw [rosterGroupInsert]
  split_ifs with h
  · simp [h]
  · obtain ⟨users, groups, nodup⟩ := tables'
    simp only [Option.some.injEq, RdbmsTables.mk.injEq, h, not_false_eq_true, true_and]
    exact ⟨fun ⟨hu, hg⟩ => ⟨hu.symm, hg.symm⟩, fun ⟨hu, hg⟩ => ⟨hu.symm, hg.symm⟩⟩

variable {groups : List String}

/-- **The rows are inserted exactly when no group comes twice** and none is there already. -/
theorem insertAll_isSome : (groups.foldlM (rosterGroupInsert key) tables).isSome ↔
    groups.Nodup ∧ ∀ group ∈ groups, (key, group) ∉ tables.rostergroups := by
  induction groups generalizing tables with
  | nil => simp
  | cons group groups ih =>
    rw [foldlM_cons]
    by_cases h : (key, group) ∈ tables.rostergroups
    · simp [rosterGroupInsert, h]
    · simp only [rosterGroupInsert, h, dite_false, Option.bind_eq_bind, Option.bind_some, ih,
        mem_cons, Prod.mk.injEq, true_and, not_or, nodup_cons, forall_eq_or_imp,
        not_false_eq_true]
      constructor
      · rintro ⟨hnodup, hall⟩
        exact ⟨⟨fun hmem => (hall _ hmem).1 rfl, hnodup⟩, fun g hg => (hall g hg).2⟩
      · rintro ⟨⟨hnotin, hnodup⟩, hall⟩
        exact ⟨hnodup, fun g hg => ⟨fun heq => hnotin (heq ▸ hg), hall g hg⟩⟩

theorem insertAll_spec (h : groups.foldlM (rosterGroupInsert key) tables = some tables') :
    tables'.rosterusers = tables.rosterusers ∧ ∀ row, row ∈ tables'.rostergroups ↔
      row ∈ tables.rostergroups ∨ row.1 = key ∧ row.2 ∈ groups := by
  induction groups generalizing tables with
  | nil =>
    cases h
    simp
  | cons group groups ih =>
    rw [foldlM_cons, Option.bind_eq_bind, Option.bind_eq_some_iff] at h
    obtain ⟨mid, hmid, hrest⟩ := h
    obtain ⟨-, husers, hgroups⟩ := rosterGroupInsert_eq_some.1 hmid
    obtain ⟨husers', hgroups'⟩ := ih hrest
    refine ⟨husers'.trans husers, fun row => ?_⟩
    rw [hgroups', hgroups]
    obtain ⟨k, g⟩ := row
    simp only [mem_cons, Prod.mk.injEq]
    tauto

variable {k : K}

theorem getGroupsByJid_rosterGroupDelete_ne (hk : k ≠ key) (tables : RdbmsTables K) :
    (tables.rosterGroupDelete key).getGroupsByJid k = tables.getGroupsByJid k := by
  simp only [getGroupsByJid, rosterGroupDelete, filter_filter]
  congr 1
  refine filter_congr fun row _ => ?_
  by_cases hrow : row.1 = k <;> simp [hrow, hk]

/-- Inserting rows under one key leaves the groups of the others. -/
theorem getGroupsByJid_insertAll_ne (hk : k ≠ key)

    (h : groups.foldlM (rosterGroupInsert key) tables = some tables') :
    tables'.getGroupsByJid k = tables.getGroupsByJid k := by
  induction groups generalizing tables with
  | nil => rw [Option.some.inj h]
  | cons group groups ih =>
    rw [foldlM_cons, Option.bind_eq_bind, Option.bind_eq_some_iff] at h
    obtain ⟨mid, hmid, hrest⟩ := h
    obtain ⟨-, -, hgroups⟩ := rosterGroupInsert_eq_some.1 hmid
    rw [ih hrest, getGroupsByJid, hgroups, filter_cons_of_neg (by simpa using Ne.symm hk)]
    rfl

end RdbmsTables

open RdbmsTables

/-- The groups of an item that get a row. -/
def namedGroups (groups : List String) : List String := groups.filter fun group => group ≠ ""

variable {group : String}

theorem mem_namedGroups {groups : List String} :
    group ∈ namedGroups groups ↔ group ∈ groups ∧ group ≠ "" := by
  simp [namedGroups]

variable {db : Database K} {key : K} {tables : RdbmsTables K} {item : Item}

theorem rdbms_updateRosterT_isSome : ((rdbms db).updateRosterT key item tables).isSome ↔
    FitsColumns (db.owner key) ∧ (namedGroups item.groups).Nodup := by
  show ((tables.rosterUpsert db key item).bind fun tables =>
    (groupsToRows item).foldlM (rosterGroupInsert key) (tables.rosterGroupDelete key)).isSome ↔ _
  rw [rosterUpsert]
  split_ifs with hfits
  · rw [Option.bind_some, insertAll_isSome, groupsToRows_eq, nodup_reverse, and_iff_right hfits]
    refine and_iff_left ?_
    simp [rosterGroupDelete]
  · simp [hfits]

variable {tables' : RdbmsTables K}

theorem rosterUpsert_eq_some (h : tables.rosterUpsert db key item = some tables') :
    FitsColumns (db.owner key) ∧
    { tables with rosterusers := tables.rosterusers.insert key (recordToRow item) } = tables' := by
  rw [rosterUpsert] at h
  split_ifs at h with hfits
  exact ⟨hfits, Option.some.inj h⟩

/-- What `update_roster_t/2` leaves. -/
theorem rdbms_updateRosterT_spec (h : (rdbms db).updateRosterT key item tables = some tables') :
    tables'.rosterusers = tables.rosterusers.insert key (recordToRow item) ∧
    (∀ k group, (k, group) ∈ tables'.rostergroups ↔
      if k = key then group ∈ namedGroups item.groups else (k, group) ∈ tables.rostergroups) ∧
    ∀ k, k ≠ key → tables'.getGroupsByJid k = tables.getGroupsByJid k := by
  obtain ⟨upserted, hupsert, hinsert⟩ := Option.bind_eq_some_iff.1 h
  obtain ⟨-, rfl⟩ := rosterUpsert_eq_some hupsert
  obtain ⟨husers, hgroups⟩ := insertAll_spec hinsert
  refine ⟨husers, fun k group => ?_, fun k hk => ?_⟩
  · rw [hgroups, groupsToRows_eq]
    by_cases hk : k = key
    · simp [rosterGroupDelete, hk, namedGroups]
    · simp [rosterGroupDelete, hk]
  · rw [getGroupsByJid_insertAll_ne hk hinsert]
    exact getGroupsByJid_rosterGroupDelete_ne hk _

/-! ## One roster set -/

/-- The item that a roster set makes of the one it read. -/
def updatedItem (old : Item) (name : Option String) (children : List Element) : Item :=
  { old with
    name := name.getD old.name
    groups := (groupsOf children).reverse ++ old.groups
    xs := (xsOf children).reverse ++ old.xs }

theorem makeItem_update (old : Item) (name : Option String) (children : List Element) :
    makeItem old (.update name children) = some (updatedItem old name children) := by
  cases name <;> simp [makeItem, maybeAddName, processItemEls_eq, updatedItem]

variable (table : MnesiaTable K)

theorem mnesia_set (key : K) (name : Option String) (children : List Element) :
    mnesia.step table (.set key (.update name children)) = table.insert key
      (updatedItem { (table.lookup key).getD {} with xs := [] } name children) := by
  rw [Backend.step, Backend.setRosterItemT]
  cases hl : table.lookup key <;> simp [mnesia, makeItem_update, hl]

/-- The tables that the RDBMS backend has after a roster set. -/
theorem rdbms_set (tables : RdbmsTables K) (key : K) (name : Option String)
    (children : List Element) :
    (rdbms db).step tables (.set key (.update name children)) =
    (((rdbms db).getRosterEntryT .short key tables).bind fun entry => (rdbms db).updateRosterT key
      (updatedItem (entry.getD {}) name children) tables).getD tables := by
  rw [Backend.step, Backend.setRosterItemT]
  cases (rdbms db).getRosterEntryT .short key tables with
  | none => rfl
  | some entry => cases entry <;> simp [makeItem_update]

/-- **The set has replaced the item**: the groups are those of the request, each once, the name is
that of the request, and the state of the subscription is the old one. -/
def Replaces (old : Item) (name : Option String) (children : List Element)
    (stored : List Item) : Prop :=
  stored ≠ [] ∧ ∀ item ∈ stored, item.groups.Nodup ∧
    (∀ group, group ∈ item.groups ↔ group ∈ groupsOf children) ∧ item.name = name.getD "" ∧
    item.subscription = old.subscription ∧ item.ask = old.ask ∧ item.askmessage = old.askmessage

/-- When a roster set on Mnesia replaces the item: the item has no groups to be kept, no group
comes twice, and a missing name finds an empty one. -/
def MnesiaReplaces (stored : Option Item) (name : Option String) (children : List Element) :
    Prop :=
  (groupsOf children).Nodup ∧ (stored.getD {}).groups = [] ∧
    (name = none → (stored.getD {}).name = "")

/-- When a roster set on RDBMS replaces the item. It is aborted by a group that comes twice, an
owner that does not fit or an item that cannot be read: then the item is as requested before. -/
def RdbmsReplaces (db : Database K) (key : K) (stored : Option Item) (name : Option String)
    (children : List Element) : Prop :=
  if (stored = none ∨ (db.phones key).length ≤ 1) ∧ FitsColumns (db.owner key) ∧
      (namedGroups (groupsOf children)).Nodup then
    "" ∉ groupsOf children ∧ (name = none → (stored.getD {}).name = "")
  else
    ∃ item, stored = some item ∧ item.name = name.getD "" ∧
      ∀ group, group ∈ item.groups ↔ group ∈ groupsOf children

/-- An absent name is the empty name, if it was. -/
theorem getD_name_eq {name : Option String} {old : String} :
    name.getD old = name.getD "" ↔ (name = none → old = "") := by
  cases name <;> simp

/-- **A roster set on Mnesia** replaces the item exactly when `MnesiaReplaces`. -/
theorem mnesia_replaces_iff (key : K) (name : Option String) (children : List Element) :
    Replaces ((mnesia.storedItem key table).getD {}) name children
      (mnesia.getRoster key (mnesia.step table (.set key (.update name children)))) ↔
    MnesiaReplaces (mnesia.storedItem key table) name children := by
  rw [mnesia_set]
  generalize hold : table.lookup key = stored
  have hget : mnesia.storedItem key table = stored := by
    rw [← hold]
    show (table.lookup key).toList.head? = _
    cases table.lookup key <;> rfl
  rw [hget]
  simp only [Replaces, MnesiaReplaces, mnesia, AList.lookup_insert, Option.toList_some, ne_eq,
    cons_ne_nil, not_false_eq_true, mem_singleton, forall_eq, updatedItem, and_true, true_and]
  rw [getD_name_eq, ← and_assoc, ← and_assoc]
  refine and_congr_left fun _ => ?_
  constructor
  · rintro ⟨hnodup, hmem⟩
    obtain ⟨hreq, -, hdisj⟩ := nodup_append.1 hnodup
    refine ⟨nodup_reverse.1 hreq, ?_⟩
    -- an old group would have to be one of the request, and so come twice
    rw [eq_nil_iff_forall_not_mem]
    intro group hgroup
    have hgroup' := (hmem group).1 (mem_append_right _ hgroup)
    exact hdisj group (mem_reverse.2 hgroup') group hgroup rfl
  · rintro ⟨hnodup, hnil⟩
    rw [hnil, append_nil]
    exact ⟨nodup_reverse.2 hnodup, fun group => mem_reverse⟩

/-! ### What is read -/

theorem joined_ne_nil (phones : List String) : joined phones ≠ [] := by
  rw [joined]
  split_ifs with h <;> simp [h]

/-- One number at most makes one row. -/
theorem joined_eq_singleton {phones : List String} :
    (∃ phone, joined phones = [phone]) ↔ phones.length ≤ 1 := by
  match phones with
  | [] => exact iff_of_true ⟨none, rfl⟩ (Nat.zero_le 1)
  | [phone] => exact iff_of_true ⟨some phone, rfl⟩ le_rfl
  | _ :: _ :: _ => simp [joined]

/-- The items that are listed under a key, one for each row of the join. -/
theorem rdbms_getRoster_eq (key : K) (tables : RdbmsTables K) : (rdbms db).getRoster key tables =
    match tables.rosterusers.lookup key with
    | none => []
    | some row => (joined (db.phones key)).map fun phone =>
    rowToRecord row phone (tables.getGroupsByJid key) := by
  simp only [rdbms, rosterGetByJid]
  cases tables.rosterusers.lookup key with
  | none => rfl
  | some row => exact map_map

/-- **What is read of a key**: no item, the item with the one number, or nothing at all. -/
theorem rdbms_getRosterEntryT_eq (format : Format) (key : K) (tables : RdbmsTables K) :
    (rdbms db).getRosterEntryT format key tables =
    match tables.rosterusers.lookup key, joined (db.phones key) with
    | none, _ => some none
    | some row, [phone] => some (some (rowToRecord row phone
      (match format with
        | .full => tables.getGroupsByJid key
        | .short => [])))
    | some _, _ => none := by
  simp only [rdbms, rosterGetByJid]
  cases tables.rosterusers.lookup key with
  | none => rfl
  | some row =>
    rcases hjoined : joined (db.phones key) with _ | ⟨phone, _ | ⟨phone', phones⟩⟩
    · exact absurd hjoined (joined_ne_nil _)
    · rfl
    · rfl

theorem rdbms_storedItem_eq_none (db : Database K) (key : K) (tables : RdbmsTables K) :
    (rdbms db).storedItem key tables = none ↔ tables.rosterusers.lookup key = none := by
  rw [Backend.storedItem, head?_eq_none_iff, rdbms_getRoster_eq]
  cases tables.rosterusers.lookup key with
  | none => simp
  | some row => simp [joined_ne_nil]

/-- The items that are listed under a key differ in the number only. -/
theorem rdbms_mem_getRoster {item : Item} (hitem : (rdbms db).storedItem key tables = some item)
    {listed : Item} (hlisted : listed ∈ (rdbms db).getRoster key tables) :
    { listed with xs := item.xs } = item := by
  rw [Backend.storedItem, rdbms_getRoster_eq] at hitem
  rw [rdbms_getRoster_eq] at hlisted
  cases hlookup : tables.rosterusers.lookup key with
  | none =>
    rw [hlookup] at hitem
    cases hitem
  | some row =>
    simp only [hlookup] at hitem hlisted
    obtain ⟨phone, -, rfl⟩ := mem_map.1 hlisted
    obtain ⟨phone', -, rfl⟩ := mem_map.1 (mem_of_head? hitem)
    rfl

/-- The item that a roster set reads, less the groups, if it reads it. -/
theorem rdbms_short_eq (db : Database K) (key : K) (tables : RdbmsTables K) :
    ((rdbms db).getRosterEntryT .short key tables).map (·.getD {}) =
    if (rdbms db).storedItem key tables = none ∨ (db.phones key).length ≤ 1 then
      some { ((rdbms db).storedItem key tables).getD {} with groups := [] }
    else none := by
  cases hlookup : tables.rosterusers.lookup key with
  | none =>
    have hitem := (rdbms_storedItem_eq_none db key tables).2 hlookup
    rw [rdbms_getRosterEntryT_eq, hlookup, hitem, if_pos (Or.inl rfl)]
    rfl
  | some row =>
    have hitem : (rdbms db).storedItem key tables = ((joined (db.phones key)).map fun phone =>
        rowToRecord row phone (tables.getGroupsByJid key)).head? := by
      rw [Backend.storedItem, rdbms_getRoster_eq, hlookup]
    match hjoined : joined (db.phones key), joined_ne_nil (db.phones key) with
    | [phone], _ =>
      rw [rdbms_getRosterEntryT_eq, hlookup, hitem, hjoined,
        if_pos (Or.inr (joined_eq_singleton.1 ⟨phone, hjoined⟩))]
      rfl
    | phone :: phone' :: phones, _ =>
      have hseveral : ¬(db.phones key).length ≤ 1 := by
        rw [← joined_eq_singleton, hjoined]
        simp
      rw [rdbms_getRosterEntryT_eq, hlookup, hitem, hjoined, if_neg (by simp [hseveral])]
      rfl

/-! ### What is written -/

section

variable (h : (rdbms db).updateRosterT key item tables = some tables')

include h

/-- What `get_roster/3` shows of a key after an update that went through. -/
theorem rdbms_getRoster_updated : (rdbms db).getRoster key tables' =
    (joined (db.phones key)).map fun phone =>
      { item with groups := tables'.getGroupsByJid key, xs := phoneToXml phone } := by
  rw [rdbms_getRoster_eq, (rdbms_updateRosterT_spec h).1, AList.lookup_insert]
  rfl

theorem rdbms_mem_groups_updated :
    group ∈ tables'.getGroupsByJid key ↔ group ∈ namedGroups item.groups := by
  rw [mem_getGroupsByJid, (rdbms_updateRosterT_spec h).2.1, if_pos rfl]

end

theorem nodup_namedGroups_reverse {groups groups' : List String} (h : groups' = groups.reverse) :
    (namedGroups groups').Nodup ↔ (namedGroups groups).Nodup := by
  rw [h, namedGroups, namedGroups, filter_reverse, nodup_reverse]

/-- An item with distinct named groups is stored with them, if its owner fits. -/
theorem rdbms_updated (db : Database K) (key : K) (tables : RdbmsTables K)
    (hgroups : item.groups = groups.reverse) (hfits : FitsColumns (db.owner key))
    (h : (namedGroups groups).Nodup) :
    ∃ tables', (rdbms db).updateRosterT key item tables = some tables' ∧
    ∀ group, group ∈ tables'.getGroupsByJid key ↔ group ∈ groups ∧ group ≠ "" := by
  have hsome : ((rdbms db).updateRosterT key item tables).isSome :=
    rdbms_updateRosterT_isSome.2 ⟨hfits, (nodup_namedGroups_reverse hgroups).2 h⟩
  obtain ⟨tables', htables'⟩ := Option.isSome_iff_exists.1 hsome
  refine ⟨tables', htables', fun group => ?_⟩
  rw [rdbms_mem_groups_updated htables', mem_namedGroups, hgroups, mem_reverse]

theorem rdbms_aborted (hgroups : item.groups = groups.reverse)
    (h : ¬ (FitsColumns (db.owner key) ∧ (namedGroups groups).Nodup)) :
    (rdbms db).updateRosterT key item tables = none := by
  rw [← Option.not_isSome_iff_eq_none, rdbms_updateRosterT_isSome,
    nodup_namedGroups_reverse hgroups]
  exact h

/-- **A roster set on the RDBMS backend** replaces the item exactly when `RdbmsReplaces`. -/
theorem rdbms_replaces_iff (tables : RdbmsTables K) (key : K) (name : Option String)
    (children : List Element) :
    Replaces (((rdbms db).storedItem key tables).getD {}) name children
      ((rdbms db).getRoster key
        ((rdbms db).step tables (.set key (.update name children)))) ↔
    RdbmsReplaces db key ((rdbms db).storedItem key tables) name children := by
  have hshort := rdbms_short_eq db key tables
  -- without a write the item had to be as requested
  have hkept : Replaces (((rdbms db).storedItem key tables).getD {}) name children
      ((rdbms db).getRoster key tables) ↔ ∃ item, (rdbms db).storedItem key tables = some item ∧
        item.name = name.getD "" ∧ ∀ group, group ∈ item.groups ↔ group ∈ groupsOf children := by
    cases hitem : (rdbms db).storedItem key tables with
    | none => simp [Replaces, head?_eq_none_iff.1 hitem]
    | some item =>
      have hmem : item ∈ (rdbms db).getRoster key tables := mem_of_head? hitem
      have hnodup : item.groups.Nodup := by
        rw [rdbms_getRoster_eq] at hmem
        split at hmem
        · cases hmem
        · obtain ⟨phone, -, rfl⟩ := mem_map.1 hmem
          exact getGroupsByJid_nodup key tables
      simp only [Replaces, Option.getD_some, Option.some.injEq, exists_eq_left']
      constructor
      · rintro ⟨-, hall⟩
        exact ⟨(hall item hmem).2.2.1, (hall item hmem).2.1⟩
      · rintro ⟨hname, hgroups⟩
        refine ⟨ne_nil_of_mem hmem, fun listed hlisted => ?_⟩
        have heq := rdbms_mem_getRoster hitem hlisted
        rw [← heq] at hnodup hgroups hname ⊢
        exact ⟨hnodup, hgroups, hname, rfl, rfl, rfl⟩
  rw [rdbms_set, RdbmsReplaces]
  generalize hitem : (rdbms db).storedItem key tables = stored at hshort hkept ⊢
  cases hentry : (rdbms db).getRosterEntryT .short key tables with
  | none =>
    have hunread : ¬ (stored = none ∨ (db.phones key).length ≤ 1) := by
      intro hread
      rw [hentry, if_pos hread] at hshort
      cases hshort
    rw [Option.bind_none, Option.getD_none, if_neg fun h => hunread h.1]
    exact hkept
  | some entry =>
    have hread : (stored = none ∨ (db.phones key).length ≤ 1) ∧
        entry.getD {} = { stored.getD {} with groups := [] } := by
      by_contra hnot
      rw [hentry] at hshort
      split_ifs at hshort with hread
      · exact hnot ⟨hread, Option.some.inj hshort⟩
      · cases hshort
    rw [Option.bind_some, hread.2]
    generalize hnew : updatedItem { stored.getD {} with groups := [] } name children = new
    have hgroups : new.groups = (groupsOf children).reverse := hnew ▸ append_nil _
    by_cases hwrite : FitsColumns (db.owner key) ∧ (namedGroups (groupsOf children)).Nodup
    · obtain ⟨tables', htables', hmem⟩ := rdbms_updated db key tables hgroups hwrite.1 hwrite.2
      rw [htables', Option.getD_some, rdbms_getRoster_updated htables', if_pos ⟨hread.1, hwrite⟩,
        ← getD_name_eq]
      simp only [Replaces, ne_eq, map_eq_nil_iff, joined_ne_nil, not_false_eq_true, mem_map,
        forall_exists_index, and_imp, forall_apply_eq_imp_iff₂, getGroupsByJid_nodup, hmem,
        true_and, and_iff_left_iff_imp, ← hnew, updatedItem, and_true]
      obtain ⟨phone, hphone⟩ := exists_mem_of_ne_nil _ (joined_ne_nil (db.phones key))
      constructor
      · intro hall
        refine ⟨fun hempty => (hall phone hphone).1 "" hempty rfl, (hall phone hphone).2⟩
      · rintro ⟨hempty, hname⟩ _ _
        exact ⟨fun group hg heq => hempty (heq ▸ hg), hname⟩
    · rw [rdbms_aborted hgroups hwrite, Option.getD_none, if_neg fun h => hwrite h.2]
      exact hkept

/-! ## Both storages -/

/-- Two items that are the same, where groups are compared as sets. -/
@[mk_iff]
structure SameItem (i j : Item) : Prop where
  name : i.name = j.name
  subscription : i.subscription = j.subscription
  ask : i.ask = j.ask
  askmessage : i.askmessage = j.askmessage
  xs : i.xs = j.xs
  groups : ∀ group, group ∈ i.groups ↔ group ∈ j.groups

/-- The storages hold the same items. -/
def SameItems (db : Database K) (s : MnesiaTable K × RdbmsTables K) : Prop :=
  ∀ key, Forall₂ SameItem (mnesia.getRoster key s.1) ((rdbms db).getRoster key s.2)

/-- Every row of `rostergroups` belongs to a row of `rosterusers`, and that to an owner who fits. -/
structure Owned (db : Database K) (tables : RdbmsTables K) : Prop where
  isSome : ∀ row ∈ tables.rostergroups, (tables.rosterusers.lookup row.1).isSome
  fits : ∀ key, (tables.rosterusers.lookup key).isSome → FitsColumns (db.owner key)

/-- The same command on both storages. -/
def stepBoth (db : Database K) (s : MnesiaTable K × RdbmsTables K) (command : Command K) :
    Option (MnesiaTable K × RdbmsTables K) :=
  some (mnesia.step s.1 command, (rdbms db).step s.2 command)

/-- **The commands that keep the storages equal.** A roster set is for a contact with one number at
most, brings the extensions already shown, drops no group, and changes nothing where it is refused;
a presence is stored for a contact without a number. -/
def Uniform (db : Database K) (s : MnesiaTable K × RdbmsTables K) : Command K → Prop
  | .set _ .remove => True
  | .set key (.update name children) =>
    (joined (db.phones key)).map phoneToXml = [(xsOf children).reverse] ∧
      if FitsColumns (db.owner key) ∧ (namedGroups (groupsOf children)).Nodup then
        "" ∉ groupsOf children ∧
          ∀ group ∈ ((mnesia.storedItem key s.1).getD {}).groups, group ∈ groupsOf children
      else
        ∃ item, mnesia.storedItem key s.1 = some item ∧ (∀ n, name = some n → n = item.name) ∧
          ∀ group ∈ groupsOf children, group ∈ item.groups
  | .presence key direction type reason =>
    match (processSubscriptionT direction (mnesia.storedItem key s.1) type reason).map
      Processed.write with
    | some (.subscribe _) =>
      FitsColumns (db.owner key) ∧ (joined (db.phones key)).map phoneToXml = [[]]
    | _ => True

theorem mnesia_storedItem (key : K) (table : MnesiaTable K) :
    mnesia.storedItem key table = table.lookup key := by
  show (table.lookup key).toList.head? = _
  cases table.lookup key <;> rfl

omit [DecidableEq K] in
/-- What a presence does, from what it does to the item that is read. -/
theorem processSubscription_eq {T : Type*} (b : Backend K T) (key : K) (direction : Direction)
    (type : SubPresence) (reason : String) (tables : T) :
    b.processSubscription key direction type reason tables =
    (b.getRosterEntryT .full key tables).bind fun entry =>
      match (processSubscriptionT direction entry type reason).map Processed.write with
      | none => none
      | some .keep => some tables
      | some .delete => b.delRosterT key tables
      | some (.subscribe item) => b.rosterSubscribeT key item tables := by
  rw [Backend.processSubscription]
  congr 1
  funext entry
  cases processSubscriptionT direction entry type reason with
  | none => rfl
  | some p =>
    rw [Option.bind_some, Option.map_some]
    cases p.write <;> rfl

omit [DecidableEq K] in
/-- A command leaves what its callbacks leave under its own key. -/
theorem step_ne {T : Type*} {b : Backend K T} {key : K} (listed : T → List Item)
    (hsubscribe : ∀ tables item t', b.rosterSubscribeT key item tables = some t' →
    listed t' = listed tables)
    (hupdate : ∀ tables item t', b.updateRosterT key item tables = some t' →
    listed t' = listed tables)
    (hdel : ∀ tables t', b.delRosterT key tables = some t' → listed t' = listed tables)
    (tables : T) {command : Command K} (hkey : command.key = key) :
    listed (b.step tables command) = listed tables := by
  have hgetD {o : Option T} (h : ∀ t', o = some t' → listed t' = listed tables) :
      listed (o.getD tables) = listed tables := by
    cases o with
    | none => rfl
    | some t' => exact h t' rfl
  cases command with
  | set key' request =>
    obtain rfl : key' = key := hkey
    refine hgetD fun t' ht' => ?_
    obtain ⟨entry, -, ht'⟩ := Option.bind_eq_some_iff.1 ht'
    split at ht'
    · rw [Option.some.inj ht']
    · exact hdel tables t' ht'
    · exact hupdate tables _ t' ht'
  | presence key' direction type reason =>
    obtain rfl : key' = key := hkey
    refine hgetD fun t' ht' => ?_
    rw [processSubscription_eq] at ht'
    obtain ⟨entry, -, ht'⟩ := Option.bind_eq_some_iff.1 ht'
    split at ht'
    · cases ht'
    · rw [Option.some.inj ht']
    · exact hdel tables t' ht'
    · exact hsubscribe tables _ t' ht'

theorem mnesia_getRoster_step_ne (command : Command K) {key : K} (hkey : key ≠ command.key) :
    mnesia.getRoster key (mnesia.step table command) = mnesia.getRoster key table := by
  refine step_ne (mnesia.getRoster key) (fun tables item t' h => ?_)
    (fun tables item t' h => ?_) (fun tables t' h => ?_) table rfl
  · cases h
    exact congrArg Option.toList (AList.lookup_insert_ne hkey)
  · cases h
    exact congrArg Option.toList (AList.lookup_insert_ne hkey)
  · cases h
    exact congrArg Option.toList (AList.lookup_erase_ne hkey)

variable {tables : RdbmsTables K}

/-- The tables of two storages show the same under a key that has the same rows. -/
theorem rdbms_getRoster_congr {key : K}
    (husers : tables'.rosterusers.lookup key = tables.rosterusers.lookup key)
    (hgroups : tables'.getGroupsByJid key = tables.getGroupsByJid key) :
    (rdbms db).getRoster key tables' = (rdbms db).getRoster key tables := by
  rw [rdbms_getRoster_eq, rdbms_getRoster_eq, husers, hgroups]

theorem rdbms_getRoster_step_ne (tables : RdbmsTables K) (command : Command K) {key : K}
    (hkey : key ≠ command.key) :
    (rdbms db).getRoster key ((rdbms db).step tables command) =
    (rdbms db).getRoster key tables := by
  refine step_ne ((rdbms db).getRoster key) (fun tables item t' h => ?_)
    (fun tables item t' h => ?_) (fun tables t' h => ?_) tables rfl
  · obtain ⟨-, rfl⟩ := rosterUpsert_eq_some h
    exact rdbms_getRoster_congr (AList.lookup_insert_ne hkey) rfl
  · obtain ⟨husers, -, hgroups⟩ := rdbms_updateRosterT_spec h
    refine rdbms_getRoster_congr ?_ (hgroups key hkey)
    rw [husers]
    exact AList.lookup_insert_ne hkey
  · cases h
    exact rdbms_getRoster_congr (AList.lookup_erase_ne hkey)
      (getGroupsByJid_rosterGroupDelete_ne hkey _)

/-! ## One command on both -/

variable {s : MnesiaTable K × RdbmsTables K}

/-- The first items of the two lists under a key are both there or both absent. -/
theorem SameItems.rel (h : SameItems db s) (key : K) :
    Option.Rel SameItem (s.1.lookup key) ((rdbms db).storedItem key s.2) := by
  have hkey := h key
  rw [Backend.storedItem]
  generalize (rdbms db).getRoster key s.2 = listed at hkey ⊢
  cases hkey' : s.1.lookup key with
  | none =>
    simp only [mnesia, hkey', Option.toList_none, forall₂_nil_left_iff] at hkey
    rw [hkey]
    exact .none
  | some i =>
    simp only [mnesia, hkey', Option.toList_some, forall₂_cons_left_iff,
      forall₂_nil_left_iff] at hkey
    obtain ⟨j, _, hsame, rfl, rfl⟩ := hkey
    exact .some hsame

/-- Storages that hold the same items can be read. -/
theorem SameItems.readable (h : SameItems db s) (key : K) :
    (rdbms db).storedItem key s.2 = none ∨ (db.phones key).length ≤ 1 := by
  rw [rdbms_storedItem_eq_none, ← joined_eq_singleton]
  have hlength := (h key).length_eq
  rw [rdbms_getRoster_eq] at hlength
  cases hlookup : s.2.rosterusers.lookup key with
  | none => exact Or.inl rfl
  | some row =>
    right
    rw [hlookup, length_map] at hlength
    have hle : (joined (db.phones key)).length ≤ 1 := by
      rw [← hlength]
      show (s.1.lookup key).toList.length ≤ 1
      cases s.1.lookup key <;> simp
    match hjoined : joined (db.phones key), joined_ne_nil (db.phones key) with
    | [phone], _ => exact ⟨phone, rfl⟩
    | phone :: phone' :: phones, _ => simp [hjoined] at hle

/-- What two storages with the same item read, an absent item as a new one. -/
theorem getD_of_rel {i j : Option Item} (h : Option.Rel SameItem i j) :
    (i.getD {}).name = (j.getD {}).name ∧ (i.getD {}).subscription = (j.getD {}).subscription ∧
    (i.getD {}).ask = (j.getD {}).ask ∧ (i.getD {}).askmessage = (j.getD {}).askmessage ∧
    ∀ group, group ∈ (i.getD {}).groups ↔ group ∈ (j.getD {}).groups := by
  cases h with
  | none => simp
  | some hsame => exact ⟨hsame.name, hsame.subscription, hsame.ask, hsame.askmessage, hsame.groups⟩

/-- One item is the same as those that the join makes of a row when there is one of them. -/
theorem forall₂_joined {i : Item} {phones : List String} {record : Option String → Item} :
    Forall₂ SameItem [i] ((joined phones).map record) ↔
    ∃ phone, joined phones = [phone] ∧ SameItem i (record phone) := by
  simp only [forall₂_cons_left_iff, forall₂_nil_left_iff]
  constructor
  · rintro ⟨j, _, hsame, rfl, hmap⟩
    obtain ⟨phone, phones', hjoined, rfl, hnil⟩ := map_eq_cons_iff.1 hmap
    exact ⟨phone, by rw [hjoined, map_eq_nil_iff.1 hnil], hsame⟩
  · rintro ⟨phone, hjoined, hsame⟩
    exact ⟨_, _, hsame, rfl, by rw [hjoined]; rfl⟩

theorem map_joined_eq_singleton {phones : List String} {xs : List Element} :
    (joined phones).map phoneToXml = [xs] ↔
    ∃ phone, joined phones = [phone] ∧ phoneToXml phone = xs := by
  rw [map_eq_singleton_iff]

/-- A write of the subscription state, on another reading of the same item. -/
def Write.onto (item : Item) : Write → Write
  | .subscribe new => .subscribe { item with
      subscription := new.subscription
      ask := new.ask
      askmessage := new.askmessage }
  | write => write

/-- **What a presence does depends on the subscription state alone.** -/
theorem processSubscriptionT_congr (entry entry' : Option Item)
    (hs : (entry'.getD {}).subscription = (entry.getD {}).subscription)
    (ha : (entry'.getD {}).ask = (entry.getD {}).ask) (direction : Direction) (type : SubPresence)
    (reason : String) :
    (processSubscriptionT direction entry' type reason).map Processed.write =
    ((processSubscriptionT direction entry type reason).map Processed.write).map
      (Write.onto (entry'.getD {})) := by
  simp only [processSubscriptionT, hs, ha]
  split
  · rfl
  · rfl
  · split_ifs <;> rfl

omit [DecidableEq K] in
theorem step_presence {T : Type*} {b : Backend K T} {tables : T} {key : K} {entry : Option Item}
    (hread : b.getRosterEntryT .full key tables = some entry) (direction : Direction)
    (type : SubPresence) (reason : String) :
    b.step tables (.presence key direction type reason) =
    match (processSubscriptionT direction entry type reason).map Processed.write with
    | none | some .keep => tables
    | some .delete => (b.delRosterT key tables).getD tables
    | some (.subscribe item) => (b.rosterSubscribeT key item tables).getD tables := by
  rw [Backend.step, processSubscription_eq, hread, Option.bind_some]
  split <;> rfl

/-- A readable item is read as it is listed. -/
theorem rdbms_full_eq (h : SameItems db s) (key : K) :
    (rdbms db).getRosterEntryT .full key s.2 = some ((rdbms db).storedItem key s.2) := by
  have hread := h.readable key
  rw [rdbms_storedItem_eq_none, ← joined_eq_singleton] at hread
  rw [rdbms_getRosterEntryT_eq, Backend.storedItem, rdbms_getRoster_eq]
  cases hlookup : s.2.rosterusers.lookup key with
  | none => rfl
  | some row =>
    obtain ⟨phone, hphone⟩ := hread.resolve_left (by simp [hlookup])
    rw [hphone]
    rfl

/-- The groups of an item are its rows, also for an item that is not there. -/
theorem groups_storedItem (h : Owned db tables) (key : K) :
    (((rdbms db).storedItem key tables).getD {}).groups = tables.getGroupsByJid key := by
  cases hitem : (rdbms db).storedItem key tables with
  | some item =>
    have hmem : item ∈ (rdbms db).getRoster key tables := mem_of_head? hitem
    rw [rdbms_getRoster_eq] at hmem
    split at hmem
    · cases hmem
    · obtain ⟨phone, -, rfl⟩ := mem_map.1 hmem
      rfl
  | none =>
    refine (eq_nil_iff_forall_not_mem.2 fun group hgroup => ?_).symm
    have := h.isSome _ (mem_getGroupsByJid.1 hgroup)
    simp [(rdbms_storedItem_eq_none db key tables).1 hitem] at this

/-- A command keeps the storages equal if it does so under its own key. -/
theorem sameItems_iff (h : SameItems db s) (command : Command K) :
    SameItems db (mnesia.step s.1 command, (rdbms db).step s.2 command) ↔
    Forall₂ SameItem (mnesia.getRoster command.key (mnesia.step s.1 command))
      ((rdbms db).getRoster command.key ((rdbms db).step s.2 command)) := by
  refine ⟨fun hall => hall command.key, fun hkey key => ?_⟩
  by_cases hne : key = command.key
  · rw [hne]
    exact hkey
  · rw [mnesia_getRoster_step_ne _ _ hne, rdbms_getRoster_step_ne _ _ hne]
    exact h key

theorem sameItem_remove (h : SameItems db s) (key : K) :
    Forall₂ SameItem (mnesia.getRoster key (mnesia.step s.1 (.set key .remove)))
    ((rdbms db).getRoster key ((rdbms db).step s.2 (.set key .remove))) := by
  have hm : mnesia.getRoster key (mnesia.step s.1 (.set key .remove)) = [] := by
    rw [Backend.step, Backend.setRosterItemT]
    cases hl : s.1.lookup key <;> simp [mnesia, makeItem, hl]
  have hr : (rdbms db).getRoster key ((rdbms db).step s.2 (.set key .remove)) = [] := by
    have hshort := rdbms_short_eq db key s.2
    rw [if_pos (h.readable key), Option.map_eq_some_iff] at hshort
    obtain ⟨entry, hentry, -⟩ := hshort
    rw [Backend.step, Backend.setRosterItemT, hentry, Option.bind_some, rdbms_getRoster_eq]
    cases entry with
    | none =>
      -- nothing is read where there is nothing
      have hlookup : s.2.rosterusers.lookup key = none := by
        rw [rdbms_getRosterEntryT_eq] at hentry
        split at hentry
        · assumption
        · cases hentry
        · cases hentry
      simp [makeItem, hlookup]
    | some item => simp [rdbms, makeItem, rosterGroupDelete]
  rw [hm, hr]
  exact .nil

/-- **A roster set keeps the item the same exactly when it is `Uniform`.** -/
theorem sameItem_update (h : SameItems db s) (key : K)
    (name : Option String) (children : List Element) :
    Forall₂ SameItem (mnesia.getRoster key (mnesia.step s.1 (.set key (.update name children))))
      ((rdbms db).getRoster key ((rdbms db).step s.2 (.set key (.update name children)))) ↔
    Uniform db s (.set key (.update name children)) := by
  have hsame := h.rel key
  have hlisted : Forall₂ SameItem (s.1.lookup key).toList ((rdbms db).getRoster key s.2) := h key
  have hshort := rdbms_short_eq db key s.2
  rw [if_pos (h.readable key), Option.map_eq_some_iff] at hshort
  obtain ⟨entry, hentry, hread⟩ := hshort
  rw [mnesia_set, rdbms_set, hentry, Option.bind_some, hread, Uniform, mnesia_storedItem,
    map_joined_eq_singleton]
  show Forall₂ SameItem ((s.1.insert key _).lookup key).toList _ ↔ _
  rw [AList.lookup_insert, Option.toList_some]
  generalize hold : (rdbms db).storedItem key s.2 = stored at hsame ⊢
  generalize s.1.lookup key = held at hsame hlisted ⊢
  generalize hitem : updatedItem { stored.getD {} with groups := [] } name children = item
  have hgroups : item.groups = (groupsOf children).reverse := hitem ▸ append_nil _
  obtain ⟨hname, hsub, hask, hmsg, -⟩ := getD_of_rel hsame
  split_ifs with hwrite
  · obtain ⟨tables', htables', hmem⟩ := rdbms_updated db key s.2 hgroups hwrite.1 hwrite.2
    rw [htables', Option.getD_some, rdbms_getRoster_updated htables', forall₂_joined,
      ← exists_and_right]
    refine exists_congr fun phone => ?_
    rw [and_assoc]
    refine and_congr_right fun _ => ?_
    simp only [sameItem_iff, ← hitem, updatedItem, hname, hsub, hask, hmsg, hmem, append_nil,
      mem_append, mem_reverse, true_and]
    refine and_congr eq_comm ?_
    constructor
    · intro hall
      refine ⟨fun hempty => ((hall "").1 (.inl hempty)).2 rfl, fun group hg => ?_⟩
      exact ((hall group).1 (.inr hg)).1
    · rintro ⟨hempty, hkept⟩ group
      constructor
      · intro hg
        have hreq : group ∈ groupsOf children := hg.elim id (hkept group)
        exact ⟨hreq, fun heq => hempty (heq ▸ hreq)⟩
      · exact fun hg => .inl hg.1
  · rw [rdbms_aborted hgroups hwrite, Option.getD_none]
    cases held with
    | none =>
      rw [Option.toList_none, forall₂_nil_left_iff] at hlisted
      simp [hlisted]
    | some i =>
      rw [rdbms_getRoster_eq] at hlisted ⊢
      cases hlookup : s.2.rosterusers.lookup key with
      | none =>
        rw [hlookup] at hlisted
        cases hlisted
      | some row =>
        simp only [hlookup, Option.toList_some, forall₂_joined] at hlisted ⊢
        rw [← exists_and_right]
        refine exists_congr fun phone => ?_
        rw [and_assoc]
        refine and_congr_right fun hphone => ?_
        obtain ⟨phone', hphone', hsame'⟩ := hlisted
        obtain rfl : phone' = phone := by
          rw [hphone'] at hphone
          exact (cons.inj hphone).1
        have hgetD : name.getD i.name = i.name ↔ ∀ n, name = some n → n = i.name := by
          cases name <;> simp
        obtain ⟨hname', hsub', hask', hmsg', hxs', hsets'⟩ := hsame'
        simp only [sameItem_iff, updatedItem, Option.getD_some, ← hname', hsub', hask', hmsg',
          append_nil, mem_append, mem_reverse, ← hsets', Option.some.injEq, exists_eq_left',
          true_and, or_iff_right_iff_imp, hgetD]
        show _ ∧ (xsOf children).reverse = phoneToXml phone' ∧ _ ↔ _
        tauto

/-- **A presence keeps the item the same exactly when it is `Uniform`.** -/
theorem sameItem_presence (h : SameItems db s)
    (howned : Owned db s.2) (key : K) (direction : Direction) (type : SubPresence)
    (reason : String) :
    Forall₂ SameItem
      (mnesia.getRoster key (mnesia.step s.1 (.presence key direction type reason)))
      ((rdbms db).getRoster key
        ((rdbms db).step s.2 (.presence key direction type reason))) ↔
    Uniform db s (.presence key direction type reason) := by
  obtain ⟨hname, hsub, hask, -, hgroups⟩ := getD_of_rel (h.rel key)
  have hread : mnesia.getRosterEntryT .full key s.1 =
      some ((s.1.lookup key).map fun item => { item with xs := [] }) := rfl
  have hm := processSubscriptionT_congr (s.1.lookup key)
    ((s.1.lookup key).map fun item => { item with xs := [] })
    (by cases s.1.lookup key <;> rfl) (by cases s.1.lookup key <;> rfl) direction type reason
  have hr := processSubscriptionT_congr (s.1.lookup key) ((rdbms db).storedItem key s.2)
    hsub.symm hask.symm direction type reason
  rw [step_presence hread, step_presence (rdbms_full_eq h key), hm, hr, Uniform, mnesia_storedItem]
  cases (processSubscriptionT direction (s.1.lookup key) type reason).map Processed.write with
  | none => exact iff_of_true (h key) trivial
  | some write =>
    cases write with
    | keep => exact iff_of_true (h key) trivial
    | delete =>
      refine iff_of_true ?_ trivial
      have hnone : (rdbms db).getRoster key
          (((rdbms db).delRosterT key s.2).getD s.2) = [] := by
        rw [rdbms_getRoster_eq]
        show (match (s.2.rosterusers.erase key).lookup key with | none => [] | some row => _) = _
        rw [AList.lookup_erase]
      simp only [Option.map_some, Write.onto]
      rw [hnone]
      show Forall₂ SameItem ((s.1.erase key).lookup key).toList []
      rw [AList.lookup_erase]
      exact .nil
    | subscribe new =>
      simp only [Option.map_some, Write.onto]
      show Forall₂ SameItem ((s.1.insert key _).lookup key).toList
        ((rdbms db).getRoster key ((s.2.rosterUpsert db key _).getD s.2)) ↔ _
      rw [AList.lookup_insert, Option.toList_some, map_joined_eq_singleton]
      by_cases hfits : FitsColumns (db.owner key)
      · -- Mnesia stores the item it read, without extensions; the row gets a phone number
        have hstored (item : Item) :
            (rdbms db).getRoster key ((s.2.rosterUpsert db key item).getD s.2) =
              (joined (db.phones key)).map fun phone =>
                rowToRecord (recordToRow item) phone (s.2.getGroupsByJid key) := by
          rw [rosterUpsert, if_pos hfits, Option.getD_some, rdbms_getRoster_eq]
          simp only [AList.lookup_insert]
          rfl
        have hkeep : (((s.1.lookup key).map fun item : Item => { item with xs := [] }).getD {}).name =
              ((s.1.lookup key).getD {}).name ∧
            (((s.1.lookup key).map fun item : Item => { item with xs := [] }).getD {}).groups =
              ((s.1.lookup key).getD {}).groups ∧
            (((s.1.lookup key).map fun item : Item => { item with xs := [] }).getD {}).xs = [] := by
          cases s.1.lookup key <;> exact ⟨rfl, rfl, rfl⟩
        rw [hstored, forall₂_joined, and_iff_right hfits]
        refine exists_congr fun phone => and_congr_right fun _ => ?_
        rw [← groups_storedItem howned key]
        simp only [sameItem_iff, rowToRecord, recordToRow, hkeep, hname, hgroups, true_and,
          implies_true, and_true]
        exact eq_comm
      · have hnone : s.2.rosterusers.lookup key = none := by
          by_contra hsome
          exact hfits (howned.fits key (Option.isSome_iff_ne_none.2 hsome))
        refine iff_of_false ?_ fun huniform => hfits huniform.1
        rw [rosterUpsert, if_neg hfits, Option.getD_none, rdbms_getRoster_eq, hnone]
        rintro ⟨⟩

theorem Owned.insert (h : Owned db tables) {key : K} (hfits : FitsColumns (db.owner key))
    {row : Row} (husers : tables'.rosterusers = tables.rosterusers.insert key row)
    (hgroups : ∀ row ∈ tables'.rostergroups, row.1 = key ∨ row ∈ tables.rostergroups) :
    Owned db tables' := by
  refine ⟨fun row hrow => ?_, fun k hk => ?_⟩
  · rw [husers, lookup_insert]
    split_ifs with hk
    · rfl
    · exact h.isSome row ((hgroups row hrow).resolve_left hk)
  · rw [husers, lookup_insert] at hk
    split_ifs at hk with hk'
    · exact hk' ▸ hfits
    · exact h.fits k hk

/-- **Every command keeps the rows of groups owned**, by owners that fit. -/
theorem Owned.step (h : Owned db tables) (command : Command K) :
    Owned db ((rdbms db).step tables command) := by
  have hdel : ∀ key tables', (rdbms db).delRosterT key tables = some tables' →
      Owned db tables' := by
    rintro key _ ⟨⟩
    refine ⟨fun row hrow => ?_, fun k hk => ?_⟩
    · obtain ⟨hmem, hne⟩ := mem_filter.1 hrow
      have hlookup : (tables.rosterusers.erase key).lookup row.1 = tables.rosterusers.lookup row.1 :=
        AList.lookup_erase_ne (by simpa using hne)
      show ((tables.rosterusers.erase key).lookup row.1).isSome
      rw [hlookup]
      exact h.isSome row hmem
    · refine h.fits k ?_
      by_cases hkey : k = key
      · rw [hkey] at hk
        simp [rosterGroupDelete] at hk
      · have hlookup : (tables.rosterusers.erase key).lookup k = tables.rosterusers.lookup k :=
          AList.lookup_erase_ne hkey
        rw [← hlookup]
        exact hk
  have hgetD {o : Option (RdbmsTables K)} (ho : ∀ t', o = some t' → Owned db t') :
      Owned db (o.getD tables) := by
    cases o with
    | none => exact h
    | some t' => exact ho t' rfl
  cases command with
  | set key request =>
    refine hgetD fun tables' htables' => ?_
    obtain ⟨entry, -, htables'⟩ := Option.bind_eq_some_iff.1 htables'
    split at htables'
    · rwa [← Option.some.inj htables']
    · exact hdel key tables' htables'
    · obtain ⟨husers, hgroups, -⟩ := rdbms_updateRosterT_spec htables'
      have hfits := (rdbms_updateRosterT_isSome.1 (Option.isSome_of_eq_some htables')).1
      refine h.insert hfits husers fun row hrow => ?_
      by_cases hk : row.1 = key
      · exact .inl hk
      · have hold := (hgroups row.1 row.2).1 hrow
        rw [if_neg hk] at hold
        exact .inr hold
  | presence key direction type reason =>
    refine hgetD fun tables' htables' => ?_
    rw [processSubscription_eq] at htables'
    obtain ⟨entry, -, htables'⟩ := Option.bind_eq_some_iff.1 htables'
    split at htables'
    · cases htables'
    · rwa [← Option.some.inj htables']
    · exact hdel key tables' htables'
    · obtain ⟨hfits, rfl⟩ := rosterUpsert_eq_some htables'
      exact h.insert hfits rfl fun row hrow => .inr hrow

/-! ## Runs -/

/-- Both storages, empty. -/
def emptyBoth : MnesiaTable K × RdbmsTables K := (∅, RdbmsTables.empty)

/-- **The storages stay equal along a run exactly when its commands are `Uniform`.** -/
theorem sameItems_along_iff (db : Database K) (commands : List (Command K)) :
    (∀ before s, before <+: commands → run (stepBoth db) emptyBoth before = some s →
      SameItems db s) ↔
    Guarded (stepBoth db) (Uniform db) emptyBoth commands := by
  have hempty : Owned db (RdbmsTables.empty : RdbmsTables K) :=
    ⟨(by rintro row ⟨⟩), (by rintro key ⟨⟩)⟩
  have howned : ∀ before s, run (stepBoth db) emptyBoth before = some s → Owned db s.2 := by
    intro before s hrun
    refine run_induction (P := fun _ s => Owned db s.2) ?_ hempty hrun
    intro _ s command s' h hstep
    cases hstep
    exact h.step command
  rw [guarded_iff_holds_along (P := fun _ s => SameItems db s ∧ Owned db s.2)]
  · constructor
    · intro h before s hbefore hrun
      exact ⟨h before s hbefore hrun, howned before s hrun⟩
    · intro h before s hbefore hrun
      exact (h before s hbefore hrun).1
  · intro s command
    exact ⟨_, rfl⟩
  · rintro _ s command s' ⟨hsame, how⟩ hstep
    cases hstep
    rw [and_iff_left (how.step command), sameItems_iff hsame]
    cases command with
    | set key request =>
      cases request with
      | remove => exact iff_of_true (sameItem_remove hsame key) trivial
      | update name children => exact sameItem_update hsame key name children
    | presence key direction type reason =>
      exact sameItem_presence hsame how key direction type reason
  · exact ⟨fun key => .nil, hempty⟩

/-- **When a roster set replaces the item, and when the storages agree**: exactly when
`MnesiaReplaces` and `RdbmsReplaces`, and all along a run exactly when its commands are
`Uniform`. -/
theorem roster_storages_iff (db : Database K) :
    (∀ (table : MnesiaTable K) (key : K) (name : Option String) (children : List Element),
    Replaces ((mnesia.storedItem key table).getD {}) name children
        (mnesia.getRoster key (mnesia.step table (.set key (.update name children)))) ↔
      MnesiaReplaces (mnesia.storedItem key table) name children) ∧
    (∀ (tables : RdbmsTables K) (key : K) (name : Option String) (children : List Element),
    Replaces (((rdbms db).storedItem key tables).getD {}) name children
        ((rdbms db).getRoster key
          ((rdbms db).step tables (.set key (.update name children)))) ↔
      RdbmsReplaces db key ((rdbms db).storedItem key tables) name children) ∧
    ∀ commands : List (Command K),
    (∀ before s, before <+: commands → run (stepBoth db) emptyBoth before = some s →
      SameItems db s) ↔
    Guarded (stepBoth db) (Uniform db) emptyBoth commands :=
  ⟨mnesia_replaces_iff, rdbms_replaces_iff, sameItems_along_iff db⟩

/-- One contact of a user, without a number. -/
def exampleDatabase : Database Unit := ⟨fun _ => ("localhost", "alice"), fun _ => []⟩

/-- A contact is put in the group `Friends` and then in the group `Work` instead: Mnesia keeps
both groups, the RDBMS backend only the new one. -/
theorem mnesia_keeps_old_groups : let group (name : String) : Element := .mk "group" [] [] name
    let friends : Command Unit := .set () (.update (some "Ann") [group "Friends"])
    let work : Command Unit := .set () (.update (some "Ann") [group "Work"])
    let rdbms := rdbms exampleDatabase
    (mnesia.getRoster () (mnesia.step (mnesia.step ∅ friends) work)).map Item.groups =
        [["Work", "Friends"]] ∧
      (rdbms.getRoster () (rdbms.step (rdbms.step RdbmsTables.empty friends) work)).map
        Item.groups = [["Work"]] ∧
      ¬ Replaces ((mnesia.storedItem () (mnesia.step ∅ friends)).getD {}) (some "Ann")
        [group "Work"] (mnesia.getRoster () (mnesia.step (mnesia.step ∅ friends) work)) := by
  refine ⟨rfl, rfl, ?_⟩
  rw [mnesia_replaces_iff]
  rintro ⟨-, hnil, -⟩
  cases hnil

end MongooseIM.Roster
