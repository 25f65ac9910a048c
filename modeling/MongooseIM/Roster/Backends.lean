import MongooseIM.Erlang.Maps
import MongooseIM.Relational.Columns
import MongooseIM.Roster.Item

/-! # The storages of the roster

`mod_roster` reads an item, changes it and writes it back through one of two backends. -/

namespace MongooseIM.Roster

open Erlang Relational Xmpp

/-- `entry_format()` -/
inductive Format
  | full | short

/-- The callbacks that `mod_roster` uses on one item in a transaction; `none` for one that
aborts. -/
structure Backend (K T : Type*) where
  getRosterEntryT : Format → K → T → Option (Option Item)
  rosterSubscribeT : K → Item → T → Option T
  updateRosterT : K → Item → T → Option T
  delRosterT : K → T → Option T
  /-- The items that `get_roster/3` lists for the contact. -/
  getRoster : K → T → List Item

/-- An `<item/>` of a roster set: one with `subscription='remove'`, or the attribute `name` and the
child elements. -/
inductive SetRequest
  | remove
  | update (name : Option String) (children : List Element)

variable (item : Item)

/-- `maybe_add_name/2` -/
def maybeAddName : Option String → Item
  | some name => { item with name := name }
  | none => item

/-- `process_item_els/2` -/
def processItemEls (item : Item) : List Element → Item
  | [] => item
  | el :: els =>
    if el.name = "group" then processItemEls { item with groups := el.cdata :: item.groups } els
    else if (el.attr? "xmlns").getD "" = "" then processItemEls item els
    else processItemEls { item with xs := el :: item.xs } els

/-- `MakeItem2` of `do_process_item_set/5`; `none` stands for the item with `remove`. -/
def makeItem : SetRequest → Option Item
  | .remove => none
  | .update name children => some (processItemEls (maybeAddName item name) children)

/-- A command on the item under a key. -/
inductive Command (K : Type*)
  | set (key : K) (request : SetRequest)
  | presence (key : K) (direction : Direction) (type : SubPresence) (reason : String)

/-- The key of a command. -/
def Command.key {K : Type*} : Command K → K
  | .set key _ => key
  | .presence key _ _ _ => key

namespace Backend

variable {K T : Type*} (b : Backend K T)

/-- `set_roster_item_t/5` -/
def setRosterItemT (key : K) (request : SetRequest) (tables : T) : Option T :=
  (b.getRosterEntryT .short key tables).bind fun initialItem =>
    match initialItem, makeItem (initialItem.getD {}) request with
    | none, none => some tables
    | some _, none => b.delRosterT key tables
    | _, some item => b.updateRosterT key item tables

/-- `process_subscription/6`, as far as the tables go. -/
def processSubscription (key : K) (direction : Direction) (type : SubPresence)
    (reason : String) (tables : T) : Option T :=
  (b.getRosterEntryT .full key tables).bind fun entry =>
    (processSubscriptionT direction entry type reason).bind fun p =>
      match p.write with
      | .keep => some tables
      | .delete => b.delRosterT key tables
      | .subscribe item => b.rosterSubscribeT key item tables

/-- The item under a key, the first that is listed. -/
def storedItem (key : K) (tables : T) : Option Item := (b.getRoster key tables).head?

/-- What a command leaves in the tables: an aborted transaction leaves them as they are. -/
def step (tables : T) : Command K → T
  | .set key request => (b.setRosterItemT key request tables).getD tables
  | .presence key direction type reason =>
    (b.processSubscription key direction type reason tables).getD tables

end Backend

variable {K : Type*} [DecidableEq K]

/-- The table `roster`, by `usj`. -/
abbrev MnesiaTable (K : Type*) := AList fun _ : K => Item

/-- `mod_roster_mnesia` -/
def mnesia : Backend K (MnesiaTable K) where
  getRosterEntryT _ key table := some ((table.lookup key).map fun item => { item with xs := [] })
  rosterSubscribeT key item table := some (table.insert key item)
  updateRosterT key item table := some (table.insert key item)
  delRosterT key table := some (table.erase key)
  getRoster key table := (table.lookup key).toList

/-- A row of `rosterusers`; the values stand for their letters. -/
structure Row where
  nick : String
  subscription : Subscription
  ask : Ask
  askmessage : String

/-- The two tables. -/
structure RdbmsTables (K : Type*) where
  /-- `rosterusers`, by its primary key. -/
  rosterusers : AList fun _ : K => Row
  rostergroups : List (K × String)
  /-- The primary key of `rostergroups`. -/
  nodup : rostergroups.Nodup

/-- What the database has to do with a key. -/
structure Database (K : Type*) where
  /-- `server` and `username`, as they stand in both tables. -/
  owner : K → String × String
  /-- The numbers of the contact in `phone_contacts`. -/
  phones : K → List String

/-- `LEFT JOIN phone_contacts`: one row for each number of the contact, or one without a number. -/
def joined (phones : List String) : List (Option String) :=
  if phones = [] then [none] else phones.map some

namespace RdbmsTables

/-- No items. -/
def empty : RdbmsTables K := ⟨∅, [], List.nodup_nil⟩

omit [DecidableEq K] in
/-- `record_to_row/1` -/
def recordToRow : Row := ⟨item.name, item.subscription, item.ask, item.askmessage⟩

variable (db : Database K) (key : K)

/-- `roster_upsert/2` -/
def rosterUpsert (item : Item) (tables : RdbmsTables K) : Option (RdbmsTables K) :=
  if FitsColumns (db.owner key) then
    some { tables with rosterusers := tables.rosterusers.insert key (recordToRow item) }
  else none

variable (tables : RdbmsTables K)

/-- `roster_get_by_jid`: the row with each number of the contact, or with none. -/
def rosterGetByJid : List (Row × Option String) :=
  match tables.rosterusers.lookup key with
  | none => []
  | some row => (joined (db.phones key)).map fun phone => (row, phone)

/-- `roster_group_delete_by_jid` -/
def rosterGroupDelete : RdbmsTables K :=
  { tables with
    rostergroups := tables.rostergroups.filter fun row => row.1 ≠ key
    nodup := tables.nodup.filter _ }

/-- `roster_group_insert`, which the primary key may refuse. -/
def rosterGroupInsert (group : String) : Option (RdbmsTables K) :=
  if h : (key, group) ∈ tables.rostergroups then none
  else some { tables with
    rostergroups := (key, group) :: tables.rostergroups
    nodup := List.nodup_cons.2 ⟨h, tables.nodup⟩ }

/-- `get_groups_by_jid/4` -/
def getGroupsByJid : List String :=
  (tables.rostergroups.filter fun row => row.1 = key).map Prod.snd

end RdbmsTables

/-- `groups_to_rows/1`, the groups of the rows. -/
def groupsToRows : List String :=
  item.groups.foldl (fun acc group => if group = "" then acc else group :: acc) []

/-- `phone_to_xml/1` -/
def phoneToXml : Option String → List Element
  | none => []
  | some phone =>
    if phone = "" then []
    else [.mk "phone" [("xmlns", "wingtrill:roster:phone")] [] phone]

/-- `row_to_record/4` -/
def rowToRecord (row : Row) (phone : Option String) (groups : List String) : Item where
  name := row.nick
  subscription := row.subscription
  ask := row.ask
  groups := groups
  askmessage := row.askmessage
  xs := phoneToXml phone

/-- `mod_roster_rdbms` -/
def rdbms (db : Database K) : Backend K (RdbmsTables K) where
  getRosterEntryT format key tables :=
    match tables.rosterGetByJid db key with
    | [] => some none
    | [(row, phone)] => some (some (rowToRecord row phone
      (match format with
        | .full => tables.getGroupsByJid key
        | .short => [])))
    -- no clause for several rows
    | _ => none
  rosterSubscribeT key item tables := tables.rosterUpsert db key item
  updateRosterT key item tables :=
    (tables.rosterUpsert db key item).bind fun tables =>
      (groupsToRows item).foldlM (RdbmsTables.rosterGroupInsert key) (tables.rosterGroupDelete key)
  delRosterT key tables := some
    (RdbmsTables.rosterGroupDelete key
      { tables with rosterusers := tables.rosterusers.erase key })
  getRoster key tables := (tables.rosterGetByJid db key).map fun row =>
    rowToRecord row.1 row.2 (tables.getGroupsByJid key)

variable (children : List Element)

/-- The groups of the child elements. -/
def groupsOf : List String :=
  (children.filter fun el => el.name = "group").map Element.cdata

/-- The other child elements with a namespace. -/
def xsOf : List Element :=
  children.filter fun el => el.name ≠ "group" ∧ (el.attr? "xmlns").getD "" ≠ ""

/-- **`process_item_els/2` puts the groups and the extensions of the request in front** of those
that the item has. -/
theorem processItemEls_eq (children : List Element) : processItemEls item children = { item with
      groups := (groupsOf children).reverse ++ item.groups
      xs := (xsOf children).reverse ++ item.xs } := by
  induction children generalizing item with
  | nil => rfl
  | cons el els ih =>
    rw [processItemEls]
    split_ifs with hgroup hns
    · rw [ih]
      simp [groupsOf, xsOf, hgroup]
    · rw [ih]
      simp [groupsOf, xsOf, hgroup, hns]
    · rw [ih]
      simp [groupsOf, xsOf, hgroup, hns]

theorem groupsToRows_eq :
    groupsToRows item = (item.groups.filter fun group => group ≠ "").reverse := by
  have haux : ∀ (groups acc : List String),
      groups.foldl (fun acc group => if group = "" then acc else group :: acc) acc =
        (groups.filter fun group => group ≠ "").reverse ++ acc := by
    intro groups
    induction groups with
    | nil => intro acc; rfl
    | cons group groups ih =>
      intro acc
      rw [List.foldl_cons, ih]
      by_cases hg : group = "" <;> simp [hg]
  rw [groupsToRows, haux, List.append_nil]

end MongooseIM.Roster
