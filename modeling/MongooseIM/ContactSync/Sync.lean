import Mathlib.Data.List.Perm.Basic
import MongooseIM.Erlang.Lists
import MongooseIM.Roster.Api
import MongooseIM.Transition.Run

/-! # Contact sync

A client sends the phone numbers of its contacts to `mod_contact_sync`, or their e-mail addresses to
`mod_email_sync`, and the users that registered them come into the roster: with a request, or with a
mutual subscription where the contact has an item for the caller already. The two modules have the
same code, and differ in how they compare what is sent with what is registered. The rosters are those
of either backend. -/

namespace MongooseIM.ContactSync

open Roster Transition Xmpp

/-- What the two modules differ in. -/
structure SyncModule where
  element : String
  normalize : String → String
  rowKey : String → String
  listKey : String → String

/-- `last7/1`: the last seven digits, or all if there are fewer -/
def last7 (phone : String) : String :=
  let digits := phone.toList.filter Char.isDigit
  String.ofList (digits.drop (digits.length - 7))

def modContactSync : SyncModule where
  element := "phone"
  normalize := id
  rowKey := last7
  listKey := last7

/-- `mod_email_sync`, from `jid:str_tolower/1` -/
def modEmailSync (strToLower : String → String) : SyncModule where
  element := "email"
  normalize := strToLower
  rowKey := id
  listKey := strToLower

/-- The users of a domain, and the rows of `phone_contacts` or `email_contacts`: a number and the
user that registered it. -/
structure Directory where
  users : List String
  rows : List (String × String)
  registered : ∀ row ∈ rows, row.2 ∈ users

/-- An IQ with a list of numbers, the number of the caller (nothing is the empty text), and the rows
in the order the database gives them. -/
structure Request where
  caller : String
  callerNumber : String
  subEl : Element
  rows : List (String × String)

/-- A text that can stand between the marks of a literal as it is: no mark and no backslash, since
`standard_conforming_strings` is `off`. -/
def Plain (text : List Char) : Prop := Char.ofNat 39 ∉ text ∧ Char.ofNat 92 ∉ text

instance : DecidablePred Plain := fun _ => inferInstanceAs (Decidable (_ ∧ _))

namespace SyncModule

variable (m : SyncModule)

/-- `extract_phones/1`, `extract_emails/1` -/
def extract (subEl : Element) : List String :=
  subEl.children.filterMap fun child =>
    if child.name = m.element ∧ child.cdata ≠ "" then some (m.normalize child.cdata) else none

/-- Whether the query of `lookup_phones/3` or `lookup_emails/3` asks for a row. -/
def selects (texts : List String) (row : String × String) : Bool :=
  m.rowKey row.1 ∈ texts.map m.listKey

/-- The texts stand in the query as they are: between the marks of a literal. -/
def Quotes (texts : List String) : Prop :=
  ∀ text ∈ texts, Plain (m.listKey text).toList

instance (m : SyncModule) (texts : List String) : Decidable (m.Quotes texts) :=
  inferInstanceAs (Decidable (∀ _ ∈ _, _))

end SyncModule

/-! ## Rosters -/

/-- The backends of `mod_roster`, and what the database has to do with the owner and the contact of
an item. -/
inductive RosterBackend
  | mnesia
  | rdbms (db : Database (String × String))

namespace RosterBackend

/-- The tables of a backend. -/
def Tables : RosterBackend → Type
  | mnesia => MnesiaTable (String × String)
  | rdbms _ => RdbmsTables (String × String)

/-- The callbacks of a backend. -/
def backend : (r : RosterBackend) → Backend (String × String) r.Tables
  | mnesia => Roster.mnesia
  | rdbms db => Roster.rdbms db

/-- Rosters without items. -/
def empty : (r : RosterBackend) → r.Tables
  | mnesia => (∅ : MnesiaTable (String × String))
  | rdbms _ => RdbmsTables.empty

/-- An item can be read and written: the relational backend has a contact with one number at most,
and an owner whose name and server fit. -/
def Readable : RosterBackend → String × String → Prop
  | mnesia, _ => True
  | rdbms db, key => db.Readable key

/-- **A backend is reliable** for items that can be read and written. -/
theorem reliable : (r : RosterBackend) → r.backend.Reliable r.Readable
  | mnesia => mnesia_reliable
  | rdbms db => rdbms_reliable db

theorem contact_empty (r : RosterBackend) (key : String × String) :
    r.backend.contact r.empty key = none := by
  cases r <;> rfl

end RosterBackend

/-- The groups that both users get. -/
def groups : List String := ["Contacts"]

section Sync

variable {T : Type*} (b : Backend (String × String) T) (caller contact : String)

/-- `has_roster_entry/3`; `none` is a crash. -/
def hasRosterEntry (rosters : T) : Option Bool :=
  (getRosterEntry b caller contact rosters).map Option.isSome

/-- `has_both_subscription/3`; `none` is a crash. -/
def hasBothSubscription (rosters : T) : Option Bool :=
  (getRosterEntry b caller contact rosters).map fun entry => entry.any (·.subscription = .both)

variable (users : List String)

/-- `add_one_way/3` -/
def addOneWay (caller contact contactNick : String) (rosters : T) : T :=
  match addContact b users caller contact contactNick groups rosters with
  | some rosters => subscription b users caller contact .subscribe rosters
  | none => rosters

variable (caller callerNick contact contactNick : String)

/-- `make_mutual/4` -/
def makeMutual (rosters : T) : T :=
  subscribeBoth b users (caller, contactNick, groups) (contact, callerNick, groups) rosters

/-- `sync_roster_entry/5`; `none` is a crash, before which nothing is changed. -/
def syncRosterEntry (rosters : T) : Option T :=
  (hasBothSubscription b caller contact rosters).bind fun both =>
    if both then some rosters
    else
      (hasRosterEntry b contact caller rosters).map fun known =>
        if known then makeMutual b users caller callerNick contact contactNick rosters
        else addOneWay b users caller contact contactNick rosters

/-- A match of a request: the caller and the contact, and how they are to be called. -/
structure Match where
  caller : String
  callerNick : String
  contact : String
  contactNick : String
  deriving DecidableEq

/-- The matches of `add_matches_to_roster/5`: the caller himself is no match. -/
def Request.matchesOf (e : Request) : List Match :=
  (e.rows.filter fun row => row.2 ≠ e.caller).map fun row =>
    { caller := e.caller
      callerNick := if e.callerNumber = "" then e.caller else e.callerNumber
      contact := row.2
      contactNick := if row.1 = "" then row.2 else row.1 }

/-- One match. -/
def syncMatch (rosters : T) (m : Match) : Option T :=
  syncRosterEntry b users m.caller m.callerNick m.contact m.contactNick rosters

/-- `add_matches_to_roster/5`: a crash leaves what is done, and the other matches. -/
def addMatchesToRoster : List Match → T → T
  | [], rosters => rosters
  | m :: ms, rosters =>
    match syncMatch b users rosters m with
    | none => rosters
    | some rosters => addMatchesToRoster ms rosters

end Sync

/-- `user_send_iq/3` with a list of numbers, where `add_to_roster` is set and the database gives the
rows that the query asks for. -/
def step (r : RosterBackend) (m : SyncModule) (d : Directory) (rosters : r.Tables) (e : Request) :
    Option r.Tables :=
  if e.caller ∈ d.users ∧ (e.callerNumber = "" ∨ (e.callerNumber, e.caller) ∈ d.rows) ∧
      (m.Quotes (m.extract e.subEl) →
        e.rows.Perm (d.rows.filter (m.selects (m.extract e.subEl)))) then
    some (if m.extract e.subEl = [] then rosters
      else addMatchesToRoster r.backend d.users e.matchesOf rosters)
  else none

end MongooseIM.ContactSync
