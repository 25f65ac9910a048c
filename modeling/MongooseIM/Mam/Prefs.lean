import Mathlib.Data.List.AList
import Mathlib.Data.Prod.Lex
import Mathlib.Data.String.Basic
import MongooseIM.Erlang.Lists
import MongooseIM.Xmpp.Stanza

/-! # Archiving preferences

A user sets a default mode and lists of addresses whose messages are always or never archived. The
three backends `mod_mam_mnesia_prefs`, `mod_mam_rdbms_prefs` and `mod_mam_cassandra_prefs` keep them
as sets of rules, as rows with the default under the empty address, and as such rows with time
stamps. The addresses of the lists come as text. -/

namespace MongooseIM.Mam.Prefs

open Erlang Xmpp

/-- `archive_behaviour()` -/
inductive Behaviour
  | always
  | never
  | roster
  deriving DecidableEq

/-- `preference()`: the default mode and the two lists. -/
structure Preference where
  defaultMode : Behaviour
  alwaysJids : List String
  neverJids : List String
  deriving DecidableEq

namespace Mnesia

/-- An address, short for one that is bare, and shorter for a user of the own domain. -/
inductive Rule
  | localUser (luser : String)
  | bare (lserver luser : String)
  | full (lserver luser lresource : String)
  deriving DecidableEq

/-- `#mam_prefs{}` -/
structure MamPrefs where
  defaultMode : Behaviour
  alwaysRules : List Rule
  neverRules : List Rule

/-- The table `mam_prefs`, by `su_key/1`. -/
abbrev Table := AList fun _ : String × String => MamPrefs

/-- `su_key/1` -/
def suKey (j : Jid) : String × String := (j.lserver, j.luser)

/-- `rule/2` -/
def rule (arc j : Jid) : Rule :=
  if j.lresource = "" then
    if j.lserver = arc.lserver then .localUser j.luser else .bare j.lserver j.luser
  else .full j.lserver j.luser j.lresource

/-- `rule_to_jid/2` -/
def ruleToJid (arc : Jid) : Rule → Jid
  | .localUser luser => ⟨luser, arc.lserver, ""⟩
  | .full lserver luser lresource => ⟨luser, lserver, lresource⟩
  | .bare lserver luser => ⟨luser, lserver, ""⟩

/-- `rules/2`, which fails on a text that is no address -/
def rules (lib : Library) (arc : Jid) (jids : List String) : Option (List Rule) :=
  jids.mapM fun jid => (lib.fromBinary jid).map (rule arc)

/-- `match_jid/3` -/
def matchJid (arc j : Jid) (rules : List Rule) : Bool :=
  if j.lresource = "" then rule arc j ∈ rules
  else rule arc j.toBare ∈ rules || rule arc j ∈ rules

/-- `get_behaviour3/3` -/
def getBehaviour3 (prefs : MamPrefs) (loc rem : Jid) : Behaviour :=
  match prefs.defaultMode with
  | .always => if matchJid loc rem prefs.neverRules then .never else .always
  | .never => if matchJid loc rem prefs.alwaysRules then .always else .never
  | .roster =>
    if matchJid loc rem prefs.neverRules then .never
    else if matchJid loc rem prefs.alwaysRules then .always
    else .roster

/-- `get_behaviour/3` -/
def getBehaviour (defaultBehaviour : Behaviour) (loc rem : Jid) (table : Table) : Behaviour :=
  match table.lookup (suKey loc) with
  | none => defaultBehaviour
  | some prefs => getBehaviour3 prefs loc rem

/-- `set_prefs/3`, `none` for an error; a set of rules is a list without repetition. -/
def setPrefs (lib : Library) (arc : Jid) (prefs : Preference) (table : Table) : Option Table := do
  let alwaysRules ← rules lib arc prefs.alwaysJids
  let neverRules ← rules lib arc prefs.neverJids
  return table.insert (suKey arc) ⟨prefs.defaultMode, alwaysRules.dedup, neverRules.dedup⟩

/-- `jids/2` -/
def jids (arc : Jid) (rules : List Rule) : List String :=
  rules.map fun rule => (ruleToJid arc rule).toBinary

/-- `get_prefs/3` -/
def getPrefs (globalDefaultMode : Behaviour) (arc : Jid) (table : Table) : Preference :=
  match table.lookup (suKey arc) with
  | none => ⟨globalDefaultMode, [], []⟩
  | some prefs => ⟨prefs.defaultMode, jids arc prefs.alwaysRules, jids arc prefs.neverRules⟩

end Mnesia

/-- `encode_behaviour/1` -/
def encodeBehaviour : Behaviour → String
  | .roster => "R"
  | .always => "A"
  | .never => "N"

/-- `decode_behaviour/1` -/
def decodeBehaviour : String → Option Behaviour
  | "R" => some .roster
  | "A" => some .always
  | "N" => some .never
  | _ => none

/-- The rows of `prefs_to_rows/4` and of `set_prefs2/5`, before they are sorted: the address and the
behaviour. -/
def prefsToRows (prefs : Preference) : List (String × String) :=
  ("", encodeBehaviour prefs.defaultMode) ::
    (prefs.alwaysJids.map (·, encodeBehaviour .always) ++
      prefs.neverJids.map (·, encodeBehaviour .never))

/-- `decode_prefs_rows/4`, `none` for a behaviour that is not known -/
def decodePrefsRows : List (String × String) → Behaviour → List String → List String →
    Option Preference
  | [], defaultMode, alwaysJids, neverJids => some ⟨defaultMode, alwaysJids, neverJids⟩
  | (jid, behaviour) :: rows, defaultMode, alwaysJids, neverJids =>
    if jid = "" then
      (decodeBehaviour behaviour).bind fun defaultMode =>
        decodePrefsRows rows defaultMode alwaysJids neverJids
    else if behaviour = "A" then decodePrefsRows rows defaultMode (jid :: alwaysJids) neverJids
    else if behaviour = "N" then decodePrefsRows rows defaultMode alwaysJids (jid :: neverJids)
    else none

namespace Rdbms

/-- A row of `mam_config`. -/
structure Row where
  userId : ℕ
  remoteJid : String
  behaviour : String

/-- `mam_prefs_insert`: the primary key is the user and the address, which has 250 characters. -/
def insert (row : Row) (table : List Row) : Option (List Row) :=
  if row.remoteJid.length ≤ 250 ∧
      ∀ row' ∈ table, ¬ (row'.userId = row.userId ∧ row'.remoteJid = row.remoteJid) then
    some (table ++ [row])
  else none

variable (userId : ℕ)

/-- `mam_prefs_delete` -/
def delete (table : List Row) : List Row := table.filter (·.userId ≠ userId)

/-- `prefs_to_rows/4` -/
def userRows (prefs : Preference) : List Row :=
  ((prefsToRows prefs).take 1 ++ keysort toLex ((prefsToRows prefs).drop 1)).map
    fun row => ⟨userId, row.1, row.2⟩

/-- `set_prefs/3`: a transaction that deletes and inserts, `none` when it is aborted -/
def setPrefs (prefs : Preference) (table : List Row) : Option (List Row) :=
  (userRows userId prefs).foldlM (fun table row => insert row table) (delete userId table)

/-- The addresses and behaviours of a user, `mam_prefs_select`. -/
def select (table : List Row) : List (String × String) :=
  (table.filter (·.userId = userId)).map fun row => (row.remoteJid, row.behaviour)

variable (rem bareRem : String)

/-- `query_behaviour/4` -/
def queryBehaviour (table : List Row) : List (String × String) :=
  if rem = bareRem then
    (select userId table).filter fun row => row.1 = "" ∨ row.1 = rem
  else
    (select userId table).filter fun row => row.1 = "" ∨ row.1 = rem ∨ row.1 = bareRem

/-- `choose_behaviour/3`, `none` when no row fits -/
def chooseBehaviour (rows : List (String × String)) : Option String :=
  match rows.lookup rem with
  | some behaviour => some behaviour
  | none =>
    match rows.lookup bareRem with
    | some behaviour => some behaviour
    | none => rows.lookup ""

/-- `get_behaviour/3` -/
def getBehaviour (defaultBehaviour : Behaviour) (userId : ℕ) (rem : Jid) (table : List Row) :
    Option Behaviour :=
  match queryBehaviour userId rem.toBinary rem.toBare.toBinary table with
  | [] => some defaultBehaviour
  | rows => (chooseBehaviour rem.toBinary rem.toBare.toBinary rows).bind decodeBehaviour

/-- `get_prefs/3` -/
def getPrefs (globalDefaultMode : Behaviour) (userId : ℕ) (table : List Row) : Option Preference :=
  decodePrefsRows (select userId table) globalDefaultMode [] []

end Rdbms

namespace Cassandra

/-- The table `mam_config`: the behaviour of a user and an address with the time of its write, and
the times of the deletions of users. -/
structure Table where
  cells : AList (fun _ : String × String => String × ℕ) := ∅
  deleted : AList (fun _ : String => ℕ) := ∅

variable (userJid : String) (timestamp : ℕ) (table : Table)

/-- `INSERT … USING TIMESTAMP`: the latest write stays, and the larger value of two at one time. -/
def insert (row : String × String) : Table :=
  match table.cells.lookup (userJid, row.1) with
  | some (behaviour, old) =>
    if old < timestamp ∨ old = timestamp ∧ behaviour < row.2 then
      { table with cells := table.cells.insert (userJid, row.1) (row.2, timestamp) }
    else table
  | none => { table with cells := table.cells.insert (userJid, row.1) (row.2, timestamp) }

/-- `DELETE … USING TIMESTAMP` -/
def delete : Table :=
  { table with
    deleted := table.deleted.insert userJid
      (max timestamp ((table.deleted.lookup userJid).getD 0)) }

/-- Whether a write is later than the deletions of its user. -/
def isLive : Bool :=
  (table.deleted.lookup userJid).all (· < timestamp)

/-- The addresses and behaviours of a user, `get_prefs_query`. -/
def select : List (String × String) :=
  table.cells.entries.filterMap fun cell =>
    if cell.1.1 = userJid ∧ isLive userJid cell.2.2 table then some (cell.1.2, cell.2.1) else none

/-- `bare_jid/1` -/
def bareJid (j : Jid) : String := j.toBare.toBinary

/-- `set_prefs/3` at a time -/
def setPrefs (now : ℕ) (user : Jid) (prefs : Preference) (table : Table) : Table :=
  (prefsToRows prefs).foldl (insert (bareJid user) (now + 1)) (delete (bareJid user) now table)

/-- `query_behaviour/5` -/
def queryBehaviour (userJid rem bareRem : String) (table : Table) : List (String × String) :=
  if rem = bareRem then
    (select userJid table).filter fun row => row.1 = "" ∨ row.1 = bareRem
  else
    (select userJid table).filter fun row => row.1 = "" ∨ row.1 = rem ∨ row.1 = bareRem

/-- `get_behaviour/3`: the last of the rows, which are distinct, is taken. -/
def getBehaviour (defaultBehaviour : Behaviour) (loc rem : Jid) (table : Table) :
    Option Behaviour :=
  match (keysort toLex
      (queryBehaviour (bareJid loc) rem.toBinary (bareJid rem) table)).getLast? with
  | none => some defaultBehaviour
  | some row => decodeBehaviour row.2

/-- `get_prefs/3` -/
def getPrefs (globalDefaultMode : Behaviour) (user : Jid) (table : Table) : Option Preference :=
  decodePrefsRows (select (bareJid user) table) globalDefaultMode [] []

end Cassandra

end MongooseIM.Mam.Prefs
