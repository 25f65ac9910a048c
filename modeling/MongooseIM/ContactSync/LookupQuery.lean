import Mathlib
import MongooseIM.ContactSync.Agreed

/-! # The queries of the lookups

`lookup_phones/3` and `lookup_emails/3` put what the client sends into the text of a query, between
quotation marks. In a literal such a mark (the character 39) is written twice, and as the connection
sets `standard_conforming_strings` to `off`, a backslash escapes what follows it. -/

namespace MongooseIM.ContactSync

open Erlang List

/-! ## Literals -/

/-- The quotation mark. -/
abbrev mark : Char := Char.ofNat 39

/-- The character that escapes. -/
abbrev backslash : Char := Char.ofNat 92

/-- The rules of a database for literals: what may stand between two that are one, and how an escape
goes on, which takes more characters than it stands for. -/
structure Escapes where
  gap : List Char → Prop
  read : List Char → Option (List Char × List Char)
  short : ∀ {text value rest}, read text = some (value, rest) →
    value.length + rest.length ≤ text.length

variable (db : Escapes)

/-- The text between the marks of a literal, and the value of the literal. -/
inductive Body : List Char → List Char → Prop
  | nil : Body [] []
  | char {c text value} (hmark : c ≠ mark) (hslash : c ≠ backslash) (h : Body text value) :
      Body (c :: text) (c :: value)
  | mark {text value} (h : Body text value) : Body (mark :: mark :: text) (mark :: value)
  | escape {text read rest value} (hread : db.read text = some (read, rest)) (h : Body rest value) :
      Body (backslash :: text) (read ++ value)
  | continued {gap text value} (hgap : db.gap gap) (h : Body text value) :
      Body (mark :: gap ++ mark :: text) value

/-- A body between its marks. -/
def quote (body : List Char) : List Char := mark :: body ++ [mark]

variable {db}

theorem plain_cons {c : Char} {cs : List Char} :
    Plain (c :: cs) ↔ (c ≠ mark ∧ c ≠ backslash) ∧ Plain cs := by
  simp only [Plain, mem_cons, not_or, mark, backslash, ne_comm (a := c)]
  exact and_and_and_comm

/-- Plain text stands for itself. -/
theorem body_of_plain {cs : List Char} (h : Plain cs) : Body db cs cs := by
  induction cs with
  | nil => exact .nil
  | cons c cs ih =>
    obtain ⟨⟨hmark, hslash⟩, hcs⟩ := plain_cons.1 h
    exact .char hmark hslash (ih hcs)

/-- **Any other text is longer than its value.** -/
theorem Body.plain_or_lt {text value : List Char} (h : Body db text value) :
    (Plain value ∧ value = text) ∨ value.length < text.length := by
  induction h with
  | nil => exact Or.inl ⟨⟨not_mem_nil, not_mem_nil⟩, rfl⟩
  | char hmark hslash _ ih =>
    rcases ih with ⟨hplain, rfl⟩ | hlt
    · exact Or.inl ⟨plain_cons.2 ⟨⟨hmark, hslash⟩, hplain⟩, rfl⟩
    · exact Or.inr (by simpa using hlt)
  | mark _ ih =>
    right
    rcases ih with ⟨_, rfl⟩ | hlt
    · simp
    · simp only [length_cons]
      omega
  | escape hread _ ih =>
    right
    have hshort := db.short hread
    rcases ih with ⟨_, rfl⟩ | hlt
    · simp only [length_append, length_cons]
      omega
    · simp only [length_append, length_cons]
      omega
  | continued _ _ ih =>
    right
    rcases ih with ⟨_, rfl⟩ | hlt
    · simp only [cons_append, length_cons, length_append]
      omega
    · simp only [cons_append, length_cons, length_append]
      omega

/-- The room that a list of literals takes. -/
def room (l : List (List Char)) : ℕ := (l.map fun text => text.length + 3).sum

theorem room_le {texts values : List (List Char)} (h : Forall₂ (Body db) texts values) :
    room values ≤ room texts ∧ (room texts ≤ room values → ∀ value ∈ values, Plain value) := by
  induction h with
  | nil => simp [room]
  | cons hbody _ ih =>
    obtain ⟨hle, hplain⟩ := ih
    simp only [room, map_cons, sum_cons] at hle hplain ⊢
    rcases hbody.plain_or_lt with ⟨hvalue, rfl⟩ | hlt
    · refine ⟨by omega, fun hroom => forall_mem_cons.2 ⟨hvalue, hplain (by omega)⟩⟩
    · exact ⟨by omega, fun hroom => absurd hroom (by omega)⟩

theorem length_intercalate_quote {l : List (List Char)} (h : l ≠ []) :
    ([','].intercalate (l.map quote)).length + 1 = room l := by
  induction l with
  | nil => exact absurd rfl h
  | cons text l ih =>
    cases l with
    | nil => simp [room, quote]
    | cons text' l =>
      simp only [map_cons, room, sum_cons] at ih ⊢
      rw [intercalate_cons_cons, ← ih (cons_ne_nil _ _)]
      simp only [quote, length_append, length_cons, length_nil]
      omega

/-! ## The queries -/

/-- What the queries of the two modules differ in. -/
structure LookupModule extends SyncModule where
  /-- The text up to the server. -/
  select : String
  /-- The column that is compared. -/
  column : String

def lookupPhones : LookupModule where
  toSyncModule := modContactSync
  select := "SELECT phone, username FROM phone_contacts WHERE server ="
  column := "last7"

def lookupEmails (strToLower : String → String) : LookupModule where
  toSyncModule := modEmailSync strToLower
  select := "SELECT email, username FROM email_contacts WHERE server="
  column := "email"

variable (db) (m : LookupModule) (server : String) (texts : List String)

/-- The text is the SELECT of the module, with a server and a list of values. -/
def Reads (text server : String) (values : List String) : Prop :=
  ∃ body bodies, text.toList = m.select.toList ++ quote body ++ " AND ".toList ++ m.column.toList ++
      " IN (".toList ++ [','].intercalate (bodies.map quote) ++ [')'] ∧
    Body db body server.toList ∧ Forall₂ (Body db) bodies (values.map String.toList)

/-- The text of a query for some keys. -/
def query (keys : List String) : String :=
  let list := ",".intercalate (keys.map fun key => "'" ++ key ++ "'")
  m.select ++ "'" ++ server ++ "' AND " ++ m.column ++ " IN (" ++ list ++ ")"

/-- The query of `lookup_phones/3` and `lookup_emails/3`, if one is made. -/
def lookupText : Option String :=
  if texts = [] then none else some (query m server (usort (texts.map m.listKey)))

/-- The rows of a table (a server, a text and a user each) that the SELECT gives. -/
def selectRows (table : List (String × String × String)) (values : List String) :
    List (String × String) :=
  (table.filter fun row => row.1 = server ∧ m.rowKey row.2.1 ∈ values).map Prod.snd

/-- The query is the one that was asked for, and gives the rows that were asked for. -/
def Exact : Prop :=
  ∀ text, lookupText m server texts = some text → ∃ values, Reads db m text server values ∧
    (∀ value, value ∈ values ↔ value ∈ texts.map m.listKey) ∧
    ∀ table, selectRows m server table values =
      (table.filter fun row => row.1 = server ∧ m.selects texts row.2).map Prod.snd

variable {db m server texts}

theorem toList_query (keys : List String) : (query m server keys).toList =
    m.select.toList ++ quote server.toList ++ " AND ".toList ++ m.column.toList ++ " IN (".toList ++
    [','].intercalate ((keys.map String.toList).map quote) ++ [')'] := by
  simp [query, quote, String.toList_intercalate, Function.comp_def]

/-- **Values that have the keys of a query leave no room for anything but plain text.** -/
theorem plain_of_reads {keys values : List String} (hkeys : keys ≠ []) (hnodup : keys.Nodup)
    (hsub : keys ⊆ values) (h : Reads db m (query m server keys) server values) :
    Plain server.toList ∧ ∀ key ∈ keys, Plain key.toList := by
  obtain ⟨body, bodies, htext, hbody, hbodies⟩ := h
  have hvalues : values ≠ [] := by
    rintro rfl
    exact hkeys (subset_nil.1 hsub)
  have hne : bodies ≠ [] := by
    rintro rfl
    exact hvalues (by simpa using hbodies)
  have hlength := congrArg length htext
  have hkeysRoom := length_intercalate_quote (l := keys.map String.toList) (by simpa using hkeys)
  have hbodiesRoom := length_intercalate_quote hne
  rw [toList_query] at hlength
  simp only [length_append, quote, length_cons, length_nil] at hlength
  obtain ⟨l, hperm, hsublist⟩ := subperm_of_subset hnodup hsub
  have hle : room (keys.map String.toList) ≤ room (values.map String.toList) := by
    have hsum := (hsublist.map fun key => key.toList.length + 3).sum_le_sum (by simp)
    rw [(hperm.map _).sum_eq] at hsum
    simp only [room, map_map]
    exact hsum
  obtain ⟨hroom, hplain⟩ := room_le hbodies
  rcases hbody.plain_or_lt with ⟨hserver, rfl⟩ | hlt
  · refine ⟨hserver, fun key hkey => hplain (by omega) _ (mem_map_of_mem (hsub hkey))⟩
  · omega

/-- **A query is exact when the server and the texts are plain**, and only then. -/
theorem exact_iff :
    Exact db m server texts ↔ texts = [] ∨ (Plain server.toList ∧ m.Quotes texts) := by
  by_cases hnil : texts = []
  · subst hnil
    simp [Exact, lookupText]
  have hkeys (value : String) : value ∈ usort (texts.map m.listKey) ↔
      value ∈ texts.map m.listKey := mem_usort
  simp only [Exact, lookupText, if_neg hnil, Option.some.injEq, forall_eq', or_iff_right hnil]
  constructor
  · rintro ⟨values, hreads, hvalues, -⟩
    have hne : usort (texts.map m.listKey) ≠ [] := by
      obtain ⟨text, htext⟩ := exists_mem_of_ne_nil _ hnil
      exact ne_nil_of_mem ((hkeys _).2 (mem_map_of_mem htext))
    obtain ⟨hserver, hplain⟩ := plain_of_reads hne (nodup_usort _)
      (fun key hkey => (hvalues key).2 ((hkeys key).1 hkey)) hreads
    exact ⟨hserver, fun text htext => hplain _ ((hkeys _).2 (mem_map_of_mem htext))⟩
  · rintro ⟨hserver, hquotes⟩
    refine ⟨_, ⟨_, _, toList_query _, body_of_plain hserver, ?_⟩, hkeys, fun table => ?_⟩
    · refine forall₂_same.2 fun key hkey => body_of_plain ?_
      obtain ⟨value, hvalue, rfl⟩ := mem_map.1 hkey
      obtain ⟨text, htext, rfl⟩ := mem_map.1 ((hkeys value).1 hvalue)
      exact hquotes text htext
    · simp only [selectRows, hkeys, SyncModule.selects, decide_eq_true_eq]

/-- A backslash before a letter or a mark; the other escapes of the database are left out. -/
def letterEscapes : Escapes where
  gap gap := '\n' ∈ gap ∧ ∀ c ∈ gap, c.isWhitespace
  read
    | [] => none
    | c :: rest =>
      if c.isDigit ∨ c ∈ ['b', 'f', 'n', 'r', 't', 'x', 'u', 'U'] then none else some ([c], rest)
  short {text value rest} h := by
    cases text with
    | nil => cases h
    | cons c text =>
      simp only [Option.ite_none_left_eq_some, Option.some.injEq, Prod.mk.injEq] at h
      obtain ⟨_, rfl, rfl⟩ := h
      simp [add_comm]

end MongooseIM.ContactSync
