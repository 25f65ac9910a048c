import Mathlib.Data.Bool.Basic
import Mathlib.Data.Char
import Mathlib.Data.Prod.Lex
import Mathlib.Data.String.Basic
import MongooseIM.Privacy.Serialization
import MongooseIM.Relational.Columns

/-! # Where privacy lists are stored

Mnesia keeps the lists of a user in one record. The RDBMS keeps a row for each item, under the id of
the list and the order of the item, and changes only the rows that differ; a statement that fails
aborts the transaction. -/

namespace MongooseIM.Privacy

open Erlang Relational List

variable {D J : Type}

/-! ## Rows -/

/-- A row of `privacy_list_data`, less the id. -/
structure DataRow where
  ord : ℕ
  t : Char
  value : String
  action : Char
  matchAll : Bool
  matchIq : Bool
  matchMessage : Bool
  matchPresenceIn : Bool
  matchPresenceOut : Bool
  deriving DecidableEq

/-- What `lists:sort/1` compares of a row. -/
def DataRow.term (row : DataRow) :
    ℕ ×ₗ Char ×ₗ String ×ₗ Char ×ₗ Bool ×ₗ Bool ×ₗ Bool ×ₗ Bool ×ₗ Bool :=
  toLex (row.ord, toLex (row.t, toLex (row.value, toLex (row.action, toLex (row.matchAll,
    toLex (row.matchIq, toLex (row.matchMessage, toLex (row.matchPresenceIn,
      row.matchPresenceOut))))))))

/-- `encode_type/1` -/
def encodeType : ItemType → Char
  | .none => 'n'
  | .jid => 'j'
  | .group => 'g'
  | .subscription => 's'

/-- `decode_type/1`; `none` is a `function_clause`. -/
def decodeType (t : Char) : Option ItemType :=
  if t = 'n' then some .none
  else if t = 'j' then some .jid
  else if t = 'g' then some .group
  else if t = 's' then some .subscription
  else none

/-- `encode_action/1` -/
def encodeAction : Action → Char
  | .allow => 'a'
  | .deny => 'd'
  | .block => 'b'

/-- `decode_action/1`; `none` is a `function_clause`. -/
def decodeAction (action : Char) : Option Action :=
  if action = 'a' then some .allow
  else if action = 'd' then some .deny
  else if action = 'b' then some .block
  else none

variable (lib : JidLib D J)

/-- `encode_value/2`; `none` is an error. -/
def encodeValue : ItemType → Value J → Option String
  | .none, _ => some ""
  | .jid, value => value.printed lib
  | .group, .group name => some name
  | .subscription, .subscription subscription => some (subscriptionToBinary subscription)
  | _, _ => none

/-- `decode_value/2`; `none` is an error. -/
def decodeValue : ItemType → String → Option (Value J)
  | .none, _ => some .none
  | .jid, binJid => (lib.fromBinary binJid).map fun jid => .jid (lib.toLower jid)
  | .group, group => some (.group group)
  | .subscription, extSub => (binaryToSubscription extSub).map .subscription

/-- `item_to_raw/1`; `none` is an error. -/
def itemToRaw (item : Item J) : Option DataRow := do
  let ord ← item.order
  let value ← encodeValue lib item.type item.value
  return {
    ord := ord
    t := encodeType item.type
    value := value
    action := encodeAction item.action
    matchAll := item.matchAll
    matchIq := item.matchIq
    matchMessage := item.matchMessage
    matchPresenceIn := item.matchPresenceIn
    matchPresenceOut := item.matchPresenceOut }

/-- `raw_to_item/1`; `none` is an error. -/
def rawToItem (row : DataRow) : Option (Item J) := do
  let type ← decodeType row.t
  let value ← decodeValue lib type row.value
  let action ← decodeAction row.action
  return {
    type := type
    value := value
    action := action
    order := some row.ord
    matchAll := row.matchAll
    matchIq := row.matchIq
    matchMessage := row.matchMessage
    matchPresenceIn := row.matchPresenceIn
    matchPresenceOut := row.matchPresenceOut }

/-! ## Statements -/

/-- The statements of `diff_rows/4`. -/
inductive DiffOp
  /-- `privacy_data_update` -/
  | update (row : DataRow)
  /-- `privacy_data_delete` -/
  | delete (ord : ℕ)
  /-- `privacy_data_insert` -/
  | insert (row : DataRow)

/-- A statement on the rows of a list, whose primary key is the order, a number of 32 bits; `none`
if it fails. -/
def DiffOp.execute (rows : List DataRow) : DiffOp → Option (List DataRow)
  | .update row => some (rows.map fun old => if old.ord = row.ord then row else old)
  | .delete ord => some (rows.filter fun old => old.ord ≠ ord)
  | .insert row =>
    if Int32 row.ord ∧ row.ord ∉ rows.map DataRow.ord then some (row :: rows) else none

/-- `diff_rows/4` -/
def diffRows : List DataRow → List DataRow → List DiffOp → List DiffOp
  | new :: newT, old :: oldT, ops =>
    if new = old then diffRows newT oldT ops
    else if new.ord = old.ord then diffRows newT oldT (.update new :: ops)
    else if old.ord < new.ord then diffRows (new :: newT) oldT (.delete old.ord :: ops)
    else diffRows newT (old :: oldT) (.insert new :: ops)
  | [], old :: oldT, ops => diffRows [] oldT (.delete old.ord :: ops)
  | new :: newT, [], ops => diffRows newT [] (.insert new :: ops)
  | [], [], ops => ops
termination_by new old => new.length + old.length

/-- `privacy_data_get_by_id` -/
def selectRows (rows : List DataRow) : List DataRow := keysort DataRow.ord rows

/-- `replace_data_rows/3`; `none` if a statement fails. -/
def replaceDataRows (rows old : List DataRow) : Option (List DataRow) :=
  if rows = [] then some []
  else
    let new := keysort DataRow.term rows
    let old' := keysort DataRow.term (selectRows old)
    (diffRows new old' []).foldlM DiffOp.execute old

/-! ## The two backends -/

/-- `mod_privacy_backend`, for a user. -/
structure PrivacyBackend (J : Type) where
  Store : Type
  /-- Nothing is stored. -/
  empty : Store
  /-- The name of the default list. -/
  default : Store → Option String
  /-- `get_privacy_list/4`; a list that is not there has no items. -/
  storedList : String → Store → List (Item J)
  /-- `set_default_list/4`; `none` is `{error, not_found}`. -/
  setDefaultList : String → Store → Option Store
  /-- `forget_default_list/3` -/
  forgetDefaultList : Store → Store
  /-- `remove_privacy_list/4`; `none` is `{error, conflict}`. -/
  removePrivacyList : String → Store → Option Store
  /-- `replace_privacy_list/5`; `none` when it fails. -/
  replacePrivacyList : String → List (Item J) → Store → Option Store

/-- `mod_privacy_mnesia` -/
@[reducible] def mnesia : PrivacyBackend J where
  Store := Option (PrivacyRecord (Value J))
  empty := none
  default privacy := privacy.bind PrivacyRecord.default
  storedList name privacy :=
    match getPrivacyList name privacy with
    | .ok list => list
    | .error _ => []
  setDefaultList name privacy :=
    privacy.bind fun privacy => (setDefaultList name privacy).toOption.map some
  forgetDefaultList privacy := privacy.map fun privacy => { privacy with default := none }
  removePrivacyList name
    | none => some none
    | some privacy =>
      if privacy.default = some name then none
      else some (some { privacy with lists := keydelete name privacy.lists })
  replacePrivacyList name list privacy := some (some (Privacy.replacePrivacyList name list privacy))

/-- The rows of a user in `privacy_default_list` and `privacy_list`, each list with the rows of its
id in `privacy_list_data`. -/
structure PrivacyTables where
  default : Option String := none
  lists : List (String × List DataRow) := []

/-- The rows of a list in `replace_privacy_list/5`; one that is not there is inserted, with columns of
250 characters for the user and the server. -/
def listRows (us : String × String) (name : String) (tables : PrivacyTables) :
    Option (List DataRow) :=
  match tables.lists.lookup name with
  | some old => some old
  | none => if FitsColumns us then some [] else none

/-- `mod_privacy_rdbms` -/
@[reducible] def rdbms (us : String × String) : PrivacyBackend J where
  Store := PrivacyTables
  empty := {}
  default tables := tables.default
  storedList name tables :=
    match tables.lists.lookup name with
    | some rows => ((selectRows rows).mapM (rawToItem lib)).getD []
    | none => []
  setDefaultList name tables :=
    if name ∈ tables.lists.map Prod.fst then some { tables with default := some name } else none
  forgetDefaultList tables := { tables with default := none }
  removePrivacyList name tables :=
    if tables.default = some name then none
    else some { tables with lists := keydelete name tables.lists }
  replacePrivacyList name list tables := do
    let rows ← list.mapM (itemToRaw lib)
    let old ← listRows us name tables
    let new ← replaceDataRows rows old
    return { tables with lists := (name, new) :: keydelete name tables.lists }

/-! ## Items and rows -/

variable {lib : JidLib D J} {item : Item J}

/-- A value of its type is read from its column. -/
theorem decodeValue_encodeValue {type : ItemType} {value : Value J} (h : Fits lib type value) :
    ∃ column, encodeValue lib type value = some column ∧
    decodeValue lib type column = some value := by
  cases type with
  | none =>
    cases value with
    | none => exact ⟨"", rfl, rfl⟩
    | _ => exact absurd h id
  | jid =>
    cases value with
    | jid j =>
      obtain ⟨s, jid, hparse, rfl⟩ := h
      obtain ⟨jid', hjid', hlower⟩ :=
        Option.map_eq_some_iff.1 (lib.fromBinary_toBinary s jid hparse)
      refine ⟨lib.toBinary (lib.toLower jid), rfl, ?_⟩
      rw [decodeValue, hjid', Option.map_some, hlower]
    | _ => exact absurd h id
  | group =>
    cases value with
    | group name => exact ⟨name, rfl, rfl⟩
    | _ => exact absurd h id
  | subscription =>
    cases value with
    | subscription subscription =>
      refine ⟨subscriptionToBinary subscription, rfl, ?_⟩
      cases subscription <;> rfl
    | _ => exact absurd h id

/-- **An item is read from its row.** -/
theorem rawToItem_itemToRaw (h : Stored lib item) : ∃ row, itemToRaw lib item = some row ∧
    item.order = some row.ord ∧ rawToItem lib row = some item := by
  obtain ⟨ord, hord⟩ := Option.isSome_iff_exists.1 h.ordered
  obtain ⟨column, hencode, hdecode⟩ := decodeValue_encodeValue h.fits
  have htype (type : ItemType) : decodeType (encodeType type) = some type := by
    cases type <;> rfl
  have haction (action : Action) : decodeAction (encodeAction action) = some action := by
    cases action <;> rfl
  refine ⟨_, by rw [itemToRaw, hord, hencode]; rfl, hord, ?_⟩
  simp [rawToItem, htype, hdecode, haction, ← hord]

variable {list : List (Item J)} {rows : List DataRow}

theorem exists_itemToRaw (h : ∀ item ∈ list, Stored lib item) : ∃ rows,
    list.mapM (itemToRaw lib) = some rows ∧ list.map ListItem.order = rows.map (some ∘ DataRow.ord) ∧
    rows.mapM (rawToItem lib) = some list := by
  induction list with
  | nil => exact ⟨[], rfl, rfl, rfl⟩
  | cons item list ih =>
    obtain ⟨hitem, hlist⟩ := forall_mem_cons.1 h
    obtain ⟨row, hrow, hord, hread⟩ := rawToItem_itemToRaw hitem
    obtain ⟨rows, hrows, hords, hreads⟩ := ih hlist
    refine ⟨row :: rows, ?_, ?_, ?_⟩
    · simp [mapM_cons, hrow, hrows]
    · rw [map_cons, map_cons, hord, hords]
      rfl
    · simp [mapM_cons, hread, hreads]

/-! ## The difference of two lists of rows -/

theorem ord_le_of_term_le {a b : DataRow} (h : a.term ≤ b.term) : a.ord ≤ b.ord := by
  rcases Prod.Lex.toLex_le_toLex.1 h with hlt | ⟨heq, -⟩
  · exact hlt.le
  · exact heq.le

/-- The new rows can be written beside others. -/
structure Writable (new others : List DataRow) : Prop where
  increasing : new.Pairwise fun a b => a.ord < b.ord
  apart : ∀ row ∈ new, ∀ other ∈ others, row.ord ≠ other.ord
  fits : ∀ row ∈ new, Int32 row.ord

variable {new old others : List DataRow} {row : DataRow}

theorem writable_nil : Writable [] others := ⟨.nil, by simp, by simp⟩

theorem writable_cons : Writable (row :: new) others ↔ (∀ r ∈ new, row.ord < r.ord) ∧
    (∀ other ∈ others, row.ord ≠ other.ord) ∧ Int32 row.ord ∧ Writable new others := by
  constructor
  · rintro ⟨hincreasing, hapart, hfits⟩
    rw [pairwise_cons] at hincreasing
    rw [forall_mem_cons] at hapart hfits
    exact ⟨hincreasing.1, hapart.1, hfits.1, hincreasing.2, hapart.2, hfits.2⟩
  · rintro ⟨hlt, hrow, hfit, hincreasing, hapart, hfits⟩
    exact ⟨pairwise_cons.2 ⟨hlt, hincreasing⟩, forall_mem_cons.2 ⟨hrow, hapart⟩,
      forall_mem_cons.2 ⟨hfit, hfits⟩⟩

/-- One row more beside which the new ones are written. -/
theorem writable_beside :
    Writable new (row :: others) ↔ (∀ r ∈ new, r.ord ≠ row.ord) ∧ Writable new others := by
  constructor
  · rintro ⟨hincreasing, hapart, hfits⟩
    refine ⟨fun r hr => hapart r hr row mem_cons_self, hincreasing, fun r hr other hother => ?_,
      hfits⟩
    exact hapart r hr other (mem_cons_of_mem row hother)
  · rintro ⟨hrow, hincreasing, hapart, hfits⟩
    exact ⟨hincreasing, fun r hr => forall_mem_cons.2 ⟨hrow r hr, hapart r hr⟩, hfits⟩

/-- A new row in the place of the old one of its order: the others are written beside that one. -/
theorem writable_replace {row' : DataRow} (hle : ∀ r ∈ new, row.ord ≤ r.ord)
    (heq : row.ord = row'.ord) (hothers : ∀ other ∈ others, row'.ord ≠ other.ord)
    (hfits : Int32 row'.ord) : Writable (row :: new) others ↔ Writable new (row' :: others) := by
  rw [writable_cons, writable_beside, heq, and_iff_right hothers, and_iff_right hfits]
  refine and_congr_left fun _ => forall₂_congr fun r hr => ?_
  have := hle r hr
  omega

/-- What is left of a run once the statements for the new rows are executed: they are written beside
the others, and the statements `ops` follow; or one has failed. -/
structure Outcome (new others : List DataRow) (ops : List DiffOp)
    (result : Option (List DataRow)) : Prop where
  written : Writable new others → ∃ rows, rows.Perm (new ++ others) ∧
    result = ops.foldlM DiffOp.execute rows
  failed : ¬ Writable new others → result = none

variable {new' others' : List DataRow} {op : DiffOp} {ops : List DiffOp}
  {result : Option (List DataRow)}

/-- One more statement is executed. -/
theorem Outcome.execute (h : Outcome new' others' (op :: ops) result)
    (hw : Writable new others → Writable new' others')
    (hop : ∀ rows, Writable new' others' → rows.Perm (new' ++ others') →
    (Writable new others → ∃ rows', op.execute rows = some rows' ∧
      rows'.Perm (new ++ others)) ∧ (¬ Writable new others → op.execute rows = none)) :
    Outcome new others ops result where
  written hnew := by
    obtain ⟨rows, hrows, hresult⟩ := h.written (hw hnew)
    obtain ⟨rows', hop', hrows'⟩ := (hop rows (hw hnew) hrows).1 hnew
    refine ⟨rows', hrows', ?_⟩
    rw [hresult, foldlM_cons, hop']
    rfl
  failed hnew := by
    by_cases hnew' : Writable new' others'
    · obtain ⟨rows, hrows, hresult⟩ := h.written hnew'
      rw [hresult, foldlM_cons, (hop rows hnew' hrows).2 hnew]
      rfl
    · exact h.failed hnew'

variable {row' : DataRow}

/-- An update puts a row in the place of the one of its order. -/
theorem Outcome.update (h : Outcome new (row' :: others) (.update row :: ops) result)
    (heq : row.ord = row'.ord) (hle : ∀ r ∈ new, row.ord ≤ r.ord)
    (hothers : ∀ other ∈ others, row'.ord ≠ other.ord) (hfits : Int32 row'.ord) :
    Outcome (row :: new) others ops result := by
  have hw := writable_replace hle heq hothers hfits
  refine h.execute hw.1 ?_
  refine fun rows hnew hrows => ⟨fun _ => ⟨_, rfl, ?_⟩, fun hnot => absurd (hw.2 hnew) hnot⟩
  have hkept {l : List DataRow} (hl : ∀ r ∈ l, r.ord ≠ row.ord) :
      l.map (fun old => if old.ord = row.ord then row else old) = l := by
    conv_rhs => rw [← map_id l]
    exact map_congr_left fun r hr => if_neg (hl r hr)
  have hapart := (writable_beside.1 hnew).1
  have hperm := hrows.map fun old => if old.ord = row.ord then row else old
  rw [map_append, map_cons, if_pos heq.symm, hkept fun r hr => heq ▸ hapart r hr,
    hkept fun other hother => heq ▸ (hothers other hother).symm] at hperm
  exact hperm.trans perm_middle

/-- A row of another order is taken away. -/
theorem Outcome.delete (h : Outcome new (row' :: others) (.delete row'.ord :: ops) result)
    (hnew : ∀ r ∈ new, r.ord ≠ row'.ord) (hothers : ∀ other ∈ others, row'.ord ≠ other.ord) :
    Outcome new others ops result := by
  have hw : Writable new others ↔ Writable new (row' :: others) := by
    rw [writable_beside, and_iff_right hnew]
  refine h.execute hw.1 ?_
  refine fun rows hnew' hrows => ⟨fun _ => ⟨_, rfl, ?_⟩, fun hnot => absurd (hw.2 hnew') hnot⟩
  have hperm := hrows.filter fun old => old.ord ≠ row'.ord
  have hkept {l : List DataRow} (hl : ∀ r ∈ l, r.ord ≠ row'.ord) :
      l.filter (fun old => old.ord ≠ row'.ord) = l :=
    filter_eq_self.2 fun r hr => decide_eq_true (hl r hr)
  rwa [filter_append, filter_cons_of_neg (by simp), hkept hnew,
    hkept fun other hother => (hothers other hother).symm] at hperm

/-- A row is inserted if it can be written beside all that are there. -/
theorem Outcome.insert (h : Outcome new others (.insert row :: ops) result)
    (hle : ∀ r ∈ new, row.ord ≤ r.ord) : Outcome (row :: new) others ops result := by
  refine h.execute (fun hw => (writable_cons.1 hw).2.2.2) ?_
  intro rows hnew hrows
  have hiff : Int32 row.ord ∧ row.ord ∉ rows.map DataRow.ord ↔
      Writable (row :: new) others := by
    have hmem : row.ord ∉ rows.map DataRow.ord ↔
        (∀ r ∈ new, row.ord < r.ord) ∧ ∀ other ∈ others, row.ord ≠ other.ord := by
      rw [(hrows.map DataRow.ord).mem_iff, map_append, mem_append, not_or]
      refine and_congr ?_ ?_
      · simp only [mem_map, not_exists, not_and]
        refine forall₂_congr fun r hr => ?_
        have := hle r hr
        omega
      · simp only [mem_map, not_exists, not_and, ne_eq, eq_comm]
    rw [writable_cons, hmem]
    tauto
  constructor
  · intro hw
    refine ⟨row :: rows, ?_, hrows.cons row⟩
    rw [DiffOp.execute, if_pos (hiff.2 hw)]
  · intro hw
    rw [DiffOp.execute, if_neg fun hcan => hw (hiff.1 hcan)]

/-- **The statements write the new rows in the place of the old ones**, beside the others, or
fail. -/
theorem outcome_diffRows (ops : List DiffOp) (hnew : new.Pairwise fun a b => a.ord ≤ b.ord)
    (hold : old.Pairwise fun a b => a.ord < b.ord) (hfits : ∀ row ∈ old, Int32 row.ord)
    (hothers : ∀ row ∈ old, ∀ other ∈ others, row.ord ≠ other.ord)
    (hrows : rows.Perm (old ++ others)) :
    Outcome new others ops ((diffRows new old ops).foldlM DiffOp.execute rows) := by
  -- the statements are executed in the other order, so that those of the rest come first
  induction new, old, ops using diffRows.induct generalizing others with
  | case1 newT old oldT ops ih =>
    obtain ⟨hle, hnewT⟩ := pairwise_cons.1 hnew
    obtain ⟨hlt, holdT⟩ := pairwise_cons.1 hold
    rw [forall_mem_cons] at hfits hothers
    rw [diffRows, if_pos rfl]
    have hapart : ∀ row ∈ oldT, ∀ other ∈ old :: others, row.ord ≠ other.ord :=
      fun row hrow => forall_mem_cons.2 ⟨(hlt row hrow).ne', hothers.2 row hrow⟩
    have hrest := ih hnewT holdT hfits.2 hapart (hrows.trans perm_middle.symm)
    have hw : Writable (old :: newT) others ↔ Writable newT (old :: others) :=
      writable_replace hle rfl hothers.1 hfits.1
    refine ⟨fun hnew => ?_, fun hnew => hrest.failed fun hnew' => hnew (hw.2 hnew')⟩
    obtain ⟨rows', hrows', hresult⟩ := hrest.written (hw.1 hnew)
    exact ⟨rows', hrows'.trans perm_middle, hresult⟩
  | case2 new newT old oldT ops hne heq ih =>
    obtain ⟨hle, hnewT⟩ := pairwise_cons.1 hnew
    obtain ⟨hlt, holdT⟩ := pairwise_cons.1 hold
    rw [forall_mem_cons] at hfits hothers
    rw [diffRows, if_neg hne, if_pos heq]
    refine (ih hnewT holdT hfits.2 ?_ (hrows.trans perm_middle.symm)).update heq hle hothers.1
      hfits.1
    exact fun row hrow => forall_mem_cons.2 ⟨(hlt row hrow).ne', hothers.2 row hrow⟩
  | case3 new newT old oldT ops hne hord hlt' ih =>
    obtain ⟨hlt, holdT⟩ := pairwise_cons.1 hold
    rw [forall_mem_cons] at hfits hothers
    rw [diffRows, if_neg hne, if_neg hord, if_pos hlt']
    refine (ih hnew holdT hfits.2 ?_ (hrows.trans perm_middle.symm)).delete ?_ hothers.1
    · exact fun row hrow => forall_mem_cons.2 ⟨(hlt row hrow).ne', hothers.2 row hrow⟩
    · have hle := (pairwise_cons.1 hnew).1
      exact forall_mem_cons.2 ⟨hord, fun r hr => (hlt'.trans_le (hle r hr)).ne'⟩
  | case4 new newT old oldT ops hne hord hlt' ih =>
    obtain ⟨hle, hnewT⟩ := pairwise_cons.1 hnew
    rw [diffRows, if_neg hne, if_neg hord, if_neg hlt']
    exact (ih hnewT hold hfits hothers hrows).insert hle
  | case5 old oldT ops ih =>
    obtain ⟨hlt, holdT⟩ := pairwise_cons.1 hold
    rw [forall_mem_cons] at hfits hothers
    rw [diffRows]
    refine (ih .nil holdT hfits.2 ?_ (hrows.trans perm_middle.symm)).delete (by simp) hothers.1
    exact fun row hrow => forall_mem_cons.2 ⟨(hlt row hrow).ne', hothers.2 row hrow⟩
  | case6 new newT ops ih =>
    obtain ⟨hle, hnewT⟩ := pairwise_cons.1 hnew
    rw [diffRows]
    exact (ih hnewT .nil hfits hothers hrows).insert hle
  | case7 ops =>
    rw [diffRows]
    exact ⟨fun _ => ⟨rows, hrows, rfl⟩, fun hnot => absurd writable_nil hnot⟩

/-- The orders of a list are distinct and fit. -/
def DistinctOrders (ords : List ℕ) : Prop := ords.Nodup ∧ ∀ ord ∈ ords, Int32 ord

/-- **The rows of a list are replaced** exactly when the orders of the new ones are distinct and
fit. -/
theorem replaceDataRows_spec (hold : DistinctOrders (old.map DataRow.ord)) (rows : List DataRow) :
    (DistinctOrders (rows.map DataRow.ord) →
    ∃ rows', replaceDataRows rows old = some rows' ∧ rows'.Perm rows) ∧
    (¬ DistinctOrders (rows.map DataRow.ord) → replaceDataRows rows old = none) := by
  rw [replaceDataRows]
  split_ifs with hnil
  · subst hnil
    exact ⟨fun _ => ⟨[], rfl, .refl _⟩, fun hnot => absurd ⟨nodup_nil, by simp⟩ hnot⟩
  · have hperm := keysort_perm DataRow.term rows
    have hperm' : (keysort DataRow.term (selectRows old)).Perm old :=
      (keysort_perm _ _).trans (keysort_perm _ _)
    have hsorted (l : List DataRow) :
        (keysort DataRow.term l).Pairwise fun a b => a.ord ≤ b.ord :=
      (pairwise_keysort DataRow.term l).imp fun hle => ord_le_of_term_le hle
    have hstrict {l : List DataRow} (hl : (l.map DataRow.ord).Nodup) :
        (keysort DataRow.term l).Pairwise fun a b => a.ord < b.ord :=
      pairwise_lt_of_nodup (hsorted l) (((keysort_perm _ l).map _).nodup_iff.2 hl)
    have hselected : ((selectRows old).map DataRow.ord).Nodup :=
      ((keysort_perm _ old).map _).nodup_iff.2 hold.1
    have hold' : ∀ row ∈ keysort DataRow.term (selectRows old), Int32 row.ord :=
      fun row hrow => hold.2 _ (mem_map_of_mem (hperm'.mem_iff.1 hrow))
    have hperm'' : old.Perm (keysort DataRow.term (selectRows old) ++ []) := by
      simpa using hperm'.symm
    have houtcome := outcome_diffRows [] (hsorted rows) (hstrict hselected) hold' (by simp) hperm''
    have hiff : Writable (keysort DataRow.term rows) [] ↔
        DistinctOrders (rows.map DataRow.ord) := by
      constructor
      · intro hw
        have hnodup : ((keysort DataRow.term rows).map DataRow.ord).Nodup :=
          nodup_keys_of_pairwise hw.increasing
        refine ⟨(hperm.map _).nodup_iff.1 hnodup, ?_⟩
        intro ord hord
        obtain ⟨row, hrow, rfl⟩ := mem_map.1 hord
        exact hw.fits row (hperm.mem_iff.2 hrow)
      · intro hd
        exact ⟨hstrict hd.1, by simp,
          fun row hrow => hd.2 _ (mem_map_of_mem (hperm.mem_iff.1 hrow))⟩
    refine ⟨fun hd => ?_, fun hd => houtcome.failed fun hw => hd (hiff.1 hw)⟩
    obtain ⟨rows', hrows', hresult⟩ := houtcome.written (hiff.2 hd)
    rw [append_nil] at hrows'
    exact ⟨rows', hresult, hrows'.trans hperm⟩

/-- What is stored is what was to be stored. -/
theorem perm_of_replaceDataRows (hold : DistinctOrders (old.map DataRow.ord))
    (h : replaceDataRows rows old = some new) :
    DistinctOrders (rows.map DataRow.ord) ∧ new.Perm rows := by
  have hspec := replaceDataRows_spec hold rows
  by_cases hdistinct : DistinctOrders (rows.map DataRow.ord)
  · obtain ⟨new', hnew', hperm⟩ := hspec.1 hdistinct
    cases h.symm.trans hnew'
    exact ⟨hdistinct, hperm⟩
  · rw [hspec.2 hdistinct] at h
    cases h

/-! ## What the backends do -/

/-- **A backend stores the lists that it accepts.** -/
structure PrivacyBackend.Sound (lib : JidLib D J) (backend : PrivacyBackend J)
    (Valid : backend.Store → Prop) (Accepts : List (Item J) → Prop) : Prop where
  valid_empty : Valid backend.empty
  valid_setDefaultList : ∀ {name s s'}, Valid s → backend.setDefaultList name s = some s' → Valid s'
  valid_forgetDefaultList : ∀ {s}, Valid s → Valid (backend.forgetDefaultList s)
  valid_removePrivacyList : ∀ {name s s'}, Valid s →
    backend.removePrivacyList name s = some s' → Valid s'
  valid_replacePrivacyList : ∀ {name list s s'}, Valid s →
    backend.replacePrivacyList name list s = some s' → Valid s'
  removePrivacyList_eq_none : ∀ {name s},
    backend.removePrivacyList name s = none ↔ backend.default s = some name
  storedList_removed : ∀ {name s s'}, Valid s →
    backend.removePrivacyList name s = some s' → backend.storedList name s' = []
  isSome_replacePrivacyList : ∀ {name list s}, Valid s → (∀ item ∈ list, Stored lib item) →
    ((backend.replacePrivacyList name list s).isSome ↔ Accepts list)
  storedList_replaced : ∀ {name list s s'}, Valid s → (∀ item ∈ list, Stored lib item) →
    list.Pairwise (fun a b => orderKey a ≤ orderKey b) →
      backend.replacePrivacyList name list s = some s' → backend.storedList name s' = list
  accepts_perm : ∀ {l l'}, l.Perm l' → (Accepts l ↔ Accepts l')

/-- Each list has its own name. -/
def Distinct (privacy : Option (PrivacyRecord (Value J))) : Prop :=
  ∀ stored ∈ privacy, (stored.lists.map Prod.fst).Nodup

/-- The list of a name is put into the place of the old one. -/
theorem nodup_replaced {ν : Type} {lists : List (String × ν)} (h : (lists.map Prod.fst).Nodup)
    (name : String) (list : ν) :
    (((name, list) :: keydelete name lists).map Prod.fst).Nodup := by
  have hrest := ((keydelete_sublist name lists).map Prod.fst).nodup h
  refine nodup_cons.2 ⟨fun hmem => ?_, hrest⟩
  have hlookup := lookup_keydelete h name name
  rw [if_pos rfl, Erlang.lookup_eq_none_iff] at hlookup
  exact hlookup hmem

/-- **Mnesia stores every list.** -/
theorem mnesia_sound (lib : JidLib D J) : mnesia.Sound lib Distinct fun _ => True where
  valid_empty stored hstored := by cases hstored
  valid_setDefaultList {name privacy privacy'} h hset := by
    obtain ⟨stored, rfl, hdefault⟩ := Option.bind_eq_some_iff.1 hset
    rw [setDefaultList] at hdefault
    split_ifs at hdefault
    · cases hdefault
      rintro stored' ⟨⟩
      exact h stored rfl
    · cases hdefault
  valid_forgetDefaultList {privacy} h := by
    rintro stored' hstored'
    obtain ⟨stored, rfl, rfl⟩ := Option.map_eq_some_iff.1 hstored'
    exact h stored rfl
  valid_removePrivacyList {name privacy privacy'} h hremove := by
    rcases privacy with _ | stored
    · cases hremove
      exact h
    · simp only [mnesia] at hremove
      split_ifs at hremove
      cases hremove
      rintro stored' ⟨⟩
      exact ((keydelete_sublist name _).map Prod.fst).nodup (h stored rfl)
  valid_replacePrivacyList {name list privacy privacy'} h hreplace := by
    cases hreplace
    rintro stored' ⟨⟩
    rcases privacy with _ | stored
    · exact nodup_singleton name
    · exact nodup_replaced (h stored rfl) name list
  removePrivacyList_eq_none {name privacy} := by
    rcases privacy with _ | stored
    · simp [mnesia]
    · simp [mnesia]
  storedList_removed {name privacy privacy'} h hremove := by
    rcases privacy with _ | stored
    · cases hremove
      rfl
    · simp only [mnesia] at hremove
      split_ifs at hremove
      cases hremove
      simp [getPrivacyList, lookup_keydelete (h stored rfl)]
  isSome_replacePrivacyList _ _ := by simp [mnesia]
  storedList_replaced {name list privacy privacy'} _ _ _ hreplace := by
    cases hreplace
    rcases privacy with _ | stored <;> simp [getPrivacyList, replacePrivacyList]
  accepts_perm _ := Iff.rfl

/-- The tables as their keys and columns keep them. -/
structure PrivacyTables.Valid (us : String × String) (tables : PrivacyTables) : Prop where
  nodup : (tables.lists.map Prod.fst).Nodup
  rows : ∀ list ∈ tables.lists, DistinctOrders (list.2.map DataRow.ord)
  columns : ∀ list ∈ tables.lists, FitsColumns us

/-- The user and the server fit into their columns, and the orders of the items are distinct and
fit into theirs. -/
def RowsFit (us : String × String) (list : List (Item J)) : Prop :=
  FitsColumns us ∧ (list.map ListItem.order).Nodup ∧
    ∀ item ∈ list, ∀ ord ∈ item.order, Int32 ord

instance (us : String × String) (list : List (Item J)) : Decidable (RowsFit us list) :=
  inferInstanceAs (Decidable (_ ∧ _ ∧ _))

/-- The orders of items are those of their rows. -/
theorem distinctOrders_iff (h : list.map ListItem.order = rows.map (some ∘ DataRow.ord)) :
    DistinctOrders (rows.map DataRow.ord) ↔ (list.map ListItem.order).Nodup ∧
    ∀ item ∈ list, ∀ ord ∈ item.order, Int32 ord := by
  have hmem (ord : ℕ) : ord ∈ rows.map DataRow.ord ↔ some ord ∈ list.map ListItem.order := by
    rw [h]
    simp
  rw [DistinctOrders, h, ← map_map, nodup_map_iff (Option.some_injective ℕ)]
  refine and_congr_right fun _ => ?_
  simp only [hmem, mem_map, forall_exists_index, and_imp]
  exact ⟨fun hall item hitem ord hord => hall ord item hitem hord,
    fun hall ord item hitem hord => hall item hitem ord hord⟩

/-- Items in the order of `orderKey` have rows in the order of `ord`. -/
theorem pairwise_of_orders (h : list.map ListItem.order = rows.map (some ∘ DataRow.ord))
    (hsorted : list.Pairwise fun a b => orderKey a ≤ orderKey b) :
    rows.Pairwise fun a b => a.ord ≤ b.ord := by
  induction list generalizing rows with
  | nil =>
    rw [map_nil, eq_comm, map_eq_nil_iff] at h
    rw [h]
    exact .nil
  | cons item list ih =>
    obtain ⟨row, rows, rfl, hrow, hrows⟩ := map_eq_cons_iff.1 h.symm
    obtain ⟨hle, hsorted⟩ := pairwise_cons.1 hsorted
    refine pairwise_cons.2 ⟨fun other hother => ?_, ih hrows.symm hsorted⟩
    have hmem : some other.ord ∈ list.map ListItem.order := hrows ▸ mem_map_of_mem hother
    obtain ⟨item', hitem', hord⟩ := mem_map.1 hmem
    have hkey := hle item' hitem'
    rw [orderKey, orderKey, hord, ← hrow] at hkey
    exact WithTop.coe_le_coe.1 hkey

/-- What is selected is sorted. -/
theorem selectRows_of_perm (hnodup : (rows.map DataRow.ord).Nodup)
    (hsorted : rows.Pairwise fun a b => a.ord ≤ b.ord) (hperm : new.Perm rows) :
    selectRows new = rows := by
  have hperm' : (selectRows new).Perm rows := (keysort_perm _ new).trans hperm
  refine eq_of_perm_of_keys hperm' ?_ (pairwise_lt_of_nodup hsorted hnodup)
  exact pairwise_lt_of_nodup (pairwise_keysort _ new) ((hperm'.map _).nodup_iff.2 hnodup)

/-- The rows of a list that is not there are none. -/
def oldRows (name : String) (tables : PrivacyTables) : List DataRow :=
  (tables.lists.lookup name).getD []

variable {us : String × String} {tables : PrivacyTables} {tables' : PrivacyTables}

theorem PrivacyTables.Valid.oldRows (h : tables.Valid us) (name : String) :
    DistinctOrders ((oldRows name tables).map DataRow.ord) := by
  rw [Privacy.oldRows]
  rcases hlookup : tables.lists.lookup name with _ | old
  · exact ⟨nodup_nil, by simp⟩
  · exact h.rows _ (mem_of_lookup hlookup)

/-- A list that is stored already is a list of a user and a server that fit. -/
theorem listRows_eq (h : tables.Valid us) (name : String) :
    listRows us name tables = if FitsColumns us then some (oldRows name tables) else none := by
  rw [listRows, oldRows]
  rcases hlookup : tables.lists.lookup name with _ | old
  · rfl
  · exact (if_pos (h.columns _ (mem_of_lookup hlookup))).symm

/-- **What the transaction does**: the rows of the list are replaced, if the columns hold the user
and the server. -/
theorem replacePrivacyList_eq_some_iff {name : String} (h : tables.Valid us)
    (hrows : list.mapM (itemToRaw lib) = some rows) :
    (rdbms lib us).replacePrivacyList name list tables = some tables' ↔
    FitsColumns us ∧ ∃ new, replaceDataRows rows (oldRows name tables) = some new ∧
      { tables with lists := (name, new) :: keydelete name tables.lists } = tables' := by
  simp only [hrows, listRows_eq h, Option.bind_eq_bind, Option.bind_some]
  split_ifs with hfits
  · rw [and_iff_right hfits]
    simp [Option.bind_eq_some_iff]
  · simp [hfits]

/-- **The RDBMS stores the lists whose rows fit.** -/
theorem rdbms_sound (lib : JidLib D J) (us : String × String) :
    (rdbms lib us).Sound lib (PrivacyTables.Valid us) (RowsFit us) where
  valid_empty := ⟨nodup_nil, by simp, by simp⟩
  valid_setDefaultList {name tables tables'} h hset := by
    simp only at hset
    split_ifs at hset
    cases hset
    exact ⟨h.nodup, h.rows, h.columns⟩
  valid_forgetDefaultList h := ⟨h.nodup, h.rows, h.columns⟩
  valid_removePrivacyList {name tables tables'} h hremove := by
    simp only at hremove
    split_ifs at hremove
    cases hremove
    have hsub := keydelete_sublist name tables.lists
    exact ⟨(hsub.map Prod.fst).nodup h.nodup, fun list hlist => h.rows list (hsub.subset hlist),
      fun list hlist => h.columns list (hsub.subset hlist)⟩
  valid_replacePrivacyList {name list tables tables'} h hreplace := by
    obtain ⟨rows, hrows, -⟩ := Option.bind_eq_some_iff.1 hreplace
    obtain ⟨hfits, new, hnew, rfl⟩ := (replacePrivacyList_eq_some_iff h hrows).1 hreplace
    obtain ⟨hdistinct, hperm⟩ := perm_of_replaceDataRows (h.oldRows name) hnew
    have hsub := keydelete_sublist name tables.lists
    refine ⟨nodup_replaced h.nodup name new, ?_, fun _ _ => hfits⟩
    refine forall_mem_cons.2 ⟨⟨?_, ?_⟩, fun list hlist => h.rows list (hsub.subset hlist)⟩
    · exact ((hperm.map _).nodup_iff).2 hdistinct.1
    · exact fun ord hord => hdistinct.2 ord ((hperm.map _).mem_iff.1 hord)
  removePrivacyList_eq_none {name tables} := by simp
  storedList_removed {name tables tables'} h hremove := by
    simp only at hremove
    split_ifs at hremove
    cases hremove
    simp [lookup_keydelete h.nodup]
  isSome_replacePrivacyList {name list tables} h hstored := by
    obtain ⟨rows, hrows, hords, -⟩ := exists_itemToRaw hstored
    rw [RowsFit, ← distinctOrders_iff hords, Option.isSome_iff_exists]
    constructor
    · rintro ⟨tables', hreplace⟩
      obtain ⟨hfits, new, hnew, -⟩ := (replacePrivacyList_eq_some_iff h hrows).1 hreplace
      exact ⟨hfits, (perm_of_replaceDataRows (h.oldRows name) hnew).1⟩
    · rintro ⟨hfits, hdistinct⟩
      obtain ⟨new, hnew, -⟩ := (replaceDataRows_spec (h.oldRows name) rows).1 hdistinct
      exact ⟨_, (replacePrivacyList_eq_some_iff h hrows).2 ⟨hfits, new, hnew, rfl⟩⟩
  storedList_replaced {name list tables tables'} h hstored hsorted hreplace := by
    obtain ⟨rows, hrows, hords, hread⟩ := exists_itemToRaw hstored
    obtain ⟨_, new, hnew, rfl⟩ := (replacePrivacyList_eq_some_iff h hrows).1 hreplace
    obtain ⟨hdistinct, hperm⟩ := perm_of_replaceDataRows (h.oldRows name) hnew
    have hselected : selectRows new = rows :=
      selectRows_of_perm hdistinct.1 (pairwise_of_orders hords hsorted) hperm
    simp [hselected, hread]
  accepts_perm {l l'} hperm := by
    rw [RowsFit, RowsFit, (hperm.map ListItem.order).nodup_iff]
    simp only [hperm.mem_iff]

end MongooseIM.Privacy
