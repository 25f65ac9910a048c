import Mathlib.Algebra.Order.Ring.Int
import Mathlib.Data.List.DropRight
import MongooseIM.Relational.Keyset

/-! # Lookups in a message archive

`mam_lookup` has four ways to read a page: with two counts, with a count that is saved when the page
shows how many messages there are, from the first or from the last message, or with no count at all. -/

namespace MongooseIM.Mam

open Keyset

/-! ## The archive -/

/-- `message_row()`; `C` is what it has beside its id. -/
structure Row (C : Type*) where
  id : ℤ
  content : C

/-- The comparisons of a filter about the column `id`. -/
inductive Op
  | equal
  | less
  | greater
  | le
  | ge

/-- `Column Op ?` -/
def Op.holds : Op → ℤ → ℤ → Bool
  | .equal, id, value => id = value
  | .less, id, value => id < value
  | .greater, id, value => value < id
  | .le, id, value => id ≤ value
  | .ge, id, value => value ≤ id

variable {C : Type*}

/-- `filter_field()`; `undefined` is `none`, and a condition on another column is a test of it. -/
inductive FilterField (C : Type*)
  | id (op : Op) (value : Option ℤ)
  /-- `{Op, Column, Value}` -/
  | other (holds : C → Bool)

/-- `filter()` -/
abbrev Filter (C : Type*) := List (FilterField C)

/-- A field of a filter, in a query. -/
def FilterField.holds (row : Row C) : FilterField C → Bool
  | .id op (some value) => op.holds row.id value
  -- a comparison with `NULL`
  | .id _ none => false
  | .other holds => holds row.content

/-- The fields are joined by `AND`. -/
def holdsAll (filter : Filter C) (row : Row C) : Bool := filter.all fun field => field.holds row

/-- The rows of an archive. -/
structure Archive (C : Type*) where
  rows : List (Row C)
  nodup : (rows.map Row.id).Nodup

variable (id : Option ℤ)

/-- `after_id/2` -/
def afterId (filter : Filter C) : Filter C := .id .greater id :: filter

/-- `before_id/2` -/
def beforeId (filter : Filter C) : Filter C := .id .less id :: filter

/-- `from_id/2` -/
def fromId (filter : Filter C) : Filter C := .id .ge id :: filter

/-- `to_id/2` -/
def toId (filter : Filter C) : Filter C := .id .le id :: filter

/-! ## Queries -/

/-- `before | aft` -/
inductive Direction
  | before
  | aft

/-- The index of a request: what is parsed may be no number, or a negative one. -/
inductive Index
  | undefined
  | error
  | int (i : ℤ)

/-- `#rsm_in{}`, less the size of the page. -/
structure RsmIn where
  direction : Option Direction
  id : Option ℤ
  index : Index

/-- What a lookup ends with other than a page. -/
inductive Failure
  | itemNotFound
  /-- No clause matches, or a list has no first or last element. -/
  | caseClause
  /-- The offset of a query is not a natural number, and what the backend does is not said. -/
  | badOffset

/-- `asc | desc` -/
inductive Order
  | asc
  | desc

/-- `ORDER BY id` -/
def Order.sort : Order → List (Row C) → List (Row C)
  | .asc, rows => ascending Row.id rows
  | .desc, rows => descending Row.id rows

variable (archive : Archive C)

/-- `lookup_query/5` for `lookup`: an offset has to be a `non_neg_integer()`. -/
def lookupQuery (filter : Filter C) (order : Order) (offset : Index)
    (limit : ℕ) : Except Failure (List (Row C)) :=
  match offset with
  | .int (.ofNat offset) =>
    .ok (((order.sort (archive.rows.filter (holdsAll filter))).drop offset).take limit)
  | _ => .error .badOffset

/-- `calc_count/2` -/
def calcCount (filter : Filter C) : ℕ :=
  (archive.rows.filter (holdsAll filter)).length

/-- `calc_index/3` -/
def calcIndex (filter : Filter C) (id : ℤ) : ℕ :=
  calcCount archive (toId (some id) filter)

/-- `calc_before/3` -/
def calcBefore (filter : Filter C) (id : ℤ) : ℕ :=
  calcCount archive (beforeId (some id) filter)

/-- `maybe_reverse/2` -/
def maybeReverse : Order → List (Row C) → List (Row C)
  | .asc, rows => rows
  | .desc, rows => rows.reverse

/-- `extract_messages/5` -/
def extractMessages (filter : Filter C) (offset : Index) (max : ℕ)
    (order : Order) : Except Failure (List (Row C)) :=
  if max = 0 then .ok []
  else (lookupQuery archive filter order offset max).map (maybeReverse order)

/-! ## Strategies -/

/-- `{TotalCount, Offset, Messages}` -/
structure LookupResult (C : Type*) where
  totalCount : Option ℤ
  offset : Option ℤ
  messages : List (Row C)

/-- `opt_count_type()` -/
inductive OptCountType
  | lastPage
  | byOffset
  | none

/-- `opt_count_type/1` -/
def optCountType : Option RsmIn → OptCountType
  | some ⟨some .before, none, _⟩ => .lastPage
  | some ⟨none, _, _⟩ => .byOffset
  | none => .byOffset
  | some _ => .none

variable (rsm : Option RsmIn)

/-- `rsm_to_filter/2` -/
def rsmToFilter (filter : Filter C) : Filter C × Index × Order :=
  match rsm with
  | some ⟨some .aft, id, _⟩ => (afterId id filter, .int 0, .asc)
  | some ⟨some .before, none, _⟩ => (filter, .int 0, .desc)
  | some ⟨some .before, some id, _⟩ => (beforeId (some id) filter, .int 0, .desc)
  | some ⟨none, _, index⟩ => (filter, index, .asc)
  | none => (filter, .int 0, .asc)

/-- `simple_lookup_messages/4` -/
def simpleLookupMessages (rsm : Option RsmIn) (pageSize : ℕ)
    (filter : Filter C) : Except Failure (LookupResult C) :=
  let (filter2, offset, order) := rsmToFilter rsm filter
  (extractMessages archive filter2 offset pageSize order).map fun messages =>
    ⟨none, none, messages⟩

/-- `lookup_last_page/3` -/
def lookupLastPage (pageSize : ℕ) (filter : Filter C) : Except Failure (LookupResult C) :=
  (extractMessages archive filter (.int 0) pageSize .desc).bind fun messages =>
    if messages.length < pageSize then
      -- the result fits on a single page
      .ok ⟨some messages.length, some 0, messages⟩
    else
      match messages.head? with
      | some first =>
        let offset : ℤ := calcCount archive (beforeId (some first.id) filter)
        .ok ⟨some (offset + messages.length), some offset, messages⟩
      | none => .error .caseClause

/-- `rsm_to_index/1` -/
def rsmToIndex : Option RsmIn → ℤ
  | some ⟨none, _, .int offset⟩ => offset
  | _ => 0

/-- `lookup_by_offset/4` -/
def lookupByOffset (rsm : Option RsmIn) (pageSize : ℕ) (filter : Filter C) :
    Except Failure (LookupResult C) :=
  -- `assert_rsm_without_id/1`
  if (rsm.bind RsmIn.id).isSome then .error .caseClause
  else
    let offset := rsmToIndex rsm
    (extractMessages archive filter (.int offset) pageSize .asc).bind fun messages =>
      if messages.length < pageSize then
        -- the result fits on a single page
        .ok ⟨some (offset + messages.length), some offset, messages⟩
      else
        match messages.getLast? with
        | some last =>
          let countAfterLastId := calcCount archive (afterId (some last.id) filter)
          .ok ⟨some (offset + messages.length + countAfterLastId), some offset, messages⟩
        | none => .error .caseClause

/-- `calc_offset/5` -/
def calcOffset (filter : Filter C) (pageSize totalCount : ℕ) (rsm : Option RsmIn) : ℤ :=
  match rsm with
  | some ⟨none, _, .int index⟩ => index
  | some ⟨some .before, none, _⟩ => max 0 ((totalCount : ℤ) - pageSize)
  | some ⟨some .before, some id, _⟩ => max 0 ((calcBefore archive filter id : ℤ) - pageSize)
  | some ⟨some .aft, some id, _⟩ => calcIndex archive filter id
  | _ => 0

/-- `rsm_to_regular_lookup_vars/4` -/
def rsmToRegularLookupVars (filter : Filter C) (offset : ℤ) (pageSize : ℕ) :
    Bool × Filter C × Index × ℕ × Order :=
  match rsm with
  -- one more message is selected, the one with the id
  | some ⟨some .aft, some id, _⟩ => (true, fromId (some id) filter, .int 0, pageSize + 1, .asc)
  | some ⟨some .before, some id, _⟩ => (true, toId (some id) filter, .int 0, pageSize + 1, .desc)
  | _ => (false, filter, .int offset, pageSize, .asc)

/-- `mod_mam_utils:check_for_item_not_found/3` -/
def checkForItemNotFound (result : LookupResult C) : Except Failure (LookupResult C) :=
  match rsm with
  | some ⟨some .before, id, _⟩ =>
    match result.messages.getLast? with
    | some last =>
      if some last.id = id then .ok { result with messages := result.messages.dropLast }
      else .error .caseClause
    | none => .error .itemNotFound
  | some ⟨some .aft, id, _⟩ =>
    match result.messages with
    | first :: messages =>
      if some first.id = id then .ok { result with messages := messages }
      else .error .itemNotFound
    | [] => .error .itemNotFound
  | _ => .error .caseClause

/-- `lookup_messages_regular/4` -/
def lookupMessagesRegular (rsm : Option RsmIn) (pageSize : ℕ)
    (filter : Filter C) : Except Failure (LookupResult C) :=
  let totalCount := calcCount archive filter
  let offset := calcOffset archive filter pageSize totalCount rsm
  let (lookupById, filter2, offset2, pageSize2, order) :=
    rsmToRegularLookupVars rsm filter offset pageSize
  (extractMessages archive filter2 offset2 pageSize2 order).bind fun messages =>
    let result := ⟨some totalCount, some offset, messages⟩
    if lookupById then checkForItemNotFound rsm result else .ok result

/-- `choose_lookup_messages_strategy/3`, with the type of count that `lookup/3` adds. -/
def lookup (filter : Filter C) (rsm : Option RsmIn) (pageSize : ℕ)
    (isSimple : Bool) : Except Failure (LookupResult C) :=
  if isSimple then simpleLookupMessages archive rsm pageSize filter
  else
    match optCountType rsm, pageSize with
    | .lastPage, _ + 1 => lookupLastPage archive pageSize filter
    | .byOffset, _ + 1 => lookupByOffset archive rsm pageSize filter
    | _, _ => lookupMessagesRegular archive rsm pageSize filter

/-! ## What the queries return -/

/-- The rows that pass a filter, by id. -/
def matching (filter : Filter C) : List (Row C) :=
  ascending Row.id (archive.rows.filter (holdsAll filter))

section Queries

variable (archive : Archive C) (filter : Filter C)

theorem nodup_filter : ((archive.rows.filter (holdsAll filter)).map Row.id).Nodup :=
  (List.filter_sublist.map Row.id).nodup archive.nodup

theorem increasing_matching : Increasing Row.id (matching archive filter) :=
  increasing_ascending (nodup_filter archive filter)

theorem mem_matching {row : Row C} :
    row ∈ matching archive filter ↔ row ∈ archive.rows ∧ holdsAll filter row = true := by
  rw [matching, (ascending_perm Row.id _).mem_iff, List.mem_filter]

theorem calcCount_eq : calcCount archive filter = (matching archive filter).length := by
  rw [matching, (ascending_perm Row.id _).length_eq, calcCount]

theorem matching_id (op : Op) (value : ℤ) : matching archive (.id op (some value) :: filter) =
    (matching archive filter).filter fun row => op.holds row.id value := by
  rw [matching, matching, ← ascending_filter (nodup_filter archive filter), List.filter_filter]
  congr 1

theorem extractMessages_asc (offset max : ℕ) :
    extractMessages archive filter (.int offset) max .asc =
    .ok (((matching archive filter).drop offset).take max) := by
  rw [extractMessages]
  split_ifs with hmax
  · rw [hmax, List.take_zero]
  · rfl

theorem extractMessages_desc (max : ℕ) : extractMessages archive filter (.int 0) max .desc =
    .ok ((matching archive filter).rtake max) := by
  rw [extractMessages]
  split_ifs with hmax
  · rw [hmax, List.rtake_zero]
  · have hsort : Order.desc.sort (archive.rows.filter (holdsAll filter)) =
        (matching archive filter).reverse :=
      descending_eq_reverse (nodup_filter archive filter)
    rw [List.rtake_eq_reverse_take_reverse, ← hsort]
    rfl

theorem extractMessages_badOffset {offset : Index} {max : ℕ} (hmax : 0 < max)
    (hoffset : ∀ n : ℕ, offset ≠ .int n) (order : Order) :
    extractMessages archive filter offset max order = .error .badOffset := by
  rw [extractMessages, if_neg hmax.ne']
  rcases offset with _ | _ | n | n
  · rfl
  · rfl
  · exact absurd rfl (hoffset n)
  · rfl

end Queries

end MongooseIM.Mam
