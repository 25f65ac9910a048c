import MongooseIM.Erlang.Integers
import MongooseIM.Erlang.Lists
import Mathlib.Data.String.Basic

/-! # The configuration of a room

A schema relates the field names that clients use to the keys that a room stores. Both directions of
`mod_muc_light_room_config` sort what they are given and walk it in lockstep with the schema, which
is sorted by field name. -/

namespace MongooseIM.MucLight

open Erlang List

/-- `value_type()` -/
inductive ValueType
  | binary
  | integer
  deriving DecidableEq

/-- `value()` -/
inductive Value
  | binary (s : String)
  | integer (i : ℤ)
  deriving DecidableEq

/-- `schema_item()` -/
structure SchemaItem where
  fieldName : String
  defaultValue : Value
  key : String
  type : ValueType
  deriving DecidableEq

/-- A table of the `config_schema` option. -/
structure FieldSpec where
  field : String
  stringValue : Option String
  integerValue : Option ℤ
  internalKey : Option String

/-- `binary_to_atom/1`; `none` is a crash. -/
def binaryToAtom (s : String) : Option String := if s.length ≤ 255 then some s else none

/-- `process_config_schema_item/1`; `none` is a crash. -/
def processConfigSchemaItem (fieldSpec : FieldSpec) : Option SchemaItem :=
  (binaryToAtom fieldSpec.field).bind fun atom =>
    let internalKey := fieldSpec.internalKey.getD atom
    match fieldSpec.stringValue, fieldSpec.integerValue with
    | some s, none => some ⟨fieldSpec.field, .binary s, internalKey, .binary⟩
    | none, some i => some ⟨fieldSpec.field, .integer i, internalKey, .integer⟩
    | _, _ => none

/-- `process_config_schema/1` -/
def processConfigSchema (items : List FieldSpec) : Option (List SchemaItem) :=
  (items.mapM processConfigSchemaItem).map (ukeysort SchemaItem.fieldName)

/-- The reasons of a validation error. -/
inductive Reason
  | typeError
  | notFound
  deriving DecidableEq

/-- `validation_error()` -/
structure ValidationError where
  key : String
  reason : Reason
  deriving DecidableEq

/-- Entries under field names or under internal keys. -/
abbrev Entries := List (String × Value)

/-- What a `TakeNext` function returns, less the schema: it takes one item off. -/
inductive Taken
  /-- `{value, RRawConfig, RSchema, KV}` -/
  | value (raw : Entries) (kv : String × Value)
  /-- `{default, RawConfig, RSchema, KV}` -/
  | default (raw : Entries) (kv : String × Value)
  | error (reason : ValidationError)

/-- `take_next/5`. Both functions for `TakeNext` refuse in one way what is left when there are no
items. -/
def takeNext (dropDefaults : Bool) (next : Entries → SchemaItem → Taken) :
    List SchemaItem → Entries → Entries → Except ValidationError Entries
  | [], [], config => .ok config
  | [], (key, _) :: _, _ => .error ⟨key, .notFound⟩
  | item :: schema, raw, config =>
    match next raw item with
    -- do not populate the diff with default values
    | .default raw' kv =>
      takeNext dropDefaults next schema raw' (if dropDefaults then config else kv :: config)
    | .value raw' kv => takeNext dropDefaults next schema raw' (kv :: config)
    | .error reason => .error reason

/-- What `take_next_kv/2` and `take_next_binary_kv/2` have in common. -/
def takeNextItem (inKey outKey : SchemaItem → String)
    (convert : Value → ValueType → Option Value) (raw : Entries) (item : SchemaItem) : Taken :=
  match raw with
  | (key, value) :: rraw =>
    if inKey item = key then
      match convert value item.type with
      | some converted => .value rraw (outKey item, converted)
      | none => .error ⟨item.fieldName, .typeError⟩
    else .default raw (outKey item, item.defaultValue)
  | [] => .default raw (outKey item, item.defaultValue)

/-- `b2value/2`; `none` is a crash. -/
def b2value : Value → ValueType → Option Value
  | .binary s, .binary => some (.binary s)
  | .binary s, .integer => (binaryToInteger s).map Value.integer
  | .integer _, _ => none

/-- `value2b/2`; `none` is a crash. -/
def value2b : Value → ValueType → Option Value
  | .binary s, .binary => some (.binary s)
  | .integer i, .integer => some (.binary (integerToBinary i))
  | _, _ => none

/-- `take_next_kv/2` -/
def takeNextKv : Entries → SchemaItem → Taken :=
  takeNextItem SchemaItem.fieldName SchemaItem.key b2value

/-- `take_next_binary_kv/2` -/
def takeNextBinaryKv : Entries → SchemaItem → Taken :=
  takeNextItem SchemaItem.key SchemaItem.fieldName value2b

/-- `from_binary_kv_diff/2` -/
def fromBinaryKvDiff (raw : Entries) (schema : List SchemaItem) : Except ValidationError Entries :=
  takeNext true takeNextKv schema (ukeysort Prod.fst raw) []

/-- `from_binary_kv/2` -/
def fromBinaryKv (raw : Entries) (schema : List SchemaItem) : Except ValidationError Entries :=
  takeNext false takeNextKv schema (ukeysort Prod.fst raw) []

/-- `to_binary_kv/2` -/
def toBinaryKv (config : Entries) (schema : List SchemaItem) : Except ValidationError Entries :=
  takeNext false takeNextBinaryKv schema (ukeysort Prod.fst config) []

section Walk

variable (inKey outKey : SchemaItem → String) (convert : Value → ValueType → Option Value)

/-- What one item of the schema adds to the result. -/
def entryOf (dropDefaults : Bool) (raw : Entries) (item : SchemaItem) : Option (String × Value) :=
  match raw.lookup (inKey item) with
  | some value => (convert value item.type).map fun converted => (outKey item, converted)
  | none => if dropDefaults then none else some (outKey item, item.defaultValue)

variable {inKey outKey convert}

section Known

variable {dropDefaults : Bool} {schema : List SchemaItem} {raw : Entries} {item : SchemaItem}

/-- What the first item does not read is known to the rest of the schema. -/
theorem known_of_ne (hknown : ∀ kv ∈ raw, ∃ item' ∈ item :: schema,
    inKey item' = kv.1 ∧ (convert kv.2 item'.type).isSome)
    (hne : ∀ kv ∈ raw, inKey item ≠ kv.1) :
    ∀ kv ∈ raw, ∃ item' ∈ schema, inKey item' = kv.1 ∧ (convert kv.2 item'.type).isSome := by
  intro kv hkv
  obtain ⟨item', hmem, hkey, hsome⟩ := hknown kv hkv
  rcases mem_cons.1 hmem with rfl | hmem
  · exact absurd hkey (hne kv hkv)
  · exact ⟨item', hmem, hkey, hsome⟩

/-- **The first item is read at the head** of a sorted list, or nowhere. -/
theorem head_or_absent (hitem : ∀ item' ∈ schema, inKey item < inKey item')
    (hraw : raw.Pairwise fun kv kv' => kv.1 < kv'.1)
    (hknown : ∀ kv ∈ raw, ∃ item' ∈ item :: schema, inKey item' = kv.1) :
    (∃ value rraw, raw = (inKey item, value) :: rraw ∧ ∀ kv ∈ rraw, inKey item ≠ kv.1) ∨
    ∀ kv ∈ raw, inKey item ≠ kv.1 := by
  cases raw with
  | nil => exact Or.inr fun kv hkv => absurd hkv not_mem_nil
  | cons head rraw =>
    obtain ⟨hlt, _⟩ := pairwise_cons.1 hraw
    obtain ⟨item', hmem, hkey⟩ := hknown head mem_cons_self
    rcases mem_cons.1 hmem with rfl | hmem
    · refine Or.inl ⟨head.2, rraw, by rw [hkey], fun kv hkv => ?_⟩
      rw [hkey]
      exact ne_of_lt (hlt kv hkv)
    · -- the head is not the item, and what follows it is larger
      have hhead : inKey item < head.1 := hkey ▸ hitem item' hmem
      refine Or.inr fun kv hkv => ?_
      rcases mem_cons.1 hkv with rfl | hkv
      · exact ne_of_lt hhead
      · exact ne_of_lt (hhead.trans (hlt kv hkv))

/-- An item that was not sent is at its default. -/
theorem takeNextItem_of_absent (habsent : ∀ kv ∈ raw, inKey item ≠ kv.1) :
    takeNextItem inKey outKey convert raw item = .default raw (outKey item, item.defaultValue) := by
  cases raw with
  | nil => rfl
  | cons kv rraw =>
    have hne := habsent kv mem_cons_self
    simp only [takeNextItem, hne, if_false]

/-- What is read for one item is of no account for the others. -/
theorem filterMap_entryOf_cons (value : Value)
    (hitem : ∀ item' ∈ schema, inKey item < inKey item') :
    schema.filterMap (entryOf inKey outKey convert dropDefaults ((inKey item, value) :: raw)) =
    schema.filterMap (entryOf inKey outKey convert dropDefaults raw) := by
  refine filterMap_congr fun item' hmem => ?_
  have hne : inKey item' ≠ inKey item := (ne_of_lt (hitem item' hmem)).symm
  simp [entryOf, Erlang.lookup_cons, hne]

end Known

variable {schema : List SchemaItem}

/-- **The walk of a sorted list** along a schema that is sorted by the side that is read. -/
theorem takeNext_eq_ok {dropDefaults : Bool}
    (hschema : (schema.map inKey).Pairwise (· < ·)) {raw : Entries}
    (hraw : raw.Pairwise fun kv kv' => kv.1 < kv'.1)
    (hknown : ∀ kv ∈ raw, ∃ item ∈ schema, inKey item = kv.1 ∧ (convert kv.2 item.type).isSome)
    (config : Entries) :
    takeNext dropDefaults (takeNextItem inKey outKey convert) schema raw config =
    .ok ((schema.filterMap (entryOf inKey outKey convert dropDefaults raw)).reverse ++
      config) := by
  induction schema generalizing raw config with
  | nil =>
    cases raw with
    | nil => rfl
    | cons kv raw =>
      obtain ⟨item, hitem, _⟩ := hknown kv List.mem_cons_self
      cases hitem
  | cons item schema ih =>
    rw [List.map_cons, List.pairwise_cons] at hschema
    obtain ⟨hfirst, hschema⟩ := hschema
    have hitem : ∀ item' ∈ schema, inKey item < inKey item' := fun item' hmem =>
      hfirst _ (List.mem_map_of_mem hmem)
    have hkeys : ∀ kv ∈ raw, ∃ item' ∈ item :: schema, inKey item' = kv.1 := by
      intro kv hkv
      obtain ⟨item', hmem, hkey, _⟩ := hknown kv hkv
      exact ⟨item', hmem, hkey⟩
    rcases head_or_absent hitem hraw hkeys with ⟨value, rraw, rfl, hne⟩ | habsent
    · -- the item is at the head of what is read
      obtain ⟨_, hrraw⟩ := List.pairwise_cons.1 hraw
      have hvalue : ∃ converted, convert value item.type = some converted := by
        obtain ⟨item', hmem, hkey, hsome⟩ := hknown _ List.mem_cons_self
        rcases List.mem_cons.1 hmem with rfl | hmem
        · exact Option.isSome_iff_exists.1 hsome
        · exact absurd hkey.symm (ne_of_lt (hitem item' hmem))
      obtain ⟨converted, hconverted⟩ := hvalue
      have hrest := known_of_ne (fun kv hkv => hknown kv (List.mem_cons_of_mem _ hkv)) hne
      have hentry : entryOf inKey outKey convert dropDefaults ((inKey item, value) :: rraw) item =
          some (outKey item, converted) := by
        simp [entryOf, hconverted]
      simp only [takeNext, takeNextItem, if_true, hconverted]
      rw [ih hschema hrraw hrest, List.filterMap_cons_some hentry,
        filterMap_entryOf_cons value hitem]
      simp
    · -- nothing was sent for the item
      have hrest := known_of_ne hknown habsent
      have hlookup : raw.lookup (inKey item) = none := by
        rw [List.lookup_eq_none_iff]
        intro kv hkv
        simpa using habsent kv hkv
      rw [takeNext, takeNextItem_of_absent habsent]
      cases dropDefaults with
      | true =>
        have hentry : entryOf inKey outKey convert true raw item = none := by
          simp [entryOf, hlookup]
        simp only [if_true]
        rw [ih hschema hraw hrest, List.filterMap_cons_none hentry]
      | false =>
        have hentry : entryOf inKey outKey convert false raw item =
            some (outKey item, item.defaultValue) := by simp [entryOf, hlookup]
        simp only [Bool.false_eq_true, if_false]
        rw [ih hschema hraw hrest, List.filterMap_cons_some hentry]
        simp

/-- **What is read comes in the order of the schema** when the walk succeeds, and every value is
converted. -/
theorem sublist_of_takeNext {dropDefaults : Bool} {raw config : Entries} {result : Entries}
    (h : takeNext dropDefaults (takeNextItem inKey outKey convert) schema raw config = .ok result) :
    (raw.map Prod.fst).Sublist (schema.map inKey) ∧
    ∀ kv ∈ raw, ∃ item ∈ schema, inKey item = kv.1 ∧ (convert kv.2 item.type).isSome := by
  induction schema generalizing raw config with
  | nil =>
    cases raw with
    | nil => exact ⟨List.Sublist.refl _, fun kv hkv => by cases hkv⟩
    | cons kv raw => cases h
  | cons item schema ih =>
    have hskip {raw' config' : Entries}
        (h : takeNext dropDefaults (takeNextItem inKey outKey convert) schema raw' config' =
          .ok result) :
        (raw'.map Prod.fst).Sublist ((item :: schema).map inKey) ∧
          ∀ kv ∈ raw', ∃ item' ∈ item :: schema,
            inKey item' = kv.1 ∧ (convert kv.2 item'.type).isSome := by
      obtain ⟨hsub, hmem⟩ := ih h
      refine ⟨hsub.cons _, fun kv hkv => ?_⟩
      obtain ⟨item', hitem', hkey, hsome⟩ := hmem kv hkv
      exact ⟨item', mem_cons_of_mem _ hitem', hkey, hsome⟩
    rw [takeNext] at h
    cases raw with
    | nil => exact hskip h
    | cons kv raw =>
      simp only [takeNextItem] at h
      by_cases hkey : inKey item = kv.1
      · rw [if_pos hkey] at h
        cases hconverted : convert kv.2 item.type with
        | none =>
          rw [hconverted] at h
          cases h
        | some converted =>
          rw [hconverted] at h
          obtain ⟨hsub, hmem⟩ := ih h
          constructor
          · rw [map_cons, map_cons, hkey]
            exact hsub.cons_cons _
          · intro kv' hkv'
            rcases mem_cons.1 hkv' with rfl | hkv'
            · exact ⟨item, mem_cons_self, hkey, by rw [hconverted]; rfl⟩
            · obtain ⟨item', hitem', hkey', hsome⟩ := hmem kv' hkv'
              exact ⟨item', mem_cons_of_mem _ hitem', hkey', hsome⟩
      · rw [if_neg hkey] at h
        exact hskip h

end Walk

theorem processConfigSchema_pairwise {items : List FieldSpec} {schema : List SchemaItem}
    (h : processConfigSchema items = some schema) :
    (schema.map SchemaItem.fieldName).Pairwise (· < ·) := by
  obtain ⟨parsed, _, rfl⟩ := Option.map_eq_some_iff.1 h
  exact pairwise_map.2 (pairwise_ukeysort SchemaItem.fieldName parsed)

/-- A value of the type of a field. -/
def Value.HasType : Value → ValueType → Prop
  | .binary _, .binary => True
  | .integer _, .integer => True
  | _, _ => False

instance (value : Value) (type : ValueType) : Decidable (value.HasType type) :=
  match value, type with
  | .binary _, .binary => isTrue trivial
  | .integer _, .integer => isTrue trivial
  | .binary _, .integer => isFalse not_false
  | .integer _, .binary => isFalse not_false

/-- A configuration with one value for each key of the schema. -/
structure Complete (schema : List SchemaItem) (config : Entries) : Prop where
  keys : (config.map Prod.fst).Perm (schema.map SchemaItem.key)
  hasType : ∀ kv ∈ config, ∀ item ∈ schema, item.key = kv.1 → kv.2.HasType item.type

variable (schema : List SchemaItem)

/-- The configuration is written with field names and read back. -/
def RoundTrips (config : Entries) : Prop :=
  ∃ raw, toBinaryKv config schema = .ok raw ∧
    ∃ config', fromBinaryKv raw schema = .ok config' ∧ config'.Perm config

/-- The internal keys increase with the field names. -/
def KeysInFieldOrder : Prop :=
  (schema.map SchemaItem.key).Pairwise (· < ·)

/-- A value of the type of its field is written and read back. -/
theorem b2value_value2b {value : Value} {type : ValueType} (h : value.HasType type) :
    ∃ text, value2b value type = some text ∧ b2value text type = some value := by
  cases value with
  | binary s =>
    cases type with
    | binary => exact ⟨.binary s, rfl, rfl⟩
    | integer => exact h.elim
  | integer i =>
    cases type with
    | binary => exact h.elim
    | integer =>
      refine ⟨.binary (integerToBinary i), rfl, ?_⟩
      rw [b2value, binaryToInteger_integerToBinary]
      rfl

/-- With distinct keys the values of a configuration are a function of the keys. -/
theorem exists_values {config : Entries} (h : (config.map Prod.fst).Nodup) :
    ∃ value : String → Value, config = (config.map Prod.fst).map fun key => (key, value key) := by
  refine ⟨fun key => (config.lookup key).getD (.binary ""), ?_⟩
  rw [map_map]
  refine (map_id' config).symm.trans (map_congr_left ?_)
  rintro ⟨key, value⟩ hkv
  simp only [Function.comp_apply, lookup_of_mem h hkv, Option.getD_some]

/-- The walk of a list that has an entry for each item, in the order of the schema. -/
theorem takeNext_aligned {inKey outKey : SchemaItem → String}
    {convert : Value → ValueType → Option Value} {schema : List SchemaItem}
    (hschema : (schema.map inKey).Pairwise (· < ·)) {value converted : SchemaItem → Value}
    (hconvert : ∀ item ∈ schema, convert (value item) item.type = some (converted item)) :
    takeNext false (takeNextItem inKey outKey convert) schema
      (schema.map fun item => (inKey item, value item)) [] =
    .ok (schema.map fun item => (outKey item, converted item)).reverse := by
  have hraw : (schema.map fun item => (inKey item, value item)).Pairwise
      fun kv kv' => kv.1 < kv'.1 := pairwise_map.2 (pairwise_map.1 hschema)
  have hnodup : ((schema.map fun item => (inKey item, value item)).map Prod.fst).Nodup :=
    nodup_keys_of_pairwise hraw
  have hknown : ∀ kv ∈ schema.map fun item => (inKey item, value item),
      ∃ item ∈ schema, inKey item = kv.1 ∧ (convert kv.2 item.type).isSome := by
    intro kv hkv
    obtain ⟨item, hitem, rfl⟩ := mem_map.1 hkv
    exact ⟨item, hitem, rfl, by rw [hconvert item hitem]; rfl⟩
  have hentry : ∀ item ∈ schema,
      entryOf inKey outKey convert false (schema.map fun item => (inKey item, value item)) item =
        some (outKey item, converted item) := by
    intro item hitem
    have hmem : (inKey item, value item) ∈ schema.map fun item => (inKey item, value item) :=
      mem_map_of_mem hitem
    rw [entryOf, lookup_of_mem hnodup hmem]
    simp only [hconvert item hitem, Option.map_some]
  rw [takeNext_eq_ok hschema hraw hknown, filterMap_congr hentry, append_nil, ← filterMap_eq_map']

variable {schema : List SchemaItem}

/-- **A complete configuration comes back exactly when the two orders agree.** -/
theorem roundTrips_iff (hfields : (schema.map SchemaItem.fieldName).Pairwise (· < ·))
    (hkeys : (schema.map SchemaItem.key).Nodup) {config : Entries}
    (hcomplete : Complete schema config) :
    RoundTrips schema config ↔ KeysInFieldOrder schema := by
  have hnodup : (config.map Prod.fst).Nodup := hcomplete.keys.nodup_iff.2 hkeys
  have hperm := ukeysort_perm hnodup
  have hsorted := pairwise_ukeysort Prod.fst config
  have hkeysPerm : ((ukeysort Prod.fst config).map Prod.fst).Perm (schema.map SchemaItem.key) :=
    (hperm.map Prod.fst).trans hcomplete.keys
  constructor
  · rintro ⟨raw, hraw, _⟩
    -- what was read is a sublist of the keys of the schema, and there are as many
    obtain ⟨hsub, _⟩ := sublist_of_takeNext hraw
    have heq := hsub.eq_of_length hkeysPerm.length_eq
    rw [KeysInFieldOrder, ← heq]
    exact pairwise_map.2 hsorted
  · intro horder
    have heq : (ukeysort Prod.fst config).map Prod.fst = schema.map SchemaItem.key :=
      hkeysPerm.eq_of_pairwise (fun a b _ _ hab hba => absurd (hab.trans hba) (lt_irrefl a))
        (pairwise_map.2 hsorted) horder
    obtain ⟨value, hvalue⟩ := exists_values (nodup_keys_of_pairwise hsorted)
    rw [heq, map_map] at hvalue
    have htype : ∀ item ∈ schema, (value item.key).HasType item.type := by
      intro item hitem
      have hmem : (item.key, value item.key) ∈ config := by
        refine hperm.mem_iff.1 ?_
        rw [hvalue]
        exact mem_map_of_mem hitem
      exact hcomplete.hasType _ hmem item hitem rfl
    -- the texts of the values
    have htext : ∃ text : SchemaItem → Value, ∀ item ∈ schema,
        value2b (value item.key) item.type = some (text item) ∧
          b2value (text item) item.type = some (value item.key) := by
      refine ⟨fun item => (value2b (value item.key) item.type).getD (.binary ""), ?_⟩
      intro item hitem
      obtain ⟨text, hto, hfrom⟩ := b2value_value2b (htype item hitem)
      simp only [hto, Option.getD_some]
      exact ⟨trivial, hfrom⟩
    obtain ⟨text, htext⟩ := htext
    have hto : toBinaryKv config schema =
        .ok (schema.map fun item => (item.fieldName, text item)).reverse := by
      rw [toBinaryKv, hvalue]
      exact takeNext_aligned horder fun item hitem => (htext item hitem).1
    have hback : ukeysort Prod.fst (schema.map fun item => (item.fieldName, text item)).reverse =
        schema.map fun item => (item.fieldName, text item) :=
      ukeysort_of_perm (reverse_perm _) (pairwise_map.2 (pairwise_map.1 hfields))
    refine ⟨_, hto, (schema.map fun item => (item.key, value item.key)).reverse, ?_, ?_⟩
    · rw [fromBinaryKv, hback]
      exact takeNext_aligned hfields fun item hitem => (htext item hitem).2
    · refine (reverse_perm _).trans ?_
      have hpairs : (schema.map fun item => (item.key, value item.key)) =
          ukeysort Prod.fst config := hvalue.symm
      rw [hpairs]
      exact hperm

/-- The pair that is stored for a field that was sent with a text of its type. -/
def Sent (schema : List SchemaItem) (kv kv' : String × Value) : Prop :=
  ∃ item ∈ schema, item.fieldName = kv.1 ∧ item.key = kv'.1 ∧ b2value kv.2 item.type = some kv'.2

/-- The default of a field that was not sent. -/
def Unsent (schema : List SchemaItem) (raw : Entries) (kv' : String × Value) : Prop :=
  ∃ item ∈ schema, item.fieldName ∉ raw.map Prod.fst ∧ (item.key, item.defaultValue) = kv'

/-- The difference has what was sent and nothing more, the full configuration the defaults too; no
key comes twice. -/
def SentExactly (schema : List SchemaItem) (raw : Entries) : Prop :=
  ∃ diff full, fromBinaryKvDiff raw schema = .ok diff ∧ fromBinaryKv raw schema = .ok full ∧
    (diff.map Prod.fst).Nodup ∧ (∀ kv', kv' ∈ diff ↔ ∃ kv ∈ raw, Sent schema kv kv') ∧
    (full.map Prod.fst).Nodup ∧
    ∀ kv', kv' ∈ full ↔ (∃ kv ∈ raw, Sent schema kv kv') ∨ Unsent schema raw kv'

/-- An entry of the result was sent, or is a default where these are kept. -/
theorem mem_filterMap_entryOf {raw : Entries}
    (hnodup : (raw.map Prod.fst).Nodup) {dropDefaults : Bool} {kv' : String × Value} :
    kv' ∈ schema.filterMap (entryOf SchemaItem.fieldName SchemaItem.key b2value dropDefaults raw) ↔
    (∃ kv ∈ raw, Sent schema kv kv') ∨ dropDefaults = false ∧ Unsent schema raw kv' := by
  rw [mem_filterMap]
  constructor
  · rintro ⟨item, hitem, hentry⟩
    rw [entryOf] at hentry
    split at hentry
    · next value hlookup =>
      obtain ⟨converted, hconverted, rfl⟩ := Option.map_eq_some_iff.1 hentry
      exact Or.inl ⟨_, mem_of_lookup hlookup, item, hitem, rfl, rfl, hconverted⟩
    · next hlookup =>
      cases dropDefaults with
      | true => cases hentry
      | false =>
        exact Or.inr ⟨rfl, item, hitem, Erlang.lookup_eq_none_iff.1 hlookup, Option.some.inj hentry⟩
  · rintro (⟨⟨field, value⟩, hkv, item, hitem, hfield, hkey, hvalue⟩ |
      ⟨rfl, item, hitem, hnot, hdefault⟩)
    · refine ⟨item, hitem, ?_⟩
      simp only at hfield hvalue
      rw [entryOf, hfield, lookup_of_mem hnodup hkv]
      simp only [hvalue, Option.map_some, hkey]
    · refine ⟨item, hitem, ?_⟩
      rw [entryOf, Erlang.lookup_eq_none_iff.2 hnot]
      simp only [Bool.false_eq_true, if_false, hdefault]

/-- The keys of a result are keys of the schema, in its order. -/
theorem filterMap_entryOf_sublist (schema : List SchemaItem) (raw : Entries) (dropDefaults : Bool) :
    ((schema.filterMap (entryOf SchemaItem.fieldName SchemaItem.key b2value dropDefaults
    raw)).map Prod.fst).Sublist (schema.map SchemaItem.key) := by
  have hkey {item : SchemaItem} {kv' : String × Value}
      (h : entryOf SchemaItem.fieldName SchemaItem.key b2value dropDefaults raw item =
        some kv') : kv'.1 = item.key := by
    rw [entryOf] at h
    split at h
    · obtain ⟨converted, _, rfl⟩ := Option.map_eq_some_iff.1 h
      rfl
    · split_ifs at h
      exact congrArg Prod.fst (Option.some.inj h).symm
  induction schema with
  | nil => exact List.Sublist.refl _
  | cons item schema ih =>
    rw [filterMap_cons]
    split
    · exact ih.cons _
    · next kv' hentry =>
      rw [map_cons, map_cons, hkey hentry]
      exact ih.cons_cons _

/-- **What was sent is stored exactly when every field is known and has a text of its type.** -/
theorem sentExactly_iff (hfields : (schema.map SchemaItem.fieldName).Pairwise (· < ·))
    (hkeys : (schema.map SchemaItem.key).Nodup) {raw : Entries}
    (hraw : (raw.map Prod.fst).Nodup) :
    SentExactly schema raw ↔ ∀ kv ∈ raw, ∃ kv', Sent schema kv kv' := by
  have hperm := ukeysort_perm hraw
  have hnodup : ((ukeysort Prod.fst raw).map Prod.fst).Nodup :=
    (hperm.map Prod.fst).nodup_iff.2 hraw
  constructor
  · rintro ⟨diff, _, hdiff, _⟩ ⟨field, value⟩ hkv
    obtain ⟨_, hknown⟩ := sublist_of_takeNext hdiff
    obtain ⟨item, hitem, hfield, hsome⟩ := hknown _ (hperm.mem_iff.2 hkv)
    obtain ⟨converted, hconverted⟩ := Option.isSome_iff_exists.1 hsome
    exact ⟨(item.key, converted), item, hitem, hfield, rfl, hconverted⟩
  · intro hsent
    have hknown : ∀ kv ∈ ukeysort Prod.fst raw,
        ∃ item ∈ schema, item.fieldName = kv.1 ∧ (b2value kv.2 item.type).isSome := by
      intro kv hkv
      obtain ⟨kv', item, hitem, hfield, _, hvalue⟩ := hsent kv (hperm.mem_iff.1 hkv)
      exact ⟨item, hitem, hfield, by rw [hvalue]; rfl⟩
    have hok (dropDefaults : Bool) :
        takeNext dropDefaults takeNextKv schema (ukeysort Prod.fst raw) [] =
          .ok ((schema.filterMap (entryOf SchemaItem.fieldName SchemaItem.key b2value dropDefaults
            (ukeysort Prod.fst raw))).reverse ++ []) :=
      takeNext_eq_ok hfields (pairwise_ukeysort Prod.fst raw) hknown []
    have hresult (dropDefaults : Bool) :
        ((schema.filterMap (entryOf SchemaItem.fieldName SchemaItem.key b2value dropDefaults
          (ukeysort Prod.fst raw))).reverse.map Prod.fst).Nodup := by
      rw [map_reverse, nodup_reverse]
      exact (filterMap_entryOf_sublist schema _ dropDefaults).nodup hkeys
    have hunsent (kv' : String × Value) :
        Unsent schema (ukeysort Prod.fst raw) kv' ↔ Unsent schema raw kv' := by
      simp only [Unsent, (hperm.map Prod.fst).mem_iff]
    refine ⟨_, _, hok true, hok false, ?_, fun kv' => ?_, ?_, fun kv' => ?_⟩
    · rw [append_nil]
      exact hresult true
    · rw [append_nil, mem_reverse, mem_filterMap_entryOf hnodup]
      simp only [hperm.mem_iff, Bool.true_eq_false, false_and, or_false]
    · rw [append_nil]
      exact hresult false
    · rw [append_nil, mem_reverse, mem_filterMap_entryOf hnodup]
      simp only [hperm.mem_iff, true_and, hunsent]

/-- **The configuration of a room round-trips exactly when the internal keys increase with the field
names**, and what a client sends is read exactly when its texts are of the types of its fields. -/
theorem roomConfig_roundTrips {items : List FieldSpec} {schema : List SchemaItem}
    (hschema : processConfigSchema items = some schema)
    (hkeys : (schema.map SchemaItem.key).Nodup) :
    (∀ config, Complete schema config → (RoundTrips schema config ↔ KeysInFieldOrder schema)) ∧
    (∀ raw : Entries, (raw.map Prod.fst).Nodup →
    (SentExactly schema raw ↔ ∀ kv ∈ raw, ∃ kv', Sent schema kv kv')) := by
  have hfields := processConfigSchema_pairwise hschema
  constructor
  · exact fun config hcomplete => roundTrips_iff hfields hkeys hcomplete
  · exact fun raw hraw => sentExactly_iff hfields hkeys hraw

/-- The example of the documentation: a name and a number with an internal key of its own. -/
def exampleItems : List FieldSpec :=
  [⟨"roomname", some "The Room", none, none⟩,
    ⟨"display-lines", none, some 30, some "display_lines"⟩]

/-- Its schema. -/
def exampleSchema : List SchemaItem :=
  [⟨"display-lines", .integer 30, "display_lines", .integer⟩,
    ⟨"roomname", .binary "The Room", "roomname", .binary⟩]

theorem roomConfig_roundTrips_example :
    RoundTrips exampleSchema [("roomname", .binary "x"), ("display_lines", .integer 7)] ∧
    SentExactly exampleSchema [("display-lines", .binary "7")] := by
  have hschema : processConfigSchema exampleItems = some exampleSchema := by decide
  have h := roomConfig_roundTrips hschema (by decide)
  constructor
  · refine (h.1 _ ⟨by decide, by decide⟩).2 ?_
    unfold KeysInFieldOrder
    decide
  · refine (h.2 _ (by decide)).2 fun kv hkv => ?_
    rw [mem_singleton.1 hkv]
    exact ⟨("display_lines", .integer 7), _, mem_cons_self, rfl, rfl, by decide⟩

/-- Field names and internal keys in opposite orders. -/
def crossedItems : List FieldSpec :=
  [⟨"a", some "", none, some "z"⟩, ⟨"b", some "", none, some "y"⟩]

/-- The schema of these. -/
def crossedSchema : List SchemaItem :=
  [⟨"a", .binary "", "z", .binary⟩, ⟨"b", .binary "", "y", .binary⟩]

/-- The defaults of that schema are not written: the field of the last key has passed by then. -/
theorem roomConfig_crossed : processConfigSchema crossedItems = some crossedSchema ∧
    (crossedSchema.map SchemaItem.key).Nodup ∧
    Complete crossedSchema [("z", .binary ""), ("y", .binary "")] ∧
    toBinaryKv [("z", .binary ""), ("y", .binary "")] crossedSchema = .error ⟨"z", .notFound⟩ ∧
    ¬ RoundTrips crossedSchema [("z", .binary ""), ("y", .binary "")] := by
  refine ⟨by decide, by decide, ⟨by decide, by decide⟩, by decide, ?_⟩
  rintro ⟨raw, hraw, _⟩
  cases hraw

end MongooseIM.MucLight
