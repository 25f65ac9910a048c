import MongooseIM.Erlang.Maps
import MongooseIM.Transition.Run

/-! # What survives when an accumulator is stripped

The values of a `mongoose_acc`, each under a key with its namespace. Those whose keys are in
`nonStrippable`, which must be unique, survive `strip/1`. -/

namespace MongooseIM.Accumulator

open Erlang Transition List

variable {Key Value : Type}

structure Acc (Key Value : Type) where
  fields : AList fun _ : Key => Value := ∅
  nonStrippable : List Key := []

inductive Call (Key Value : Type)
  /-- `set/2`, `set/3` and `set/4` -/
  | set (kvs : List (Key × Value))
  /-- `set_permanent/4` -/
  | setPermanent (key : Key) (value : Value)
  /-- `set_permanent/2` and `set_permanent/3` -/
  | setPermanentAll (kvs : List (Key × Value))
  /-- `delete/3` -/
  | delete (key : Key)
  /-- `delete_many/3` -/
  | deleteMany (keys : List Key)
  /-- `strip/1` -/
  | strip

variable [DecidableEq Key] (acc : Acc Key Value)

/-- `set/2`, as a merge with `maps:from_list/1` -/
def set (kvs : List (Key × Value)) : Acc Key Value :=
  { acc with fields := kvs.foldl (fun fields kv => fields.insert kv.1 kv.2) acc.fields }

/-- The keys that `set_permanent/2` adds. -/
def newKeys (kvs : List (Key × Value)) : List Key :=
  (kvs.map Prod.fst).filter (· ∉ acc.nonStrippable)

def step : Call Key Value → Acc Key Value
  | .set kvs => set acc kvs
  | .setPermanent key value => ⟨acc.fields.insert key value, key :: acc.nonStrippable.erase key⟩
  | .setPermanentAll kvs =>
    set { acc with nonStrippable := newKeys acc kvs ++ acc.nonStrippable } kvs
  | .delete key => ⟨acc.fields.erase key, acc.nonStrippable.erase key⟩
  | .deleteMany keys =>
    ⟨keys.foldl (fun fields key => fields.erase key) acc.fields, acc.nonStrippable.diff keys⟩
  | .strip => { acc with fields := filterKeys (· ∈ acc.nonStrippable) acc.fields }

/-- Whether a key is permanent after a call. -/
def permanentStep (key : Key) (permanent : Bool) : Call Key Value → Bool
  | .setPermanent key' _ => key = key' || permanent
  | .setPermanentAll kvs => key ∈ kvs.map Prod.fst || permanent
  | .delete key' => key ≠ key' && permanent
  | .deleteMany keys => key ∉ keys && permanent
  | _ => permanent

/-- The key was set permanently and not deleted since. -/
def permanent (calls : List (Call Key Value)) (key : Key) : Bool :=
  calls.foldl (permanentStep key) false

/-- No list of permanent values has a new key twice. -/
def Once : Call Key Value → Prop
  | .setPermanentAll kvs => (newKeys acc kvs).Nodup
  | _ => True

/-- The permanent keys are there, each once. -/
structure Unique (calls : List (Call Key Value)) (acc : Acc Key Value) : Prop where
  nodup : acc.nonStrippable.Nodup
  mem_iff : ∀ key, key ∈ acc.nonStrippable ↔ permanent calls key = true

variable {acc} {calls : List (Call Key Value)}

theorem Unique.step {call : Call Key Value} {acc' : Acc Key Value} (h : Unique calls acc)
    (hstep : some (step acc call) = some acc') : Unique (calls ++ [call]) acc' ↔ Once acc call := by
  cases hstep
  have hlast (key : Key) : permanent (calls ++ [call]) key =
      permanentStep key (permanent calls key) call := foldl_concat ..
  have hmem := h.mem_iff
  cases call with
  | set kvs => exact iff_of_true ⟨h.nodup, fun key => by rw [hlast]; exact hmem key⟩ trivial
  | setPermanent key value =>
    have hnodup := nodup_cons.2 ⟨h.nodup.not_mem_erase, h.nodup.erase key⟩
    refine iff_of_true ⟨hnodup, fun key' => ?_⟩ trivial
    by_cases heq : key' = key <;> simp [hlast, permanentStep, Accumulator.step, heq, hmem]
  | setPermanentAll kvs =>
    have hdisjoint : Disjoint (newKeys acc kvs) acc.nonStrippable := by
      intro key hnew hold
      simp [newKeys, hold] at hnew
    constructor
    · exact fun h' => h'.nodup.of_append_left
    · refine fun hnew => ⟨hnew.append h.nodup hdisjoint, fun key => ?_⟩
      show key ∈ newKeys acc kvs ++ acc.nonStrippable ↔ _
      by_cases hin : key ∈ acc.nonStrippable <;>
        simp [hlast, permanentStep, newKeys, ← hmem, hin]
  | delete key =>
    refine iff_of_true ⟨h.nodup.erase key, fun key' => ?_⟩ trivial
    simp [hlast, permanentStep, Accumulator.step, h.nodup.mem_erase_iff, hmem]
  | deleteMany keys =>
    refine iff_of_true ⟨h.nodup.diff, fun key => ?_⟩ trivial
    simp [hlast, permanentStep, Accumulator.step, h.nodup.mem_sdiff_iff, hmem, and_comm]
  | strip => exact iff_of_true ⟨h.nodup, fun key => by rw [hlast]; exact hmem key⟩ trivial

theorem Unique.init : Unique [] ({} : Acc Key Value) := ⟨nodup_nil, by simp [permanent]⟩

/-- **The keys are unique** exactly as long as each list of permanent values has them once. -/
theorem nonStrippable_unique_iff (calls : List (Call Key Value)) :
    Guarded (fun acc call => some (step acc call)) Once {} calls ↔
    ∀ before, before <+: calls → Unique before (before.foldl step {}) := by
  rw [guarded_iff_holds_along (P := Unique) (fun _ _ => ⟨_, rfl⟩) (fun _ _ _ _ h => h.step) .init]
  simp [run_some]

/-- **Exactly the permanent values survive.** -/
theorem lookup_strip (hg : Guarded (fun acc call => some (step acc call)) Once {} calls)
    (hacc : calls.foldl step {} = acc) (key : Key) : (step acc .strip).fields.lookup key =
    if permanent calls key then acc.fields.lookup key else none := by
  have hunique : Unique calls acc := run_history_induction (h := [])
    (fun _ _ _ _ h hok hstep => (h.step hstep).2 hok) .init hg (by rw [run_some, hacc])
  show (filterKeys _ acc.fields).lookup key = _
  rw [lookup_filterKeys]
  simp [hunique.mem_iff]

/-- A value that was permanent is set once more after its deletion. -/
theorem lookup_strip_deleted :
    (step (⟨AList.singleton 1 "b", []⟩ : Acc ℕ String) .strip).fields.lookup 1 = none :=
  @lookup_strip ℕ String _ _ [.setPermanentAll [(1, "a")], .delete 1, .set [(1, "b")]]
    (by simp [Guarded, Once, newKeys]) rfl 1

end MongooseIM.Accumulator
