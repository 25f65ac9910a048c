import Mathlib.Data.List.AList
import MongooseIM.Xmpp.Stanza

/-! # The metadata of a global message

The fields of a `mongoose_acc` that `mod_global_distrib` and a client session put there. A field is
permanent when its key is among the non-strippable ones. -/

namespace MongooseIM.GlobalDistrib

open Xmpp

/-- A key of an accumulator. -/
inductive Key
  /-- `{global_distrib, origin}` -/
  | origin
  /-- `{global_distrib, id}` -/
  | id
  /-- `{global_distrib, ttl}` -/
  | ttl
  /-- `{global_distrib, target_host_override}` -/
  | targetHostOverride
  /-- `{global_distrib, {bounce_ttl, Host}}` -/
  | bounceTtl (host : String)
  /-- `{c2s, receiver_sid}` -/
  | receiverSid
  deriving DecidableEq

/-- The values under a key. -/
abbrev Key.Value : Key → Type
  | .ttl => ℤ
  | .bounceTtl _ => ℤ
  | .receiverSid => Sid
  | .origin => String
  | .id => String
  | .targetHostOverride => String

instance : (key : Key) → DecidableEq key.Value
  | .ttl => inferInstanceAs (DecidableEq ℤ)
  | .bounceTtl _ => inferInstanceAs (DecidableEq ℤ)
  | .receiverSid => inferInstanceAs (DecidableEq Sid)
  | .origin => inferInstanceAs (DecidableEq String)
  | .id => inferInstanceAs (DecidableEq String)
  | .targetHostOverride => inferInstanceAs (DecidableEq String)

/-- A `mongoose_acc`. -/
structure Acc where
  fields : AList Key.Value := ∅
  nonStrippable : List Key := []

namespace Acc

instance : DecidableEq Acc := fun a b =>
  decidable_of_iff (a.fields.entries = b.fields.entries ∧ a.nonStrippable = b.nonStrippable) <| by
    rw [← AList.ext_iff]
    cases a
    cases b
    simp

variable (acc : Acc) (key : Key)

/-- `mongoose_acc:get/3` -/
def get : Option key.Value := acc.fields.lookup key

/-- `mongoose_acc:set_permanent/4` -/
def setPermanent (value : key.Value) : Acc where
  fields := acc.fields.insert key value
  nonStrippable := key :: acc.nonStrippable.erase key

/-- `mongoose_acc:delete/3` -/
def delete : Acc where
  fields := acc.fields.erase key
  nonStrippable := acc.nonStrippable.erase key

/-- `mongoose_acc:strip/1` -/
def strip : Acc where
  fields := ⟨acc.fields.entries.filter fun e => e.1 ∈ acc.nonStrippable,
    acc.fields.nodupKeys.sublist List.filter_sublist⟩
  nonStrippable := acc.nonStrippable

variable (acc : Acc) (key : Key)

@[simp] theorem get_setPermanent (value : key.Value) :
    (acc.setPermanent key value).get key = some value :=
  AList.lookup_insert _

theorem get_setPermanent_ne {key key' : Key} (value : key.Value) (h : key' ≠ key) :
    (acc.setPermanent key value).get key' = acc.get key' :=
  AList.lookup_insert_ne h

@[simp] theorem get_delete : (acc.delete key).get key = none := AList.lookup_erase _ _

theorem get_delete_ne {key key' : Key} (h : key' ≠ key) :
    (acc.delete key).get key' = acc.get key' :=
  AList.lookup_erase_ne h

theorem get_strip : acc.strip.get key = if key ∈ acc.nonStrippable then acc.get key else none := by
  refine Option.ext fun value => ?_
  rw [← Option.mem_def, ← Option.mem_def, get, AList.mem_lookup_iff]
  show _ ∈ acc.fields.entries.filter _ ↔ _
  rw [List.mem_filter]
  split
  · rename_i hkey
    simp [hkey, get, ← AList.mem_lookup_iff]
  · rename_i hkey
    simp [hkey]

/-- Every field is permanent. -/
def Permanent : Prop := ∀ key value, acc.get key = some value → key ∈ acc.nonStrippable

theorem Permanent.empty : Permanent {} := fun _ _ h => nomatch h

section

variable {acc : Acc} (hacc : acc.Permanent)

include hacc

variable (key : Key)

theorem Permanent.setPermanent (value : key.Value) : (acc.setPermanent key value).Permanent := by
  intro key' value' h
  by_cases hkey : key' = key
  · subst hkey
    exact List.mem_cons_self
  · rw [get_setPermanent_ne acc value hkey] at h
    exact List.mem_cons_of_mem _ ((List.mem_erase_of_ne hkey).2 (hacc key' value' h))

theorem Permanent.delete : (acc.delete key).Permanent := by
  intro key' value' h
  by_cases hkey : key' = key
  · subst hkey
    rw [get_delete] at h
    cases h
  · rw [get_delete_ne acc hkey] at h
    exact (List.mem_erase_of_ne hkey).2 (hacc key' value' h)

theorem Permanent.get_strip : acc.strip.get key = acc.get key := by
  rw [Acc.get_strip]
  split
  · rfl
  · rename_i hkey
    cases hget : acc.get key with
    | none => rfl
    | some value => exact absurd (hacc key value hget) hkey

theorem Permanent.strip : acc.strip.Permanent := by
  intro key value h
  rw [hacc.get_strip] at h
  exact hacc key value h

end

end Acc

end MongooseIM.GlobalDistrib
