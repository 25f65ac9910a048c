import Mathlib.Data.Prod.Lex
import Mathlib.Data.String.Basic
import MongooseIM.Erlang.Lists
import MongooseIM.Erlang.Maps
import MongooseIM.Pubsub.State

/-! # The states and items of the Mnesia backend

`pubsub_state`, `pubsub_subscription` and `pubsub_item` of `mod_pubsub_db_mnesia`. An item is stored
in the third table, and its identifier is in the list of its publisher in the first one. -/

namespace MongooseIM.Pubsub.Mnesia

open Erlang Xmpp List

/-- The tables. -/
structure States where
  states : AList fun _ : Jid × ℕ => PubsubState := ∅
  /-- `pubsub_subscription` -/
  subscriptions : AList fun _ : SubId => SubOptions := ∅
  items : AList fun _ : ItemId × ℕ => PubsubItem := ∅

namespace States

/-! ## States -/

/-- `get_state/3` -/
def getState (t : States) (nidx : ℕ) (ljid : Jid) : PubsubState :=
  (t.states.lookup (ljid, nidx)).getD {}

/-- `mnesia:write/1` of a state. -/
def writeState (t : States) (nidx : ℕ) (ljid : Jid) (state : PubsubState) : States :=
  { t with states := t.states.insert (ljid, nidx) state }

/-- `get_states/1` -/
def getStates (t : States) (nidx : ℕ) : List (Jid × PubsubState) :=
  (t.states.entries.filter fun e => e.1.2 = nidx).map fun e => (e.1.1, e.2)

/-- `get_states_by_lus/1` -/
def getStatesByLus (t : States) (ljid : Jid) : List ((Jid × ℕ) × PubsubState) :=
  (t.states.entries.filter fun e => e.1.1.luser = ljid.luser ∧ e.1.1.lserver = ljid.lserver).map
    fun e => (e.1, e.2)

/-- `mnesia:delete/1` of the options of some subscriptions. -/
def deleteOpts (t : States) (subs : List (Subscription × SubId)) : States :=
  { t with subscriptions := subs.foldl (fun opts sub => opts.erase sub.2) t.subscriptions }

/-- `del_state/1` -/
def delState (t : States) (nidx : ℕ) (ljid : Jid) (state : PubsubState) : States :=
  let t := t.deleteOpts state.subscriptions
  { t with states := t.states.erase (ljid, nidx) }

/-- `del_state_by_idx_and_ljid/2` -/
def delStateByIdxAndLjid (t : States) (nidx : ℕ) (ljid : Jid) : States :=
  t.delState nidx ljid (t.getState nidx ljid)

/-! ## Affiliations -/

/-- `set_affiliation/3` -/
def setAffiliation (t : States) (nidx : ℕ) (ljid : Jid) (affiliation : Affiliation) : States :=
  let bareLjid := ljid.toBare
  let state := t.getState nidx bareLjid
  if affiliation = .none ∧ state.subscriptions = [] then t.delStateByIdxAndLjid nidx bareLjid
  else t.writeState nidx bareLjid { state with affiliation := affiliation }

/-- `get_affiliation/2` -/
def getAffiliation (t : States) (nidx : ℕ) (ljid : Jid) : Affiliation :=
  (t.getState nidx ljid.toBare).affiliation

/-- `create_node/2` -/
def createNode (t : States) (nidx : ℕ) (owner : Jid) : States :=
  t.setAffiliation nidx owner .owner

/-! ## Subscriptions -/

/-- `set_subscription_opts/4` -/
def setSubscriptionOpts (t : States) (subId : SubId) (opts : SubOptions) : States :=
  { t with subscriptions := t.subscriptions.insert subId opts }

/-- `add_subscription/5` -/
def addSubscription (t : States) (nidx : ℕ) (ljid : Jid) (sub : Subscription) (subId : SubId)
    (opts : SubOptions) : States :=
  let state := t.getState nidx ljid
  let t := t.writeState nidx ljid
    { state with subscriptions := (sub, subId) :: state.subscriptions }
  t.setSubscriptionOpts subId opts

/-- `lists:keydelete/3` of a subscription. -/
def keydeleteSub (subId : SubId) :
    List (Subscription × SubId) → List (Subscription × SubId)
  | [] => []
  | sub :: subs => if sub.2 = subId then subs else sub :: keydeleteSub subId subs

/-- `lists:keyreplace/4` of a subscription. -/
def keyreplaceSub (subId : SubId) (new : Subscription × SubId) :
    List (Subscription × SubId) → List (Subscription × SubId)
  | [] => []
  | sub :: subs => if sub.2 = subId then new :: subs else sub :: keyreplaceSub subId new subs

/-- `delete_subscription/3` -/
def deleteSubscription (t : States) (nidx : ℕ) (ljid : Jid) (subId : SubId) : States :=
  let state := t.getState nidx ljid
  let newSubs := keydeleteSub subId state.subscriptions
  let t := { t with subscriptions := t.subscriptions.erase subId }
  if state.affiliation = .none ∧ newSubs = [] then t.delStateByIdxAndLjid nidx ljid
  else t.writeState nidx ljid { state with subscriptions := newSubs }

/-- `delete_all_subscriptions_by_state/1` -/
def deleteAllSubscriptionsByState (t : States) (nidx : ℕ) (ljid : Jid) (state : PubsubState) :
    States :=
  let t := t.deleteOpts state.subscriptions
  if state.affiliation = .none then t.delState nidx ljid state
  else t.writeState nidx ljid { state with subscriptions := [] }

/-- `delete_all_subscriptions/2` -/
def deleteAllSubscriptions (t : States) (nidx : ℕ) (ljid : Jid) : States :=
  t.deleteAllSubscriptionsByState nidx ljid (t.getState nidx ljid)

/-- `delete_user_subscriptions/1` -/
def deleteUserSubscriptions (t : States) (ljid : Jid) : States :=
  (t.getStatesByLus ljid).foldl
    (fun t state => t.deleteAllSubscriptionsByState state.1.2 state.1.1 state.2) t

/-- `update_subscription/4` -/
def updateSubscription (t : States) (nidx : ℕ) (ljid : Jid) (sub : Subscription) (subId : SubId) :
    States :=
  let state := t.getState nidx ljid
  t.writeState nidx ljid
    { state with subscriptions := keyreplaceSub subId (sub, subId) state.subscriptions }

/-! ## Items -/

/-- `get_item/2` -/
def getItem (t : States) (nidx : ℕ) (itemId : ItemId) : Option PubsubItem :=
  t.items.lookup (itemId, nidx)

/-- `set_item/1` -/
def setItem (t : States) (nidx : ℕ) (itemId : ItemId) (item : PubsubItem) : States :=
  { t with items := t.items.insert (itemId, nidx) item }

/-- `del_item/2` -/
def delItem (t : States) (nidx : ℕ) (itemId : ItemId) : States :=
  { t with items := t.items.erase (itemId, nidx) }

/-- `del_items/2` -/
def delItems (t : States) (nidx : ℕ) (itemIds : List ItemId) : States :=
  itemIds.foldl (fun t itemId => t.delItem nidx itemId) t

/-- `remove_items/3` -/
def removeItems (t : States) (nidx : ℕ) (ljid : Jid) (itemIds : List ItemId) : States :=
  let state := t.getState nidx ljid.toBare
  t.writeState nidx ljid.toBare { state with items := state.items.diff itemIds }

/-- `remove_all_items/1` -/
def removeAllItems (t : States) (nidx : ℕ) : States :=
  (t.getStates nidx).foldl
    (fun t state =>
      if state.2.items = [] then t else t.writeState nidx state.1 { state.2 with items := [] }) t

/-- `add_item/3` -/
def addItem (t : States) (nidx : ℕ) (ljid : Jid) (itemId : ItemId) (item : PubsubItem) : States :=
  let t := t.setItem nidx itemId item
  let state := t.getState nidx ljid.toBare
  t.writeState nidx ljid.toBare { state with items := itemId :: state.items }

/-- `del_node/1`: the states that there were. -/
def delNode (t : States) (nidx : ℕ) : List (Jid × PubsubState) × States :=
  let states := t.getStates nidx
  (states, states.foldl
    (fun t state => (t.delItems nidx state.2.items).delStateByIdxAndLjid nidx state.1) t)

/-! ## Lists and stored items -/

variable {t : States} {nidx nidx' : ℕ} {ljid ljid' : Jid} {itemId : ItemId}

/-- The list of an entity. -/
def itemsOf (t : States) (nidx : ℕ) (ljid : Jid) : List ItemId := (t.getState nidx ljid).items

/-- The item is stored. -/
def Stored (t : States) (nidx : ℕ) (itemId : ItemId) : Prop := t.getItem nidx itemId ≠ none

instance (t : States) (nidx : ℕ) (itemId : ItemId) : Decidable (t.Stored nidx itemId) :=
  inferInstanceAs (Decidable (_ ≠ none))

/-- Looking a state up after a write, by cases on the key. -/
theorem getState_writeState (state : PubsubState) :
    (t.writeState nidx ljid state).getState nidx' ljid' =
    if (ljid', nidx') = (ljid, nidx) then state else t.getState nidx' ljid' := by
  rw [getState, writeState, lookup_insert]
  split <;> rfl

/-- Looking a state up after it was deleted, by cases on the key. -/
theorem getState_delState (state : PubsubState) :
    (t.delState nidx ljid state).getState nidx' ljid' =
    if (ljid', nidx') = (ljid, nidx) then {} else t.getState nidx' ljid' := by
  rw [getState, delState, lookup_erase]
  split <;> rfl

theorem itemsOf_writeState (state : PubsubState) :
    (t.writeState nidx ljid state).itemsOf nidx' ljid' =
    if (ljid', nidx') = (ljid, nidx) then state.items else t.itemsOf nidx' ljid' := by
  rw [itemsOf, getState_writeState]
  split <;> rfl

theorem itemsOf_writeState_of_same {state : PubsubState}
    (hsame : state.items = t.itemsOf nidx ljid) :
    (t.writeState nidx ljid state).itemsOf nidx' ljid' = t.itemsOf nidx' ljid' := by
  rw [itemsOf_writeState, hsame]
  split
  · rename_i heq
    cases heq
    rfl
  · rfl

theorem itemsOf_delState (state : PubsubState) : (t.delState nidx ljid state).itemsOf nidx' ljid' =
    if (ljid', nidx') = (ljid, nidx) then [] else t.itemsOf nidx' ljid' := by
  rw [itemsOf, getState_delState]
  split <;> rfl

@[simp] theorem stored_delState (state : PubsubState) :
    (t.delState nidx ljid state).Stored nidx' itemId ↔ t.Stored nidx' itemId := Iff.rfl

theorem stored_setItem (id : ItemId) (item : PubsubItem) :
    (t.setItem nidx id item).Stored nidx' itemId ↔
    (nidx' = nidx ∧ itemId = id) ∨ t.Stored nidx' itemId := by
  rw [Stored, getItem, setItem, lookup_insert]
  split
  · rename_i heq
    cases heq
    simp
  · rename_i hne
    rw [← getItem, ← Stored, or_iff_right]
    rintro ⟨rfl, rfl⟩
    exact hne rfl

theorem stored_delItem (id : ItemId) : (t.delItem nidx id).Stored nidx' itemId ↔
    t.Stored nidx' itemId ∧ ¬ (nidx' = nidx ∧ itemId = id) := by
  rw [Stored, getItem, delItem, lookup_erase]
  split
  · rename_i heq
    cases heq
    simp
  · rename_i hne
    rw [← getItem, ← Stored, iff_self_and]
    rintro - ⟨rfl, rfl⟩
    exact hne rfl

section

variable (ids : List ItemId)

@[simp] theorem getState_delItems :
    (t.delItems nidx ids).getState nidx' ljid = t.getState nidx' ljid := by
  induction ids generalizing t with
  | nil => rfl
  | cons id ids ih => exact ih

@[simp] theorem itemsOf_delItems :
    (t.delItems nidx ids).itemsOf nidx' ljid = t.itemsOf nidx' ljid := by
  rw [itemsOf, getState_delItems, itemsOf]

theorem stored_delItems : (t.delItems nidx ids).Stored nidx' itemId ↔
    t.Stored nidx' itemId ∧ ¬ (nidx' = nidx ∧ itemId ∈ ids) := by
  induction ids generalizing t with
  | nil => simp [delItems]
  | cons id ids ih =>
    show (delItems (t.delItem nidx id) nidx ids).Stored nidx' itemId ↔ _
    rw [ih, stored_delItem, mem_cons]
    tauto

/-- **`remove_items/3`** -/
theorem itemsOf_removeItems : (t.removeItems nidx ljid ids).itemsOf nidx' ljid' =
    if (ljid', nidx') = (ljid.toBare, nidx) then (t.itemsOf nidx ljid.toBare).diff ids
    else t.itemsOf nidx' ljid' := itemsOf_writeState _

end

theorem mem_itemsOf_removeItems (hnodup : (t.itemsOf nidx ljid.toBare).Nodup) (ids : List ItemId) :
    itemId ∈ (t.removeItems nidx ljid ids).itemsOf nidx' ljid' ↔
    itemId ∈ t.itemsOf nidx' ljid' ∧ ¬ ((ljid', nidx') = (ljid.toBare, nidx) ∧ itemId ∈ ids) := by
  rw [itemsOf_removeItems]
  split
  · rename_i heq
    cases heq
    simp [hnodup.mem_sdiff_iff]
  · rename_i hne
    simp [hne]

theorem nodup_itemsOf_removeItems (ids : List ItemId)
    (hnodup : ∀ ljid, (t.itemsOf nidx' ljid).Nodup) :
    ((t.removeItems nidx ljid ids).itemsOf nidx' ljid').Nodup := by
  rw [itemsOf_removeItems]
  split
  · rename_i heq
    obtain ⟨-, rfl⟩ := Prod.mk.inj heq
    exact (hnodup _).diff
  · exact hnodup ljid'

@[simp] theorem stored_removeItems (ids : List ItemId) :
    (t.removeItems nidx ljid ids).Stored nidx' itemId ↔ t.Stored nidx' itemId := Iff.rfl

/-- **`add_item/3`** -/
theorem itemsOf_addItem (id : ItemId) (item : PubsubItem) :
    (t.addItem nidx ljid id item).itemsOf nidx' ljid' =
    if (ljid', nidx') = (ljid.toBare, nidx) then id :: t.itemsOf nidx ljid.toBare
    else t.itemsOf nidx' ljid' := itemsOf_writeState _

theorem stored_addItem (id : ItemId) (item : PubsubItem) :
    (t.addItem nidx ljid id item).Stored nidx' itemId ↔
    (nidx' = nidx ∧ itemId = id) ∨ t.Stored nidx' itemId := stored_setItem id item

/-- **`set_affiliation/3`**: a state without subscriptions is deleted with its list. -/
theorem itemsOf_setAffiliation (affiliation : Affiliation) :
    (t.setAffiliation nidx ljid affiliation).itemsOf nidx' ljid' =
    if (ljid', nidx') = (ljid.toBare, nidx) ∧ affiliation = .none ∧
        (t.getState nidx ljid.toBare).subscriptions = [] then []
    else t.itemsOf nidx' ljid' := by
  simp only [setAffiliation]
  split
  · rename_i hdelete
    simp only [delStateByIdxAndLjid, itemsOf_delState, hdelete, and_true]
  · rename_i hwrite
    rw [if_neg fun h => hwrite h.2]
    exact itemsOf_writeState_of_same rfl

@[simp] theorem stored_setAffiliation (affiliation : Affiliation) :
    (t.setAffiliation nidx ljid affiliation).Stored nidx' itemId ↔ t.Stored nidx' itemId := by
  simp only [setAffiliation]
  split <;> exact Iff.rfl

section

variable (sub : Subscription) (subId : SubId)

/-- **`add_subscription/5`** keeps the lists. -/
@[simp] theorem itemsOf_addSubscription (opts : SubOptions) :
    (t.addSubscription nidx ljid sub subId opts).itemsOf nidx' ljid' = t.itemsOf nidx' ljid' := by
  show (t.writeState nidx ljid _).itemsOf nidx' ljid' = _
  exact itemsOf_writeState_of_same rfl

@[simp] theorem stored_addSubscription (opts : SubOptions) :
    (t.addSubscription nidx ljid sub subId opts).Stored nidx' itemId ↔ t.Stored nidx' itemId :=
  Iff.rfl

/-- **`update_subscription/4`** keeps the lists. -/
@[simp] theorem itemsOf_updateSubscription :
    (t.updateSubscription nidx ljid sub subId).itemsOf nidx' ljid' = t.itemsOf nidx' ljid' :=
  itemsOf_writeState_of_same rfl

@[simp] theorem stored_updateSubscription :
    (t.updateSubscription nidx ljid sub subId).Stored nidx' itemId ↔ t.Stored nidx' itemId :=
  Iff.rfl

end

/-- **`delete_subscription/3`**: a state that has nothing left but its list is deleted with it. -/
theorem itemsOf_deleteSubscription (subId : SubId) :
    (t.deleteSubscription nidx ljid subId).itemsOf nidx' ljid' =
    if (ljid', nidx') = (ljid, nidx) ∧ (t.getState nidx ljid).affiliation = .none ∧
        keydeleteSub subId (t.getState nidx ljid).subscriptions = [] then []
    else t.itemsOf nidx' ljid' := by
  simp only [deleteSubscription]
  split
  · rename_i hdelete
    simp only [delStateByIdxAndLjid, itemsOf_delState, hdelete, and_true]
    rfl
  · rename_i hwrite
    rw [if_neg fun h => hwrite h.2]
    exact itemsOf_writeState_of_same rfl

@[simp] theorem stored_deleteSubscription (subId : SubId) :
    (t.deleteSubscription nidx ljid subId).Stored nidx' itemId ↔ t.Stored nidx' itemId := by
  simp only [deleteSubscription]
  split <;> exact Iff.rfl

/-- **`delete_all_subscriptions_by_state/1`**: a state without an affiliation is deleted with its
list. -/
theorem itemsOf_deleteAllSubscriptionsByState (state : PubsubState) :
    (t.deleteAllSubscriptionsByState nidx ljid state).itemsOf nidx' ljid' =
    if (ljid', nidx') = (ljid, nidx) then
      if state.affiliation = .none then [] else state.items
    else t.itemsOf nidx' ljid' := by
  simp only [deleteAllSubscriptionsByState]
  split
  · exact itemsOf_delState _
  · exact itemsOf_writeState _

@[simp] theorem stored_deleteAllSubscriptionsByState (state : PubsubState) :
    (t.deleteAllSubscriptionsByState nidx ljid state).Stored nidx' itemId ↔
    t.Stored nidx' itemId := by
  simp only [deleteAllSubscriptionsByState]
  split <;> exact Iff.rfl

/-! ## All the states of a node -/

/-- The states of a node are those that are stored. -/
theorem mem_getStates {state : PubsubState} :
    (ljid, state) ∈ t.getStates nidx ↔ t.states.lookup (ljid, nidx) = some state := by
  rw [← Option.mem_def, AList.mem_lookup_iff, getStates, mem_map]
  constructor
  · rintro ⟨⟨⟨ljid', nidx'⟩, state'⟩, hentry, heq⟩
    cases heq
    rw [mem_filter] at hentry
    obtain ⟨hentry, hnidx⟩ := hentry
    obtain rfl : nidx' = nidx := of_decide_eq_true hnidx
    exact hentry
  · intro hentry
    exact ⟨⟨(ljid, nidx), state⟩, mem_filter.2 ⟨hentry, by simp⟩, rfl⟩

theorem exists_mem_getStates (hitem : itemId ∈ t.itemsOf nidx ljid) :
    ∃ state, (ljid, state) ∈ t.getStates nidx ∧ state.items = t.itemsOf nidx ljid := by
  cases hlookup : t.states.lookup (ljid, nidx) with
  | none =>
    have hnil : t.itemsOf nidx ljid = [] := by
      rw [itemsOf, getState, hlookup, Option.getD_none]
    rw [hnil] at hitem
    exact absurd hitem not_mem_nil
  | some state => exact ⟨state, mem_getStates.2 hlookup, by rw [itemsOf, getState, hlookup]; rfl⟩

/-- The states of a node have the lists of their entities. -/
theorem items_of_mem_getStates {state : Jid × PubsubState} (hstate : state ∈ t.getStates nidx) :
    state.2.items = t.itemsOf nidx state.1 := by
  rw [itemsOf, getState, mem_getStates.1 hstate, Option.getD_some]

/-- What the states of a node list is what their entities list. -/
theorem exists_mem_items_getStates : (∃ state ∈ t.getStates nidx, itemId ∈ state.2.items) ↔
    ∃ ljid, itemId ∈ t.itemsOf nidx ljid := by
  constructor
  · rintro ⟨state, hstate, hitem⟩
    exact ⟨state.1, items_of_mem_getStates hstate ▸ hitem⟩
  · rintro ⟨ljid, hitem⟩
    obtain ⟨state, hstate, hitems⟩ := exists_mem_getStates hitem
    exact ⟨(ljid, state), hstate, by rwa [hitems]⟩

theorem itemsOf_foldl_delItems (states : List (Jid × PubsubState)) :
    (states.foldl (fun t state => if state.2.items = [] then t else t.delItems nidx state.2.items)
    t).itemsOf nidx' ljid' = t.itemsOf nidx' ljid' := by
  induction states generalizing t with
  | nil => rfl
  | cons state states ih =>
    rw [foldl_cons, ih]
    split
    · rfl
    · exact itemsOf_delItems _

/-- What is stored after the items of some states were deleted. -/
theorem stored_foldl_delItems (states : List (Jid × PubsubState)) :
    (states.foldl (fun t state => if state.2.items = [] then t else t.delItems nidx state.2.items)
    t).Stored nidx' itemId ↔
    t.Stored nidx' itemId ∧ ¬ (nidx' = nidx ∧ ∃ state ∈ states, itemId ∈ state.2.items) := by
  induction states generalizing t with
  | nil => simp
  | cons state states ih =>
    rw [foldl_cons, ih, exists_mem_cons_iff]
    split
    · rename_i hnil
      simp [hnil]
    · rw [stored_delItems, and_assoc, ← not_or, ← and_or_left]

/-- A fold that empties the lists of states of the node empties all of them, if it comes to every
state with items. -/
theorem itemsOf_foldl_states {f : States → Jid × PubsubState → States}
    {p : Jid × PubsubState → Prop} [DecidablePred p]
    (hf : ∀ t state, (f t state).itemsOf nidx' ljid' =
    if p state ∧ (ljid', nidx') = (state.1, nidx) then [] else t.itemsOf nidx' ljid')
    (hp : ∀ state : Jid × PubsubState, state.2.items ≠ [] → p state) :
    ((t.getStates nidx).foldl f t).itemsOf nidx' ljid' =
    if nidx' = nidx then [] else t.itemsOf nidx' ljid' := by
  rw [get_foldl (fun t : States => t.itemsOf nidx' ljid') (v := [])
    (fun t state _ hstate => (hf t state).trans (if_pos hstate))
    (fun t state _ hstate => (hf t state).trans (if_neg hstate))]
  by_cases hnidx : nidx' = nidx
  · subst hnidx
    rw [if_pos rfl]
    split
    · rfl
    · rename_i hnone
      by_contra hne
      obtain ⟨id, hid⟩ := exists_mem_of_ne_nil _ hne
      obtain ⟨state, hstate, hitems⟩ := exists_mem_getStates hid
      exact hnone ⟨(ljid', state), hstate, hp _ (by rw [hitems]; exact hne), rfl⟩
  · rw [if_neg hnidx, if_neg]
    rintro ⟨state, -, -, hkey⟩
    exact hnidx (Prod.mk.inj hkey).2

/-- **`remove_all_items/1`** -/
theorem itemsOf_removeAllItems : (t.removeAllItems nidx).itemsOf nidx' ljid' =
    if nidx' = nidx then [] else t.itemsOf nidx' ljid' := by
  refine itemsOf_foldl_states (p := fun state => state.2.items ≠ []) (fun t state => ?_)
    fun _ hstate => hstate
  by_cases hnil : state.2.items = []
  · simp [hnil]
  · simp [hnil, itemsOf_writeState]

theorem stored_removeAllItems :
    (t.removeAllItems nidx).Stored nidx' itemId ↔ t.Stored nidx' itemId := by
  have hfold : ∀ (states : List (Jid × PubsubState)) (t : States),
      (states.foldl (fun t state => if state.2.items = [] then t
        else t.writeState nidx state.1 { state.2 with items := [] }) t).Stored nidx' itemId ↔
      t.Stored nidx' itemId := by
    intro states
    induction states with
    | nil => exact fun _ => Iff.rfl
    | cons state states ih =>
      intro t
      rw [foldl_cons, ih]
      split <;> exact Iff.rfl
  exact hfold _ _

/-- **`del_node/1`** leaves no list of the node. -/
theorem itemsOf_delNode : (t.delNode nidx).2.itemsOf nidx' ljid' =
    if nidx' = nidx then [] else t.itemsOf nidx' ljid' := by
  refine itemsOf_foldl_states (p := fun _ => True) (fun t state => ?_) fun _ _ => trivial
  rw [delStateByIdxAndLjid, itemsOf_delState, itemsOf_delItems]
  simp

/-- **`del_node/1`** deletes the items of the node that a list has. -/
theorem stored_delNode : (t.delNode nidx).2.Stored nidx' itemId ↔
    t.Stored nidx' itemId ∧ ¬ (nidx' = nidx ∧ ∃ ljid, itemId ∈ t.itemsOf nidx ljid) := by
  have hfold : ∀ (states : List (Jid × PubsubState)) (t : States), (states.foldl (fun t state =>
        (t.delItems nidx state.2.items).delStateByIdxAndLjid nidx state.1) t).Stored nidx' itemId ↔
      t.Stored nidx' itemId ∧ ¬ (nidx' = nidx ∧ ∃ state ∈ states, itemId ∈ state.2.items) := by
    intro states
    induction states with
    | nil => simp
    | cons state states ih =>
      intro t
      rw [foldl_cons, ih, exists_mem_cons_iff, delStateByIdxAndLjid, stored_delState,
        stored_delItems, and_assoc, ← not_or, ← and_or_left]
  rw [delNode, hfold, exists_mem_items_getStates]

/-- **`delete_all_subscriptions/2`** -/
theorem itemsOf_deleteAllSubscriptions : (t.deleteAllSubscriptions nidx ljid).itemsOf nidx' ljid' =
    if (ljid', nidx') = (ljid, nidx) ∧ (t.getState nidx ljid).affiliation = .none then []
    else t.itemsOf nidx' ljid' := by
  rw [deleteAllSubscriptions, itemsOf_deleteAllSubscriptionsByState]
  by_cases hkey : (ljid', nidx') = (ljid, nidx)
  · cases hkey
    simp only [true_and]
    rfl
  · rw [if_neg hkey, if_neg fun h => hkey h.1]

/-- The states of a user are those that are stored under its JIDs. -/
theorem mem_getStatesByLus {state : PubsubState} : ((ljid', nidx), state) ∈ t.getStatesByLus ljid ↔
    t.states.lookup (ljid', nidx) = some state ∧
      ljid'.luser = ljid.luser ∧ ljid'.lserver = ljid.lserver := by
  rw [← Option.mem_def, AList.mem_lookup_iff, getStatesByLus, mem_map]
  constructor
  · rintro ⟨⟨key, state'⟩, hentry, heq⟩
    cases heq
    rw [mem_filter] at hentry
    exact ⟨hentry.1, of_decide_eq_true hentry.2⟩
  · rintro ⟨hentry, huser⟩
    exact ⟨⟨(ljid', nidx), state⟩, mem_filter.2 ⟨hentry, decide_eq_true huser⟩, rfl⟩

/-- **`delete_user_subscriptions/1`**: the states of the user without an affiliation are deleted
with their lists. -/
theorem itemsOf_deleteUserSubscriptions : (t.deleteUserSubscriptions ljid).itemsOf nidx' ljid' =
    if (ljid'.luser = ljid.luser ∧ ljid'.lserver = ljid.lserver) ∧
        (t.getState nidx' ljid').affiliation = .none then []
    else t.itemsOf nidx' ljid' := by
  -- the state under the key is written at most once, as it was at first
  have hget : ∀ state ∈ t.getStatesByLus ljid, state.1 = (ljid', nidx') →
      state.2 = t.getState nidx' ljid' := by
    rintro ⟨⟨other, nidx⟩, state⟩ hstate hkey
    cases hkey
    rw [getState, (mem_getStatesByLus.1 hstate).1, Option.getD_some]
  rw [deleteUserSubscriptions, get_foldl (fun t : States => t.itemsOf nidx' ljid')
    (v := if (t.getState nidx' ljid').affiliation = .none then [] else t.itemsOf nidx' ljid')
    (p := fun state => state.1 = (ljid', nidx'))]
  · split
    · rename_i hsome
      obtain ⟨⟨key, state⟩, hstate, rfl⟩ := hsome
      simp only [(mem_getStatesByLus.1 hstate).2, and_self, true_and]
    · rename_i hnone
      split
      · rename_i huser
        cases hlookup : t.states.lookup (ljid', nidx') with
        | none => rw [itemsOf, getState, hlookup, Option.getD_none]
        | some state => exact absurd ⟨_, mem_getStatesByLus.2 ⟨hlookup, huser.1⟩, rfl⟩ hnone
      · rfl
  · intro t' state hstate hkey
    rw [itemsOf_deleteAllSubscriptionsByState, if_pos hkey.symm, hget state hstate hkey, itemsOf]
  · intro t' state _ hkey
    rw [itemsOf_deleteAllSubscriptionsByState, if_neg fun h => hkey h.symm]

@[simp] theorem stored_deleteUserSubscriptions :
    (t.deleteUserSubscriptions ljid).Stored nidx' itemId ↔ t.Stored nidx' itemId := by
  rw [deleteUserSubscriptions]
  generalize t.getStatesByLus ljid = states
  induction states generalizing t with
  | nil => exact Iff.rfl
  | cons state states ih => rw [foldl_cons, ih, stored_deleteAllSubscriptionsByState]

end States

end MongooseIM.Pubsub.Mnesia
