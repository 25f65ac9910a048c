import MongooseIM.Pubsub.Node
import MongooseIM.Pubsub.StatesMnesia
import MongooseIM.Relational.Ownership

/-! # Items of a flat node

`publish_item/9`, `delete_item/4` and `purge_node/2` of `node_flat`, over the Mnesia backend. -/

namespace MongooseIM.Pubsub.NodeFlat

open Pubsub.Mnesia Relational Xmpp List

/-- `mod_pubsub:publishModel()` -/
inductive PublishModel
  | «open»
  | publishers
  | subscribers

/-- The limit of the items of a publisher. -/
inductive MaxItems
  | unlimited
  | atMost (n : ℕ)

/-- `MaxItems > 0`; an atom is larger than a number. -/
def MaxItems.Positive : MaxItems → Prop
  | .unlimited => True
  | .atMost n => 0 < n

instance (max : MaxItems) : Decidable max.Positive := by
  unfold MaxItems.Positive
  split <;> infer_instance

/-- A subscription, as it stands in a state of the Mnesia backend or as the backends return it. -/
inductive SubTuple
  | pair (sub : Subscription) (subId : SubId)
  | triple (sub : Subscription) (subId : SubId) (opts : SubOptions)

/-- `is_subscribed/1` -/
def isSubscribed (subs : List SubTuple) : Bool :=
  subs.any fun
    | .triple .subscribed _ _ => true
    | _ => false

/-- The subscriptions of a state. -/
def stateSubs (state : PubsubState) : List SubTuple :=
  state.subscriptions.map fun sub => .pair sub.1 sub.2

/-- The publication is allowed. -/
def publishAllowed (t : States) (nidx : ℕ) (publisher : Jid) (publishModel : PublishModel) : Bool :=
  let genKey := publisher.toBare
  let genState := t.getState nidx genKey
  let subState := if publisher.lresource = "" then genState else t.getState nidx publisher
  let affiliation := t.getAffiliation nidx genKey
  match publishModel with
  | .open => true
  | .publishers =>
    affiliation = .owner || affiliation = .publisher || affiliation = .publishOnly
  | .subscribers => isSubscribed (stateSubs genState) || isSubscribed (stateSubs subState)

/-- `make_pubsub_item/8` -/
def makePubsubItem (t : States) (nidx : ℕ) (itemId : ItemId) (now : ℕ) (subKey genKey : Jid)
    (payload : List Element) (publisher : Jid) (itemPublisher : Bool) : PubsubItem :=
  match t.getItem nidx itemId with
  | some oldItem => { oldItem with modification := (now, subKey), payload := payload }
  | none =>
    { creation := (now, genKey)
      modification := (now, subKey)
      publisher := if itemPublisher then some publisher else none
      payload := payload }

/-- `remove_extra_items/3`: the new items and the old ones. -/
def removeExtraItems (t : States) (nidx : ℕ) (maxItems : MaxItems) (itemIds : List ItemId) :
    (List ItemId × List ItemId) × States :=
  match maxItems with
  | .unlimited => ((itemIds, []), t)
  | .atMost n =>
    let newItems := itemIds.take n
    let oldItems := itemIds.drop newItems.length
    ((newItems, oldItems), t.delItems nidx oldItems)

/-- `publish_item/9`: the items that are gone. -/
def publishItem (t : States) (nidx : ℕ) (publisher : Jid) (publishModel : PublishModel)
    (maxItems : MaxItems) (itemId : ItemId) (itemPublisher : Bool) (payload : List Element)
    (now : ℕ) : Except NodeError (List ItemId × States) :=
  let genKey := publisher.toBare
  let genState := t.getState nidx genKey
  if publishAllowed t nidx publisher publishModel then
    if maxItems.Positive then
      let item := makePubsubItem t nidx itemId now publisher genKey payload publisher itemPublisher
      let items := itemId :: genState.items.erase itemId
      let ((_, old), t) := removeExtraItems t nidx maxItems items
      .ok (old, (t.addItem nidx genKey itemId item).removeItems nidx genKey old)
    else .ok ([], t)
  else .error .forbidden

/-- `get_permition/5` -/
def getPermition (t : States) (affiliation : Affiliation) (publishModel : PublishModel) (nidx : ℕ)
    (itemId : ItemId) (genKey : Jid) : Bool :=
  match affiliation, publishModel with
  | .publisher, _ | .owner, _ | _, .open => true
  | _, _ => (t.getItem nidx itemId).any fun item => item.creation.2 = genKey

/-- `delete_foreign_item/3` -/
def deleteForeignItem (t : States) (nidx : ℕ) (itemId : ItemId) :
    Affiliation → Except NodeError States
  | .owner =>
    let states := t.getStates nidx
    let found := states.filter fun state => itemId ∈ state.2.items
    if found = [] then .error .itemNotFound
    else .ok (found.foldl
      (fun t state => (t.delItem nidx itemId).removeItems nidx state.1 [itemId]) t)
  | _ => .error .itemNotFound

/-- `delete_item/4` -/
def deleteItem (t : States) (nidx : ℕ) (publisher : Jid) (publishModel : PublishModel)
    (itemId : ItemId) : Except NodeError States :=
  let genKey := publisher.toBare
  let genState := t.getState nidx genKey
  if getPermition t genState.affiliation publishModel nidx itemId genKey then
    if itemId ∈ genState.items then
      .ok ((t.delItem nidx itemId).removeItems nidx genKey [itemId])
    else deleteForeignItem t nidx itemId genState.affiliation
  else .error .forbidden

/-- `purge_node/2` -/
def purgeNode (t : States) (nidx : ℕ) (owner : Jid) : Except NodeError States :=
  if t.getAffiliation nidx owner = .owner then
    let deleted := (t.getStates nidx).foldl
      (fun t state => if state.2.items = [] then t else t.delItems nidx state.2.items) t
    .ok (deleted.removeAllItems nidx)
  else .error .forbidden

/-! ## What the operations leave -/

variable {t t' : States} {nidx nidx' : ℕ} {ljid : Jid} {itemId id : ItemId}

/-- The old items are the end of the list; they are deleted. -/
theorem exists_removeExtraItems (t : States) (nidx : ℕ) {maxItems : MaxItems}
    (hpositive : maxItems.Positive) (itemIds : List ItemId) :
    ∃ n, (itemIds ≠ [] → 0 < n) ∧ (∀ limit, maxItems = .atMost limit → n = limit) ∧
    (removeExtraItems t nidx maxItems itemIds).1.2 = itemIds.drop n ∧
    (removeExtraItems t nidx maxItems itemIds).2 = t.delItems nidx (itemIds.drop n) := by
  cases maxItems with
  | unlimited =>
    refine ⟨itemIds.length, length_pos_of_ne_nil, nofun, ?_, ?_⟩
    · rw [drop_length]
      rfl
    · rw [drop_length]
      rfl
  | atMost limit =>
    have hold : itemIds.drop (itemIds.take limit).length = itemIds.drop limit := by
      rw [length_take]
      rcases le_total limit itemIds.length with h | h
      · rw [min_eq_left h]
      · rw [min_eq_right h, drop_length, drop_eq_nil_of_le h]
    refine ⟨limit, fun _ => hpositive, fun _ h => MaxItems.atMost.inj h, hold, ?_⟩
    show t.delItems nidx (itemIds.drop (itemIds.take limit).length) = _
    rw [hold]

variable {publishModel : PublishModel}

/-- **`publish_item/9`**: the item is stored and put in front of the list of the publisher; the last
items of the list go. -/
theorem publishItem_ok {publisher : Jid} {maxItems : MaxItems}
    {itemPublisher : Bool} {payload : List Element} {now : ℕ} {old : List ItemId}
    (hpositive : maxItems.Positive)
    (h : publishItem t nidx publisher publishModel maxItems itemId itemPublisher payload now =
    .ok (old, t')) :
    (∃ n, 0 < n ∧ (∀ limit, maxItems = .atMost limit → n = limit) ∧
    old = (itemId :: (t.itemsOf nidx publisher.toBare).erase itemId).drop n) ∧
    (∀ nidx' ljid, t'.itemsOf nidx' ljid = if (ljid, nidx') = (publisher.toBare, nidx) then
      (itemId :: t.itemsOf nidx publisher.toBare).diff old
    else t.itemsOf nidx' ljid) ∧
    ∀ nidx' id, t'.Stored nidx' id ↔
    nidx' = nidx ∧ id = itemId ∨ t.Stored nidx' id ∧ ¬ (nidx' = nidx ∧ id ∈ old) := by
  simp only [publishItem] at h
  split at h
  · obtain ⟨n, hn, hlimit, hold, hdeleted⟩ := exists_removeExtraItems t nidx hpositive
      (itemId :: (t.getState nidx publisher.toBare).items.erase itemId)
    rw [hold, hdeleted] at h
    cases h
    refine ⟨⟨n, hn (cons_ne_nil _ _), hlimit, rfl⟩, fun nidx' ljid => ?_, fun nidx' id => ?_⟩
    · rw [States.itemsOf_removeItems, Jid.toBare_toBare, States.itemsOf_addItem, Jid.toBare_toBare,
        if_pos rfl, States.itemsOf_delItems]
      split
      · rfl
      · rename_i hother
        rw [States.itemsOf_addItem, Jid.toBare_toBare, if_neg hother, States.itemsOf_delItems]
    · rw [States.stored_removeItems, States.stored_addItem, States.stored_delItems]
  · cases h

/-- What is left of the lists after an item was deleted from those of some entities. -/
theorem foldl_removeItems {states : List (Jid × PubsubState)}
    (hbare : ∀ state ∈ states, state.1.toBare = state.1)
    (hnodup : ∀ nidx ljid, (t.itemsOf nidx ljid).Nodup)
    (hfold : states.foldl
    (fun t state => (t.delItem nidx itemId).removeItems nidx state.1 [itemId]) t = t') :
    (∀ nidx ljid, (t'.itemsOf nidx ljid).Nodup) ∧
    (∀ nidx' ljid id, id ∈ t'.itemsOf nidx' ljid ↔ id ∈ t.itemsOf nidx' ljid ∧
    ¬ (nidx' = nidx ∧ id = itemId ∧ ∃ state ∈ states, state.1 = ljid)) ∧
    ∀ nidx' id, t'.Stored nidx' id ↔
    t.Stored nidx' id ∧ ¬ (nidx' = nidx ∧ id = itemId ∧ states ≠ []) := by
  induction states generalizing t with
  | nil =>
    obtain rfl := hfold
    simpa using hnodup
  | cons state states ih =>
    have hstate := hbare state mem_cons_self
    have hdeleted : ∀ nidx' ljid, (t.delItem nidx itemId).itemsOf nidx' ljid =
        t.itemsOf nidx' ljid := fun _ _ => rfl
    have hremoved : ∀ nidx' ljid,
        (((t.delItem nidx itemId).removeItems nidx state.1 [itemId]).itemsOf nidx' ljid).Nodup :=
      fun nidx' ljid => States.nodup_itemsOf_removeItems [itemId] (hnodup nidx')
    obtain ⟨hnodup', hmem, hstored⟩ :=
      ih (fun other hother => hbare other (.tail _ hother)) hremoved hfold
    refine ⟨hnodup', fun nidx' ljid id => ?_, fun nidx' id => ?_⟩
    · rw [hmem, States.mem_itemsOf_removeItems (t := t.delItem nidx itemId) (hnodup _ _), hstate,
        hdeleted, and_assoc, ← not_or, Prod.mk.injEq, mem_singleton,
        exists_mem_cons_iff]
      refine and_congr_right fun _ => not_congr ?_
      constructor
      · rintro (⟨⟨rfl, rfl⟩, rfl⟩ | ⟨rfl, rfl, hother⟩)
        · exact ⟨rfl, rfl, .inl rfl⟩
        · exact ⟨rfl, rfl, .inr hother⟩
      · rintro ⟨rfl, rfl, rfl | hother⟩
        · exact .inl ⟨⟨rfl, rfl⟩, rfl⟩
        · exact .inr ⟨rfl, rfl, hother⟩
    · rw [hstored, States.stored_removeItems, States.stored_delItem]
      tauto

/-- **`delete_item/4`** removes the item from the store and from the list that has it. -/
theorem deleteItem_ok {publisher : Jid} (howned : Owned (t.Stored nidx) (t.itemsOf nidx))
    (hnodup : ∀ nidx ljid, (t.itemsOf nidx ljid).Nodup)
    (hbare : ∀ ljid, t.itemsOf nidx ljid ≠ [] → ljid.toBare = ljid)
    (h : deleteItem t nidx publisher publishModel itemId = .ok t') :
    (∀ nidx ljid, (t'.itemsOf nidx ljid).Nodup) ∧
    (∀ nidx' ljid id, id ∈ t'.itemsOf nidx' ljid ↔
    id ∈ t.itemsOf nidx' ljid ∧ ¬ (nidx' = nidx ∧ id = itemId)) ∧
    ∀ nidx' id, t'.Stored nidx' id ↔ t.Stored nidx' id ∧ ¬ (nidx' = nidx ∧ id = itemId) := by
  -- in both cases the item goes from the lists of some entities, which include those that have it
  obtain ⟨states, hne, hstates, howner, hfold⟩ : ∃ states : List (Jid × PubsubState),
      states ≠ [] ∧ (∀ state ∈ states, state.1.toBare = state.1) ∧
      (∀ ljid, itemId ∈ t.itemsOf nidx ljid → ∃ state ∈ states, state.1 = ljid) ∧
      states.foldl (fun t state => (t.delItem nidx itemId).removeItems nidx state.1 [itemId]) t =
        t' := by
    simp only [deleteItem] at h
    split at h
    · split at h
      · rename_i hown
        cases h
        refine ⟨[(publisher.toBare, {})], cons_ne_nil _ _, by simp, fun ljid hitem => ?_, rfl⟩
        exact ⟨_, mem_singleton_self _, howned.owner_eq hown hitem⟩
      · unfold deleteForeignItem at h
        split at h
        · dsimp only at h
          split at h
          · cases h
          · rename_i hfound
            refine ⟨_, hfound, fun state hstate => ?_, fun ljid hitem => ?_, Except.ok.inj h⟩
            · obtain ⟨hstate, hitem⟩ := mem_filter.1 hstate
              refine hbare state.1 (ne_nil_of_mem (a := itemId) ?_)
              rw [← States.items_of_mem_getStates hstate]
              exact of_decide_eq_true hitem
            · obtain ⟨state, hstate, hitems⟩ := States.exists_mem_getStates hitem
              refine ⟨(ljid, state), mem_filter.2 ⟨hstate, ?_⟩, rfl⟩
              rw [← hitems] at hitem
              exact decide_eq_true hitem
        · cases h
    · cases h
  obtain ⟨hnodup', hmem, hstored⟩ := foldl_removeItems hstates hnodup hfold
  refine ⟨hnodup', fun nidx' ljid id => ?_, fun nidx' id => ?_⟩
  · rw [hmem]
    refine and_congr_right fun hitem => not_congr ⟨fun h => ⟨h.1, h.2.1⟩, ?_⟩
    rintro ⟨rfl, rfl⟩
    exact ⟨rfl, rfl, howner ljid hitem⟩
  · rw [hstored]
    simp [hne]

/-- **`purge_node/2`** empties the lists of the node. -/
theorem purgeNode_ok {owner : Jid} (h : purgeNode t nidx owner = .ok t') :
    (∀ nidx' ljid, t'.itemsOf nidx' ljid = if nidx' = nidx then [] else t.itemsOf nidx' ljid) ∧
    ∀ nidx' id, t'.Stored nidx' id ↔
    t.Stored nidx' id ∧ ¬ (nidx' = nidx ∧ ∃ ljid, id ∈ t.itemsOf nidx ljid) := by
  simp only [purgeNode] at h
  split at h
  · cases h
    refine ⟨fun nidx' ljid => ?_, fun nidx' id => ?_⟩
    · rw [States.itemsOf_removeAllItems, States.itemsOf_foldl_delItems]
    · rw [States.stored_removeAllItems, States.stored_foldl_delItems,
        States.exists_mem_items_getStates]
  · cases h

end MongooseIM.Pubsub.NodeFlat
