import MongooseIM.Pubsub.NodeFlat
import MongooseIM.Transition.Run

/-! # Items that are stored and items that are listed

The operations of a flat node over the Mnesia backend, in any order. Each changes the store, the
list of a publisher, or both. -/

namespace MongooseIM.Pubsub.ItemBookkeeping

open Pubsub.Mnesia Pubsub.NodeFlat Relational List
open Transition Xmpp

/-- An operation. -/
inductive Event
  | createNode (nidx : ℕ) (owner : Jid)
  | delNode (nidx : ℕ)
  | setAffiliation (nidx : ℕ) (ljid : Jid) (affiliation : Affiliation)
  | addSubscription (nidx : ℕ) (ljid : Jid) (sub : Subscription) (subId : SubId)
      (opts : SubOptions)
  | updateSubscription (nidx : ℕ) (ljid : Jid) (sub : Subscription) (subId : SubId)
  | deleteSubscription (nidx : ℕ) (ljid : Jid) (subId : SubId)
  | deleteAllSubscriptions (nidx : ℕ) (ljid : Jid)
  | deleteUserSubscriptions (ljid : Jid)
  | publishItem (nidx : ℕ) (publisher : Jid) (publishModel : PublishModel) (maxItems : MaxItems)
      (itemId : ItemId) (itemPublisher : Bool) (payload : List Element) (now : ℕ)
  | deleteItem (nidx : ℕ) (publisher : Jid) (publishModel : PublishModel) (itemId : ItemId)
  | purgeNode (nidx : ℕ) (owner : Jid)

/-- The operation that was last, where the items depend on it. -/
inductive Last
  | published (nidx : ℕ) (genKey : Jid) (maxItems : MaxItems)
  | deleted (nidx : ℕ)
  | other

/-- The tables, and what was last. -/
structure System where
  tables : States := {}
  last : Last := .other

variable (s : System)

/-- An operation that fails changes nothing. -/
def System.changed (result : Except NodeError States) : System :=
  match result with
  | .ok t => ⟨t, .other⟩
  | .error _ => ⟨s.tables, .other⟩

/-- An operation is carried out. -/
def step : Event → Option System
  | .createNode nidx owner => some ⟨s.tables.createNode nidx owner, .other⟩
  | .delNode nidx => some ⟨(s.tables.delNode nidx).2, .deleted nidx⟩
  | .setAffiliation nidx ljid affiliation =>
    some ⟨s.tables.setAffiliation nidx ljid affiliation, .other⟩
  | .addSubscription nidx ljid sub subId opts =>
    some ⟨s.tables.addSubscription nidx ljid sub subId opts, .other⟩
  | .updateSubscription nidx ljid sub subId =>
    some ⟨s.tables.updateSubscription nidx ljid sub subId, .other⟩
  | .deleteSubscription nidx ljid subId =>
    some ⟨s.tables.deleteSubscription nidx ljid subId, .other⟩
  | .deleteAllSubscriptions nidx ljid => some ⟨s.tables.deleteAllSubscriptions nidx ljid, .other⟩
  | .deleteUserSubscriptions ljid => some ⟨s.tables.deleteUserSubscriptions ljid, .other⟩
  | .publishItem nidx publisher publishModel maxItems itemId itemPublisher payload now =>
    match publishItem s.tables nidx publisher publishModel maxItems itemId itemPublisher payload
      now with
    | .ok (_, t) => some ⟨t, .published nidx publisher.toBare maxItems⟩
    | .error _ => some ⟨s.tables, .other⟩
  | .deleteItem nidx publisher publishModel itemId =>
    some (s.changed (deleteItem s.tables nidx publisher publishModel itemId))
  | .purgeNode nidx owner => some (s.changed (purgeNode s.tables nidx owner))

/-- **Every stored item of a node is in one list, once, and the lists have nothing else.** -/
def Exact (t : States) : Prop := ∀ nidx, Owned (t.Stored nidx) (t.itemsOf nidx)

/-- **The items are bookkept.** -/
structure Kept (s : System) : Prop where
  exact : Exact s.tables
  /-- After a publication the publisher has no more items than are allowed. -/
  limited : ∀ nidx genKey n, s.last = .published nidx genKey (.atMost n) →
    (s.tables.itemsOf nidx genKey).length ≤ n
  gone : ∀ nidx, s.last = .deleted nidx → ∀ itemId, ¬ s.tables.Stored nidx itemId

/-- What is published is not there yet, or nothing may be kept and nothing is; and a state that is
deleted lists nothing. -/
def StepOk : Event → Prop
  | .setAffiliation nidx ljid affiliation =>
    affiliation = .none → (s.tables.getState nidx ljid.toBare).subscriptions = [] →
      s.tables.itemsOf nidx ljid.toBare = []
  | .deleteSubscription nidx ljid subId =>
    (s.tables.getState nidx ljid).affiliation = .none →
      States.keydeleteSub subId (s.tables.getState nidx ljid).subscriptions = [] →
        s.tables.itemsOf nidx ljid = []
  | .deleteAllSubscriptions nidx ljid =>
    (s.tables.getState nidx ljid).affiliation = .none → s.tables.itemsOf nidx ljid = []
  | .deleteUserSubscriptions ljid =>
    ∀ nidx ljid', ljid'.luser = ljid.luser ∧ ljid'.lserver = ljid.lserver →
      (s.tables.getState nidx ljid').affiliation = .none → s.tables.itemsOf nidx ljid' = []
  | .publishItem nidx publisher publishModel maxItems itemId _ _ _ =>
    publishAllowed s.tables nidx publisher publishModel = true →
      if maxItems.Positive then ¬ s.tables.Stored nidx itemId
      else s.tables.itemsOf nidx publisher.toBare = []
  | _ => True

/-- Items are listed for bare JIDs. -/
def Shaped (t : States) : Prop := ∀ nidx ljid, t.itemsOf nidx ljid ≠ [] → ljid.toBare = ljid

theorem kept_other_iff {t : States} : Kept ⟨t, .other⟩ ↔ Exact t :=
  ⟨Kept.exact, fun h => ⟨h, nofun, nofun⟩⟩

section

variable {t t' : States}

theorem Shaped.of_itemsOf (h : Shaped t) (hitems : ∀ nidx ljid, t'.itemsOf nidx ljid ≠ [] →
    t.itemsOf nidx ljid ≠ [] ∨ ljid.toBare = ljid) : Shaped t' :=
  fun nidx ljid hne => (hitems nidx ljid hne).elim (h nidx ljid) id

/-- Some lists are dropped, and the store is as it was: this is right if they have nothing. -/
theorem Exact.drop_iff (h : Exact t) {dropped : ℕ → Jid → Prop}
    [∀ nidx ljid, Decidable (dropped nidx ljid)]
    (hitems : ∀ nidx ljid, t'.itemsOf nidx ljid =
    if dropped nidx ljid then [] else t.itemsOf nidx ljid)
    (hstored : ∀ nidx itemId, t'.Stored nidx itemId ↔ t.Stored nidx itemId) :
    Exact t' ↔ ∀ nidx ljid, dropped nidx ljid → t.itemsOf nidx ljid = [] := by
  refine forall_congr' fun nidx => ?_
  have hsame : t'.Stored nidx = t.Stored nidx := by
    funext itemId
    exact propext (hstored nidx itemId)
  rw [hsame]
  refine (h nidx).drop_iff (fun ljid hdropped => ?_) fun ljid hkept => ?_
  · rw [hitems, if_pos hdropped]
  · rw [hitems, if_neg hkept]

theorem Exact.of_same (h : Exact t)
    (hitems : ∀ nidx ljid, t'.itemsOf nidx ljid = t.itemsOf nidx ljid)
    (hstored : ∀ nidx itemId, t'.Stored nidx itemId ↔ t.Stored nidx itemId) : Exact t' := by
  have hkept : ∀ nidx ljid, t'.itemsOf nidx ljid =
      if False then [] else t.itemsOf nidx ljid := by simpa using hitems
  exact (h.drop_iff hkept hstored).2 nofun

end

section

variable {t t' : States} {nidx : ℕ} {publisher : Jid} {publishModel : PublishModel}
  {maxItems : MaxItems} {itemId : ItemId} {itemPublisher : Bool} {payload : List Element} {now : ℕ}
  {old : List ItemId}

/-- **A publication is right exactly if the item is new.** -/
theorem Exact.publishItem_iff (h : Exact t) (hpositive : maxItems.Positive)
    (hresult : publishItem t nidx publisher publishModel maxItems itemId itemPublisher payload now =
    .ok (old, t')) : Exact t' ↔ ¬ t.Stored nidx itemId := by
  obtain ⟨⟨n, hn, -, hold⟩, hitems, hstored⟩ := publishItem_ok hpositive hresult
  have hnodup := (h nidx).nodup publisher.toBare
  have hmem : ∀ id ∈ old, id ∈ (t.itemsOf nidx publisher.toBare).erase itemId := by
    obtain ⟨m, rfl⟩ := Nat.exists_eq_succ_of_ne_zero hn.ne'
    rw [hold, drop_succ_cons]
    exact fun id => mem_of_mem_drop
  have hpush : Owned (t'.Stored nidx) (t'.itemsOf nidx) ↔ ¬ t.Stored nidx itemId := by
    have hkept : itemId ∉ old := fun hitem =>
      (hnodup.mem_erase_iff.1 (hmem itemId hitem)).1 rfl
    refine (h nidx).push_iff (o := publisher.toBare) hkept
      (fun id hid => mem_of_mem_erase (hmem id hid)) (fun id => ?_) ?_ fun ljid hother => ?_
    · rw [hstored]
      simp
    · rw [hitems, if_pos rfl]
    · rw [hitems, if_neg fun heq => hother (Prod.mk.inj heq).1]
  refine ⟨fun h' => hpush.1 (h' nidx), fun hnew nidx' => ?_⟩
  by_cases hnidx : nidx' = nidx
  · rw [hnidx]
    exact hpush.2 hnew
  · -- the other nodes are as they were
    have hsame : t'.Stored nidx' = t.Stored nidx' := by
      funext id
      rw [eq_iff_iff, hstored]
      simp [hnidx]
    have hlists : t'.itemsOf nidx' = t.itemsOf nidx' := by
      funext ljid
      rw [hitems, if_neg fun heq => hnidx (Prod.mk.inj heq).2]
    rw [hsame, hlists]
    exact h nidx'

/-- After the publication of a new item the publisher has no more than are allowed. -/
theorem Exact.length_publishItem (h : Exact t) {limit : ℕ} (hlimit : 0 < limit)
    (hnew : ¬ t.Stored nidx itemId)
    (hresult : publishItem t nidx publisher publishModel (.atMost limit) itemId itemPublisher
    payload now = .ok (old, t')) : (t'.itemsOf nidx publisher.toBare).length ≤ limit := by
  have hpositive : (MaxItems.atMost limit).Positive := hlimit
  obtain ⟨⟨n, -, hn, hold⟩, hitems, -⟩ := publishItem_ok hpositive hresult
  obtain rfl := hn limit rfl
  have hnotin : itemId ∉ t.itemsOf nidx publisher.toBare := fun hitem =>
    hnew ((h nidx).stored _ _ hitem)
  rw [erase_of_not_mem hnotin] at hold
  rw [hitems, if_pos rfl, hold,
    diff_drop_of_nodup (nodup_cons.2 ⟨hnotin, (h nidx).nodup _⟩), length_take]
  exact min_le_left _ _

/-- **What a publication keeps.** -/
theorem kept_publishItem_iff (h : Exact t)
    (hresult : publishItem t nidx publisher publishModel maxItems itemId itemPublisher payload now =
    .ok (old, t')) :
    Kept ⟨t', .published nidx publisher.toBare maxItems⟩ ↔
    if maxItems.Positive then ¬ t.Stored nidx itemId
    else t.itemsOf nidx publisher.toBare = [] := by
  split
  · rename_i hpositive
    rw [← h.publishItem_iff hpositive hresult]
    refine ⟨Kept.exact, fun h' => ⟨h', ?_, nofun⟩⟩
    rintro nidx' genKey n hlast
    obtain ⟨rfl, rfl, rfl⟩ := Last.published.inj hlast
    exact h.length_publishItem hpositive ((h.publishItem_iff hpositive hresult).1 h') hresult
  · rename_i hzero
    -- nothing may be kept, and nothing is done
    have hsame : t' = t := by
      simp only [publishItem, if_neg hzero] at hresult
      split at hresult
      · exact (Prod.mk.inj (Except.ok.inj hresult)).2.symm
      · cases hresult
    rw [hsame]
    constructor
    · intro h'
      cases maxItems with
      | unlimited => exact absurd trivial hzero
      | atMost n =>
        have hlength := h'.limited nidx publisher.toBare n rfl
        have hn : n = 0 := Nat.eq_zero_of_not_pos hzero
        rw [hn] at hlength
        exact length_eq_zero_iff.1 (Nat.le_zero.1 hlength)
    · intro hnil
      refine ⟨h, ?_, nofun⟩
      rintro nidx' genKey n hlast
      obtain ⟨rfl, rfl, -⟩ := Last.published.inj hlast
      simp [hnil]

end

section

variable {t t' : States} {nidx : ℕ}

/-- The items of a node are removed from the store and from the lists. -/
theorem Exact.remove (h : Exact t) {gone : ℕ → ItemId → Prop}
    (hnodup : ∀ nidx ljid, (t'.itemsOf nidx ljid).Nodup)
    (hmem : ∀ nidx ljid itemId, itemId ∈ t'.itemsOf nidx ljid ↔
    itemId ∈ t.itemsOf nidx ljid ∧ ¬ gone nidx itemId)
    (hstored : ∀ nidx itemId, t'.Stored nidx itemId ↔ t.Stored nidx itemId ∧ ¬ gone nidx itemId) :
    Exact t' :=
  fun nidx => (h nidx).remove (hstored nidx) (hmem nidx) (hnodup nidx)

/-- All lists of a node are emptied, and what they had is removed from the store. -/
theorem Exact.empty (h : Exact t) (hitems : ∀ nidx' ljid, t'.itemsOf nidx' ljid =
    if nidx' = nidx then [] else t.itemsOf nidx' ljid)
    (hstored : ∀ nidx' itemId, t'.Stored nidx' itemId ↔
    t.Stored nidx' itemId ∧ ¬ (nidx' = nidx ∧ ∃ ljid, itemId ∈ t.itemsOf nidx ljid)) :
    Exact t' ∧ ∀ itemId, ¬ t'.Stored nidx itemId := by
  refine ⟨h.remove (fun nidx' ljid => ?_) (fun nidx' ljid itemId => ?_) hstored, ?_⟩
  · rw [hitems]
    split
    · exact nodup_nil
    · exact (h nidx').nodup ljid
  · rw [hitems]
    split
    · rename_i heq
      subst heq
      simp only [not_mem_nil, true_and, false_iff, not_and, not_not]
      exact fun hitem => ⟨ljid, hitem⟩
    · rename_i hne
      simp [hne]
  · intro itemId hitem
    obtain ⟨hitem, hleft⟩ := (hstored nidx itemId).1 hitem
    obtain ⟨ljid, hlisted, -⟩ := (h nidx).owner itemId hitem
    exact hleft ⟨rfl, ljid, hlisted⟩

end

theorem Shaped.step {s s' : System} {e : Event} (h : Shaped s.tables) (hexact : Exact s.tables)
    (hstep : ItemBookkeeping.step s e = some s') : Shaped s'.tables := by
  -- where a list is emptied or left as it is
  have hdrop : ∀ {t : States} {dropped : ℕ → Jid → Prop}
      [∀ nidx ljid, Decidable (dropped nidx ljid)], (∀ nidx ljid, t.itemsOf nidx ljid =
        if dropped nidx ljid then [] else s.tables.itemsOf nidx ljid) → Shaped t := by
    intro t dropped _ hitems
    refine h.of_itemsOf fun nidx ljid hne => .inl ?_
    rw [hitems] at hne
    split at hne
    · exact absurd rfl hne
    · exact hne
  -- where no list grows
  have hshrink : ∀ {t : States}, (∀ nidx ljid itemId, itemId ∈ t.itemsOf nidx ljid →
      itemId ∈ s.tables.itemsOf nidx ljid) → Shaped t := by
    intro t hmem
    refine h.of_itemsOf fun nidx ljid hne => .inl ?_
    obtain ⟨itemId, hitem⟩ := exists_mem_of_ne_nil _ hne
    exact ne_nil_of_mem (hmem nidx ljid itemId hitem)
  have hsame : ∀ {t : States}, (∀ nidx ljid, t.itemsOf nidx ljid = s.tables.itemsOf nidx ljid) →
      Shaped t := fun hitems => hshrink fun nidx ljid itemId => by rw [hitems]; exact id
  cases e with
  | createNode nidx owner =>
    cases hstep
    exact hdrop fun nidx' ljid => States.itemsOf_setAffiliation _
  | delNode nidx =>
    cases hstep
    exact hdrop fun nidx' ljid => States.itemsOf_delNode
  | setAffiliation nidx ljid affiliation =>
    cases hstep
    exact hdrop fun nidx' ljid => States.itemsOf_setAffiliation _
  | addSubscription nidx ljid sub subId opts =>
    cases hstep
    exact hsame fun nidx' ljid => States.itemsOf_addSubscription _ _ _
  | updateSubscription nidx ljid sub subId =>
    cases hstep
    exact hsame fun nidx' ljid => States.itemsOf_updateSubscription _ _
  | deleteSubscription nidx ljid subId =>
    cases hstep
    exact hdrop fun nidx' ljid => States.itemsOf_deleteSubscription _
  | deleteAllSubscriptions nidx ljid =>
    cases hstep
    exact hdrop fun nidx' ljid' => States.itemsOf_deleteAllSubscriptions
  | deleteUserSubscriptions ljid =>
    cases hstep
    exact hdrop fun nidx' ljid' => States.itemsOf_deleteUserSubscriptions
  | publishItem nidx publisher publishModel maxItems itemId itemPublisher payload now =>
    simp only [ItemBookkeeping.step] at hstep
    split at hstep
    · rename_i old t hresult
      cases hstep
      by_cases hpositive : maxItems.Positive
      · obtain ⟨-, hitems, -⟩ := publishItem_ok hpositive hresult
        refine h.of_itemsOf fun nidx' ljid hne => ?_
        rw [hitems] at hne
        split at hne
        · rename_i heq
          exact .inr (by rw [(Prod.mk.inj heq).1, Jid.toBare_toBare])
        · exact .inl hne
      · simp only [NodeFlat.publishItem, if_neg hpositive] at hresult
        split at hresult
        · obtain ⟨-, rfl⟩ := Prod.mk.inj (Except.ok.inj hresult)
          exact h
        · cases hresult
    · cases hstep
      exact h
  | deleteItem nidx publisher publishModel itemId =>
    cases hstep
    cases hresult : NodeFlat.deleteItem s.tables nidx publisher publishModel itemId with
    | error error => exact h
    | ok t =>
      obtain ⟨-, hmem, -⟩ := deleteItem_ok (hexact nidx) (fun nidx => (hexact nidx).nodup)
        (h nidx) hresult
      exact hshrink fun nidx' ljid id hid => ((hmem nidx' ljid id).1 hid).1
  | purgeNode nidx owner =>
    cases hstep
    cases hresult : NodeFlat.purgeNode s.tables nidx owner with
    | error error => exact h
    | ok t => exact hdrop (purgeNode_ok hresult).1

/-- **What an operation keeps.** -/
theorem kept_step_iff {s s' : System} {e : Event} (hshaped : Shaped s.tables)
    (h : Exact s.tables) (hstep : step s e = some s') : Kept s' ↔ StepOk s e := by
  cases e with
  | createNode nidx owner =>
    cases hstep
    rw [kept_other_iff]
    refine iff_of_true ((h.drop_iff (fun _ _ => States.itemsOf_setAffiliation _)
      fun _ _ => States.stored_setAffiliation _).2 ?_) trivial
    rintro nidx' ljid ⟨-, hnone, -⟩
    cases hnone
  | delNode nidx =>
    cases hstep
    obtain ⟨hexact, hgone⟩ := h.empty (fun _ _ => States.itemsOf_delNode)
      fun _ _ => States.stored_delNode
    refine iff_of_true ⟨hexact, nofun, fun nidx' hlast => ?_⟩ trivial
    obtain rfl := Last.deleted.inj hlast
    exact hgone
  | setAffiliation nidx ljid affiliation =>
    cases hstep
    rw [kept_other_iff, h.drop_iff (fun _ _ => States.itemsOf_setAffiliation _)
      fun _ _ => States.stored_setAffiliation _]
    constructor
    · exact fun hempty hnone hsubs => hempty nidx ljid.toBare ⟨rfl, hnone, hsubs⟩
    · rintro hok nidx' ljid' ⟨heq, hnone, hsubs⟩
      cases heq
      exact hok hnone hsubs
  | addSubscription nidx ljid sub subId opts =>
    cases hstep
    exact iff_of_true (kept_other_iff.2 (h.of_same (fun _ _ => States.itemsOf_addSubscription _ _ _)
      fun _ _ => States.stored_addSubscription _ _ _)) trivial
  | updateSubscription nidx ljid sub subId =>
    cases hstep
    exact iff_of_true (kept_other_iff.2 (h.of_same
      (fun _ _ => States.itemsOf_updateSubscription _ _)
      fun _ _ => States.stored_updateSubscription _ _)) trivial
  | deleteSubscription nidx ljid subId =>
    cases hstep
    rw [kept_other_iff, h.drop_iff (fun _ _ => States.itemsOf_deleteSubscription _)
      fun _ _ => States.stored_deleteSubscription _]
    constructor
    · exact fun hempty hnone hsubs => hempty nidx ljid ⟨rfl, hnone, hsubs⟩
    · rintro hok nidx' ljid' ⟨heq, hnone, hsubs⟩
      cases heq
      exact hok hnone hsubs
  | deleteAllSubscriptions nidx ljid =>
    cases hstep
    rw [kept_other_iff, h.drop_iff (fun _ _ => States.itemsOf_deleteAllSubscriptions)
      fun _ _ => States.stored_deleteAllSubscriptionsByState _]
    constructor
    · exact fun hempty hnone => hempty nidx ljid ⟨rfl, hnone⟩
    · rintro hok nidx' ljid' ⟨heq, hnone⟩
      cases heq
      exact hok hnone
  | deleteUserSubscriptions ljid =>
    cases hstep
    rw [kept_other_iff, h.drop_iff (fun _ _ => States.itemsOf_deleteUserSubscriptions)
      fun _ _ => States.stored_deleteUserSubscriptions]
    exact forall₂_congr fun nidx' ljid' => and_imp
  | publishItem nidx publisher publishModel maxItems itemId itemPublisher payload now =>
    simp only [step] at hstep
    split at hstep
    · rename_i old t hresult
      cases hstep
      rw [kept_publishItem_iff h hresult]
      have hallowed : publishAllowed s.tables nidx publisher publishModel = true := by
        by_contra hforbidden
        rw [NodeFlat.publishItem, if_neg hforbidden] at hresult
        cases hresult
      exact ⟨fun hok _ => hok, fun hok => hok hallowed⟩
    · rename_i error hresult
      cases hstep
      refine iff_of_true (kept_other_iff.2 h) fun hallowed => ?_
      simp only [NodeFlat.publishItem, if_pos hallowed] at hresult
      split at hresult <;> cases hresult
  | deleteItem nidx publisher publishModel itemId =>
    cases hstep
    refine iff_of_true ?_ trivial
    cases hresult : NodeFlat.deleteItem s.tables nidx publisher publishModel itemId with
    | error error => exact kept_other_iff.2 h
    | ok t =>
      obtain ⟨hnodup, hmem, hstored⟩ := deleteItem_ok (h nidx) (fun nidx => (h nidx).nodup)
        (hshaped nidx) hresult
      exact kept_other_iff.2 (h.remove hnodup hmem hstored)
  | purgeNode nidx owner =>
    cases hstep
    refine iff_of_true ?_ trivial
    cases hresult : NodeFlat.purgeNode s.tables nidx owner with
    | error error => exact kept_other_iff.2 h
    | ok t => exact kept_other_iff.2 (h.empty (purgeNode_ok hresult).1 (purgeNode_ok hresult).2).1

theorem kept_init : Kept {} := by
  refine ⟨fun nidx => ?_, nofun, nofun⟩
  exact ⟨fun itemId h => absurd rfl h, fun ljid => nodup_nil, nofun⟩

theorem step_isSome (e : Event) : ∃ s', step s e = some s' := by
  cases e
  case publishItem =>
    simp only [step]
    split <;> exact ⟨_, rfl⟩
  all_goals exact ⟨_, rfl⟩

/-- **The items of PubSub nodes.** In exactly the runs whose steps meet `StepOk` every item is
listed once, no publisher has more than are allowed after a publication, and a deleted node leaves
none. -/
theorem items_bookkept (es : List Event) :
    Guarded step StepOk {} es ↔ ∀ h t, h <+: es → run step {} h = some t → Kept t :=
  guarded_iff_holds_along_of_invariant (I := fun s => Shaped s.tables)
    (fun s e _ _ _ => step_isSome s e)
    (fun _ _ _ hshaped hkept hstep _ => hshaped.step hkept.exact hstep)
    (fun _ _ _ hshaped hkept hstep => kept_step_iff hshaped hkept.exact hstep)
    (fun _ _ hne => absurd rfl hne) kept_init es

/-- A publisher of a node with one owner. -/
def alice : Jid := ⟨"alice", "localhost", ""⟩

/-- An item that its publisher publishes again is listed twice. -/
theorem item_published_twice :
    (∃ t, run step {} [.createNode 1 alice,
        .publishItem 1 alice .publishers (.atMost 10) "a" false [] 0,
        .publishItem 1 alice .publishers (.atMost 10) "a" false [] 1] = some t ∧
      t.tables.itemsOf 1 alice = ["a", "a"]) ∧
    ¬ ∀ es h t, h <+: es → run step {} h = some t → Kept t := by
  have hrun : run step {} [.createNode 1 alice,
      .publishItem 1 alice .publishers (.atMost 10) "a" false [] 0,
      .publishItem 1 alice .publishers (.atMost 10) "a" false [] 1] =
    some ⟨_, .published 1 alice (.atMost 10)⟩ := rfl
  refine ⟨⟨_, hrun, by decide⟩, fun hall => ?_⟩
  have hnodup := ((hall _ _ _ prefix_rfl hrun).exact 1).nodup alice
  revert hnodup
  decide

/-- A publisher that loses its affiliation leaves its item behind, also when the node is deleted. -/
example : ∃ t, run step {} [.createNode 1 alice,
    .publishItem 1 alice .publishers (.atMost 10) "a" false [] 0,
    .setAffiliation 1 alice .none, .delNode 1] = some t ∧ t.tables.Stored 1 "a" := by
  refine ⟨_, rfl, ?_⟩
  decide

end MongooseIM.Pubsub.ItemBookkeeping
