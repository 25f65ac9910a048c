import MongooseIM.Privacy.Backends

/-! # Setting a privacy list

A user sends the items of a list, which replaces the stored list of that name; without items the
list is removed. An item that is not valid is left out; one with the order of another is not. -/

namespace MongooseIM.Privacy

open Erlang Xmpp List Option

variable {D J : Type}

/-- What the user is answered. -/
inductive ListAnswer
  | result
  | badRequest
  | conflict

/-- `process_list_set/5`; none when it fails. -/
def processListSet (lib : JidLib D J) (backend : PrivacyBackend J) (name : Option String)
    (els : List Element) (privacy : backend.Store) : Option (ListAnswer × backend.Store) :=
  match name with
  | none => some (.badRequest, privacy)
  | some name =>
    match parseItems lib els with
    | .false => some (.badRequest, privacy)
    | .remove =>
      match backend.removePrivacyList name privacy with
      | some privacy' => some (.result, privacy')
      | none => some (.conflict, privacy)
    | .items list => (backend.replacePrivacyList name list privacy).map fun privacy' =>
        (.result, privacy')
    | .functionClause => none

/-- What can be stored: requests set lists, blocking commands write theirs, and the user chooses a
default. -/
inductive Reached (lib : JidLib D J) (backend : PrivacyBackend J) : backend.Store → Prop
  | start : Reached lib backend backend.empty
  /-- `process_list_set/5` -/
  | set {name : Option String} {els : List Element} {privacy privacy' : backend.Store}
      {answer : ListAnswer} : Reached lib backend privacy →
      processListSet lib backend name els privacy = some (answer, privacy') →
      Reached lib backend privacy'
  /-- `replace_privacy_list/5`, as `mod_blocking` calls it. -/
  | replaced {privacy privacy' : backend.Store} {name : String} {list : List (Item J)} :
      Reached lib backend privacy → backend.replacePrivacyList name list privacy = some privacy' →
      Reached lib backend privacy'
  /-- `set_default_list/4` -/
  | default {privacy privacy' : backend.Store} {name : String} : Reached lib backend privacy →
      backend.setDefaultList name privacy = some privacy' → Reached lib backend privacy'
  /-- `forget_default_list/3` -/
  | forgotten {privacy : backend.Store} : Reached lib backend privacy →
      Reached lib backend (backend.forgetDefaultList privacy)

/-- A type and a value. -/
inductive DescribesValue (lib : JidLib D J) (value : String) : String → ItemType → Value J → Prop
  | none : DescribesValue lib value "" .none .none
  | jid {jid : D} : value ≠ "" → lib.fromBinary value = some jid →
      DescribesValue lib value "jid" .jid (.jid (lib.toLower jid))
  | group : value ≠ "" → DescribesValue lib value "group" .group (.group value)
  | subscription {subscription : Subscription} : subscriptionToBinary subscription = value →
      DescribesValue lib value "subscription" .subscription (.subscription subscription)

/-- The kinds of stanza. -/
def kinds : List String := ["message", "iq", "presence-in", "presence-out"]

/-- An element stands for an item. -/
structure Describes (lib : JidLib D J) (el : Element) (item : Item J) : Prop where
  action : item.action = .allow ∧ el.attr? "action" = some "allow" ∨
    item.action = .deny ∧ el.attr? "action" = some "deny"
  order : ∃ (n : ℕ) (s : String), item.order = some n ∧ el.attr? "order" = some s ∧
    binaryToInteger s = some (n : ℤ)
  value : DescribesValue lib ((el.attr? "value").getD "") ((el.attr? "type").getD "") item.type
    item.value
  kinds : ∀ child ∈ el.children, child.name ∈ kinds
  matchAll : item.matchAll = el.children.isEmpty
  matchMessage : item.matchMessage = el.children.any fun child => child.name = "message"
  matchIq : item.matchIq = el.children.any fun child => child.name = "iq"
  matchPresenceIn : item.matchPresenceIn = el.children.any fun child => child.name = "presence-in"
  matchPresenceOut :
    item.matchPresenceOut = el.children.any fun child => child.name = "presence-out"

/-- A list has one item for each `<item/>` element, and they are sorted. -/
structure ExactList (lib : JidLib D J) (els : List Element) (stored : List (Item J)) : Prop where
  items : ∃ items, List.Forall₂ (Describes lib) (els.filter fun el => el.name = "item") items ∧
    stored.Perm items
  sorted : stored.Pairwise fun a b => orderKey a ≤ orderKey b

/-- The request is refused and nothing changes, or all its items are stored. -/
def Whole (lib : JidLib D J) (backend : PrivacyBackend J) (name : Option String)
    (els : List Element) (privacy : backend.Store) : Prop :=
  ∃ answer privacy', processListSet lib backend name els privacy = some (answer, privacy') ∧
    (answer = .badRequest ∧ privacy' = privacy ∨
      ∃ n, name = some n ∧ ExactList lib els (backend.storedList n privacy'))

variable {s : String}

theorem parseAction_eq_some {action : Action} :
    parseAction s = some action ↔ action = .allow ∧ s = "allow" ∨ action = .deny ∧ s = "deny" := by
  rw [parseAction]
  split_ifs with hallow hdeny
  · subst hallow
    simp [eq_comm]
  · subst hdeny
    simp [eq_comm]
  · simp [hallow, hdeny]

theorem parseOrder_eq_some {n : ℕ} : parseOrder s = some n ↔ binaryToInteger s = some (n : ℤ) := by
  rw [parseOrder]
  split_ifs with hempty
  · subst hempty
    simp [show binaryToInteger "" = none from rfl]
  · cases binaryToInteger s with
    | none => simp
    | some i =>
      dsimp only
      split_ifs with hsign
      · simp only [some.injEq]
        omega
      · simp only [some.injEq, false_iff]
        omega

variable {value : String}

theorem binaryToSubscription_eq_some {subscription : Subscription} :
    binaryToSubscription value = some subscription ↔ subscriptionToBinary subscription = value := by
  rw [binaryToSubscription]
  split_ifs with hnone hboth hfrom hto
  · subst hnone
    cases subscription <;> simp [subscriptionToBinary]
  · subst hboth
    cases subscription <;> simp [subscriptionToBinary]
  · subst hfrom
    cases subscription <;> simp [subscriptionToBinary]
  · subst hto
    cases subscription <;> simp [subscriptionToBinary]
  · cases subscription <;> simp [subscriptionToBinary, eq_comm, hnone, hboth, hfrom, hto]

variable {lib : JidLib D J} {item : Item J} {type : String} {item' : Item J}

/-- The type and the value of an item without them. -/
theorem setTypeAndValue_eq_some (htype : item.type = .none) (hvalue : item.value = .none) :
    setTypeAndValue lib type value (some item) = some (some item') ↔
    ∃ t v, DescribesValue lib value type t v ∧ item' = { item with type := t, value := v } := by
  constructor
  · intro h
    rw [setTypeAndValue] at h
    split_ifs at h with hnone hempty hjid hgroup hsubscription
    · subst hnone
      refine ⟨_, _, .none, ?_⟩
      rw [← htype, ← hvalue]
      exact (some.inj (some.inj h)).symm
    · cases some.inj h
    · subst hjid
      obtain ⟨jid, hparse, rfl⟩ := map_eq_some_iff.1 (some.inj h)
      exact ⟨_, _, .jid hempty hparse, rfl⟩
    · subst hgroup
      exact ⟨_, _, .group hempty, (some.inj (some.inj h)).symm⟩
    · subst hsubscription
      obtain ⟨subscription, hparse, rfl⟩ := map_eq_some_iff.1 (some.inj h)
      exact ⟨_, _, .subscription (binaryToSubscription_eq_some.1 hparse), rfl⟩
  · rintro ⟨t, v, hdescribes, rfl⟩
    cases hdescribes with
    | none => simp [setTypeAndValue, ← htype, ← hvalue]
    | jid hempty hparse => simp [setTypeAndValue, hempty, hparse]
    | group hempty => simp [setTypeAndValue, hempty]
    | subscription hparse =>
      have hread := binaryToSubscription_eq_some.2 hparse
      have hempty : value ≠ "" := by
        rintro rfl
        cases hread
      simp [setTypeAndValue, hempty, hread]

theorem parseMatches1_eq (item : Item J) (els : List Element) : parseMatches1 item els =
    if ∀ child ∈ els, child.name ∈ kinds then
    some { item with
      matchMessage := item.matchMessage || els.any fun child => child.name = "message"
      matchIq := item.matchIq || els.any fun child => child.name = "iq"
      matchPresenceIn := item.matchPresenceIn || els.any fun child => child.name = "presence-in"
      matchPresenceOut :=
        item.matchPresenceOut || els.any fun child => child.name = "presence-out" }
    else none := by
  -- each child sets one flag of the item, so the flags are generalized
  induction els generalizing item with
  | nil => simp [parseMatches1]
  | cons el els ih =>
    rw [parseMatches1]
    split_ifs with hmessage hiq hin hout hkinds hkinds hkinds hkinds hkinds
    all_goals simp_all [kinds]

variable {els : List Element}

theorem setMatches_eq_some (hall : item.matchAll = false) (hmessage : item.matchMessage = false)
    (hiq : item.matchIq = false) (hin : item.matchPresenceIn = false)
    (hout : item.matchPresenceOut = false) :
    setMatches els (some item) = some item' ↔ (∀ child ∈ els, child.name ∈ kinds) ∧
    item' = { item with
      matchAll := els.isEmpty
      matchMessage := els.any fun child => child.name = "message"
      matchIq := els.any fun child => child.name = "iq"
      matchPresenceIn := els.any fun child => child.name = "presence-in"
      matchPresenceOut := els.any fun child => child.name = "presence-out" } := by
  obtain ⟨type, value, action, order, matchAll, matchIq, matchMessage, matchIn, matchOut⟩ := item
  dsimp only at hall hmessage hiq hin hout
  subst hall hmessage hiq hin hout
  cases els with
  | nil => simp [setMatches, parseMatches, eq_comm]
  | cons el els =>
    show parseMatches1 _ (el :: els) = some item' ↔ _
    rw [parseMatches1_eq]
    split_ifs with hkinds
    · simp only [Bool.false_or, some.injEq, isEmpty_cons]
      exact ⟨fun h => ⟨hkinds, h.symm⟩, fun h => h.2.symm⟩
    · exact ⟨fun h => h.elim, fun h => absurd h.1 hkinds⟩

variable {el : Element}

theorem attr?_of_getD {key : String} (h : (el.attr? key).getD "" = s)
    (hne : s ≠ "") : el.attr? key = some s := by
  cases hattr : el.attr? key with
  | none => exact absurd (by rw [← h, hattr]; rfl) hne
  | some value =>
    rw [hattr] at h
    exact congrArg some h

/-- **An element is read as the item that it stands for.** -/
theorem parseItem_eq_some_iff : parseItem lib el = some (some item) ↔ Describes lib el item := by
  constructor
  · intro h
    obtain ⟨i2, hi2, hmatches⟩ := map_eq_some_iff.1 h
    cases haction : parseAction ((el.attr? "action").getD "") with
    | none =>
      rw [haction] at hi2
      cases some.inj hi2
      cases hmatches
    | some action =>
    cases horder : parseOrder ((el.attr? "order").getD "") with
    | none =>
      rw [haction, horder] at hi2
      cases some.inj hi2
      cases hmatches
    | some order =>
    rw [haction, horder] at hi2
    cases i2 with
    | none => cases hmatches
    | some i2 =>
    obtain ⟨t, v, hdescribes, rfl⟩ := (setTypeAndValue_eq_some rfl rfl).1 hi2
    obtain ⟨hkinds, rfl⟩ := (setMatches_eq_some rfl rfl rfl rfl rfl).1 hmatches
    refine ⟨?_, ⟨order, _, rfl, ?_, parseOrder_eq_some.1 horder⟩, hdescribes, hkinds, rfl, rfl, rfl,
      rfl, rfl⟩
    · rcases parseAction_eq_some.1 haction with ⟨rfl, hs⟩ | ⟨rfl, hs⟩
      · exact Or.inl ⟨rfl, attr?_of_getD hs (by decide)⟩
      · exact Or.inr ⟨rfl, attr?_of_getD hs (by decide)⟩
    · refine attr?_of_getD rfl ?_
      intro hempty
      rw [hempty] at horder
      cases horder
  · rintro ⟨haction, ⟨n, s, horder, hattr, hn⟩, hvalue, hkinds, hall, hmessage, hiq, hin, hout⟩
    obtain ⟨type, value, action, order, matchAll, matchIq, matchMessage, matchIn, matchOut⟩ := item
    dsimp only at haction horder hvalue hall hmessage hiq hin hout
    subst horder hall hmessage hiq hin hout
    have haction : parseAction ((el.attr? "action").getD "") = some action := by
      refine parseAction_eq_some.2 ?_
      rcases haction with ⟨rfl, hs⟩ | ⟨rfl, hs⟩
      · exact Or.inl ⟨rfl, by rw [hs]; rfl⟩
      · exact Or.inr ⟨rfl, by rw [hs]; rfl⟩
    have horder : parseOrder ((el.attr? "order").getD "") = some n := by
      rw [parseOrder_eq_some, hattr]
      exact hn
    rw [parseItem, haction, horder, setActionAndOrder]
    let item : Item J := {
      type := .none, value := .none, action, order := some n, matchAll := false, matchIq := false
      matchMessage := false, matchPresenceIn := false, matchPresenceOut := false }
    have htyped : setTypeAndValue lib _ _ (some item) = _ :=
      (setTypeAndValue_eq_some rfl rfl).2 ⟨type, value, hvalue, rfl⟩
    rw [htyped, map_some]
    exact congrArg some ((setMatches_eq_some rfl rfl rfl rfl rfl).2 ⟨hkinds, rfl⟩)

/-- An element with an action and an order whose type is none of those there are. -/
def UnknownType (el : Element) : Prop :=
  (parseAction ((el.attr? "action").getD "")).isSome ∧
    (parseOrder ((el.attr? "order").getD "")).isSome ∧
    (el.attr? "type").getD "" ∉ ["", "jid", "group", "subscription"] ∧
    (el.attr? "value").getD "" ≠ ""

theorem setTypeAndValue_eq_none : setTypeAndValue lib type value (some item) = none ↔
    type ∉ ["", "jid", "group", "subscription"] ∧ value ≠ "" := by
  rw [setTypeAndValue]
  split_ifs <;> simp_all

/-- **Reading an element fails when its type is unknown.** -/
theorem parseItem_eq_none_iff : parseItem lib el = none ↔ UnknownType el := by
  rw [parseItem, map_eq_none_iff, UnknownType]
  cases parseAction ((el.attr? "action").getD "") with
  | none => simp [setActionAndOrder, setTypeAndValue]
  | some action =>
    cases parseOrder ((el.attr? "order").getD "") with
    | none => simp [setActionAndOrder, setTypeAndValue]
    | some order =>
      rw [setActionAndOrder, setTypeAndValue_eq_none]
      simp

/-- Some element is no `<item/>`, and none before it has an unknown type. -/
def Refused : List Element → Prop
  | [] => False
  | el :: els => el.name ≠ "item" ∨ ¬ UnknownType el ∧ Refused els

variable {res : List (Item J)}

/-- The elements are refused at the first one that is no `<item/>`. -/
theorem parseItemsLoop_eq_false_iff : parseItemsLoop lib els res = .false ↔ Refused els := by
  induction els generalizing res with
  | nil => simp [parseItemsLoop, Refused]
  | cons el els ih =>
    have hnone : parseItem lib el = none ↔ UnknownType el := parseItem_eq_none_iff
    rw [parseItemsLoop, Refused, ← hnone]
    split_ifs with hname
    · cases parseItem lib el with
      | none => simp [hname]
      | some item => simp [hname, ih]
    · simp [hname]

variable {list : List (Item J)}

/-- A list is made of `<item/>` elements only. -/
theorem parseItemsLoop_eq_items (h : parseItemsLoop lib els res = .items list) :
    (∀ el ∈ els, el.name = "item") ∧ list = keysort orderKey
      ((els.filterMap fun el => (parseItem lib el).join).reverse ++ res) := by
  induction els generalizing res with
  | nil =>
    refine ⟨fun el hel => absurd hel not_mem_nil, ?_⟩
    exact (Parsed.items.inj h).symm
  | cons el els ih =>
    -- an item that is `false` is not added, which leaves the rest of the list
    rw [parseItemsLoop] at h
    split_ifs at h with hname
    cases hparse : parseItem lib el with
    | none =>
      rw [hparse] at h
      cases h
    | some item =>
      rw [hparse] at h
      obtain ⟨hnames, hlist⟩ := ih h
      refine ⟨forall_mem_cons.2 ⟨hname, hnames⟩, ?_⟩
      cases item with
      | none =>
        rw [filterMap_cons_none (by rw [hparse]; rfl)]
        exact hlist
      | some item =>
        rw [filterMap_cons_some (b := item) (by rw [hparse]; rfl), reverse_cons, append_assoc]
        exact hlist

/-- Elements that all stand for items are read as these. -/
theorem parseItemsLoop_of_describes {items : List (Item J)} (hnames : ∀ el ∈ els, el.name = "item")
    (h : List.Forall₂ (Describes lib) els items) (res : List (Item J)) :
    parseItemsLoop lib els res = .items (keysort orderKey (items.reverse ++ res)) := by
  induction h generalizing res with
  | nil => rfl
  | cons hdescribes _ ih =>
    obtain ⟨hname, hnames⟩ := forall_mem_cons.1 hnames
    rw [parseItemsLoop, if_pos hname, parseItem_eq_some_iff.2 hdescribes]
    dsimp only
    rw [addItem, ih hnames, reverse_cons, append_assoc, singleton_append]

variable {backend : PrivacyBackend J} {Valid : backend.Store → Prop}
  {Accepts : List (Item J) → Prop} {privacy : backend.Store} {privacy' : backend.Store}
  {answer : ListAnswer}

section

variable (hsound : backend.Sound lib Valid Accepts)

include hsound

theorem valid_processListSet {name : Option String} (h : Valid privacy)
    (hset : processListSet lib backend name els privacy = some (answer, privacy')) :
    Valid privacy' := by
  cases name with
  | none =>
    obtain ⟨-, rfl⟩ := Prod.mk.inj (some.inj hset)
    exact h
  | some name =>
    rw [processListSet] at hset
    cases hparse : parseItems lib els with
    | false =>
      rw [hparse] at hset
      obtain ⟨-, rfl⟩ := Prod.mk.inj (some.inj hset)
      exact h
    | remove =>
      rw [hparse] at hset
      cases hremove : backend.removePrivacyList name privacy with
      | none =>
        rw [hremove] at hset
        obtain ⟨-, rfl⟩ := Prod.mk.inj (some.inj hset)
        exact h
      | some removed =>
        rw [hremove] at hset
        obtain ⟨-, rfl⟩ := Prod.mk.inj (some.inj hset)
        exact hsound.valid_removePrivacyList h hremove
    | items list =>
      rw [hparse] at hset
      obtain ⟨replaced, hreplace, heq⟩ := map_eq_some_iff.1 hset
      obtain ⟨-, rfl⟩ := Prod.mk.inj heq
      exact hsound.valid_replacePrivacyList h hreplace
    | functionClause =>
      rw [hparse] at hset
      cases hset

/-- **Whatever is stored is valid.** -/
theorem valid_of_reached (h : Reached lib backend privacy) : Valid privacy := by
  induction h with
  | start => exact hsound.valid_empty
  | set _ hset ih => exact valid_processListSet hsound ih hset
  | replaced _ hreplace ih => exact hsound.valid_replacePrivacyList ih hreplace
  | default _ hset ih => exact hsound.valid_setDefaultList ih hset
  | forgotten _ ih => exact hsound.valid_forgetDefaultList ih

end

theorem parseItemsLoop_ne_remove (lib : JidLib D J) (els : List Element) (res : List (Item J)) :
    parseItemsLoop lib els res ≠ .remove := by
  induction els generalizing res with
  | nil =>
    intro h
    cases h
  | cons el els ih =>
    rw [parseItemsLoop]
    split_ifs
    · cases parseItem lib el with
      | none =>
        intro h
        cases h
      | some item => exact ih _
    · intro h
      cases h

/-- Reading fails at an element that stands for no item. -/
theorem exists_of_functionClause (h : parseItemsLoop lib els res = .functionClause) :
    ∃ el ∈ els, ∀ item, ¬ Describes lib el item := by
  induction els generalizing res with
  | nil => cases h
  | cons el els ih =>
    rw [parseItemsLoop] at h
    split_ifs at h
    cases hparse : parseItem lib el with
    | none =>
      refine ⟨el, mem_cons_self, fun item hitem => ?_⟩
      rw [parseItem_eq_some_iff.2 hitem] at hparse
      cases hparse
    | some item =>
      rw [hparse] at h
      obtain ⟨el', hel', hnone⟩ := ih h
      exact ⟨el', mem_cons_of_mem el hel', hnone⟩

theorem exactList_nil_iff {stored : List (Item J)} : ExactList lib [] stored ↔ stored = [] := by
  constructor
  · rintro ⟨⟨items, hitems, hperm⟩, -⟩
    obtain rfl : items = [] := forall₂_nil_left_iff.1 hitems
    exact perm_nil.1 hperm
  · rintro rfl
    exact ⟨⟨[], .nil, .refl _⟩, .nil⟩

/-- What a request does decides whether it is taken whole. -/
theorem whole_iff_of_processListSet {name : String}
    (hset : processListSet lib backend (some name) els privacy = some (answer, privacy')) :
    Whole lib backend (some name) els privacy ↔ answer = .badRequest ∧ privacy' = privacy ∨
    ExactList lib els (backend.storedList name privacy') := by
  constructor
  · rintro ⟨answer', privacy'', hset', hcase⟩
    cases (some.inj (hset.symm.trans hset'))
    rcases hcase with hbad | ⟨n, hn, hexact⟩
    · exact Or.inl hbad
    · exact Or.inr (some.inj hn ▸ hexact)
  · rintro (hbad | hexact)
    · exact ⟨_, _, hset, Or.inl hbad⟩
    · exact ⟨_, _, hset, Or.inr ⟨name, rfl, hexact⟩⟩

/-- A request that fails is not taken whole. -/
theorem not_whole_of_processListSet {name : Option String}
    (hset : processListSet lib backend name els privacy = none) :
    ¬ Whole lib backend name els privacy := by
  rintro ⟨answer, privacy', hset', -⟩
  rw [hset] at hset'
  cases hset'

/-- A removal leaves no items, unless the list is the default one. -/
theorem whole_nil_iff (hsound : backend.Sound lib Valid Accepts) (h : Valid privacy)
    (name : String) : Whole lib backend (some name) [] privacy ↔
    backend.default privacy ≠ some name ∨ backend.storedList name privacy = [] := by
  cases hremove : backend.removePrivacyList name privacy with
  | none =>
    have hset : processListSet lib backend (some name) [] privacy = some (.conflict, privacy) := by
      simp only [processListSet, parseItems, hremove]
    rw [whole_iff_of_processListSet hset, exactList_nil_iff]
    simp [hsound.removePrivacyList_eq_none.1 hremove]
  | some removed =>
    have hset : processListSet lib backend (some name) [] privacy = some (.result, removed) := by
      simp only [processListSet, parseItems, hremove]
    have hdefault : backend.default privacy ≠ some name := by
      intro hdefault
      rw [hsound.removePrivacyList_eq_none.2 hdefault] at hremove
      cases hremove
    rw [whole_iff_of_processListSet hset, exactList_nil_iff, hsound.storedList_removed h hremove]
    simp [hdefault]

/-- Items are stored whole when every element stands for one. -/
theorem exactList_iff (hparse : parseItemsLoop lib els [] = .items list) :
    ExactList lib els list ↔
    ∃ items, List.Forall₂ (Describes lib) els items ∧ list.Perm items := by
  have hnames := (parseItemsLoop_eq_items hparse).1
  have hall : (els.filter fun el => el.name = "item") = els :=
    filter_eq_self.2 fun el hel => decide_eq_true (hnames el hel)
  constructor
  · rintro ⟨hitems, -⟩
    rwa [hall] at hitems
  · intro hitems
    exact ⟨hall.symm ▸ hitems, pairwise_of_parseItemsLoop hparse⟩

/-- Elements that each stand for an item are read as these. -/
theorem perm_of_describes {items : List (Item J)} (hparse : parseItemsLoop lib els [] = .items list)
    (h : List.Forall₂ (Describes lib) els items) : list.Perm items := by
  have hread := parseItemsLoop_of_describes (parseItemsLoop_eq_items hparse).1 h []
  obtain rfl : keysort orderKey (items.reverse ++ []) = list :=
    Parsed.items.inj (hread.symm.trans hparse)
  rw [append_nil]
  exact (keysort_perm orderKey _).trans items.reverse_perm

/-- **A request without a fault** has no name, is refused at an element that is no `<item/>`,
removes a list other than the default one, or has items only that the backend accepts. -/
def Faultless (lib : JidLib D J) (backend : PrivacyBackend J) (Accepts : List (Item J) → Prop)
    (name : Option String) (els : List Element) (privacy : backend.Store) : Prop :=
  name = none ∨ Refused els ∨
    (els = [] ∧ (backend.default privacy ≠ name ∨
      ∀ n ∈ name, backend.storedList n privacy = [])) ∨
    (els ≠ [] ∧ (∀ el ∈ els, el.name = "item") ∧
      ∃ items, List.Forall₂ (Describes lib) els items ∧ Accepts items)

/-- Which requests a backend takes whole. -/
theorem whole_iff_faultless (hsound : backend.Sound lib Valid Accepts)
    (h : Reached lib backend privacy) (name : Option String) (els : List Element) :
    Whole lib backend name els privacy ↔ Faultless lib backend Accepts name els privacy := by
  have hvalid := valid_of_reached hsound h
  rw [Faultless]
  cases name with
  | none => exact ⟨fun _ => Or.inl rfl, fun _ => ⟨_, _, rfl, Or.inl ⟨rfl, rfl⟩⟩⟩
  | some name =>
  cases els with
  | nil =>
    rw [whole_nil_iff hsound hvalid]
    simp [Refused]
  | cons el els =>
  have hloop : parseItems lib (el :: els) = parseItemsLoop lib (el :: els) [] := rfl
  have hfalse : parseItemsLoop lib (el :: els) [] = .false ↔ Refused (el :: els) :=
    parseItemsLoop_eq_false_iff
  cases hparse : parseItemsLoop lib (el :: els) [] with
  | false =>
    have hset : processListSet lib backend (some name) (el :: els) privacy =
        some (.badRequest, privacy) := by
      rw [processListSet, hloop, hparse]
    exact ⟨fun _ => Or.inr (Or.inl (hfalse.1 hparse)),
      fun _ => (whole_iff_of_processListSet hset).2 (Or.inl ⟨rfl, rfl⟩)⟩
  | remove => exact absurd hparse (parseItemsLoop_ne_remove lib _ _)
  | functionClause =>
    have hset : processListSet lib backend (some name) (el :: els) privacy = none := by
      rw [processListSet, hloop, hparse]
    have hnot : ¬ Refused (el :: els) := fun hrefused => by
      rw [hfalse.2 hrefused] at hparse
      cases hparse
    obtain ⟨bad, hbad, hnone⟩ := exists_of_functionClause hparse
    refine iff_of_false (not_whole_of_processListSet hset) ?_
    rintro (hname | hrefused | ⟨hnil, -⟩ | ⟨-, -, items, hitems, -⟩)
    · cases hname
    · exact hnot hrefused
    · cases hnil
    · obtain ⟨item, -, hitem⟩ := exists_of_forall₂ hitems hbad
      exact hnone item hitem
  | items list =>
    have hset : processListSet lib backend (some name) (el :: els) privacy =
        (backend.replacePrivacyList name list privacy).map fun privacy' => (.result, privacy') := by
      rw [processListSet, hloop, hparse]
    have hnames := (parseItemsLoop_eq_items hparse).1
    have hnot : ¬ Refused (el :: els) := fun hrefused => by
      rw [hfalse.2 hrefused] at hparse
      cases hparse
    have hstored : ∀ item ∈ list, Stored lib item := fun item hitem =>
      (stored_of_parseItemsLoop hparse (by simp) item hitem).1
    have hsorted := pairwise_of_parseItemsLoop hparse
    have haccepts : (backend.replacePrivacyList name list privacy).isSome ↔ Accepts list :=
      hsound.isSome_replacePrivacyList hvalid hstored
    have hrest : Whole lib backend (some name) (el :: els) privacy ↔
        ∃ items, List.Forall₂ (Describes lib) (el :: els) items ∧ Accepts items := by
      cases hreplace : backend.replacePrivacyList name list privacy with
      | none =>
        rw [hreplace] at hset haccepts
        refine iff_of_false (not_whole_of_processListSet hset) ?_
        rintro ⟨items, hitems, haccepted⟩
        have hperm := perm_of_describes hparse hitems
        exact absurd (haccepts.2 ((hsound.accepts_perm hperm).2 haccepted)) (by simp)
      | some replaced =>
        rw [hreplace] at hset haccepts
        rw [whole_iff_of_processListSet hset,
          hsound.storedList_replaced hvalid hstored hsorted hreplace, exactList_iff hparse]
        constructor
        · rintro (⟨hbad, -⟩ | ⟨items, hitems, hperm⟩)
          · cases hbad
          · exact ⟨items, hitems, (hsound.accepts_perm hperm).1 (haccepts.1 rfl)⟩
        · rintro ⟨items, hitems, -⟩
          exact Or.inr ⟨items, hitems, perm_of_describes hparse hitems⟩
    rw [hrest]
    constructor
    · exact fun hitems => Or.inr (Or.inr (Or.inr ⟨cons_ne_nil _ _, hnames, hitems⟩))
    · rintro (hname | hrefused | ⟨hnil, -⟩ | ⟨-, -, hitems⟩)
      · cases hname
      · exact absurd hrefused hnot
      · cases hnil
      · exact hitems

/-- The messages of a contact stay denied, and a group is denied altogether. -/
def denyGroup : List Element :=
  [.mk "item" [("type", "group"), ("value", "work"), ("action", "deny"), ("order", "3")] [] "",
    .mk "item" [("type", "jid"), ("value", "Bob@host"), ("action", "deny"), ("order", "1")]
      [matchElement "message"] ""]

/-- Everything is allowed but the messages of a contact, and the order of that item is negative. -/
def denyUnordered : List Element :=
  [.mk "item" [("action", "allow"), ("order", "2")] [] "",
    .mk "item" [("type", "jid"), ("value", "bob@host"), ("action", "deny"), ("order", "-1")]
      [matchElement "message"] ""]

/-- A list of items that are all read, but whose orders are those given. -/
def denyAs (order order' : String) : List Element :=
  [.mk "item" [("action", "allow"), ("order", order)] [] "",
    .mk "item" [("type", "group"), ("value", "work"), ("action", "deny"), ("order", order')] [] ""]

/-- A list whose rows do not fit makes the request fail. -/
theorem processListSet_eq_none {us : String × String} {tables : PrivacyTables}
    (h : Reached lib (rdbms lib us) tables) (hparse : parseItemsLoop lib els [] = .items list)
    (hne : els ≠ []) (hnot : ¬ RowsFit us list) (name : String) :
    processListSet lib (rdbms lib us) (some name) els tables = none := by
  have hstored : ∀ item ∈ list, Stored lib item := fun item hitem =>
    (stored_of_parseItemsLoop hparse (by simp) item hitem).1
  have hsound := rdbms_sound lib us
  have haccepts : ((rdbms lib us).replacePrivacyList name list tables).isSome ↔ RowsFit us list :=
    hsound.isSome_replacePrivacyList (valid_of_reached hsound h) hstored
  have hfails : (rdbms lib us).replacePrivacyList name list tables = none := by
    rw [← Option.not_isSome_iff_eq_none, haccepts]
    exact hnot
  obtain ⟨el, els, rfl⟩ := exists_cons_of_ne_nil hne
  have hitems : parseItems lib (el :: els) = .items list := hparse
  rw [processListSet, hitems]
  exact Option.map_eq_none_iff.2 hfails

end MongooseIM.Privacy
