import Mathlib.Order.WithBot
import MongooseIM.Erlang.Integers
import MongooseIM.Privacy.Blocking
import MongooseIM.Xmpp.Stanza

/-! # Privacy lists as elements

`mod_privacy` reads a list from `<item/>` elements and shows it as such. The lists that it shows are
written by `mod_blocking`, too, whose items have an action of their own. -/

namespace MongooseIM.Privacy

open Erlang Xmpp List

/-- The value of an item of the type `subscription`. -/
inductive Subscription
  | none
  | both
  | from
  | to

/-- `privacy_item_value()` -/
inductive Value (J : Type)
  | none
  | jid (j : J)
  | group (name : String)
  | subscription (subscription : Subscription)

/-- `#listitem{}` -/
abbrev Item (J : Type) := ListItem (Value J)

variable {D J : Type}

/-- What `parse_items/1` returns. -/
inductive Parsed (J : Type)
  | false
  | remove
  | items (list : List (Item J))
  | functionClause

/-- `parse_action/1`; `none` is `false`. -/
def parseAction (action : String) : Option Action :=
  if action = "allow" then some .allow
  else if action = "deny" then some .deny
  else none

/-- `parse_order/1`; `none` is `false`. -/
def parseOrder (order : String) : Option ℕ :=
  if order = "" then none
  else
    match binaryToInteger order with
    | some i => if 0 ≤ i then some i.toNat else none
    | none => none

/-- `set_action_and_order/2` -/
def setActionAndOrder : Option Action → Option ℕ → Option (Item J)
  | some action, some order =>
    some
      { type := .none
        value := .none
        action := action
        order := some order
        matchAll := false
        matchIq := false
        matchMessage := false
        matchPresenceIn := false
        matchPresenceOut := false }
  | _, _ => none

/-- The atom of a subscription. -/
def binaryToSubscription (value : String) : Option Subscription :=
  if value = "none" then some .none
  else if value = "both" then some .both
  else if value = "from" then some .from
  else if value = "to" then some .to
  else none

variable (lib : JidLib D J)

/-- `set_type_and_value/3`; the outer `none` is a `function_clause`, the inner one is `false`. -/
def setTypeAndValue (type value : String) : Option (Item J) → Option (Option (Item J))
  | none => some none
  | some item =>
    if type = "" then some (some item)
    else if value = "" then some none
    else if type = "jid" then
      some ((lib.fromBinary value).map fun jid =>
        { item with type := .jid, value := .jid (lib.toLower jid) })
    else if type = "group" then some (some { item with type := .group, value := .group value })
    else if type = "subscription" then
      some ((binaryToSubscription value).map fun subscription =>
        { item with type := .subscription, value := .subscription subscription })
    else none

/-- `parse_matches1/2` -/
def parseMatches1 (item : Item J) : List Element → Option (Item J)
  | [] => some item
  | el :: els =>
    if el.name = "message" then parseMatches1 { item with matchMessage := true } els
    else if el.name = "iq" then parseMatches1 { item with matchIq := true } els
    else if el.name = "presence-in" then parseMatches1 { item with matchPresenceIn := true } els
    else if el.name = "presence-out" then parseMatches1 { item with matchPresenceOut := true } els
    else none

/-- `parse_matches/2` -/
def parseMatches (item : Item J) : List Element → Option (Item J)
  | [] => some { item with matchAll := true }
  | els => parseMatches1 item els

/-- `set_matches/2` -/
def setMatches (subEls : List Element) (item : Option (Item J)) : Option (Item J) :=
  item.bind fun item => parseMatches item subEls

/-- What `parse_items/2` makes of an `<item/>`; the `none`s are as for `setTypeAndValue`. -/
def parseItem (el : Element) : Option (Option (Item J)) :=
  let action := parseAction ((el.attr? "action").getD "")
  let order := parseOrder ((el.attr? "order").getD "")
  let i1 := setActionAndOrder action order
  let i2 := setTypeAndValue lib ((el.attr? "type").getD "") ((el.attr? "value").getD "") i1
  i2.map (setMatches el.children)

/-- `add_item/2` -/
def addItem : Option (Item J) → List (Item J) → List (Item J)
  | none, items => items
  | some item, items => item :: items

/-- What items are sorted by: an atom is greater than a number. -/
def orderKey (item : Item J) : WithTop ℕ :=
  match item.order with
  | some order => WithTop.some order
  | none => ⊤

/-- `parse_items/2` -/
def parseItemsLoop (lib : JidLib D J) : List Element → List (Item J) → Parsed J
  | [], res => .items (keysort orderKey res)
  | el :: els, res =>
    if el.name = "item" then
      match parseItem lib el with
      | some item => parseItemsLoop lib els (addItem item res)
      | none => .functionClause
    else .false

/-- `parse_items/1` -/
def parseItems : List Element → Parsed J
  | [] => .remove
  | els => parseItemsLoop lib els []

/-- `action_to_binary/1`; `none` is a `case_clause`. -/
def actionToBinary : Action → Option String
  | .allow => some "allow"
  | .deny => some "deny"
  | .block => none

/-- `order_to_binary/1`; `none` is a `badarg`. -/
def orderToBinary (order : Option ℕ) : Option String :=
  order.map fun (n : ℕ) => integerToBinary n

/-- `type_to_binary/1`; `none` is a `case_clause`. -/
def typeToBinary : ItemType → Option String
  | .none => none
  | .jid => some "jid"
  | .group => some "group"
  | .subscription => some "subscription"

/-- The text of a subscription. -/
def subscriptionToBinary : Subscription → String
  | .none => "none"
  | .both => "both"
  | .from => "from"
  | .to => "to"

/-- `jid:to_binary/1` of a value: a binary is left as it is, an atom is no JID. -/
def Value.printed : Value J → Option String
  | .jid j => some (lib.toBinary j)
  | .group name => some name
  | .none => Option.none
  | .subscription _ => Option.none

/-- `value_to_binary/2`; `none` is an error. -/
def valueToBinary : ItemType → Value J → Option String
  | .jid, value => value.printed lib
  | .group, .group name => some name
  | .subscription, .subscription subscription => some (subscriptionToBinary subscription)
  | _, _ => none

/-- `item_to_xml_attrs1/1` -/
def itemToXmlAttrs1 (item : Item J) : Option (List (String × String)) := do
  let action ← actionToBinary item.action
  let order ← orderToBinary item.order
  return [("action", action), ("order", order)]

/-- `item_to_xml_attrs/1` -/
def itemToXmlAttrs (item : Item J) : Option (List (String × String)) :=
  if item.type = .none then itemToXmlAttrs1 item
  else do
    let attrs ← itemToXmlAttrs1 item
    let type ← typeToBinary item.type
    let value ← valueToBinary lib item.type item.value
    return attrs ++ [("type", type), ("value", value)]

/-- An element that stands for a kind of stanza. -/
def matchElement (name : String) : Element := .mk name [] [] ""

/-- `item_to_xml_children/1` -/
def itemToXmlChildren (item : Item J) : List Element :=
  if item.matchAll then []
  else
    (if item.matchMessage then [matchElement "message"] else []) ++
      (if item.matchPresenceIn then [matchElement "presence-in"] else []) ++
      (if item.matchPresenceOut then [matchElement "presence-out"] else []) ++
      (if item.matchIq then [matchElement "iq"] else [])

/-- `item_to_xml/1`; `none` is an error. -/
def itemToXml (item : Item J) : Option Element :=
  (itemToXmlAttrs lib item).map fun attrs => .mk "item" attrs (itemToXmlChildren item) ""

/-- What `mod_blocking` uses of the library on the values of any items; it prints none that cannot
be printed (`modifyStored`). -/
def valueLib : JidLib D (Value J) where
  fromBinary := lib.fromBinary
  toLower jid := .jid (lib.toLower jid)
  toBinary value := (value.printed lib).getD ""
  fromBinary_toBinary s jid hparse := by
    have h := lib.fromBinary_toBinary s jid hparse
    obtain ⟨jid', hjid', hlower⟩ := Option.map_eq_some_iff.1 h
    simp [Value.printed, hjid', hlower]

/-- `blocking_list_modify/3` on a stored list; an item that cannot be printed is an error. -/
def modifyStored (type : CommandType) (change : List String)
    (old : List (Item J)) : Option (List (Item J)) :=
  if old.all fun item => (item.value.printed lib).isSome then
    some (blockingListModify (valueLib lib) type change old).2.2
  else none

/-- **The lists that are stored**: those that are read, and those that blocking commands make. -/
inductive Storable (lib : JidLib D J) : List (Item J) → Prop
  | parsed {els : List Element} {list : List (Item J)} :
      parseItems lib els = .items list → Storable lib list
  | first {type : CommandType} {change : List String} {list : List (Item J)} :
      modifyStored lib type change [] = some list → Storable lib list
  | modified {type : CommandType} {change : List String} {old list : List (Item J)} :
      Storable lib old → modifyStored lib type change old = some list → Storable lib list

/-- **A list is shown, and read back**: every item is shown, and a list that elements were read as
and whose orders are distinct is what the elements shown are read as. -/
structure ShownAndRead (lib : JidLib D J) (list : List (Item J)) : Prop where
  shown : ∀ item ∈ list, (itemToXml lib item).isSome
  readBack : ∀ els, parseItems lib els = .items list → (list.map ListItem.order).Nodup →
    ∃ shownEls, list.mapM (itemToXml lib) = some shownEls ∧
      parseItems lib shownEls = .items list

/-- The value is one of the type. -/
def Fits : ItemType → Value J → Prop
  | .none, .none => True
  | .jid, .jid j => ∃ s jid, lib.fromBinary s = some jid ∧ lib.toLower jid = j
  | .group, .group name => name ≠ ""
  | .subscription, .subscription _ => True
  | _, _ => False

/-- Some kind of stanza is singled out. -/
def matchAny (item : Item J) : Bool :=
  item.matchMessage || item.matchIq || item.matchPresenceIn || item.matchPresenceOut

/-- What a stored item is like. -/
structure Stored (lib : JidLib D J) (item : Item J) : Prop where
  fits : Fits lib item.type item.value
  ordered : item.order.isSome
  matchAll_eq : item.matchAll = !matchAny item

variable {s : String} {action : Action}

/-- An action that is read is not that of `mod_blocking`. -/
theorem parseAction_ne_block (h : parseAction s = some action) : action ≠ .block := by
  rintro rfl
  rw [parseAction] at h
  split_ifs at h <;> cases h

variable {lib : JidLib D J} {item : Item J} {item' : Item J}

theorem setTypeAndValue_spec {type value : String}
    (htype : item.type = .none) (hvalue : item.value = .none)
    (h : setTypeAndValue lib type value (some item) = some (some item')) :
    Fits lib item'.type item'.value ∧
    item' = { item with type := item'.type, value := item'.value } := by
  rw [setTypeAndValue] at h
  split_ifs at h with hnone hempty hjid hgroup hsubscription
  · cases h
    rw [htype, hvalue]
    refine ⟨trivial, ?_⟩
    rw [← htype, ← hvalue]
  · cases h
  · obtain ⟨jid, hparse, rfl⟩ := Option.map_eq_some_iff.1 (Option.some.inj h)
    exact ⟨⟨value, jid, hparse, rfl⟩, rfl⟩
  · cases h
    exact ⟨hempty, rfl⟩
  · obtain ⟨subscription, _, rfl⟩ := Option.map_eq_some_iff.1 (Option.some.inj h)
    exact ⟨trivial, rfl⟩

variable {els : List Element}

/-- Each element singles out a kind of stanza, and nothing else is set. -/
theorem parseMatches1_spec (h : parseMatches1 item els = some item') :
    matchAny item' = (matchAny item || !els.isEmpty) ∧
    item'.type = item.type ∧ item'.value = item.value ∧ item'.action = item.action ∧
      item'.order = item.order ∧ item'.matchAll = item.matchAll := by
  induction els generalizing item with
  | nil =>
    cases h
    simp
  | cons el els ih =>
    rw [parseMatches1] at h
    split_ifs at h
    all_goals
      obtain ⟨hany, hrest⟩ := ih h
      refine ⟨?_, hrest⟩
      rw [hany]
      simp [matchAny]

variable {el : Element}

/-- **What is read can be stored**, and blocks nobody. -/
theorem stored_of_parseItem
    (h : parseItem lib el = some (some item)) : Stored lib item ∧ item.action ≠ .block := by
  rw [parseItem] at h
  obtain ⟨i2, htype, hmatches⟩ := Option.map_eq_some_iff.1 h
  obtain ⟨i2, rfl, hmatches⟩ := Option.bind_eq_some_iff.1 hmatches
  change parseMatches i2 el.children = some item at hmatches
  rcases haction : parseAction ((el.attr? "action").getD "") with _ | action
  · rw [haction] at htype
    cases htype
  rcases horder : parseOrder ((el.attr? "order").getD "") with _ | order
  · rw [haction, horder] at htype
    cases htype
  rw [haction, horder] at htype
  obtain ⟨hfits, hframe⟩ := setTypeAndValue_spec rfl rfl htype
  have hi2 : i2.order = some order ∧ i2.action = action ∧ matchAny i2 = false ∧
      i2.matchAll = false := by
    rw [hframe]
    exact ⟨rfl, rfl, rfl, rfl⟩
  obtain ⟨hi2order, hi2action, hi2any, hi2all⟩ := hi2
  have hne := parseAction_ne_block haction
  rcases hchildren : el.children with _ | ⟨child, children⟩
  · rw [hchildren, parseMatches] at hmatches
    cases hmatches
    refine ⟨⟨hfits, ?_, ?_⟩, ?_⟩
    · simp [hi2order]
    · simpa [matchAny] using hi2any
    · simpa [hi2action] using hne
  · rw [hchildren, parseMatches] at hmatches
    · obtain ⟨hany, htype', hvalue', haction', horder', hall'⟩ := parseMatches1_spec hmatches
      refine ⟨⟨?_, ?_, ?_⟩, ?_⟩
      · rw [htype', hvalue']
        exact hfits
      · rw [horder', hi2order]
        rfl
      · rw [hall', hi2all, hany]
        simp
      · rw [haction', hi2action]
        exact hne
    · simp

variable {list : List (Item J)} {res : List (Item J)}

theorem stored_of_parseItemsLoop (h : parseItemsLoop lib els res = .items list)
    (hres : ∀ item ∈ res, Stored lib item ∧ item.action ≠ .block) :
    ∀ item ∈ list, Stored lib item ∧ item.action ≠ .block := by
  induction els generalizing res with
  | nil =>
    cases h
    intro item hmem
    exact hres item (mem_keysort.1 hmem)
  | cons el els ih =>
    rw [parseItemsLoop] at h
    split_ifs at h
    rcases hparse : parseItem lib el with _ | _ | item
    · rw [hparse] at h
      cases h
    · rw [hparse] at h
      exact ih h hres
    · rw [hparse] at h
      refine ih h ?_
      rw [addItem, forall_mem_cons]
      exact ⟨stored_of_parseItem hparse, hres⟩

theorem pairwise_of_parseItemsLoop (h : parseItemsLoop lib els res = .items list) :
    list.Pairwise fun a b => orderKey a ≤ orderKey b := by
  induction els generalizing res with
  | nil =>
    cases h
    exact pairwise_keysort orderKey res
  | cons el els ih =>
    rw [parseItemsLoop] at h
    split_ifs at h
    rcases hparse : parseItem lib el with _ | item
    · rw [hparse] at h
      cases h
    · rw [hparse] at h
      exact ih h

theorem parseItemsLoop_of_parseItems (h : parseItems lib els = .items list) :
    parseItemsLoop lib els [] = .items list := by
  rcases els with _ | ⟨el, els⟩
  · cases h
  · exact h

theorem stored_setOrder {l : List (Item J)}
    (h : ∀ item ∈ l, Fits lib item.type item.value ∧ item.matchAll = !matchAny item) :
    ∀ item ∈ setOrder l, Stored lib item := by
  intro item hmem
  obtain ⟨hfits, hall⟩ := forall_mem_setOrder (fun _ _ hitem => hitem) h item hmem
  refine ⟨hfits, ?_, hall⟩
  have horder : item.order ∈ (setOrder l).map ListItem.order := mem_map_of_mem hmem
  rw [setOrder, (setOrderLoop_eq 1 [] l).2] at horder
  simp only [map_nil, append_nil, mem_reverse, mem_map] at horder
  obtain ⟨order, _, heq⟩ := horder
  rw [← heq]
  rfl

/-- **A blocking command makes items that can be stored** of such items. -/
theorem stored_of_modifyStored {type : CommandType} {change : List String}
    {old : List (Item J)} (h : modifyStored lib type change old = some list)
    (hold : ∀ item ∈ old, Stored lib item) : ∀ item ∈ list, Stored lib item := by
  rw [modifyStored] at h
  split_ifs at h
  cases h
  rcases type with _ | _
  · rw [block_eq]
    refine stored_setOrder ?_
    intro item hmem
    rw [mem_append, mem_reverse, mem_reverse] at hmem
    rcases hmem with hmem | hmem
    · obtain ⟨value, hvalue, rfl⟩ := mem_map.1 hmem
      obtain ⟨usr, _, hparse⟩ := mem_filterMap.1 hvalue
      obtain ⟨jid, hjid, rfl⟩ := Option.map_eq_some_iff.1 hparse
      exact ⟨⟨usr, jid, hjid, rfl⟩, rfl⟩
    · have hitem := hold item (mem_filter.1 hmem).1
      exact ⟨hitem.fits, hitem.matchAll_eq⟩
  · rcases change with _ | ⟨usr, change⟩
    · simp [blockingListModify]
    · rw [unblock_eq _ (cons_ne_nil usr change)]
      intro item hmem
      exact hold item (mem_filter.1 (mem_reverse.1 hmem)).1

/-- **The items of a stored list.** -/
theorem stored_of_storable (h : Storable lib list) : ∀ item ∈ list, Stored lib item := by
  induction h with
  | parsed hparse =>
    intro item hmem
    exact (stored_of_parseItemsLoop (parseItemsLoop_of_parseItems hparse) (by simp) item hmem).1
  | first hmodify => exact stored_of_modifyStored hmodify (by simp)
  | modified _ hmodify ih => exact stored_of_modifyStored hmodify ih

variable {type : ItemType} {value : Value J}

/-- A value that fits a type is shown with it. -/
theorem exists_valueToBinary (hne : type ≠ .none) (h : Fits lib type value) :
    ∃ t v, typeToBinary type = some t ∧ valueToBinary lib type value = some v := by
  rcases type with _ | _ | _ | _
  · exact absurd rfl hne
  all_goals
    rcases value with _ | j | name | subscription
    all_goals first
      | exact h.elim
      | exact ⟨_, _, rfl, rfl⟩

/-- **A stored item is shown exactly when it is not one of `mod_blocking`.** -/
theorem isSome_itemToXml_iff (h : Stored lib item) :
    (itemToXml lib item).isSome ↔ item.action ≠ .block := by
  have hattrs1 : (itemToXmlAttrs1 item).isSome ↔ item.action ≠ .block := by
    obtain ⟨order, horder⟩ := Option.isSome_iff_exists.1 h.ordered
    rcases haction : item.action with _ | _ | _
    all_goals simp [itemToXmlAttrs1, haction, actionToBinary, horder, orderToBinary]
  rw [itemToXml, Option.isSome_map, ← hattrs1, itemToXmlAttrs]
  split_ifs with htype
  · rfl
  · obtain ⟨t, v, ht, hv⟩ := exists_valueToBinary htype h.fits
    rcases itemToXmlAttrs1 item with _ | attrs
    · rfl
    · simp [ht, hv]

theorem parseAction_of_actionToBinary
    (h : actionToBinary action = some s) : parseAction s = some action := by
  cases action
  all_goals
    cases h
    try rfl

theorem parseOrder_of_orderToBinary {order : Option ℕ}
    (h : orderToBinary order = some s) : parseOrder s = order := by
  obtain ⟨n, rfl, rfl⟩ := Option.map_eq_some_iff.1 h
  have hread := binaryToInteger_integerToBinary (n : ℤ)
  have hne : integerToBinary (n : ℤ) ≠ "" := by
    intro hempty
    rw [hempty] at hread
    cases hread
  simp [parseOrder, hne, hread]

/-- A type and a value that are shown are read. -/
theorem setTypeAndValue_of_valueToBinary (hempty : lib.fromBinary "" = none) {t v : String}
    (hfits : Fits lib type value)
    (ht : typeToBinary type = some t) (hv : valueToBinary lib type value = some v)
    (item : Item J) :
    setTypeAndValue lib t v (some item) = some (some { item with type := type, value := value }) := by
  rcases type with _ | _ | _ | _
  · cases ht
  · rcases value with _ | j | name | subscription
    all_goals try exact hfits.elim
    obtain ⟨s, jid, hparse, rfl⟩ := hfits
    cases ht
    cases hv
    obtain ⟨jid', hjid', hlower⟩ := Option.map_eq_some_iff.1 (lib.fromBinary_toBinary s jid hparse)
    have hne : lib.toBinary (lib.toLower jid) ≠ "" := by
      intro heq
      rw [heq, hempty] at hjid'
      cases hjid'
    simp [setTypeAndValue, hne, hjid', hlower]
  · rcases value with _ | j | name | subscription
    all_goals try exact hfits.elim
    have hne : name ≠ "" := hfits
    cases ht
    cases hv
    simp [setTypeAndValue, hne]
  · rcases value with _ | j | name | subscription
    all_goals try exact hfits.elim
    cases ht
    cases hv
    cases subscription
    all_goals simp [setTypeAndValue, subscriptionToBinary, binaryToSubscription]

/-- The item before the kinds of stanza are read. -/
def unmatched (item : Item J) : Item J :=
  { item with
    matchAll := false
    matchIq := false
    matchMessage := false
    matchPresenceIn := false
    matchPresenceOut := false }

/-- The item before its type and value are read, too. -/
def untyped (item : Item J) : Item J := { unmatched item with type := .none, value := .none }

theorem parseMatches_itemToXmlChildren (hall : item.matchAll = !matchAny item) :
    parseMatches (unmatched item) (itemToXmlChildren item) = some item := by
  obtain ⟨type, value, action, order, matchAll, matchIq, matchMessage, matchIn, matchOut⟩ := item
  simp only [matchAny] at hall
  subst hall
  cases matchIq <;> cases matchMessage <;> cases matchIn <;> cases matchOut <;> rfl

/-- **An item that is shown is read as itself.** -/
theorem parseItem_of_itemToXml (hempty : lib.fromBinary "" = none) (h : Stored lib item)
    (hshown : itemToXml lib item = some el) :
    el.name = "item" ∧ parseItem lib el = some (some item) := by
  obtain ⟨attrs, hattrs, rfl⟩ := Option.map_eq_some_iff.1 hshown
  refine ⟨rfl, ?_⟩
  obtain ⟨order, horder⟩ := Option.isSome_iff_exists.1 h.ordered
  have hne : item.action ≠ .block := by
    rw [← isSome_itemToXml_iff h, hshown]
    rfl
  obtain ⟨action, haction⟩ : ∃ action, actionToBinary item.action = some action := by
    rcases hitem : item.action with _ | _ | _
    · exact ⟨_, rfl⟩
    · exact ⟨_, rfl⟩
    · exact absurd hitem hne
  have hparseAction := parseAction_of_actionToBinary haction
  have hparseOrder : parseOrder (integerToBinary order) = item.order :=
    parseOrder_of_orderToBinary (by rw [horder]; rfl)
  have hattrs1 : itemToXmlAttrs1 item =
      some [("action", action), ("order", integerToBinary order)] := by
    simp [itemToXmlAttrs1, haction, horder, orderToBinary]
  rw [itemToXmlAttrs, hattrs1] at hattrs
  have hmatches := parseMatches_itemToXmlChildren h.matchAll_eq
  have hfirst : setActionAndOrder (some item.action) item.order = some (untyped item) := by
    rw [untyped, unmatched, horder]
    rfl
  split_ifs at hattrs with htype
  · cases hattrs
    have hvalue : item.value = .none := by
      have hfits := h.fits
      rw [htype] at hfits
      rcases hitem : item.value with _ | j | name | subscription
      · rfl
      all_goals
        rw [hitem] at hfits
        exact hfits.elim
    have hsame : untyped item = unmatched item := by
      simp [untyped, unmatched, htype, hvalue]
    simp [parseItem, Element.attr?, Element.attrs, Element.children, List.lookup_cons, hparseAction,
      hparseOrder, hfirst, hsame, setTypeAndValue, setMatches, hmatches]
  · obtain ⟨t, v, ht, hv⟩ := exists_valueToBinary htype h.fits
    simp only [ht, hv, Option.bind_eq_bind, Option.bind_some, Option.pure_def,
      Option.some.injEq] at hattrs
    subst hattrs
    have hsecond : setTypeAndValue lib t v (some (untyped item)) = some (some (unmatched item)) :=
      setTypeAndValue_of_valueToBinary hempty h.fits ht hv (untyped item)
    simp [parseItem, Element.attr?, Element.attrs, Element.children, List.lookup_cons, hparseAction,
      hparseOrder, hfirst, hsecond, setMatches, hmatches]

/-- The elements shown are read as the items, in the reverse order before they are sorted. -/
theorem parseItemsLoop_of_shown (hempty : lib.fromBinary "" = none) {shownEls : List Element}
    (hstored : ∀ item ∈ list, Stored lib item)
    (hshown : list.map (itemToXml lib) = shownEls.map some) (res : List (Item J)) :
    parseItemsLoop lib shownEls res = .items (keysort orderKey (list.reverse ++ res)) := by
  induction list generalizing shownEls res with
  | nil =>
    obtain rfl : shownEls = [] := map_eq_nil_iff.1 hshown.symm
    rfl
  | cons item list ih =>
    rcases shownEls with _ | ⟨el, shownEls⟩
    · cases hshown
    rw [map_cons, map_cons] at hshown
    obtain ⟨hel, hrest⟩ := cons_eq_cons.1 hshown
    rw [forall_mem_cons] at hstored
    obtain ⟨hname, hparse⟩ := parseItem_of_itemToXml hempty hstored.1 hel
    rw [parseItemsLoop, if_pos hname, hparse]
    show parseItemsLoop lib shownEls (item :: res) = _
    rw [ih hstored.2 hrest, reverse_cons, append_assoc, singleton_append]

theorem nodup_orderKey (h : (list.map ListItem.order).Nodup) : (list.map orderKey).Nodup := by
  have hkey : (orderKey : Item J → WithTop ℕ) = ListItem.order := by
    funext item
    rw [orderKey]
    rcases item.order with _ | order
    · rfl
    · rfl
  rw [hkey]
  exact h

/-- An element that is skipped: it has no action. -/
def emptyItem : Element := .mk "item" [] [] ""

/-- **A stored list is shown and read back exactly when it is not empty and blocks nobody.** -/
theorem shownAndRead_iff {lib : JidLib D J} (hempty : lib.fromBinary "" = none)
    {list : List (Item J)} (h : Storable lib list) :
    ShownAndRead lib list ↔ list ≠ [] ∧ ∀ item ∈ list, item.action ≠ .block := by
  have hstored := stored_of_storable h
  constructor
  · intro hshown
    constructor
    · rintro rfl
      -- nothing is shown of a list whose elements were all skipped, and nothing means to remove it
      obtain ⟨shownEls, hels, hread⟩ := hshown.readBack [emptyItem] rfl nodup_nil
      cases hels
      cases hread
    · intro item hmem
      exact (isSome_itemToXml_iff (hstored item hmem)).1 (hshown.shown item hmem)
  · rintro ⟨hne, hblock⟩
    have hshown : ∀ item ∈ list, (itemToXml lib item).isSome := by
      intro item hmem
      exact (isSome_itemToXml_iff (hstored item hmem)).2 (hblock item hmem)
    refine ⟨hshown, ?_⟩
    intro els hparse hnodup
    obtain ⟨shownEls, hels, hmap⟩ :=
      exists_mapM fun item hmem => Option.isSome_iff_exists.1 (hshown item hmem)
    refine ⟨shownEls, hels, ?_⟩
    have hread := parseItemsLoop_of_shown hempty hstored hmap []
    have hsorted := pairwise_of_parseItemsLoop (parseItemsLoop_of_parseItems hparse)
    have hsame : keysort orderKey (list.reverse ++ []) = list := by
      rw [append_nil]
      have hperm : (keysort orderKey list.reverse).Perm list :=
        (keysort_perm orderKey list.reverse).trans list.reverse_perm
      have hkeys := nodup_orderKey hnodup
      refine eq_of_perm_of_keys hperm ?_ (pairwise_lt_of_nodup hsorted hkeys)
      exact pairwise_lt_of_nodup (pairwise_keysort orderKey list.reverse)
        ((hperm.map orderKey).nodup_iff.2 hkeys)
    rw [hsame] at hread
    rcases shownEls with _ | ⟨el, shownEls⟩
    · exact absurd (map_eq_nil_iff.1 hmap) hne
    · exact hread

/-- Bare JIDs of ASCII letters, `@` and dots; the empty text is none. -/
def asciiJids : JidLib (List Char) (List Char) where
  fromBinary s := if s = "" then none else some s.toList
  toLower := List.map Char.toLower
  toBinary := String.ofList
  fromBinary_toBinary s jid hparse := by
    have hcomp : Char.toLower ∘ Char.toLower = Char.toLower := funext toLower_toLower
    have hne : jid ≠ [] := by
      rintro rfl
      split_ifs at hparse with hempty
      exact hempty (String.toList_eq_nil_iff.1 (Option.some.inj hparse))
    have hprinted : String.ofList (jid.map Char.toLower) ≠ "" := by
      intro heq
      have hnil := congrArg String.toList heq
      simp [hne] at hnil
    simp [hprinted, hcomp]

/-- Messages of a contact are denied, everything else is allowed; the order is the other one. -/
def denyMessages : List Element :=
  [.mk "item" [("action", "allow"), ("order", "2")] [] "",
    .mk "item" [("type", "jid"), ("value", "Bob@host"), ("action", "deny"), ("order", "1")]
      [matchElement "message"] ""]

/-- A list with both kinds of items is shown and read back. -/
theorem shownAndRead_iff_denyMessages :
    ∃ list, parseItems asciiJids denyMessages = .items list ∧ ShownAndRead asciiJids list := by
  have hparse : parseItems asciiJids denyMessages = .items _ := rfl
  refine ⟨_, hparse, ?_⟩
  refine (shownAndRead_iff rfl (Storable.parsed hparse)).2 ⟨?_, ?_⟩
  · decide
  · decide

/-- A list of a contact that is blocked is not shown. -/
theorem blocked_not_shown :
    ∃ list, modifyStored asciiJids .block ["bob@host"] [] = some list ∧ Storable asciiJids list ∧
    (list.map fun item => (itemToXml asciiJids item).isSome) = [false] ∧
    ¬ ShownAndRead asciiJids list := by
  refine ⟨_, rfl, Storable.first rfl, rfl, ?_⟩
  intro h
  have hshown := h.shown _ mem_cons_self
  cases hshown

end MongooseIM.Privacy
