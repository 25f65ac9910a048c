import MongooseIM.Erlang.Lists
import MongooseIM.Transition.Run

/-! # Blocking commands

The contacts that a user blocks are kept in a privacy list of their own. Entries are made of the
normalised form of a JID; they are found again by comparing the strings of a later command with what
an entry is printed as. -/

namespace MongooseIM.Privacy

open Erlang Transition List

/-! ## Lists of items -/

/-- What this module uses of the library of JIDs: `D` are JIDs as they are parsed, `J` normalised
ones. -/
structure JidLib (D J : Type*) where
  /-- `jid:from_binary/1`; `none` is `error`. -/
  fromBinary : String → Option D
  /-- `jid:to_lower/1` -/
  toLower : D → J
  /-- `jid:to_binary/1` of a normalised JID. -/
  toBinary : J → String
  /-- What a normalised JID is printed as is read as that JID. -/
  fromBinary_toBinary : ∀ s jid, fromBinary s = some jid →
    (fromBinary (toBinary (toLower jid))).map toLower = some (toLower jid)

/-- `privacy_item_type()` -/
inductive ItemType
  | none
  | jid
  | group
  | subscription
  deriving DecidableEq

/-- The action of an item. -/
inductive Action
  | allow
  | deny
  | block
  deriving DecidableEq

/-- `#listitem{}` of a JID. -/
structure ListItem (J : Type*) where
  type : ItemType
  value : J
  action : Action
  /-- `order`; `none` is `undefined`. -/
  order : Option ℕ
  matchAll : Bool
  matchIq : Bool
  matchMessage : Bool
  matchPresenceIn : Bool
  matchPresenceOut : Bool

variable {D J : Type*}

/-- The item of a contact that is blocked. -/
def blockItem (value : J) : ListItem J where
  type := .jid
  value := value
  action := .block
  order := none
  matchAll := true
  matchIq := false
  matchMessage := false
  matchPresenceIn := false
  matchPresenceOut := false

/-- `set_order/3` -/
def setOrderLoop : ℕ → List (ListItem J) → List (ListItem J) → List (ListItem J)
  | _, n, [] => n
  | idx, n, h :: t => setOrderLoop (idx + 1) ({ h with order := some idx } :: n) t

/-- `set_order/1` -/
def setOrder (l : List (ListItem J)) : List (ListItem J) := setOrderLoop 1 [] l

/-- `remove_from/4` -/
def removeFromLoop (lib : JidLib D J) (toRem : List String) :
    List String → List (ListItem J) → List (ListItem J) → List String × List (ListItem J)
  | removed, new, [] => (removed, new)
  | removed, new, h :: t =>
    let bin := lib.toBinary h.value
    if bin ∈ toRem then removeFromLoop lib toRem (bin :: removed) new t
    else removeFromLoop lib toRem removed (h :: new) t

variable (lib : JidLib D J)

/-- `remove_from/2` -/
def removeFrom (toRem : List String) (lst : List (ListItem J)) : List String × List (ListItem J) :=
  removeFromLoop lib toRem [] [] lst

/-- `make_blocking_list_entry/1` -/
def makeBlockingListEntry (j : String) : Option (ListItem J) :=
  (lib.fromBinary j).map fun jid => blockItem (lib.toLower jid)

/-- `make_blocking_list/2` -/
def makeBlockingListLoop (lib : JidLib D J) : List (ListItem J) → List String → List (ListItem J)
  | new, [] => new
  | new, h :: t =>
    match makeBlockingListEntry lib h with
    | none => makeBlockingListLoop lib new t
    | some entry => makeBlockingListLoop lib (entry :: new) t

/-- `make_blocking_list/1` -/
def makeBlockingList (l : List String) : List (ListItem J) :=
  makeBlockingListLoop lib [] l

/-- `block | unblock` -/
inductive CommandType
  | block
  | unblock
  deriving DecidableEq

/-- `block | unblock | unblock_all` -/
inductive NType
  | block
  | unblock
  | unblockAll

/-- `blocking_list_modify/3` -/
def blockingListModify (type : CommandType) (change : List String)
    (old : List (ListItem J)) : NType × List String × List (ListItem J) :=
  match type, change with
  | .block, change =>
    let n := makeBlockingList lib change
    let (_, o) := removeFrom lib change old
    -- all items are changed ones: they might have been on the old list with other settings
    (.block, change, setOrder (n ++ o))
  | .unblock, [] => (.unblockAll, old.map fun item => lib.toBinary item.value, [])
  | .unblock, change =>
    let (removed, o) := removeFrom lib change old
    (.unblock, removed, o)

/-! ## The privacy lists of a user -/

/-- `#privacy{}`, less the key. -/
structure PrivacyRecord (J : Type*) where
  /-- `default`; `none` is the atom. -/
  default : Option String
  lists : List (String × List (ListItem J))

/-- The errors of the backend and of the command. -/
inductive Error
  | notFound
  | badRequest
  | itemNotFound

variable (name : String) (privacy : Option (PrivacyRecord J))

/-- `get_privacy_list/4` -/
def getPrivacyList : Except Error (List (ListItem J)) :=
  match privacy.bind fun privacy => privacy.lists.lookup name with
  | some list => .ok list
  | none => .error .notFound

variable (list : List (ListItem J))

/-- `replace_privacy_list/5` -/
def replacePrivacyList (privacy : Option (PrivacyRecord J)) : PrivacyRecord J :=
  match privacy with
  | none => ⟨none, [(name, list)]⟩
  | some privacy => { privacy with lists := (name, list) :: keydelete name privacy.lists }

/-- `set_default_list_t/3` -/
def setDefaultList (privacy : PrivacyRecord J) : Except Error (PrivacyRecord J) :=
  if name ∈ privacy.lists.map Prod.fst then .ok { privacy with default := some name }
  else .error .notFound

/-- The current list of `process_iq_set/3`. -/
def currList : List (ListItem J) :=
  match getPrivacyList "blocking" privacy with
  | .ok list => list
  | .error _ => []

/-- `process_blocking_iq_set/6` on what `process_iq_set/3` has read. -/
def processBlockingIqSet (type : CommandType) (usrs : List String)
    (privacy : Option (PrivacyRecord J)) :
    Except Error (List String × List (ListItem J) × NType) × Option (PrivacyRecord J) :=
  -- reject a request to block an empty list
  if type = .block ∧ usrs = [] then (.error .badRequest, privacy)
  else
    let (nType, changed, newList) := blockingListModify lib type usrs (currList privacy)
    let replaced := replacePrivacyList "blocking" newList privacy
    match setDefaultList "blocking" replaced with
    | .ok privacy' => (.ok (changed, newList, nType), some privacy')
    | .error _ => (.error .itemNotFound, some replaced)

/-! ## What commands mean -/

/-- A command of the user. -/
structure Command where
  type : CommandType
  usrs : List String
  deriving DecidableEq

/-- A command leads to the next record. -/
def step (command : Command) : Option (Option (PrivacyRecord J)) :=
  some (processBlockingIqSet lib command.type command.usrs privacy).2

/-- The normalised JIDs of strings; a string that is no JID has none. -/
def normalised (usrs : List String) : List J :=
  usrs.filterMap fun usr => (lib.fromBinary usr).map lib.toLower

/-- A command is about a JID; a request to unblock the empty list is about all. -/
def Names (value : J) (command : Command) : Prop :=
  command = ⟨.unblock, []⟩ ∨ value ∈ normalised lib command.usrs

/-- An item that blocks its contact altogether. -/
def Blocks (item : ListItem J) : Prop :=
  item.type = .jid ∧ item.action = .block ∧ item.matchAll = true

/-- The JIDs of the items. -/
abbrev values : List J := list.map ListItem.value

section Meaning

variable [DecidableEq J]

instance (lib : JidLib D J) (value : J) (command : Command) : Decidable (Names lib value command) :=
  inferInstanceAs (Decidable (_ ∨ _))

/-- The last command about a JID. -/
def lastNaming (lib : JidLib D J) (value : J) (commands : List Command) : Option Command :=
  commands.reverse.find? fun command => Names lib value command

/-- The last command about a JID was a block. -/
def Blocked (lib : JidLib D J) (commands : List Command) (value : J) : Prop :=
  (lastNaming lib value commands).map Command.type = some .block

/-- **The list is what the commands mean.** -/
structure Obeys (lib : JidLib D J) (commands : List Command) (list : List (ListItem J)) : Prop where
  /-- The contacts in the list are those whose last command was a block. -/
  mem_iff : ∀ value, value ∈ values list ↔ Blocked lib commands value
  nodup : (values list).Nodup
  orders : (list.map ListItem.order).Nodup
  items : ∀ item ∈ list, Blocks item

end Meaning

/-- The contacts in the list that a command names are spelled there as they are printed. -/
def Spelled (usrs : List String) : Prop :=
  ∀ value ∈ values list, value ∈ normalised lib usrs → lib.toBinary value ∈ usrs

/-- What a command has to be like. -/
def Canonical (command : Command) : Prop :=
  Spelled lib (currList privacy) command.usrs ∧
    (command.type = .block → (normalised lib command.usrs).Nodup)

section Decide

variable [DecidableEq J] (lib : JidLib D J)

instance (list : List (ListItem J)) (usrs : List String) : Decidable (Spelled lib list usrs) :=
  inferInstanceAs (Decidable (∀ value ∈ values list, _ → _))

instance (privacy : Option (PrivacyRecord J)) (command : Command) :
    Decidable (Canonical lib privacy command) :=
  inferInstanceAs (Decidable (_ ∧ (_ → _)))

end Decide

/-! ## What the functions do -/

theorem setOrderLoop_eq (idx : ℕ) (n l : List (ListItem J)) :
    values (setOrderLoop idx n l) = (values l).reverse ++ values n ∧
    (setOrderLoop idx n l).map ListItem.order =
      ((range' idx l.length).map some).reverse ++ n.map ListItem.order := by
  induction l generalizing idx n with
  | nil => exact ⟨rfl, rfl⟩
  | cons h t ih =>
    obtain ⟨hvalues, horders⟩ := ih (idx + 1) ({ h with order := some idx } :: n)
    constructor
    · rw [setOrderLoop, hvalues]
      simp
    · rw [setOrderLoop, horders]
      simp [range'_succ]

variable (l : List (ListItem J))

theorem values_setOrder : values (setOrder l) = (values l).reverse := by
  rw [setOrder, (setOrderLoop_eq 1 [] l).1]
  simp

theorem nodup_orders_setOrder : ((setOrder l).map ListItem.order).Nodup := by
  rw [setOrder, (setOrderLoop_eq 1 [] l).2]
  simp only [map_nil, append_nil, nodup_reverse]
  exact List.Nodup.map (Option.some_injective ℕ) nodup_range'

theorem forall_mem_setOrder {P : ListItem J → Prop}
    (hP : ∀ item order, P item → P { item with order := order }) {l : List (ListItem J)}
    (h : ∀ item ∈ l, P item) : ∀ item ∈ setOrder l, P item := by
  have hloop (idx : ℕ) (n : List (ListItem J)) (hn : ∀ item ∈ n, P item) :
      ∀ item ∈ setOrderLoop idx n l, P item := by
    induction l generalizing idx n with
    | nil => exact hn
    | cons item t ih =>
      rw [forall_mem_cons] at h
      refine ih h.2 (idx + 1) _ ?_
      rw [forall_mem_cons]
      exact ⟨hP item _ h.1, hn⟩
  exact hloop 1 [] (by simp)

section

variable (lib : JidLib D J)

theorem removeFromLoop_snd (toRem removed : List String) (new lst : List (ListItem J)) :
    (removeFromLoop lib toRem removed new lst).2 =
    (lst.filter fun item => lib.toBinary item.value ∉ toRem).reverse ++ new := by
  induction lst generalizing removed new with
  | nil => rfl
  | cons h t ih =>
    rw [removeFromLoop]
    by_cases hmem : lib.toBinary h.value ∈ toRem
    · simp [hmem, ih]
    · simp [hmem, ih]

/-- The items that are printed as none of the strings stay, reversed. -/
theorem removeFrom_snd (toRem : List String) (lst : List (ListItem J)) :
    (removeFrom lib toRem lst).2 =
    (lst.filter fun item => lib.toBinary item.value ∉ toRem).reverse := by
  rw [removeFrom, removeFromLoop_snd, append_nil]

theorem makeBlockingListLoop_eq (new : List (ListItem J)) (l : List String) :
    makeBlockingListLoop lib new l = ((normalised lib l).map blockItem).reverse ++ new := by
  induction l generalizing new with
  | nil => rfl
  | cons h t ih =>
    rw [makeBlockingListLoop, makeBlockingListEntry, normalised]
    rcases hparse : lib.fromBinary h with _ | jid
    · simp only [Option.map_none, ih]
      simp [normalised, hparse]
    · simp only [Option.map_some, ih]
      simp [normalised, hparse]

/-- An item for each string that is a JID, reversed. -/
theorem makeBlockingList_eq (l : List String) :
    makeBlockingList lib l = ((normalised lib l).map blockItem).reverse := by
  rw [makeBlockingList, makeBlockingListLoop_eq, append_nil]

theorem currList_processBlockingIqSet (type : CommandType) (usrs : List String)
    (privacy : Option (PrivacyRecord J)) :
    currList (processBlockingIqSet lib type usrs privacy).2 =
    if type = .block ∧ usrs = [] then currList privacy
    else (blockingListModify lib type usrs (currList privacy)).2.2 := by
  rw [processBlockingIqSet]
  split_ifs with hempty
  · rfl
  · rcases blockingListModify lib type usrs (currList privacy) with ⟨nType, changed, newList⟩
    -- the list was just written, so it can be the default
    have hfirst (name : String) : (replacePrivacyList name newList privacy).lists.lookup name =
        some newList := by
      rcases privacy with _ | privacy <;> simp [replacePrivacyList]
    have hmem : "blocking" ∈ (replacePrivacyList "blocking" newList privacy).lists.map Prod.fst :=
      mem_map.2 ⟨_, mem_of_lookup (hfirst "blocking"), rfl⟩
    simp only [setDefaultList, hmem, if_true]
    rw [currList, getPrivacyList, Option.bind_some, hfirst]

/-- The contacts that are not printed as one of the strings. -/
theorem mem_values_filter (list : List (ListItem J)) (usrs : List String) (value : J) :
    value ∈ values (list.filter fun item => lib.toBinary item.value ∉ usrs) ↔
    value ∈ values list ∧ lib.toBinary value ∉ usrs := by
  constructor
  · intro hmem
    obtain ⟨item, hitem, rfl⟩ := mem_map.1 hmem
    obtain ⟨hitem, hnot⟩ := mem_filter.1 hitem
    exact ⟨mem_map.2 ⟨item, hitem, rfl⟩, of_decide_eq_true hnot⟩
  · rintro ⟨hmem, hnot⟩
    obtain ⟨item, hitem, rfl⟩ := mem_map.1 hmem
    exact mem_map.2 ⟨item, mem_filter.2 ⟨hitem, decide_eq_true hnot⟩, rfl⟩

theorem block_eq (usrs : List String) (old : List (ListItem J)) :
    (blockingListModify lib .block usrs old).2.2 =
    setOrder (((normalised lib usrs).map blockItem).reverse ++
      (old.filter fun item => lib.toBinary item.value ∉ usrs).reverse) := by
  rw [← makeBlockingList_eq, ← removeFrom_snd]
  rfl

/-- Blocking keeps the items that are printed as none of the strings and adds those named. -/
theorem values_block (usrs : List String) (old : List (ListItem J)) :
    values (blockingListModify lib .block usrs old).2.2 =
    values (old.filter fun item => lib.toBinary item.value ∉ usrs) ++ normalised lib usrs := by
  have hvalues : values ((normalised lib usrs).map blockItem) = normalised lib usrs := by
    rw [values, map_map]
    exact map_id _
  rw [block_eq, values_setOrder, ← reverse_append, values, map_reverse, reverse_reverse, map_append]
  exact congrArg (_ ++ ·) hvalues

/-- Unblocking keeps the items that are printed as none of the strings. -/
theorem unblock_eq {usrs : List String} (hne : usrs ≠ []) (old : List (ListItem J)) :
    (blockingListModify lib .unblock usrs old).2.2 =
    (old.filter fun item => lib.toBinary item.value ∉ usrs).reverse := by
  obtain ⟨usr, rest, rfl⟩ := exists_cons_of_ne_nil hne
  exact removeFrom_snd lib (usr :: rest) old

end

/-! ## One command -/

section Step

variable [DecidableEq J] {lib : JidLib D J} {commands : List Command} {list : List (ListItem J)}

omit [DecidableEq J] in
/-- What a blocked contact is printed as is read as that contact. -/
theorem mem_normalised_of_toBinary_mem {usrs usrs' : List String} {value : J}
    (hvalue : value ∈ normalised lib usrs') (hmem : lib.toBinary value ∈ usrs) :
    value ∈ normalised lib usrs := by
  obtain ⟨usr, _, hparse⟩ := mem_filterMap.1 hvalue
  obtain ⟨jid, hjid, rfl⟩ := Option.map_eq_some_iff.1 hparse
  exact mem_filterMap.2 ⟨_, hmem, lib.fromBinary_toBinary usr jid hjid⟩

theorem blocked_concat (command : Command) (value : J) : Blocked lib (commands ++ [command]) value ↔
    if Names lib value command then command.type = .block else Blocked lib commands value := by
  rw [Blocked, lastNaming, reverse_append, reverse_singleton, singleton_append, find?_cons]
  split_ifs with hnames
  · simp [hnames]
  · simp only [hnames, decide_false]
    rfl

theorem exists_normalised_of_blocked {value : J} (h : Blocked lib commands value) :
    ∃ usrs, value ∈ normalised lib usrs := by
  obtain ⟨command, hlast, htype⟩ := Option.map_eq_some_iff.1 h
  have hfound := find?_some hlast
  rcases of_decide_eq_true hfound with rfl | hmem
  · cases htype
  · exact ⟨command.usrs, hmem⟩

/-- **A block keeps the list as it should be** exactly when it spells the contacts in the list as
they are printed and names nobody twice. -/
theorem obeys_block_iff (h : Obeys lib commands list) {usrs : List String} :
    Obeys lib (commands ++ [⟨.block, usrs⟩]) (blockingListModify lib .block usrs list).2.2 ↔
    Spelled lib list usrs ∧ (normalised lib usrs).Nodup := by
  have hnames (value : J) : Names lib value ⟨.block, usrs⟩ ↔ value ∈ normalised lib usrs := by
    refine or_iff_right ?_
    intro heq
    cases heq
  have hkept (value : J) := mem_values_filter lib list usrs value
  have hvalues := values_block lib usrs list
  constructor
  · intro h'
    have hnodup := h'.nodup
    rw [hvalues, nodup_append] at hnodup
    obtain ⟨_, hnew, hdisjoint⟩ := hnodup
    refine ⟨?_, hnew⟩
    intro value hmem hnamed
    by_contra hspelled
    exact hdisjoint value ((hkept value).2 ⟨hmem, hspelled⟩) value hnamed rfl
  · rintro ⟨hspelled, hnew⟩
    constructor
    · intro value
      rw [hvalues, mem_append, hkept, blocked_concat]
      split_ifs with hnamed
      · exact iff_of_true (Or.inr ((hnames value).1 hnamed)) rfl
      · rw [← h.mem_iff]
        have hnot : value ∉ normalised lib usrs := fun hmem => hnamed ((hnames value).2 hmem)
        constructor
        · rintro (⟨hmem, _⟩ | hmem)
          · exact hmem
          · exact absurd hmem hnot
        · intro hmem
          refine Or.inl ⟨hmem, ?_⟩
          intro hprinted
          obtain ⟨usrs', hvalue⟩ := exists_normalised_of_blocked ((h.mem_iff value).1 hmem)
          exact hnot (mem_normalised_of_toBinary_mem hvalue hprinted)
    · rw [hvalues, nodup_append]
      refine ⟨(filter_sublist.map _).nodup h.nodup, hnew, ?_⟩
      rintro value hmem value' hnamed rfl
      obtain ⟨hmem, hnot⟩ := (hkept value).1 hmem
      exact hnot (hspelled value hmem hnamed)
    · exact nodup_orders_setOrder _
    · rw [block_eq]
      refine forall_mem_setOrder (fun item order hitem => hitem) ?_
      intro item hmem
      rw [mem_append, mem_reverse, mem_reverse] at hmem
      rcases hmem with hmem | hmem
      · obtain ⟨value, _, rfl⟩ := mem_map.1 hmem
        exact ⟨rfl, rfl, rfl⟩
      · exact h.items item (mem_filter.1 hmem).1

/-- **An unblock keeps the list as it should be** exactly when it spells the contacts in the list as
they are printed. -/
theorem obeys_unblock_iff (h : Obeys lib commands list) {usrs : List String} (hne : usrs ≠ []) :
    Obeys lib (commands ++ [⟨.unblock, usrs⟩]) (blockingListModify lib .unblock usrs list).2.2 ↔
    Spelled lib list usrs := by
  have hnames (value : J) : Names lib value ⟨.unblock, usrs⟩ ↔ value ∈ normalised lib usrs := by
    refine or_iff_right ?_
    intro heq
    exact hne (Command.mk.inj heq).2
  have hkept (value : J) : value ∈ values (blockingListModify lib .unblock usrs list).2.2 ↔
        value ∈ values list ∧ lib.toBinary value ∉ usrs := by
    rw [unblock_eq lib hne, values, map_reverse, mem_reverse]
    exact mem_values_filter lib list usrs value
  constructor
  · intro h' value hmem hnamed
    by_contra hspelled
    have hblocked := (h'.mem_iff value).1 ((hkept value).2 ⟨hmem, hspelled⟩)
    rw [blocked_concat, if_pos ((hnames value).2 hnamed)] at hblocked
    cases hblocked
  · intro hspelled
    have hfilter : (list.filter fun item => lib.toBinary item.value ∉ usrs).Sublist list :=
      filter_sublist
    constructor
    · intro value
      rw [hkept, blocked_concat]
      split_ifs with hnamed
      · refine iff_of_false ?_ (fun htype => by cases htype)
        rintro ⟨hmem, hnot⟩
        exact hnot (hspelled value hmem ((hnames value).1 hnamed))
      · rw [← h.mem_iff]
        refine and_iff_left_of_imp ?_
        intro hmem hprinted
        obtain ⟨usrs', hvalue⟩ := exists_normalised_of_blocked ((h.mem_iff value).1 hmem)
        exact hnamed ((hnames value).2 (mem_normalised_of_toBinary_mem hvalue hprinted))
    · rw [unblock_eq lib hne, values, map_reverse, nodup_reverse]
      exact (hfilter.map _).nodup h.nodup
    · rw [unblock_eq lib hne, map_reverse, nodup_reverse]
      exact (hfilter.map _).nodup h.orders
    · intro item hmem
      rw [unblock_eq lib hne, mem_reverse] at hmem
      exact h.items item (hfilter.subset hmem)

/-- A command that names nobody leaves what the others mean. -/
theorem obeys_block_nil_iff :
    Obeys lib (commands ++ [⟨.block, []⟩]) list ↔ Obeys lib commands list := by
  have hnames (value : J) : ¬ Names lib value ⟨.block, []⟩ := by
    rintro (heq | hmem)
    · cases heq
    · cases hmem
  have hsame (value : J) : Blocked lib (commands ++ [⟨.block, []⟩]) value ↔
      Blocked lib commands value := by
    rw [blocked_concat, if_neg (hnames value)]
  constructor
  · intro h
    exact { h with mem_iff := fun value => (h.mem_iff value).trans (hsame value) }
  · intro h
    exact { h with mem_iff := fun value => (h.mem_iff value).trans (hsame value).symm }

theorem obeys_unblock_nil :
    Obeys lib (commands ++ [⟨.unblock, []⟩]) (blockingListModify lib .unblock [] list).2.2 := by
  constructor
  · intro value
    have hnames : Names lib value ⟨.unblock, []⟩ := Or.inl rfl
    rw [blocked_concat, if_pos hnames]
    exact iff_of_false not_mem_nil (fun htype => by cases htype)
  · exact nodup_nil
  · exact nodup_nil
  · intro item hmem
    cases hmem

/-- **A command keeps the list as it should be exactly when it is canonical.** -/
theorem obeys_step_iff {privacy privacy' : Option (PrivacyRecord J)} {command : Command}
    (h : Obeys lib commands (currList privacy)) (hstep : step lib privacy command = some privacy') :
    Obeys lib (commands ++ [command]) (currList privacy') ↔ Canonical lib privacy command := by
  obtain rfl : (processBlockingIqSet lib command.type command.usrs privacy).2 = privacy' :=
    Option.some.inj hstep
  rw [currList_processBlockingIqSet, Canonical]
  obtain ⟨type, usrs⟩ := command
  have hspelledNil : Spelled lib (currList privacy) [] := by
    intro value _ hmem
    cases hmem
  rcases type with _ | _
  · by_cases hempty : usrs = []
    · subst hempty
      rw [if_pos ⟨rfl, rfl⟩, obeys_block_nil_iff]
      exact iff_of_true h ⟨hspelledNil, fun _ => nodup_nil⟩
    · rw [if_neg (fun hboth => hempty hboth.2), obeys_block_iff h]
      simp
  · rw [if_neg (fun hboth => by cases hboth.1)]
    by_cases hempty : usrs = []
    · subst hempty
      refine iff_of_true obeys_unblock_nil ⟨hspelledNil, ?_⟩
      intro htype
      cases htype
    · rw [obeys_unblock_iff h hempty]
      simp

/-- **The list is what the commands mean in every state of a run** exactly when every command is
canonical. -/
theorem blocking_obeys_iff (lib : JidLib D J) {privacy : Option (PrivacyRecord J)}
    (hempty : currList privacy = []) (commands : List Command) :
    (∀ done privacy', done <+: commands → run (step lib) privacy done = some privacy' →
      Obeys lib done (currList privacy')) ↔
    Guarded (step lib) (Canonical lib) privacy commands := by
  refine (guarded_iff_holds_along (P := fun done privacy => Obeys lib done (currList privacy))
    ?_ ?_ ?_ commands).symm
  · intro privacy command
    exact ⟨_, rfl⟩
  · intro done privacy command privacy' h hstep
    exact obeys_step_iff h hstep
  · rw [hempty]
    constructor
    · intro value
      refine iff_of_false not_mem_nil ?_
      intro hblocked
      cases hblocked
    · exact nodup_nil
    · exact nodup_nil
    · intro item hmem
      cases hmem

end Step

/-! ## Spelling -/

theorem toLower_toLower (c : Char) : c.toLower.toLower = c.toLower := by
  by_cases h : c.val ≥ 'A'.val ∧ c.val ≤ 'Z'.val
  · have hlower : ¬ (c.toLower.val ≥ 'A'.val ∧ c.toLower.val ≤ 'Z'.val) := by
      delta Char.toLower
      rw [dif_pos h]
      grind [UInt32.toNat_add]
    exact dif_neg hlower
  · have hsame : c.toLower = c := dif_neg h
    rw [hsame, hsame]

/-- Bare JIDs of ASCII letters, `@` and dots: the case is all there is to normalise. -/
def asciiLib : JidLib (List Char) (List Char) where
  fromBinary s := some s.toList
  toLower := List.map Char.toLower
  toBinary := String.ofList
  fromBinary_toBinary s jid _ := by
    have hcomp : Char.toLower ∘ Char.toLower = Char.toLower := funext toLower_toLower
    simp [hcomp]

/-- Three commands, two of them with capital letters. -/
def mixedCase : List Command :=
  [⟨.block, ["Bob@Host"]⟩, ⟨.block, ["carol@host"]⟩, ⟨.unblock, ["bob@host", "Dave@Host"]⟩]

/-- A contact may be blocked in any case; it is unblocked as it is printed. -/
theorem blocking_obeys_iff_mixedCase :
    ∃ privacy', run (step asciiLib) none mixedCase = some privacy' ∧
    values (currList privacy') = ["carol@host".toList] ∧
    Obeys asciiLib mixedCase (currList privacy') := by
  have hguarded : Guarded (step asciiLib) (Canonical asciiLib) none mixedCase := by decide
  refine ⟨_, rfl, by decide, ?_⟩
  exact (blocking_obeys_iff asciiLib rfl mixedCase).2 hguarded mixedCase _ prefix_rfl rfl

/-- A contact that was blocked stays in the list when it is unblocked in the same letters. -/
theorem blocking_keeps_unblocked :
    ∃ privacy', run (step asciiLib) none [⟨.block, ["Bob@Host"]⟩, ⟨.unblock, ["Bob@Host"]⟩] =
      some privacy' ∧
    values (currList privacy') = ["bob@host".toList] ∧
    ¬ Obeys asciiLib [⟨.block, ["Bob@Host"]⟩, ⟨.unblock, ["Bob@Host"]⟩] (currList privacy') := by
  refine ⟨_, rfl, by decide, ?_⟩
  intro h
  have hblocked := (h.mem_iff "bob@host".toList).1 (by decide)
  revert hblocked
  rw [Blocked]
  decide

end MongooseIM.Privacy
