import MongooseIM.Roster.BackendAgreement

/-! # The interface of rosters

`mod_roster_api` for users of one domain, who are given by their names, over either backend. -/

namespace MongooseIM.Roster

open Erlang Relational

variable {T : Type*} (b : Backend (String × String) T)

/-- `mod_roster:get_roster_entry/4` in short form; `none` is a crash. -/
def getRosterEntry (owner contact : String) (rosters : T) : Option (Option Item) :=
  b.getRosterEntryT .short (owner, contact) rosters

/-- `mod_roster:set_roster_entry/5`, `none` for an error -/
def setRosterEntry (user contact name : String) (groups : List String) (rosters : T) : Option T :=
  (getRosterEntry b user contact rosters).bind fun entry =>
    b.updateRosterT (user, contact) { entry.getD {} with name := name, groups := groups } rosters

/-- `mod_roster:in_subscription/3`: an automatic reply goes back to the sender. -/
def inSubscription (receiver sender : String) (type : SubPresence) (rosters : T) : T :=
  let key := (receiver, sender)
  match b.processSubscription key .in type "" rosters with
  | none => rosters
  | some rosters' =>
    let autoReply := (b.getRosterEntryT .full key rosters).bind fun entry =>
      (processSubscriptionT .in entry type "").bind Processed.autoReply
    match autoReply with
    | none => rosters'
    | some reply => (b.processSubscription (sender, receiver) .in reply "" rosters').getD rosters'

/-- `mod_roster:out_subscription/3` -/
def outSubscription (sender receiver : String) (type : SubPresence) (rosters : T) : T :=
  (b.processSubscription (sender, receiver) .out type "" rosters).getD rosters

section Api

variable (users : List String)

/-- `mod_roster_api:add_contact/4`, `none` for an error -/
def addContact (caller contact name : String) (groups : List String) (rosters : T) : Option T :=
  if caller ∈ users ∧ contact ∈ users then setRosterEntry b caller contact name groups rosters
  else none

/-- `mod_roster_api:subscription/4`: the session manager passes the presence to a user that
exists. -/
def subscription (caller contact : String) (type : SubPresence) (rosters : T) : T :=
  let rosters := outSubscription b caller contact type rosters
  if contact ∈ users then inSubscription b contact caller type rosters else rosters

/-- `mod_roster_api:subscribe_both/3`; what was done before an error stays. -/
def subscribeBoth (userA userB : String × String × List String) (rosters : T) : T :=
  let (userA, nameA, groupsA) := userA
  let (userB, nameB, groupsB) := userB
  match addContact b users userA userB nameB groupsB rosters with
  | none => rosters
  | some rosters =>
    match addContact b users userB userA nameA groupsA rosters with
    | none => rosters
    | some rosters =>
      let rosters := subscription b users userA userB .subscribe rosters
      let rosters := subscription b users userB userA .subscribe rosters
      let rosters := subscription b users userA userB .subscribed rosters
      subscription b users userB userA .subscribed rosters

end Api

/-! ## Reliable backends -/

/-- The name and the subscription state of an item. -/
@[ext]
structure Contact where
  name : String := ""
  subscription : Subscription := .none
  ask : Ask := .none

/-- An item as a contact. -/
def Item.contact (item : Item) : Contact := ⟨item.name, item.subscription, item.ask⟩

/-- A contact as an item. -/
def Contact.item (contact : Contact) : Item :=
  { name := contact.name, subscription := contact.subscription, ask := contact.ask }

section Reliable

variable {K S : Type*} [DecidableEq K]

/-- The contact that is stored under a key. -/
def Backend.contact (b : Backend K S) (tables : S) (key : K) : Option Contact :=
  (b.storedItem key tables).map Item.contact

/-- **Under some keys a backend reads what it stored** and stores what it is given, under the key
that it is given. -/
structure Backend.Reliable (b : Backend K S) (ok : K → Prop) : Prop where
  read : ∀ format {key} tables, ok key → ∃ entry, b.getRosterEntryT format key tables = some entry ∧
    entry.map Item.contact = b.contact tables key
  update : ∀ {key} item tables, ok key → (namedGroups item.groups).Nodup →
    ∃ tables', b.updateRosterT key item tables = some tables' ∧
      b.contact tables' = Function.update (b.contact tables) key (some item.contact)
  subscribe : ∀ {key} item tables, ok key → ∃ tables',
    b.rosterSubscribeT key item tables = some tables' ∧
      b.contact tables' = Function.update (b.contact tables) key (some item.contact)
  delete : ∀ key tables, ∃ tables', b.delRosterT key tables = some tables' ∧
    b.contact tables' = Function.update (b.contact tables) key none

theorem mnesia_contact (table : MnesiaTable K) (key : K) :
    mnesia.contact table key = (table.lookup key).map Item.contact := by
  rw [Backend.contact, mnesia_storedItem]

/-- **Mnesia** is reliable under all keys. -/
theorem mnesia_reliable : (mnesia : Backend K (MnesiaTable K)).Reliable fun _ => True := by
  have hinsert (key : K) (item : Item) (table : MnesiaTable K) :
      mnesia.contact (table.insert key item) =
        Function.update (mnesia.contact table) key (some item.contact) := by
    funext k
    rw [mnesia_contact, lookup_insert, Function.update_apply]
    split_ifs
    · rfl
    · rw [mnesia_contact]
  refine ⟨fun format key table _ => ⟨_, rfl, ?_⟩, fun item table _ _ => ⟨_, rfl, hinsert _ _ _⟩,
    fun item table _ => ⟨_, rfl, hinsert _ _ _⟩, fun key table => ⟨_, rfl, ?_⟩⟩
  · rw [mnesia_contact]
    cases table.lookup key <;> rfl
  · funext k
    rw [mnesia_contact, Function.update_apply]
    split_ifs with hk
    · rw [hk, AList.lookup_erase, Option.map_none]
    · rw [AList.lookup_erase_ne hk, mnesia_contact]

/-- The relational backend can read a key and its columns can hold the owner. -/
def Database.Readable (db : Database K) (key : K) : Prop :=
  (db.phones key).length ≤ 1 ∧ FitsColumns (db.owner key)

variable {db : Database K}

theorem rdbms_contact (tables : RdbmsTables K) (key : K) : (rdbms db).contact tables key =
    (tables.rosterusers.lookup key).map fun row => ⟨row.nick, row.subscription, row.ask⟩ := by
  rw [Backend.contact, Backend.storedItem, rdbms_getRoster_eq]
  cases tables.rosterusers.lookup key with
  | none => rfl
  | some row =>
    cases hjoined : joined (db.phones key) with
    | nil => exact absurd hjoined (joined_ne_nil _)
    | cons phone phones => rfl

/-- **The relational backend** is reliable where the contact has one number at most. -/
theorem rdbms_reliable (db : Database K) : (rdbms db).Reliable db.Readable := by
  have hinsert (key : K) (item : Item) {tables tables' : RdbmsTables K}
      (husers : tables'.rosterusers = tables.rosterusers.insert key (RdbmsTables.recordToRow item)) :
      (rdbms db).contact tables' =
        Function.update ((rdbms db).contact tables) key (some item.contact) := by
    funext k
    rw [rdbms_contact, husers, lookup_insert, Function.update_apply]
    split_ifs
    · rfl
    · rw [rdbms_contact]
  refine ⟨fun format key tables hok => ?_, fun {key} item tables hok hgroups => ?_,
    fun {key} item tables hok => ?_, fun key tables => ⟨_, rfl, ?_⟩⟩
  · obtain ⟨phone, hphone⟩ := joined_eq_singleton.2 hok.1
    rw [rdbms_getRosterEntryT_eq, rdbms_contact, hphone]
    cases tables.rosterusers.lookup key <;> exact ⟨_, rfl, rfl⟩
  · have hsome : ((rdbms db).updateRosterT key item tables).isSome :=
      rdbms_updateRosterT_isSome.2 ⟨hok.2, hgroups⟩
    obtain ⟨tables', htables'⟩ := Option.isSome_iff_exists.1 hsome
    exact ⟨tables', htables', hinsert key item (rdbms_updateRosterT_spec htables').1⟩
  · have hupsert : tables.rosterUpsert db key item = some { tables with
        rosterusers := tables.rosterusers.insert key (RdbmsTables.recordToRow item) } := by
      rw [RdbmsTables.rosterUpsert, if_pos hok.2]
    exact ⟨_, hupsert, hinsert key item rfl⟩
  · funext k
    rw [rdbms_contact, Function.update_apply]
    show ((tables.rosterusers.erase key).lookup k).map _ = _
    split_ifs with hk
    · rw [hk, AList.lookup_erase, Option.map_none]
    · rw [AList.lookup_erase_ne hk, rdbms_contact]

/-- What a subscription presence makes of a contact. -/
def presented (direction : Direction) (type : SubPresence) (contact : Option Contact) :
    Option Contact :=
  let entry := contact.map Contact.item
  (((processSubscriptionT direction entry type "").map fun p => p.write.apply entry).getD
    entry).map Item.contact

variable {b : Backend K S} {ok : K → Prop} {key : K}

/-- A subscription state that is stored goes with the name that was read. -/
theorem name_of_subscribe {direction : Direction} {entry : Option Item} {type : SubPresence}
    {p : Processed} {item : Item}
    (h : processSubscriptionT direction entry type "" = some p) (hwrite : p.write = .subscribe item) :
    item.name = (entry.getD {}).name := by
  have hself := processSubscriptionT_congr entry entry rfl rfl direction type ""
  rw [h] at hself
  simp only [Option.map_some, hwrite, Write.onto, Option.some.injEq, Write.subscribe.injEq] at hself
  have hname := congrArg Item.name hself
  exact hname

/-- The automatic reply depends on the subscription state alone. -/
theorem autoReply_congr {entry entry' : Option Item}
    (hs : (entry'.getD {}).subscription = (entry.getD {}).subscription)
    (ha : (entry'.getD {}).ask = (entry.getD {}).ask) (direction : Direction) (type : SubPresence) :
    (processSubscriptionT direction entry' type "").bind Processed.autoReply =
    (processSubscriptionT direction entry type "").bind Processed.autoReply := by
  simp only [processSubscriptionT, hs, ha]
  split
  · rfl
  · rfl
  · split_ifs <;> rfl

/-- **A presence changes the contact under its key**, as the tables say. -/
theorem Backend.Reliable.presence (hb : b.Reliable ok) (hkey : ok key) (direction : Direction)
    (type : SubPresence) (tables : S) :
    b.contact ((b.processSubscription key direction type "" tables).getD tables) =
    Function.update (b.contact tables) key (presented direction type (b.contact tables key)) := by
  obtain ⟨entry, hentry, hcontact⟩ := hb.read .full tables hkey
  have hcongr := processSubscriptionT_congr ((entry.map Item.contact).map Contact.item) entry
    (by cases entry <;> rfl) (by cases entry <;> rfl) direction type ""
  have hname : (entry.getD {}).name = (((entry.map Item.contact).map Contact.item).getD {}).name := by
    cases entry <;> rfl
  have hback : ((b.contact tables key).map Contact.item).map Item.contact =
      b.contact tables key := by
    cases b.contact tables key <;> rfl
  rw [processSubscription_eq, hentry, Option.bind_some, hcongr, hcontact, presented]
  cases hprocess : processSubscriptionT direction ((b.contact tables key).map Contact.item) type
      "" with
  | none =>
    simp only [Option.map_none, Option.getD_none, hback]
    exact (Function.update_eq_self key _).symm
  | some p =>
    simp only [Option.map_some, Option.getD_some]
    cases hwrite : p.write with
    | keep =>
      simp only [Write.onto, Write.apply, Option.getD_some, hback]
      exact (Function.update_eq_self key _).symm
    | delete =>
      obtain ⟨tables', hdel, hafter⟩ := hb.delete key tables
      simp only [Write.onto, Write.apply, hdel, Option.getD_some, hafter, Option.map_none]
    | subscribe item =>
      obtain ⟨tables', hsub, hafter⟩ := hb.subscribe { entry.getD {} with
        subscription := item.subscription, ask := item.ask, askmessage := item.askmessage }
        tables hkey
      simp only [Write.onto, Write.apply, hsub, Option.getD_some, hafter, Option.map_some]
      rw [Item.contact, hname, hcontact, ← name_of_subscribe hprocess hwrite]
      rfl

/-- A presence leaves the other contacts. -/
theorem Backend.Reliable.presence_ne (hb : b.Reliable ok) (hkey : ok key) {key' : K}
    (hne : key' ≠ key) (direction : Direction) (type : SubPresence) (tables : S) :
    b.contact ((b.processSubscription key direction type "" tables).getD tables) key' =
    b.contact tables key' := by
  rw [hb.presence hkey, Function.update_of_ne hne]

end Reliable

/-! ## Two users -/

/-- The contacts that two users are for each other. -/
structure Items (b : Backend (String × String) T) (rosters : T) (u v : String)
    (own other : Option Contact) : Prop where
  own : b.contact rosters (u, v) = own
  other : b.contact rosters (v, u) = other

/-- The first user has the second as a contact with a name, and asked for a subscription. -/
def Asked (b : Backend (String × String) T) (rosters : T) (u v name : String) : Prop :=
  Items b rosters u v (some { name := name, ask := .out }) (some { ask := .in })

/-- Each has the other as a contact with a name and the subscription `both`. -/
def Mutual (b : Backend (String × String) T) (rosters : T) (u v nameOfV nameOfU : String) : Prop :=
  Items b rosters u v (some { name := nameOfV, subscription := .both })
    (some { name := nameOfU, subscription := .both })

variable {b} {ok : String × String → Prop} {rosters : T} {users : List String} {u v : String}
  {own other : Option Contact} {key : String × String}

theorem Items.symm (h : Items b rosters u v own other) : Items b rosters v u other own :=
  ⟨h.other, h.own⟩

section Pair

variable (hb : b.Reliable ok) (huv : ok (u, v)) (hvu : ok (v, u))

include hb huv hvu

/-- A presence concerns the items of the two users only. -/
theorem contact_inSubscription_ne (hne : key ≠ (u, v)) (hne' : key ≠ (v, u)) (type : SubPresence)
    (rosters : T) : b.contact (inSubscription b u v type rosters) key = b.contact rosters key := by
  have hin := hb.presence_ne huv hne .in type rosters
  simp only [inSubscription]
  cases hprocess : b.processSubscription (u, v) .in type "" rosters with
  | none => rfl
  | some rosters' =>
    rw [hprocess, Option.getD_some] at hin
    simp only
    split
    · exact hin
    · rw [hb.presence_ne hvu hne', hin]

theorem contact_subscription_ne (hne : key ≠ (u, v)) (hne' : key ≠ (v, u)) (type : SubPresence) :
    b.contact (subscription b users u v type rosters) key = b.contact rosters key := by
  have hout : b.contact (outSubscription b u v type rosters) key = b.contact rosters key :=
    hb.presence_ne huv hne .out type rosters
  rw [subscription]
  split
  · rw [contact_inSubscription_ne hb hvu huv hne' hne, hout]
  · exact hout

omit hvu in
/-- A presence that is received, to which there is no reply. -/
theorem contact_inSubscription {contact : Option Contact} (h : b.contact rosters (u, v) = contact)
    (type : SubPresence) (hreply : (processSubscriptionT .in (contact.map Contact.item) type
    "").bind Processed.autoReply = none) :
    b.contact (inSubscription b u v type rosters) =
    Function.update (b.contact rosters) (u, v) (presented .in type contact) := by
  obtain ⟨entry, hentry, hcontact⟩ := hb.read .full rosters huv
  have hnone : ((b.getRosterEntryT .full (u, v) rosters).bind fun entry =>
      (processSubscriptionT .in entry type "").bind Processed.autoReply) = none := by
    rw [hentry, Option.bind_some, ← hreply, ← h, ← hcontact]
    exact autoReply_congr (by cases entry <;> rfl) (by cases entry <;> rfl) .in type
  have hafter := hb.presence huv .in type rosters
  rw [h] at hafter
  rw [← hafter, inSubscription]
  cases b.processSubscription (u, v) .in type "" rosters with
  | none => rfl
  | some rosters' => simp only [hnone, Option.getD_some]

/-- **A presence passes both tables.** -/
theorem Items.subscription (h : Items b rosters u v own other) (hne : u ≠ v) (hv : v ∈ users)
    (type : SubPresence) (hreply : (processSubscriptionT .in (other.map Contact.item) type
    "").bind Processed.autoReply = none) :
    Items b (subscription b users u v type rosters) u v (presented .out type own)
    (presented .in type other) := by
  have hkeys : (v, u) ≠ (u, v) := by
    simp [hne]
  have hout : Items b (outSubscription b u v type rosters) u v (presented .out type own) other := by
    constructor
    · rw [outSubscription, hb.presence huv, Function.update_self, h.own]
    · rw [outSubscription, hb.presence_ne huv hkeys, h.other]
  have hin := contact_inSubscription hb hvu hout.other type hreply
  rw [Roster.subscription, if_pos hv]
  constructor
  · rw [hin, Function.update_of_ne hkeys.symm, hout.own]
  · rw [hin, Function.update_self]

variable {groups : List String} (hgroups : (namedGroups groups).Nodup)

include hgroups

omit hvu in
/-- A contact is added, or gets the name. -/
theorem Items.addContact (h : Items b rosters u v own other) (hne : u ≠ v) (hu : u ∈ users)
    (hv : v ∈ users) (name : String) :
    ∃ rosters', addContact b users u v name groups rosters = some rosters' ∧
    Items b rosters' u v (some { own.getD {} with name := name }) other ∧
    ∀ key, key ≠ (u, v) → b.contact rosters' key = b.contact rosters key := by
  obtain ⟨entry, hentry, hcontact⟩ := hb.read .short rosters huv
  obtain ⟨rosters', hupdate, hafter⟩ := hb.update
    { entry.getD {} with name := name, groups := groups } rosters huv hgroups
  have hkeys : (v, u) ≠ (u, v) := by
    simp [hne]
  refine ⟨rosters', ?_, ⟨?_, ?_⟩, fun key hkey => ?_⟩
  · rw [Roster.addContact, if_pos ⟨hu, hv⟩, setRosterEntry, getRosterEntry, hentry,
      Option.bind_some, hupdate]
  · rw [hafter, Function.update_self, ← h.own, ← hcontact]
    cases entry <;> rfl
  · rw [hafter, Function.update_of_ne hkeys, h.other]
  · rw [hafter, Function.update_of_ne hkey]

omit hgroups in
/-- The four presences of `subscribeBoth`. -/
theorem Items.presences (h : Items b rosters u v own other) (hne : u ≠ v) (hu : u ∈ users)
    (hv : v ∈ users) {nameOfV nameOfU : String}
    (hpending : own = some { name := nameOfV, ask := .out } ∧
      other = some { name := nameOfU, ask := .in } ∨
    own = some { name := nameOfV, ask := .in } ∧
      other = some { name := nameOfU, ask := .out }) :
    Mutual b (Roster.subscription b users v u .subscribed (Roster.subscription b users u v
    .subscribed (Roster.subscription b users v u .subscribe (Roster.subscription b users u v
      .subscribe rosters)))) u v nameOfV nameOfU := by
  rcases hpending with ⟨rfl, rfl⟩ | ⟨rfl, rfl⟩
  · have h₁ := h.subscription hb huv hvu hne hv .subscribe rfl
    have h₂ := h₁.symm.subscription hb hvu huv hne.symm hu .subscribe rfl
    have h₃ := h₂.symm.subscription hb huv hvu hne hv .subscribed rfl
    exact (h₃.symm.subscription hb hvu huv hne.symm hu .subscribed rfl).symm
  · have h₁ := h.subscription hb huv hvu hne hv .subscribe rfl
    have h₂ := h₁.symm.subscription hb hvu huv hne.symm hu .subscribe rfl
    have h₃ := h₂.symm.subscription hb huv hvu hne hv .subscribed rfl
    exact (h₃.symm.subscription hb hvu huv hne.symm hu .subscribed rfl).symm

variable {name : String}

/-- **After a request the subscription becomes mutual**: each user has the other under the name that
was given for himself. -/
theorem mutual_subscribeBoth {nameU nameV : String} (hne : u ≠ v) (hu : u ∈ users) (hv : v ∈ users)
    (h : Asked b rosters u v name ∨ Asked b rosters v u name) :
    Mutual b (subscribeBoth b users (u, nameU, groups) (v, nameV, groups) rosters) u v nameV
    nameU := by
  rcases h with h | h
  · obtain ⟨rosters₁, hadd₁, h₁, _⟩ := Items.addContact hb huv hgroups h hne hu hv nameV
    obtain ⟨rosters₂, hadd₂, h₂, _⟩ := h₁.symm.addContact hb hvu hgroups hne.symm hv hu nameU
    simp only [subscribeBoth, hadd₁, hadd₂]
    exact h₂.symm.presences hb huv hvu hne hu hv (Or.inl ⟨rfl, rfl⟩)
  · obtain ⟨rosters₁, hadd₁, h₁, _⟩ := (Items.symm h).addContact hb huv hgroups hne hu hv nameV
    obtain ⟨rosters₂, hadd₂, h₂, _⟩ := h₁.symm.addContact hb hvu hgroups hne.symm hv hu nameU
    simp only [subscribeBoth, hadd₁, hadd₂]
    exact h₂.symm.presences hb huv hvu hne hu hv (Or.inr ⟨rfl, rfl⟩)

omit hgroups in
/-- **A request** to a user who does not know the first one. -/
theorem asked_subscription (hne : u ≠ v) (hv : v ∈ users)
    (h : Items b rosters u v (some { name := name }) none) :
    Asked b (subscription b users u v .subscribe rosters) u v name :=
  h.subscription hb huv hvu hne hv .subscribe rfl

/-- A mutual subscription concerns the items of the two users only. -/
theorem contact_subscribeBoth_ne (hkey : key ≠ (u, v)) (hkey' : key ≠ (v, u)) (hne : u ≠ v)
    (hu : u ∈ users) (hv : v ∈ users) (nameU nameV : String) :
    b.contact (subscribeBoth b users (u, nameU, groups) (v, nameV, groups) rosters) key =
    b.contact rosters key := by
  have h : Items b rosters u v (b.contact rosters (u, v)) (b.contact rosters (v, u)) := ⟨rfl, rfl⟩
  obtain ⟨rosters₁, hadd₁, h₁, hkeep₁⟩ := h.addContact hb huv hgroups hne hu hv nameV
  obtain ⟨rosters₂, hadd₂, h₂, hkeep₂⟩ := h₁.symm.addContact hb hvu hgroups hne.symm hv hu nameU
  simp only [subscribeBoth, hadd₁, hadd₂]
  rw [contact_subscription_ne hb hvu huv hkey' hkey, contact_subscription_ne hb huv hvu hkey hkey',
    contact_subscription_ne hb hvu huv hkey' hkey, contact_subscription_ne hb huv hvu hkey hkey',
    hkeep₂ key hkey', hkeep₁ key hkey]

end Pair

end MongooseIM.Roster
