import MongooseIM.Channels.Requests
import MongooseIM.Transition.Attempt

/-! # What a request can do

Every request makes a `Change` to the tables, for which it has to pass something, keeps them
`Sound`, and shows a private channel to those only who may see it. -/

namespace MongooseIM.Channels

open Erlang Xmpp Transition List

variable {site : Site} {hosted : String → Prop} {db db' : Db} {e : Event} {user jid : Jid}
  {chId : ℤ} {ch : Channel} {role : Role} {now : ℕ}

/-! ## Tables that fit together -/

/-- The tables as requests leave them. -/
structure Sound (db : Db) : Prop where
  numbered : ∀ ch ∈ db.channels, ch.id < db.nextChannel
  unique : (db.channels.map Channel.id).Nodup
  admins : ∀ row ∈ db.admins, ∃ ch ∈ db.channels, ch.id = row.channelId
  subscribers : ∀ row ∈ db.subscribers, ∃ ch ∈ db.channels, ch.id = row.channelId
  messages : ∀ m ∈ db.messages, ∃ ch ∈ db.channels, ch.id = m.channelId
  adminFits : ∀ row ∈ db.admins, fits 500 row.adminJid
  adminBare : ∀ row ∈ db.admins, row.adminJid.toBare = row.adminJid
  ownerRow : ∀ ch ∈ db.channels,
    ∃ row ∈ db.admins, row.channelId = ch.id ∧ row.adminJid = ch.owner ∧ row.role = .owner
  ownerLocal : ∀ ch ∈ db.channels, ch.owner.lserver = ch.server
  messageNumbered : ∀ m ∈ db.messages, m.id < db.nextMessage
  messageUnique : db.messages.Pairwise fun m m' => m.id < m'.id
  messagePositive : 0 < db.nextMessage ∧ ∀ m ∈ db.messages, 0 < m.id
  subscriberUnique : (db.subscribers.map fun row => (row.channelId, row.subscriberJid)).Nodup

/-- The database that has nothing is sound. -/
theorem sound_empty : Sound {} where
  numbered := nofun
  unique := nodup_nil
  admins := nofun
  subscribers := nofun
  messages := nofun
  adminFits := nofun
  adminBare := nofun
  ownerRow := nofun
  ownerLocal := nofun
  messageNumbered := nofun
  messageUnique := .nil
  messagePositive := ⟨Int.one_pos, nofun⟩
  subscriberUnique := nodup_nil

/-- A channel of a sound database is found under its id. -/
theorem Sound.getChannel (hdb : Sound db) (hch : ch ∈ db.channels) :
    db.getChannel ch.id = some ch := by
  obtain ⟨ch', hch'⟩ := Db.exists_getChannel ⟨ch, hch, rfl⟩
  obtain ⟨hmem, hid⟩ := Db.mem_of_getChannel hch'
  rw [hch', inj_on_of_nodup_map hdb.unique hmem hch hid]

/-- The owner of a channel is one of its admins. -/
theorem Sound.isAdmin_owner (hdb : Sound db) (hch : ch ∈ db.channels) :
    db.isAdmin ch.id ch.owner = true := by
  obtain ⟨row, hrow, hid, hjid, -⟩ := hdb.ownerRow ch hch
  exact Db.isAdmin_iff.2 ⟨row, hrow, hid, hjid⟩

/-! ## Who passes the checks -/

/-- The owner of a channel is who has made it, on its server. -/
theorem ensureOwner_eq_ok : ensureOwner user chId db = .ok () ↔
    ∃ ch, db.getChannel chId = some ch ∧ ch.server = user.lserver ∧ ch.owner = user.toBare := by
  rw [ensureOwner]
  cases db.getChannel chId with
  | none => simp
  | some ch => simp

/-- An admin of a channel is its owner, or has an admin row. -/
theorem ensureAdmin_eq_ok : (∃ role, ensureAdmin user chId db = .ok role) ↔
    ∃ ch, db.getChannel chId = some ch ∧ ch.server = user.lserver ∧
      (ch.owner = user.toBare ∨ db.isAdmin chId user.toBare = true) := by
  rw [ensureAdmin]
  cases db.getChannel chId with
  | none => simp
  | some ch =>
    by_cases hserver : ch.server = user.lserver <;> by_cases howner : ch.owner = user.toBare <;>
      by_cases hadmin : db.isAdmin chId user.toBare <;> simp [hserver, howner, hadmin]

/-- Who may see a private channel: its owner, its admins and its subscribers. -/
def MayRead (user : Jid) (chId : ℤ) (db : Db) : Prop :=
  ∀ ch, db.getChannel chId = some ch → ch.channelType = .privateChannel →
    ch.owner = user.toBare ∨ db.isAdmin chId user.toBare = true ∨
      db.isSubscriber chId user.toBare = true

/-- Who gets a channel as a member may read it. -/
theorem loadChannelForMember_eq_ok (h : loadChannelForMember user chId db = .ok ch) :
    db.getChannel chId = some ch ∧ MayRead user chId db := by
  rw [loadChannelForMember] at h
  rw [MayRead]
  cases hch : db.getChannel chId with
  | none => simp [hch] at h
  | some ch' =>
    simp only [hch] at h
    by_cases howner : ch'.owner = user.toBare
    · by_cases hserver : ch'.server = user.lserver <;> simp_all
    · by_cases hserver : ch'.server = user.lserver <;>
        by_cases hadmin : db.isAdmin chId user.toBare <;>
        by_cases hsubscriber : db.isSubscriber chId user.toBare <;>
        cases htype : ch'.channelType <;> simp_all

/-- Admins may read their channels. -/
theorem mayRead_of_ensureAdmin (h : ensureAdmin user chId db = .ok role) :
    MayRead user chId db := by
  obtain ⟨ch, hch, -, hadmin⟩ := ensureAdmin_eq_ok.1 ⟨role, h⟩
  intro ch' hch' _
  rw [hch, Option.some_inj] at hch'
  subst hch'
  exact hadmin.imp_right Or.inl

/-! ## Changes -/

/-- The channel and the address of a request to promote someone. -/
def promotion (site : Site) (e : Event) : Option (ℤ × Jid) :=
  match e.request with
  | .iq (some .set) subEl =>
    if subEl.name = "promote" then
      match parseId subEl, bareJidNormalize site (subEl.attr? "jid") with
      | .ok chId, some jid => some (chId, jid)
      | _, _ => none
    else none
  | _ => none

/-- A promotion is a request that names a channel and a user. -/
theorem promotion_eq_some : promotion site e = some (chId, jid) ↔
    ∃ subEl, e.request = .iq (some .set) subEl ∧ subEl.name = "promote" ∧
      parseId subEl = .ok chId ∧ bareJidNormalize site (subEl.attr? "jid") = some jid := by
  rw [promotion]
  split
  · next subEl he =>
    rw [he]
    by_cases hname : subEl.name = "promote"
    · cases hid : parseId subEl <;> cases hjid : bareJidNormalize site (subEl.attr? "jid") <;>
        simp [hname, hid, hjid]
    · simp [hname]
  · next hne =>
    refine iff_of_false nofun ?_
    rintro ⟨subEl, he, -⟩
    exact hne subEl he

/-- Who is promoted is named by a bare JID. -/
theorem toBare_of_promotion (h : promotion site e = some (chId, jid)) : jid.toBare = jid := by
  obtain ⟨subEl, -, -, -, hjid⟩ := promotion_eq_some.1 h
  obtain ⟨jid', -, rfl⟩ := Option.map_eq_some_iff.1 hjid
  rfl

/-- What a request may do to the tables. -/
inductive Change (site : Site) (e : Event) (db : Db) : Db → Prop
  | nothing : Change site e db db
  | create {handle name description : String} {channelType : ChannelType} {db' : Db} {chId : ℤ} :
    Db.createChannel e.user.lserver e.user.toBare handle name description channelType e.now db =
      some (db', chId) → Change site e db db'
  | update {chId : ℤ} {updates : List Db.Update} {role : Role} :
    ensureAdmin e.user chId db = .ok role → Change site e db (Db.updateChannel chId updates db).1
  | delete {chId : ℤ} :
    ensureOwner e.user chId db = .ok () → Change site e db (db.deleteChannel chId)
  | subscribe {chId : ℤ} {jid : Jid} : Change site e db ((db.subscribe chId jid e.now).getD db)
  | unsubscribe {chId : ℤ} {jid : Jid} : Change site e db (db.unsubscribe chId jid)
  | promote {chId : ℤ} {jid : Jid} : promotion site e = some (chId, jid) →
    ensureOwner e.user chId db = .ok () → Change site e db (db.addAdmin chId jid .admin e.now)
  | demote {chId : ℤ} {jid : Jid} :
    ensureOwner e.user chId db = .ok () → Change site e db (db.removeAdmin chId jid)
  | post {ch : Channel} {body : String} {db' : Db} {msgId : ℤ} :
    db.getChannel ch.id = some ch →
      (ch.server = e.user.lserver ∧ ch.owner = e.user.toBare ∨
        db.isAdmin ch.id e.user.toBare = true) →
      db.storeMessage ch.id e.user.toBare body e.now = some (db', msgId) → Change site e db db'

/-- The channels whose data or messages a reply shows. -/
def Reply.Reveals (chId : ℤ) : Reply → Prop
  | .channels items => ∃ item ∈ items, item.1.id = chId
  | .channel ch => ch.id = chId
  | .members chId' _ _ _ => chId' = chId
  | .history chId' msgs => chId' = chId ∨ ∃ m ∈ msgs, m.channelId = chId
  | _ => False

/-- A change that may be made, and a reply that may be given. -/
structure Lawful (site : Site) (e : Event) (db : Db) (out : Db × Reply) : Prop where
  change : Change site e db out.1
  reads : ∀ chId, out.2.Reveals chId → MayRead e.user chId out.1

/-- A change is lawful with any reply that reveals no channel. -/
theorem lawful_of_change {reply : Reply} (h : Change site e db db')
    (hreply : ∀ chId, ¬ reply.Reveals chId) : Lawful site e db (db', reply) :=
  ⟨h, fun chId hreveals => absurd hreveals (hreply chId)⟩

/-! ### Handlers that read -/

/-- Somebody's own channels are shown lawfully. -/
theorem handleListMine_ends : Ends (handleListMine e.user db) (Lawful site e db) fun _ => True := by
  refine ⟨.nothing, ?_⟩
  rintro chId ⟨item, hitem, rfl⟩ ch' - -
  rcases mem_append.1 hitem with hitem | hitem
  · obtain ⟨ch, hch, rfl⟩ := mem_map.1 hitem
    have hch := ((Keyset.descending_perm _ _).mem_iff).1 hch
    have := (mem_filter.1 hch).2
    right; left
    rw [Db.isAdmin_iff]
    simp at this
    exact this.2
  · obtain ⟨ch, hch, rfl⟩ := mem_map.1 hitem
    obtain ⟨row, hrow, hch⟩ := mem_flatMap.1 (mem_filter.1 hch).1
    have hrow := ((Keyset.descending_perm _ _).mem_iff).1 hrow
    right; right
    rw [Db.isSubscriber_iff]
    simp at hrow hch
    exact ⟨row, hrow.1, hch.2.1.symm, hrow.2⟩

variable {subEl : Element}

/-- One channel is shown lawfully. -/
theorem handleGetOne_ends :
    Ends (handleGetOne e.user subEl db) (Lawful site e db) fun _ => True := by
  rw [handleGetOne, ends_bind]
  refine ends_of_ok fun chId _ => ?_
  rw [ends_bind]
  refine ends_of_ok fun ch hch => ?_
  obtain ⟨hch, hread⟩ := loadChannelForMember_eq_ok hch
  refine ⟨.nothing, ?_⟩
  rintro chId' rfl
  rwa [(Db.mem_of_getChannel hch).2]

/-- A history is shown lawfully. -/
theorem handleHistory_ends :
    Ends (handleHistory e.user subEl db) (Lawful site e db) fun _ => True := by
  rw [handleHistory, ends_bind]
  refine ends_of_ok fun chId _ => ?_
  rw [ends_bind]
  refine ends_of_ok fun ch hch => ?_
  have hread := (loadChannelForMember_eq_ok hch).2
  refine ⟨.nothing, ?_⟩
  rintro chId' (rfl | ⟨m, hm, rfl⟩)
  · exact hread
  · -- the messages are those of the channel
    have hm := (Keyset.descending_perm _ _).mem_iff.1 (mem_of_mem_take hm)
    have htest := (mem_filter.1 hm).2
    simp only [decide_eq_true_eq] at htest
    rwa [htest.1]

/-- Members are shown lawfully. -/
theorem handleMembers_ends :
    Ends (handleMembers e.user subEl db) (Lawful site e db) fun _ => True := by
  rw [handleMembers, ends_bind]
  refine ends_of_ok fun chId _ => ?_
  rw [ends_bind]
  refine ends_of_ok fun role hrole => ?_
  refine ⟨.nothing, ?_⟩
  rintro chId' rfl
  exact mayRead_of_ensureAdmin hrole

/-- Anybody may read a public channel. -/
theorem Sound.mayRead_of_public (hdb : Sound db) (hch : ch ∈ db.channels)
    (htype : ch.channelType = .publicChannel) : MayRead user ch.id db := by
  intro ch' hch' hprivate
  rw [hdb.getChannel hch, Option.some_inj] at hch'
  subst hch'
  rw [htype] at hprivate
  cases hprivate

/-- What a search finds is shown lawfully. -/
theorem handleSearch_ends (hdb : Sound db) :
    Ends (handleSearch site e.user subEl db) (Lawful site e db) fun _ => True := by
  refine ⟨.nothing, ?_⟩
  rintro chId ⟨item, hitem, rfl⟩
  obtain ⟨ch, hch, rfl⟩ := mem_map.1 hitem
  have hch := (Keyset.descending_perm _ _).mem_iff.1 (mem_of_mem_take hch)
  obtain ⟨hmem, htest⟩ := mem_filter.1 hch
  simp only [decide_eq_true_eq] at htest
  exact hdb.mayRead_of_public hmem htest.2.1

/-! ### Handlers that write -/

/-- A channel is created lawfully. -/
theorem handleCreate_ends (hdb : Sound db) :
    Ends (handleCreate site e.now e.user subEl db) (Lawful site e db) fun _ => True := by
  rw [handleCreate]
  split
  · next handle name _ _ =>
    split
    · next db' chId hcreate =>
      have hchange : Change site e db db' := .create hcreate
      obtain ⟨rfl, -, rfl⟩ := Db.createChannel_eq_some hcreate
      split
      · next ch hch =>
        refine ⟨hchange, ?_⟩
        rintro chId rfl ch' hch' -
        obtain ⟨hmem, hid⟩ := Db.mem_of_getChannel hch'
        left
        -- a number that is not taken yet is that of the new channel
        rcases mem_append.1 hmem with hmem | hmem
        · have hlt := hdb.numbered ch' hmem
          rw [hid, (Db.mem_of_getChannel hch).2] at hlt
          exact absurd hlt (lt_irrefl _)
        · rw [mem_singleton.1 hmem]
      · exact lawful_of_change hchange fun _ => id
    · trivial
  · trivial

/-- A channel is updated lawfully. -/
theorem handleUpdate_ends :
    Ends (handleUpdate e.user subEl db) (Lawful site e db) fun _ => True := by
  rw [handleUpdate, ends_bind]
  refine ends_of_ok fun chId _ => ?_
  rw [ends_bind]
  refine ends_of_ok fun role hrole => ?_
  refine lawful_of_change (.update hrole) fun chId => ?_
  split <;> exact id

/-- A channel is deleted lawfully. -/
theorem handleDelete_ends :
    Ends (handleDelete e.user subEl db) (Lawful site e db) fun _ => True := by
  rw [handleDelete, ends_bind]
  refine ends_of_ok fun chId _ => ?_
  rw [ends_bind]
  exact ends_of_ok fun _ howner => lawful_of_change (.delete howner) fun _ => id

/-- The channel that is joined is one of the user's server. -/
theorem resolveChannel_eq_ok {el : Element} (h : resolveChannel site user el db = .ok ch) :
    ch ∈ db.channels := by
  rw [resolveChannel] at h
  split at h
  · split at h
    · cases h
    · split at h
      · next hch =>
        cases h
        exact mem_of_find?_eq_some hch
      · cases h
  · split at h
    · cases h
    · split at h
      · next hch =>
        split at h
        · cases h
          exact (Db.mem_of_getChannel hch).1
        · cases h
      · cases h

/-- A subscription keeps the channels. -/
theorem Sound.getChannel_subscribe (hdb : Sound db) (hch : ch ∈ db.channels) :
    ((db.subscribe chId jid now).getD db).getChannel ch.id = some ch := by
  rw [← hdb.getChannel hch, Db.subscribe]
  split <;> rfl

/-- Somebody joins lawfully. -/
theorem handleJoin_ends (hdb : Sound db) :
    Ends (handleJoin site e.now e.user subEl db) (Lawful site e db) fun _ => True := by
  rw [handleJoin, ends_bind]
  refine ends_of_ok fun ch hch => ?_
  split
  · next htype =>
    refine ⟨.subscribe, ?_⟩
    rintro chId rfl
    intro ch' hch' hprivate
    rw [hdb.getChannel_subscribe (resolveChannel_eq_ok hch), Option.some_inj] at hch'
    rw [← hch', htype] at hprivate
    cases hprivate
  · trivial

/-- Somebody leaves lawfully. -/
theorem handleLeave_ends : Ends (handleLeave e.user subEl db) (Lawful site e db) fun _ => True := by
  rw [handleLeave, ends_bind]
  refine ends_of_ok fun chId _ => ?_
  split
  · exact ends_ite (fun _ => lawful_of_change .unsubscribe fun _ => id) fun _ => trivial
  · trivial

/-- A post by an IQ is lawful. -/
theorem handlePostIq_ends :
    Ends (handlePostIq e.now e.user subEl db) (Lawful site e db) fun _ => True := by
  rw [handlePostIq, ends_bind]
  refine ends_of_ok fun chId _ => ?_
  rw [ends_bind]
  refine ends_of_ok fun role hrole => ?_
  split
  · split
    · next db' msgId hstore =>
      obtain ⟨ch, hch, hserver, hadmin⟩ := ensureAdmin_eq_ok.1 ⟨role, hrole⟩
      obtain rfl := (Db.mem_of_getChannel hch).2
      have hmay := hadmin.imp_left fun howner => And.intro hserver howner
      exact lawful_of_change (.post hch hmay hstore) fun _ => id
    · exact lawful_of_change .nothing fun _ => id
  · trivial

/-- A request about a user is lawful if its change is, for the JID that is read. -/
theorem onTarget_ends {change : Jid → Db}
    (h : ∀ jid, bareJidNormalize site (subEl.attr? "jid") = some jid →
    Change site e db (change jid)) :
    Ends (onTarget site subEl change) (Lawful site e db) fun _ => True := by
  rw [onTarget]
  split
  · next jid hjid => exact lawful_of_change (h jid hjid) fun _ => id
  · trivial

/-- An admin adds a user lawfully. -/
theorem handleAdminAdd_ends :
    Ends (handleAdminAdd site e.now e.user subEl db) (Lawful site e db) fun _ => True := by
  rw [handleAdminAdd, ends_bind]
  refine ends_of_ok fun chId _ => ?_
  rw [ends_bind]
  exact ends_of_ok fun _ _ => onTarget_ends fun _ _ => .subscribe

/-- An admin removes a user lawfully. -/
theorem handleAdminRemove_ends :
    Ends (handleAdminRemove site e.user subEl db) (Lawful site e db) fun _ => True := by
  rw [handleAdminRemove, ends_bind]
  refine ends_of_ok fun chId _ => ?_
  rw [ends_bind]
  exact ends_of_ok fun _ _ => onTarget_ends fun _ _ => .unsubscribe

/-- An admin is demoted lawfully. -/
theorem handleRoleChange_demote_ends :
    Ends (handleRoleChange site e.now e.user subEl .demote db) (Lawful site e db)
    fun _ => True := by
  rw [handleRoleChange, ends_bind]
  refine ends_of_ok fun chId _ => ?_
  rw [ends_bind]
  exact ends_of_ok fun _ howner => onTarget_ends fun _ _ => .demote howner

/-- A user is promoted lawfully. -/
theorem handleRoleChange_promote_ends
    (he : e.request = .iq (some .set) subEl) (hname : subEl.name = "promote") :
    Ends (handleRoleChange site e.now e.user subEl .promote db) (Lawful site e db)
    fun _ => True := by
  rw [handleRoleChange, ends_bind]
  refine ends_of_ok fun chId hchId => ?_
  rw [ends_bind]
  refine ends_of_ok fun _ howner => onTarget_ends fun jid hjid => .promote ?_ howner
  rw [promotion, he]
  simp only [hname, if_true, hchId, hjid]

/-! ### Requests -/

/-- **An IQ is handled lawfully.** -/
theorem handleIq_ends (hdb : Sound db) {type : Option IqType} (he : e.request = .iq type subEl) :
    Ends (handleIq site e.now type e.user subEl db) (Lawful site e db) fun _ => True := by
  unfold handleIq
  split
  · split
    · exact handleListMine_ends
    · exact handleGetOne_ends
    · exact handleHistory_ends
    · exact handleMembers_ends
    · exact handleSearch_ends hdb
    · trivial
  · split
    · exact handleCreate_ends hdb
    · exact handleUpdate_ends
    · exact handleDelete_ends
    · exact handleJoin_ends hdb
    · exact handleLeave_ends
    · exact handlePostIq_ends
    · next hname => exact handleRoleChange_promote_ends he hname
    · exact handleRoleChange_demote_ends
    · exact handleAdminAdd_ends
    · exact handleAdminRemove_ends
    · trivial
  · trivial

/-- A message is stored for who has a row among the admins. -/
theorem userSendMessage_lawful {recipient : Jid} {packet : Element} :
    Lawful site e db (userSendMessage e.now e.user recipient packet db) := by
  have hnothing : ∀ reply : Reply, (∀ chId, ¬ reply.Reveals chId) → Lawful site e db (db, reply) :=
    fun reply => lawful_of_change .nothing
  rw [userSendMessage]
  split
  · next chId _ =>
    rw [handleChannelMessage]
    split
    · next ch hch =>
      obtain rfl := (Db.mem_of_getChannel hch).2
      split
      · next hadmin =>
        split
        · split
          · next hstore =>
            exact lawful_of_change (.post hch (.inr hadmin) hstore) fun _ => id
          · exact hnothing _ fun _ => id
        · exact hnothing _ fun _ => id
      · exact hnothing _ fun _ => id
    · exact hnothing _ fun _ => id
  · exact hnothing _ fun _ => id

section

variable (hdb : Sound db)

include hdb

/-- **Every request makes a change it may make**, and its reply shows what the user may see. -/
theorem handle_lawful (e : Event) : Lawful site e db (handle site db e) := by
  rw [handle]
  split
  · next type subEl he =>
    have hends : Ends (handleIq site e.now type e.user subEl db) (Lawful site e db) _ :=
      handleIq_ends hdb he
    split
    · next hresult => rwa [hresult] at hends
    · exact lawful_of_change .nothing fun _ => id
  · exact userSendMessage_lawful

/-! ## The tables stay sound -/

/-- A new admin row with a bare JID keeps the database sound. -/
theorem Sound.adminInsert (hbare : jid.toBare = jid)
    (h : Db.adminInsert chId jid role now db = some db') : Sound db' := by
  obtain ⟨⟨hch, hfits, -⟩, rfl⟩ := Db.adminInsert_eq_some.1 h
  refine { hdb with admins := ?_, adminFits := ?_, adminBare := ?_, ownerRow := ?_ }
  · intro row hrow
    rcases mem_append.1 hrow with hrow | hrow
    · exact hdb.admins row hrow
    · rw [mem_singleton.1 hrow]
      exact hch
  · intro row hrow
    rcases mem_append.1 hrow with hrow | hrow
    · exact hdb.adminFits row hrow
    · rw [mem_singleton.1 hrow]
      exact hfits
  · intro row hrow
    rcases mem_append.1 hrow with hrow | hrow
    · exact hdb.adminBare row hrow
    · rw [mem_singleton.1 hrow]
      exact hbare
  · intro ch hch
    obtain ⟨row, hrow, howner⟩ := hdb.ownerRow ch hch
    exact ⟨row, mem_append_left _ hrow, howner⟩

/-- A new channel keeps the database sound. -/
theorem Sound.createChannel {handle name description : String}
    {channelType : ChannelType}
    (h : Db.createChannel user.lserver user.toBare handle name description channelType now db =
    some (db', chId)) : Sound db' := by
  obtain ⟨rfl, hfits, rfl⟩ := Db.createChannel_eq_some h
  have hmem : ∀ {ch : Channel} {new : Channel}, ch ∈ db.channels → ch ∈ db.channels ++ [new] :=
    fun hch => mem_append_left _ hch
  refine { hdb with
    numbered := ?_, unique := ?_, admins := ?_, subscribers := ?_, messages := ?_,
    adminFits := ?_, adminBare := ?_, ownerRow := ?_, ownerLocal := ?_ }
  · intro ch hch
    show ch.id < db.nextChannel + 1
    rcases mem_append.1 hch with hch | hch
    · have := hdb.numbered ch hch
      omega
    · rw [mem_singleton.1 hch]
      exact Int.lt_add_one_of_le le_rfl
  · show ((db.channels ++ [_]).map Channel.id).Nodup
    rw [map_append, nodup_append]
    refine ⟨hdb.unique, nodup_singleton _, ?_⟩
    intro a ha b hb
    obtain ⟨ch, hch, rfl⟩ := mem_map.1 ha
    rw [map_singleton, mem_singleton] at hb
    rw [hb]
    exact (hdb.numbered ch hch).ne
  · intro row hrow
    rcases mem_append.1 hrow with hrow | hrow
    · obtain ⟨ch, hch, hid⟩ := hdb.admins row hrow
      exact ⟨ch, hmem hch, hid⟩
    · rw [mem_singleton.1 hrow]
      exact ⟨_, mem_append_right _ (mem_singleton.2 rfl), rfl⟩
  · intro row hrow
    obtain ⟨ch, hch, hid⟩ := hdb.subscribers row hrow
    exact ⟨ch, hmem hch, hid⟩
  · intro m hm
    obtain ⟨ch, hch, hid⟩ := hdb.messages m hm
    exact ⟨ch, hmem hch, hid⟩
  · intro row hrow
    rcases mem_append.1 hrow with hrow | hrow
    · exact hdb.adminFits row hrow
    · rw [mem_singleton.1 hrow]
      exact hfits
  · intro row hrow
    rcases mem_append.1 hrow with hrow | hrow
    · exact hdb.adminBare row hrow
    · rw [mem_singleton.1 hrow]
      rfl
  · intro ch hch
    rcases mem_append.1 hch with hch | hch
    · obtain ⟨row, hrow, howner⟩ := hdb.ownerRow ch hch
      exact ⟨row, mem_append_left _ hrow, howner⟩
    · rw [mem_singleton.1 hch]
      exact ⟨_, mem_append_right _ (mem_singleton.2 rfl), rfl, rfl, rfl⟩
  · intro ch hch
    rcases mem_append.1 hch with hch | hch
    · exact hdb.ownerLocal ch hch
    · rw [mem_singleton.1 hch]
      rfl

/-- An update of channels that keeps ids, servers and owners keeps the database sound. -/
theorem Sound.map {f : Channel → Channel}
    (hf : ∀ ch, (f ch).id = ch.id ∧ (f ch).server = ch.server ∧ (f ch).owner = ch.owner) :
    Sound { db with channels := db.channels.map f } := by
  have hexists : ∀ {chId : ℤ}, (∃ ch ∈ db.channels, ch.id = chId) →
      ∃ ch ∈ db.channels.map f, ch.id = chId := by
    rintro chId ⟨ch, hch, rfl⟩
    exact ⟨f ch, mem_map_of_mem hch, (hf ch).1⟩
  refine { hdb with
    numbered := ?_, unique := ?_, admins := ?_, subscribers := ?_, messages := ?_,
    ownerRow := ?_, ownerLocal := ?_ }
  · intro ch' hch'
    obtain ⟨ch, hch, rfl⟩ := mem_map.1 hch'
    rw [(hf ch).1]
    exact hdb.numbered ch hch
  · show ((db.channels.map f).map Channel.id).Nodup
    have hids : Channel.id ∘ f = Channel.id := funext fun ch => (hf ch).1
    rw [map_map, hids]
    exact hdb.unique
  · exact fun row hrow => hexists (hdb.admins row hrow)
  · exact fun row hrow => hexists (hdb.subscribers row hrow)
  · exact fun m hm => hexists (hdb.messages m hm)
  · intro ch' hch'
    obtain ⟨ch, hch, rfl⟩ := mem_map.1 hch'
    rw [(hf ch).1, (hf ch).2.2]
    exact hdb.ownerRow ch hch
  · intro ch' hch'
    obtain ⟨ch, hch, rfl⟩ := mem_map.1 hch'
    rw [(hf ch).2.1, (hf ch).2.2]
    exact hdb.ownerLocal ch hch

/-- A deletion keeps the database sound. -/
theorem Sound.deleteChannel (chId : ℤ) : Sound (db.deleteChannel chId) := by
  have hexists : ∀ {chId' : ℤ}, (∃ ch ∈ db.channels, ch.id = chId') → chId' ≠ chId →
      ∃ ch ∈ db.channels.filter (·.id ≠ chId), ch.id = chId' := by
    rintro chId' ⟨ch, hch, rfl⟩ hne
    exact ⟨ch, mem_filter.2 ⟨hch, by simpa using hne⟩, rfl⟩
  refine {
    numbered := ?_, unique := ?_, admins := ?_, subscribers := ?_, messages := ?_, adminFits := ?_,
    adminBare := ?_, ownerRow := ?_, ownerLocal := ?_, messageNumbered := ?_,
    messageUnique := ?_, messagePositive := ⟨hdb.messagePositive.1, ?_⟩, subscriberUnique := ?_ }
  · exact fun ch hch => hdb.numbered ch (mem_filter.1 hch).1
  · exact hdb.unique.sublist (filter_sublist.map _)
  · intro row hrow
    obtain ⟨hrow, hne⟩ := mem_filter.1 hrow
    exact hexists (hdb.admins row hrow) (by simpa using hne)
  · intro row hrow
    obtain ⟨hrow, hne⟩ := mem_filter.1 hrow
    exact hexists (hdb.subscribers row hrow) (by simpa using hne)
  · intro m hm
    obtain ⟨hm, hne⟩ := mem_filter.1 hm
    exact hexists (hdb.messages m hm) (by simpa using hne)
  · exact fun row hrow => hdb.adminFits row (mem_filter.1 hrow).1
  · exact fun row hrow => hdb.adminBare row (mem_filter.1 hrow).1
  · intro ch hch
    obtain ⟨hch, hne⟩ := mem_filter.1 hch
    obtain ⟨row, hrow, hid, hjid⟩ := hdb.ownerRow ch hch
    exact ⟨row, mem_filter.2 ⟨hrow, by rw [hid]; exact hne⟩, hid, hjid⟩
  · exact fun ch hch => hdb.ownerLocal ch (mem_filter.1 hch).1
  · exact fun m hm => hdb.messageNumbered m (mem_filter.1 hm).1
  · exact hdb.messageUnique.sublist filter_sublist
  · exact fun m hm => hdb.messagePositive.2 m (mem_filter.1 hm).1
  · exact hdb.subscriberUnique.sublist (filter_sublist.map _)

/-- An admin row less keeps the database sound. -/
theorem Sound.removeAdmin (chId : ℤ) (jid : Jid) : Sound (db.removeAdmin chId jid) := by
  refine { hdb with admins := ?_, adminFits := ?_, adminBare := ?_, ownerRow := ?_ }
  · exact fun row hrow => hdb.admins row (mem_filter.1 hrow).1
  · exact fun row hrow => hdb.adminFits row (mem_filter.1 hrow).1
  · exact fun row hrow => hdb.adminBare row (mem_filter.1 hrow).1
  · intro ch hch
    obtain ⟨row, hrow, hid, hjid, hrole⟩ := hdb.ownerRow ch hch
    exact ⟨row, mem_filter.2 ⟨hrow, by simp [hrole]⟩, hid, hjid, hrole⟩

/-- **The tables stay sound.** -/
theorem Sound.change (h : Change site e db db') : Sound db' := by
  cases h with
  | nothing => exact hdb
  | create hcreate => exact hdb.createChannel hcreate
  | update _ =>
    obtain ⟨f, hf, heq⟩ := Db.updateChannel_eq _ _ db
    rw [heq]
    exact hdb.map hf
  | delete _ => exact hdb.deleteChannel _
  | @subscribe chId jid =>
    rw [Db.subscribe]
    split
    · next hinsert =>
      refine { hdb with subscribers := ?_, subscriberUnique := ?_ }
      · intro row hrow
        rcases mem_append.1 hrow with hrow | hrow
        · exact hdb.subscribers row hrow
        · rw [mem_singleton.1 hrow]
          exact hinsert.1
      · show ((db.subscribers ++ [_]).map _).Nodup
        rw [map_append, nodup_append]
        refine ⟨hdb.subscriberUnique, nodup_singleton _, ?_⟩
        intro a ha b hb heq
        obtain ⟨row, hrow, rfl⟩ := mem_map.1 ha
        rw [map_singleton, mem_singleton] at hb
        obtain ⟨hid, hjid⟩ := Prod.mk.inj (heq.trans hb)
        exact hinsert.2.2 row hrow ⟨hid, hjid⟩
    · exact hdb
  | unsubscribe =>
    refine { hdb with subscribers := ?_, subscriberUnique := ?_ }
    · exact fun row hrow => hdb.subscribers row (mem_filter.1 hrow).1
    · exact hdb.subscriberUnique.sublist (filter_sublist.map _)
  | @promote chId jid hpromotion _ =>
    rw [Db.addAdmin]
    cases hinsert : Db.adminInsert chId jid .admin e.now db with
    | none => exact hdb
    | some db' => exact hdb.adminInsert (toBare_of_promotion hpromotion) hinsert
  | demote _ => exact hdb.removeAdmin _ _
  | post _ _ hstore =>
    obtain ⟨⟨hch, -⟩, rfl, -⟩ := Db.storeMessage_eq_some.1 hstore
    refine { hdb with
      messages := ?_, messageNumbered := ?_, messageUnique := ?_, messagePositive := ?_ }
    · intro m hm
      rcases mem_append.1 hm with hm | hm
      · exact hdb.messages m hm
      · rw [mem_singleton.1 hm]
        exact hch
    · intro m hm
      show m.id < db.nextMessage + 1
      rcases mem_append.1 hm with hm | hm
      · have := hdb.messageNumbered m hm
        omega
      · rw [mem_singleton.1 hm]
        exact Int.lt_add_one_of_le le_rfl
    · show (db.messages ++ [_]).Pairwise _
      rw [pairwise_append]
      refine ⟨hdb.messageUnique, pairwise_singleton _ _, ?_⟩
      intro m hm m' hm'
      rw [mem_singleton.1 hm']
      exact hdb.messageNumbered m hm
    · refine ⟨hdb.messagePositive.1.trans (Int.lt_add_one_of_le le_rfl), ?_⟩
      intro m hm
      rcases mem_append.1 hm with hm | hm
      · exact hdb.messagePositive.2 m hm
      · rw [mem_singleton.1 hm]
        exact hdb.messagePositive.1

end

/-- A number of a channel that is gone. -/
structure Retired (chId : ℤ) (db : Db) : Prop where
  numbered : chId < db.nextChannel
  channels : ∀ ch ∈ db.channels, ch.id ≠ chId

/-- The ids of channels only grow. -/
theorem Change.nextChannel_le (h : Change site e db db') : db.nextChannel ≤ db'.nextChannel := by
  cases h with
  | create hcreate =>
    obtain ⟨rfl, -, rfl⟩ := Db.createChannel_eq_some hcreate
    exact (Int.lt_add_one_of_le le_rfl).le
  | update _ =>
    obtain ⟨f, -, heq⟩ := Db.updateChannel_eq _ _ db
    rw [heq]
  | subscribe =>
    rw [Db.subscribe]
    split <;> exact le_rfl
  | promote _ _ =>
    rw [Db.addAdmin, Db.adminInsert]
    split <;> exact le_rfl
  | post _ _ hstore =>
    obtain ⟨-, rfl, -⟩ := Db.storeMessage_eq_some.1 hstore
    exact le_rfl
  | _ => exact le_rfl

/-- An id that is retired stays so. -/
theorem Retired.change (h : Retired chId db) (hchange : Change site e db db') :
    Retired chId db' := by
  cases hchange with
  | nothing => exact h
  | create hcreate =>
    obtain ⟨rfl, -, rfl⟩ := Db.createChannel_eq_some hcreate
    refine ⟨Int.lt_add_one_of_le h.numbered.le, ?_⟩
    intro ch hch
    rcases mem_append.1 hch with hch | hch
    · exact h.channels ch hch
    · rw [mem_singleton.1 hch]
      exact h.numbered.ne'
  | update _ =>
    obtain ⟨f, hf, heq⟩ := Db.updateChannel_eq _ _ db
    rw [heq]
    refine ⟨h.numbered, ?_⟩
    intro ch' hch'
    obtain ⟨ch, hch, rfl⟩ := mem_map.1 hch'
    rw [(hf ch).1]
    exact h.channels ch hch
  | delete _ => exact ⟨h.numbered, fun ch hch => h.channels ch (mem_filter.1 hch).1⟩
  | subscribe =>
    rw [Db.subscribe]
    split <;> exact ⟨h.numbered, h.channels⟩
  | unsubscribe => exact ⟨h.numbered, h.channels⟩
  | promote _ _ =>
    rw [Db.addAdmin, Db.adminInsert]
    split <;> exact ⟨h.numbered, h.channels⟩
  | demote _ => exact ⟨h.numbered, h.channels⟩
  | post _ _ hstore =>
    obtain ⟨-, rfl, -⟩ := Db.storeMessage_eq_some.1 hstore
    exact ⟨h.numbered, h.channels⟩

/-- A step keeps the database sound. -/
theorem Sound.step (hdb : Sound db) (h : step site db e = some db') : Sound db' := by
  cases h
  exact hdb.change (handle_lawful hdb e).change

end MongooseIM.Channels
