import MongooseIM.Channels.Changes

/-! # Who may post to a channel

An IQ has to come from the domain of the channel, a message does not: it is enough that the sender
has a row among the admins, and an owner can give one to an address of any domain. -/

namespace MongooseIM.Channels

open Erlang Xmpp Transition List

variable {site : Site} {hosted : String → Prop} {db db' : Db} {e : Event} {user jid : Jid}
  {chId : ℤ} {ch : Channel} {role : Role} {now : ℕ}

/-! ## What always holds -/

/-- Nothing is left of a channel. -/
structure Gone (chId : ℤ) (db : Db) : Prop where
  channels : ∀ ch ∈ db.channels, ch.id ≠ chId
  admins : ∀ row ∈ db.admins, row.channelId ≠ chId
  subscribers : ∀ row ∈ db.subscribers, row.channelId ≠ chId
  messages : ∀ m ∈ db.messages, m.channelId ≠ chId

/-- A request to delete a channel. -/
def Event.Deletes (chId : ℤ) (e : Event) : Prop :=
  ∃ subEl, e.request = .iq (some .set) subEl ∧ subEl.name = "delete" ∧ parseId subEl = .ok chId

/-- What holds in every state, and of every request in it. -/
structure Correct (site : Site) (db : Db) : Prop where
  ownerRow : ∀ ch ∈ db.channels,
    ∃ row ∈ db.admins, row.channelId = ch.id ∧ row.adminJid = ch.owner ∧ row.role = .owner
  adminsChange : ∀ (e : Event) (row : Admin),
    ¬ (row ∈ (handle site db e).1.admins ↔ row ∈ db.admins) →
      ∃ ch, (db.getChannel row.channelId = some ch ∨
        (handle site db e).1.getChannel row.channelId = some ch) ∧ ch.owner = e.user.toBare
  reads : ∀ (e : Event) (chId : ℤ), (handle site db e).2.Reveals chId →
    MayRead e.user chId (handle site db e).1
  deletes : ∀ (e : Event) (chId : ℤ), e.Deletes chId → (handle site db e).2 = .empty →
    ∀ es db', run (step site) (handle site db e).1 es = some db' → Gone chId db'

theorem Sound.gone (hdb : Sound db) (h : ∀ ch ∈ db.channels, ch.id ≠ chId) : Gone chId db := by
  refine ⟨h, ?_, ?_, ?_⟩
  · rintro row hrow rfl
    obtain ⟨ch, hch, hid⟩ := hdb.admins row hrow
    exact h ch hch hid
  · rintro row hrow rfl
    obtain ⟨ch, hch, hid⟩ := hdb.subscribers row hrow
    exact h ch hch hid
  · rintro m hm rfl
    obtain ⟨ch, hch, hid⟩ := hdb.messages m hm
    exact h ch hch hid

theorem Retired.run (hdb : Sound db) (h : Retired chId db) {es : List Event}
    (hrun : run (Channels.step site) db es = some db') : Sound db' ∧ Retired chId db' := by
  have hall : Guarded (Channels.step site) (fun _ _ => True) db es :=
    guarded_of_forall (fun _ _ => trivial) db es
  refine run_invariant (P := fun db => Sound db ∧ Retired chId db) ?_ ⟨hdb, h⟩ hall hrun
  rintro s e s' ⟨hsound, hretired⟩ - hstep
  obtain rfl := Option.some.inj hstep
  exact ⟨hsound.step hstep, hretired.change (handle_lawful hsound e).change⟩

/-- A deletion that is accepted is one of the owner. -/
theorem handle_of_deletes (h : e.Deletes chId) (hreply : (handle site db e).2 = .empty) :
    ensureOwner e.user chId db = .ok () ∧ (handle site db e).1 = db.deleteChannel chId := by
  obtain ⟨subEl, he, hname, hid⟩ := h
  have hiq : handleIq site e.now (some .set) e.user subEl db = handleDelete e.user subEl db := by
    unfold handleIq
    rw [hname]
    rfl
  rw [handle, he] at hreply ⊢
  simp only [hiq, handleDelete, hid, bind, Except.bind] at hreply ⊢
  cases howner : ensureOwner e.user chId db with
  | error reason =>
    rw [howner] at hreply
    cases hreply
  | ok _ => exact ⟨rfl, rfl⟩

/-- After a deletion there is nothing of the channel, in any later state. -/
theorem Sound.gone_of_deletes (hdb : Sound db) (h : e.Deletes chId)
    (hreply : (handle site db e).2 = .empty) {es : List Event}
    (hrun : run (Channels.step site) (handle site db e).1 es = some db') : Gone chId db' := by
  obtain ⟨howner, hdelete⟩ := handle_of_deletes h hreply
  obtain ⟨ch, hch, -, -⟩ := ensureOwner_eq_ok.1 howner
  obtain ⟨hmem, rfl⟩ := Db.mem_of_getChannel hch
  have hretired : Retired ch.id (db.deleteChannel ch.id) :=
    ⟨hdb.numbered ch hmem, fun ch' hch' => by simpa using (mem_filter.1 hch').2⟩
  rw [hdelete] at hrun
  obtain ⟨hdb', hretired'⟩ := hretired.run (hdb.deleteChannel ch.id) hrun
  exact hdb'.gone hretired'.channels

/-- What a check of the owner says of a channel. -/
theorem owner_of_ensureOwner (h : ensureOwner user chId db = .ok ()) :
    ∃ ch, db.getChannel chId = some ch ∧ ch.owner = user.toBare := by
  obtain ⟨ch, hch, -, howner⟩ := ensureOwner_eq_ok.1 h
  exact ⟨ch, hch, howner⟩

/-- The rows of the admins are changed by the owner. -/
theorem Change.owner (hdb : Sound db) (h : Change site e db db') {row : Admin}
    (hrow : ¬ (row ∈ db'.admins ↔ row ∈ db.admins)) :
    ∃ ch, (db.getChannel row.channelId = some ch ∨ db'.getChannel row.channelId = some ch) ∧
    ch.owner = e.user.toBare := by
  have hfilter : ∀ {p : Admin → Bool}, ¬ (row ∈ db.admins.filter p ↔ row ∈ db.admins) →
      p row = false := by
    intro p hne
    by_contra htrue
    exact hne (by simp [htrue])
  have hbefore : ∀ {chId : ℤ}, row.channelId = chId → ensureOwner e.user chId db = .ok () →
      ∃ ch, (db.getChannel row.channelId = some ch ∨ db'.getChannel row.channelId = some ch) ∧
        ch.owner = e.user.toBare := by
    rintro chId rfl howner
    obtain ⟨ch, hch, howner⟩ := owner_of_ensureOwner howner
    exact ⟨ch, .inl hch, howner⟩
  cases h with
  | nothing => exact absurd Iff.rfl hrow
  | create hcreate =>
    have hdb' := hdb.createChannel hcreate
    obtain ⟨rfl, -, rfl⟩ := Db.createChannel_eq_some hcreate
    have hnew : row = ⟨db.nextChannel, e.user.toBare, .owner, e.now⟩ := by
      by_contra hne
      refine hrow ((mem_append).trans (or_iff_left ?_))
      rwa [mem_singleton]
    rw [hnew]
    exact ⟨_, .inr (hdb'.getChannel (mem_append_right _ (mem_singleton.2 rfl))), rfl⟩
  | update _ =>
    obtain ⟨f, hf, heq⟩ := Db.updateChannel_eq _ _ db
    rw [heq] at hrow
    exact absurd Iff.rfl hrow
  | delete howner => exact hbefore (by simpa using hfilter hrow) howner
  | subscribe =>
    refine absurd ?_ hrow
    rw [Db.subscribe]
    split <;> exact Iff.rfl
  | unsubscribe => exact absurd Iff.rfl hrow
  | @promote chId jid _ howner =>
    refine hbefore ?_ howner
    by_contra hne
    refine hrow ?_
    rw [Db.addAdmin, Db.adminInsert]
    split
    · refine (mem_append).trans (or_iff_left ?_)
      rw [mem_singleton]
      rintro rfl
      exact hne rfl
    · exact Iff.rfl
  | demote howner =>
    refine hbefore ?_ howner
    have := hfilter hrow
    simp only [decide_eq_false_iff_not, not_not] at this
    exact this.1
  | post _ _ hstore =>
    obtain ⟨-, rfl, -⟩ := Db.storeMessage_eq_some.1 hstore
    exact absurd Iff.rfl hrow

/-- **What always holds.** -/
theorem Sound.correct (hdb : Sound db) : Correct site db where
  ownerRow := hdb.ownerRow
  adminsChange e _ hrow := (handle_lawful hdb e).change.owner hdb hrow
  reads e := (handle_lawful hdb e).reads
  deletes _ _ he hreply _ _ hrun := hdb.gone_of_deletes he hreply hrun

/-! ## Posts -/

/-- A user of a domain of the host type. -/
def IsUser (hosted : String → Prop) (user : Jid) : Prop := hosted user.lserver ∧ user.luser ≠ ""

/-- The owner and the admins of a channel, in its domain. -/
def MayPost (user : Jid) (ch : Channel) (db : Db) : Prop :=
  user.lserver = ch.server ∧ (ch.owner = user.toBare ∨ db.isAdmin ch.id user.toBare = true)

/-- The requests of a user to post with the same text to the same channel, by IQ and by message. -/
structure SamePost (chId : ℤ) (subEl : Element) (recipient : Jid) (packet : Element) : Prop where
  name : subEl.name = "post"
  id : parseId subEl = .ok chId
  recipient : parseChannelJid recipient = some chId
  body : bodyText subEl = bodyText packet

/-- What a request stores is the post of a user who may post, and the paths agree. -/
structure Authorised (site : Site) (hosted : String → Prop) (db : Db) : Prop where
  posts : ∀ e, IsUser hosted e.user → ∀ m ∈ (handle site db e).1.messages, m ∉ db.messages →
    m.senderJid = e.user.toBare ∧
      ∃ ch, db.getChannel m.channelId = some ch ∧ MayPost e.user ch db
  samePaths : ∀ now user chId subEl recipient packet, IsUser hosted user →
    SamePost chId subEl recipient packet →
      let byIq := handle site db ⟨now, user, .iq (some .set) subEl⟩
      let byMessage := handle site db ⟨now, user, .message recipient packet⟩
      byIq.1 = byMessage.1 ∧ ((∃ msgId, byIq.2 = .posted chId msgId) ↔ byMessage.2 = .accepted)

/-- Nobody is promoted from another domain of the host type. An address that does not fit into its
column gets no row. -/
def LocalPromotion (site : Site) (hosted : String → Prop) (db : Db) (e : Event) : Prop :=
  ∀ chId jid, promotion site e = some (chId, jid) → ensureOwner e.user chId db = .ok () →
    fits 500 jid → IsUser hosted jid → jid.lserver = e.user.lserver

/-- The admins that can send anything are of the domain of their channel. -/
def LocalAdmins (hosted : String → Prop) (db : Db) : Prop :=
  ∀ row ∈ db.admins, IsUser hosted row.adminJid →
    ∀ ch ∈ db.channels, ch.id = row.channelId → row.adminJid.lserver = ch.server

/-! ### The paths agree with local admins -/

theorem handle_post {subEl : Element} (hname : subEl.name = "post")
    (hid : parseId subEl = .ok chId) :
    handle site db ⟨now, user, .iq (some .set) subEl⟩ = match ensureAdmin user chId db with
    | .error reason => (db, .error reason)
    | .ok _ =>
      match (bodyText subEl).filter isValidBody with
      | some body =>
        match db.storeMessage chId user.toBare body now with
        | some (db', msgId) => (db', .posted chId msgId)
        | none => (db, .crash)
      | none => (db, .error .badRequest) := by
  have hiq : handleIq site now (some .set) user subEl db = handlePostIq now user subEl db := by
    unfold handleIq
    rw [hname]
    rfl
  simp only [handle, hiq, handlePostIq, hid, bind, Except.bind]
  cases ensureAdmin user chId db with
  | error reason => rfl
  | ok role =>
    cases (bodyText subEl).filter isValidBody with
    | none => rfl
    | some body => cases h : db.storeMessage chId user.toBare body now <;> simp only [h]

section

variable (h : LocalAdmins hosted db) (hdb : Sound db) (huser : IsUser hosted user)

include h hdb huser

/-- With local admins who have a row among them are those who pass as one. -/
theorem LocalAdmins.ensureAdmin (chId : ℤ) : (∃ role, ensureAdmin user chId db = .ok role) ↔
    ∃ ch, db.getChannel chId = some ch ∧ db.isAdmin chId user.toBare = true := by
  rw [ensureAdmin_eq_ok]
  refine exists_congr fun ch => and_congr_right fun hch => ?_
  obtain ⟨hmem, rfl⟩ := Db.mem_of_getChannel hch
  constructor
  · rintro ⟨-, howner | hadmin⟩
    · rw [← howner]
      exact hdb.isAdmin_owner hmem
    · exact hadmin
  · intro hadmin
    obtain ⟨row, hrow, hid, hjid⟩ := Db.isAdmin_iff.1 hadmin
    have hlocal := h row hrow (by rw [hjid]; exact huser) ch hmem hid.symm
    rw [hjid] at hlocal
    exact ⟨hlocal.symm, .inr hadmin⟩

theorem LocalAdmins.samePaths {subEl packet : Element} {recipient : Jid}
    (hpost : SamePost chId subEl recipient packet) :
    let byIq := handle site db ⟨now, user, .iq (some .set) subEl⟩
    let byMessage := handle site db ⟨now, user, .message recipient packet⟩
    byIq.1 = byMessage.1 ∧ ((∃ msgId, byIq.2 = .posted chId msgId) ↔ byMessage.2 = .accepted) := by
  intro byIq byMessage
  have hiff := h.ensureAdmin hdb huser chId
  have hiq : byIq = _ := handle_post hpost.name hpost.id
  have hmessage : byMessage = handleChannelMessage now user chId packet db := by
    show userSendMessage now user recipient packet db = _
    rw [userSendMessage, hpost.recipient]
  rw [hiq, hmessage, handleChannelMessage, hpost.body]
  cases hcheck : Channels.ensureAdmin user chId db with
  | ok role =>
    obtain ⟨ch, hch, hadmin⟩ := hiff.1 ⟨role, hcheck⟩
    simp only [hch, hadmin, if_true]
    cases (bodyText packet).filter isValidBody with
    | none => simp
    | some body => cases h : db.storeMessage chId user.toBare body now <;> simp [h]
  | error reason =>
    cases hch : db.getChannel chId with
    | none => simp
    | some ch =>
      have hadmin : db.isAdmin chId user.toBare = false := by
        by_contra hadmin
        obtain ⟨role, hrole⟩ := hiff.2 ⟨ch, hch, by simpa using hadmin⟩
        rw [hcheck] at hrole
        cases hrole
      simp [hadmin]

end

/-- A post that a change stores comes from a user who may post. -/
theorem LocalAdmins.posts (h : LocalAdmins hosted db)
    (hchange : Change site e db db') (huser : IsUser hosted e.user) {m : Message}
    (hm : m ∈ db'.messages) (hnew : m ∉ db.messages) :
    m.senderJid = e.user.toBare ∧
    ∃ ch, db.getChannel m.channelId = some ch ∧ MayPost e.user ch db := by
  cases hchange with
  | nothing => exact absurd hm hnew
  | create hcreate =>
    obtain ⟨-, -, rfl⟩ := Db.createChannel_eq_some hcreate
    exact absurd hm hnew
  | update _ =>
    obtain ⟨f, -, heq⟩ := Db.updateChannel_eq _ _ db
    rw [heq] at hm
    exact absurd hm hnew
  | delete _ => exact absurd (mem_filter.1 hm).1 hnew
  | subscribe =>
    refine absurd ?_ hnew
    rw [Db.subscribe] at hm
    split at hm <;> exact hm
  | unsubscribe => exact absurd hm hnew
  | promote _ _ =>
    refine absurd ?_ hnew
    rw [Db.addAdmin, Db.adminInsert] at hm
    split at hm <;> exact hm
  | demote _ => exact absurd hm hnew
  | @post ch body _ _ hch hmay hstore =>
    obtain ⟨-, rfl, -⟩ := Db.storeMessage_eq_some.1 hstore
    rcases mem_append.1 hm with hm | hm
    · exact absurd hm hnew
    · rw [mem_singleton.1 hm]
      refine ⟨rfl, ch, hch, ?_⟩
      rcases hmay with ⟨hserver, howner⟩ | hadmin
      · exact ⟨hserver.symm, .inl howner⟩
      · obtain ⟨row, hrow, hid, hjid⟩ := Db.isAdmin_iff.1 hadmin
        have hlocal := h row hrow (by rw [hjid]; exact huser) ch (Db.mem_of_getChannel hch).1
          hid.symm
        rw [hjid] at hlocal
        exact ⟨hlocal, .inr hadmin⟩

/-! ### Someone from another domain -/

/-- The address of a channel in a domain. -/
def channelJid (lserver : String) (chId : ℤ) : Jid :=
  ⟨channelPrefix ++ integerToBinary chId, lserver, ""⟩

theorem parseChannelJid_channelJid (lserver : String) (chId : ℤ) :
    parseChannelJid (channelJid lserver chId) = some chId := by
  have hread := binaryToInteger_integerToBinary chId
  have hsplit : (channelPrefix ++ integerToBinary chId).toList.splitAt channelPrefix.length =
      (channelPrefix.toList, (integerToBinary chId).toList) := by
    rw [splitAt_eq, String.toList_append, ← String.length_toList, take_left, drop_left]
  have hne : (integerToBinary chId).toList ≠ [] := by
    intro hnil
    rw [binaryToInteger, hnil] at hread
    cases hread
  rw [parseChannelJid, channelJid, hsplit]
  show (if channelPrefix.toList = channelPrefix.toList ∧ _ then _ else none) = _
  rw [if_pos ⟨rfl, hne⟩, String.ofList_toList, hread]

/-- A message with a text. -/
def textMessage (text : String) : Element := .mk "message" [] [.mk "body" [] [] text] ""

/-- Who has a row among the admins posts by message, wherever the channel is. -/
theorem handle_textMessage (hdb : Sound db) (hch : ch ∈ db.channels) {row : Admin}
    (hrow : row ∈ db.admins) (hid : ch.id = row.channelId) (site : Site) (now : ℕ) :
    (handle site db ⟨now, row.adminJid, .message (channelJid "" ch.id) (textMessage "x")⟩).1 =
    { db with
      messages := db.messages ++ [⟨db.nextMessage, ch.id, row.adminJid, "x", now⟩]
      nextMessage := db.nextMessage + 1 } := by
  have hbare := hdb.adminBare row hrow
  have hadmin : db.isAdmin ch.id row.adminJid = true := Db.isAdmin_iff.2 ⟨row, hrow, hid.symm, rfl⟩
  have hstore : db.storeMessage ch.id row.adminJid "x" now = some _ :=
    Db.storeMessage_eq_some.2 ⟨⟨⟨ch, hch, rfl⟩, hdb.adminFits row hrow⟩, rfl, rfl⟩
  have hbody : (bodyText (textMessage "x")).filter isValidBody = some "x" := by decide
  show (userSendMessage now row.adminJid _ _ db).1 = _
  rw [userSendMessage, parseChannelJid_channelJid]
  simp only [handleChannelMessage, hdb.getChannel hch, hbare, hadmin, if_true, hbody, hstore]

/-- **Posts come from the right senders** as long as the admins are local. -/
theorem authorised_iff_localAdmins (hdb : Sound db) :
    Authorised site hosted db ↔ LocalAdmins hosted db := by
  constructor
  · intro h row hrow huser ch hch hid
    have hstored := handle_textMessage hdb hch hrow hid site 0
    have hposts := h.posts ⟨0, row.adminJid, .message (channelJid "" ch.id) (textMessage "x")⟩
      huser ⟨db.nextMessage, ch.id, row.adminJid, "x", 0⟩
    rw [hstored] at hposts
    have hnew : (⟨db.nextMessage, ch.id, row.adminJid, "x", 0⟩ : Message) ∉ db.messages :=
      fun hmem => lt_irrefl _ (hdb.messageNumbered _ hmem)
    obtain ⟨-, ch', hch', hserver, -⟩ := hposts (mem_append_right _ (mem_singleton.2 rfl)) hnew
    rw [hdb.getChannel hch, Option.some_inj] at hch'
    rw [hch']
    exact hserver
  · intro h
    exact ⟨fun e huser m => h.posts (handle_lawful hdb e).change huser,
      fun now user chId subEl recipient packet huser => h.samePaths hdb huser⟩

/-! ### Runs -/

theorem handle_of_promotion (h : promotion site e = some (chId, jid))
    (howner : ensureOwner e.user chId db = .ok ()) :
    (handle site db e).1 = db.addAdmin chId jid .admin e.now := by
  obtain ⟨subEl, he, hname, hid, hjid⟩ := promotion_eq_some.1 h
  have hiq : handleIq site e.now (some .set) e.user subEl db =
      handleRoleChange site e.now e.user subEl .promote db := by
    unfold handleIq
    rw [hname]
    rfl
  rw [handle, he]
  simp only [hiq, handleRoleChange, hid, howner, onTarget, hjid, bind, Except.bind]

theorem exists_row_addAdmin (hch : ch ∈ db.channels) (hfits : fits 500 jid) (now : ℕ) :
    ∃ row ∈ (db.addAdmin ch.id jid .admin now).admins,
    row.channelId = ch.id ∧ row.adminJid = jid := by
  rw [Db.addAdmin, Db.adminInsert]
  by_cases hfree : ∀ row ∈ db.admins, ¬ (row.channelId = ch.id ∧ row.adminJid = jid)
  · rw [if_pos ⟨⟨ch, hch, rfl⟩, hfits, hfree⟩]
    exact ⟨_, mem_append_right _ (mem_singleton.2 rfl), rfl, rfl⟩
  · rw [if_neg fun h => hfree h.2.2]
    push Not at hfree
    exact hfree

theorem channels_addAdmin : (db.addAdmin chId jid role now).channels = db.channels := by
  rw [Db.addAdmin, Db.adminInsert]
  split <;> rfl

/-- The admins stay local as long as those are who are promoted. -/
theorem LocalAdmins.change (h : LocalAdmins hosted db) (hdb : Sound db)
    (hchange : Change site e db db') (hlocal : LocalPromotion site hosted db e) :
    LocalAdmins hosted db' := by
  cases hchange with
  | nothing => exact h
  | create hcreate =>
    obtain ⟨rfl, -, rfl⟩ := Db.createChannel_eq_some hcreate
    intro row hrow huser ch hch hid
    rcases mem_append.1 hrow with hrow | hrow <;> rcases mem_append.1 hch with hch | hch
    · exact h row hrow huser ch hch hid
    · -- a row that was there is of a channel that was there
      obtain ⟨ch', hch', hid'⟩ := hdb.admins row hrow
      have hlt := hdb.numbered ch' hch'
      rw [hid', ← hid, mem_singleton.1 hch] at hlt
      exact absurd hlt (lt_irrefl _)
    · have hlt := hdb.numbered ch hch
      rw [hid, mem_singleton.1 hrow] at hlt
      exact absurd hlt (lt_irrefl _)
    · rw [mem_singleton.1 hrow, mem_singleton.1 hch]
      rfl
  | update _ =>
    obtain ⟨f, hf, heq⟩ := Db.updateChannel_eq _ _ db
    rw [heq]
    intro row hrow huser ch' hch' hid
    obtain ⟨ch, hch, rfl⟩ := mem_map.1 hch'
    rw [(hf ch).1] at hid
    rw [(hf ch).2.1]
    exact h row hrow huser ch hch hid
  | delete _ =>
    intro row hrow huser ch hch hid
    exact h row (mem_filter.1 hrow).1 huser ch (mem_filter.1 hch).1 hid
  | subscribe =>
    rw [Db.subscribe]
    split <;> exact h
  | unsubscribe => exact h
  | @promote chId jid hpromotion howner =>
    intro row hrow huser ch hch hid
    rw [channels_addAdmin] at hch
    by_cases hold : row ∈ db.admins
    · exact h row hold huser ch hch hid
    · rw [Db.addAdmin] at hrow
      cases hinsert : Db.adminInsert chId jid .admin e.now db with
      | none =>
        rw [hinsert] at hrow
        exact absurd hrow hold
      | some db' =>
        rw [hinsert] at hrow
        obtain ⟨⟨-, hfits, -⟩, rfl⟩ := Db.adminInsert_eq_some.1 hinsert
        have hrow := (mem_append.1 hrow).resolve_left hold
        rw [mem_singleton] at hrow
        subst hrow
        obtain ⟨ch', hch', hserver, -⟩ := ensureOwner_eq_ok.1 howner
        have hid : ch.id = chId := hid
        rw [← hid, hdb.getChannel hch, Option.some_inj] at hch'
        rw [hch', hserver]
        exact hlocal chId jid hpromotion howner hfits huser
  | demote _ =>
    intro row hrow
    exact h row (mem_filter.1 hrow).1
  | post _ _ hstore =>
    obtain ⟨-, rfl, -⟩ := Db.storeMessage_eq_some.1 hstore
    exact h

/-- A request keeps the admins local exactly when it promotes nobody from elsewhere. -/
theorem localAdmins_step_iff (hdb : Sound db) (h : LocalAdmins hosted db) :
    LocalAdmins hosted (handle site db e).1 ↔ LocalPromotion site hosted db e := by
  refine ⟨fun h' chId jid hpromotion howner hfits huser => ?_,
    h.change hdb (handle_lawful hdb e).change⟩
  obtain ⟨ch, hch, hserver, -⟩ := ensureOwner_eq_ok.1 howner
  obtain ⟨hmem, rfl⟩ := Db.mem_of_getChannel hch
  rw [handle_of_promotion hpromotion howner] at h'
  obtain ⟨row, hrow, hid, rfl⟩ := exists_row_addAdmin hmem hfits e.now
  rw [← hserver]
  exact h' row hrow huser ch (by rw [channels_addAdmin]; exact hmem) hid.symm

/-- **Channel authorisation.** All along every run owners have rows, only they change admins,
private channels are shown to members only, and deleted channels leave nothing; posts are right by
both paths exactly if no owner promotes a user of another domain. -/
theorem authorised_iff (site : Site) (hosted : String → Prop) (es : List Event) :
    (∀ db, run (step site) {} es = some db → Correct site db) ∧
    (Guarded (step site) (LocalPromotion site hosted) {} es ↔
      ∀ h db, h <+: es → run (step site) {} h = some db → Authorised site hosted db) := by
  have hsound : ∀ h db, run (step site) {} h = some db → Sound db := by
    intro h db hrun
    exact run_induction (P := fun _ db => Sound db) (fun _ _ _ _ hdb hstep => hdb.step hstep)
      sound_empty hrun
  refine ⟨fun db hrun => (hsound es db hrun).correct, ?_⟩
  have hempty : LocalAdmins hosted {} := nofun
  have hguard : Guarded (step site) (LocalPromotion site hosted) {} es ↔
      ∀ h db, h <+: es → run (step site) {} h = some db → LocalAdmins hosted db := by
    refine guarded_iff_holds_along_of_invariant (I := Sound) (fun s e _ _ _ => ⟨_, rfl⟩)
      (fun s e s' hs _ hstep _ => hs.step hstep) ?_ sound_empty hempty es
    intro s e s' hs hlocal hstep
    cases hstep
    exact localAdmins_step_iff hs hlocal
  rw [hguard]
  exact forall_congr' fun h => forall_congr' fun db => forall_congr' fun _ =>
    forall_congr' fun hrun => (authorised_iff_localAdmins (hsound h db hrun)).symm

/-! ### A post from another domain -/

/-- An address of the other domain. -/
def exampleSite : Site where
  fromBinary text := if text = "bob@there" then some ⟨"bob", "there", ""⟩ else none
  lowercase := id
  like _ _ := false

def alice : Jid := ⟨"alice", "here", "phone"⟩

def bob : Jid := ⟨"bob", "there", "phone"⟩

/-- Alice has a private channel and promotes Bob. -/
def exampleRun : List Event :=
  [⟨1, alice, .iq (some .set)
      (.mk "create" [("handle", "news"), ("name", "News"), ("type", "private")] [] "")⟩,
    ⟨2, alice, .iq (some .set) (.mk "promote" [("id", "1"), ("jid", "bob@there")] [] "")⟩]

/-- **An admin from another domain posts by message**, to an address of a channel in yet another
one, but not by IQ. -/
theorem posts_from_elsewhere : ∃ db ∈ run (step exampleSite) {} exampleRun,
    (handle exampleSite db ⟨3, bob, .message (channelJid "nowhere" 1) (textMessage "x")⟩ =
      ({ db with messages := [⟨1, 1, bob.toBare, "x", 3⟩], nextMessage := 2 }, .accepted) ∧
    handle exampleSite db ⟨3, bob, .iq (some .set)
        (.mk "post" [("id", "1")] [.mk "body" [] [] "x"] "")⟩ = (db, .error .forbidden)) ∧
    ¬ Authorised exampleSite (fun lserver => lserver ∈ ["here", "there"]) db := by
  let db : Db :=
    { channels := [⟨1, "here", alice.toBare, "news", "News", "", .privateChannel, 1⟩]
      admins := [⟨1, alice.toBare, .owner, 1⟩, ⟨1, bob.toBare, .admin, 2⟩]
      nextChannel := 2 }
  have hrun : run (step exampleSite) {} exampleRun = some db := by decide +kernel
  have hsound : Sound db :=
    run_induction (P := fun _ db => Sound db) (fun _ _ _ _ hdb hstep => hdb.step hstep)
      sound_empty hrun
  refine ⟨db, hrun, ?_, ?_⟩
  · decide +kernel
  · rw [authorised_iff_localAdmins hsound]
    intro h
    have := h ⟨1, bob.toBare, .admin, 2⟩ (by decide) ⟨by decide, by decide⟩ _ mem_cons_self rfl
    revert this
    decide

end MongooseIM.Channels
