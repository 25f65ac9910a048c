import MongooseIM.Relational.Keyset
import MongooseIM.Xmpp.Stanza

/-! # The tables of channels

`mod_channel_rdbms` with the tables of `pg.sql`: the channels, their admins (the owner among them),
their subscribers and their messages. The rows of the last three refer to a channel and go with it.
The bare addresses of users stand for their texts. -/

namespace MongooseIM.Channels

open Xmpp

/-- `channel_type` -/
inductive ChannelType
  | publicChannel
  | privateChannel
  deriving DecidableEq

/-- A row of `channels`. -/
structure Channel where
  id : ℤ
  server : String
  owner : Jid
  handle : String
  name : String
  description : String
  channelType : ChannelType
  createdAt : ℕ
  deriving DecidableEq

/-- The column `role`. -/
inductive Role
  | owner
  | admin
  deriving DecidableEq

/-- A row of `channel_admins`. -/
structure Admin where
  channelId : ℤ
  adminJid : Jid
  role : Role
  addedAt : ℕ
  deriving DecidableEq

/-- A row of `channel_subscribers`. -/
structure Subscriber where
  channelId : ℤ
  subscriberJid : Jid
  joinedAt : ℕ
  deriving DecidableEq

/-- A row of `channel_messages`. -/
structure Message where
  id : ℤ
  channelId : ℤ
  senderJid : Jid
  body : String
  sentAt : ℕ
  deriving DecidableEq

structure Db where
  channels : List Channel := []
  admins : List Admin := []
  subscribers : List Subscriber := []
  messages : List Message := []
  /-- The sequence of `channels.id`. -/
  nextChannel : ℤ := 1
  /-- The sequence of `channel_messages.id`. -/
  nextMessage : ℤ := 1
  deriving DecidableEq

/-- What the text of an address has to fit into. -/
def fits (n : ℕ) (j : Jid) : Prop := j.toBinary.length ≤ n

instance (n : ℕ) (j : Jid) : Decidable (fits n j) := inferInstanceAs (Decidable (_ ≤ _))

namespace Db

variable (chId : ℤ) (db : Db)

/-- `get_channel/2` -/
def getChannel : Option Channel := db.channels.find? (·.id = chId)

/-- `get_channel_by_handle/3` -/
def getChannelByHandle (server handle : String) (db : Db) : Option Channel :=
  db.channels.find? fun ch => ch.server = server ∧ ch.handle = handle

variable (jid : Jid)

/-- `channel_admin_insert` -/
def adminInsert (role : Role) (now : ℕ) (db : Db) : Option Db :=
  if (∃ ch ∈ db.channels, ch.id = chId) ∧ fits 500 jid ∧
      ∀ row ∈ db.admins, ¬ (row.channelId = chId ∧ row.adminJid = jid) then
    some { db with admins := db.admins ++ [⟨chId, jid, role, now⟩] }
  else none

variable (server : String)

/-- `create_channel/7`, `none` for a transaction that is aborted. That it uses up a number of the
sequence is left out. -/
def createChannel (owner : Jid) (handle name description : String)
    (channelType : ChannelType) (now : ℕ) (db : Db) : Option (Db × ℤ) :=
  if server.length ≤ 250 ∧ fits 250 owner ∧ handle.length ≤ 64 ∧ name.length ≤ 250 ∧
      description.length ≤ 2000 ∧
      ∀ ch ∈ db.channels, ¬ (ch.server = server ∧ ch.handle = handle) then
    let chId := db.nextChannel
    let channel := ⟨chId, server, owner, handle, name, description, channelType, now⟩
    (adminInsert chId owner .owner now
      { db with channels := db.channels ++ [channel], nextChannel := chId + 1 }).map (·, chId)
  else none

/-- An update of `update_channel/3`. -/
inductive Update
  | name (name : String)
  | description (description : String)
  | channelType (channelType : ChannelType)

/-- The channel with an update. -/
def Update.apply (ch : Channel) : Update → Channel
  | .name value => { ch with name := value }
  | .description value => { ch with description := value }
  | .channelType value => { ch with channelType := value }

/-- Whether the new value fits into its column. -/
def Update.fits : Update → Prop
  | .name value => value.length ≤ 250
  | .description value => value.length ≤ 2000
  | .channelType _ => True

instance : DecidablePred Update.fits
  | .name _ => inferInstanceAs (Decidable (_ ≤ _))
  | .description _ => inferInstanceAs (Decidable (_ ≤ _))
  | .channelType _ => inferInstanceAs (Decidable True)

/-- `apply_update/4`, `none` for an error -/
def applyUpdate (update : Update) (db : Db) : Option Db :=
  if update.fits then
    some { db with channels := db.channels.map fun ch => if ch.id = chId then update.apply ch else ch }
  else none

/-- `update_channel/3`: one statement for each update, up to one that fails. -/
def updateChannel (chId : ℤ) : List Update → Db → Db × Bool
  | [], db => (db, true)
  | update :: updates, db =>
    match applyUpdate chId update db with
    | some db => updateChannel chId updates db
    | none => (db, false)

/-- `delete_channel/2`: what refers to the channel goes with it. -/
def deleteChannel : Db :=
  { db with
    channels := db.channels.filter (·.id ≠ chId)
    admins := db.admins.filter (·.channelId ≠ chId)
    subscribers := db.subscribers.filter (·.channelId ≠ chId)
    messages := db.messages.filter (·.channelId ≠ chId) }

/-- `add_admin/5`, whose error nobody reads -/
def addAdmin (role : Role) (now : ℕ) (db : Db) : Db :=
  (adminInsert chId jid role now db).getD db

variable (db : Db)

/-- `remove_admin/3`, not for the owner -/
def removeAdmin : Db :=
  { db with admins := db.admins.filter fun row =>
      ¬ (row.channelId = chId ∧ row.adminJid = jid ∧ row.role ≠ .owner) }

/-- `list_admins/2` -/
def listAdmins : List (Jid × Role) :=
  (Keyset.ascending Admin.addedAt (db.admins.filter (·.channelId = chId))).map
    fun row => (row.adminJid, row.role)

/-- `is_admin/3` -/
def isAdmin : Bool :=
  db.admins.any fun row => row.channelId = chId ∧ row.adminJid = jid

/-- `subscribe/3`, `none` for `already_subscribed`, which stands for every error -/
def subscribe (now : ℕ) (db : Db) : Option Db :=
  if (∃ ch ∈ db.channels, ch.id = chId) ∧ fits 500 jid ∧
      ∀ row ∈ db.subscribers, ¬ (row.channelId = chId ∧ row.subscriberJid = jid) then
    some { db with subscribers := db.subscribers ++ [⟨chId, jid, now⟩] }
  else none

/-- `unsubscribe/3` -/
def unsubscribe : Db :=
  { db with subscribers := db.subscribers.filter fun row =>
      ¬ (row.channelId = chId ∧ row.subscriberJid = jid) }

/-- `is_subscriber/3` -/
def isSubscriber : Bool :=
  db.subscribers.any fun row => row.channelId = chId ∧ row.subscriberJid = jid

/-- The subscribers of a channel by the time they joined; rows of one time stand in the order of
the table here. -/
def subscribersOf : List Subscriber :=
  Keyset.ascending Subscriber.joinedAt (db.subscribers.filter (·.channelId = chId))

/-- `list_subscribers/4` -/
def listSubscribers (offset limit : ℕ) (db : Db) : List Jid :=
  (((subscribersOf chId db).drop offset).take limit).map Subscriber.subscriberJid

/-- `count_subscribers/2` -/
def countSubscribers : ℕ :=
  (db.subscribers.filter (·.channelId = chId)).length

/-- `list_subscribed_channels/3` -/
def listSubscribedChannels (jid : Jid) (db : Db) : List Channel :=
  (Keyset.descending Subscriber.joinedAt (db.subscribers.filter (·.subscriberJid = jid))).flatMap
    fun row => db.channels.filter fun ch => ch.id = row.channelId ∧ ch.server = server

/-- `list_admin_channels/3` -/
def listAdminChannels (jid : Jid) (db : Db) : List Channel :=
  Keyset.descending Channel.createdAt (db.channels.filter fun ch =>
    ch.server = server ∧ db.admins.any fun row => row.channelId = ch.id ∧ row.adminJid = jid)

/-- `store_message/4`, with `none` for an error, on which it crashes -/
def storeMessage (sender : Jid) (body : String) (now : ℕ) (db : Db) : Option (Db × ℤ) :=
  if (∃ ch ∈ db.channels, ch.id = chId) ∧ fits 500 sender then
    some ({ db with
      messages := db.messages ++ [⟨db.nextMessage, chId, sender, body, now⟩]
      nextMessage := db.nextMessage + 1 }, db.nextMessage)
  else none

/-- `fetch_history/4`: no limit on the numbers is the largest number. -/
def fetchHistory (chId before : ℤ) (limit : ℕ) (db : Db) : List Message :=
  let beforeArg := if before = 0 then 9223372036854775807 else before
  (Keyset.descending Message.id (db.messages.filter fun m =>
    m.channelId = chId ∧ m.id < beforeArg)).take limit

/-- `search_channels/4`, with the operator `LIKE` of the database -/
def searchChannels (like : String → String → Bool) (server query : String) (limit : ℕ) (db : Db) :
    List Channel :=
  let pattern := "%" ++ query ++ "%"
  (Keyset.descending Channel.createdAt (db.channels.filter fun ch =>
    ch.server = server ∧ ch.channelType = .publicChannel ∧
      (like ch.handle pattern ∨ like ch.name pattern))).take limit

variable {chId msgId : ℤ} {jid : Jid} {role : Role} {now : ℕ} {db db' : Db} {ch : Channel}

theorem mem_of_getChannel (h : db.getChannel chId = some ch) : ch ∈ db.channels ∧ ch.id = chId :=
  ⟨List.mem_of_find?_eq_some h, by simpa using List.find?_some h⟩

theorem exists_getChannel (h : ∃ ch ∈ db.channels, ch.id = chId) :
    ∃ ch, db.getChannel chId = some ch := by
  obtain ⟨ch, hch, hid⟩ := h
  exact Option.isSome_iff_exists.1 (List.find?_isSome.2 ⟨ch, hch, by simpa using hid⟩)

theorem isAdmin_iff :
    db.isAdmin chId jid = true ↔ ∃ row ∈ db.admins, row.channelId = chId ∧ row.adminJid = jid := by
  simp [isAdmin]

theorem isSubscriber_iff : db.isSubscriber chId jid = true ↔
    ∃ row ∈ db.subscribers, row.channelId = chId ∧ row.subscriberJid = jid := by
  simp [isSubscriber]

/-- A row is added for a channel that is there, and for an address that has none yet. -/
theorem adminInsert_eq_some : adminInsert chId jid role now db = some db' ↔
    ((∃ ch ∈ db.channels, ch.id = chId) ∧ fits 500 jid ∧
      ∀ row ∈ db.admins, ¬ (row.channelId = chId ∧ row.adminJid = jid)) ∧
    { db with admins := db.admins ++ [⟨chId, jid, role, now⟩] } = db' := by
  rw [adminInsert, Option.ite_none_right_eq_some, Option.some_inj]

/-- A channel that is created comes with the row of its owner. -/
theorem createChannel_eq_some {server handle name description : String} {owner : Jid}
    {channelType : ChannelType}
    (h : createChannel server owner handle name description channelType now db = some (db', chId)) :
    chId = db.nextChannel ∧ fits 500 owner ∧ db' = { db with
      channels := db.channels ++
        [⟨chId, server, owner, handle, name, description, channelType, now⟩]
      admins := db.admins ++ [⟨chId, owner, .owner, now⟩]
      nextChannel := chId + 1 } := by
  rw [createChannel, Option.ite_none_right_eq_some, Option.map_eq_some_iff] at h
  obtain ⟨-, db'', hinsert, heq⟩ := h
  cases heq
  obtain ⟨⟨-, hfits, -⟩, rfl⟩ := adminInsert_eq_some.1 hinsert
  exact ⟨rfl, hfits, rfl⟩

/-- A post is a new row with the next number. -/
theorem storeMessage_eq_some {body : String} :
    storeMessage chId jid body now db = some (db', msgId) ↔
    ((∃ ch ∈ db.channels, ch.id = chId) ∧ fits 500 jid) ∧
      { db with
        messages := db.messages ++ [⟨db.nextMessage, chId, jid, body, now⟩]
        nextMessage := db.nextMessage + 1 } = db' ∧ db.nextMessage = msgId := by
  rw [storeMessage, Option.ite_none_right_eq_some, Option.some_inj, Prod.mk.injEq]

/-- Updates leave the number, the server and the owner of every channel. -/
theorem updateChannel_eq (chId : ℤ) (updates : List Update) (db : Db) : ∃ f : Channel → Channel,
    (∀ ch, (f ch).id = ch.id ∧ (f ch).server = ch.server ∧ (f ch).owner = ch.owner) ∧
      (updateChannel chId updates db).1 = { db with channels := db.channels.map f } := by
  induction updates generalizing db with
  | nil => exact ⟨id, fun ch => ⟨rfl, rfl, rfl⟩, by rw [List.map_id]; rfl⟩
  | cons update updates ih =>
    rw [updateChannel, applyUpdate]
    by_cases hfits : update.fits
    · rw [if_pos hfits]
      obtain ⟨f, hf, hdb⟩ := ih { db with
        channels := db.channels.map fun ch => if ch.id = chId then update.apply ch else ch }
      refine ⟨fun ch => f (if ch.id = chId then update.apply ch else ch), ?_, ?_⟩
      · intro ch
        have hupdate : (update.apply ch).id = ch.id ∧ (update.apply ch).server = ch.server ∧
            (update.apply ch).owner = ch.owner := by
          cases update <;> exact ⟨rfl, rfl, rfl⟩
        obtain ⟨hid, hserver, howner⟩ := hf (if ch.id = chId then update.apply ch else ch)
        rw [hid, hserver, howner]
        split
        · exact hupdate
        · exact ⟨rfl, rfl, rfl⟩
      · show (updateChannel chId updates _).1 = _
        rw [hdb, List.map_map]
        rfl
    · rw [if_neg hfits]
      exact ⟨id, fun ch => ⟨rfl, rfl, rfl⟩, by rw [List.map_id]⟩

end Db

end MongooseIM.Channels
