import MongooseIM.Channels.Storage
import MongooseIM.Erlang.Integers

/-! # The requests of channels

`mod_channel`: the IQs of the namespace `wingtrill:channel` and the messages to the address of a
channel. The process that a post is sent out by is left out here, and so is how a reply is written
as an element. -/

namespace MongooseIM.Channels

open Erlang Xmpp

/-- What comes from elsewhere. -/
structure Site where
  fromBinary : String → Option Jid
  lowercase : String → String
  /-- The operator `LIKE` of the database. -/
  like : String → String → Bool

/-- `safe_reason/1`, less `internal_server_error`, which no backend leads to. -/
inductive Reason
  | forbidden
  | itemNotFound
  | conflict
  | badRequest
  deriving DecidableEq

/-- The attribute `role` of a channel in a list. -/
inductive Affiliation
  | admin
  | subscriber
  | none
  deriving DecidableEq

/-- What a user gets for a request. -/
inductive Reply
  /-- `<query/>` or `<search/>` -/
  | channels (items : List (Channel × Affiliation))
  | channel (ch : Channel)
  | members (chId : ℤ) (total : ℕ) (admins : List (Jid × Role)) (subscribers : List Jid)
  | history (chId : ℤ) (msgs : List Message)
  | posted (chId msgId : ℤ)
  | empty
  | error (reason : Reason)
  /-- A message that is stored, of which the sender hears nothing. -/
  | accepted
  | bounced (reason : Reason)
  | notChannel
  | crash
  deriving DecidableEq

/-! ## Parsing -/

variable (el : Element)

/-- `parse_id/1` -/
def parseId : Except Reason ℤ :=
  match (el.attr? "id").bind binaryToInteger with
  | some chId => .ok chId
  | none => .error .badRequest

/-- `parse_int_attr/3` -/
def parseIntAttr (attr : String) (default : ℤ) : ℤ :=
  ((el.attr? attr).bind binaryToInteger).getD default

variable (type : Option String)

/-- `parse_type/1` -/
def parseType : ChannelType :=
  if type = some "private" then .privateChannel else .publicChannel

/-- `parse_type_optional/1` -/
def parseTypeOptional : Option ChannelType :=
  if type = some "private" then some .privateChannel
  else if type = some "public" then some .publicChannel
  else none

/-- `parse_update_attrs/1` -/
def parseUpdateAttrs : List Db.Update :=
  ((el.attr? "name").map Db.Update.name).toList ++
    ((el.attr? "description").map Db.Update.description).toList ++
      ((parseTypeOptional (el.attr? "type")).map Db.Update.channelType).toList

/-- The prefix of the local part of a channel's address. -/
def channelPrefix : String := "channel."

/-- `parse_channel_jid/1`, which does not look at the domain. -/
def parseChannelJid (recipient : Jid) : Option ℤ :=
  let (pre, idBin) := recipient.luser.toList.splitAt channelPrefix.length
  if pre = channelPrefix.toList ∧ idBin ≠ [] then binaryToInteger (String.ofList idBin) else none

/-- `is_valid_handle/1` -/
def isValidHandle (handle : String) : Bool :=
  3 ≤ handle.utf8ByteSize ∧ handle.utf8ByteSize ≤ 64 ∧
    handle.toList.all fun c => ('a' ≤ c ∧ c ≤ 'z') ∨ ('0' ≤ c ∧ c ≤ '9') ∨ c = '_' ∨ c = '-'

/-- `is_valid_name/1` -/
def isValidName (name : String) : Bool := name ≠ "" ∧ name.utf8ByteSize ≤ 250

/-- `is_valid_body/1` -/
def isValidBody (body : String) : Bool := body ≠ "" ∧ body.utf8ByteSize ≤ 16384

/-- `body_text/1` -/
def bodyText : Option String :=
  (el.children.find? fun child => child.name = "body").map Element.cdata

/-- `bound/3` -/
def bound (n lo hi : ℤ) : ℤ := if n < lo then lo else if n > hi then hi else n

variable (site : Site)

/-- `bare_jid_normalize/1` -/
def bareJidNormalize (target : Option String) : Option Jid :=
  (target.bind site.fromBinary).map Jid.toBare

/-! ## Authorization helpers -/

variable (user : Jid) (chId : ℤ) (db : Db)

/-- `ensure_owner/4` -/
def ensureOwner : Except Reason Unit :=
  match db.getChannel chId with
  | some ch =>
    if ch.server = user.lserver ∧ ch.owner = user.toBare then .ok () else .error .forbidden
  | none => .error .itemNotFound

/-- `ensure_admin/4` -/
def ensureAdmin : Except Reason Role :=
  match db.getChannel chId with
  | some ch =>
    if ch.server = user.lserver ∧ ch.owner = user.toBare then .ok .owner
    else if ch.server = user.lserver then
      if db.isAdmin chId user.toBare then .ok .admin else .error .forbidden
    else .error .forbidden
  | none => .error .itemNotFound

/-- `load_channel_for_member/4`, with the channel only -/
def loadChannelForMember : Except Reason Channel :=
  match db.getChannel chId with
  | some ch =>
    if ch.server = user.lserver ∧ ch.owner = user.toBare then .ok ch
    else if ch.server = user.lserver then
      if db.isAdmin chId user.toBare then .ok ch
      else if db.isSubscriber chId user.toBare then .ok ch
      else match ch.channelType with
        | .publicChannel => .ok ch
        | .privateChannel => .error .forbidden
    else .error .forbidden
  | none => .error .itemNotFound

variable (user : Jid)

/-- `resolve_channel/3` -/
def resolveChannel (el : Element) (db : Db) : Except Reason Channel :=
  match el.attr? "id" with
  | none =>
    match el.attr? "handle" with
    | none => .error .badRequest
    | some handle =>
      match db.getChannelByHandle user.lserver (site.lowercase handle) with
      | some ch => .ok ch
      | none => .error .itemNotFound
  | some idBin =>
    match binaryToInteger idBin with
    | none => .error .badRequest
    | some chId =>
      match db.getChannel chId with
      | some ch => if ch.server = user.lserver then .ok ch else .error .itemNotFound
      | none => .error .itemNotFound

/-! ## IQ handling

An error leaves the tables as they are. -/

/-- `handle_list_mine/3` -/
def handleListMine (db : Db) : Except Reason (Db × Reply) :=
  let adminOf := db.listAdminChannels user.lserver user.toBare
  let subscribed := db.listSubscribedChannels user.lserver user.toBare
  .ok (db, .channels (adminOf.map (·, .admin) ++
    (subscribed.filter fun ch => ¬ adminOf.any (·.id = ch.id)).map (·, .subscriber)))

variable (subEl : Element)

/-- `handle_get_one/3` -/
def handleGetOne (db : Db) : Except Reason (Db × Reply) := do
  let chId ← parseId subEl
  let ch ← loadChannelForMember user chId db
  .ok (db, .channel ch)

variable (now : ℕ)

/-- `handle_create/3` -/
def handleCreate (user : Jid) (subEl : Element) (db : Db) : Except Reason (Db × Reply) :=
  let handle := ((subEl.attr? "handle").map site.lowercase).filter isValidHandle
  let name := (subEl.attr? "name").filter isValidName
  let desc := (subEl.attr? "description").getD ""
  let type := parseType (subEl.attr? "type")
  match handle, name with
  | some handle, some name =>
    match db.createChannel user.lserver user.toBare handle name desc type now with
    | some (db', chId) =>
      match db'.getChannel chId with
      | some ch => .ok (db', .channel ch)
      | none => .ok (db', .crash)
    | none => .error .conflict
  | _, _ => .error .badRequest

/-- `handle_update/3` -/
def handleUpdate (db : Db) : Except Reason (Db × Reply) := do
  let chId ← parseId subEl
  let _ ← ensureAdmin user chId db
  let (db', success) := Db.updateChannel chId (parseUpdateAttrs subEl) db
  .ok (db', if success then .empty else .crash)

/-- `handle_delete/3` -/
def handleDelete (db : Db) : Except Reason (Db × Reply) := do
  let chId ← parseId subEl
  let _ ← ensureOwner user chId db
  .ok (db.deleteChannel chId, .empty)

/-- `handle_join/3` -/
def handleJoin (user : Jid) (subEl : Element) (db : Db) : Except Reason (Db × Reply) := do
  let ch ← resolveChannel site user subEl db
  match ch.channelType with
  | .publicChannel => .ok ((db.subscribe ch.id user.toBare now).getD db, .channel ch)
  | .privateChannel => .error .forbidden

/-- `handle_leave/3` -/
def handleLeave (db : Db) : Except Reason (Db × Reply) := do
  let chId ← parseId subEl
  match db.getChannel chId with
  | some ch =>
    if ch.server = user.lserver then .ok (db.unsubscribe chId user.toBare, .empty)
    else .error .itemNotFound
  | none => .error .itemNotFound

variable (now : ℕ)

/-- `handle_post_iq/3` -/
def handlePostIq (user : Jid) (subEl : Element) (db : Db) : Except Reason (Db × Reply) := do
  let chId ← parseId subEl
  let _ ← ensureAdmin user chId db
  match (bodyText subEl).filter isValidBody with
  | some body =>
    match db.storeMessage chId user.toBare body now with
    | some (db', msgId) => .ok (db', .posted chId msgId)
    | none => .ok (db, .crash)
  | none => .error .badRequest

/-- `handle_history/3` -/
def handleHistory (db : Db) : Except Reason (Db × Reply) := do
  let chId ← parseId subEl
  let _ ← loadChannelForMember user chId db
  let before := parseIntAttr subEl "before" 0
  let limit := bound (parseIntAttr subEl "limit" 50) 1 200
  .ok (db, .history chId (db.fetchHistory chId before limit.toNat))

/-- `handle_members/3` -/
def handleMembers (db : Db) : Except Reason (Db × Reply) := do
  let chId ← parseId subEl
  let _ ← ensureAdmin user chId db
  let offset := max 0 (parseIntAttr subEl "offset" 0)
  let limit := bound (parseIntAttr subEl "limit" 100) 1 500
  .ok (db, .members chId (db.countSubscribers chId) (db.listAdmins chId)
    (db.listSubscribers chId offset.toNat limit.toNat))

/-- `handle_search/3` -/
def handleSearch (subEl : Element) (db : Db) : Except Reason (Db × Reply) :=
  let query := (subEl.attr? "query").getD ""
  let limit := bound (parseIntAttr subEl "limit" 20) 1 50
  .ok (db, .channels
    ((db.searchChannels site.like user.lserver query limit.toNat).map (·, .none)))

/-- The end of the handlers that take an address, which do not look at what the database says. -/
def onTarget (change : Jid → Db) : Except Reason (Db × Reply) :=
  match bareJidNormalize site (subEl.attr? "jid") with
  | some jid => .ok (change jid, .empty)
  | none => .error .badRequest

/-- The two actions of `handle_role_change/4`. -/
inductive Action
  | promote
  | demote

/-- `handle_role_change/4` -/
def handleRoleChange (user : Jid) (subEl : Element) (action : Action)
    (db : Db) : Except Reason (Db × Reply) := do
  let chId ← parseId subEl
  let _ ← ensureOwner user chId db
  onTarget site subEl fun jid =>
    match action with
    | .promote => db.addAdmin chId jid .admin now
    | .demote => db.removeAdmin chId jid

/-- `handle_admin_add/3` -/
def handleAdminAdd (user : Jid) (subEl : Element) (db : Db) : Except Reason (Db × Reply) := do
  let chId ← parseId subEl
  let _ ← ensureAdmin user chId db
  onTarget site subEl fun jid => (db.subscribe chId jid now).getD db

/-- `handle_admin_remove/3` -/
def handleAdminRemove (subEl : Element) (db : Db) : Except Reason (Db × Reply) := do
  let chId ← parseId subEl
  let _ ← ensureAdmin user chId db
  onTarget site subEl fun jid => db.unsubscribe chId jid

/-- `handle_iq/3`, with `none` for the type of an answer -/
def handleIq (type : Option IqType) (user : Jid) (subEl : Element)
    (db : Db) : Except Reason (Db × Reply) :=
  match type with
  | some .get =>
    match subEl.name with
    | "query" => handleListMine user db
    | "get" => handleGetOne user subEl db
    | "history" => handleHistory user subEl db
    | "members" => handleMembers user subEl db
    | "search" => handleSearch site user subEl db
    | _ => .error .badRequest
  | some .set =>
    match subEl.name with
    | "create" => handleCreate site now user subEl db
    | "update" => handleUpdate user subEl db
    | "delete" => handleDelete user subEl db
    | "join" => handleJoin site now user subEl db
    | "leave" => handleLeave user subEl db
    | "post" => handlePostIq now user subEl db
    | "promote" => handleRoleChange site now user subEl .promote db
    | "demote" => handleRoleChange site now user subEl .demote db
    | "add" => handleAdminAdd site now user subEl db
    | "remove" => handleAdminRemove site user subEl db
    | _ => .error .badRequest
  | none => .error .badRequest

/-! ## Message handling -/

/-- `handle_channel_message/5` -/
def handleChannelMessage (user : Jid) (chId : ℤ) (packet : Element) (db : Db) : Db × Reply :=
  match db.getChannel chId with
  | some _ =>
    if db.isAdmin chId user.toBare then
      match (bodyText packet).filter isValidBody with
      | some body =>
        match db.storeMessage chId user.toBare body now with
        | some (db', _) => (db', .accepted)
        | none => (db, .crash)
      | none => (db, .bounced .badRequest)
    else (db, .bounced .forbidden)
  | none => (db, .bounced .itemNotFound)

/-- `user_send_message/3` -/
def userSendMessage (user recipient : Jid) (packet : Element) (db : Db) : Db × Reply :=
  match parseChannelJid recipient with
  | some chId => handleChannelMessage now user chId packet db
  | none => (db, .notChannel)

/-! ## Requests -/

/-- What a user sends: an IQ with an element of the namespace, or a message. -/
inductive Request
  | iq (type : Option IqType) (subEl : Element)
  | message (recipient : Jid) (packet : Element)

/-- A request of a user at a time. -/
structure Event where
  now : ℕ
  user : Jid
  request : Request

/-- The tables after a request, and what the user gets. -/
def handle (e : Event) : Db × Reply :=
  match e.request with
  | .iq type subEl =>
    match handleIq site e.now type e.user subEl db with
    | .ok result => result
    | .error reason => (db, .error reason)
  | .message recipient packet => userSendMessage e.now e.user recipient packet db

/-- A step of the tables. -/
def step (e : Event) : Option Db := some (handle site db e).1

end MongooseIM.Channels
