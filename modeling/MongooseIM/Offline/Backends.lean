import MongooseIM.Erlang.Lists
import MongooseIM.Relational.Columns
import MongooseIM.Xmpp.Stanza

/-! # Offline messages

The messages that `mod_offline` keeps, and the two backends that keep them: `mod_offline_mnesia`,
with the records in a bag, and `mod_offline_rdbms`, with the rows of the table `offline_message`. -/

namespace MongooseIM.Offline

open Erlang Relational Xmpp

variable {Packet Field : Type}

/-- `#offline_msg{}` -/
structure OfflineMsg (Packet Field : Type) where
  us : String × String
  timestamp : ℤ
  /-- `none` for `never`. -/
  expire : Option ℤ
  sender : Jid
  receiver : Jid
  packet : Packet
  permanentFields : List Field
  deriving DecidableEq

namespace OfflineMsg

/-- `is_expired_message/2` -/
def isExpired (timeStamp : ℤ) (m : OfflineMsg Packet Field) : Bool := m.expire.any (· < timeStamp)

/-- The message with all its fields but `expire`. -/
def withoutExpire (m : OfflineMsg Packet Field) : OfflineMsg Packet Field :=
  { m with expire := none }

theorem isExpired_eq_false_iff {timeStamp : ℤ} {m : OfflineMsg Packet Field} :
    m.isExpired timeStamp = false ↔ ∀ e, m.expire = some e → timeStamp ≤ e := by
  unfold isExpired
  cases m.expire <;> simp

end OfflineMsg

/-- `skip_expired_messages/2` -/
def skipExpiredMessages (timeStamp : ℤ) (l : List (OfflineMsg Packet Field)) :
    List (OfflineMsg Packet Field) :=
  l.filter fun m => !m.isExpired timeStamp

/-- What `mod_offline:pop_messages/2` makes of the messages that the backend returns. -/
def deliver (timeStamp : ℤ) (l : List (OfflineMsg Packet Field)) : List (OfflineMsg Packet Field) :=
  skipExpiredMessages timeStamp (keysort OfflineMsg.timestamp l)

/-! ## Mnesia -/

namespace Mnesia

/-- `mnesia:write/1` into a bag: a record that is there is not written again. -/
def write [DecidableEq Packet] [DecidableEq Field] (table : List (OfflineMsg Packet Field))
    (m : OfflineMsg Packet Field) : List (OfflineMsg Packet Field) :=
  if m ∈ table then table else table ++ [m]

/-- `write_messages/4` -/
def writeMessages [DecidableEq Packet] [DecidableEq Field]
    (msgs table : List (OfflineMsg Packet Field)) : List (OfflineMsg Packet Field) :=
  msgs.foldl write table

variable (us : String × String) (table : List (OfflineMsg Packet Field))

/-- `pop_messages/2`: the messages and the table without them. -/
def popMessages : List (OfflineMsg Packet Field) × List (OfflineMsg Packet Field) :=
  (table.filter (·.us = us), table.filter (·.us ≠ us))

/-- `remove_expired_messages/2` at a time -/
def removeExpiredMessages (lserver : String) (timeStamp : ℤ)
    (table : List (OfflineMsg Packet Field)) : List (OfflineMsg Packet Field) :=
  table.filter fun m => !(m.us.2 = lserver && m.isExpired timeStamp)

/-- `remove_old_messages/3` -/
def removeOldMessages (lserver : String) (timeStamp : ℤ)
    (table : List (OfflineMsg Packet Field)) : List (OfflineMsg Packet Field) :=
  table.filter fun m => !(m.us.2 = lserver && m.timestamp < timeStamp)

/-- `remove_user/3` -/
def removeUser : List (OfflineMsg Packet Field) :=
  table.filter (·.us ≠ us)

end Mnesia

/-! ## RDBMS -/

/-- A row of `offline_message`, `none` for a null. -/
structure Row where
  username : String
  server : String
  timestamp : ℤ
  expire : Option ℤ
  fromJid : String
  packet : String
  permanentFields : Option String
  deriving DecidableEq

/-- The columns of `offline_message` can hold a row. -/
def Row.Fits (row : Row) : Prop :=
  FitsColumns (row.server, row.username) ∧ Varchar 250 row.fromJid ∧ Int64 row.timestamp ∧
    ∀ expire ∈ row.expire, Int64 expire

instance : DecidablePred Row.Fits := fun _ => inferInstanceAs (Decidable (_ ∧ _))

/-- The codecs of the fields. -/
structure Codec (Packet Field : Type) where
  lib : Library
  /-- `exml:to_binary/1` -/
  toBinary : Packet → String
  /-- `exml:parse/1` -/
  parse : String → Option Packet
  termToBinary : List Field → String
  binaryToTerm : String → Option (List Field)

/-- What is encoded is read back. -/
structure Codec.Lawful (codec : Codec Packet Field) : Prop where
  parse : ∀ packet, codec.parse (codec.toBinary packet) = some packet
  binaryToTerm : ∀ fields, codec.binaryToTerm (codec.termToBinary fields) = some fields

/-- `ORDER BY timestamp`: in which order rows with the same time come is left to the database. -/
structure OrdersByTimestamp (orderBy : List Row → List Row) : Prop where
  perm : ∀ rows, (orderBy rows).Perm rows
  sorted : ∀ rows, (orderBy rows).Pairwise fun a b => a.timestamp ≤ b.timestamp

namespace Rdbms

variable (codec : Codec Packet Field)

/-- `record_to_row/3` -/
def recordToRow (m : OfflineMsg Packet Field) : Row where
  username := m.us.1
  server := m.us.2
  timestamp := m.timestamp
  expire := m.expire
  fromJid := m.sender.toBinary
  packet := codec.toBinary m.packet
  permanentFields := some (codec.termToBinary m.permanentFields)

/-- `extract_permanent_fields/1` -/
def extractPermanentFields : Option String → Option (List Field)
  | none => some []
  | some fields => codec.binaryToTerm fields

variable (us : String × String)

/-- `row_to_record/3`, `none` where a field is not readable -/
def rowToRecord (receiver : Jid) (row : Row) : Option (OfflineMsg Packet Field) := do
  let packet ← codec.parse row.packet
  let sender ← codec.lib.fromBinary row.fromJid
  let permanentFields ← extractPermanentFields codec row.permanentFields
  return { us, timestamp := row.timestamp, expire := none, sender, receiver, packet,
           permanentFields }

/-- `offline_insert`, `none` when it fails. -/
def insert (rows : List Row) (m : OfflineMsg Packet Field) : Option (List Row) :=
  if (recordToRow codec m).Fits then some (rows ++ [recordToRow codec m]) else none

/-- `write_messages/4`, `none` for an error: one row that does not fit aborts the transaction. -/
def writeMessages (msgs : List (OfflineMsg Packet Field)) (rows : List Row) : Option (List Row) :=
  msgs.foldlM (insert codec) rows

/-- The condition of the query `offline_select`. -/
def selected (extTimeStamp : ℤ) (row : Row) : Bool :=
  row.server = us.2 && row.username = us.1 && row.expire.all (extTimeStamp < ·)

/-- `offline_delete` -/
def delete (rows : List Row) : List Row :=
  rows.filter fun row => !(row.server = us.2 && row.username = us.1)

/-- `pop_messages/2` at a time: the messages and the table without them. -/
def popMessages (orderBy : List Row → List Row) (receiver : Jid) (extTimeStamp : ℤ)
    (rows : List Row) : Option (List (OfflineMsg Packet Field)) × List Row :=
  let us := (receiver.luser, receiver.lserver)
  ((orderBy (rows.filter (selected us extTimeStamp))).mapM (rowToRecord codec us receiver),
    delete us rows)

/-- `remove_expired_messages/2` at a time -/
def removeExpiredMessages (lserver : String) (timeStamp : ℤ) (rows : List Row) : List Row :=
  rows.filter fun row => !(row.server = lserver && row.expire.any (· < timeStamp))

/-- `remove_old_messages/3` -/
def removeOldMessages (lserver : String) (timeStamp : ℤ) (rows : List Row) : List Row :=
  rows.filter fun row => !(row.server = lserver && row.timestamp < timeStamp)

/-- `remove_user/3` -/
def removeUser (rows : List Row) : List Row := delete us rows

variable {codec}

/-- A batch whose rows fit is written. -/
theorem writeMessages_eq {msgs : List (OfflineMsg Packet Field)}
    (h : ∀ m ∈ msgs, (recordToRow codec m).Fits) (rows : List Row) :
    writeMessages codec msgs rows = some (rows ++ msgs.map (recordToRow codec)) := by
  induction msgs generalizing rows with
  | nil => simp [writeMessages]
  | cons m msgs ih =>
    obtain ⟨hm, hmsgs⟩ := List.forall_mem_cons.1 h
    rw [writeMessages, List.foldlM_cons, insert, if_pos hm]
    exact (ih hmsgs _).trans (by simp)

/-- A message is read back as one to the address that it is read for, which never expires. -/
theorem rowToRecord_recordToRow (hcodec : codec.Lawful) {m : OfflineMsg Packet Field}
    (hsender : codec.lib.fromBinary m.sender.toBinary = some m.sender) (receiver : Jid) :
    rowToRecord codec m.us receiver (recordToRow codec m) =
    some { m with expire := none, receiver } := by
  simp [rowToRecord, recordToRow, extractPermanentFields, hsender, hcodec.parse,
    hcodec.binaryToTerm]

end Rdbms

end MongooseIM.Offline
