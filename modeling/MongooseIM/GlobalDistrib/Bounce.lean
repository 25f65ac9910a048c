import MongooseIM.GlobalDistrib.FilterPacket

/-! # The bounce storage

`mod_global_distrib_bounce` keeps messages to unknown recipients in two ETS tables that the routing
processes and one resending process change without a lock. -/

namespace MongooseIM.GlobalDistrib.Bounce

open Xmpp

/-- `get_index_key/2`: the lower sender and recipient. -/
def getIndexKey (fpacket : FPacket) : Jid × Jid := (fpacket.sender, fpacket.recipient)

/-- The two ETS tables. -/
structure Tables where
  /-- `?MESSAGE_STORE`, an `ordered_set` with the `ResendAt` as the key. -/
  store : AList fun _ : ℤ => FPacket := ∅
  /-- `?MS_BY_TARGET`, a `bag`. -/
  index : List ((Jid × Jid) × ℤ × FPacket) := []

namespace Tables

variable (tables : Tables) (resendAt : ℤ)

/-- `ets:insert_new/2` in the store; `none` for `false`. -/
def insertNew (fpacket : FPacket) : Option Tables :=
  if resendAt ∈ tables.store then none
  else some { tables with store := tables.store.insert resendAt fpacket }

/-- `add_index/2` -/
def addIndex (fpacket : FPacket) : Tables :=
  let entry := (getIndexKey fpacket, resendAt, fpacket)
  if entry ∈ tables.index then tables else { tables with index := tables.index ++ [entry] }

/-- `delete_index/2` -/
def deleteIndex (fpacket : FPacket) : Tables :=
  { tables with index := tables.index.filter (· ≠ (getIndexKey fpacket, resendAt, fpacket)) }

/-- `ets:take/2` in the index. -/
def takeIndex (key : Jid × Jid) : List (ℤ × FPacket) × Tables :=
  ((tables.index.filter (·.1 = key)).map Prod.snd,
    { tables with index := tables.index.filter (·.1 ≠ key) })

/-- `ets:take/2` in the store: what was there, and the table without it. -/
def takeStore : Option FPacket × Tables :=
  (tables.store.lookup resendAt, { tables with store := tables.store.erase resendAt })

/-- `ets:first/1` of the store; `none` for `'$end_of_table'`. -/
def first : Option ℤ := tables.store.keys.min?

end Tables

/-! ## The functions between two operations -/

/-- A call of `maybe_store_message/3` or `reroute_messages/3` in progress. -/
inductive Call
  /-- `do_insert_in_store/2` before `ets:insert_new`. -/
  | inserting (resendAt : ℤ) (fpacket : FPacket)
  /-- Before `add_index/2`. -/
  | indexing (resendAt : ℤ) (fpacket : FPacket)
  /-- `reroute_messages/3` before the `ets:take` of the index. -/
  | takingIndex (targetHost : String) (key : Jid × Jid)
  /-- In the `filtermap`: the entries still to look up, and the messages found so far. -/
  | takingStore (targetHost : String) (entries : List (ℤ × FPacket)) (storedMessages : List FPacket)
  /-- In the `foreach` of `reroute_message/2`. -/
  | rerouting (targetHost : String) (storedMessages : List FPacket)

/-- The process that runs `resend_messages/1`. -/
inductive Resender
  /-- Waiting for the next `resend`. -/
  | idle
  /-- Before `ets:first`. -/
  | looking (now : ℤ)
  /-- Before the `ets:take` of the store. -/
  | taking (now key : ℤ)
  /-- Before `delete_index/2`. -/
  | deleting (now key : ℤ) (fpacket : FPacket)
  | casting (now : ℤ) (fpacket : FPacket)

/-- The tables, the processes and a record of the messages. -/
structure System where
  tables : Tables := {}
  clock : ℤ := 0
  calls : List Call := []
  resender : Resender := .idle
  stored : List FPacket := []
  /-- The messages that were handed on by rerouting, with the target host. -/
  rerouted : List (String × FPacket) := []
  resent : List FPacket := []

/-- What happens next. -/
inductive Event
  /-- `maybe_store_message/3` is called, and reads the clock. -/
  | maybeStoreMessage (fpacket : FPacket) (now : ℤ)
  /-- `reroute_messages/3` is called. -/
  | rerouteMessages (sender recipient : Jid) (targetHost : String)
  /-- The `resend` message arrives, and the clock is read. -/
  | resend (now : ℤ)
  /-- The next operation of the `i`-th call in progress. -/
  | call (i : ℕ)
  /-- The next operation of `resend_messages/1`. -/
  | resender

namespace System

/-- The `i`-th call goes on as `call`. -/
def goOn (s : System) (i : ℕ) (call : Call) : System := { s with calls := s.calls.set i call }

/-- The `i`-th call has finished. -/
def finish (s : System) (i : ℕ) : System := { s with calls := s.calls.eraseIdx i }

end System

/-- The next operation of a call. -/
def Call.operation (s : System) (i : ℕ) : Call → System
  | .inserting resendAt fpacket =>
    match s.tables.insertNew resendAt fpacket with
    | some tables =>
      { s with tables := tables, stored := s.stored ++ [fpacket] }.goOn i
        (.indexing resendAt fpacket)
    | none => s.goOn i (.inserting (resendAt + 1) fpacket)
  | .indexing resendAt fpacket =>
    { s with tables := s.tables.addIndex resendAt fpacket }.finish i
  | .takingIndex targetHost key =>
    let (entries, tables) := s.tables.takeIndex key
    { s with tables := tables }.goOn i (.takingStore targetHost entries [])
  | .takingStore targetHost ((resendAt, fpacket) :: entries) storedMessages =>
    let (taken, tables) := s.tables.takeStore resendAt
    { s with tables := tables }.goOn i <|
      match taken with
      | some _ => .takingStore targetHost entries (storedMessages ++ [fpacket])
      | none => .takingStore targetHost entries storedMessages
  | .takingStore targetHost [] storedMessages => s.goOn i (.rerouting targetHost storedMessages)
  | .rerouting targetHost (fpacket :: storedMessages) =>
    { s with rerouted := s.rerouted ++ [(targetHost, fpacket)] }.goOn i
      (.rerouting targetHost storedMessages)
  | .rerouting _ [] => s.finish i

/-- The next operation of `resend_messages/1`; `clear_cache/1` concerns other tables. -/
def Resender.operation (s : System) : Resender → Option System
  | .idle => none
  | .looking now =>
    match s.tables.first with
    | some key =>
      if key < now then some { s with resender := .taking now key }
      else some { s with resender := .idle }
    | none => some { s with resender := .idle }
  | .taking now key =>
    let (taken, tables) := s.tables.takeStore key
    match taken with
    | some fpacket => some { s with tables := tables, resender := .deleting now key fpacket }
    | none => some { s with tables := tables, resender := .looking now }
  | .deleting now key fpacket =>
    some { s with
      tables := s.tables.deleteIndex key fpacket
      resender := .casting now fpacket }
  | .casting now fpacket =>
    some { s with resent := s.resent ++ [fpacket], resender := .looking now }

/-- One step of the bounce storage of `localHost`; `resendAfter` is `[bounce, resend_after_ms]` in
the unit of the clock. -/
def step (opts : Opts) (localHost : String) (resendAfter : ℕ) (s : System) : Event → Option System
  | .maybeStoreMessage fpacket now =>
    if now < s.clock then none
    else
      match GlobalDistrib.maybeStoreMessage opts localHost fpacket with
      | .stored fpacket =>
        some { s with
          clock := now
          calls := s.calls ++ [.inserting (now + resendAfter) fpacket] }
      | _ => some s
  | .rerouteMessages sender recipient targetHost =>
    some { s with calls := s.calls ++ [.takingIndex targetHost (sender, recipient)] }
  | .resend now =>
    if now < s.clock then none
    else
      match s.resender with
      | .idle => some { s with clock := now, resender := .looking now }
      | _ => none
  | .call i => s.calls[i]?.map fun call => call.operation s i
  | .resender => s.resender.operation s

end MongooseIM.GlobalDistrib.Bounce
