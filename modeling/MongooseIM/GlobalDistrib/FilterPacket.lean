import MongooseIM.GlobalDistrib.Metadata

/-! # Routing a message between clusters

`mod_global_distrib:filter_packet/3` decides in which cluster a message is delivered, with the
functions of `mod_global_distrib_bounce` and `mongoose_c2s` that bring a message back to the router. -/

namespace MongooseIM.GlobalDistrib

open Xmpp

/-- The options of the module on a host. -/
structure Opts where
  globalHost : String
  messageTtl : ℕ := 4
  bounceEnabled : Bool := true
  /-- `[bounce, max_retries]` -/
  maxRetries : ℕ := 4

/-- What `mod_global_distrib_mapping` answers at some time; `none` for `error`. -/
structure Mapping where
  forJid : Jid → Option String
  forDomain : String → Option String

/-- A message as the router passes it on. -/
structure FPacket where
  sender : Jid
  recipient : Jid
  acc : Acc
  packet : Element
  deriving DecidableEq

variable (opts : Opts) (localHost : String)

/-- `lookup_recipients_host/3` -/
def mappedHost (mapping : Mapping) (recipient : Jid) : Option String :=
  if recipient.luser = "" then
    if recipient.lserver = localHost ∨ recipient.lserver = opts.globalHost then some localHost
    else mapping.forDomain recipient.lserver
  else if recipient.lserver = localHost then some localHost
  else if recipient.lserver = opts.globalHost then mapping.forJid recipient
  else mapping.forDomain recipient.lserver

/-- `lookup_recipients_host/4` -/
def lookupRecipientsHost (mapping : Mapping)
    (targetHost : Option String) (recipient : Jid) : Option String :=
  match targetHost with
  | none => mappedHost opts localHost mapping recipient
  | some targetHost => some targetHost

variable (localHost newId : String)

/-- `maybe_initialize_metadata/1`; `newId` is the identifier that is drawn. -/
def maybeInitializeMetadata (acc : Acc) : Acc :=
  match acc.get .origin with
  | none =>
    ((acc.setPermanent .ttl (opts.messageTtl : ℤ)).setPermanent .id newId).setPermanent
      .origin localHost
  | some _ => acc

/-- What becomes of a message in `filter_packet/3`. -/
inductive Routing
  | continue (fpacket : FPacket)
  | forward (targetHost : String) (fpacket : FPacket)
  | stored (fpacket : FPacket)

variable (fpacket : FPacket)

/-- `mod_global_distrib_bounce:maybe_store_message/3` -/
def maybeStoreMessage : Routing :=
  let oldTtl : ℤ := (fpacket.acc.get (.bounceTtl localHost)).getD (opts.maxRetries : ℤ)
  if oldTtl = 0 then .continue fpacket
  else
    .stored
      { fpacket with acc := fpacket.acc.setPermanent (.bounceTtl localHost) (oldTtl - 1 : ℤ) }

/-- Whether the first clause of `filter_packet/3` matches. -/
def FPacket.sameUser : Bool := fpacket.sender.areBareEqual fpacket.recipient

/-- The target host that `filter_packet/3` looks up; `none` for `error`. -/
def targetHost (mapping : Mapping) (fpacket : FPacket) : Option String :=
  lookupRecipientsHost opts localHost mapping
    ((maybeInitializeMetadata opts localHost newId fpacket.acc).get .targetHostOverride)
    fpacket.recipient

/-- `filter_packet/3`; `none` when it crashes on missing metadata. -/
def filterPacket (mapping : Mapping) (fpacket : FPacket) : Option Routing :=
  if fpacket.sameUser then some (.continue fpacket)
  else do
    let acc := maybeInitializeMetadata opts localHost newId fpacket.acc
    let _ ← acc.get .id
    match targetHost opts localHost newId mapping fpacket with
    | some target =>
      let ttl : ℤ ← acc.get .ttl
      if target = localHost then return .continue { fpacket with acc := acc }
      else if ttl = 0 then return .continue fpacket
      else
        let acc1 := acc.setPermanent .ttl (ttl - 1 : ℤ)
        let acc2 := acc1.delete .targetHostOverride
        return .forward target { fpacket with acc := acc2 }
    | none =>
      if opts.bounceEnabled then
        return maybeStoreMessage opts localHost { fpacket with acc := acc }
      else return .continue { fpacket with acc := acc }

/-- `mod_global_distrib_bounce:reroute_message/2`, up to the routing call. -/
def rerouteMessage (targetHost : String) (fpacket : FPacket) : FPacket :=
  { fpacket with acc := fpacket.acc.setPermanent .targetHostOverride targetHost }

/-- `mongoose_c2s:patch_acc_for_reroute/2` -/
def patchAccForReroute (sid : Sid) : Acc :=
  if fpacket.packet.name = "message" then fpacket.acc
  else
    match fpacket.acc.get .receiverSid with
    | none => fpacket.acc.setPermanent .receiverSid sid
    | some _ => fpacket.acc

/-- Where a message is. -/
inductive Place
  /-- In a routing call on a host, with the target if `reroute_message/2` made the call. -/
  | routing (host : String) (rerouted : Option String)
  /-- With the other routing modules of a host and the sessions there. -/
  | delivered (host : String)
  | stored (host : String)
  | sent (host : String)

/-- The record of a routing decision. -/
structure Call where
  /-- The override that `reroute_message/2` set for this call. -/
  rerouted : Option String
  mapped : Option String
  /-- The target host that `filter_packet/3` uses. -/
  used : Option String

/-- A message with a record of the decisions about it. -/
structure Journey where
  place : Place
  fpacket : FPacket
  calls : List Call := []
  /-- The time to live before and after each forward so far. -/
  forwards : List (ℤ × ℤ) := []

/-- What happens to a message. -/
inductive Event
  /-- `filter_packet/3` runs, with the mapping of that time and a new identifier. -/
  | filter (mapping : Mapping) (newId : String)
  /-- The accumulator is stripped for the delivery to the recipient. -/
  | deliver
  /-- `reroute_one/2` of the session `sid` routes it again. -/
  | rerouteOne (sid : Sid)
  /-- Something else routes the same accumulator, as `route_error_reply/4` does. -/
  | routeAgain (sender recipient : Jid) (packet : Element)
  /-- The recipient of the stored message becomes known at a host. -/
  | rerouteMessage (targetHost : String)
  /-- `resend_messages/1` routes the stored message. -/
  | resend
  | arrive

/-- One step of a message; `opts` are those of each host. -/
def step (opts : String → Opts) (j : Journey) : Event → Option Journey
  | .filter mapping newId =>
    match j.place with
    | .routing host rerouted => do
        let routing ← filterPacket (opts host) host newId mapping j.fpacket
        let calls :=
          if j.fpacket.sameUser then j.calls
          else j.calls ++ [⟨rerouted, mappedHost (opts host) host mapping j.fpacket.recipient,
            targetHost (opts host) host newId mapping j.fpacket⟩]
        match routing with
        | .continue fpacket =>
          return { j with place := .delivered host, fpacket := fpacket, calls := calls }
        | .forward target fpacket =>
          let acc := maybeInitializeMetadata (opts host) host newId j.fpacket.acc
          let before : ℤ := (acc.get .ttl).getD (0 : ℤ)
          let after : ℤ := (fpacket.acc.get .ttl).getD (0 : ℤ)
          return ⟨.sent target, fpacket, calls, j.forwards ++ [(before, after)]⟩
        | .stored fpacket =>
          return { j with place := .stored host, fpacket := fpacket, calls := calls }
    | _ => none
  | .deliver =>
    match j.place with
    | .delivered _ => some { j with fpacket := { j.fpacket with acc := j.fpacket.acc.strip } }
    | _ => none
  | .rerouteOne sid =>
    match j.place with
    | .delivered host =>
      some { j with
        place := .routing host none
        fpacket := { j.fpacket with acc := patchAccForReroute j.fpacket sid } }
    | _ => none
  | .routeAgain sender recipient packet =>
    match j.place with
    | .delivered host =>
      some { j with
        place := .routing host none
        fpacket := ⟨sender, recipient, j.fpacket.acc, packet⟩ }
    | _ => none
  | .rerouteMessage target =>
    match j.place with
    | .stored host =>
      some { j with
        place := .routing host (some target)
        fpacket := rerouteMessage target j.fpacket }
    | _ => none
  | .resend =>
    match j.place with
    | .stored host => some { j with place := .routing host none }
    | _ => none
  | .arrive =>
    match j.place with
    | .sent host => some { j with place := .routing host none }
    | _ => none

end MongooseIM.GlobalDistrib
