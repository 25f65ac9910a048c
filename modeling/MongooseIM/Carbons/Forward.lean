import MongooseIM.Xmpp.Query

/-! # Which messages have carbon copies

Which messages are copied depends on their direction; a copy is not copied. -/

namespace MongooseIM.Carbons

open Xmpp

/-- `direction()` -/
inductive Direction
  | sent
  | received
  deriving DecidableEq

/-- The versions of the protocol, by their namespaces. -/
inductive Version
  /-- `?NS_CC_1` -/
  | cc1
  /-- `?NS_CC_2` -/
  | cc2
  deriving DecidableEq

/-- The namespace of a version. -/
def Version.ns : Version → String
  | cc1 => "urn:xmpp:carbons:1"
  | cc2 => "urn:xmpp:carbons:2"

/-- `carbon_namespaces/0` -/
def carbonNamespaces : List String := [Version.cc1.ns, Version.cc2.ns]

/-- `?NS_MUC_USER` -/
def nsMucUser : String := "http://jabber.org/protocol/muc#user"

/-- `?NS_CONFERENCE` -/
def nsConference : String := "jabber:x:conference"

/-- `?NS_HINTS` -/
def nsHints : String := "urn:xmpp:hints"

/-- `?NS_RECEIPTS` -/
def nsReceipts : String := "urn:xmpp:receipts"

/-- `?NS_CHATSTATES` -/
def nsChatstates : String := "http://jabber.org/protocol/chatstates"

/-- `?NS_CHAT_MARKERS` -/
def nsChatMarkers : String := "urn:xmpp:chat-markers:0"

/-- `?NS_FORWARD` -/
def nsForward : String := "urn:xmpp:forward:0"

/-- `?NS_STANZAID` -/
def nsStanzaId : String := "urn:xmpp:sid:0"

/-! ## Classification -/

variable (packet : Element)

/-- `subelements_with_nss/3` -/
def subelementsWithNss (name : String) (nss : List String) : List Element :=
  packet.children.filter fun child => child.name = name ∧ ∃ ns ∈ nss, child.attr? "xmlns" = some ns

/-- `is_carbon_private/1` -/
def isCarbonPrivate : Bool :=
  !(subelementsWithNss packet "private" carbonNamespaces).isEmpty

/-- `is_received/1` -/
def isReceived : Bool :=
  !(subelementsWithNss packet "received" carbonNamespaces).isEmpty

/-- `is_sent/1` -/
def isSent : Bool :=
  !(subelementsWithNss packet "sent" carbonNamespaces).isEmpty

/-- `has_nocopy_hint/1` -/
def hasNocopyHint : Bool :=
  (packet.subelementWithNameAndNs "no-copy" nsHints).isSome

/-- `contains_body/1` -/
def containsBody : Bool := (packet.subelement "body").isSome

/-- `contains_receipts/1` -/
def containsReceipts : Bool :=
  (packet.subelementWithNameAndNs "received" nsReceipts).isSome

/-- `contains_csn/1` -/
def containsCsn : Bool := (packet.subelementWithNs nsChatstates).isSome

/-- `contains_chat_markers/1` -/
def containsChatMarkers : Bool := (packet.subelementWithNs nsChatMarkers).isSome

/-- `is_chat/1` -/
def isChat : Bool :=
  let type := packet.attrD "type" "normal"
  if type = "normal" then
    containsBody packet || containsReceipts packet || containsCsn packet ||
      containsChatMarkers packet
  else decide (type = "chat")

/-- `is_mediated_invitation/1` -/
def isMediatedInvitation : Bool :=
  (do
    let x ← packet.subelementWithNameAndNs "x" nsMucUser
    let invite ← x.subelement "invite"
    invite.attr? "from").isSome

/-- `is_direct_muc_invitation/1` -/
def isDirectMucInvitation : Bool :=
  (packet.subelementWithNameAndNs "x" nsConference).isSome

variable (toJid : Jid)

/-- `is_received_private_muc/2` -/
def isReceivedPrivateMuc : Bool :=
  if toJid.lresource = "" then false else (packet.subelementWithNameAndNs "x" nsMucUser).isSome

/-- `is_valid_muc/3` -/
def isValidMuc : Direction → Bool
  | .sent => false
  | .received =>
    isMediatedInvitation packet || isDirectMucInvitation packet || isReceivedPrivateMuc packet toJid

/-- `should_forward/3` -/
def shouldForward (direction : Direction) : Bool :=
  !isCarbonPrivate packet && !hasNocopyHint packet && !isReceived packet && !isSent packet &&
    (isChat packet || isValidMuc packet toJid direction)

/-! ## Copies -/

variable (mamId : Option String)

/-- `set_stanza_id/3`, with the `mam_id` of the accumulator. -/
def setStanzaId (sender : Jid) (packet : Element) : Element :=
  match mamId with
  | none => packet
  | some mamId =>
    let by_ := sender.toBare.toBinary
    let others := packet.children.filter fun child =>
      ¬ (child.name = "stanza-id" ∧ child.attr? "by" = some by_ ∧
        child.attr? "xmlns" = some nsStanzaId)
    .mk packet.name packet.attrs
      (others ++ [.mk "stanza-id" [("by", by_), ("id", mamId), ("xmlns", nsStanzaId)] [] ""])
      packet.cdata

/-- `complete_packet/4` -/
def completePacket (sender : Jid) (packet : Element) : Direction → Element
  | .sent =>
    let attrs := putAttr "xmlns" "jabber:client" packet.attrs
    let packet2 := setStanzaId mamId sender packet
    if (attrs.lookup "from").isNone then packet2.withAttrs (putAttr "from" sender.toBinary attrs)
    else packet2.withAttrs attrs
  | .received => packet.withAttrs (putAttr "xmlns" "jabber:client" packet.attrs)

/-- The atom of a direction as a binary. -/
def Direction.toBinary : Direction → String
  | sent => "sent"
  | received => "received"

/-- `carbon_copy_children/5` -/
def carbonCopyChildren (version : Version) (jid : Jid) (packet : Element)
    (direction : Direction) : List Element :=
  let forwarded : Element :=
    .mk "forwarded" [("xmlns", nsForward)] [completePacket mamId jid packet direction] ""
  match version with
  | .cc1 => [.mk direction.toBinary [("xmlns", Version.cc1.ns)] [] "", forwarded]
  | .cc2 => [.mk direction.toBinary [("xmlns", Version.cc2.ns)] [forwarded] ""]

/-- `build_forward_packet/7` -/
def buildForwardPacket (jid : Jid) (packet : Element) (sender dest : Jid)
    (direction : Direction) (version : Version) : Element :=
  -- the wrapping message should keep the type
  let type := packet.attrD "type" "normal"
  .mk "message"
    [("xmlns", "jabber:client"), ("type", type), ("from", sender.toBinary), ("to", dest.toBinary)]
    (carbonCopyChildren mamId version jid packet direction) ""

/-- **A carbon copy is not copied**, wherever it goes. -/
theorem shouldForward_buildForwardPacket (jid : Jid) (packet : Element)
    (sender dest : Jid) (direction : Direction) (version : Version) (toJid : Jid)
    (direction' : Direction) :
    shouldForward (buildForwardPacket mamId jid packet sender dest direction version) toJid direction' =
    false := by
  have hmarked : isReceived (buildForwardPacket mamId jid packet sender dest direction version) ||
      isSent (buildForwardPacket mamId jid packet sender dest direction version) := by
    cases direction <;> cases version <;>
      simp [isReceived, isSent, subelementsWithNss, buildForwardPacket, carbonCopyChildren,
        Element.children, Element.attr?, Element.attrs, carbonNamespaces, Direction.toBinary]
  rw [Bool.or_eq_true] at hmarked
  rcases hmarked with h | h
  · simp [shouldForward, h]
  · simp [shouldForward, h]

end MongooseIM.Carbons
