import MongooseIM.Erlang.Binaries
import MongooseIM.Erlang.Maps
import MongooseIM.JingleSip.NksipMedia

/-! # From media of SDP to contents of Jingle

`sip_to_jingle` reads the attributes of a media, one after another, into a map, and makes a
`<content/>` of what is in it. The codecs of the media are given. -/

namespace MongooseIM.JingleSip

open Erlang Xmpp

/-! ## Codecs -/

/-- A codec in a map of codecs: its number, its `rtpmap` and its other attributes. -/
structure CodecEntry where
  id : String
  rtpMap : String
  attrs : List (String × List String)

/-- `rtcp_fb_value_to_xml_attrs/1` -/
def rtcpFbValueToXmlAttrs : List String → Option (List (String × String))
  | [type] => some [("type", type)]
  | [type, subType] => some [("type", type), ("subtype", subType)]
  | _ => none

/-- `basic_param_to_xml_el/1` -/
def basicParamToXmlEl (param : String) : Element :=
  match splitOnce '=' param with
  | (name, some value) => .mk "parameter" [("name", name), ("value", value)] [] ""
  | (value, none) => .mk "parameter" [("value", value)] [] ""

/-- `codec_attr_to_params/1` -/
def codecAttrToParams : String × List String → Option (List Element)
  | ("rtcp-fb", value) =>
    (rtcpFbValueToXmlAttrs value).map fun attrs =>
      [.mk "rtcp-fb" (("xmlns", "urn:xmpp:jingle:apps:rtp:rtcp-fb:0") :: attrs) [] ""]
  | ("fmtp", [value]) => some ((split ';' value).map basicParamToXmlEl)
  | _ => some []

/-- `parse_codec_rtpmap/1` -/
def parseCodecRtpmap (rtpMap : String) : Option (String × String × String) :=
  match split '/' rtpMap with
  | [name, clockRate] => some (name, clockRate, "1")
  | [name, clockRate, channels] => some (name, clockRate, channels)
  | _ => none

/-- `codec_to_payload/1` -/
def codecToPayload (codec : CodecEntry) : Option Element := do
  let parameters ← codec.attrs.mapM codecAttrToParams
  let (name, clockRate, channels) ← parseCodecRtpmap codec.rtpMap
  return .mk "payload-type"
    [("id", codec.id), ("name", name), ("clockrate", clockRate), ("channels", channels)]
    parameters.flatten ""

/-! ## Attributes -/

/-- A candidate, by the names of its keys. -/
abbrev Candidate := List (String × Option String)

/-- A key of a candidate is written. -/
def Candidate.put (key : String) (value : Option String) (candidate : Candidate) : Candidate :=
  (key, value) :: candidate.filter fun entry => entry.1 ≠ key

/-- `parse_candidate_extra_args/2` -/
def parseCandidateExtraArgs : List (Option String) → Candidate → Candidate
  | some "typ" :: value :: rest, candidate =>
    parseCandidateExtraArgs rest (candidate.put "type" value)
  | some "raddr" :: value :: rest, candidate =>
    parseCandidateExtraArgs rest (candidate.put "raddr" value)
  | some "rport" :: value :: rest, candidate =>
    parseCandidateExtraArgs rest (candidate.put "rport" value)
  | some "generation" :: value :: rest, candidate =>
    parseCandidateExtraArgs rest (candidate.put "generation" value)
  | some "tcptype" :: value :: rest, candidate =>
    parseCandidateExtraArgs rest (candidate.put "tcptype" value)
  | _, candidate => candidate

/-- What is under `transport`. -/
structure MediaTransport where
  candidates : List Candidate := []
  ufrag : Option String := none
  pwd : Option String := none
  /-- `fingerprint`, the hash and the text; `none` where the key is absent. -/
  fingerprint : Option (Option String × Option String) := none
  setup : Option String := none

/-- What the attributes of a media say. -/
structure MediaAttrs where
  sender : Option String := none
  transport : Option MediaTransport := none
  rtcpMux : Bool := false
  /-- `rtphdr_ext`: number, sender and URI. -/
  rtphdrExt : List (String × String × Option String) := []
  /-- `source_map`: names with or without values. -/
  sourceMap : AList fun _ : Option String => List (String × Option String) := ∅
  /-- `name`; `none` where the key is absent. -/
  name : Option (Option String) := none

/-- `decode_sender/1` -/
def decodeSender : String → Option String
  | "sendrecv" => some "both"
  | "recvonly" => some "responder"
  | "sendonly" => some "initiator"
  | "inactive" => some "none"
  | _ => none

/-- `decode_extmap_id/1` -/
def decodeExtmapId (idWithSender : String) : Option (String × String) :=
  match splitOnce '/' idWithSender with
  | (id, none) => some (id, "both")
  | (id, some sender) => (decodeSender sender).map fun sender => (id, sender)

/-- `decode_ssrc_sdp_param/1` -/
def decodeSsrcSdpParam (parameter : List (Option String)) : Option (String × Option String) :=
  (parameter.mapM id).map fun parts => splitOnce ':' (" ".intercalate parts)

/-- Something is written under `transport`. -/
def MediaAttrs.putTransport (acc : MediaAttrs) (put : MediaTransport → MediaTransport) :
    MediaAttrs :=
  { acc with transport := some (put (acc.transport.getD {})) }

/-- A parameter is added to a source. -/
def MediaAttrs.putSource (acc : MediaAttrs) (ssrc : Option String)
    (param : String × Option String) : MediaAttrs :=
  let sourceParams := (acc.sourceMap.lookup ssrc).getD []
  { acc with sourceMap := acc.sourceMap.insert ssrc (param :: sourceParams) }

variable (candidateId : ℕ → String)

/-- `parse_nksip_media_attr/3`; `candidateId` makes up the ids of candidates. -/
def parseNksipMediaAttr (acc : MediaAttrs) : Attribute → Option MediaAttrs
  | ("sendrecv", _) => some { acc with sender := some "both" }
  | ("recvonly", _) => some { acc with sender := some "responder" }
  | ("sendonly", _) => some { acc with sender := some "initiator" }
  | ("inactive", _) => some { acc with sender := some "none" }
  | ("candidate", foundation :: component :: protocol :: priority :: ip :: port :: extraArgs) =>
    some (acc.putTransport fun transport =>
      let candidate : Candidate :=
        [("foundation", foundation), ("component", component), ("protocol", protocol),
          ("priority", priority), ("ip", ip), ("port", port), ("network", some "0"),
          ("id", some (candidateId transport.candidates.length))]
      { transport with
        candidates := parseCandidateExtraArgs extraArgs candidate :: transport.candidates })
  | ("candidate", _) => none
  | ("ice-ufrag", [value]) =>
    some (acc.putTransport fun transport => { transport with ufrag := value })
  | ("ice-pwd", [value]) =>
    some (acc.putTransport fun transport => { transport with pwd := value })
  | ("fingerprint", [hash, fingerprint]) =>
    some (acc.putTransport fun transport =>
      { transport with fingerprint := some (hash, fingerprint) })
  | ("setup", [value]) =>
    some (acc.putTransport fun transport => { transport with setup := value })
  | ("rtcp-mux", _) => some { acc with rtcpMux := true }
  | ("extmap", [idWithSender, uri]) => do
    let idWithSender ← idWithSender
    let (id, sender) ← decodeExtmapId idWithSender
    return { acc with rtphdrExt := (id, sender, uri) :: acc.rtphdrExt }
  | ("ssrc", id :: parameter) => (decodeSsrcSdpParam parameter).map (acc.putSource id)
  | ("mid", [name]) => some { acc with name := some name }
  | _ => some acc

/-- `parse_nksip_media_attrs/2` -/
def parseNksipMediaAttrs (attrs : List Attribute) (acc : MediaAttrs) : Option MediaAttrs :=
  attrs.foldlM (parseNksipMediaAttr candidateId) acc

/-! ## Elements -/

/-- `rtphdr_ext_to_element/1` -/
def rtphdrExtToElement (ext : String × String × Option String) : Option Element :=
  ext.2.2.map fun uri =>
    .mk "rtp-hdrext"
      [("xmlns", "urn:xmpp:jingle:apps:rtp:rtp-hdrext:0"), ("id", ext.1), ("uri", uri),
        ("senders", ext.2.1)] [] ""

variable (content : MediaAttrs)

/-- `maybe_add_rtcp_mux/2` -/
def maybeAddRtcpMux (els : List Element) : List Element :=
  if content.rtcpMux then .mk "rtcp-mux" [] [] "" :: els else els

/-- `ssrc_attr_to_el/1` -/
def ssrcAttrToEl (attr : String × Option String) : Element :=
  match attr.2 with
  | some value => .mk "parameter" [("name", attr.1), ("value", value)] [] ""
  | none => .mk "parameter" [("name", attr.1)] [] ""

/-- `source_to_el/2` -/
def sourceToEl (source : Option String × List (String × Option String)) : Option Element :=
  source.1.map fun ssrc =>
    .mk "source" [("xmlns", "urn:xmpp:jingle:apps:rtp:ssma:0"), ("ssrc", ssrc)]
      (source.2.map ssrcAttrToEl) ""

/-- `maybe_add_sources/2`; the map may as well be empty as absent. -/
def maybeAddSources (els : List Element) : Option (List Element) :=
  ((toList content.sourceMap).mapM sourceToEl).map fun sourceEls => els ++ sourceEls

/-- `description_elements_from_content/1` -/
def descriptionElementsFromContent : Option (List Element) := do
  let rtpHdrExts ← content.rtphdrExt.mapM rtphdrExtToElement
  let elsWithRtcpMux := maybeAddRtcpMux content rtpHdrExts
  maybeAddSources content elsWithRtcpMux

/-- `candidate_kv_to_attr/3` -/
def candidateKvToAttr (entry : String × Option String) : Option (String × String) :=
  entry.2.map fun value =>
    if entry.1 = "raddr" then ("rel-addr", value)
    else if entry.1 = "rport" then ("rel-port", value)
    else (entry.1, value)

/-- `make_candidate_el/1` -/
def makeCandidateEl (candidate : Candidate) : Option Element :=
  (candidate.mapM candidateKvToAttr).map fun attrs => .mk "candidate" attrs [] ""

/-- `maybe_add_ice_ufrag/2`, `maybe_add_ice_pwd/2` and `maybe_add_setup_attr/2`, by their keys. -/
def maybeAddAttr (key : String) (value : Option String) (attrs : List (String × String)) :
    List (String × String) :=
  match value with
  | none => attrs
  | some value => putAttr key value attrs

variable (transport : MediaTransport)

/-- The element that `maybe_add_fingerprint_el/2` adds. There is no clause for a transport without
fingerprint. -/
def makeFingerprintEl : Option Element := do
  let (hash, fingerprint) ← transport.fingerprint
  let hash ← hash
  let fingerprint ← fingerprint
  let allAttrs := maybeAddAttr "setup" transport.setup
    [("xmlns", "urn:xmpp:jingle:apps:dtls:0"), ("hash", hash)]
  return .mk "fingerprint" allAttrs [] fingerprint

/-- `make_transport_el/1` -/
def makeTransportEl : Option Element := do
  let candidateElements ← transport.candidates.mapM makeCandidateEl
  let attrsWithUfrag := maybeAddAttr "ufrag" transport.ufrag []
  let iceAttrs := maybeAddAttr "pwd" transport.pwd attrsWithUfrag
  let attrs := putAttr "xmlns" "urn:xmpp:jingle:transports:ice-udp:1" iceAttrs
  let fingerprintEl ← makeFingerprintEl transport
  return .mk "transport" attrs (fingerprintEl :: candidateElements) ""

/-- `sdp_media_to_content_el/2` -/
def sdpMediaToContentEl
    (codecMap : Option String → Option (List CodecEntry)) (sdpM : SdpM) : Option Element := do
  let codecs ← codecMap sdpM.media
  let payloadEls ← codecs.mapM codecToPayload
  let content ← parseNksipMediaAttrs candidateId sdpM.attributes {}
  let additionalDescriptionEls ← descriptionElementsFromContent content
  let media ← sdpM.media
  let descriptionEl : Element :=
    .mk "description" [("xmlns", "urn:xmpp:jingle:apps:rtp:1"), ("media", media)]
      (payloadEls ++ additionalDescriptionEls) ""
  let transport ← content.transport
  let transportEl ← makeTransportEl transport
  let name ← content.name.getD sdpM.media
  let sender ← content.sender
  return .mk "content" [("creator", "initiator"), ("name", name), ("senders", sender)]
    [descriptionEl, transportEl] ""

end MongooseIM.JingleSip
