import MongooseIM.Xmpp.Query

/-! # Media of Jingle

`jingle_to_sdp` reads a `<content/>` of Jingle. What it finds is kept in maps, each list with what
comes last in front. Attributes that are absent are `undefined`. -/

namespace MongooseIM.JingleSip

open Xmpp

/-! ## What is read -/

/-- `codec()` -/
structure Codec where
  id : Option String
  name : Option String
  clockRate : Option String
  channels : String
  /-- `params`: names and values. -/
  params : List (Option String × Option String)
  rtcpFbParams : List (List (Option String))

/-- `rtphdr_ext()` -/
structure RtphdrExt where
  id : Option String
  uri : Option String
  senders : String

/-- `source()` -/
structure Source where
  ssrc : Option String
  params : List (Option String × Option String)

/-- `description()` -/
structure Description where
  codecs : List Codec
  rtphdrExt : List RtphdrExt
  rtcpMux : Bool
  sources : List Source

/-- `fingerprint()` -/
structure Fingerprint where
  hash : Option String
  setup : Option String
  fingerprint : String

/-- `transport()` without its candidates. -/
structure Transport where
  ufrag : Option String
  pwd : Option String
  /-- `fingerprint`; `none` where the key is absent. -/
  fingerprint : Option Fingerprint

/-- `content()`; `none` for a description or a transport that is absent. -/
structure Content where
  media : Option String
  name : Option String
  protocol : String
  description : Option Description
  transport : Option Transport
  senders : String

/-! ## Reading it -/

/-- `sender_to_sdp_attr/1` -/
def senderToSdpAttr : String → Option String
  | "both" => some "sendrecv"
  | "initiator" => some "sendonly"
  | "responder" => some "recvonly"
  | "none" => some "inactive"
  | _ => none

/-- `decode_senders/1` -/
def decodeSenders (contentEl : Element) : Option String :=
  senderToSdpAttr (contentEl.attrD "senders" "both")

/-- `decode_rtcp_fb_param/1` -/
def decodeRtcpFbParam (rtcpParam : Element) : List (Option String) :=
  match rtcpParam.attr? "subtype" with
  | none => [rtcpParam.attr? "type"]
  | some subType => [rtcpParam.attr? "type", some subType]

variable (codec : Codec)

/-- `parse_payload_child/2` -/
def parsePayloadChild (child : Element) : Codec :=
  if child.name = "parameter" then
    { codec with params := (child.attr? "name", child.attr? "value") :: codec.params }
  else if child.name = "rtcp-fb" then
    { codec with rtcpFbParams := decodeRtcpFbParam child :: codec.rtcpFbParams }
  else codec

/-- `parse_payload_children/2` -/
def parsePayloadChildren (children : List Element) : Codec :=
  children.foldl parsePayloadChild codec

/-- The codec that `fill_codec/2` adds. -/
def payloadCodec (payload : Element) : Codec :=
  parsePayloadChildren
    { id           := payload.attr? "id"
      name         := payload.attr? "name"
      clockRate    := payload.attr? "clockrate"
      channels     := payload.attrD "channels" "1"
      params       := []
      rtcpFbParams := [] } payload.children

/-- `decode_rtp_hdr_ext/1` -/
def decodeRtpHdrExt (rtpHdrExtEl : Element) : Option RtphdrExt :=
  (senderToSdpAttr (rtpHdrExtEl.attrD "senders" "both")).map fun senders =>
    ⟨rtpHdrExtEl.attr? "id", rtpHdrExtEl.attr? "uri", senders⟩

/-- `source_param_to_kv/1` -/
def sourceParamToKv (el : Element) : Option String × Option String :=
  (el.attr? "name", el.attr? "value")

/-- The source that `fill_source/2` adds. -/
def elementSource (sourceEl : Element) : Source :=
  ⟨sourceEl.attr? "ssrc", (sourceEl.subelements "parameter").map sourceParamToKv⟩

variable (description : Description)

/-- `parse_description_child/2` -/
def parseDescriptionChild (child : Element) : Option Description :=
  if child.name = "payload-type" then
    some { description with codecs := payloadCodec child :: description.codecs }
  else if child.name = "rtp-hdrext" then
    (decodeRtpHdrExt child).map fun ext =>
      { description with rtphdrExt := ext :: description.rtphdrExt }
  else if child.name = "rtcp-mux" then
    some { description with rtcpMux := true }
  else if child.name = "source" then
    some { description with sources := elementSource child :: description.sources }
  else some description

/-- `parse_description_children/2` -/
def parseDescriptionChildren (children : List Element) : Option Description :=
  children.foldlM parseDescriptionChild description

/-- `parse_transport_child/2` without candidates. -/
def parseTransportChild (transport : Transport) (child : Element) : Transport :=
  if child.name = "fingerprint" then
    { transport with
      fingerprint := some ⟨child.attr? "hash", child.attr? "setup", child.cdata⟩ }
  else transport

/-- `parse_transport_element/1` -/
def parseTransportElement (transportEl : Element) : Transport :=
  transportEl.children.foldl parseTransportChild
    ⟨transportEl.attr? "ufrag", transportEl.attr? "pwd", none⟩

variable (content : Content)

/-- `parse_content_child/2` -/
def parseContentChild (child : Element) : Option Content :=
  if child.name = "description" then
    (parseDescriptionChildren ⟨[], [], false, []⟩ child.children).map fun description =>
      { content with
        description := some description
        media       := child.attr? "media" }
  else if child.name = "transport" then
    some { content with transport := some (parseTransportElement child) }
  else some content

/-- `from_media/1`: with the keys that every content has. -/
def fromMedia (jingleContent : Element) : Option Content :=
  if jingleContent.name = "content" then
    (decodeSenders jingleContent).bind fun senders =>
      jingleContent.children.foldlM parseContentChild
        { media       := none
          name        := jingleContent.attr? "name"
          protocol    := "UDP/TLS/RTP/SAVPF"
          description := none
          transport   := none
          senders     := senders }
  else none

/-! ## What the loops leave -/

/-- The children of a payload leave its attributes, and its parameters are listed with the last one
in front. -/
theorem parsePayloadChildren_eq (children : List Element) :
    ∃ rtcpFbParams, parsePayloadChildren codec children =
    { codec with
      params :=
        ((children.filter fun child => child.name = "parameter").map sourceParamToKv).reverse ++
          codec.params
      rtcpFbParams := rtcpFbParams } := by
  induction children generalizing codec with
  | nil => exact ⟨codec.rtcpFbParams, rfl⟩
  | cons child children ih =>
    obtain ⟨rtcpFbParams, hrest⟩ := ih (parsePayloadChild codec child)
    refine ⟨rtcpFbParams, ?_⟩
    rw [parsePayloadChildren, List.foldl_cons, ← parsePayloadChildren, hrest]
    by_cases hparameter : child.name = "parameter"
    · simp [parsePayloadChild, hparameter, sourceParamToKv]
    · by_cases hrtcpFb : child.name = "rtcp-fb" <;> simp [parsePayloadChild, hparameter, hrtcpFb]

/-- **What a description says**: its children of each kind, the last one in front. -/
theorem parseDescriptionChildren_eq (children : List Element) :
    parseDescriptionChildren description children =
    ((children.filter fun child => child.name = "rtp-hdrext").mapM decodeRtpHdrExt).map fun exts =>
      { codecs :=
          ((children.filter fun child => child.name = "payload-type").map payloadCodec).reverse ++
            description.codecs
        rtphdrExt := exts.reverse ++ description.rtphdrExt
        rtcpMux := description.rtcpMux || children.any fun child => child.name = "rtcp-mux"
        sources :=
          ((children.filter fun child => child.name = "source").map elementSource).reverse ++
            description.sources } := by
  induction children generalizing description with
  | nil => simp [parseDescriptionChildren]
  | cons child children ih =>
    simp only [parseDescriptionChildren] at ih
    rw [parseDescriptionChildren, List.foldlM_cons]
    by_cases hpayload : child.name = "payload-type"
    · simp [parseDescriptionChild, hpayload, ih]
    by_cases hext : child.name = "rtp-hdrext"
    · cases hdecode : decodeRtpHdrExt child with
      | none => simp [parseDescriptionChild, hext, hdecode]
      | some ext =>
        cases hrest : (children.filter fun child => child.name = "rtp-hdrext").mapM decodeRtpHdrExt with
        | none => simp [parseDescriptionChild, hext, hdecode, ih, hrest]
        | some exts => simp [parseDescriptionChild, hext, hdecode, ih, hrest]
    by_cases hmux : child.name = "rtcp-mux"
    · simp [parseDescriptionChild, hmux, ih]
    by_cases hsource : child.name = "source"
    · simp [parseDescriptionChild, hsource, ih]
    · simp [parseDescriptionChild, hpayload, hext, hmux, hsource, ih]

/-- A fingerprint of a transport. -/
def readFingerprint (el : Element) : Fingerprint := ⟨el.attr? "hash", el.attr? "setup", el.cdata⟩

theorem parseTransportElement_eq {transportEl : Element}
    (hle : (transportEl.subelements "fingerprint").length ≤ 1) :
    parseTransportElement transportEl = ⟨transportEl.attr? "ufrag", transportEl.attr? "pwd",
      (transportEl.subelement "fingerprint").map readFingerprint⟩ := by
  have hfold : ∀ (children : List Element) (transport : Transport),
      children.foldl parseTransportChild transport =
        (children.filter fun child => child.name = "fingerprint").foldl
          (fun transport el => { transport with fingerprint := some (readFingerprint el) })
            transport := by
    intro children
    induction children with
    | nil => exact fun _ => rfl
    | cons child children ih =>
      intro transport
      by_cases hname : child.name = "fingerprint"
      · simp [hname, parseTransportChild, ih, readFingerprint]
      · simp [hname, parseTransportChild, ih]
  rw [parseTransportElement, hfold, Element.subelement, ← List.head?_filter]
  rw [Element.subelements] at hle
  cases hfilter : transportEl.children.filter fun child => child.name = "fingerprint" with
  | nil => rfl
  | cons el rest =>
    rw [hfilter, List.length_cons] at hle
    obtain rfl : rest = [] := List.length_eq_zero_iff.1 (by omega)
    rfl

/-- What is put into a content for a description. -/
def readDescription (read : Description × Option String) : Content :=
  { content with
    description := some read.1
    media       := read.2 }

/-- What is put into a content for a transport. -/
def readTransport (transportEl : Element) : Content :=
  { content with transport := some (parseTransportElement transportEl) }

/-- The loop over a content: descriptions and transports do not get in each other's way. -/
theorem foldlM_parseContentChild (children : List Element) :
    children.foldlM parseContentChild content =
    ((children.filter fun child => child.name = "description").mapM fun child =>
      (parseDescriptionChildren ⟨[], [], false, []⟩ child.children).map fun description =>
        (description, child.attr? "media")).map fun descriptions =>
      (children.filter fun child => child.name = "transport").foldl readTransport
        (descriptions.foldl readDescription content) := by
  induction children generalizing content with
  | nil => rfl
  | cons child children ih =>
    rw [List.foldlM_cons]
    by_cases hdescription : child.name = "description"
    · cases hread : parseDescriptionChildren ⟨[], [], false, []⟩ child.children with
      | none => simp [parseContentChild, hdescription, hread]
      | some description =>
        cases hrest : (children.filter fun child => child.name = "description").mapM fun child =>
            (parseDescriptionChildren ⟨[], [], false, []⟩ child.children).map fun description =>
              (description, child.attr? "media") with
        | none => simp [parseContentChild, hdescription, hread, ih, hrest]
        | some descriptions =>
          simp [parseContentChild, hdescription, hread, ih, hrest, readDescription]
    by_cases htransport : child.name = "transport"
    · have hcommute : ∀ descriptions : List (Description × Option String),
          descriptions.foldl readDescription (readTransport content child) =
            readTransport (descriptions.foldl readDescription content) child := by
        intro descriptions
        exact List.foldl_hom (fun content => readTransport content child) fun _ _ => rfl
      have hchild : parseContentChild content child = some (readTransport content child) := by
        simp [parseContentChild, htransport, readTransport]
      rw [hchild, Option.bind_eq_bind, Option.bind_some, ih]
      simp [htransport, hcommute]
    · simp [parseContentChild, hdescription, htransport, ih]

/-- **What a content says**, when it has one description and one transport. -/
theorem fromMedia_eq {el description transport : Element} (hname : el.name = "content")
    (hdescription : el.subelements "description" = [description])
    (htransport : el.subelements "transport" = [transport]) :
    fromMedia el =
    (decodeSenders el).bind fun senders =>
      (parseDescriptionChildren ⟨[], [], false, []⟩ description.children).map fun read =>
        { media       := description.attr? "media"
          name        := el.attr? "name"
          protocol    := "UDP/TLS/RTP/SAVPF"
          description := some read
          transport   := some (parseTransportElement transport)
          senders     := senders } := by
  rw [Element.subelements] at hdescription htransport
  rw [fromMedia, if_pos hname]
  congr 1
  funext senders
  rw [foldlM_parseContentChild, hdescription, htransport]
  cases hread : parseDescriptionChildren ⟨[], [], false, []⟩ description.children with
  | none => simp [hread]
  | some read => simp [hread, readDescription, readTransport]

end MongooseIM.JingleSip
