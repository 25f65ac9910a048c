import MongooseIM.JingleSip.WrittenMedia

/-! # Media of Jingle through SDP and back

The contents that survive the way through SDP are exactly those that have everything that both
sides ask for. -/

namespace MongooseIM.JingleSip

open Erlang Xmpp List

/-! ## Contents -/

/-- A `<content/>` with a name, a description and a transport, in which sources and their parameters
have names. -/
structure JingleContent where
  /-- `<content/>` -/
  el : Element
  description : Element
  transport : Element
  name_eq : el.name = "content"
  name_isSome : (el.attr? "name").isSome
  description_eq : el.subelements "description" = [description]
  transport_eq : el.subelements "transport" = [transport]
  fingerprint_le : (transport.subelements "fingerprint").length ≤ 1
  ssrc_nodup : ((description.subelements "source").map fun source => source.attr? "ssrc").Nodup
  named : ∀ source ∈ description.subelements "source", ∀ parameter ∈ source.subelements "parameter",
    ∃ name, parameter.attr? "name" = some name ∧ ':' ∉ name.toList

/-- What a content says of its media. -/
structure MediaView where
  name : Option String
  senders : String
  ufrag : Option String
  pwd : Option String
  fingerprint : Option (Option String × String)
  /-- `setup` of the fingerprint -/
  setup : Option String
  /-- Whether there is `<rtcp-mux/>`. -/
  rtcpMux : Bool
  /-- The header extensions: `id`, `uri` and `senders`. -/
  headerExtensions : List (Option String × Option String × String)
  /-- The sources: `ssrc`, and the names and values of the parameters. -/
  sources : List (Option String × List (Option String × Option String))

variable (ext : Element)

/-- A header extension. -/
def headerExtensionView : Option String × Option String × String :=
  (ext.attr? "id", ext.attr? "uri", ext.attrD "senders" "both")

/-- A source. -/
def sourceView (source : Element) : Option String × List (Option String × Option String) :=
  (source.attr? "ssrc", (source.subelements "parameter").map sourceParamToKv)

/-- The parts of a content, put together. -/
def JingleContent.view (content : JingleContent) : MediaView where
  name := content.el.attr? "name"
  senders := content.el.attrD "senders" "both"
  ufrag := content.transport.attr? "ufrag"
  pwd := content.transport.attr? "pwd"
  fingerprint := (content.transport.subelement "fingerprint").map fun fingerprint =>
    (fingerprint.attr? "hash", fingerprint.cdata)
  setup := (content.transport.subelement "fingerprint").bind fun fingerprint =>
    fingerprint.attr? "setup"
  rtcpMux := content.description.children.any fun child => child.name = "rtcp-mux"
  headerExtensions := (content.description.subelements "rtp-hdrext").map headerExtensionView
  sources := (content.description.subelements "source").map sourceView

/-- **Two contents say the same**, up to order. -/
structure MediaView.Same (a b : MediaView) : Prop where
  name : a.name = b.name
  senders : a.senders = b.senders
  ufrag : a.ufrag = b.ufrag
  pwd : a.pwd = b.pwd
  fingerprint : a.fingerprint = b.fingerprint
  setup : a.setup = b.setup
  rtcpMux : a.rtcpMux = b.rtcpMux
  headerExtensions : a.headerExtensions.Perm b.headerExtensions
  sources : ∃ sources, a.sources.Perm sources ∧
    List.Forall₂ (fun source source' => source.1 = source'.1 ∧ source.2.Perm source'.2)
      sources b.sources

/-- **A content survives**: it is translated to media, and they are to a content that says the
same. -/
def Survives (random : ℕ) (candidateId : ℕ → String)
    (codecMap : Option String → Option (List CodecEntry)) (content : JingleContent) : Prop :=
  ∃ sdpM, ∃ content' : JingleContent,
    (fromMedia content.el).bind (contentToNksipMedia random) = some sdpM ∧
      sdpMediaToContentEl candidateId codecMap sdpM = some content'.el ∧
        content.view.Same content'.view

/-- **What both translations ask for.** -/
structure Translatable (content : JingleContent) : Prop where
  media : (content.description.attr? "media").isSome
  senders : content.el.attrD "senders" "both" ∈ senderValues
  /-- Payloads have a name and a clock rate, and their parameters have values. -/
  payload : ∀ payload ∈ content.description.subelements "payload-type",
    (payload.attr? "name").isSome ∧ (payload.attr? "clockrate").isSome ∧
      ∀ parameter ∈ payload.subelements "parameter", (parameter.attr? "value").isSome
  /-- Header extensions have a number without slash, a URI, and senders. -/
  headerExtension : ∀ ext ∈ content.description.subelements "rtp-hdrext",
    (∃ id, ext.attr? "id" = some id ∧ '/' ∉ id.toList) ∧ (ext.attr? "uri").isSome ∧
      ext.attrD "senders" "both" ∈ senderValues
  /-- Sources have a number and parameters, and these have values. -/
  source : ∀ source ∈ content.description.subelements "source",
    (source.attr? "ssrc").isSome ∧ source.subelements "parameter" ≠ [] ∧
      ∀ parameter ∈ source.subelements "parameter", (parameter.attr? "value").isSome
  fingerprint : ∃ fingerprint, content.transport.subelement "fingerprint" = some fingerprint ∧
    (fingerprint.attr? "hash").isSome

/-! ## What is said of the element that is made -/

variable {candidateId : ℕ → String} {content : JingleContent}

/-- **What a content says that was made.** -/
theorem view_of_made {name senders media : String}
    {payloadEls extEls sourceEls : List Element} {rtcpMux : Bool} {ufrag pwd setup : Option String}
    {hash fingerprint : String}
    (hel : content.el = madeContent name senders
    (madeDescription media payloadEls extEls sourceEls rtcpMux)
    (madeTransport ufrag pwd setup hash fingerprint))
    (hpayload : ∀ el ∈ payloadEls, el.name = "payload-type")
    (hext : ∀ el ∈ extEls, el.name = "rtp-hdrext")
    (hsource : ∀ el ∈ sourceEls, el.name = "source") :
    content.view =
    { name := some name
      senders := senders
      ufrag := ufrag
      pwd := pwd
      fingerprint := some (some hash, fingerprint)
      setup := setup
      rtcpMux := rtcpMux
      headerExtensions := extEls.map headerExtensionView
      sources := sourceEls.map sourceView } := by
  have hdescription := content.description_eq
  have htransport := content.transport_eq
  rw [hel] at hdescription htransport
  obtain ⟨hexts, hsources, hmux⟩ := madeDescription_spec media rtcpMux hpayload hext hsource
  have hdescription' : content.description =
      madeDescription media payloadEls extEls sourceEls rtcpMux :=
    (cons.inj hdescription).1.symm
  have htransport' : content.transport = madeTransport ufrag pwd setup hash fingerprint :=
    (cons.inj htransport).1.symm
  have hfind : (madeTransport ufrag pwd setup hash fingerprint).subelement "fingerprint" =
      some (.mk "fingerprint"
        (maybeAddAttr "setup" setup [("xmlns", "urn:xmpp:jingle:apps:dtls:0"), ("hash", hash)]) []
        fingerprint) := rfl
  rw [JingleContent.view, hel, hdescription', htransport', hexts, hsources, hmux, hfind]
  congr 1
  · cases ufrag <;> cases pwd <;> rfl
  · cases ufrag <;> cases pwd <;> rfl
  · cases setup <;> rfl
  · cases setup <;> rfl

/-- A source that was made says what its entry does. -/
theorem sourceView_of_sourceToEl {source : Option String × List (String × Option String)}
    {el : Element} (h : sourceToEl source = some el) :
    sourceView el = (source.1, source.2.map fun param => (some param.1, param.2)) := by
  obtain ⟨ssrc, hssrc, rfl⟩ := Option.map_eq_some_iff.1 h
  have hname : ∀ el ∈ source.2.map ssrcAttrToEl, el.name = "parameter" := by
    intro el hmem
    obtain ⟨⟨name, value⟩, -, rfl⟩ := mem_map.1 hmem
    cases value <;> rfl
  rw [sourceView, Element.subelements, Element.children, filter_name hname, if_pos rfl, hssrc,
    map_map]
  refine Prod.ext rfl ?_
  refine map_congr_left fun param _ => ?_
  obtain ⟨name, value⟩ := param
  cases value <;> rfl

theorem map_sourceView {sources : List Source} {sourceEls : List Element}
    {sourceMap : AList fun _ : Option String => List (String × Option String)}
    (hentries : sourceMap.entries =
    ((sources.filter fun source => source.params ≠ []).map sourceEntry).reverse)
    (hels : (toList sourceMap).mapM sourceToEl = some sourceEls)
    (hnamed : ∀ source ∈ sources, ∀ param ∈ source.params,
    ∃ name, param.1 = some name ∧ ':' ∉ name.toList) :
    sourceEls.map sourceView = ((sources.filter fun source => source.params ≠ []).map fun source =>
      (source.ssrc, source.params.reverse)).reverse := by
  rw [map_of_mapM hels fun _ _ => sourceView_of_sourceToEl, toList, hentries, ← map_reverse,
    map_map, map_map, ← map_reverse]
  refine map_congr_left fun source hmem => ?_
  have hsource : source ∈ sources := mem_of_mem_filter (mem_reverse.1 hmem)
  refine Prod.ext rfl ?_
  simp only [Function.comp_apply, sourceEntry, map_reverse, map_map]
  congr 1
  refine (map_congr_left fun param hparam => ?_).trans (map_id _)
  obtain ⟨name, hname, -⟩ := hnamed source hsource param hparam
  exact Prod.ext (by simp [namedParam, hname]) rfl

/-! ## The whole translation -/

namespace JingleContent

variable (content : JingleContent)

/-- `<payload-type/>` -/
def payloads : List Element := content.description.subelements "payload-type"

/-- `<rtp-hdrext/>` -/
def headerExtensions : List Element := content.description.subelements "rtp-hdrext"

/-- The sources, as they are kept. -/
def sources : List Source :=
  ((content.description.subelements "source").map elementSource).reverse

/-- The description, as it is kept. -/
def readDescription (exts : List RtphdrExt) : Description where
  codecs := (content.payloads.map payloadCodec).reverse
  rtphdrExt := exts.reverse
  rtcpMux := content.description.children.any fun child => child.name = "rtcp-mux"
  sources := content.sources

/-- The transport, as it is kept. -/
def readTransport : Transport where
  ufrag := content.transport.attr? "ufrag"
  pwd := content.transport.attr? "pwd"
  fingerprint := (content.transport.subelement "fingerprint").map readFingerprint

/-- The content, as it is kept. -/
def kept (sender : String) (exts : List RtphdrExt) : Content where
  media       := content.description.attr? "media"
  name        := content.el.attr? "name"
  protocol    := "UDP/TLS/RTP/SAVPF"
  description := some (content.readDescription exts)
  transport   := some content.readTransport
  senders     := sender

/-- **What is kept of a content.** -/
theorem fromMedia_el : fromMedia content.el = (decodeSenders content.el).bind fun sender =>
      (content.headerExtensions.mapM decodeRtpHdrExt).map (content.kept sender) := by
  rw [fromMedia_eq content.name_eq content.description_eq content.transport_eq,
    parseTransportElement_eq content.fingerprint_le, parseDescriptionChildren_eq]
  congr 1
  funext senders
  rw [Option.map_map]
  congr 1
  funext exts
  simp [kept, readDescription, payloads, sources, readTransport, Element.subelements]

theorem named_sources : ∀ source ∈ content.sources, ∀ param ∈ source.params,
    ∃ name, param.1 = some name ∧ ':' ∉ name.toList := by
  intro source hmem param hparam
  obtain ⟨el, hel, rfl⟩ := mem_map.1 (mem_reverse.1 hmem)
  obtain ⟨parameter, hparameter, rfl⟩ := mem_map.1 hparam
  exact content.named el hel parameter hparameter

theorem nodup_sources : (content.sources.map Source.ssrc).Nodup := by
  rw [sources, map_reverse, nodup_reverse, map_map]
  exact content.ssrc_nodup

end JingleContent

/-- What the two translations find on the way. -/
structure Translation (content : JingleContent) where
  sender : String
  exts : List RtphdrExt
  extAttrs : List Attribute
  ssrcAttrs : List (List Attribute)
  fingerprint : Fingerprint
  read : List (String × String × Option String)
  sourceMap : AList fun _ : Option String => List (String × Option String)
  extEls : List Element
  sourceEls : List Element
  media : String
  hash : String
  name : String
  sender_eq : decodeSenders content.el = some sender
  exts_eq : content.headerExtensions.mapM decodeRtpHdrExt = some exts
  extAttrs_eq : exts.reverse.mapM rtpHdrextToSdpAttr = some extAttrs
  ssrcAttrs_eq : content.sources.mapM sourceToNksipAttr = some ssrcAttrs
  codecs : ∀ codec ∈ (content.payloads.map payloadCodec).reverse, (codecAttrs codec).isSome
  fingerprint_eq : content.readTransport.fingerprint = some fingerprint
  read_eq : exts.reverse.mapM rereadExt = some read
  entries_eq : sourceMap.entries =
    ((content.sources.filter fun source => source.params ≠ []).map sourceEntry).reverse
  extEls_eq : read.reverse.mapM rtphdrExtToElement = some extEls
  sourceEls_eq : (toList sourceMap).mapM sourceToEl = some sourceEls
  media_eq : content.description.attr? "media" = some media
  hash_eq : fingerprint.hash = some hash
  name_eq : content.el.attr? "name" = some name

/-- The content that is made in the end. -/
def Translation.el (t : Translation content) (payloadEls : List Element) : Element :=
  madeContent t.name (content.el.attrD "senders" "both")
    (madeDescription t.media payloadEls t.extEls t.sourceEls
      (content.description.children.any fun child => child.name = "rtcp-mux"))
    (madeTransport (content.transport.attr? "ufrag") (content.transport.attr? "pwd")
      t.fingerprint.setup t.hash t.fingerprint.fingerprint)

section Translate

variable {content : JingleContent} {random : ℕ}
  {codecMap : Option String → Option (List CodecEntry)} {payloadEls : List Element}
  (hcodecs : (codecMap (content.description.attr? "media")).bind
    (fun codecs => codecs.mapM codecToPayload) = some payloadEls)

include hcodecs

/-- **What is translated there and back** is what both translations find their way through. -/
theorem translated_iff (candidateId : ℕ → String) {el : Element} :
    (∃ sdpM, (fromMedia content.el).bind (contentToNksipMedia random) = some sdpM ∧
      sdpMediaToContentEl candidateId codecMap sdpM = some el) ↔
    ∃ t : Translation content, el = t.el payloadEls := by
  -- what is read of the attributes, once they are written
  have hparse : ∀ {sender : String} {exts : List RtphdrExt} {extAttrs own : List Attribute}
      {ssrcAttrs : List (List Attribute)} {fmts : List (Option String)} (fingerprint : Fingerprint),
      decodeSenders content.el = some sender →
      exts.reverse.mapM rtpHdrextToSdpAttr = some extAttrs →
      (∀ attr ∈ own, attr.1 ∈ codecAttrNames) →
      content.sources.mapM sourceToNksipAttr = some ssrcAttrs →
      ∃ sourceMap : AList fun _ : Option String => List (String × Option String),
        sourceMap.entries =
            ((content.sources.filter fun source => source.params ≠ []).map sourceEntry).reverse ∧
          parseNksipMediaAttrs candidateId
              (madeMedia random (content.kept sender exts) (content.readDescription exts)
                content.readTransport fingerprint fmts
                  (extAttrs ++ (own ++ ssrcAttrs.flatten))).attributes {} =
            (exts.reverse.mapM rereadExt).map fun read =>
              { frontAttrs (content.el.attrD "senders" "both") (content.el.attr? "name")
                  content.readTransport fingerprint (content.readDescription exts).rtcpMux with
                rtphdrExt := read.reverse
                sourceMap := sourceMap } := by
    intro sender exts extAttrs own ssrcAttrs fmts fingerprint hsender hexts hown hssrc
    rw [madeMedia, JingleContent.kept, parseNksipMediaAttrs_front hsender]
    exact parseNksipMediaAttrs_media hexts hown hssrc content.named_sources content.nodup_sources
      ⟨rfl, rfl⟩
  constructor
  · rintro ⟨sdpM, hsdpM, hel⟩
    rw [content.fromMedia_el] at hsdpM
    obtain ⟨kept, hkept, hsdpM⟩ := Option.bind_eq_some_iff.1 hsdpM
    obtain ⟨sender, hsender, hkept⟩ := Option.bind_eq_some_iff.1 hkept
    obtain ⟨exts, hexts, rfl⟩ := Option.map_eq_some_iff.1 hkept
    obtain ⟨attrs, fmts, codecAttributes, extAttrs, fingerprint, hssrc, hcodecAttrs, hextAttrs,
      hfingerprint, rfl⟩ := (contentToNksipMedia_eq_some_iff rfl rfl).1 hsdpM
    obtain ⟨ssrcAttrs, hssrcAttrs, rfl⟩ := Option.map_eq_some_iff.1 hssrc
    obtain ⟨hall, own, hown, hnames⟩ := of_codecsToNksipAttrs2 hcodecAttrs
    obtain rfl : codecAttributes = own ++ ssrcAttrs.flatten := hown
    obtain ⟨sourceMap, hentries, hread⟩ := hparse fingerprint hsender hextAttrs hnames hssrcAttrs
    obtain ⟨read, extEls, sourceEls, media, hash, name, hread, hextEls, hsourceEls, hmedia, hhash,
      hname, rfl⟩ := (sdpMediaToContentEl_eq_some_iff hcodecs hread).1 hel
    exact ⟨⟨sender, exts, extAttrs, ssrcAttrs, fingerprint, read, sourceMap, extEls, sourceEls, media,
      hash, name, hsender, hexts, hextAttrs, hssrcAttrs, hall, hfingerprint, hread, hentries,
      hextEls, hsourceEls, hmedia, hhash, hname⟩, rfl⟩
  · rintro ⟨t, rfl⟩
    obtain ⟨⟨fmts, codecAttributes⟩, hresult⟩ :=
      exists_codecsToNksipAttrs2 t.codecs ([], t.ssrcAttrs.flatten)
    obtain ⟨-, own, hown, hnames⟩ := of_codecsToNksipAttrs2 hresult
    obtain rfl : codecAttributes = own ++ t.ssrcAttrs.flatten := hown
    obtain ⟨sourceMap, hentries, hread⟩ :=
      hparse t.fingerprint t.sender_eq t.extAttrs_eq hnames t.ssrcAttrs_eq
    obtain rfl : t.sourceMap = sourceMap := AList.ext (t.entries_eq.trans hentries.symm)
    refine ⟨madeMedia random (content.kept t.sender t.exts) (content.readDescription t.exts)
      content.readTransport t.fingerprint fmts (t.extAttrs ++ (own ++ t.ssrcAttrs.flatten)), ?_, ?_⟩
    · rw [content.fromMedia_el, t.sender_eq, Option.bind_some, t.exts_eq, Option.map_some,
        Option.bind_some]
      refine (contentToNksipMedia_eq_some_iff rfl rfl).2
        ⟨t.ssrcAttrs.flatten, fmts, own ++ t.ssrcAttrs.flatten, t.extAttrs, t.fingerprint, ?_, hresult,
          t.extAttrs_eq, t.fingerprint_eq, rfl⟩
      rw [sourcesToNksipAttrs, JingleContent.readDescription, t.ssrcAttrs_eq]
      rfl
    · exact (sdpMediaToContentEl_eq_some_iff hcodecs hread).2
        ⟨t.read, t.extEls, t.sourceEls, t.media, t.hash, t.name, t.read_eq, t.extEls_eq,
          t.sourceEls_eq, t.media_eq, t.hash_eq, t.name_eq, rfl⟩

end Translate

/-! ## What survives -/

/-- A payload is translated when it has a name, a clock rate, and values for its parameters. -/
theorem codecAttrs_payloadCodec_isSome_iff (payload : Element) :
    (codecAttrs (payloadCodec payload)).isSome ↔
    (payload.attr? "name").isSome ∧ (payload.attr? "clockrate").isSome ∧
      ∀ parameter ∈ payload.subelements "parameter", (parameter.attr? "value").isSome := by
  obtain ⟨rtcpFbParams, hcodec⟩ := parsePayloadChildren_eq
    ⟨payload.attr? "id", payload.attr? "name", payload.attr? "clockrate",
      payload.attrD "channels" "1", [], []⟩ payload.children
  rw [codecAttrs_isSome_iff, payloadCodec, hcodec]
  simp only [append_nil, mem_reverse, forall_mem_map]
  rfl

/-- The number that is read of a header extension has no slash. -/
theorem notMem_of_rereadExt {ext : RtphdrExt} {read : String × String × Option String}
    (h : rereadExt ext = some read) : '/' ∉ read.1.toList := by
  obtain ⟨idWithSender, -, hdecode⟩ := Option.bind_eq_some_iff.1 h
  obtain ⟨⟨id, sender⟩, hid, rfl⟩ := Option.map_eq_some_iff.1 hdecode
  have hmem := notMem_splitOnce (c := '/') idWithSender
  unfold decodeExtmapId at hid
  split at hid
  · rename_i hsplit
    rw [hsplit] at hmem
    obtain ⟨rfl, -⟩ := Prod.mk.inj (Option.some.inj hid)
    exact hmem
  · rename_i hsplit
    rw [hsplit] at hmem
    obtain ⟨_, -, hpair⟩ := Option.map_eq_some_iff.1 hid
    obtain ⟨rfl, -⟩ := Prod.mk.inj hpair
    exact hmem

/-- What is read of a header extension, its element says. -/
theorem headerExtensionView_of_rtphdrExtToElement {ext : String × String × Option String}
    {el : Element} (h : rtphdrExtToElement ext = some el) :
    headerExtensionView el = (some ext.1, ext.2.2, ext.2.1) := by
  obtain ⟨uri, huri, rfl⟩ := Option.map_eq_some_iff.1 h
  rw [huri]
  rfl

namespace Translation

variable {content : JingleContent} (t : Translation content)

theorem sourceEls_map : t.sourceEls.map sourceView =
    ((content.sources.filter fun source => source.params ≠ []).map fun source =>
    (source.ssrc, source.params.reverse)).reverse :=
  map_sourceView t.entries_eq t.sourceEls_eq content.named_sources

section

variable {payloadEls : List Element} (hpayload : ∀ el ∈ payloadEls, el.name = "payload-type")

include hpayload

variable {content' : JingleContent}

theorem view_eq (hel : content'.el = t.el payloadEls) : content'.view = { content.view with
      fingerprint      := some (some t.hash, t.fingerprint.fingerprint)
      setup            := t.fingerprint.setup
      headerExtensions := t.read.reverse.map fun ext => (some ext.1, ext.2.2, ext.2.1)
      sources          := t.sourceEls.map sourceView } := by
  rw [view_of_made hel hpayload (names_of_mapM (fun _ _ => name_of_rtphdrExtToElement) t.extEls_eq)
      (names_of_mapM (fun _ _ => name_of_sourceToEl) t.sourceEls_eq),
    map_of_mapM t.extEls_eq fun _ _ => headerExtensionView_of_rtphdrExtToElement]
  simp [JingleContent.view, t.name_eq]

/-- **What was translated and says the same could be translated.** -/
theorem translatable
    (hel : content'.el = t.el payloadEls) (hsame : content.view.Same content'.view) :
    Translatable content := by
  rw [t.view_eq hpayload hel] at hsame
  constructor
  · rw [t.media_eq]
    rfl
  · exact (senderToSdpAttr_eq_some t.sender_eq).1
  · intro payload hmem
    refine (codecAttrs_payloadCodec_isSome_iff payload).1 (t.codecs _ ?_)
    exact mem_reverse.2 (mem_map_of_mem hmem)
  · intro ext hmem
    obtain ⟨kept, -, hkept⟩ := exists_of_mapM t.exts_eq hmem
    obtain ⟨sender, hsender, -⟩ := Option.map_eq_some_iff.1 hkept
    have hview : headerExtensionView ext ∈
        t.read.reverse.map fun ext => (some ext.1, ext.2.2, ext.2.1) :=
      hsame.headerExtensions.mem_iff.1 (mem_map_of_mem hmem)
    obtain ⟨read, hread, heq⟩ := mem_map.1 hview
    obtain ⟨kept', -, hreread⟩ := exists_of_mem_mapM t.read_eq (mem_reverse.1 hread)
    obtain ⟨el, -, hel⟩ := exists_of_mapM t.extEls_eq hread
    obtain ⟨uri, huri, -⟩ := Option.map_eq_some_iff.1 hel
    obtain ⟨hid, hrest⟩ := Prod.mk.inj heq
    obtain ⟨huri', -⟩ := Prod.mk.inj hrest
    refine ⟨⟨read.1, hid.symm, notMem_of_rereadExt hreread⟩, ?_,
      (senderToSdpAttr_eq_some hsender).1⟩
    rw [← huri', huri]
    rfl
  · intro source hmem
    have hkept : elementSource source ∈ content.sources := mem_reverse.2 (mem_map_of_mem hmem)
    obtain ⟨sources, hperm, hforall⟩ := hsame.sources
    have hview : sourceView source ∈ sources := hperm.mem_iff.1 (mem_map_of_mem hmem)
    obtain ⟨made, hmade, hssrc, hparams⟩ := exists_of_forall₂ hforall hview
    refine ⟨?_, ?_, ?_⟩
    · obtain ⟨el, hel, rfl⟩ := mem_map.1 hmade
      obtain ⟨entry, -, hentry⟩ := exists_of_mem_mapM t.sourceEls_eq hel
      obtain ⟨ssrc, hkey, -⟩ := Option.map_eq_some_iff.1 hentry
      rw [sourceView_of_sourceToEl hentry, hkey] at hssrc
      exact Option.isSome_of_eq_some hssrc
    · intro hnone
      rw [t.sourceEls_map, mem_reverse] at hmade
      obtain ⟨kept, hfilter, rfl⟩ := mem_map.1 hmade
      have hne : kept.params ≠ [] := by simpa using (mem_filter.1 hfilter).2
      have hnil : (sourceView source).2 = [] := by rw [sourceView, hnone, map_nil]
      rw [hnil] at hparams
      exact hne (reverse_eq_nil_iff.1 hparams.nil_eq.symm)
    · intro parameter hparameter
      obtain ⟨attrs, -, hattrs⟩ := exists_of_mapM t.ssrcAttrs_eq hkept
      obtain ⟨attr, -, hattr⟩ := exists_of_mapM hattrs (mem_map_of_mem hparameter)
      obtain ⟨value, hvalue, -⟩ := Option.map_eq_some_iff.1 hattr
      cases hnone : parameter.attr? "value" with
      | none =>
        rw [sourceParamToKv, hnone] at hvalue
        cases parameter.attr? "name" <;> simp [sourceToNksipValue] at hvalue
      | some _ => rfl
  · obtain ⟨fingerprint, hfingerprint, hkept⟩ := Option.map_eq_some_iff.1 t.fingerprint_eq
    have hhash : (readFingerprint fingerprint).hash = some t.hash := by rw [hkept, t.hash_eq]
    exact ⟨fingerprint, hfingerprint, Option.isSome_of_eq_some hhash⟩

/-- **What is made is a content** like the ones that are translated. -/
theorem exists_content : ∃ content' : JingleContent, content'.el = t.el payloadEls := by
  obtain ⟨-, hsources, -⟩ := madeDescription_spec t.media
    (content.description.children.any fun child => child.name = "rtcp-mux") hpayload
    (names_of_mapM (fun _ _ => name_of_rtphdrExtToElement) t.extEls_eq)
    (names_of_mapM (fun _ _ => name_of_sourceToEl) t.sourceEls_eq)
  refine ⟨⟨t.el payloadEls, _, _, rfl, rfl, rfl, rfl, Nat.le_refl 1, ?_, ?_⟩, rfl⟩
  · rw [hsources]
    have hssrc : (t.sourceEls.map fun source => source.attr? "ssrc") =
        (t.sourceEls.map sourceView).map Prod.fst := by
      rw [map_map]
      rfl
    rw [hssrc, t.sourceEls_map, map_reverse, nodup_reverse, map_map]
    exact content.nodup_sources.sublist (filter_sublist.map Source.ssrc)
  · rw [hsources]
    intro source hmem parameter hparameter
    have hview : sourceView source ∈ t.sourceEls.map sourceView := mem_map_of_mem hmem
    rw [t.sourceEls_map, mem_reverse] at hview
    obtain ⟨kept, hkept, heq⟩ := mem_map.1 hview
    have hparams : kept.params.reverse = (sourceView source).2 := congrArg Prod.snd heq
    have hparam : sourceParamToKv parameter ∈ kept.params.reverse := by
      rw [hparams]
      exact mem_map_of_mem hparameter
    exact content.named_sources kept (mem_of_mem_filter hkept) _ (mem_reverse.1 hparam)

end

end Translation

/-- A header extension, as it is kept. -/
def keptExt : RtphdrExt :=
  ⟨ext.attr? "id", ext.attr? "uri", (senderToSdpAttr (ext.attrD "senders" "both")).getD ""⟩

/-- What is read of its attribute. -/
def readExt : String × String × Option String :=
  ((ext.attr? "id").getD "", ext.attrD "senders" "both", ext.attr? "uri")

/-- **A header extension is read** as it was written. -/
theorem rereadExt_keptExt {ext : Element} {id : String} (hid : ext.attr? "id" = some id)
    (hslash : '/' ∉ id.toList) (hsenders : ext.attrD "senders" "both" ∈ senderValues) :
    rereadExt (keptExt ext) = some (readExt ext) := by
  obtain ⟨attr, hattr⟩ := exists_senderToSdpAttr hsenders
  have hkept : keptExt ext = ⟨some id, ext.attr? "uri", attr⟩ := by
    rw [keptExt, hid, hattr]
    rfl
  have hread : readExt ext = (id, ext.attrD "senders" "both", ext.attr? "uri") := by
    rw [readExt, hid]
    rfl
  have hdecode : decodeExtmapId (extmapId attr id) = some (id, ext.attrD "senders" "both") := by
    unfold extmapId
    split
    · rename_i hboth
      have hsenders' : ext.attrD "senders" "both" = "both" := by
        have hdecoded := (senderToSdpAttr_eq_some hattr).2
        rw [hboth] at hdecoded
        exact (Option.some.inj hdecoded).symm
      rw [decodeExtmapId, splitOnce_of_notMem hslash, hsenders']
    · have hsplit : splitOnce '/' (id ++ "/" ++ attr) = (id, some attr) := splitOnce_append hslash
      rw [decodeExtmapId, hsplit]
      simp [(senderToSdpAttr_eq_some hattr).2]
  rw [rereadExt, hkept, hread, Option.map_some, Option.bind_some, hdecode]
  rfl

namespace Translatable

variable {content : JingleContent} (h : Translatable content)

include h

theorem exists_value {source : Source} (hsource : source ∈ content.sources)
    {param : Option String × Option String} (hparam : param ∈ source.params) :
    ∃ value, sourceToNksipValue param.1 param.2 = some value := by
  obtain ⟨name, hname, -⟩ := content.named_sources source hsource param hparam
  obtain ⟨el, hel, rfl⟩ := mem_map.1 (mem_reverse.1 hsource)
  obtain ⟨parameter, hparameter, rfl⟩ := mem_map.1 hparam
  obtain ⟨value, hvalue⟩ := Option.isSome_iff_exists.1 ((h.source el hel).2.2 parameter hparameter)
  refine ⟨name ++ ":" ++ value, ?_⟩
  rw [hname, sourceParamToKv, hvalue]
  rfl

theorem filter_sources :
    (content.sources.filter fun source => source.params ≠ []) = content.sources := by
  rw [filter_eq_self]
  intro source hsource
  obtain ⟨el, hel, rfl⟩ := mem_map.1 (mem_reverse.1 hsource)
  simpa [elementSource] using (h.source el hel).2.1

/-- **A translatable content is translated** there and back. -/
theorem exists_translation : ∃ t : Translation content,
    t.read = (content.headerExtensions.map readExt).reverse := by
  obtain ⟨media, hmedia⟩ := Option.isSome_iff_exists.1 h.media
  obtain ⟨name, hname⟩ := Option.isSome_iff_exists.1 content.name_isSome
  obtain ⟨sender, hsender⟩ := exists_senderToSdpAttr h.senders
  obtain ⟨fingerprint, hfingerprint, hhash⟩ := h.fingerprint
  obtain ⟨hash, hhash⟩ := Option.isSome_iff_exists.1 hhash
  have hkept : content.readTransport.fingerprint = some (readFingerprint fingerprint) := by
    rw [JingleContent.readTransport, hfingerprint]
    rfl
  have hexts : content.headerExtensions.mapM decodeRtpHdrExt =
      some (content.headerExtensions.map keptExt) := by
    refine mapM_eq_some_map fun ext hmem => ?_
    obtain ⟨attr, hattr⟩ := exists_senderToSdpAttr (h.headerExtension ext hmem).2.2
    rw [decodeRtpHdrExt, keptExt, hattr]
    rfl
  obtain ⟨extAttrs, hextAttrs, -⟩ :=
    exists_mapM (f := rtpHdrextToSdpAttr) (l := (content.headerExtensions.map keptExt).reverse)
      fun kept hmem => by
        obtain ⟨ext, hext, rfl⟩ := mem_map.1 (mem_reverse.1 hmem)
        obtain ⟨⟨id, hid, -⟩, -⟩ := h.headerExtension ext hext
        by_cases hboth : (keptExt ext).senders = "sendrecv"
        · exact ⟨_, by rw [rtpHdrextToSdpAttr, rtpHdrextValue, if_pos hboth]; rfl⟩
        · refine ⟨("extmap", [some (id ++ "/" ++ (keptExt ext).senders), (keptExt ext).uri]), ?_⟩
          rw [rtpHdrextToSdpAttr, rtpHdrextValue, if_neg hboth, keptExt, hid]
          rfl
  obtain ⟨ssrcAttrs, hssrcAttrs, -⟩ :=
    exists_mapM (f := sourceToNksipAttr) (l := content.sources) fun source hsource => by
      obtain ⟨attrs, hattrs, -⟩ := exists_mapM (l := source.params)
        (f := fun param => (sourceToNksipValue param.1 param.2).map fun value =>
          (("ssrc", [source.ssrc, some value]) : Attribute)) fun param hparam => by
            obtain ⟨value, hvalue⟩ := h.exists_value hsource hparam
            exact ⟨_, by rw [hvalue]; rfl⟩
      exact ⟨attrs, hattrs⟩
  have hread : (content.headerExtensions.map keptExt).reverse.mapM rereadExt =
      some (content.headerExtensions.map readExt).reverse := by
    rw [← map_reverse, ← map_reverse, mapM_map]
    refine mapM_eq_some_map fun ext hmem => ?_
    obtain ⟨⟨id, hid, hslash⟩, -, hsenders⟩ := h.headerExtension ext (mem_reverse.1 hmem)
    exact rereadExt_keptExt hid hslash hsenders
  obtain ⟨extEls, hextEls, -⟩ := exists_mapM (f := rtphdrExtToElement)
    (l := (content.headerExtensions.map readExt).reverse.reverse) fun read hmem => by
      rw [reverse_reverse] at hmem
      obtain ⟨ext, hext, rfl⟩ := mem_map.1 hmem
      obtain ⟨uri, huri⟩ := Option.isSome_iff_exists.1 (h.headerExtension ext hext).2.1
      exact ⟨_, by rw [rtphdrExtToElement, readExt, huri]; rfl⟩
  obtain ⟨sourceMap, -, hentries⟩ := parseNksipMediaAttrs_sources
    (fun _ => "") hssrcAttrs content.named_sources content.nodup_sources ∅
      (fun _ _ => AList.notMem_empty _) {}
  rw [AList.empty_entries, append_nil] at hentries
  obtain ⟨sourceEls, hsourceEls, -⟩ := exists_mapM (f := sourceToEl) (l := toList sourceMap)
    fun entry hmem => by
      obtain ⟨entry', hentry', rfl⟩ := mem_map.1 hmem
      rw [hentries, h.filter_sources, mem_reverse] at hentry'
      obtain ⟨source, hsource, rfl⟩ := mem_map.1 hentry'
      obtain ⟨el, hel, rfl⟩ := mem_map.1 (mem_reverse.1 hsource)
      obtain ⟨ssrc, hssrc⟩ := Option.isSome_iff_exists.1 (h.source el hel).1
      exact ⟨_, by rw [sourceToEl, sourceEntry, elementSource, hssrc]; rfl⟩
  have hcodecs : ∀ codec ∈ (content.payloads.map payloadCodec).reverse,
      (codecAttrs codec).isSome := by
    intro codec hmem
    obtain ⟨payload, hpayload, rfl⟩ := mem_map.1 (mem_reverse.1 hmem)
    exact (codecAttrs_payloadCodec_isSome_iff payload).2 (h.payload payload hpayload)
  refine ⟨⟨sender, _, extAttrs, ssrcAttrs, readFingerprint fingerprint, _, sourceMap, extEls,
    sourceEls, media, hash, name, hsender, hexts, hextAttrs, hssrcAttrs, hcodecs, hkept, hread,
    hentries, hextEls, hsourceEls, hmedia, hhash, hname⟩, ?_⟩
  rfl

/-- **And it says the same.** -/
theorem same {t : Translation content}
    (hread : t.read = (content.headerExtensions.map readExt).reverse) {payloadEls : List Element}
    (hpayload : ∀ el ∈ payloadEls, el.name = "payload-type") {content' : JingleContent}
    (hel : content'.el = t.el payloadEls) : content.view.Same content'.view := by
  obtain ⟨fingerprint, hfingerprint, hkept⟩ := Option.map_eq_some_iff.1 t.fingerprint_eq
  have hhash : fingerprint.attr? "hash" = some t.hash := by
    have hhash := t.hash_eq
    rw [← hkept] at hhash
    exact hhash
  rw [t.view_eq hpayload hel]
  refine ⟨rfl, rfl, rfl, rfl, ?_, ?_, rfl, ?_, content.view.sources, .refl _, ?_⟩
  · simp [JingleContent.view, hfingerprint, hhash, ← hkept, readFingerprint]
  · simp [JingleContent.view, hfingerprint, ← hkept, readFingerprint]
  · rw [hread, reverse_reverse, map_map]
    refine List.Perm.of_eq (map_congr_left fun ext hmem => ?_)
    obtain ⟨⟨id, hid, -⟩, -⟩ := h.headerExtension ext hmem
    simp [headerExtensionView, readExt, hid]
  · have hsources : t.sourceEls.map sourceView =
        (content.description.subelements "source").map fun source =>
          ((sourceView source).1, (sourceView source).2.reverse) := by
      rw [t.sourceEls_map, h.filter_sources, JingleContent.sources, map_reverse,
        reverse_reverse, map_map]
      rfl
    show List.Forall₂ _ ((content.description.subelements "source").map sourceView)
      (t.sourceEls.map sourceView)
    rw [hsources, forall₂_map_left_iff, forall₂_map_right_iff, forall₂_same]
    intro source _
    exact ⟨rfl, (reverse_perm _).symm⟩

end Translatable

/-- **Exactly the translatable contents survive**: those whose media, payloads, sources and
fingerprint have all that both translations ask for. -/
theorem survives_iff (random : ℕ) (candidateId : ℕ → String)
    (codecMap : Option String → Option (List CodecEntry)) (content : JingleContent)
    (hcodecs : ((codecMap (content.description.attr? "media")).bind fun codecs =>
    codecs.mapM codecToPayload).isSome) :
    Survives random candidateId codecMap content ↔ Translatable content := by
  obtain ⟨payloadEls, hpayloadEls⟩ := Option.isSome_iff_exists.1 hcodecs
  obtain ⟨codecs, -, hcodecs⟩ := Option.bind_eq_some_iff.1 hpayloadEls
  have hpayload := names_of_mapM (fun _ _ => name_of_codecToPayload) hcodecs
  constructor
  · rintro ⟨sdpM, content', hsdpM, hel, hsame⟩
    obtain ⟨t, ht⟩ := (translated_iff hpayloadEls candidateId).1 ⟨sdpM, hsdpM, hel⟩
    exact t.translatable hpayload ht hsame
  · intro h
    obtain ⟨t, hread⟩ := h.exists_translation
    obtain ⟨content', hel⟩ := t.exists_content hpayload
    obtain ⟨sdpM, hsdpM, hmade⟩ := (translated_iff hpayloadEls candidateId).2 ⟨t, rfl⟩
    exact ⟨sdpM, content', hsdpM, by rw [hmade, hel], h.same hread hpayload hel⟩

/-! ### An audio call -/

variable (value : List (String × String))

/-- A description with a payload, a header extension, multiplexing, and a source with a parameter,
which has a value or not. -/
def audioDescription : Element :=
  .mk "description" [("media", "audio")]
    [.mk "payload-type" [("id", "97"), ("name", "speex"), ("clockrate", "8000")] [] "",
      .mk "rtp-hdrext" [("id", "1"), ("uri", "urn:ietf:params:rtp-hdrext:toffset")] [] "",
      .mk "rtcp-mux" [] [] "",
      .mk "source" [("ssrc", "1656081975")]
        [.mk "parameter" (("name", "cname") :: value) [] ""] ""] ""

/-- A transport, with a fingerprint or without. -/
def audioTransport (dtls : Bool) : Element :=
  .mk "transport" [("ufrag", "8hhy"), ("pwd", "asd88fgpdd777uzjYhagZg")]
    (if dtls then
      [.mk "fingerprint" [("hash", "sha-256"), ("setup", "actpass")] [] "02:1A:CC:54:27:AB:EB:9C"]
    else []) ""

/-- The content. -/
def audio (dtls : Bool) : JingleContent where
  el := .mk "content" [("creator", "initiator"), ("name", "voice")]
    [audioDescription value, audioTransport dtls] ""
  description := audioDescription value
  transport := audioTransport dtls
  name_eq := rfl
  name_isSome := rfl
  description_eq := rfl
  transport_eq := rfl
  fingerprint_le := by cases dtls <;> decide
  ssrc_nodup := List.nodup_singleton _
  named := by
    intro source hsource parameter hparameter
    obtain rfl := List.mem_singleton.1 hsource
    obtain rfl := List.mem_singleton.1 hparameter
    exact ⟨"cname", rfl, by decide⟩

/-- The codec of the media. -/
def audioCodecs (_ : Option String) : Option (List CodecEntry) := some [⟨"97", "speex/8000", []⟩]

/-- A call survives that has everything. -/
theorem survives_iff_audio :
    Survives 0 (fun _ => "el0747fg11") audioCodecs (audio [("value", "14965")] true) := by
  refine (survives_iff 0 _ audioCodecs (audio [("value", "14965")] true) rfl).2
    ⟨rfl, by decide, ?_, ?_, ?_, ⟨_, rfl, rfl⟩⟩
  · intro payload hmem
    obtain rfl := mem_singleton.1 hmem
    exact ⟨rfl, rfl, fun _ hnone => nomatch hnone⟩
  · intro ext hmem
    obtain rfl := mem_singleton.1 hmem
    exact ⟨⟨"1", rfl, by decide⟩, rfl, by decide⟩
  · intro source hmem
    obtain rfl := mem_singleton.1 hmem
    refine ⟨rfl, cons_ne_nil _ _, ?_⟩
    intro parameter hparameter
    obtain rfl := mem_singleton.1 hparameter
    rfl

/-- **A call without fingerprint, and one with a parameter without value, crash.** -/
theorem call_crashes :
    ¬ Survives 0 (fun _ => "el0747fg11") audioCodecs (audio [("value", "14965")] false) ∧
    ¬ Survives 0 (fun _ => "el0747fg11") audioCodecs (audio [] true) := by
  constructor
  · rintro ⟨sdpM, content', hsdpM, -⟩
    have hnone : (fromMedia (audio [("value", "14965")] false).el).bind (contentToNksipMedia 0) =
        none := rfl
    rw [hnone] at hsdpM
    cases hsdpM
  · rintro ⟨sdpM, content', hsdpM, -⟩
    have hnone : (fromMedia (audio [] true).el).bind (contentToNksipMedia 0) = none := rfl
    rw [hnone] at hsdpM
    cases hsdpM

end MongooseIM.JingleSip
