import MongooseIM.JingleSip.SipToJingle

/-! # Reading the attributes that were written

What `sip_to_jingle` makes of the attributes of `mod_jingle_sip`, one kind after another. -/

namespace MongooseIM.JingleSip

open Erlang Xmpp List

/-! ## Senders -/

/-- The values of `senders`. -/
def senderValues : List String := ["both", "initiator", "responder", "none"]

variable {senders attr : String}

theorem senderToSdpAttr_eq_some (h : senderToSdpAttr senders = some attr) :
    senders ∈ senderValues ∧ decodeSender attr = some senders := by
  unfold senderToSdpAttr at h
  split at h <;> cases h <;> exact ⟨by decide, rfl⟩

theorem exists_senderToSdpAttr (h : senders ∈ senderValues) :
    ∃ attr, senderToSdpAttr senders = some attr := by
  simp only [senderValues, mem_cons, not_mem_nil, or_false] at h
  rcases h with rfl | rfl | rfl | rfl <;> exact ⟨_, rfl⟩

/-! ## Reading what was written -/

variable {candidateId : ℕ → String}

theorem parseNksipMediaAttrs_append (attrs attrs' : List Attribute) (acc : MediaAttrs) :
    parseNksipMediaAttrs candidateId (attrs ++ attrs') acc =
    (parseNksipMediaAttrs candidateId attrs acc).bind (parseNksipMediaAttrs candidateId attrs') :=
  foldlM_append

theorem parseNksipMediaAttrs_cons (attr : Attribute) (attrs : List Attribute) (acc : MediaAttrs) :
    parseNksipMediaAttrs candidateId (attr :: attrs) acc =
    (parseNksipMediaAttr candidateId acc attr).bind (parseNksipMediaAttrs candidateId attrs) :=
  foldlM_cons

variable {attrs : List Attribute}

theorem parseNksipMediaAttrs_codecs
    (hattrs : ∀ attr ∈ attrs, attr.1 ∈ codecAttrNames) (acc : MediaAttrs) :
    parseNksipMediaAttrs candidateId attrs acc = some acc := by
  induction attrs with
  | nil => rfl
  | cons attr attrs ih =>
    rw [forall_mem_cons] at hattrs
    obtain ⟨⟨name, value⟩, hname⟩ : ∃ attr', attr' = attr := ⟨attr, rfl⟩
    have hattr : parseNksipMediaAttr candidateId acc attr = some acc := by
      have hmem := hattrs.1
      subst hname
      simp only [codecAttrNames, mem_cons, not_mem_nil, or_false] at hmem
      rcases hmem with rfl | rfl | rfl <;> rfl
    rw [parseNksipMediaAttrs_cons, hattr, Option.bind_some, ih hattrs.2]

/-- What is written of the number of a header extension. -/
def extmapId (senders id : String) : String :=
  if senders = "sendrecv" then id else id ++ "/" ++ senders

theorem eq_of_rtpHdrextToSdpAttr {ext : RtphdrExt} {attr : Attribute}
    (h : rtpHdrextToSdpAttr ext = some attr) :
    attr = ("extmap", [ext.id.map (extmapId ext.senders), ext.uri]) := by
  obtain ⟨value, hvalue, rfl⟩ := Option.map_eq_some_iff.1 h
  unfold rtpHdrextValue at hvalue
  split at hvalue
  · rename_i hboth
    cases hvalue
    have hid : extmapId ext.senders = id := by
      funext id
      rw [extmapId, if_pos hboth]
      rfl
    rw [hid, Option.map_id_fun, id]
  · rename_i hboth
    obtain ⟨id, hid, rfl⟩ := Option.map_eq_some_iff.1 hvalue
    rw [hid, Option.map_some, extmapId, if_neg hboth]

/-- What is read of a header extension. -/
def rereadExt (ext : RtphdrExt) : Option (String × String × Option String) :=
  (ext.id.map (extmapId ext.senders)).bind fun idWithSender =>
    (decodeExtmapId idWithSender).map fun read => (read.1, read.2, ext.uri)

variable {exts : List RtphdrExt}

/-- Header extensions are read one after another, where they were written. -/
theorem parseNksipMediaAttrs_exts
    (hattrs : exts.mapM rtpHdrextToSdpAttr = some attrs) (acc : MediaAttrs) :
    parseNksipMediaAttrs candidateId attrs acc = (exts.mapM rereadExt).map fun read =>
      { acc with rtphdrExt := read.reverse ++ acc.rtphdrExt } := by
  have hwritten := forall₂_of_mapM hattrs
  clear hattrs
  induction hwritten generalizing acc with
  | nil => rfl
  | @cons ext attr exts attrs hattr _ ih =>
    have hread : parseNksipMediaAttr candidateId acc attr =
        (rereadExt ext).map fun read => { acc with rtphdrExt := read :: acc.rtphdrExt } := by
      rw [eq_of_rtpHdrextToSdpAttr hattr, rereadExt]
      cases ext.id.map (extmapId ext.senders) with
      | none => rfl
      | some idWithSender =>
        cases hdecode : decodeExtmapId idWithSender <;> simp [parseNksipMediaAttr, hdecode]
    rw [parseNksipMediaAttrs_cons, hread]
    cases hext : rereadExt ext with
    | none => simp [hext]
    | some read =>
      cases hexts : exts.mapM rereadExt with
      | none => simp [ih, hext, hexts]
      | some rest => simp [ih, hext, hexts]

/-! ### Sources -/

/-- A parameter of a source, with its name. -/
def namedParam (param : Option String × Option String) : String × Option String :=
  (param.1.getD "", param.2)

variable {ssrc : Option String}

theorem parseNksipMediaAttr_ssrc {param : Option String × Option String}
    {attr : Attribute} (hnamed : ∃ name, param.1 = some name ∧ ':' ∉ name.toList)
    (hattr : (sourceToNksipValue param.1 param.2).map
    (fun value => (("ssrc", [ssrc, some value]) : Attribute)) = some attr) (acc : MediaAttrs) :
    parseNksipMediaAttr candidateId acc attr = some (acc.putSource ssrc (namedParam param)) := by
  obtain ⟨value', hvalue', rfl⟩ := Option.map_eq_some_iff.1 hattr
  obtain ⟨name, value⟩ := param
  obtain ⟨name, rfl, hcolon⟩ := hnamed
  cases value with
  | none => cases hvalue'
  | some value =>
    obtain rfl : name ++ ":" ++ value = value' := Option.some.inj hvalue'
    have hsplit : splitOnce ':' (name ++ ":" ++ value) = (name, some value) :=
      splitOnce_append hcolon
    have hdecode : decodeSsrcSdpParam [some (name ++ ":" ++ value)] = some (name, some value) :=
      congrArg some hsplit
    simp [parseNksipMediaAttr, hdecode, namedParam]

theorem parseNksipMediaAttrs_source {source : Source}
    (hattrs : sourceToNksipAttr source = some attrs)
    (hnamed : ∀ param ∈ source.params, ∃ name, param.1 = some name ∧ ':' ∉ name.toList)
    (acc : MediaAttrs) :
    parseNksipMediaAttrs candidateId attrs acc = some ((source.params.map namedParam).foldl
      (fun acc param => acc.putSource source.ssrc param) acc) := by
  have hwritten := forall₂_of_mapM hattrs
  clear hattrs
  generalize source.params = params at hwritten hnamed ⊢
  induction hwritten generalizing acc with
  | nil => rfl
  | @cons param attr params attrs hattr _ ih =>
    rw [forall_mem_cons] at hnamed
    rw [parseNksipMediaAttrs_cons, parseNksipMediaAttr_ssrc hnamed.1 hattr, Option.bind_some,
      ih _ hnamed.2]
    rfl

/-- The entry of a source in the map: the last parameter is in front. -/
def sourceEntry (source : Source) : Σ _ : Option String, List (String × Option String) :=
  ⟨source.ssrc, (source.params.map namedParam).reverse⟩

/-- Only the map of sources differs. -/
def MediaAttrs.withSources (acc : MediaAttrs)
    (sourceMap : AList fun _ : Option String => List (String × Option String)) : MediaAttrs :=
  { acc with sourceMap := sourceMap }

variable {sourceMap : AList fun _ : Option String => List (String × Option String)}

variable (params : List (String × Option String))

theorem foldl_putSource
    {old : List (String × Option String)}
    {rest : List (Σ _ : Option String, List (String × Option String))}
    (hentries : sourceMap.entries = ⟨ssrc, old⟩ :: rest) (acc : MediaAttrs) :
    ∃ sourceMap', params.foldl (fun acc param => acc.putSource ssrc param)
      (acc.withSources sourceMap) = acc.withSources sourceMap' ∧
    sourceMap'.entries = ⟨ssrc, params.reverse ++ old⟩ :: rest := by
  induction params generalizing old sourceMap with
  | nil => exact ⟨sourceMap, rfl, hentries⟩
  | cons param params ih =>
    have hlookup : sourceMap.lookup ssrc = some old := by
      rw [AList.lookup, hentries, dlookup_cons_eq]
    have hput : (acc.withSources sourceMap).putSource ssrc param =
        acc.withSources (sourceMap.insert ssrc (param :: old)) := by
      simp [MediaAttrs.putSource, MediaAttrs.withSources, hlookup]
    have hinsert : (sourceMap.insert ssrc (param :: old)).entries =
        ⟨ssrc, param :: old⟩ :: rest := by
      rw [AList.entries_insert, hentries]
      exact congrArg _ (kerase_cons_eq rfl)
    obtain ⟨sourceMap', hfold, hentries'⟩ := ih hinsert
    refine ⟨sourceMap', ?_, ?_⟩
    · rw [foldl_cons, hput, hfold]
    · rw [hentries', reverse_cons, append_assoc]
      rfl

/-- **A source gets an entry** of its own, if it has parameters. -/
theorem foldl_putSource_new (hnew : ssrc ∉ sourceMap) (acc : MediaAttrs) :
    ∃ sourceMap', params.foldl (fun acc param => acc.putSource ssrc param)
      (acc.withSources sourceMap) = acc.withSources sourceMap' ∧
    sourceMap'.entries =
      (if params = [] then [] else [⟨ssrc, params.reverse⟩]) ++ sourceMap.entries := by
  cases params with
  | nil => exact ⟨sourceMap, rfl, rfl⟩
  | cons param params =>
    have hlookup : sourceMap.lookup ssrc = none := AList.lookup_eq_none.2 hnew
    have hput : (acc.withSources sourceMap).putSource ssrc param =
        acc.withSources (sourceMap.insert ssrc [param]) := by
      simp [MediaAttrs.putSource, MediaAttrs.withSources, hlookup]
    obtain ⟨sourceMap', hfold, hentries⟩ :=
      foldl_putSource params (AList.entries_insert_of_notMem hnew) acc
    refine ⟨sourceMap', ?_, ?_⟩
    · rw [foldl_cons, hput, hfold]
    · rw [hentries, if_neg (cons_ne_nil _ _), reverse_cons]
      rfl

variable {sources : List Source}

/-- **Sources are read** one after another, where they were written: each has its own entry, unless
it has no parameters. -/
theorem parseNksipMediaAttrs_sources (candidateId : ℕ → String)
    {attrs : List (List Attribute)}
    (hattrs : sources.mapM sourceToNksipAttr = some attrs)
    (hnamed : ∀ source ∈ sources, ∀ param ∈ source.params,
    ∃ name, param.1 = some name ∧ ':' ∉ name.toList)
    (hnodup : (sources.map Source.ssrc).Nodup)
    (sourceMap : AList fun _ : Option String => List (String × Option String))
    (hnew : ∀ source ∈ sources, source.ssrc ∉ sourceMap) (acc : MediaAttrs) :
    ∃ sourceMap', parseNksipMediaAttrs candidateId attrs.flatten (acc.withSources sourceMap) =
      some (acc.withSources sourceMap') ∧
    sourceMap'.entries =
      ((sources.filter fun source => source.params ≠ []).map sourceEntry).reverse ++
        sourceMap.entries := by
  have hwritten := forall₂_of_mapM hattrs
  clear hattrs
  induction hwritten generalizing sourceMap with
  | nil => exact ⟨sourceMap, rfl, rfl⟩
  | @cons source own sources attrs hown _ ih =>
    rw [forall_mem_cons] at hnamed hnew
    rw [map_cons, nodup_cons] at hnodup
    obtain ⟨mine, hmine, hentries⟩ := foldl_putSource_new (source.params.map namedParam) hnew.1 acc
    have hnew' : ∀ other ∈ sources, other.ssrc ∉ mine := by
      intro other hmem
      rw [AList.mem_keys, AList.keys, hentries]
      have hne : other.ssrc ≠ source.ssrc := by
        intro heq
        exact hnodup.1 (mem_map.2 ⟨other, hmem, heq⟩)
      have hold : other.ssrc ∉ sourceMap.entries.keys := hnew.2 other hmem
      split <;> simp [keys_cons, hne, hold]
    obtain ⟨sourceMap', hrest, hentries'⟩ := ih hnamed.2 hnodup.2 mine hnew'
    refine ⟨sourceMap', ?_, ?_⟩
    · rw [flatten_cons, parseNksipMediaAttrs_append,
        parseNksipMediaAttrs_source hown hnamed.1, hmine, Option.bind_some, hrest]
    · rw [hentries', hentries, filter_cons]
      by_cases hparams : source.params = []
      · simp [hparams]
      · simp [hparams, sourceEntry]

/-! ### All attributes -/

theorem parseNksipMediaAttr_sender (h : senderToSdpAttr senders = some attr) (acc : MediaAttrs) :
    parseNksipMediaAttr candidateId acc (attr, []) = some { acc with sender := some senders } := by
  unfold senderToSdpAttr at h
  split at h <;> cases h <;> rfl

/-- What the attributes say that are in front of those of the description. -/
def frontAttrs (senders : String) (name : Option String) (transport : Transport)
    (fingerprint : Fingerprint) (rtcpMux : Bool) : MediaAttrs where
  sender := some senders
  transport := some
    { ufrag := transport.ufrag
      pwd := transport.pwd
      fingerprint := some (fingerprint.hash, some fingerprint.fingerprint)
      setup := fingerprint.setup }
  rtcpMux := rtcpMux
  name := some name

/-- **Senders, name, transport and multiplexing are read** as they were written. -/
theorem parseNksipMediaAttrs_front
    (hsenders : senderToSdpAttr senders = some attr) (name : Option String) (transport : Transport)
    (fingerprint : Fingerprint) (description : Description) (rest : List Attribute) :
    parseNksipMediaAttrs candidateId ((attr, []) :: ("mid", [name]) ::
        maybeAddFingerprint fingerprint (maybeAddIcePwdAttr transport.pwd
          (maybeAddIceUfragAttr transport.ufrag (addRtcpMux description rest)))) {} =
    parseNksipMediaAttrs candidateId rest
      (frontAttrs senders name transport fingerprint description.rtcpMux) := by
  obtain ⟨ufrag, pwd, _⟩ := transport
  obtain ⟨hash, setup, text⟩ := fingerprint
  obtain ⟨codecs, rtphdrExt, rtcpMux, sources⟩ := description
  rw [parseNksipMediaAttrs_cons, parseNksipMediaAttr_sender hsenders]
  -- each attribute that is there writes its own key
  cases setup <;> cases pwd <;> cases ufrag <;> cases rtcpMux <;> rfl

/-- **All attributes of a media are read.** The map has the sources that have parameters. -/
theorem parseNksipMediaAttrs_media
    {extAttrs codecAttributes : List Attribute} {ssrcAttrs : List (List Attribute)}
    (hexts : exts.mapM rtpHdrextToSdpAttr = some extAttrs)
    (hcodecs : ∀ attr ∈ codecAttributes, attr.1 ∈ codecAttrNames)
    (hssrc : sources.mapM sourceToNksipAttr = some ssrcAttrs)
    (hnamed : ∀ source ∈ sources, ∀ param ∈ source.params,
    ∃ name, param.1 = some name ∧ ':' ∉ name.toList)
    (hnodup : (sources.map Source.ssrc).Nodup) {front : MediaAttrs}
    (hfront : front.rtphdrExt = [] ∧ front.sourceMap = ∅) :
    ∃ sourceMap : AList fun _ : Option String => List (String × Option String), sourceMap.entries =
        ((sources.filter fun source => source.params ≠ []).map sourceEntry).reverse ∧
      parseNksipMediaAttrs candidateId (extAttrs ++ (codecAttributes ++ ssrcAttrs.flatten)) front =
        (exts.mapM rereadExt).map fun read =>
          { front with
            rtphdrExt := read.reverse
            sourceMap := sourceMap } := by
  have hsources : ∀ acc : MediaAttrs, acc.sourceMap = ∅ →
      ∃ sourceMap : AList fun _ : Option String => List (String × Option String),
        parseNksipMediaAttrs candidateId ssrcAttrs.flatten acc = some (acc.withSources sourceMap) ∧
          sourceMap.entries =
            ((sources.filter fun source => source.params ≠ []).map sourceEntry).reverse := by
    intro acc hacc
    obtain ⟨sourceMap, hread, hentries⟩ := parseNksipMediaAttrs_sources candidateId
      hssrc hnamed hnodup ∅ (fun _ _ => AList.notMem_empty _) acc
    refine ⟨sourceMap, ?_, ?_⟩
    · rw [← hread, MediaAttrs.withSources, ← hacc]
    · rw [hentries, AList.empty_entries, append_nil]
  rw [parseNksipMediaAttrs_append, parseNksipMediaAttrs_exts hexts, hfront.1]
  cases hread : exts.mapM rereadExt with
  | none =>
    obtain ⟨sourceMap, -, hentries⟩ := hsources front hfront.2
    exact ⟨sourceMap, hentries, rfl⟩
  | some read =>
    obtain ⟨sourceMap, hparse, hentries⟩ :=
      hsources { front with rtphdrExt := read.reverse ++ [] } hfront.2
    refine ⟨sourceMap, hentries, ?_⟩
    rw [Option.map_some, Option.bind_some, parseNksipMediaAttrs_append,
      parseNksipMediaAttrs_codecs hcodecs, Option.bind_some, hparse, append_nil]
    rfl

/-! ### The element -/

/-- The description that is made. -/
def madeDescription (media : String) (payloadEls extEls sourceEls : List Element) (rtcpMux : Bool) :
    Element :=
  .mk "description" [("xmlns", "urn:xmpp:jingle:apps:rtp:1"), ("media", media)]
    (payloadEls ++ ((if rtcpMux then .mk "rtcp-mux" [] [] "" :: extEls else extEls) ++ sourceEls)) ""

/-- The transport that is made. -/
def madeTransport (ufrag pwd setup : Option String) (hash fingerprint : String) : Element :=
  .mk "transport"
    (putAttr "xmlns" "urn:xmpp:jingle:transports:ice-udp:1"
      (maybeAddAttr "pwd" pwd (maybeAddAttr "ufrag" ufrag [])))
    [.mk "fingerprint"
      (maybeAddAttr "setup" setup [("xmlns", "urn:xmpp:jingle:apps:dtls:0"), ("hash", hash)]) []
      fingerprint] ""

/-- The content that is made. -/
def madeContent (name senders : String) (description transport : Element) : Element :=
  .mk "content" [("creator", "initiator"), ("name", name), ("senders", senders)]
    [description, transport] ""

variable {payloadEls : List Element} {el : Element}

/-- **What is asked for of the attributes**, and the element that is made of them. -/
theorem sdpMediaToContentEl_eq_some_iff {codecMap : Option String → Option (List CodecEntry)}
    {sdpM : SdpM}
    (hcodecs : (codecMap sdpM.media).bind (fun codecs => codecs.mapM codecToPayload) =
    some payloadEls) {name : Option String} {transport : Transport} {fingerprint : Fingerprint}
    {rtcpMux : Bool}
    (hparse : parseNksipMediaAttrs candidateId sdpM.attributes {} =
    (exts.mapM rereadExt).map fun read =>
      { frontAttrs senders name transport fingerprint rtcpMux with
        rtphdrExt := read.reverse
        sourceMap := sourceMap }) :
    sdpMediaToContentEl candidateId codecMap sdpM = some el ↔
    ∃ read extEls sourceEls media hash name',
      exts.mapM rereadExt = some read ∧ read.reverse.mapM rtphdrExtToElement = some extEls ∧
        (toList sourceMap).mapM sourceToEl = some sourceEls ∧ sdpM.media = some media ∧
          fingerprint.hash = some hash ∧ name = some name' ∧ el = madeContent name' senders
              (madeDescription media payloadEls extEls sourceEls rtcpMux)
              (madeTransport transport.ufrag transport.pwd fingerprint.setup hash
                fingerprint.fingerprint) := by
  obtain ⟨codecs, hcodecMap, hpayloads⟩ := Option.bind_eq_some_iff.1 hcodecs
  rw [sdpMediaToContentEl, hcodecMap, Option.bind_eq_bind, Option.bind_some, hpayloads, hparse]
  cases hread : exts.mapM rereadExt with
  | none => simp
  | some read =>
    cases hextEls : read.reverse.mapM rtphdrExtToElement with
    | none => simp [descriptionElementsFromContent, hextEls]
    | some extEls =>
      cases hsourceEls : (toList sourceMap).mapM sourceToEl with
      | none => simp [descriptionElementsFromContent, maybeAddSources, hextEls, hsourceEls]
      | some sourceEls =>
        cases hmedia : sdpM.media with
        | none => simp
        | some media =>
          cases hhash : fingerprint.hash with
          | none =>
            simp [descriptionElementsFromContent, maybeAddSources, hextEls, hsourceEls, frontAttrs,
              makeTransportEl, makeFingerprintEl, hhash]
          | some hash =>
            cases name with
            | none =>
              simp [descriptionElementsFromContent, maybeAddSources, hextEls, hsourceEls,
                frontAttrs, makeTransportEl, makeFingerprintEl, hhash]
            | some name =>
              simp [descriptionElementsFromContent, maybeAddSources, hextEls, hsourceEls,
                frontAttrs, makeTransportEl, makeFingerprintEl, hhash, madeContent,
                madeDescription, madeTransport, maybeAddRtcpMux]
              exact eq_comm

/-! ### What the element says -/

theorem name_of_codecToPayload {codec : CodecEntry}
    (h : codecToPayload codec = some el) : el.name = "payload-type" := by
  simp only [codecToPayload, Option.bind_eq_bind, Option.pure_def, Option.bind_eq_some_iff,
    Option.some.injEq] at h
  obtain ⟨_, _, _, _, rfl⟩ := h
  rfl

theorem name_of_rtphdrExtToElement {ext : String × String × Option String}
    (h : rtphdrExtToElement ext = some el) : el.name = "rtp-hdrext" := by
  obtain ⟨_, _, rfl⟩ := Option.map_eq_some_iff.1 h
  rfl

theorem name_of_sourceToEl {source : Option String × List (String × Option String)}
    (h : sourceToEl source = some el) : el.name = "source" := by
  obtain ⟨_, _, rfl⟩ := Option.map_eq_some_iff.1 h
  rfl

variable {name : String} {els : List Element}

/-- Elements that were made have the name of their kind. -/
theorem names_of_mapM {α : Type} {f : α → Option Element}
    (hname : ∀ a el, f a = some el → el.name = name) {l : List α}
    (h : l.mapM f = some els) : ∀ el ∈ els, el.name = name := by
  intro el hmem
  have hmap := map_of_mapM (g := Element.name) (k := fun _ => name) h hname
  have hmem' : el.name ∈ els.map Element.name := mem_map_of_mem hmem
  rw [hmap] at hmem'
  obtain ⟨_, _, hname'⟩ := mem_map.1 hmem'
  exact hname'.symm

theorem filter_name {name' : String} (h : ∀ el ∈ els, el.name = name') :
    (els.filter fun el => el.name = name) = if name' = name then els else [] := by
  split
  · rename_i heq
    exact filter_eq_self.2 fun el hmem => by simp [h el hmem, heq]
  · rename_i hne
    exact filter_eq_nil_iff.2 fun el hmem => by simp [h el hmem, hne]

/-- The children of the description that is made, by their kind. -/
theorem madeDescription_spec (media : String) (rtcpMux : Bool)
    {extEls sourceEls : List Element} (hpayload : ∀ el ∈ payloadEls, el.name = "payload-type")
    (hext : ∀ el ∈ extEls, el.name = "rtp-hdrext")
    (hsource : ∀ el ∈ sourceEls, el.name = "source") :
    let description := madeDescription media payloadEls extEls sourceEls rtcpMux
    description.subelements "rtp-hdrext" = extEls ∧ description.subelements "source" = sourceEls ∧
      (description.children.any fun child => child.name = "rtcp-mux") = rtcpMux := by
  have hmux : ∀ {els : List Element} {name : String}, (∀ el ∈ els, el.name = name) →
      name ≠ "rtcp-mux" → (els.any fun child => child.name = "rtcp-mux") = false := by
    intro els name hname hne
    rw [any_eq_false]
    intro el hmem
    simpa [hname el hmem] using hne
  refine ⟨?_, ?_, ?_⟩
  · cases rtcpMux <;>
      simp [madeDescription, Element.subelements, Element.children, filter_name hpayload,
        filter_name hext, filter_name hsource]
  · cases rtcpMux <;>
      simp [madeDescription, Element.subelements, Element.children, filter_name hpayload,
        filter_name hext, filter_name hsource]
  · have hpayload' := hmux hpayload (by decide)
    have hext' := hmux hext (by decide)
    have hsource' := hmux hsource (by decide)
    rw [madeDescription, Element.children, any_append, any_append, hpayload', hsource']
    cases rtcpMux with
    | false => simpa using hext'
    | true => simp

end MongooseIM.JingleSip
