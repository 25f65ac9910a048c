import MongooseIM.Erlang.Lists
import MongooseIM.JingleSip.JingleToSdp

/-! # Media of SDP

`mod_jingle_sip` makes the media of SDP, with its attributes, of what was read of a content. -/

namespace MongooseIM.JingleSip

open Erlang Option

/-- A name with values; `none` is `undefined`. -/
abbrev Attribute := String × List (Option String)

/-- `#sdp_m{}` -/
structure SdpM where
  media : Option String
  port : ℕ
  proto : String
  fmt : List (Option String)
  attributes : List Attribute

/-- `source_to_nksip_value/2` -/
def sourceToNksipValue : Option String → Option String → Option String
  | some name, some value => some (name ++ ":" ++ value)
  | _, _ => none

/-- `source_to_nksip_attr/1` -/
def sourceToNksipAttr (source : Source) : Option (List Attribute) :=
  source.params.mapM fun param =>
    (sourceToNksipValue param.1 param.2).map fun value => ("ssrc", [source.ssrc, some value])

/-- `sources_to_nksip_attrs/1` -/
def sourcesToNksipAttrs (sources : List Source) : Option (List Attribute) :=
  (sources.mapM sourceToNksipAttr).map List.flatten

variable (id : Option String)

/-- `rtcp_fb_param_to_attr/2` -/
def rtcpFbParamToAttr (rtcpParam : List (Option String)) : Attribute :=
  ("rtcp-fb", id :: rtcpParam)

/-- `basic_parameter_to_fmtp_value/1`, which has to be a binary where it is joined. -/
def basicParameterToFmtpValue : Option String × Option String → Option String
  | (none, value) => value
  | (some name, some value) => some (name ++ "=" ++ value)
  | (some _, none) => none

variable (params : List (Option String × Option String)) (rtcpParams : List Attribute)

/-- `maybe_add_fmtp_attr/3` -/
def maybeAddFmtpAttr : Option (List Attribute) :=
  match params with
  | [] => some rtcpParams
  | _ => (params.mapM basicParameterToFmtpValue).map fun kv =>
    ("fmtp", [id, some (";".intercalate kv)]) :: rtcpParams

/-- `prepare_rtp_map/3` -/
def prepareRtpMap : Option String → Option String → String → Option String
  | some name, some clockRate, "1" => some (name ++ "/" ++ clockRate)
  | some name, some clockRate, channels => some (name ++ "/" ++ clockRate ++ "/" ++ channels)
  | _, _, _ => none

/-- The attributes of a codec in `codecs_to_nksip_attrs2/2`. -/
def codecAttrs (codec : Codec) : Option (List Attribute) := do
  let rtcpFbAttrs := codec.rtcpFbParams.map (rtcpFbParamToAttr codec.id)
  let attrsWithFmtpParams ← maybeAddFmtpAttr codec.id codec.params rtcpFbAttrs
  let rtpMapValue ← prepareRtpMap codec.name codec.clockRate codec.channels
  return ("rtpmap", [codec.id, some rtpMapValue]) :: attrsWithFmtpParams

/-- `codecs_to_nksip_attrs2/2` -/
def codecsToNksipAttrs2 (codecs : List Codec) (acc : List (Option String) × List Attribute) :
    Option (List (Option String) × List Attribute) :=
  codecs.foldlM (fun acc codec =>
    (codecAttrs codec).map fun attrs => (codec.id :: acc.1, attrs ++ acc.2)) acc

/-- `codecs_to_nksip_attrs/2` -/
def codecsToNksipAttrs (codecs : List Codec) (attrs : List Attribute) :
    Option (List (Option String) × List Attribute) :=
  codecsToNksipAttrs2 codecs ([], attrs)

/-- `rtp_hdrext_value/3` -/
def rtpHdrextValue (id uri : Option String) (senders : String) : Option (List (Option String)) :=
  if senders = "sendrecv" then some [id, uri]
  else id.map fun id => [some (id ++ "/" ++ senders), uri]

/-- `rtp_hdrext_to_sdp_attr/1` -/
def rtpHdrextToSdpAttr (ext : RtphdrExt) : Option Attribute :=
  (rtpHdrextValue ext.id ext.uri ext.senders).map fun value => ("extmap", value)

/-- `add_rtp_header_ext/2` -/
def addRtpHeaderExt (rtpHdrExts : List RtphdrExt) (attrs : List Attribute) :
    Option (List Attribute) :=
  (rtpHdrExts.mapM rtpHdrextToSdpAttr).map fun rtpHdrextAttrs => rtpHdrextAttrs ++ attrs

variable (description : Description)

/-- `add_rtcp_mux/2` -/
def addRtcpMux (attrs : List Attribute) : List Attribute :=
  if description.rtcpMux then ("rtcp-mux", []) :: attrs else attrs

/-- `description_to_nksip_attrs/1` -/
def descriptionToNksipAttrs : Option (List (Option String) × List Attribute) := do
  let attrsWithSsrc ← sourcesToNksipAttrs description.sources
  let (fmts, codecAttrs) ← codecsToNksipAttrs description.codecs attrsWithSsrc
  let attrsWithRtpHeaderExt ← addRtpHeaderExt description.rtphdrExt codecAttrs
  return (fmts, addRtcpMux description attrsWithRtpHeaderExt)

/-- `maybe_add_ice_ufrag_attr/2` -/
def maybeAddIceUfragAttr (ufrag : Option String) (attrs : List Attribute) : List Attribute :=
  match ufrag with
  | none => attrs
  | some ufrag => ("ice-ufrag", [some ufrag]) :: attrs

/-- `maybe_add_ice_pwd_attr/2` -/
def maybeAddIcePwdAttr (pwd : Option String) (attrs : List Attribute) : List Attribute :=
  match pwd with
  | none => attrs
  | some pwd => ("ice-pwd", [some pwd]) :: attrs

/-- `maybe_add_fingerprint/2` of a fingerprint. -/
def maybeAddFingerprint (fingerprint : Fingerprint) (attrs : List Attribute) : List Attribute :=
  let attrsWithFingerprint :=
    ("fingerprint", [fingerprint.hash, some fingerprint.fingerprint]) :: attrs
  match fingerprint.setup with
  | none => attrsWithFingerprint
  | some setup => ("setup", [some setup]) :: attrsWithFingerprint

/-- `transport_to_nksip_attrs/2`: a fingerprint is asked for with `maps:get/2`. -/
def transportToNksipAttrs (transport : Transport) (attrs : List Attribute) :
    Option (List Attribute) :=
  let attrsWithUfrag := maybeAddIceUfragAttr transport.ufrag attrs
  let attrsWithPwd := maybeAddIcePwdAttr transport.pwd attrsWithUfrag
  transport.fingerprint.map fun fingerprint => maybeAddFingerprint fingerprint attrsWithPwd

/-- `content_to_nksip_media/1`; `random` is `rand:uniform(1024)`. -/
def contentToNksipMedia (random : ℕ) (content : Content) : Option SdpM := do
  let description ← content.description
  let (fmts, descAttrs) ← descriptionToNksipAttrs description
  let transport ← content.transport
  let transportAttrs ← transportToNksipAttrs transport descAttrs
  let attrsWithMediaName := ("mid", [content.name]) :: transportAttrs
  let attrsWithSender := (content.senders, []) :: attrsWithMediaName
  return {
    media      := content.media
    port       := 1024 + random
    proto      := content.protocol
    fmt        := fmts
    attributes := attrsWithSender }

/-- A parameter of a payload has to have a value. -/
theorem basicParameterToFmtpValue_isSome_iff (param : Option String × Option String) :
    (basicParameterToFmtpValue param).isSome ↔ param.2.isSome := by
  obtain ⟨name, value⟩ := param
  cases name <;> cases value <;> simp [basicParameterToFmtpValue]

theorem maybeAddFmtpAttr_isSome_iff :
    (maybeAddFmtpAttr id params rtcpParams).isSome ↔ ∀ param ∈ params, param.2.isSome := by
  have hmapM : (params.mapM basicParameterToFmtpValue).isSome ↔ ∀ param ∈ params, param.2.isSome := by
    constructor
    · intro h param hmem
      obtain ⟨kv, hkv⟩ := isSome_iff_exists.1 h
      obtain ⟨value, -, hvalue⟩ := exists_of_mapM hkv hmem
      exact (basicParameterToFmtpValue_isSome_iff param).1 (by rw [hvalue]; rfl)
    · intro h
      obtain ⟨kv, hkv, -⟩ := exists_mapM (f := basicParameterToFmtpValue) fun param hmem =>
        isSome_iff_exists.1 ((basicParameterToFmtpValue_isSome_iff param).2 (h param hmem))
      rw [hkv]
      rfl
  rw [← hmapM]
  unfold maybeAddFmtpAttr
  split
  · simp
  · rw [isSome_map]

/-- Both names of a map of a codec have to be there. -/
theorem prepareRtpMap_isSome_iff (name clockRate : Option String) (channels : String) :
    (prepareRtpMap name clockRate channels).isSome ↔ name.isSome ∧ clockRate.isSome := by
  cases name with
  | none => simp [prepareRtpMap]
  | some name =>
    cases clockRate with
    | none => simp [prepareRtpMap]
    | some clockRate =>
      unfold prepareRtpMap
      split <;> simp_all

/-- **A codec is translated** when it has a name, a clock rate, and values for its parameters. -/
theorem codecAttrs_isSome_iff (codec : Codec) : (codecAttrs codec).isSome ↔
    codec.name.isSome ∧ codec.clockRate.isSome ∧ ∀ param ∈ codec.params, param.2.isSome := by
  rw [← maybeAddFmtpAttr_isSome_iff codec.id codec.params
      (codec.rtcpFbParams.map (rtcpFbParamToAttr codec.id)), ← and_assoc,
    ← prepareRtpMap_isSome_iff _ _ codec.channels]
  simp only [codecAttrs, bind_eq_bind, pure_def]
  cases maybeAddFmtpAttr codec.id codec.params
      (codec.rtcpFbParams.map (rtcpFbParamToAttr codec.id)) with
  | none => simp
  | some attrs =>
    cases prepareRtpMap codec.name codec.clockRate codec.channels <;> simp

/-- The names of the attributes of codecs. -/
def codecAttrNames : List String := ["rtpmap", "fmtp", "rtcp-fb"]

theorem mem_codecAttrNames {codec : Codec} {attrs : List Attribute}
    (h : codecAttrs codec = some attrs) {attr : Attribute} (hmem : attr ∈ attrs) :
    attr.1 ∈ codecAttrNames := by
  simp only [codecAttrs, bind_eq_bind, pure_def, bind_eq_some_iff, some.injEq] at h
  obtain ⟨attrsWithFmtpParams, hfmtp, rtpMapValue, -, rfl⟩ := h
  rcases List.mem_cons.1 hmem with rfl | hmem
  · exact List.mem_cons_self
  have hrtcpFb : ∀ attr ∈ codec.rtcpFbParams.map (rtcpFbParamToAttr codec.id),
      attr.1 ∈ codecAttrNames := by
    intro attr hattr
    obtain ⟨param, -, rfl⟩ := List.mem_map.1 hattr
    simp [rtcpFbParamToAttr, codecAttrNames]
  unfold maybeAddFmtpAttr at hfmtp
  split at hfmtp
  · cases hfmtp
    exact hrtcpFb attr hmem
  · obtain ⟨kv, -, rfl⟩ := map_eq_some_iff.1 hfmtp
    rcases List.mem_cons.1 hmem with rfl | hmem
    · simp [codecAttrNames]
    · exact hrtcpFb attr hmem

theorem of_codecsToNksipAttrs2 {codecs : List Codec}
    {acc result : List (Option String) × List Attribute}
    (h : codecsToNksipAttrs2 codecs acc = some result) :
    (∀ codec ∈ codecs, (codecAttrs codec).isSome) ∧
    ∃ attrs, result.2 = attrs ++ acc.2 ∧ ∀ attr ∈ attrs, attr.1 ∈ codecAttrNames := by
  induction codecs generalizing acc with
  | nil =>
    cases h
    exact ⟨by simp, [], by simp⟩
  | cons codec codecs ih =>
    rw [codecsToNksipAttrs2, List.foldlM_cons, bind_eq_bind, bind_eq_some_iff] at h
    obtain ⟨acc', hcodec, hrest⟩ := h
    obtain ⟨attrs, hattrs, rfl⟩ := map_eq_some_iff.1 hcodec
    obtain ⟨hall, others, hresult, hothers⟩ := ih hrest
    refine ⟨?_, others ++ attrs, ?_, ?_⟩
    · rw [List.forall_mem_cons]
      exact ⟨by rw [hattrs]; rfl, hall⟩
    · rw [hresult, List.append_assoc]
    · intro attr hmem
      rcases List.mem_append.1 hmem with hmem | hmem
      · exact hothers attr hmem
      · exact mem_codecAttrNames hattrs hmem

theorem exists_codecsToNksipAttrs2 {codecs : List Codec}
    (h : ∀ codec ∈ codecs, (codecAttrs codec).isSome)
    (acc : List (Option String) × List Attribute) :
    ∃ result, codecsToNksipAttrs2 codecs acc = some result := by
  induction codecs generalizing acc with
  | nil => exact ⟨acc, rfl⟩
  | cons codec codecs ih =>
    rw [List.forall_mem_cons] at h
    obtain ⟨attrs, hattrs⟩ := isSome_iff_exists.1 h.1
    obtain ⟨result, hresult⟩ := ih h.2 (codec.id :: acc.1, attrs ++ acc.2)
    refine ⟨result, ?_⟩
    rw [codecsToNksipAttrs2, List.foldlM_cons, hattrs]
    exact hresult

/-- The media that is made in the end, of the attributes of header extensions, codecs and
sources. -/
def madeMedia (random : ℕ) (content : Content) (description : Description) (transport : Transport)
    (fingerprint : Fingerprint) (fmts : List (Option String)) (attrs : List Attribute) : SdpM where
  media      := content.media
  port       := 1024 + random
  proto      := content.protocol
  fmt        := fmts
  attributes :=
    (content.senders, []) :: ("mid", [content.name]) ::
      maybeAddFingerprint fingerprint (maybeAddIcePwdAttr transport.pwd
        (maybeAddIceUfragAttr transport.ufrag (addRtcpMux description attrs)))

/-- **The media of a content**, with its attributes. -/
theorem contentToNksipMedia_eq_some_iff {random : ℕ} {content : Content} {description : Description}
    {transport : Transport} {sdpM : SdpM} (hdescription : content.description = some description)
    (htransport : content.transport = some transport) :
    contentToNksipMedia random content = some sdpM ↔
    ∃ ssrcAttrs fmts codecAttributes extAttrs fingerprint,
      sourcesToNksipAttrs description.sources = some ssrcAttrs ∧
        codecsToNksipAttrs description.codecs ssrcAttrs = some (fmts, codecAttributes) ∧
          description.rtphdrExt.mapM rtpHdrextToSdpAttr = some extAttrs ∧
            transport.fingerprint = some fingerprint ∧
              sdpM = madeMedia random content description transport fingerprint fmts
                (extAttrs ++ codecAttributes) := by
  simp only [contentToNksipMedia, hdescription, htransport, descriptionToNksipAttrs,
    transportToNksipAttrs, addRtpHeaderExt, bind_eq_bind, pure_def, bind_some,
    bind_eq_some_iff, map_eq_some_iff, some.injEq, Prod.exists,
    Prod.mk.injEq]
  constructor
  · rintro ⟨fmts, attrs, ⟨ssrcAttrs, hssrc, fmts', codecAttributes, hcodecs, attrs', ⟨extAttrs, hexts,
      rfl⟩, rfl, rfl⟩, attrs'', ⟨fingerprint, hfingerprint, rfl⟩, rfl⟩
    exact ⟨ssrcAttrs, fmts', codecAttributes, extAttrs, fingerprint, hssrc, hcodecs, hexts,
      hfingerprint, rfl⟩
  · rintro ⟨ssrcAttrs, fmts, codecAttributes, extAttrs, fingerprint, hssrc, hcodecs, hexts,
      hfingerprint, rfl⟩
    exact ⟨fmts, _, ⟨ssrcAttrs, hssrc, fmts, codecAttributes, hcodecs, _, ⟨extAttrs, hexts, rfl⟩,
      rfl, rfl⟩, _, ⟨fingerprint, hfingerprint, rfl⟩, rfl⟩

end MongooseIM.JingleSip
