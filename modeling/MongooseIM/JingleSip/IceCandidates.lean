import MongooseIM.JingleSip.SipToJingle

/-! # ICE candidates

The candidates of a `transport-info` never come back from the lines of SDP as they were: none has
the key under which the component is read. -/

namespace MongooseIM.JingleSip

open Erlang Xmpp List

/-- The key of `parse_candidate_attr/3` for an attribute. -/
def candidateKey : String → Option String
  | "foundation" => some "foundation"
  | "component" => some "generation"
  | "id" => some "id"
  | "ip" => some "ip"
  | "network" => some "network"
  | "port" => some "port"
  | "priority" => some "priority"
  | "protocol" => some "protocol"
  | "rel-addr" => some "raddr"
  | "rel-port" => some "rport"
  | "tcptype" => some "tcptype"
  | "type" => some "type"
  | _ => none

variable (map : List (String × String))

/-- `parse_candidate_attr/3` -/
def parseCandidateAttr (attr : String × String) : List (String × String) :=
  match candidateKey attr.1 with
  | some key => (key, attr.2) :: map.filter fun entry => entry.1 ≠ key
  | none => map

/-- A candidate of `parse_transport_child/2`. -/
def parseCandidate (el : Element) : List (String × String) := el.attrs.foldl parseCandidateAttr []

/-- The candidates of a content, as `parse_transport_children/2` leaves them. -/
def candidateEls (content : Element) : List Element :=
  (((content.subelement "transport").map (·.subelements "candidate")).getD []).reverse

/-- `map_field_to_candidate_arg/2` -/
def mapFieldToCandidateArg (field : String) : String :=
  ((map.lookup field).map fun value => " " ++ field ++ " " ++ value).getD ""

/-- `candidate_to_sdp_line/1` -/
def candidateToSdpLine (candidate : List (String × String)) : Option String := do
  let foundation ← candidate.lookup "foundation"
  let component ← candidate.lookup "component"
  let protocol ← candidate.lookup "protocol"
  let priority ← candidate.lookup "priority"
  let ip ← candidate.lookup "ip"
  let port ← candidate.lookup "port"
  let type ← candidate.lookup "type"
  let extraArgs := ["generation", "tcptype", "raddr", "rport"].map (mapFieldToCandidateArg candidate)
  return "a=candidate: " ++ foundation ++ " " ++ component ++ " " ++ protocol ++ " " ++ priority ++
    " " ++ ip ++ " " ++ port ++ " " ++ "typ " ++ type ++ String.join extraArgs

/-- `parse_content/1`, line by line. -/
def parseIceContent (content : Element) : Option (List String) := do
  let transport ← (content.subelement "transport").map parseTransportElement
  let pwd ← transport.pwd
  let ufrag ← transport.ufrag
  let name ← content.attr? "name"
  let candidates ← (candidateEls content).mapM fun el => candidateToSdpLine (parseCandidate el)
  return ["a=ice-pwd:" ++ pwd, "a=ice-ufrag:" ++ ufrag, "m=" ++ name ++ "9 RTP/AVP 0", "a=mid:1"] ++
    candidates

variable (children : List Element)

/-- `make_sdp_for_ice_candidate/1`, with the contents in the order of `parse_content/2`. -/
def makeSdpForIceCandidate : Option (List String) :=
  if children.all fun child => child.name = "content" then
    (children.reverse.mapM parseIceContent).map List.flatten
  else none

/-- A `transport-info` whose contents have transports with `ufrag` and `pwd`. -/
def TransportInfo : Prop :=
  ∀ child ∈ children, child.name = "content" ∧
    ∃ transport, child.subelement "transport" = some transport ∧
      (transport.attr? "ufrag").isSome ∧ (transport.attr? "pwd").isSome

/-- The keys of a candidate that is read back, with the attributes that they stand for. -/
def comparedKeys : List (String × String) :=
  [("foundation", "foundation"), ("component", "component"), ("protocol", "protocol"),
    ("priority", "priority"), ("ip", "ip"), ("port", "port"), ("type", "type"),
    ("generation", "generation"), ("raddr", "rel-addr"), ("rport", "rel-port"),
    ("tcptype", "tcptype")]

variable (candidateId : ℕ → String)

/-- A line gives a candidate with the same values. -/
def Returns (el : Element) (line : String) : Prop :=
  ∃ values acc transport candidate, line = "a=candidate: " ++ joinWith ' ' values ∧
    parseNksipMediaAttr candidateId {} ("candidate", values.map some) = some acc ∧
    acc.transport = some transport ∧ transport.candidates = [candidate] ∧
    ∀ key ∈ comparedKeys, (candidate.lookup key.1).join = el.attr? key.2

/-- The lines for candidates are those of the candidates, one for each. -/
def PassedOn (children : List Element) : Prop :=
  ∃ lines els, makeSdpForIceCandidate children = some lines ∧
    els.Perm (children.flatMap candidateEls) ∧
    List.Forall₂ (Returns candidateId) els
      (lines.filter fun line => "a=candidate".toList.isPrefixOf line.toList)

variable (el : Element)

/-- **The component is not found**, as it is kept as the generation. -/
theorem lookup_component : (parseCandidate el).lookup "component" = none := by
  have hkey (attr : String) : candidateKey attr ≠ some "component" := by
    rw [candidateKey.eq_def]
    split <;> simp
  have hkeep (attrs map : List (String × String)) (hmap : "component" ∉ map.map Prod.fst) :
      "component" ∉ (attrs.foldl parseCandidateAttr map).map Prod.fst := by
    induction attrs generalizing map with
    | nil => exact hmap
    | cons attr attrs ih =>
      refine ih _ ?_
      rw [parseCandidateAttr]
      split
      · next key hattr =>
        rw [map_cons, mem_cons, not_or]
        refine ⟨fun heq => hkey attr.1 (heq ▸ hattr), fun hmem => hmap ?_⟩
        exact (filter_sublist.map _).subset hmem
      · exact hmap
  exact lookup_eq_none_iff.2 (hkeep el.attrs [] not_mem_nil)

theorem candidateToSdpLine_eq_none : candidateToSdpLine (parseCandidate el) = none := by
  rw [candidateToSdpLine, lookup_component]
  cases (parseCandidate el).lookup "foundation" <;> rfl

theorem parseTransportElement_params : (parseTransportElement el).ufrag = el.attr? "ufrag" ∧
    (parseTransportElement el).pwd = el.attr? "pwd" := by
  have hfold (children : List Element) (transport : Transport) :
      (children.foldl parseTransportChild transport).ufrag = transport.ufrag ∧
        (children.foldl parseTransportChild transport).pwd = transport.pwd := by
    induction children generalizing transport with
    | nil => exact ⟨rfl, rfl⟩
    | cons child children ih =>
      rw [foldl_cons, (ih _).1, (ih _).2, parseTransportChild]
      split <;> exact ⟨rfl, rfl⟩
  exact hfold el.children _

/-- A content is read where it has its name and no candidate; no line is one of a candidate. -/
theorem parseIceContent_cases {content transport : Element}
    (htransport : content.subelement "transport" = some transport)
    (hufrag : (transport.attr? "ufrag").isSome) (hpwd : (transport.attr? "pwd").isSome) :
    ((content.attr? "name").isSome ∧ candidateEls content = [] ∧
    ∃ lines, parseIceContent content = some lines ∧
      ∀ line ∈ lines, "a=candidate".toList.isPrefixOf line.toList = false) ∨
    ¬ ((content.attr? "name").isSome ∧ candidateEls content = []) ∧
    parseIceContent content = none := by
  obtain ⟨ufrag, hufrag⟩ := Option.isSome_iff_exists.1 hufrag
  obtain ⟨pwd, hpwd⟩ := Option.isSome_iff_exists.1 hpwd
  obtain ⟨hufrag', hpwd'⟩ := parseTransportElement_params transport
  simp only [parseIceContent, htransport, Option.map_some, Option.bind_eq_bind, Option.bind_some,
    hufrag', hpwd', hufrag, hpwd]
  cases content.attr? "name" with
  | none => simp
  | some name =>
    cases candidateEls content with
    | nil => exact .inl ⟨rfl, rfl, _, rfl, by simp [isPrefixOf]⟩
    | cons el els => simp [candidateToSdpLine_eq_none]

/-- **Candidates are passed on only where there are none.** -/
theorem passedOn_iff (candidateId : ℕ → String) {children : List Element}
    (h : TransportInfo children) :
    PassedOn candidateId children ↔
    ∀ child ∈ children, (child.attr? "name").isSome ∧ candidateEls child = [] := by
  have hnames : children.all (fun child => child.name = "content") = true :=
    all_eq_true.2 fun child hmem => decide_eq_true (h child hmem).1
  have hcases {child : Element} (hmem : child ∈ children) :=
    have ⟨_, htransport, hufrag, hpwd⟩ := (h child hmem).2
    parseIceContent_cases htransport hufrag hpwd
  rw [PassedOn, makeSdpForIceCandidate, if_pos hnames]
  constructor
  · rintro ⟨lines, els, hlines, -⟩ child hmem
    obtain ⟨parts, hparts, -⟩ := Option.map_eq_some_iff.1 hlines
    obtain ⟨part, -, hpart⟩ := exists_of_mapM hparts (mem_reverse.2 hmem)
    rcases hcases hmem with ⟨hname, hnil, -⟩ | ⟨-, hnone⟩
    · exact ⟨hname, hnil⟩
    · rw [hnone] at hpart
      cases hpart
  · intro hgood
    have hread (child : Element) (hmem : child ∈ children) :=
      (hcases hmem).resolve_right fun hbad => hbad.1 (hgood child hmem)
    obtain ⟨parts, hparts, -⟩ := exists_mapM (f := parseIceContent) (l := children.reverse)
      fun child hmem =>
        have ⟨_, _, lines, hlines, _⟩ := hread child (mem_reverse.1 hmem)
        ⟨lines, hlines⟩
    refine ⟨parts.flatten, [], by rw [hparts, Option.map_some], ?_, ?_⟩
    · rw [flatMap_eq_nil_iff.2 fun child hmem => (hgood child hmem).2]
    · rw [filter_eq_nil_iff.2]
      · exact .nil
      · intro line hline
        obtain ⟨part, hpart, hline⟩ := mem_flatten.1 hline
        obtain ⟨child, hmem, hchild⟩ := exists_of_mem_mapM hparts hpart
        obtain ⟨-, -, lines, hlines, hplain⟩ := hread child (mem_reverse.1 hmem)
        cases hlines.symm.trans hchild
        rw [hplain line hline]
        decide

/-- A `transport-info` with one candidate. -/
def oneCandidate : List Element :=
  [.mk "content" [("name", "audio")]
    [.mk "transport" [("ufrag", "8hhy"), ("pwd", "asd88fgpdd")]
      [.mk "candidate" [("component", "1"), ("foundation", "1"), ("generation", "0"),
        ("id", "el0747fg11"), ("ip", "10.0.1.1"), ("network", "1"), ("port", "8998"),
        ("priority", "2130706431"), ("protocol", "udp"), ("type", "host")] [] ""] ""] ""]

theorem passedOn_iff_oneCandidate : TransportInfo oneCandidate ∧
    (PassedOn (fun _ => "id") oneCandidate ↔
      ∀ child ∈ oneCandidate, (child.attr? "name").isSome ∧ candidateEls child = []) := by
  have h : TransportInfo oneCandidate := by
    intro child hmem
    cases mem_singleton.1 hmem
    exact ⟨rfl, _, rfl, rfl, rfl⟩
  exact ⟨h, passedOn_iff _ h⟩

/-- Every candidate crashes the update. -/
theorem candidate_crashes :
    makeSdpForIceCandidate oneCandidate = none ∧ ¬ PassedOn (fun _ => "id") oneCandidate := by
  have hnone : makeSdpForIceCandidate oneCandidate = none := by decide +kernel
  refine ⟨hnone, ?_⟩
  rintro ⟨lines, els, hlines, -⟩
  rw [hnone] at hlines
  cases hlines

end MongooseIM.JingleSip
