import MongooseIM.Erlang.Binaries
import MongooseIM.S2S.In
import MongooseIM.S2S.Out

/-! # The four steps of dialback

The initiating, the receiving and the authoritative server, with the elements that one sends and the
other parses. -/

namespace MongooseIM.S2S

open Xmpp

variable (fromTo : FromTo)

/-- A pair of names without spaces. -/
def FromTo.Spaceless : Prop :=
  ' ' ∉ fromTo.localServer.toList ∧ ' ' ∉ fromTo.remoteServer.toList

/-- The pair as the other end sees it. -/
def FromTo.swap : FromTo := ⟨fromTo.remoteServer, fromTo.localServer⟩

@[simp] theorem FromTo.swap_swap : fromTo.swap.swap = fromTo := rfl

namespace Dialback

/-! ## Keys -/

/-- The functions of `crypto`, with their results in hexadecimal. -/
structure Crypto where
  /-- `crypto:hash(sha256, Data)` -/
  sha256 : String → String
  /-- `crypto:mac(hmac, sha256, Key, Data)` -/
  hmacSha256 : String → String → String

/-- No two inputs have the same hash. -/
structure Crypto.Injective (crypto : Crypto) : Prop where
  sha256 : Function.Injective crypto.sha256
  hmacSha256 : Function.Injective2 crypto.hmacSha256

/-- What the key is a code of. -/
def keyData (streamId : String) : String :=
  fromTo.localServer ++ " " ++ fromTo.remoteServer ++ " " ++ streamId

/-- `make_key/3` -/
def makeKey (crypto : Crypto) (fromTo : FromTo) (streamId secret : String) : String :=
  crypto.hmacSha256 (crypto.sha256 secret) (keyData fromTo streamId)

/-- `ejabberd_s2s:key/3`, with the shared secrets of the host types. -/
def key (crypto : Crypto) (secret : Option String → String) (hostType : Option String)
    (fromTo : FromTo) (streamId : String) : String :=
  makeKey crypto fromTo streamId (secret hostType)

theorem toList_keyData (streamId : String) :
    (keyData fromTo streamId).toList = fromTo.localServer.toList ++ ' ' ::
    (fromTo.remoteServer.toList ++ ' ' :: streamId.toList) := by
  simp [keyData]

theorem keyData_inj {fromTo fromTo' : FromTo} {streamId streamId' : String}
    (h : fromTo.Spaceless) (h' : fromTo'.Spaceless)
    (heq : keyData fromTo streamId = keyData fromTo' streamId') :
    fromTo = fromTo' ∧ streamId = streamId' := by
  have hchars := congrArg String.toList heq
  rw [toList_keyData, toList_keyData] at hchars
  -- the identifier may have spaces, but it comes behind the second one
  obtain ⟨hlocal, hrest⟩ := Erlang.append_cons_inj h.1 h'.1 hchars
  obtain ⟨hremote, hid⟩ := Erlang.append_cons_inj h.2 h'.2 hrest
  obtain ⟨_, _⟩ := fromTo
  obtain ⟨_, _⟩ := fromTo'
  simp_all [String.toList_inj]

/-- A key tells the pair of domains, the identifier of the stream and the secret. -/
theorem makeKey_inj {crypto : Crypto} (hcrypto : crypto.Injective) {fromTo fromTo' : FromTo}
    {streamId streamId' secret secret' : String} (h : fromTo.Spaceless)
    (h' : fromTo'.Spaceless) :
    makeKey crypto fromTo streamId secret = makeKey crypto fromTo' streamId' secret' ↔
    fromTo = fromTo' ∧ streamId = streamId' ∧ secret = secret' := by
  constructor
  · intro heq
    obtain ⟨hsecret, hdata⟩ := hcrypto.hmacSha256 heq
    obtain ⟨hfromTo, hid⟩ := keyData_inj h h' hdata
    exact ⟨hfromTo, hid, hcrypto.sha256 hsecret⟩
  · rintro ⟨rfl, rfl, rfl⟩
    rfl

/-! ## Parsing -/

section

variable {lib : Lib} {fromTo : FromTo}

/-- The name of a domain, in the form that `jid:from_binary/1` gives it. -/
def IsDomain (lib : Lib) (domain : String) : Prop :=
  lib.fromBinary domain = some { luser := "", lserver := domain, lresource := "" }

/-- A pair of domains. -/
def AreDomains (lib : Lib) (fromTo : FromTo) : Prop :=
  IsDomain lib fromTo.localServer ∧ IsDomain lib fromTo.remoteServer

theorem AreDomains.swap (h : AreDomains lib fromTo) : AreDomains lib fromTo.swap := ⟨h.2, h.1⟩

theorem domainOf_of_isDomain {domain : String} (h : IsDomain lib domain) :
    domainOf lib domain = some domain := by
  simp [domainOf, show lib.fromBinary domain = _ from h]

/-- The other end sees the pair the other way round. -/
theorem parseFromTo_cons (h : AreDomains lib fromTo) (attrs : List (String × String)) :
    parseFromTo lib (("from", fromTo.localServer) :: ("to", fromTo.remoteServer) :: attrs) =
    some fromTo.swap := by
  simp [parseFromTo, List.lookup_cons, FromTo.swap, domainOf_of_isDomain h.1, domainOf_of_isDomain h.2]

theorem parseKey_step1 (h : AreDomains lib fromTo) (key : String) :
    parseKey lib (step1 fromTo key) = some (some ⟨.step1, fromTo.swap, "", key⟩) := by
  simp [parseKey, step1, Element.attrs, Element.cdata, parseFromTo_cons h, Element.attr?,
    fromtoToAttrs, List.lookup_cons]

theorem parseKey_step2 (h : AreDomains lib fromTo) (key streamId : String) :
    parseKey lib (step2 fromTo key streamId) =
    some (some ⟨.step2, fromTo.swap, streamId, key⟩) := by
  simp [parseKey, step2, Element.attrs, Element.cdata, parseFromTo_cons h, Element.attr?,
    fromtoToAttrs, List.lookup_cons]

theorem type_eq_valid_iff (isValid : Bool) : isValidToType isValid = "valid" ↔ isValid = true := by
  cases isValid <;> simp [isValidToType]

theorem parseValidity_step3 (h : AreDomains lib fromTo) (streamId : String) (isValid : Bool) :
    parseValidity lib (step3 fromTo streamId isValid) =
    some (some ⟨.step3, fromTo.swap, streamId, isValid⟩) := by
  simp [parseValidity, step3, Element.attrs, parseFromTo_cons h, Element.attr?,
    fromtoToAttrs, List.lookup_cons, type_eq_valid_iff]

theorem parseValidity_step4 (h : AreDomains lib fromTo) (isValid : Bool) :
    parseValidity lib (step4 fromTo isValid) = some (some ⟨.step4, fromTo.swap, "", isValid⟩) := by
  simp [parseValidity, step4, Element.attrs, parseFromTo_cons h, Element.attr?,
    fromtoToAttrs, List.lookup_cons, type_eq_valid_iff]

end

/-! ## The steps -/

theorem isDialback_of_name {el : Element} (h : el.name = "db:result" ∨ el.name = "db:verify") :
    isDialback el = true := by
  rcases h with h | h <;> simp [isDialback, h]

/-- The element that an incoming stream sends. -/
def inElement? : In.Effect → Option Element
  | .send el => some el
  | _ => none

/-- The stream that an incoming stream starts. -/
def startConnection? : In.Effect → Option (FromTo × String × String)
  | .startConnection fromTo key streamid => some (fromTo, key, streamid)
  | _ => none

/-- The element that an outgoing stream sends. -/
def outElement? : Out.Effect → Option Element
  | .send el => some el
  | _ => none

/-- The result that an outgoing stream passes on. -/
def sendValidity? : Out.Effect → Option (Bool × FromTo)
  | .sendValidity _ isValid fromTo => some (isValid, fromTo)
  | _ => none

/-- What an outgoing stream does at an event. -/
def effectsOf : Out.Outcome → List Out.Effect
  | .next _ _ _ effects => effects
  | .stop effects => effects

/-- The streams between the servers; each has its options and what its node answers. -/
structure Streams where
  /-- The stream of the initiating server, to the receiving one. -/
  initiating : Out.S2SData
  initiatingOpts : Out.Opts
  initiatingEnv : Out.Env
  receiving : In.Data
  receivingOpts : In.ListenerOpts
  receivingEnv : In.Env
  /-- The stream of the receiving server, to the authoritative one. -/
  verifying : Out.S2SData
  verifyingOpts : Out.Opts
  verifyingEnv : Out.Env
  authoritative : In.Data
  authoritativeOpts : In.ListenerOpts
  authoritativeEnv : In.Env

/-- What the servers know at the end of the four steps. -/
structure Verification where
  isValid : Bool
  fromTo : FromTo
  receiving : In.Data
  initiating : Out.Outcome

namespace Streams

variable (lib : Lib) (crypto : Crypto) (secret : Option String → String) (s : Streams)

/-- The data of the stream that is started to verify a key, as `handle_connect` fills them in. -/
def verify (fromTo : FromTo) (key streamid : String) : Out.S2SData :=
  { s.verifying with
    myname := fromTo.localServer
    remoteServer := fromTo.remoteServer
    processType := .verify 0 key streamid }

/-- An element that the receiving server gets. -/
def receive (el : Element) : Option In.Outcome :=
  In.handleEvent lib s.receivingOpts s.receivingEnv (.element el) .streamEstablished s.receiving

/-- An element that the authoritative server gets; it has the shared secrets. -/
def verifyKey (el : Element) : Option In.Outcome :=
  In.handleEvent lib s.authoritativeOpts { s.authoritativeEnv with key := key crypto secret }
    (.element el) .streamEstablished s.authoritative

/-- The element that the initiating server asks for verification with. -/
def request : Option Element :=
  (effectsOf (Out.sendDialbackRequest
    { s.initiatingEnv with key := fun hostType => key crypto secret (some hostType) }
    s.initiating)).findSome? outElement?

/-- The four steps, when the receiving server gets `el`; `none` when one of them fails. -/
def verification (el : Element) : Option Verification := do
  let .next state receiving effects ← s.receive lib el | none
  let (fromTo, key, streamid) ← effects.findSome? startConnection?
  let verifying := s.verify fromTo key streamid
  let step2 ← (effectsOf (Out.sendDialbackRequest s.verifyingEnv verifying)).findSome? outElement?
  let .next _ _ effects ← s.verifyKey lib crypto secret step2 | none
  let step3 ← effects.findSome? inElement?
  let (isValid, fromTo) ← (effectsOf (Out.handleEvent lib s.verifyingOpts s.verifyingEnv
    (.element step3) .waitForValidation (.s2sData verifying))).findSome? sendValidity?
  let .next _ receiving effects ← In.handleEvent lib s.receivingOpts s.receivingEnv
    (.validityFromS2SOut isValid fromTo) state receiving | none
  let step4 ← effects.findSome? inElement?
  return ⟨isValid, fromTo, receiving, Out.handleEvent lib s.initiatingOpts s.initiatingEnv
    (.element step4) .waitForValidation (.s2sData s.initiating)⟩

variable {lib crypto secret s} {fromTo : FromTo} {key : String}

/-- A key starts the stream that verifies it, and the pair waits. -/
theorem receive_step1 (h : AreDomains lib fromTo)
    (hallow : In.allowHost s.receivingEnv fromTo.swap = true)
    (hknown : In.isLocalHostKnown s.receivingEnv fromTo.swap = true) :
    s.receive lib (step1 fromTo key) = let pair : FromTo := fromTo.swap
      some (.next .streamEstablished
        { s.receiving with
          connections := s.receiving.connections.insert pair .waitForVerification }
        [.terminateIfWaitingDelay pair, .startConnection pair key s.receiving.streamid]) := by
  have hdialback : isDialback (step1 fromTo key) = true := isDialback_of_name (Or.inl rfl)
  simp [receive, In.handleEvent, In.handleElement, hdialback, In.handleDialback, parseKey_step1 h,
    hallow, hknown]

/-- The authoritative server compares the key with the one that it would have made. -/
theorem verifyKey_step2 (h : AreDomains lib fromTo) (streamId : String) :
    s.verifyKey lib crypto secret (step2 fromTo.swap key streamId) =
    some (.next .streamEstablished s.authoritative [.send (step3 fromTo streamId
      (key = makeKey crypto fromTo streamId (secret s.authoritative.hostType)))]) := by
  have hdialback : isDialback (step2 fromTo.swap key streamId) = true :=
    isDialback_of_name (Or.inr rfl)
  simp only [verifyKey, In.handleEvent, In.handleElement, hdialback, In.handleDialback,
    parseKey_step2 h.swap, if_true]
  rfl

variable (s key) in
/-- The result is passed on for the pair that was asked for. -/
theorem handleEvent_step3 (h : AreDomains lib fromTo) (streamId : String) (isValid : Bool) :
    Out.handleEvent lib s.verifyingOpts s.verifyingEnv (.element (step3 fromTo streamId isValid))
    .waitForValidation
    (.s2sData (s.verify fromTo.swap key streamId)) =
    .stop [.sendValidity 0 isValid fromTo.swap] := by
  have hdialback : isDialback (step3 fromTo streamId isValid) = true :=
    isDialback_of_name (Or.inr rfl)
  simp [Out.handleEvent, Out.handleElement, hdialback, Out.handleValidation,
    parseValidity_step3 h, verify, FromTo.swap]

/-- The initiating server goes on when its key was valid. -/
theorem handleEvent_step4 (h : AreDomains lib fromTo) (isValid : Bool)
    (htype : s.initiating.processType = .new)
    (hpair : fromTo = ⟨s.initiating.myname, s.initiating.remoteServer⟩) :
    Out.handleEvent lib s.initiatingOpts s.initiatingEnv (.element (step4 fromTo.swap isValid))
    .waitForValidation (.s2sData s.initiating) =
    if isValid ∧ ¬(s.initiating.isSsl = false ∧ s.initiatingOpts.tls = some .starttlsRequired)
    then .next .streamEstablished (.s2sData s.initiating) { streamTimeout := true } []
    else .stop [] := by
  have hdialback : isDialback (step4 fromTo.swap isValid) = true := isDialback_of_name (Or.inl rfl)
  simp only [Out.handleEvent, Out.handleElement, hdialback, Out.handleValidation,
    parseValidity_step4 h.swap, htype, if_true, ← hpair]
  cases isValid
  · simp
  · by_cases htls : s.initiating.isSsl = false ∧ s.initiatingOpts.tls = some .starttlsRequired
    · simp [htls]
    · simp [htls]

/-- The initiating server makes its key for the stream that the receiving server knows. -/
theorem request_eq (htype : s.initiating.processType = .new) : s.request crypto secret =
      let fromTo : FromTo := ⟨s.initiating.myname, s.initiating.remoteServer⟩
      some (step1 fromTo (makeKey crypto fromTo s.initiating.remoteStreamid
        (secret (some s.initiating.hostType)))) := by
  simp [request, Out.sendDialbackRequest, htype, Out.waiting, effectsOf, outElement?, Dialback.key]

/-- The receiving server learns what the authoritative one finds, and tells the initiating one. -/
theorem verification_step1 (h : AreDomains lib fromTo)
    (hallow : In.allowHost s.receivingEnv fromTo.swap = true)
    (hknown : In.isLocalHostKnown s.receivingEnv fromTo.swap = true) :
    let isValid : Bool := key = makeKey crypto fromTo s.receiving.streamid
      (secret s.authoritative.hostType)
    s.verification lib crypto secret (step1 fromTo key) =
      some {
        isValid := isValid
        fromTo := fromTo.swap
        receiving := In.updateConnections
          { s.receiving with
            connections := s.receiving.connections.insert fromTo.swap .waitForVerification }
          isValid fromTo.swap
        initiating := Out.handleEvent lib s.initiatingOpts s.initiatingEnv
          (.element (step4 fromTo.swap isValid)) .waitForValidation (.s2sData s.initiating) } := by
  intro isValid
  have hstep2 : effectsOf (Out.sendDialbackRequest s.verifyingEnv
      (s.verify fromTo.swap key s.receiving.streamid)) =
      [.send (step2 fromTo.swap key s.receiving.streamid)] := rfl
  have hstep3 := handleEvent_step3 s key h s.receiving.streamid isValid
  simp only [verification, receive_step1 h hallow hknown]
  simp only [Option.bind_eq_bind, Option.bind_some, List.findSome?_cons, startConnection?,
    hstep2, outElement?, verifyKey_step2 h, inElement?]
  rw [hstep3]
  simp [effectsOf, sendValidity?, In.handleEvent, In.handleValidityFromS2SOut, inElement?]

/-- What the two servers have learned at the end, where the key is valid exactly if `valid`. -/
structure Learned (s : Streams) (fromTo : FromTo) (valid : Prop) (v : Verification) : Prop where
  /-- The receiving server learns it for its own domain and the originating one. -/
  learnedFor : v.fromTo = fromTo.swap
  isValid : v.isValid = true ↔ valid
  connected : ∀ pair, In.isS2SConnected v.receiving pair = true ↔
    (if pair = fromTo.swap then valid else In.isS2SConnected s.receiving pair = true)
  heard : s.initiating.processType = .new →
    fromTo = ⟨s.initiating.myname, s.initiating.remoteServer⟩ →
    v.initiating =
      if v.isValid ∧ ¬(s.initiating.isSsl = false ∧ s.initiatingOpts.tls = some .starttlsRequired)
      then .next .streamEstablished (.s2sData s.initiating) { streamTimeout := true } []
      else .stop []

theorem isS2SConnected_updateConnections (data : In.Data) (isValid : Bool) (fromTo pair : FromTo) :
    In.isS2SConnected (In.updateConnections data isValid fromTo) pair = true ↔
    if pair = fromTo then isValid = true else In.isS2SConnected data pair = true := by
  by_cases hpair : pair = fromTo
  · subst hpair
    cases isValid <;> simp [In.isS2SConnected, In.updateConnections]
  · cases isValid <;> simp [In.isS2SConnected, In.updateConnections, hpair]

variable (crypto secret key) in
theorem learned (h : AreDomains lib fromTo)
    (hallow : In.allowHost s.receivingEnv fromTo.swap = true)
    (hknown : In.isLocalHostKnown s.receivingEnv fromTo.swap = true) :
    ∃ v, s.verification lib crypto secret (step1 fromTo key) = some v ∧
    s.Learned fromTo (key = makeKey crypto fromTo s.receiving.streamid
      (secret s.authoritative.hostType)) v := by
  refine ⟨_, verification_step1 h hallow hknown, rfl, by simp, fun pair => ?_,
    fun htype hpair => ?_⟩
  · rw [isS2SConnected_updateConnections]
    by_cases hpair : pair = fromTo.swap
    · simp [hpair]
    · simp [In.isS2SConnected, hpair]
  · exact handleEvent_step4 h _ htype hpair

variable (s secret) in
/-- **The servers agree** on every key for a pair of domains: it is valid exactly if it is the one
made with the authoritative server's secret for this pair and stream. -/
theorem verification_agrees (hcrypto : crypto.Injective) (h : AreDomains lib fromTo)
    (hspaceless : fromTo.Spaceless)
    (hallow : In.allowHost s.receivingEnv fromTo.swap = true)
    (hknown : In.isLocalHostKnown s.receivingEnv fromTo.swap = true) :
    (∀ key, ∃ v, s.verification lib crypto secret (step1 fromTo key) = some v ∧
    s.Learned fromTo (key = makeKey crypto fromTo s.receiving.streamid
      (secret s.authoritative.hostType)) v) ∧
    (∀ made : FromTo, made.Spaceless → ∀ streamId secret', ∃ v, s.verification lib crypto secret
      (step1 fromTo (makeKey crypto made streamId secret')) = some v ∧
    s.Learned fromTo (made = fromTo ∧ streamId = s.receiving.streamid ∧
      secret' = secret s.authoritative.hostType) v) ∧
    (s.initiating.processType = .new → fromTo = ⟨s.initiating.myname, s.initiating.remoteServer⟩ →
    s.initiating.remoteStreamid = s.receiving.streamid →
    s.authoritative.hostType = some s.initiating.hostType →
    ∃ el v, s.request crypto secret = some el ∧ s.verification lib crypto secret el = some v ∧
      s.Learned fromTo True v) := by
  refine ⟨fun key => learned crypto secret key h hallow hknown,
    fun made hmade streamId secret' => ?_, fun htype hpair hid hhostType => ?_⟩
  · obtain ⟨v, hv, hlearned⟩ := learned crypto secret
      (makeKey crypto made streamId secret') h hallow hknown
    rw [makeKey_inj hcrypto hmade hspaceless] at hlearned
    exact ⟨v, hv, hlearned⟩
  · obtain ⟨v, hv, hlearned⟩ := learned crypto secret
      (makeKey crypto fromTo s.receiving.streamid (secret s.authoritative.hostType))
      h hallow hknown
    rw [eq_self] at hlearned
    refine ⟨_, v, request_eq htype, ?_, hlearned⟩
    rw [← hpair, hid, ← hhostType]
    exact hv

end Streams

/-! ### A run -/

/-- Every character of the first word is marked, so that its end can be seen. -/
def markedPair (a b : List Char) : List Char := (a.flatMap fun c => ['0', c]) ++ '1' :: b

theorem markedPair_inj {a a' b b' : List Char} (h : markedPair a b = markedPair a' b') :
    a = a' ∧ b = b' := by
  induction a generalizing a' with
  | nil => cases a' <;> simp_all [markedPair]
  | cons c a ih =>
    cases a' with
    | nil => simp [markedPair] at h
    | cons c' a' =>
      obtain ⟨rfl, hrest⟩ : c = c' ∧ markedPair a b = markedPair a' b' := by
        simpa [markedPair] using h
      obtain ⟨rfl, rfl⟩ := ih hrest
      exact ⟨rfl, rfl⟩

/-- A code without collisions. -/
def markedCrypto : Crypto where
  sha256 data := data
  hmacSha256 key data := String.ofList (markedPair key.toList data.toList)

theorem injective_markedCrypto : markedCrypto.Injective where
  sha256 _ _ h := h
  hmacSha256 _ _ _ _ h := by
    have hchars := congrArg String.toList h
    simp only [markedCrypto, String.toList_ofList] at hchars
    obtain ⟨hkey, hdata⟩ := markedPair_inj hchars
    exact ⟨String.toList_inj.1 hkey, String.toList_inj.1 hdata⟩

/-- Names are domains as they are. -/
def plainLib : Lib where
  nameprep := some
  fromBinary domain := some { luser := "", lserver := domain, lresource := "" }
  mimeDecode := some
  encode := id
  domainUtf8ToAscii := some

/-- A node that serves all domains. -/
def openInEnv : In.Env where
  getHostType := some
  hostPolicy _ _ := none
  defaultPolicy _ := true
  s2sAllowHost _ _ := true
  isRegisteredRoute _ := false
  hasComponent _ := false
  key _ _ _ := ""
  s2sStreamFeatures _ _ := []
  handshake := none
  newStreamid := "1"
  hideServiceName := false

/-- A node that reaches all domains. -/
def openOutEnv : Out.Env where
  getHostType := some
  openSocket _ _ := some false
  handshake := false
  key _ _ _ := ""
  newStreamid := "1"

/-- A stream from one domain to another. -/
def outStream (myname remoteServer : String) : Out.S2SData where
  hostType := myname
  myname := myname
  remoteServer := remoteServer
  isSsl := false
  processType := .new
  streamid := "1"
  remoteStreamid := "7"

/-- The end of a stream at a domain. -/
def inStream (myname : String) : In.Data where
  hostType := some myname
  myname := myname
  streamid := "7"
  socket := .tcp

/-- The streams of a verification between two domains. -/
def exampleStreams : Streams where
  initiating := outStream "a.example" "b.example"
  initiatingOpts := ⟨none⟩
  initiatingEnv := openOutEnv
  receiving := inStream "b.example"
  receivingOpts := ⟨none⟩
  receivingEnv := openInEnv
  verifying := outStream "b.example" "a.example"
  verifyingOpts := ⟨none⟩
  verifyingEnv := openOutEnv
  authoritative := inStream "a.example"
  authoritativeOpts := ⟨none⟩
  authoritativeEnv := openInEnv

/-- Between two domains the key of the one is valid, and no key made for another stream. -/
theorem verification_agrees_example :
    (∃ el v, exampleStreams.request markedCrypto (fun _ => "s") = some el ∧
    exampleStreams.verification plainLib markedCrypto (fun _ => "s") el = some v ∧
    exampleStreams.Learned ⟨"a.example", "b.example"⟩ True v) ∧
    ∃ v, exampleStreams.verification plainLib markedCrypto (fun _ => "s")
      (step1 ⟨"a.example", "b.example"⟩
        (makeKey markedCrypto ⟨"a.example", "b.example"⟩ "8" "s")) = some v ∧
    v.isValid = false := by
  have hspaceless : FromTo.Spaceless ⟨"a.example", "b.example"⟩ := by
    constructor <;> decide
  have hdomains : AreDomains plainLib ⟨"a.example", "b.example"⟩ := ⟨rfl, rfl⟩
  obtain ⟨-, hmade, hgenuine⟩ := exampleStreams.verification_agrees (fun _ => "s")
    injective_markedCrypto hdomains hspaceless rfl rfl
  refine ⟨hgenuine rfl rfl rfl rfl, ?_⟩
  obtain ⟨v, hv, hlearned⟩ := hmade _ hspaceless "8" "s"
  refine ⟨v, hv, ?_⟩
  rw [Bool.eq_false_iff, ne_eq, hlearned.isValid]
  rintro ⟨-, hid, -⟩
  exact absurd hid (by decide)

end Dialback

end MongooseIM.S2S
