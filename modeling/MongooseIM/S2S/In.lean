import Mathlib.Data.List.AList
import MongooseIM.S2S.Dialback

/-! # Incoming server streams

The state machine of `mongoose_s2s_in`, from the accepted socket on. -/

namespace MongooseIM.S2S.In

open Xmpp

/-! ## Sockets and certificates -/

/-- A certificate, by the domains that `cert_utils:get_cert_domains/1` reads. -/
structure Cert where
  domains : List String

/-- The sockets of the listener. -/
inductive Socket
  /-- `#ranch_tcp{}` -/
  | tcp
  /-- `#ranch_ssl{}`, with the errors of the verification and the certificate of the peer. -/
  | ssl (verifyResults : List String) (peercert : Option Cert)

/-- `mongoose_xmpp_socket:is_ssl/1` -/
def Socket.isSsl : Socket → Bool
  | tcp => false
  | ssl _ _ => true

/-- What `mongoose_xmpp_socket:get_peer_certificate/1` returns. -/
inductive PeerCert
  | ok (cert : Cert)
  | noPeerCert
  | badCert (reason : String)

/-- `mongoose_xmpp_socket:get_peer_certificate/1` -/
def Socket.getPeerCertificate : Socket → PeerCert
  | tcp => .noPeerCert
  | ssl [] (some cert) => .ok cert
  | ssl [] none => .noPeerCert
  | ssl (err :: _) _ => .badCert err

/-- A label against a pattern, as the regular expression of `mongoose_lib:sh_to_awk/1` does it for
the characters that `match_labels/2` lets through; labels have no line breaks. -/
def globMatches : (pattern label : List Char) → Bool
  | [], label => label.isEmpty
  | '*' :: pattern, label => label.tails.any (globMatches pattern)
  | _ :: _, [] => false
  | p :: pattern, c :: label => p = c && globMatches pattern label

/-- `match_labels/2` -/
def matchLabels : (labels patterns : List (List Char)) → Bool
  | [], [] => true
  | [], _ :: _ => false
  | _ :: _, [] => false
  | dl :: dLabels, pl :: pLabels =>
    (pl.all fun c => ('a' ≤ c && c ≤ 'z') || ('0' ≤ c && c ≤ '9') || c = '-' || c = '*') &&
      globMatches pl dl && matchLabels dLabels pLabels

/-- `match_domain/2` -/
def matchDomain (domain pattern : String) : Bool :=
  domain = pattern || matchLabels (domain.toList.splitOn '.') (pattern.toList.splitOn '.')

/-- `check_auth_domain/2` -/
def checkAuthDomain (lib : Lib) (authDomain : String) : PeerCert → Bool
  | .ok cert =>
    match lib.domainUtf8ToAscii authDomain with
    | none => false
    | some pcAuthDomain => cert.domains.any (matchDomain pcAuthDomain)
  | _ => false

/-! ## The state machine -/

/-- `mode` in the `tls` options of the listener. -/
inductive TlsMode
  | tls
  | starttls
  | starttlsRequired

/-- The options of the listener. -/
structure ListenerOpts where
  /-- `tls`; `none` when it is not there. -/
  tls : Option TlsMode

/-- `stream_state()` -/
inductive StreamState
  | streamStart
  | authenticated

/-- `state()`; `wait_for_session_establishment` is never entered. -/
inductive State
  | waitForStream (streamState : StreamState)
  | waitForFeatureBeforeAuth
  | streamEstablished

/-- The state of a pair of domains in `connections`. -/
inductive Connection
  | waitForVerification
  | established
  deriving DecidableEq

/-- `#s2s_data{}` -/
structure Data where
  hostType : Option String := none
  myname : String
  authDomain : Option String := none
  streamid : String
  socket : Socket
  connections : AList fun _ : FromTo => Connection := ∅
  authenticated : Bool := false

/-- What the rest of the node answers while an event is handled. -/
structure Env where
  /-- `mongoose_domain_api:get_host_type/1` -/
  getHostType : String → Option String
  /-- `host_policy` of a host type for a remote domain: whether it is `allow`. -/
  hostPolicy : String → String → Option Bool
  /-- Whether `default_policy` of a host type is `allow`. -/
  defaultPolicy : String → Bool
  /-- Whether the hook `s2s_allow_host` returns `allow`. -/
  s2sAllowHost : String → String → Bool
  /-- `mongoose_router:is_registered_route/1` -/
  isRegisteredRoute : String → Bool
  /-- `mongoose_component:has_component/1` -/
  hasComponent : String → Bool
  /-- `ejabberd_s2s:key/3` -/
  key : Option String → FromTo → String → String
  /-- `mongoose_hooks:s2s_stream_features/2` -/
  s2sStreamFeatures : Option String → String → List Element
  /-- The result of a TLS handshake; `none` when it fails. -/
  handshake : Option (List String × Option Cert)
  /-- `mongoose_bin:gen_from_crypto/0` -/
  newStreamid : String
  hideServiceName : Bool

/-- What the process does to the rest of the world. -/
inductive Effect
  /-- The stream header, with its `id` and `from`. -/
  | header (id sender : String)
  | send (el : Element)
  | error (condition : String)
  | errorReply (el : Element) (condition : String)
  /-- `?XML_STREAM_TRAILER` -/
  | trailer
  /-- `mongoose_s2s_out:terminate_if_waiting_delay/1` -/
  | terminateIfWaitingDelay (fromTo : FromTo)
  /-- `mongoose_s2s_out:start_connection/2` with `{verify, self(), Key, StreamID}`. -/
  | startConnection (fromTo : FromTo) (key streamid : String)
  | routeStanza (sender recipient : Jid) (el : Element)

/-- The result of an event. -/
inductive Outcome
  | next (state : State) (data : Data) (effects : List Effect)
  | stop (effects : List Effect)

/-- The events. -/
inductive Event
  /-- `#xmlstreamstart{}` -/
  | streamStart (attrs : List (String × String))
  /-- `#xmlstreamend{}` -/
  | streamEnd
  /-- `#xmlstreamerror{}` -/
  | streamError (name : String)
  /-- `#xmlel{}` -/
  | element (el : Element)
  /-- The cast `{validity_from_s2s_out, IsValid, FromTo}`. -/
  | validityFromS2SOut (isValid : Bool) (fromTo : FromTo)
  /-- The cast `{exit, system_shutdown}`. -/
  | systemShutdown
  /-- The cast `{exit, Reason}`. -/
  | exit (reason : String)
  /-- The cast `{stop, Reason}`. -/
  | stop
  /-- The call `get_state_info`. -/
  | getStateInfo
  /-- The timeout `activate_socket`. -/
  | activateSocket
  | stateTimeout
  | socketClosed
  | unknown

def nsServer : String := "jabber:server"
def nsServerDialback : String := "jabber:server:dialback"
def nsTls : String := "urn:ietf:params:xml:ns:xmpp-tls"
def nsSasl : String := "urn:ietf:params:xml:ns:xmpp-sasl"

section

variable (lib : Lib) (opts : ListenerOpts) (env : Env)

/-! ### Answers -/

variable (data : Data)

/-- `stream_header/1` -/
def streamHeader : Effect := .header data.streamid data.myname

/-- `stream_start_error/3` -/
def streamStartError (condition : String) : Outcome :=
  .stop [streamHeader data, .error condition, .trailer]

/-- `stream_error/2` -/
def streamError (condition : String) : Outcome := .stop [.error condition, .trailer]

/-- `tls_proceed/0` -/
def tlsProceed : Element := .mk "proceed" [("xmlns", nsTls)] [] ""

/-- `tls_failure/0` -/
def tlsFailure : Element := .mk "failure" [("xmlns", nsTls)] [] ""

/-- `sasl_success/0` -/
def saslSuccess : Element := .mk "success" [("xmlns", nsSasl)] [] ""

/-- `sasl_failure/0` -/
def saslFailure : Element := .mk "failure" [("xmlns", nsSasl)] [] ""

/-- `add_tls_elems/3`; `none` when it crashes on a bad certificate. -/
def addTlsElems (features : List Element) : Option (List Element) :=
  match opts.tls, data.socket.isSsl with
  | some .starttlsRequired, false =>
    some (.mk "starttls" [("xmlns", nsTls)] [.mk "required" [] [] ""] "" :: features)
  | some .starttls, false => some (.mk "starttls" [("xmlns", nsTls)] [] "" :: features)
  | some _, true =>
    match data.socket.getPeerCertificate with
    | .ok _ =>
      some (.mk "mechanisms" [("xmlns", nsSasl)] [.mk "mechanism" [] [] "EXTERNAL"] "" ::
        features)
    | .noPeerCert => some features
    | .badCert _ => none
  | _, _ => some features

/-! ### The start of a stream -/

variable (attrs : List (String × String))

/-- `stream_start_features_before_auth/2` -/
def streamStartFeaturesBeforeAuth : Option Outcome :=
  if attrs.lookup "version" = some "1.0" then do
    let features ← addTlsElems opts data (env.s2sStreamFeatures data.hostType data.myname)
    return .next .waitForFeatureBeforeAuth data
      [streamHeader data, .send (.mk "stream:features" [("from", data.myname)] features "")]
  else if attrs.lookup "xmlns:db" = some nsServerDialback then
    some (.next .waitForFeatureBeforeAuth data [streamHeader data])
  else some (streamStartError data "invalid-xml")

/-- `stream_start_after_auth/2` -/
def streamStartAfterAuth : Outcome :=
  if attrs.lookup "version" = some "1.0" then
    let features := env.s2sStreamFeatures data.hostType data.myname
    .next .streamEstablished data
      [streamHeader data, .send (.mk "stream:features" [("from", data.myname)] features "")]
  else if attrs.lookup "xmlns:db" = some nsServerDialback then
    .next .streamEstablished data [streamHeader data]
  else streamStartError data "invalid-xml"

/-- `handle_stream_start/3` -/
def handleStreamStart (streamState : StreamState) : Option Outcome :=
  if attrs.lookup "xmlns" = some nsServer then
    match streamState, attrs.lookup "to" with
    | .streamStart, some server =>
      match (lib.nameprep server).bind fun lServer =>
        (env.getHostType lServer).map fun hostType => (lServer, hostType) with
      | some (lServer, hostType) =>
        streamStartFeaturesBeforeAuth opts env
          { data with myname := lServer, hostType := some hostType } attrs
      | none => some (streamStartError data "host-unknown")
    | .authenticated, some server =>
      if lib.nameprep server = some data.myname then some (streamStartAfterAuth env data attrs)
      else some (streamStartError data "host-unknown")
    | _, none => some (streamStartError data "improper-addressing")
  else some (streamStartError data "invalid-namespace")

/-- `handle_maybe_hide_service_name/2` -/
def handleMaybeHideServiceName : Outcome :=
  if env.hideServiceName then .stop [] else streamStartError data "not-well-formed"

/-! ### TLS and SASL -/

/-- `mongoose_xmpp_socket:tcp_to_tls/3` -/
inductive TcpToTls
  | ok (socket : Socket)
  | alreadyTlsConnection
  | error

/-- `mongoose_xmpp_socket:tcp_to_tls/3` -/
def tcpToTls : Socket → TcpToTls
  | .tcp =>
    match env.handshake with
    | some (verifyResults, peercert) => .ok (.ssl verifyResults peercert)
    | none => .error
  | .ssl _ _ => .alreadyTlsConnection

variable (el : Element)

/-- `handle_starttls/2` -/
def handleStarttls : Outcome :=
  if opts.tls.isSome then
    match el.attr? "xmlns" with
    | some ns =>
      if ns = nsTls then
        match tcpToTls env data.socket with
        | .ok tlsSocket =>
          .next (.waitForStream .streamStart)
            { data with socket := tlsSocket, streamid := env.newStreamid } [.send tlsProceed]
        | .alreadyTlsConnection => .stop [.send tlsProceed, .errorReply el "bad-request"]
        | .error => .stop [.send tlsProceed]
      else streamError "invalid-namespace"
    | none => .stop [.send tlsFailure]
  else .stop [.send tlsFailure]

/-- `handle_auth_start/2`; `none` when no clause matches or the text cannot be decoded. -/
def handleAuthStart : Option Outcome :=
  match el.attr? "xmlns", el.attr? "mechanism" with
  | some ns, some mechanism =>
    if ns = nsSasl then
      if mechanism = "EXTERNAL" then do
        let clientIn ← lib.mimeDecode el.cdata
        match lib.nameprep clientIn with
        | some authDomain =>
          if checkAuthDomain lib authDomain data.socket.getPeerCertificate then
            return .next (.waitForStream .authenticated)
              { data with
                streamid := env.newStreamid
                authenticated := true
                authDomain := some authDomain } [.send saslSuccess]
          else return .stop [.send saslFailure, .trailer]
        | none => return .stop [.send saslFailure, .trailer]
      else some (streamError "invalid-mechanism")
    else some (streamError "invalid-namespace")
  | some _, none => some (streamError "invalid-namespace")
  | none, _ => none

/-! ### Dialback -/

variable (fromTo : FromTo)

/-- `mongoose_s2s_lib:allow_host/1` -/
def allowHost : Bool :=
  match env.getHostType fromTo.localServer with
  | none => false
  | some hostType =>
    match env.hostPolicy hostType fromTo.remoteServer with
    | some allow => allow
    | none =>
      env.defaultPolicy hostType && env.s2sAllowHost fromTo.localServer fromTo.remoteServer

/-- `is_local_host_known/1` -/
def isLocalHostKnown : Bool :=
  env.isRegisteredRoute fromTo.localServer || env.hasComponent fromTo.localServer ||
    (env.getHostType fromTo.localServer).isSome

/-- `handle_dialback/3`; `none` when it crashes on an element that is not one of dialback. -/
def handleDialback : Option Outcome := do
  let key ← (← Dialback.parseKey lib el)
  match key.step with
  | .step1 =>
    match allowHost env key.fromTo, isLocalHostKnown env key.fromTo with
    | true, true =>
      return .next .streamEstablished
        { data with connections := data.connections.insert key.fromTo .waitForVerification }
        [.terminateIfWaitingDelay key.fromTo,
          .startConnection key.fromTo key.key data.streamid]
    | _, false => return .stop [.error "host-unknown"]
    | false, _ => return .stop [.error "invalid-from"]
  | .step2 =>
    let isValid : Bool := key.key = env.key data.hostType key.fromTo key.streamId
    return .next .streamEstablished data
      [.send (Dialback.step3 key.fromTo key.streamId isValid)]

/-- `update_connections/3` -/
def updateConnections (isValid : Bool) (fromTo : FromTo) : Data :=
  if isValid then { data with connections := data.connections.insert fromTo .established }
  else { data with connections := data.connections.erase fromTo }

/-- `handle_validity_from_s2s_out/3` -/
def handleValidityFromS2SOut (isValid : Bool) (fromTo : FromTo) : Outcome :=
  .next .streamEstablished (updateConnections data isValid fromTo)
    [.send (Dialback.step4 fromTo isValid)]

/-! ### Stanzas -/

/-- `is_s2s_authenticated/2` -/
def isS2SAuthenticated : Bool :=
  data.authenticated && data.authDomain = some fromTo.remoteServer && isLocalHostKnown env fromTo

/-- `is_s2s_connected/2` -/
def isS2SConnected : Bool :=
  data.connections.lookup fromTo = some .established

/-- `is_s2s_authenticated_or_connected/2` -/
def isS2SAuthenticatedOrConnected : Bool :=
  isS2SAuthenticated env data fromTo || isS2SConnected data fromTo

/-- `is_valid_stanza/1` -/
def isValidStanza : Bool :=
  el.name = "message" || el.name = "presence" || el.name = "iq"

/-- `handle_session_established/2` with `route_incoming_stanza/4`. -/
def handleSessionEstablished : Outcome :=
  let newEl := el.withAttrs (removeAttr "xmlns" el.attrs)
  match lib.fromBinary ((el.attr? "from").getD ""), lib.fromBinary ((el.attr? "to").getD ""),
    isValidStanza newEl with
  | some remoteJid, some localJid, true =>
    if isS2SAuthenticatedOrConnected env data ⟨localJid.lserver, remoteJid.lserver⟩ then
      .next .streamEstablished data [.routeStanza remoteJid localJid newEl]
    else .next .streamEstablished data []
  | _, _, _ => .next .streamEstablished data []

/-- An element outside of `wait_for_stream`. -/
def handleElement (state : State) (data : Data) : Option Outcome :=
  match state with
  | .waitForFeatureBeforeAuth =>
    if el.name = "starttls" then some (handleStarttls opts env data el)
    else if el.name = "auth" then handleAuthStart lib env data el
    else if isDialback el then handleDialback lib env data el
    else some (.next state data [])
  | .streamEstablished =>
    if isDialback el then handleDialback lib env data el
    else some (handleSessionEstablished lib env data el)
  | .waitForStream _ => some (handleMaybeHideServiceName env data)

/-- `handle_event/4`; `none` when it crashes. -/
def handleEvent (e : Event) (state : State) (data : Data) : Option Outcome :=
  match e with
  | .streamStart attrs =>
    match state with
    | .waitForStream streamState => handleStreamStart lib opts env data attrs streamState
    | _ => some (streamStartError data "policy-violation")
  | .streamEnd =>
    match state with
    | .waitForStream _ => some (handleMaybeHideServiceName env data)
    | _ => some (.stop [.trailer])
  | .streamError name =>
    match state with
    | .waitForStream _ => some (handleMaybeHideServiceName env data)
    | _ =>
      if name = "element too big" then some (streamError "policy-violation")
      else some (streamError "not-well-formed")
  | .element el => handleElement lib opts env el state data
  | .validityFromS2SOut isValid fromTo => some (handleValidityFromS2SOut data isValid fromTo)
  | .systemShutdown => some (.stop [.error "system-shutdown", .trailer])
  | .exit _ => some (.stop [.error "conflict", .trailer])
  | .stop => some (.stop [])
  | .getStateInfo => some (.next state data [])
  | .activateSocket => some (.next state data [])
  | .stateTimeout => some (.stop [.error "connection-timeout", .trailer])
  | .socketClosed => some (.stop [])
  | .unknown => some (.next state data [])

end

/-! ## A stream and its history -/

/-- A successful SASL authentication: the domain, and the socket it was made on. -/
structure Auth where
  domain : String
  socket : Socket

/-- What the peer has proved on a stream. -/
structure Proved where
  auths : List Auth := []
  requests : List FromTo := []
  answers : AList fun _ : FromTo => Bool := ∅

/-- A stanza that was routed: its domains, whether the stream was encrypted, and what the peer had
proved. -/
structure Routed where
  fromTo : FromTo
  isSsl : Bool
  proved : Proved

/-- A stream. -/
structure System where
  state : State
  data : Data
  proved : Proved := {}
  routed : List Routed := []

/-- The stream after the event `connect`. -/
def connect (myname streamid : String) (socket : Socket) : System where
  state := .waitForStream .streamStart
  data := { myname := myname, streamid := streamid, socket := socket }

/-- The pairs of domains whose verification starts. -/
def Effect.request : Effect → Option FromTo
  | .startConnection fromTo _ _ => some fromTo
  | _ => none

/-- The authentication that succeeds with an event. -/
def Data.newAuth (before after : Data) : List Auth :=
  if after.authenticated && !before.authenticated then
    after.authDomain.toList.map fun domain => ⟨domain, before.socket⟩
  else []

/-- The answers after an event. -/
def Event.answers (answers : AList fun _ : FromTo => Bool) : Event → AList fun _ : FromTo => Bool
  | .validityFromS2SOut isValid fromTo => answers.insert fromTo isValid
  | _ => answers

/-- The record of what an event proves. -/
def Proved.record (proved : Proved) (e : Event) (before after : Data) (effects : List Effect) :
    Proved where
  auths := proved.auths ++ before.newAuth after
  requests := proved.requests ++ effects.filterMap Effect.request
  answers := e.answers proved.answers

/-- The record of a stanza that is routed. -/
def Effect.routed (data : Data) (proved : Proved) : Effect → Option Routed
  | .routeStanza sender recipient _ =>
    some ⟨⟨recipient.lserver, sender.lserver⟩, data.socket.isSsl, proved⟩
  | _ => none

/-- One event of a stream; `none` when the process ends. -/
def step (lib : Lib) (opts : ListenerOpts) (s : System) (e : Env × Event) : Option System :=
  match handleEvent lib opts e.1 e.2 s.state s.data with
  | some (.next state data effects) =>
    some ⟨state, data, s.proved.record e.2 s.data data effects,
      s.routed ++ effects.filterMap (Effect.routed s.data s.proved)⟩
  | _ => none

end MongooseIM.S2S.In
