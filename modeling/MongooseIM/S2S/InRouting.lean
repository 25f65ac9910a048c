import MongooseIM.S2S.In
import MongooseIM.Transition.Run

/-! # Stanzas of incoming server streams

A stream routes only stanzas whose domains its peer has proved, and only encrypted ones where
STARTTLS is required, in exactly the runs whose positive verification results meet `ResultOk`. -/

namespace MongooseIM.S2S.In

open Transition Xmpp List Option

/-! ## What is kept -/

variable (lib : Lib)

/-- The peer has proved that it may send from the remote domain: by SASL EXTERNAL over TLS, or by a
dialback requested on the stream and last answered as valid. -/
def Proved.Proves (proved : Proved) (fromTo : FromTo) : Prop :=
  (∃ auth ∈ proved.auths, auth.domain = fromTo.remoteServer ∧ auth.socket.isSsl = true ∧
      checkAuthDomain lib auth.domain auth.socket.getPeerCertificate = true) ∨
    fromTo ∈ proved.requests ∧ proved.answers.lookup fromTo = some true

/-- A stanza may be routed. -/
structure Routed.Allowed (lib : Lib) (opts : ListenerOpts) (r : Routed) : Prop where
  proved : r.proved.Proves lib r.fromTo
  encrypted : opts.tls = some .starttlsRequired → r.isSsl = true

/-- **Only authorised stanzas are routed.** -/
structure Kept (lib : Lib) (opts : ListenerOpts) (s : System) : Prop where
  routed : ∀ r ∈ s.routed, r.Allowed lib opts
  accepted : ∀ env fromTo, isS2SAuthenticatedOrConnected env s.data fromTo = true →
    Routed.Allowed lib opts ⟨fromTo, s.data.socket.isSsl, s.proved⟩

/-- A positive verification result is for a pair that was requested on the stream, or for the
authenticated domain, and comes over an encrypted stream if STARTTLS is required. -/
def ResultOk (opts : ListenerOpts) (s : System) (e : Env × Event) : Prop :=
  match e.2 with
  | .validityFromS2SOut true fromTo =>
    (fromTo ∈ s.proved.requests ∨
      s.data.authenticated = true ∧ s.data.authDomain = some fromTo.remoteServer) ∧
    (opts.tls = some .starttlsRequired → s.data.socket.isSsl = true)
  | _ => True

/-! ## What an event changes -/

/-- The states that an authenticated stream is in. -/
def State.Late : State → Prop
  | .waitForStream .authenticated => True
  | .streamEstablished => True
  | _ => False

/-- The fields that decide which stanzas are accepted. -/
structure Data.SameRights (data data' : Data) : Prop where
  socket : data'.socket = data.socket
  connections : data'.connections = data.connections
  authenticated : data'.authenticated = data.authenticated
  authDomain : data'.authDomain = data.authDomain

theorem Data.SameRights.refl (data : Data) : data.SameRights data := ⟨rfl, rfl, rfl, rfl⟩

/-- The effects start no verification and route only accepted stanzas. -/
structure Quiet (env : Env) (data : Data) (effects : List Effect) : Prop where
  request : effects.filterMap Effect.request = []
  routed : ∀ sender recipient el, .routeStanza sender recipient el ∈ effects →
    isS2SAuthenticatedOrConnected env data ⟨recipient.lserver, sender.lserver⟩ = true

/-- **What an event changes.** -/
inductive Changed (lib : Lib) (env : Env) (state : State) (data : Data) :
    Event → State → Data → List Effect → Prop
  | other {e : Event} {state' : State} {data' : Data} {effects : List Effect}
      (he : ∀ isValid fromTo, e ≠ .validityFromS2SOut isValid fromTo)
      (hrights : data.SameRights data') (hlate : state.Late → state'.Late)
      (heffects : Quiet env data effects) : Changed lib env state data e state' data' effects
  | starttls {el : Element} {socket : Socket} {streamid : String} (hearly : ¬ state.Late)
      (hssl : socket.isSsl = true) :
      Changed lib env state data (.element el) (.waitForStream .streamStart)
        { data with socket := socket, streamid := streamid } [.send tlsProceed]
  | auth {el : Element} {domain streamid : String} (hearly : ¬ state.Late)
      (hcert : checkAuthDomain lib domain data.socket.getPeerCertificate = true) :
      Changed lib env state data (.element el) (.waitForStream .authenticated)
        { data with streamid := streamid, authenticated := true, authDomain := some domain }
        [.send saslSuccess]
  | request {el : Element} {fromTo : FromTo} {key : String} :
      Changed lib env state data (.element el) .streamEstablished
        { data with connections := data.connections.insert fromTo .waitForVerification }
        [.terminateIfWaitingDelay fromTo, .startConnection fromTo key data.streamid]
  | validity {isValid : Bool} {fromTo : FromTo} :
      Changed lib env state data (.validityFromS2SOut isValid fromTo) .streamEstablished
        (updateConnections data isValid fromTo) [.send (Dialback.step4 fromTo isValid)]

section

variable {lib : Lib} {opts : ListenerOpts} {env : Env} {state state' : State} {data data' : Data}
  {effects : List Effect}

theorem Quiet.of_send {effects : List Effect} (h : ∀ effect ∈ effects, effect.request = none ∧
    ∀ sender recipient el, effect ≠ .routeStanza sender recipient el) : Quiet env data effects := by
  refine ⟨filterMap_eq_nil_iff.2 fun effect hmem => (h effect hmem).1, ?_⟩
  intro sender recipient el hmem
  exact absurd rfl ((h _ hmem).2 sender recipient el)

theorem Quiet.nil : Quiet env data [] := .of_send fun _ h => nomatch h

/-- `handle_stream_start/3` -/
theorem handleStreamStart_changed {attrs : List (String × String)} {streamState : StreamState}
    (h : handleStreamStart lib opts env data attrs streamState =
    some (.next state' data' effects)) :
    Changed lib env (.waitForStream streamState) data (.streamStart attrs) state' data' effects := by
  have hquiet : ∀ id sender el, Quiet env data [.header id sender, .send el] := by
    intro id sender el
    exact .of_send (by simp [Effect.request])
  have hheader : ∀ id sender, Quiet env data [.header id sender] := by
    intro id sender
    exact .of_send (by simp [Effect.request])
  unfold handleStreamStart at h
  split at h
  · split at h
    · split at h
      · simp only [streamStartFeaturesBeforeAuth] at h
        split at h
        · obtain ⟨features, -, h⟩ := bind_eq_some_iff.1 h
          cases h
          exact .other (fun _ _ h => nomatch h) ⟨rfl, rfl, rfl, rfl⟩ id (hquiet _ _ _)
        · split at h
          · cases h
            exact .other (fun _ _ h => nomatch h) ⟨rfl, rfl, rfl, rfl⟩ id (hheader _ _)
          · cases h
      · cases h
    · split at h
      · simp only [streamStartAfterAuth] at h
        split at h
        · cases h
          exact .other (fun _ _ h => nomatch h) (.refl _) (fun _ => trivial) (hquiet _ _ _)
        · split at h
          · cases h
            exact .other (fun _ _ h => nomatch h) (.refl _) (fun _ => trivial) (hheader _ _)
          · cases h
      · cases h
    · cases h
  · cases h

variable {el : Element}

/-- `handle_starttls/2` -/
theorem handleStarttls_changed (h : handleStarttls opts env data el = .next state' data' effects) :
    Changed lib env .waitForFeatureBeforeAuth data (.element el) state' data' effects := by
  unfold handleStarttls at h
  split at h
  · split at h
    · split at h
      · split at h
        · rename_i tlsSocket hsocket
          cases h
          refine .starttls (fun h => h) ?_
          unfold tcpToTls at hsocket
          split at hsocket
          · split at hsocket
            · cases hsocket
              rfl
            · cases hsocket
          · cases hsocket
        · cases h
        · cases h
      · cases h
    · cases h
  · cases h

/-- `handle_auth_start/2` -/
theorem handleAuthStart_changed
    (h : handleAuthStart lib env data el = some (.next state' data' effects)) :
    Changed lib env .waitForFeatureBeforeAuth data (.element el) state' data' effects := by
  unfold handleAuthStart at h
  split at h
  · split at h
    · split at h
      · obtain ⟨clientIn, -, h⟩ := bind_eq_some_iff.1 h
        split at h
        · split at h
          · rename_i hcert
            cases h
            exact .auth (fun h => h) hcert
          · cases h
        · cases h
      · cases h
    · cases h
  · cases h
  · cases h

/-- `handle_dialback/3` -/
theorem handleDialback_changed
    (h : handleDialback lib env data el = some (.next state' data' effects)) :
    Changed lib env state data (.element el) state' data' effects := by
  unfold handleDialback at h
  obtain ⟨parsed, -, h⟩ := bind_eq_some_iff.1 h
  obtain ⟨key, -, h⟩ := bind_eq_some_iff.1 h
  split at h
  · split at h
    · cases h
      exact .request
    · cases h
    · cases h
  · cases h
    exact .other (fun _ _ h => nomatch h) (.refl _) (fun _ => trivial)
      (.of_send (by simp [Effect.request]))

/-- `handle_session_established/2` -/
theorem handleSessionEstablished_changed
    (h : handleSessionEstablished lib env data el = .next state' data' effects) :
    Changed lib env .streamEstablished data (.element el) state' data' effects := by
  unfold handleSessionEstablished at h
  dsimp only at h
  split at h
  · split at h
    · rename_i haccepted
      cases h
      refine .other (fun _ _ h => nomatch h) (.refl _) id ⟨rfl, ?_⟩
      intro sender recipient el hmem
      cases mem_singleton.1 hmem
      exact haccepted
    · cases h
      exact .other (fun _ _ h => nomatch h) (.refl _) id .nil
  · cases h
    exact .other (fun _ _ h => nomatch h) (.refl _) id .nil

/-- **`handle_event/4`** -/
theorem handleEvent_changed {e : Event}
    (h : handleEvent lib opts env e state data = some (.next state' data' effects)) :
    Changed lib env state data e state' data' effects := by
  have hhide : handleMaybeHideServiceName env data ≠ .next state' data' effects := by
    unfold handleMaybeHideServiceName
    split <;> exact fun h => nomatch h
  cases e with
  | streamStart attrs =>
    simp only [handleEvent] at h
    split at h
    · exact handleStreamStart_changed h
    · cases h
  | streamEnd =>
    simp only [handleEvent] at h
    split at h
    · exact absurd (some.inj h) hhide
    · cases h
  | streamError name =>
    simp only [handleEvent] at h
    split at h
    · exact absurd (some.inj h) hhide
    · split at h <;> cases h
  | element el =>
    simp only [handleEvent, handleElement] at h
    split at h
    · split at h
      · exact handleStarttls_changed (some.inj h)
      · split at h
        · exact handleAuthStart_changed h
        · split at h
          · exact handleDialback_changed h
          · cases h
            exact .other (fun _ _ h => nomatch h) (.refl _) id .nil
    · split at h
      · exact handleDialback_changed h
      · exact handleSessionEstablished_changed (some.inj h)
    · exact absurd (some.inj h) hhide
  | validityFromS2SOut isValid fromTo =>
    cases h
    exact .validity
  | getStateInfo =>
    cases h
    exact .other (fun _ _ h => nomatch h) (.refl _) id .nil
  | activateSocket =>
    cases h
    exact .other (fun _ _ h => nomatch h) (.refl _) id .nil
  | unknown =>
    cases h
    exact .other (fun _ _ h => nomatch h) (.refl _) id .nil
  | systemShutdown => cases h
  | exit reason => cases h
  | stop => cases h
  | stateTimeout => cases h
  | socketClosed => cases h

end

/-! ## The stream -/

/-- The data agree with what the peer has proved. -/
structure Shaped (lib : Lib) (s : System) : Prop where
  /-- An authentication is the one in the data, and was made over TLS with the certificate. -/
  auths : ∀ auth ∈ s.proved.auths, s.data.authenticated = true ∧
    s.data.authDomain = some auth.domain ∧ auth.socket.isSsl = true ∧
    checkAuthDomain lib auth.domain auth.socket.getPeerCertificate = true
  authenticated : s.data.authenticated = true →
    ∃ auth ∈ s.proved.auths, s.data.authDomain = some auth.domain
  encrypted : s.data.authenticated = true → s.data.socket.isSsl = true
  late : s.data.authenticated = true → s.state.Late
  /-- An established pair of domains was last answered as valid. -/
  answered : ∀ fromTo, s.data.connections.lookup fromTo = some .established →
    s.proved.answers.lookup fromTo = some true

theorem isSsl_of_checkAuthDomain {lib : Lib} {domain : String} {socket : Socket}
    (h : checkAuthDomain lib domain socket.getPeerCertificate = true) : socket.isSsl = true := by
  cases socket with
  | tcp => cases h
  | ssl verifyResults peercert => rfl

section

variable {lib : Lib} {opts : ListenerOpts} {env : Env} {s : System} {fromTo : FromTo}

theorem Shaped.proves (hs : Shaped lib s) (hauth : s.data.authenticated = true)
    (hdomain : s.data.authDomain = some fromTo.remoteServer) : s.proved.Proves lib fromTo := by
  obtain ⟨auth, hmem, hsame⟩ := hs.authenticated hauth
  obtain ⟨-, -, hssl, hcert⟩ := hs.auths auth hmem
  exact .inl ⟨auth, hmem, some.inj (hsame.symm.trans hdomain), hssl, hcert⟩

/-- What is accepted: the authenticated domain and the established pairs. -/
theorem accepted_cases {data : Data} (h : isS2SAuthenticatedOrConnected env data fromTo = true) :
    (data.authenticated = true ∧ data.authDomain = some fromTo.remoteServer) ∨
    data.connections.lookup fromTo = some .established := by
  simp only [isS2SAuthenticatedOrConnected, isS2SAuthenticated, isS2SConnected, Bool.or_eq_true,
    Bool.and_eq_true, decide_eq_true_eq] at h
  rcases h with ⟨h, -⟩ | h
  · exact .inl h
  · exact .inr h

theorem accepted_of_established {data : Data} (env : Env)
    (h : data.connections.lookup fromTo = some .established) :
    isS2SAuthenticatedOrConnected env data fromTo = true := by
  simp [isS2SAuthenticatedOrConnected, isS2SConnected, h]

variable {proved : Proved}

theorem Kept.established (hkept : Kept lib opts s) (env : Env)
    (h : s.data.connections.lookup fromTo = some .established)
    (hauths : s.proved.auths ⊆ proved.auths)
    (hrequests : s.proved.requests ⊆ proved.requests)
    (hanswers : proved.answers.lookup fromTo = some true) : proved.Proves lib fromTo := by
  rcases (hkept.accepted env fromTo (accepted_of_established env h)).proved with
    ⟨auth, hmem, hauth⟩ | ⟨hmem, -⟩
  · exact .inl ⟨auth, hauths hmem, hauth⟩
  · exact .inr ⟨hrequests hmem, hanswers⟩

theorem Data.newAuth_eq_nil {data data' : Data}
    (hauth : data'.authenticated = data.authenticated) : data.newAuth data' = [] := by
  unfold Data.newAuth
  rw [hauth]
  cases data.authenticated <;> rfl

variable {e : Event}

theorem Proved.record_eq {data data' : Data} {effects : List Effect}
    (hauth : data'.authenticated = data.authenticated) :
    proved.record e data data' effects =
    ⟨proved.auths, proved.requests ++ effects.filterMap Effect.request,
      e.answers proved.answers⟩ := by
  rw [Proved.record, Data.newAuth_eq_nil hauth, append_nil]

/-- Nothing is proved by an event that keeps the rights. -/
theorem Proved.record_other {data data' : Data}
    {effects : List Effect} (he : ∀ isValid fromTo, e ≠ .validityFromS2SOut isValid fromTo)
    (hauth : data'.authenticated = data.authenticated)
    (hrequest : effects.filterMap Effect.request = []) :
    proved.record e data data' effects = proved := by
  rw [Proved.record_eq hauth, hrequest, append_nil]
  cases e with
  | validityFromS2SOut isValid fromTo => exact absurd rfl (he isValid fromTo)
  | _ => rfl

theorem Kept.routed_append (hkept : Kept lib opts s) {effects : List Effect}
    (heffects : Quiet env s.data effects) :
    ∀ r ∈ s.routed ++ effects.filterMap (Effect.routed s.data s.proved), r.Allowed lib opts := by
  intro r hr
  rcases mem_append.1 hr with hr | hr
  · exact hkept.routed r hr
  · obtain ⟨effect, hmem, heq⟩ := mem_filterMap.1 hr
    cases effect with
    | routeStanza sender recipient el =>
      cases heq
      exact hkept.accepted env _ (heffects.routed sender recipient el hmem)
    | _ => cases heq

/-- The state after an event. -/
def System.after (s : System) (e : Event) (state : State) (data : Data) (effects : List Effect) :
    System :=
  ⟨state, data, s.proved.record e s.data data effects,
    s.routed ++ effects.filterMap (Effect.routed s.data s.proved)⟩

theorem Shaped.other (hs : Shaped lib s) {state' : State} {data' : Data}
    {effects : List Effect} (he : ∀ isValid fromTo, e ≠ .validityFromS2SOut isValid fromTo)
    (hrights : s.data.SameRights data') (hlate : s.state.Late → state'.Late)
    (heffects : Quiet env s.data effects) :
    Shaped lib (s.after e state' data' effects) ∧
    (Kept lib opts s → Kept lib opts (s.after e state' data' effects)) := by
  simp only [System.after, Proved.record_other he hrights.authenticated heffects.request]
  obtain ⟨hsocket, hconnections, hauth, hdomain⟩ := hrights
  refine ⟨⟨?_, ?_, ?_, ?_, ?_⟩, fun hkept => ⟨hkept.routed_append heffects, ?_⟩⟩
  · rw [hauth, hdomain]
    exact hs.auths
  · rw [hauth, hdomain]
    exact hs.authenticated
  · rw [hauth, hsocket]
    exact hs.encrypted
  · rw [hauth]
    exact fun h => hlate (hs.late h)
  · rw [hconnections]
    exact hs.answered
  · intro env' fromTo haccepted
    rw [hsocket]
    refine hkept.accepted env' fromTo ?_
    rw [← haccepted]
    simp only [isS2SAuthenticatedOrConnected, isS2SAuthenticated, isS2SConnected, hauth, hdomain,
      hconnections]

theorem Kept.routed_send (hkept : Kept lib opts s) (el : Element) :
    ∀ r ∈ s.routed ++ [Effect.send el].filterMap (Effect.routed s.data s.proved),
    r.Allowed lib opts := by
  intro r hr
  simp only [filterMap_cons, Effect.routed, filterMap_nil, append_nil] at hr
  exact hkept.routed r hr

section

variable (hs : Shaped lib s)

include hs

theorem Shaped.starttls {el : Element} {socket : Socket} {streamid : String}
    (hearly : ¬ s.state.Late) (hssl : socket.isSsl = true) :
    let s' := s.after (.element el) (.waitForStream .streamStart)
      { s.data with socket := socket, streamid := streamid } [.send tlsProceed]
    Shaped lib s' ∧ (Kept lib opts s → Kept lib opts s') := by
  have hnot : ¬ s.data.authenticated = true := fun h => hearly (hs.late h)
  have hrecord : s.proved.record (.element el) s.data
      { s.data with socket := socket, streamid := streamid } [.send tlsProceed] = s.proved :=
    Proved.record_other (fun _ _ h => nomatch h) rfl rfl
  simp only [System.after, hrecord]
  refine ⟨{ hs with encrypted := fun _ => hssl, late := fun h => absurd h hnot }, ?_⟩
  intro hkept
  refine ⟨hkept.routed_send _, fun env' fromTo haccepted => ?_⟩
  exact ⟨(hkept.accepted env' fromTo haccepted).proved, fun _ => hssl⟩

theorem Shaped.auth {el : Element} {domain streamid : String} (hearly : ¬ s.state.Late)
    (hcert : checkAuthDomain lib domain s.data.socket.getPeerCertificate = true) :
    let s' := s.after (.element el) (.waitForStream .authenticated)
      { s.data with streamid := streamid, authenticated := true, authDomain := some domain }
      [.send saslSuccess]
    Shaped lib s' ∧ (Kept lib opts s → Kept lib opts s') := by
  have hnot : ¬ s.data.authenticated = true := fun h => hearly (hs.late h)
  have hssl := isSsl_of_checkAuthDomain hcert
  have hauths : s.proved.auths = [] := by
    refine eq_nil_iff_forall_not_mem.2 fun auth hmem => ?_
    exact hnot (hs.auths auth hmem).1
  have hrecord : s.proved.record (.element el) s.data
      { s.data with streamid := streamid, authenticated := true, authDomain := some domain }
      [.send saslSuccess] = { s.proved with auths := [⟨domain, s.data.socket⟩] } := by
    simp [Proved.record, Data.newAuth, Event.answers, Effect.request, hauths, hnot]
  simp only [System.after, hrecord]
  refine ⟨⟨?_, ?_, fun _ => hssl, fun _ => trivial, hs.answered⟩, fun hkept => ⟨?_, ?_⟩⟩
  · intro auth hmem
    obtain rfl := mem_singleton.1 hmem
    exact ⟨rfl, rfl, hssl, hcert⟩
  · intro _
    exact ⟨⟨domain, s.data.socket⟩, mem_singleton_self _, rfl⟩
  · exact hkept.routed_send _
  · intro env' fromTo haccepted
    refine ⟨?_, fun _ => hssl⟩
    rcases accepted_cases haccepted with ⟨-, hdomain⟩ | hestablished
    · exact .inl ⟨_, mem_singleton_self _, some.inj hdomain, hssl, hcert⟩
    · refine hkept.established env' hestablished ?_ (List.Subset.refl _)
        (hs.answered fromTo hestablished)
      rw [hauths]
      exact nil_subset _

theorem Shaped.request {el : Element} {fromTo : FromTo} {key : String} :
    let s' := s.after (.element el) .streamEstablished
      { s.data with connections := s.data.connections.insert fromTo .waitForVerification }
      [.terminateIfWaitingDelay fromTo, .startConnection fromTo key s.data.streamid]
    Shaped lib s' ∧ (Kept lib opts s → Kept lib opts s') := by
  have hconnections : ∀ other, (s.data.connections.insert fromTo
      .waitForVerification).lookup other = some .established →
        s.data.connections.lookup other = some .established := by
    intro other hother
    by_cases hsame : other = fromTo
    · subst hsame
      rw [AList.lookup_insert] at hother
      cases hother
    · rwa [AList.lookup_insert_ne hsame] at hother
  have hrecord : s.proved.record (.element el) s.data
      { s.data with connections := s.data.connections.insert fromTo .waitForVerification }
      [.terminateIfWaitingDelay fromTo, .startConnection fromTo key s.data.streamid] =
        { s.proved with requests := s.proved.requests ++ [fromTo] } :=
    Proved.record_eq rfl
  simp only [System.after, hrecord]
  refine ⟨{ hs with late := fun _ => trivial, answered := ?_ }, fun hkept => ⟨?_, ?_⟩⟩
  · exact fun other hother => hs.answered other (hconnections other hother)
  · intro r hr
    simp only [filterMap_cons, Effect.routed, filterMap_nil, append_nil] at hr
    exact hkept.routed r hr
  · intro env' other haccepted
    have hbefore : isS2SAuthenticatedOrConnected env' s.data other = true := by
      rw [isS2SAuthenticatedOrConnected, Bool.or_eq_true] at haccepted ⊢
      refine haccepted.imp id fun h => ?_
      simp only [isS2SConnected, decide_eq_true_eq] at h ⊢
      exact hconnections other h
    obtain ⟨hproved, hencrypted⟩ := hkept.accepted env' other hbefore
    exact ⟨hproved.imp id fun h => ⟨mem_append_left _ h.1, h.2⟩, hencrypted⟩

/-- **The result of a verification** is right to be believed exactly if it meets `ResultOk`. -/
theorem Shaped.validity {isValid : Bool} {fromTo : FromTo} :
    let s' := s.after (.validityFromS2SOut isValid fromTo) .streamEstablished
      (updateConnections s.data isValid fromTo) [.send (Dialback.step4 fromTo isValid)]
    Shaped lib s' ∧ (Kept lib opts s →
      (Kept lib opts s' ↔ ResultOk opts s (env, .validityFromS2SOut isValid fromTo))) := by
  have hrights : (updateConnections s.data isValid fromTo).authenticated = s.data.authenticated ∧
      (updateConnections s.data isValid fromTo).authDomain = s.data.authDomain ∧
      (updateConnections s.data isValid fromTo).socket = s.data.socket := by
    cases isValid <;> exact ⟨rfl, rfl, rfl⟩
  obtain ⟨hauth, hdomain, hsocket⟩ := hrights
  -- the other pairs keep what they have
  have hothers : ∀ other, (updateConnections s.data isValid fromTo).connections.lookup other =
      some .established → (other = fromTo ∧ isValid = true) ∨
        (other ≠ fromTo ∧ s.data.connections.lookup other = some .established) := by
    intro other hestablished
    by_cases hsame : other = fromTo
    · subst hsame
      cases isValid with
      | true => exact .inl ⟨rfl, rfl⟩
      | false =>
        rw [updateConnections, if_neg (by decide), AList.lookup_erase] at hestablished
        cases hestablished
    · cases isValid with
      | true => exact .inr ⟨hsame, (AList.lookup_insert_ne hsame).symm.trans hestablished⟩
      | false => exact .inr ⟨hsame, (AList.lookup_erase_ne hsame).symm.trans hestablished⟩
  have hrecord : s.proved.record (.validityFromS2SOut isValid fromTo) s.data
      (updateConnections s.data isValid fromTo) [.send (Dialback.step4 fromTo isValid)] =
        ⟨s.proved.auths, s.proved.requests, s.proved.answers.insert fromTo isValid⟩ :=
    (Proved.record_eq hauth).trans (by simp [Effect.request, Event.answers])
  simp only [System.after, hrecord]
  have hshaped : Shaped lib ⟨.streamEstablished, updateConnections s.data isValid fromTo,
      ⟨s.proved.auths, s.proved.requests, s.proved.answers.insert fromTo isValid⟩,
      s.routed ++ filterMap (Effect.routed s.data s.proved)
        [.send (Dialback.step4 fromTo isValid)]⟩ := by
    refine ⟨?_, ?_, ?_, fun _ => trivial, ?_⟩
    · rw [hauth, hdomain]
      exact hs.auths
    · rw [hauth, hdomain]
      exact hs.authenticated
    · rw [hauth, hsocket]
      exact hs.encrypted
    · intro other hestablished
      rcases hothers other hestablished with ⟨rfl, rfl⟩ | ⟨hne, hbefore⟩
      · exact AList.lookup_insert _
      · exact (AList.lookup_insert_ne hne).trans (hs.answered other hbefore)
  refine ⟨hshaped, fun hkept => ⟨fun hafter => ?_, fun hok => ⟨hkept.routed_send _, ?_⟩⟩⟩
  · cases isValid with
    | false => trivial
    | true =>
      obtain ⟨hproved, hencrypted⟩ := hafter.accepted env fromTo
        (accepted_of_established env (AList.lookup_insert _))
      refine ⟨?_, hencrypted⟩
      rcases hproved with ⟨auth, hmem, hsame, -⟩ | ⟨hrequested, -⟩
      · obtain ⟨hauthenticated, hauthDomain, -⟩ := hs.auths auth hmem
        exact .inr ⟨hauthenticated, hsame ▸ hauthDomain⟩
      · exact .inl hrequested
  · intro env' other haccepted
    rcases accepted_cases haccepted with ⟨hauthenticated, hsame⟩ | hestablished
    · refine ⟨hshaped.proves hauthenticated hsame, fun _ => ?_⟩
      exact hshaped.encrypted hauthenticated
    · rw [hsocket]
      rcases hothers other hestablished with ⟨rfl, rfl⟩ | ⟨hne, hbefore⟩
      · refine ⟨?_, hok.2⟩
        rcases hok.1 with hrequested | ⟨hauthenticated, hsame⟩
        · exact .inr ⟨hrequested, AList.lookup_insert _⟩
        · exact hshaped.proves hauthenticated hsame
      · refine ⟨?_, (hkept.accepted env' other (accepted_of_established env' hbefore)).encrypted⟩
        exact hkept.established env' hbefore (List.Subset.refl _) (List.Subset.refl _)
          ((AList.lookup_insert_ne hne).trans (hs.answered other hbefore))

/-- **One event of a stream.** -/
theorem Shaped.step {e : Env × Event} {s' : System} (hstep : In.step lib opts s e = some s') :
    Shaped lib s' ∧ (Kept lib opts s → (Kept lib opts s' ↔ ResultOk opts s e)) := by
  obtain ⟨env, e⟩ := e
  simp only [In.step] at hstep
  split at hstep
  · rename_i state' data' effects hevent
    cases hstep
    cases handleEvent_changed hevent with
    | other he hrights hlate heffects =>
      obtain ⟨hshaped, hkept⟩ := hs.other he hrights hlate heffects
      refine ⟨hshaped, fun h => iff_of_true (hkept h) ?_⟩
      cases e with
      | validityFromS2SOut isValid fromTo => exact absurd rfl (he isValid fromTo)
      | _ => trivial
    | starttls hearly hssl =>
      obtain ⟨hshaped, hkept⟩ := hs.starttls hearly hssl
      exact ⟨hshaped, fun h => iff_of_true (hkept h) trivial⟩
    | auth hearly hcert =>
      obtain ⟨hshaped, hkept⟩ := hs.auth hearly hcert
      exact ⟨hshaped, fun h => iff_of_true (hkept h) trivial⟩
    | request =>
      obtain ⟨hshaped, hkept⟩ := hs.request
      exact ⟨hshaped, fun h => iff_of_true (hkept h) trivial⟩
    | validity => exact hs.validity
  · cases hstep

end

end

/-! ## Runs -/

theorem Shaped.connect (myname streamid : String) (socket : Socket) :
    Shaped lib (connect myname streamid socket) :=
  ⟨(fun _ h => nomatch h), (fun h => nomatch h), (fun h => nomatch h), (fun h => nomatch h),
    fun _ h => nomatch h⟩

theorem Kept.connect (opts : ListenerOpts) (myname streamid : String)
    (socket : Socket) : Kept lib opts (connect myname streamid socket) := by
  refine ⟨(fun _ h => nomatch h), fun env fromTo haccepted => ?_⟩
  rcases accepted_cases haccepted with ⟨h, -⟩ | h <;> cases h

/-- **Incoming server streams route only authorised stanzas**, encrypted where STARTTLS is required,
and would accept no others next, exactly if every positive verification result of the run meets
`ResultOk`. -/
theorem incoming_stanzas_authorised (lib : Lib) (opts : ListenerOpts) (myname streamid : String)
    (socket : Socket) (es : List (Env × Event)) :
    Guarded (step lib opts) (ResultOk opts) (connect myname streamid socket) es ↔
    ∀ h s, h <+: es → run (step lib opts) (connect myname streamid socket) h = some s →
      Kept lib opts s := by
  rw [guarded_iff_holds_along_of_broken (P := fun _ s => Shaped lib s ∧ Kept lib opts s) ?_
    (fun _ s e s' hP hstep => by
      obtain ⟨hshaped, hiff⟩ := hP.1.step hstep
      rw [← hiff hP.2]
      exact ⟨And.right, fun h => ⟨hshaped, h⟩⟩)
    ⟨.connect lib myname streamid socket, .connect lib opts myname streamid socket⟩ es]
  · have hshaped : ∀ h s, run (step lib opts) (connect myname streamid socket) h = some s →
        Shaped lib s := by
      intro h s hrun
      exact run_induction (P := fun _ s => Shaped lib s)
        (fun _ s e s' (hs : Shaped lib s) hstep => (hs.step hstep).1)
        (.connect lib myname streamid socket) hrun
    constructor
    · intro hall h s hinit hrun
      exact (hall h s hinit hrun).2
    · intro hall h s hinit hrun
      exact ⟨hshaped h s hrun, hall h s hinit hrun⟩
  · -- only a verification result can break the condition, and it is always taken
    rintro _ s ⟨env, e⟩ _ hbroken
    cases e with
    | validityFromS2SOut isValid fromTo => exact ⟨_, rfl⟩
    | _ => exact absurd trivial hbroken

/-! ### Dialback without STARTTLS -/

/-- The addresses of the example. -/
def addresses : List (String × Jid) :=
  [("local.example", ⟨"", "local.example", ""⟩), ("remote.example", ⟨"", "remote.example", ""⟩),
    ("bob@local.example", ⟨"bob", "local.example", ""⟩),
    ("eve@remote.example", ⟨"eve", "remote.example", ""⟩)]

/-- The libraries, on these addresses. -/
def addressLib : Lib where
  nameprep := some
  fromBinary address := addresses.lookup address
  mimeDecode := some
  encode := id
  domainUtf8ToAscii := some

/-- A node that serves one domain and allows all remote ones. -/
def openNode : Env where
  getHostType domain := if domain = "local.example" then some "localhost" else none
  hostPolicy _ _ := none
  defaultPolicy _ := true
  s2sAllowHost _ _ := true
  isRegisteredRoute _ := false
  hasComponent _ := false
  key _ _ _ := "key"
  s2sStreamFeatures _ _ := []
  handshake := none
  newStreamid := "id2"
  hideServiceName := false

/-- The peer never starts TLS: it sends a dialback key, which is verified, and then a message. -/
def dialbackRun : List (Env × Event) :=
  [(openNode, .streamStart [("xmlns", nsServer), ("to", "local.example"), ("version", "1.0")]),
    (openNode, .element
      (.mk "db:result" [("from", "remote.example"), ("to", "local.example")] [] "key")),
    (openNode, .validityFromS2SOut true ⟨"local.example", "remote.example"⟩),
    (openNode, .element
      (.mk "message" [("from", "eve@remote.example"), ("to", "bob@local.example")] [] ""))]

/-- **A stanza is routed over an unencrypted stream** although the listener requires STARTTLS. -/
theorem unencrypted_stanza_routed : ∃ s, run (step addressLib ⟨some .starttlsRequired⟩)
      (connect "localhost" "id1" .tcp) dialbackRun = some s ∧
    (∃ r ∈ s.routed, r.fromTo = ⟨"local.example", "remote.example"⟩ ∧ r.isSsl = false) ∧
    ¬ Kept addressLib ⟨some .starttlsRequired⟩ s := by
  have hrun : ∃ s, run (step addressLib ⟨some .starttlsRequired⟩)
        (connect "localhost" "id1" .tcp) dialbackRun = some s ∧
      ∃ r ∈ s.routed, r.fromTo = ⟨"local.example", "remote.example"⟩ ∧ r.isSsl = false :=
    ⟨_, rfl, ⟨_, _, _⟩, mem_singleton_self _, rfl, rfl⟩
  obtain ⟨s, hrun, r, hmem, hpair, hplain⟩ := hrun
  refine ⟨s, hrun, ⟨r, hmem, hpair, hplain⟩, fun hkept => ?_⟩
  have hencrypted := (hkept.routed r hmem).encrypted rfl
  rw [hplain] at hencrypted
  cases hencrypted

end MongooseIM.S2S.In
