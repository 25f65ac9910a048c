import MongooseIM.C2S.Sessions

/-! # Who resumes a session

A client that resumes a session gets the address, the domain and the host type of the session that
is registered under its SMID. The address it has authenticated as is not compared with them: who
knows the SMID has the session. -/

namespace MongooseIM.StreamManagement

open Xmpp C2S Transition

variable {server : Server}

/-- A session `p` that has authenticated resumes the session `peer`, and is then `q`. -/
structure Resumption (server : Server) (p peer q : Process) (input : Input) : Prop where
  reachable : Reachable server (fun _ _ => True) p
  reachable_peer : Reachable server (fun _ _ => True) peer
  state_eq : ∃ retries, p.state = .waitForFeatureAfterAuth retries
  /-- It handles a request to resume with an SMID and a valid `h`. -/
  request : ∃ el previd h, p.event? input = some (.xml (.element el)) ∧ el.name = "resume" ∧
    el.attr? "xmlns" = some nsStreamMgnt ∧ el.attr? "previd" = some previd ∧
      streamMgmtParseH el = some h
  session_eq : input.oracle.session = .sid peer.data.sid
  peer_eq : ∃ old, input.oracle.peer = .ok old ∧ HandsOver peer old
  step_eq : step server p input = some q
  running : q.stopped = none
  resumed : q.state = .sessionEstablished

/-- **The identity of a resumed session** is that of the session that was registered; its bare JID
is the one that the client has authenticated as exactly if that session's is. -/
theorem resumption_identity {p peer q : Process} {input : Input}
    (h : Resumption server p peer q input) :
    q.data.jid = peer.data.jid ∧ q.data.lserver = peer.data.lserver ∧
    q.data.hostType = peer.data.hostType ∧
    (q.data.jid.map Jid.toBare = p.data.jid.map Jid.toBare ↔
      peer.data.jid.map Jid.toBare = p.data.jid.map Jid.toBare) := by
  obtain ⟨retries, hstate⟩ := h.state_eq
  obtain ⟨el, previd, n, hevent, hname, -⟩ := h.request
  obtain ⟨old, hpeer, hands⟩ := h.peer_eq
  obtain ⟨-, -, smState, rfl⟩ := hands.eq_mergeModState
  obtain ⟨-, event, queue, timers, summary, hreceive, -, -, houtcome, hfollows⟩ :=
    step_outcome h.step_eq
  obtain rfl : event = .xml (.element el) := by
    rw [Process.event?, hreceive] at hevent
    exact Option.some.inj hevent
  have hphase : p.state.phase = .authenticated := by rw [hstate]; rfl
  have hresumed : q.state.phase = .bound := by rw [h.resumed]; rfl
  cases hfollows with
  | stop hstopped =>
    rw [h.running] at hstopped
    cases hstopped
  | next _ hq hdata =>
  rw [hq] at hresumed
  -- an outcome that stays in the phase, or needs another one, does not reach the new state
  have hmoved : p.state.phase ≠ .bound := by
    rw [hphase]
    decide
  cases houtcome with
  | idle _ hsteady =>
    rcases hsteady with hsteady | ⟨hsteady, -⟩
    · exact absurd (hsteady.symm.trans hresumed) hmoved
    · rw [hphase] at hsteady
      cases hsteady
  | count _ _ hsteady => exact absurd (hsteady.symm.trans hresumed) hmoved
  | reply _ hsteady => exact absurd (hsteady.symm.trans hresumed) hmoved
  | enable => exact absurd hresumed hmoved
  | ack => exact absurd hresumed hmoved
  | unbuffered => exact absurd hresumed hmoved
  | buffered => exact absurd hresumed hmoved
  | suspend =>
    rw [h.resumed] at hq
    cases hq
  | header _ hwait =>
    rw [hstate] at hwait
    cases hwait
  | restart _ hwait =>
    rw [hstate] at hwait
    cases hwait
  | login _ hidentified =>
    rw [hphase] at hidentified
    cases hidentified
  | bind _ hiq =>
    obtain ⟨el', hel', hiq⟩ := hiq
    cases hel'
    rw [hname] at hiq
    exact absurd hiq (by decide)
  | resume _ _ hold =>
    obtain rfl := PeerReply.ok.inj (hpeer.symm.trans hold)
    have hjid : q.data.jid = peer.data.jid := by rw [hdata]; rfl
    exact ⟨hjid, by rw [hdata]; rfl, by rw [hdata]; rfl, by rw [hjid]⟩

/-- A request to resume the session `smid`. -/
def resumeRequest : Element :=
  .mk "resume" [("xmlns", nsStreamMgnt), ("previd", "smid"), ("h", "0")] [] ""

/-- What the session that a user has just enabled hands over. -/
def exampleHandover (user : String) : Data :=
  (exampleSession .infinity ⟨1, 1⟩ user).data.mergeModState
    { buildSmHandler .infinity (.every 1) with peer := .sid ⟨1, 1⟩ }

/-- The session of `alice`, with the request to resume in its queue. -/
def exampleRequest : Process :=
  { exampleLogin ⟨2, 2⟩ "alice" with queue := [.xml (.element resumeRequest)] }

theorem step_exampleRequest : step (exampleServer .infinity) (exampleLogin ⟨2, 2⟩ "alice")
    (socketElement resumeRequest) = some exampleRequest := by
  rfl

/-- The user `alice`, who has logged in, resumes the session that a user has just enabled. -/
theorem resumption_example (user : String) : ∃ q, Resumption (exampleServer .infinity)
    exampleRequest (exampleSession .infinity ⟨1, 1⟩ user) q
    (.next { session := .sid ⟨1, 1⟩, peer := .ok (exampleHandover user) }) ∧
    q.data.jid = some ⟨user, "localhost", "phone"⟩ := by
  have hlogin : Reachable (exampleServer .infinity) (fun _ _ => True)
      (exampleLogin ⟨2, 2⟩ "alice") :=
    reachable_of_run (.init _ _ _ _) (by decide) (guarded_of_forall (fun _ _ => trivial) _ _)
      (run_loginInputs .infinity ⟨2, 2⟩ "alice")
  have hpeer : Reachable (exampleServer .infinity) (fun _ _ => True)
      (exampleSession .infinity ⟨1, 1⟩ user) := by
    refine reachable_of_run (.init _ _ _ _) (fun input hinput => ?_)
      (guarded_of_forall (fun _ _ => trivial) _ _) (run_enableInputs .infinity ⟨1, 1⟩ user)
    simp only [enableInputs, loginInputs, List.cons_append, List.nil_append, List.mem_cons,
      List.not_mem_nil, or_false] at hinput
    rcases hinput with rfl | rfl | rfl | rfl | rfl | rfl | rfl | rfl | rfl | rfl | rfl <;> rfl
  have hands : HandsOver (exampleSession .infinity ⟨1, 1⟩ user) (exampleHandover user) :=
    ⟨rfl, ⟨2, 0⟩, 0, [], _, _, rfl, List.mem_append_right _ (List.mem_singleton.2 rfl)⟩
  have hrequest : ∃ el previd h, exampleRequest.event?
      (.next { session := .sid ⟨1, 1⟩, peer := .ok (exampleHandover user) }) =
        some (.xml (.element el)) ∧ el.name = "resume" ∧ el.attr? "xmlns" = some nsStreamMgnt ∧
        el.attr? "previd" = some previd ∧ streamMgmtParseH el = some h :=
    ⟨resumeRequest, "smid", 0, rfl, rfl, rfl, rfl, rfl⟩
  exact ⟨_, ⟨hlogin.step trivial rfl step_exampleRequest, hpeer, ⟨_, rfl⟩, hrequest, rfl,
    ⟨_, rfl, hands⟩, rfl, rfl, rfl⟩, rfl⟩

/-- A client that resumes its own session keeps its address. -/
theorem resumption_identity_own : ∃ q, Resumption (exampleServer .infinity) exampleRequest
    (exampleSession .infinity ⟨1, 1⟩ "alice") q
    (.next { session := .sid ⟨1, 1⟩, peer := .ok (exampleHandover "alice") }) ∧
    q.data.jid = some ⟨"alice", "localhost", "phone"⟩ ∧
    q.data.jid.map Jid.toBare = exampleRequest.data.jid.map Jid.toBare := by
  obtain ⟨q, hq, -⟩ := resumption_example "alice"
  obtain ⟨hjid, -, -, hbare⟩ := resumption_identity hq
  exact ⟨q, hq, hjid, hbare.2 rfl⟩

/-- A client that has authenticated as `alice` resumes a session of `bob`, and has the address of
`bob` from then on. -/
theorem resumption_of_another : ∃ p peer q input,
    Resumption (exampleServer .infinity) p peer q input ∧
    p.data.jid = some ⟨"alice", "localhost", ""⟩ ∧
    q.data.jid = some ⟨"bob", "localhost", "phone"⟩ ∧
    q.data.jid.map Jid.toBare ≠ p.data.jid.map Jid.toBare := by
  obtain ⟨q, hq, hjid⟩ := resumption_example "bob"
  refine ⟨_, _, q, _, hq, rfl, hjid, ?_⟩
  rw [hjid]
  decide

end MongooseIM.StreamManagement
