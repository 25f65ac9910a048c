import MongooseIM.Bosh.RequestOrder

/-! # The inactivity of a session

A session without an open request stops when its inactivity timer runs out. The message of a timer
that is cancelled may already wait in the mailbox. -/

namespace MongooseIM.Bosh

open Transition List

variable {s s' : State} {r : Option ℕ} {D : List StreamEvent} {B : Body → Prop} {conf : ℕ}

/-! ## The timer -/

/-- With an open request the timer is off and none of its messages waits; without one it runs for
the allowed inactivity, or its message waits. -/
structure Timing (s : State) : Prop where
  finite : ∃ seconds, s.inactivity = some seconds
  held : s.handlers ≠ [] →
    s.inactivityTref = none ∧ s.world.running = [] ∧ s.world.mailbox = []
  idle : s.handlers = [] → ∃ ref seconds, s.inactivityTref = some ref ∧
    s.inactivity = some seconds ∧
      (s.world.running = [(ref, seconds)] ∧ s.world.mailbox = [] ∨
        s.world.running = [] ∧ s.world.mailbox = [ref])

theorem setupInactivityTimer_of_none {seconds : ℕ} (htref : s.inactivityTref = none)
    (hseconds : s.inactivity = some seconds) :
    setupInactivityTimer s = { s with
    inactivityTref := some s.world.nextRef
    world := { s.world with
      running := s.world.running ++ [(s.world.nextRef, seconds)]
      nextRef := s.world.nextRef + 1 } } := by
  have hcancel : cancelInactivityTimer s = s := by
    unfold cancelInactivityTimer
    rw [htref]
  unfold setupInactivityTimer
  rw [hseconds, hcancel]

/-- **Answering an open request** starts the timer if it was the last one. -/
theorem Timing.send (hs : Timing s) (hne : s.handlers ≠ [])
    (htref : s'.inactivityTref = s.inactivityTref) (hinactivity : s'.inactivity = s.inactivity)
    (hrunning : s'.world.running = s.world.running) (hmailbox : s'.world.mailbox = s.world.mailbox)
    (pid : ℕ) (w : Response) : Timing (sendWrappedToHandler pid w s') := by
  obtain ⟨hoff, hnone, hempty⟩ := hs.held hne
  obtain ⟨seconds, hseconds⟩ := hs.finite
  rw [hoff] at htref
  rw [hnone] at hrunning
  rw [hempty] at hmailbox
  rw [hseconds] at hinactivity
  unfold sendWrappedToHandler
  split
  · rename_i hnil
    have htold : (s'.tell pid (.boshReply w)).inactivityTref = none := htref
    rw [setupInactivityTimer_of_none htold hinactivity]
    refine ⟨⟨seconds, hinactivity⟩, fun hne => absurd hnil hne, fun _ => ?_⟩
    refine ⟨_, seconds, rfl, hinactivity, .inl ⟨?_, hmailbox⟩⟩
    show s'.world.running ++ _ = _
    rw [hrunning]
    rfl
  · rename_i hne'
    exact ⟨⟨seconds, hinactivity⟩, fun _ => ⟨htref, hrunning, hmailbox⟩, fun hnil => absurd hnil hne'⟩

/-- The timer is off and no message of one waits. -/
def Unarmed (s : State) : Prop :=
  s.inactivityTref = none ∧ s.world.running = [] ∧ s.world.mailbox = []

/-- **Cancelling the timer** when none of its messages waits. -/
theorem Timing.cancel (hs : Timing s) (hempty : s.world.mailbox = []) :
    Unarmed (cancelInactivityTimer s) := by
  by_cases hnil : s.handlers = []
  · obtain ⟨ref, seconds, htref, -, hcase⟩ := hs.idle hnil
    have hrunning : s.world.running = [(ref, seconds)] := by
      rcases hcase with ⟨hrunning, -⟩ | ⟨-, hwaiting⟩
      · exact hrunning
      · rw [hempty] at hwaiting
        cases hwaiting
    unfold cancelInactivityTimer
    rw [htref]
    refine ⟨rfl, ?_, hempty⟩
    show s.world.running.filter (fun t => t.1 ≠ ref) = []
    simp [hrunning]
  · obtain ⟨hoff, hnone, -⟩ := hs.held hnil
    have hcancel : cancelInactivityTimer s = s := by
      unfold cancelInactivityTimer
      rw [hoff]
    rw [hcancel]
    exact ⟨hoff, hnone, hempty⟩

/-! ## The allowed inactivity -/

/-- The allowed inactivity is the configured one, or that of a pause which is the last request
taken. The bodies of requests are those in `B`. -/
def Allowed (B : Body → Prop) (conf : ℕ) (r inactivity : Option ℕ) : Prop :=
  inactivity = some conf ∨
    ∃ body, B body ∧ some body.rid = r ∧ toEventType body = .pause ∧ inactivity = body.pause

/-- A session that handles a request, or one between events: the timer is right, and the allowed
inactivity too. -/
structure Pacing (B : Body → Prop) (conf : ℕ) (r : Option ℕ) (D : List StreamEvent) (s : State) :
    Prop where
  timing : Timing s
  allowed : Allowed B conf r s.inactivity
  rid : s.rid = r
  deferred : s.deferred = D

theorem Pacing.answer {data : List StreamEl} {h : Handler} {rest : List Handler} {w : Response}
    {ns : State} (hs : Pacing B conf r D s) (hmem : h ∈ s.handlers)
    (hwrap : boshWrap data h.rid { s with handlers := rest } = .ok (w, ns)) :
    Pacing B conf r D (answered h w ns) := by
  have ha := answered_spec hwrap
  refine ⟨?_, ha.inactivity ▸ hs.allowed, ha.rid.trans hs.rid, ha.deferred.trans hs.deferred⟩
  have hends := boshWrap_ends data h.rid { s with handlers := rest }
  rw [hwrap] at hends
  obtain ⟨report, hns⟩ := hends
  obtain rfl : ns = _ := hns
  unfold answered
  refine hs.timing.send (ne_nil_of_mem hmem) ?_ ?_ ?_ ?_ h.pid w <;> rfl

theorem Pacing.kept : Kept fun _ => Pacing B conf r D where
  answer {_ s h rest _ _} hs hsort _ hwrap := by
    have hperm := hsort ▸ sortHandlers_perm s.handlers
    exact hs.answer (hperm.subset mem_cons_self) hwrap
  store hs _ := { hs with timing := ⟨hs.timing.finite, hs.timing.held, hs.timing.idle⟩ }
  take hs := { hs with timing := ⟨hs.timing.finite, hs.timing.held, hs.timing.idle⟩ }

/-- With an open request and the timer off, whatever else the state is. -/
theorem timing_of_unarmed (hoff : Unarmed s) (hne : s.handlers ≠ [])
    (hfinite : ∃ seconds, s.inactivity = some seconds) : Timing s :=
  ⟨hfinite, fun _ => hoff, fun hnil => absurd hnil hne⟩

/-! ## Requests -/

/-- The request `q` is being processed: its handler is open, and the allowed inactivity is the
configured one unless the request is a pause. -/
structure Taking (conf : ℕ) (q : ℕ) (D : List StreamEvent) (s : State) : Prop where
  off : Unarmed s
  opened : s.handlers ≠ []
  finite : ∃ seconds, s.inactivity = some seconds
  rid : s.rid = some q
  deferred : s.deferred = D

/-- What is known of a request. -/
def Genuine (B : Body → Prop) (e : StreamEvent) : Prop :=
  e.tag ≠ .streamstart ∧ (e.tag = .pause → B e.body ∧ toEventType e.body = .pause)

variable {q : ℕ} {tag : EventTag} {body : Body}

/-- **Processing a request.** A pause answers all open requests and sets the allowed inactivity;
anything else leaves both as they are. -/
theorem Taking.processStreamEvent {take : State → Except Halt State} {P : State → Prop}
    (hs : Taking conf q D s) (hrid : body.rid = q)
    (hpause : tag = .pause → B body ∧ toEventType body = .pause)
    (hconf : tag ≠ .pause → s.inactivity = some conf)
    (htake : ∀ s', tag ≠ .pause → Taking conf q D s' → s'.inactivity = some conf →
    Ends (take s') P fun _ => True)
    (htake' : ∀ s', tag = .pause → Pacing B conf (some q) D s' → Ends (take s') P fun _ => True) :
    Ends (processStreamEvent take tag body s) P fun _ => True := by
  refine processStreamEvent_forward trivial (fun seconds htag hseconds => ?_)
    fun htag _ _ _ _ _ _ => ?_
  · obtain ⟨hbody, htype⟩ := hpause htag
    rw [ends_bind]
    have hpacing : Pacing B conf (some q) D { s with inactivity := some seconds } :=
      ⟨timing_of_unarmed hs.off hs.opened ⟨seconds, rfl⟩,
        .inr ⟨body, hbody, by rw [hrid], htype, hseconds.symm⟩, hs.rid, hs.deferred⟩
    exact (Pacing.kept.processPauseEvent hpacing).mono (fun s' hs' => htake' s' htag hs'.1)
      fun _ _ => trivial
  · exact htake _ htag { hs with } (hconf htag)

theorem Pacing.withDeferred (hs : Pacing B conf r D s) (D' : List StreamEvent) :
    Pacing B conf r D' { s with deferred := D' } :=
  ⟨⟨hs.timing.finite, hs.timing.held, hs.timing.idle⟩, hs.allowed, hs.rid, rfl⟩

theorem Taking.pacing (hs : Taking conf q D s) (hconf : s.inactivity = some conf) :
    Pacing B conf (some q) D s :=
  ⟨timing_of_unarmed hs.off hs.opened hs.finite, .inl hconf, hs.rid, hs.deferred⟩

theorem Pacing.returnSurplus (name : StateName) (hs : Pacing B conf r D s) :
    Ends (returnSurplusHandlers name s) (Pacing B conf r D) fun _ => True :=
  (Pacing.kept.returnSurplusHandlers name hs).mono (fun _ h => h) fun _ _ => trivial

theorem Pacing.report (hs : Pacing B conf r D s) :
    Ends (maybeSendReport s) (Pacing B conf r D) fun _ => True :=
  (Pacing.kept.maybeSendReport hs).mono (fun _ h => h) fun _ _ => trivial

variable {name : StateName} {n : ℕ} {e : StreamEvent}

section

variable (order : StreamEvent → StreamEvent → Bool)

theorem takeOne_pacing (hs : Taking conf q [] s) (hconf : s.inactivity = some conf)
    (hrid : e.rid = q + 1) (he : Genuine B e) :
    Ends (handleStreamEvent order (n + 1) e none name s) (Pacing B conf (some (q + 1)) [])
    fun _ => True := by
  have hexpected : isExpectedRid e.rid (maybeAdd 1 s.rid) := by
    rw [hs.rid, hrid]
    simp [isExpectedRid, maybeAdd, Nat.add_comm]
  rw [handleStreamEvent_succ]
  unfold handleStreamEventWith
  rw [ends_bind, handleStreamEventClauses_expected _ hexpected (.inr rfl), maybeAddHandler]
  refine Ends.mono (P := Pacing B conf (some (q + 1)) [])
    (processAckedStreamEvent_ends trivial (fun sent report _ => ?_) fun s' hs' => hs'.report)
    (fun s' hs' => hs'.returnSurplus name) fun _ _ => trivial
  have hnone {s' : State} (hs' : Pacing B conf (some (q + 1)) [] s') :
      Ends (processDeferredEvents order n name s') (Pacing B conf (some (q + 1)) []) fun _ => True := by
    rw [processDeferredEvents, hs'.deferred]
    exact hs'.withDeferred []
  have htaking : Taking conf (q + 1) []
      { s with sent := sent, report := report, rid := some e.rid } :=
    { hs with rid := by rw [hrid] }
  exact htaking.processStreamEvent hrid he.2 (fun _ => hconf)
    (fun s' _ hs' hconf' => hnone (hs'.pacing hconf')) fun s' _ hs' => hnone hs'

/-- A request that was deferred twice is refused the second time. -/
theorem handleStreamEvent_again (hrid : s.rid = some e.rid) (htag : e.tag ≠ .streamstart)
    (P : State → Prop) : Ends (handleStreamEvent order (n + 1) e none name s) P fun _ => True := by
  rw [handleStreamEvent_succ]
  unfold handleStreamEventWith
  rw [ends_bind]
  refine handleStreamEventClauses_ends (fun hne => absurd rfl hne) (fun hne => absurd rfl hne)
    (fun hexpected => ?_) (fun q hq hearly => ?_) trivial
  · rcases hexpected with hstart | ⟨q, hq, hnext⟩
    · exact absurd hstart htag
    · have := Option.some.inj (hrid.symm.trans hq)
      omega
  · have := Option.some.inj (hrid.symm.trans hq)
    omega

/-- **The deferred requests** are taken after the request `q`. -/
theorem Taking.takeDeferred (hs : Taking conf q D s) (hconf : s.inactivity = some conf)
    (hD : ∀ e ∈ D, e.rid = q + 1 ∧ Genuine B e) :
    Ends (processDeferredEvents order D.length name s)
    (fun s' => ∃ r, Pacing B conf (some r) [] s') fun _ => True := by
  unfold processDeferredEvents
  rw [hs.deferred]
  have hperm := perm_insertionSort (fun a b => order a b) D
  generalize D.insertionSort (fun a b => order a b) = l at hperm
  have hl : ∀ e ∈ l, e.rid = q + 1 ∧ Genuine B e := fun e he => hD e (hperm.subset he)
  rw [← hperm.length_eq]
  have hclear : Taking conf q [] { s with deferred := [] } :=
    { hs with deferred := rfl }
  cases l with
  | nil => exact ⟨q, hclear.pacing hconf⟩
  | cons e l =>
    obtain ⟨hrid, he⟩ := hl e mem_cons_self
    rw [foldlM_cons, ends_bind]
    refine (takeOne_pacing order hclear hconf hrid he).mono (fun s' hs' => ?_) fun _ h => h
    cases l with
    | nil => exact ⟨q + 1, hs'⟩
    | cons e' l =>
      -- the session ends at the second copy
      obtain ⟨hrid', he'⟩ := hl e' (by simp)
      rw [foldlM_cons, ends_bind]
      exact handleStreamEvent_again order (by rw [hs'.rid, hrid']) he'.1 _

end

/-- Deferred requests come right after the next one. -/
def AfterNext (B : Body → Prop) (q : ℕ) (D : List StreamEvent) : Prop :=
  ∀ e ∈ D, e.rid = q + 2 ∧ Genuine B e

/-- The allowed inactivity is still the configured one unless the request is a pause, and a pause is
not taken while another request is deferred. -/
def PauseOk (conf : ℕ) (s : State) (body : Body) : Prop :=
  isExpectedRid body.rid (maybeAdd 1 s.rid) →
    (toEventType body ≠ .pause → s.inactivity = some conf) ∧
      (toEventType body = .pause → s.deferred = [])

instance (conf : ℕ) (s : State) (body : Body) : Decidable (PauseOk conf s body) :=
  inferInstanceAs (Decidable (_ → _))

/-- A request is processed from a state in which the timer is off. -/
theorem processAcked_pacing (order : StreamEvent → StreamEvent → Bool)
    (event : StreamEvent) (hoff : Unarmed s) (hopened : s.handlers ≠ [])
    (hfinite : ∃ seconds, s.inactivity = some seconds) (hdeferred : s.deferred = D)
    (hrid : event.rid = q)
    (hpause : event.tag = .pause → (B event.body ∧ toEventType event.body = .pause) ∧ D = [])
    (hconf : event.tag ≠ .pause → s.inactivity = some conf)
    (hD : ∀ e ∈ D, e.rid = q + 1 ∧ Genuine B e) :
    Ends (processAckedStreamEvent (processDeferredEvents order D.length name) event s)
    (fun s' => ∃ r, Pacing B conf (some r) [] s') fun _ => True := by
  refine processAckedStreamEvent_ends trivial (fun sent report _ => ?_) fun s' hs' => ?_
  · have htaking : Taking conf q D
        { s with sent := sent, report := report, rid := some event.rid } :=
      ⟨hoff, hopened, hfinite, by rw [hrid], hdeferred⟩
    refine htaking.processStreamEvent hrid (fun htag => (hpause htag).1) hconf
      (fun s' _ hs' hconf' => hs'.takeDeferred order hconf' hD) fun s' htag hs' => ?_
    -- after a pause there is nothing to take up
    rw [processDeferredEvents, hs'.deferred, (hpause htag).2]
    exact ⟨q, hs'.withDeferred []⟩
  · obtain ⟨r, hs'⟩ := hs'
    exact hs'.report.mono (fun s'' hs'' => ⟨r, hs''⟩) fun _ h => h

/-- The surplus handlers are returned, and the session is between events. -/
theorem Pacing.settle (name : StateName) (hs : Pacing B conf (some q) D s) (hD : AfterNext B q D) :
    Ends (returnSurplusHandlers name s)
    (fun s' => ∃ q D, Pacing B conf (some q) D s' ∧ AfterNext B q D) fun _ => True :=
  (hs.returnSurplus name).mono (fun _ hs' => ⟨q, D, hs', hD⟩) fun _ h => h

variable {pid tref : ℕ}

/-- **A request after the first one**, when the timer has been cancelled. -/
theorem handleRequest_pacing (order : StreamEvent → StreamEvent → Bool) (name : StateName)
    (hoff : Unarmed s)
    (hfinite : ∃ seconds, s.inactivity = some seconds)
    (hallowed : Allowed B conf (some q) s.inactivity) (hrid : s.rid = some q)
    (hD : AfterNext B q s.deferred) (hbody : B body) (htype : toEventType body ≠ .streamstart)
    (hok : PauseOk conf s body) :
    Ends (handleStreamEvent order (s.deferred.length + 1) ⟨toEventType body, body⟩
      (some (pid, tref)) name s)
    (fun s' => ∃ q D, Pacing B conf (some q) D s' ∧ AfterNext B q D) fun _ => True := by
  have hne : (maybeAddHandler (some (pid, tref)) body.rid s).handlers ≠ [] := by
    simp [maybeAddHandler]
  have hheld : Pacing B conf (some q) s.deferred (maybeAddHandler (some (pid, tref)) body.rid s) :=
    ⟨timing_of_unarmed hoff hne hfinite, hallowed, hrid, rfl⟩
  rw [handleStreamEvent_succ]
  unfold handleStreamEventWith
  rw [ends_bind]
  refine handleStreamEventClauses_ends (fun _ x hx heq => ?_) (fun _ _ _ => hheld.settle name hD)
    (fun hexpected => ?_) (fun q' hq' hearly _ => ?_) trivial
  · -- the response is sent again
    have hevent : StreamEvent.rid ⟨toEventType body, body⟩ = body.rid := rfl
    rw [hevent]
    cases hresend : resendCached x (maybeAddHandler (some (pid, tref)) body.rid s) with
    | none => trivial
    | some s' =>
      obtain ⟨h, rest, -, -, rfl⟩ := resendCached_eq_some.1 hresend
      have htiming : Timing (sendWrappedToHandler h.pid x.body
          { maybeAddHandler (some (pid, tref)) body.rid s with handlers := rest }) := by
        refine hheld.timing.send hne ?_ ?_ ?_ ?_ h.pid x.body <;> rfl
      obtain ⟨tref', running, nextRef, hsend⟩ := sendWrappedToHandler_eq h.pid x.body
        { maybeAddHandler (some (pid, tref)) body.rid s with handlers := rest }
      rw [hsend] at htiming ⊢
      exact Pacing.settle name ⟨htiming, hallowed, hrid, rfl⟩ hD
  · rcases hexpected with hstart | ⟨q', hq', hnext⟩
    · exact absurd hstart htype
    · cases (hrid.symm.trans hq')
      have hnext : body.rid = q + 1 := hnext
      have hexpected : isExpectedRid body.rid (maybeAdd 1 s.rid) := by
        rw [hrid, hnext]
        simp [isExpectedRid, maybeAdd, Nat.add_comm]
      obtain ⟨hconf, halone⟩ := hok hexpected
      refine (processAcked_pacing order ⟨toEventType body, body⟩
        (s := maybeAddHandler (some (pid, tref)) body.rid s) (D := s.deferred) hoff hne hfinite rfl hnext
        (fun htag => ⟨⟨hbody, htag⟩, halone htag⟩) hconf hD).mono (fun s' hs' => ?_) fun _ h => h
      obtain ⟨r, hs'⟩ := hs'
      exact hs'.settle name (by simp [AfterNext])
  · cases (hrid.symm.trans hq')
    refine (hheld.withDeferred _).settle name fun e he => ?_
    rcases mem_cons.1 he with rfl | he
    · exact ⟨hearly, htype, fun htag => ⟨hbody, htag⟩⟩
    · exact hD e he

/-- A session that waits for its first request. -/
structure Fresh (conf : ℕ) (s : State) : Prop where
  rid : s.rid = none
  handlers : s.handlers = []
  sent : s.sent = []
  deferred : s.deferred = []
  off : Unarmed s
  inactivity : s.inactivity = some conf

/-- **The first request** starts the session or is refused. -/
theorem handleFirst_pacing (order : StreamEvent → StreamEvent → Bool) (name : StateName)
    {event : StreamEvent} (hs : Fresh conf s) :
    Ends (handleStreamEvent order (s.deferred.length + 1) event (some (pid, tref)) name s)
    (fun s' => ∃ q D, Pacing B conf (some q) D s' ∧ AfterNext B q D) fun _ => True := by
  rw [handleStreamEvent_succ]
  unfold handleStreamEventWith
  rw [ends_bind]
  refine handleStreamEventClauses_ends (fun _ x hx _ => ?_) (fun _ _ heq => ?_)
    (fun hexpected => ?_) (fun q hq _ _ => ?_) trivial
  · rw [hs.sent] at hx
    cases hx
  · rw [hs.rid] at heq
    cases heq
  · rcases hexpected with hstart | ⟨q, hq, -⟩
    · refine (processAcked_pacing (B := B) order event
        (s := maybeAddHandler (some (pid, tref)) event.rid s) (q := event.rid) (D := s.deferred)
        hs.off (by simp [maybeAddHandler]) ⟨conf, hs.inactivity⟩ rfl rfl (fun htag => ?_)
        (fun _ => hs.inactivity) (by simp [hs.deferred])).mono (fun s' hs' => ?_) fun _ h => h
      · rw [hstart] at htag
        cases htag
      · obtain ⟨r, hs'⟩ := hs'
        exact hs'.settle name (by simp [AfterNext])
    · rw [hs.rid] at hq
      cases hq
  · rw [hs.rid] at hq
    cases hq

/-! ## Every event -/

/-- A session between events. -/
def InPace (B : Body → Prop) (conf : ℕ) (s : State) : Prop :=
  Fresh conf s ∨ ∃ q D, Pacing B conf (some q) D s ∧ AfterNext B q D

theorem InPace.kept : Kept fun _ => InPace B conf where
  answer {_ s h rest _ _} hs hsort hle hwrap := by
    rcases hs with hs | ⟨q, D, hs, hD⟩
    · rw [hs.handlers] at hsort
      cases hsort
    · exact .inr ⟨q, D, Pacing.kept.answer hs hsort hle hwrap, hD⟩
  store hs hnone := by
    rcases hs with hs | ⟨q, D, hs, hD⟩
    · exact .inl { hs with }
    · exact .inr ⟨q, D, Pacing.kept.store hs hnone, hD⟩
  take hs := by
    rcases hs with hs | ⟨q, D, hs, hD⟩
    · exact .inl { hs with }
    · exact .inr ⟨q, D, Pacing.kept.take hs, hD⟩

/-- The process goes on between events, or it was not stopped for inactivity with an open
request. -/
def Process.Paced (B : Body → Prop) (conf : ℕ) : Process → Prop
  | .running _ s => InPace B conf s
  | .stopped reason s => reason = .inactivityTimeout → s.handlers = []
  | .crashed => True

theorem paced_next {x : Except Halt State}
    (h : Ends x (InPace B conf) fun _ => True) : (Process.next name x).Paced B conf := by
  cases x with
  | ok s => exact h
  | error e => trivial

theorem paced_stop {reason : StopReason} (h : reason ≠ .inactivityTimeout) (s : State) :
    (Process.stop reason s).Paced B conf := fun heq => absurd heq h

theorem paced_handleEvent {order : StreamEvent → StreamEvent → Bool}
    (h : Ends (handleStreamEvent order ((cancelInactivityTimer s).deferred.length + 1) ⟨tag, body⟩
    (some (pid, tref)) name (cancelInactivityTimer s))
    (fun s' => ∃ q D, Pacing B conf (some q) D s' ∧ AfterNext B q D) fun _ => True) :
    (handleEvent order tag pid tref body name s).Paced B conf :=
  handleEvent_rule h (fun s' _ => paced_stop (by simp) s') (fun _ hs' => ⟨.inr hs', .inr hs'⟩)
    (fun ts _ => paced_stop (by simp) ts) (fun ts _ => paced_stop (by simp) ts) fun _ => trivial

/-- The condition on an event: when a request arrives no message of a timer waits, and the request
meets `PauseOk`. -/
def InactivityOk (conf : ℕ) (s : State) : Event → Prop
  | .request _ _ body => s.world.mailbox.isEmpty ∧ PauseOk conf s body
  | _ => True

instance (conf : ℕ) (s : State) (e : Event) : Decidable (InactivityOk conf s e) := by
  unfold InactivityOk
  split <;> infer_instance

/-- The body of a request. -/
def Event.body? : Event → Option Body
  | .request _ _ body => some body
  | _ => none

theorem Fresh.cancel (hs : Fresh conf s) : Fresh conf (cancelInactivityTimer s) := by
  have hcancel : cancelInactivityTimer s = s := by
    unfold cancelInactivityTimer
    rw [hs.off.1]
  rw [hcancel]
  exact hs

/-- **Every event** keeps the pace. -/
theorem InPace.step (order : StreamEvent → StreamEvent → Bool) {e : Event}
    {p : Process} (hs : InPace B conf s) (hok : InactivityOk conf s e)
    (hB : ∀ body ∈ e.body?, B body) (h : stepRunning order name s e = some p) :
    p.Paced B conf := by
  have hsend {data : List StreamEl} {s : State} (hs : InPace B conf s) :
      Ends (sendOrStore data s) (InPace B conf) fun _ => True := by
    have hends : Ends (sendOrStore data s) (InPace B conf) (Stuck fun _ => InPace B conf) :=
      InPace.kept.sendOrStore hs
    exact hends.mono (fun _ h => h) fun _ _ => trivial
  -- what the session does besides sending and its timers
  have hidle {pending : List StreamEl} {clientAcks : Bool} {now : ℤ} : InPace B conf
      { s with pending := pending, clientAcks := clientAcks, world := { s.world with now := now } } := by
    rcases hs with hs | ⟨q, D, hs, hD⟩
    · exact .inl { hs with }
    · exact .inr ⟨q, D, { hs with timing := ⟨hs.timing.finite, hs.timing.held, hs.timing.idle⟩ }, hD⟩
  cases e with
  | start pid tref body =>
    simp only [stepRunning] at h
    split at h
    · rename_i hnone
      obtain ⟨body', -, rfl⟩ := Option.map_eq_some_iff.1 h
      rcases hs with hs | ⟨q, D, hs, -⟩
      · exact paced_handleEvent (handleFirst_pacing order name hs.cancel)
      · exact absurd (hs.rid.symm.trans hnone.1) (by simp)
    · cases h
  | request pid tref body =>
    simp only [stepRunning] at h
    split at h
    · rename_i hsid
      cases h
      refine paced_handleEvent ?_
      rcases hs with hs | ⟨q, D, hs, hD⟩
      · exact handleFirst_pacing order name hs.cancel
      · have hoff := hs.timing.cancel (isEmpty_iff.1 hok.1)
        obtain ⟨running, hcancel⟩ := cancelInactivityTimer_eq s
        rw [hcancel] at hoff ⊢
        have htype : toEventType body ≠ .streamstart := by
          unfold toEventType
          rw [hsid]
          split_ifs <;> simp_all
        exact handleRequest_pacing order name hoff hs.timing.finite hs.allowed hs.rid
          (hs.deferred.symm ▸ hD) (hB body rfl) htype hok.2
    · cases h
  | send el =>
    cases h
    unfold handleSend
    split
    · exact paced_next (hsend hidle)
    · exact hidle
    · exact paced_next (hsend hs)
    · exact hs
  | close =>
    cases h
    unfold handleClose
    split
    · exact paced_stop (by simp) s
    · exact hs
  | accOff =>
    cases h
    unfold handleAccOff
    split
    · exact paced_next (hsend hidle)
    · exact hs
  | waitTimeout rid pid =>
    cases h
    unfold handleWaitTimeout
    split
    · exact hs
    · rename_i handler hfind
      have hmem := mem_of_find?_eq_some hfind
      have hrid : handler.rid = rid := by simpa using find?_some hfind
      split
      · rename_i hpid
        subst hrid hpid
        rcases hs with hs | ⟨q, D, hs, hD⟩
        · rw [hs.handlers] at hmem
          cases hmem
        · refine paced_next ((sendToPicked_ends handler _ [] s).mono ?_ fun _ _ => trivial)
          rintro s' ⟨w, ns, hwrap, rfl⟩
          exact .inr ⟨q, D, hs.answer hmem hwrap, hD⟩
      · trivial
  | inactivityTimeout =>
    simp only [stepRunning] at h
    split at h
    · cases h
    · rename_i ref mailbox hmailbox
      cases h
      intro _
      obtain ⟨replies, hstop⟩ := foldl_tell_eq Handler.pid (.close s.sid) (sortHandlers s.handlers)
        { s with world := { s.world with mailbox := mailbox } }
      show (terminate _).handlers = []
      rw [terminate, hstop]
      show s.handlers = []
      rcases hs with hs | ⟨q, D, hs, -⟩
      · exact hs.handlers
      · by_contra hne
        have := (hs.timing.held hne).2.2
        rw [hmailbox] at this
        cases this
  | setClientAcks enabled =>
    cases h
    exact hidle
  | timerEnds ref =>
    simp only [stepRunning] at h
    split at h
    · rename_i hrunning
      cases h
      rcases hs with hs | ⟨q, D, hs, hD⟩
      · rw [hs.off.2.1] at hrunning
        cases hrunning
      · refine .inr ⟨q, D, { hs with timing := ⟨hs.timing.finite, fun hne => ?_, fun hnil => ?_⟩ }, hD⟩
        · rw [(hs.timing.held hne).2.1] at hrunning
          cases hrunning
        · obtain ⟨ref', seconds, htref, hseconds, hcase⟩ := hs.timing.idle hnil
          rcases hcase with ⟨hone, hempty⟩ | ⟨hnone, -⟩
          · rw [hone] at hrunning
            obtain rfl : ref' = ref := by simpa using hrunning
            refine ⟨ref', seconds, htref, hseconds, .inr ⟨?_, ?_⟩⟩
            · show s.world.running.filter (fun t => t.1 ≠ ref') = []
              simp [hone]
            · show s.world.mailbox ++ [ref'] = [ref']
              rw [hempty]
              rfl
          · rw [hnone] at hrunning
            cases hrunning
    · cases h
  | elapse ms =>
    cases h
    exact hidle

/-! ## Runs -/

/-- Without an open request there is a timer for the allowed inactivity, which is the configured one
unless the last request taken is a pause. -/
structure Measured (conf : ℕ) (bodies : List Body) (s : State) : Prop where
  timer : s.rid ≠ none → s.handlers = [] → ∃ ref seconds, s.inactivityTref = some ref ∧
    s.inactivity = some seconds ∧ ((ref, seconds) ∈ s.world.running ∨ ref ∈ s.world.mailbox)
  allowed : s.inactivity = some conf ∨ ∃ body ∈ bodies, some body.rid = s.rid ∧
    toEventType body = .pause ∧ s.inactivity = body.pause

/-- The inactivity of the session is measured, and a session that was stopped for inactivity held
no open request. -/
def Process.Measured (conf : ℕ) (es : List Event) : Process → Prop
  | .running _ s => Bosh.Measured conf (es.filterMap Event.body?) s
  | .stopped reason s => reason = .inactivityTimeout → s.handlers = []
  | .crashed => True

/-- The condition on a step. -/
def Process.InactivityOk (conf : ℕ) (p : Process) (e : Event) : Prop :=
  match p with
  | .running _ s => Bosh.InactivityOk conf s e
  | _ => True

instance (conf : ℕ) (p : Process) (e : Event) : Decidable (p.InactivityOk conf e) := by
  unfold Process.InactivityOk
  split <;> infer_instance

theorem Allowed.mono {B' : Body → Prop} {inactivity : Option ℕ} (h : Allowed B conf r inactivity)
    (hB : ∀ body, B body → B' body) : Allowed B' conf r inactivity := by
  rcases h with h | ⟨body, hbody, hrest⟩
  · exact .inl h
  · exact .inr ⟨body, hB body hbody, hrest⟩

theorem InPace.mono {B' : Body → Prop} (h : InPace B conf s) (hB : ∀ body, B body → B' body) :
    InPace B' conf s := by
  rcases h with h | ⟨q, D, h, hD⟩
  · exact .inl h
  · refine .inr ⟨q, D, { h with allowed := h.allowed.mono hB }, fun e he => ?_⟩
    obtain ⟨hrid, htag, hpause⟩ := hD e he
    exact ⟨hrid, htag, fun heq => ⟨hB _ (hpause heq).1, (hpause heq).2⟩⟩

theorem InPace.measured {bodies : List Body} (h : InPace (· ∈ bodies) conf s) :
    Bosh.Measured conf bodies s := by
  rcases h with h | ⟨q, D, h, -⟩
  · exact ⟨fun hne => absurd h.rid hne, .inl h.inactivity⟩
  · refine ⟨fun _ hnil => ?_, h.rid.symm ▸ h.allowed⟩
    obtain ⟨ref, seconds, htref, hseconds, hcase⟩ := h.timing.idle hnil
    refine ⟨ref, seconds, htref, hseconds, ?_⟩
    rcases hcase with ⟨hrunning, -⟩ | ⟨-, hwaiting⟩
    · exact .inl (by simp [hrunning])
    · exact .inr (by simp [hwaiting])

/-- **The inactivity of a session is measured.** In every run whose steps meet the condition, a
session without an open request has a timer, one with an open request does not stop for inactivity,
and the allowed inactivity is the configured one or that of the last pause. -/
theorem inactivity_measured (order : StreamEvent → StreamEvent → Bool) (sid : String)
    (opts : Opts) {p : Process} (es : List Event) (hconf : opts.inactivity = some conf)
    (hok : Guarded (step order) (Process.InactivityOk conf)
    (.running .accumulate (newState sid opts)) es)
    (hrun : run (step order) (.running .accumulate (newState sid opts)) es = some p) :
    p.Measured conf es := by
  have hfresh : Fresh conf (newState sid opts) := ⟨rfl, rfl, rfl, rfl, ⟨rfl, rfl, rfl⟩, hconf⟩
  have hpaced := run_history_induction
    (P := fun es p => p.Paced (· ∈ es.filterMap Event.body?) conf)
    (h := []) (fun es p e p' hp hok h => ?_) (Or.inl hfresh) hok hrun
  · rw [nil_append] at hpaced
    cases p with
    | running name s => exact InPace.measured hpaced
    | stopped reason s => exact hpaced
    | crashed => trivial
  · cases p with
    | running name s =>
      refine InPace.step order (InPace.mono hp fun body hbody => ?_) hok (fun body hbody => ?_) h
      · rw [filterMap_append]
        exact mem_append_left _ hbody
      · rw [filterMap_append]
        exact mem_append_right _ (by simpa using hbody)
    | stopped reason s => cases h
    | crashed => cases h

/-- A request that is answered, a pause, and the end of the session when nothing follows. -/
def pausedForever : List Event :=
  streamStarted ++ [.request 12 2 (sampleBody 2), .send (.child (.xmlcdata "one")),
    .request 13 3 { sampleBody 3 with pause := some 60 }, .timerEnds 2, .inactivityTimeout]

theorem inactivity_measured_paused :
    ∃ p, run (step fun _ _ => true) (.running .accumulate (newState "sid" sampleOpts))
      pausedForever = some p ∧ p.Measured 30 pausedForever := by
  obtain ⟨p, hrun⟩ := Option.isSome_iff_exists.1 (show (run (step fun _ _ => true)
    (.running .accumulate (newState "sid" sampleOpts)) pausedForever).isSome by decide +kernel)
  exact ⟨p, hrun, inactivity_measured _ _ _ _ rfl (by decide +kernel) hrun⟩

/-- The timer runs out just before a request arrives. -/
def staleTimeout : List Event :=
  streamStarted ++ [.timerEnds 0, .request 12 2 (sampleBody 2), .inactivityTimeout]

/-- A request comes after a pause. -/
def requestAfterPause : List Event :=
  streamStarted ++ [.request 12 2 { sampleBody 2 with pause := some 60 },
    .request 13 3 (sampleBody 3)]

/-- A timer that ran out before a request came stops the session that holds it; after a pause the
configured inactivity does not come back; and before the first request there is no timer. -/
theorem stale_timeout_stops_open_request :
    (∃ p, run (step fun _ _ => true) (.running .accumulate (newState "sid" sampleOpts))
      staleTimeout = some p ∧ ¬ p.Measured 30 staleTimeout) ∧
    (∃ p, run (step fun _ _ => true) (.running .accumulate (newState "sid" sampleOpts))
      requestAfterPause = some p ∧ ¬ p.Measured 30 requestAfterPause) ∧
    (newState "sid" sampleOpts).handlers = [] ∧
    (newState "sid" sampleOpts).inactivityTref = none := by
  refine ⟨⟨_, rfl, fun h => ?_⟩, ?_, rfl, rfl⟩
  · have hhandlers : [Handler.mk 2 2 12] = [] := h rfl
    cases hhandlers
  · have hend : (run (step fun _ _ => true) (.running .accumulate (newState "sid" sampleOpts))
        requestAfterPause).any fun p => match p with
          | .running _ s => s.inactivity = some 60 ∧ s.rid = some 3
          | _ => False := by decide +kernel
    obtain ⟨p, hrun, hp⟩ := (Option.any_eq_true _ _).1 hend
    refine ⟨p, hrun, fun h => ?_⟩
    cases p with
    | stopped reason s => simp at hp
    | crashed => simp at hp
    | running name s =>
      simp only [decide_eq_true_eq] at hp
      rcases h.allowed with hconf | ⟨body, hmem, hrid, htype, -⟩
      · rw [hp.1] at hconf
        cases hconf
      · -- the last request taken is no pause
        have hbodies : requestAfterPause.filterMap Event.body? =
            [{ sampleBody 2 with pause := some 60 }, sampleBody 3] := rfl
        rw [hp.2] at hrid
        rw [hbodies] at hmem
        rcases mem_cons.1 hmem with rfl | hmem
        · cases hrid
        · obtain rfl := mem_singleton.1 hmem
          cases htype

end MongooseIM.Bosh
