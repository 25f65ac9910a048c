import MongooseIM.Bosh.Requests

/-! # Requests reach the session once and in order

A client sends the bodies of consecutive request ids on connections of their own, has two of them
unanswered at most, and may send one again on another connection while it is unanswered. Requests
on their way arrive in any order or are lost. `System.step` is the client together with the
session process. -/

namespace MongooseIM.Bosh

open Transition List

variable {sid : String} (c : Client sid) (order : StreamEvent → StreamEvent → Bool)

/-- The session process and its client. -/
structure System where
  process : Process
  next : ℕ
  /-- The ids of the requests that the client waits for. -/
  unanswered : List ℕ
  /-- The requests that are on their way, by id and connection. -/
  flight : List (ℕ × ℕ)
  /-- All connections of the client, with the ids sent on them. -/
  connections : List (ℕ × ℕ)
  arrived : List ℕ

/-- What can happen. -/
inductive SystemEvent
  | send (pid : ℕ)
  /-- The client gives a connection up and sends the request again. -/
  | again (rid pid : ℕ)
  | lost (rid pid : ℕ)
  | arrive (rid pid tref : ℕ)
  | answered (rid pid : ℕ)
  | session (e : Event)

/-- Whether the session has sent a response to a connection. -/
def State.replied (s : State) (pid : ℕ) : Bool :=
  s.world.replies.any fun reply => reply.1 = pid && match reply.2 with
    | .boshReply _ => true
    | _ => false

/-- Whether the process has sent a response to a connection. -/
def Process.replied (pid : ℕ) : Process → Bool
  | .running _ s => s.replied pid
  | .stopped _ s => s.replied pid
  | .crashed => false

/-- A request of the client as the session gets it; the first one makes the session. -/
def Client.arrival (rid pid tref : ℕ) : Event :=
  if rid = c.first then .start pid tref (c.body rid) else .request pid tref (c.body rid)

/-- The session has been made and the client has not opened a connection. -/
def System.initial (opts : Opts) : System where
  process := .running .accumulate (newState sid opts)
  next := c.first
  unanswered := []
  flight := []
  connections := []
  arrived := []

variable (sys : System)

/-- A connection that has not been used. -/
def System.fresh (pid : ℕ) : Bool :=
  !sys.connections.any (·.2 = pid) && !sys.process.replied pid

/-- What an event does; `none` where it cannot be. -/
def System.step : SystemEvent → Option System
  | .send pid =>
    -- the id of the session comes with the first response
    if sys.unanswered.length < 2 ∧ c.first ∉ sys.unanswered ∧ sys.fresh pid then
      some { sys with
        next := sys.next + 1
        unanswered := sys.next :: sys.unanswered
        flight := (sys.next, pid) :: sys.flight
        connections := (sys.next, pid) :: sys.connections }
    else none
  | .again rid pid =>
    if rid ∈ sys.unanswered ∧ rid ≠ c.first ∧ sys.fresh pid then
      some { sys with
        flight := (rid, pid) :: sys.flight
        connections := (rid, pid) :: sys.connections }
    else none
  | .lost rid pid => some { sys with flight := sys.flight.erase (rid, pid) }
  | .arrive rid pid tref =>
    if (rid, pid) ∈ sys.flight then
      (Bosh.step order sys.process (c.arrival rid pid tref)).map fun process =>
        { sys with
          process := process
          flight := sys.flight.erase (rid, pid)
          arrived := rid :: sys.arrived }
    else none
  | .answered rid pid =>
    if rid ∈ sys.unanswered ∧ (rid, pid) ∈ sys.connections ∧ sys.process.replied pid then
      some { sys with unanswered := sys.unanswered.filter (· ≠ rid) }
    else none
  | .session e =>
    if e.isRequest then none
    else (Bosh.step order sys.process e).map fun process => { sys with process := process }

/-- The condition on other events: no second stream event is sent while one is pending, and a wait
runs out for the handler that is found. -/
def EventOk (s : State) : Event → Prop
  | .send el => el.isStreamEvent → ∀ x ∈ s.pending, ¬ x.isStreamEvent
  | .waitTimeout rid pid => ∀ h ∈ s.handlers.find? (·.rid = rid), h.pid = pid
  | _ => True

/-- The condition on a step. -/
def System.Ok (e : SystemEvent) : Prop :=
  match sys.process, e with
  | .running _ s, .arrive rid _ _ => if rid = c.first then c.Bare rid else RequestOk c s rid
  | .running _ s, .session e => EventOk s e
  | _, _ => True

instance (s : State) (e : Event) : Decidable (EventOk s e) := by
  unfold EventOk
  split <;> infer_instance

instance (sys : System) (e : SystemEvent) : Decidable (sys.Ok c e) := by
  unfold System.Ok
  split <;> infer_instance

/-- The c2s process has been sent the payloads in order, those of all requests that have arrived
with everything before them, and the session has not failed. -/
def System.InOrder : Prop :=
  match sys.process with
  | .running _ s => s.world.c2s = c.payloads s.rid ∧
      ∀ q ∈ sys.arrived, (∀ q', c.first ≤ q' → q' ≤ q → q' ∈ sys.arrived) →
        ∃ r, s.rid = some r ∧ q ≤ r
  | .stopped reason s => reason ≠ .invalidRid ∧ s.world.c2s = c.payloads s.rid
  | .crashed => False

section Events

variable {c order} {conns : List (ℕ × ℕ)} {A near : ℕ → Prop} {r : Option ℕ} {F : List StreamEl}
  {D : List StreamEvent} {data : List StreamEl} {s : State}

/-- The process goes on in a state with the property, or has stopped in order. -/
def Process.Holds (c : Client sid) (P : State → Prop) : Process → Prop
  | .running _ s => P s
  | .stopped reason s => reason ≠ .invalidRid ∧ s.world.c2s = c.payloads s.rid
  | .crashed => False

variable {p : Process}

theorem Process.Holds.mono {P P' : State → Prop} (h : p.Holds c P)
    (hP : ∀ s, P s → P' s) : p.Holds c P' := by
  cases p with
  | running name s => exact hP s h
  | stopped reason s => exact h
  | crashed => exact h

variable {P : State → Prop}

theorem holds_stop {reason : StopReason} (hreason : reason ≠ .invalidRid)
    (hc2s : s.world.c2s = c.payloads s.rid) : (Process.stop reason s).Holds c P := by
  obtain ⟨replies, hstop⟩ := foldl_tell_eq Handler.pid (.close s.sid) (sortHandlers s.handlers) s
  refine ⟨hreason, ?_⟩
  rw [terminate, hstop]
  exact hc2s

variable {name : StateName}

/-- A message that is handled without failing leaves the process running. -/
theorem holds_next {x : Except Halt State}
    (h : Ends x P fun _ => False) : (Process.next name x).Holds c P := by
  cases x with
  | ok s => exact h
  | error e => exact h.elim

/-- Sending in a state like this one does not fail. -/
theorem At.sendOrStore (hconns : Distinct conns) (hnear : ∀ q, near q → r ≠ none)
    (hs : At c conns A near r F D data s) :
    Ends (sendOrStore data s) (At c conns A near r F D []) fun _ => False :=
  ((At.kept hconns hnear).sendOrStore hs).mono (fun _ h => h) fun e he => At.not_stuck hnear e he

/-- The elements in hand and those pending can be wrapped together. -/
theorem At.withData (hs : At c conns A near r F D [] s) (pending data : List StreamEl)
    (h : Wrappable (pending ++ data)) : At c conns A near r F D data { s with pending := pending } :=
  { hs with wrappable := h }

/-- An element that may be sent can be wrapped with those pending. -/
theorem wrappable_concat {pending : List StreamEl} {el : StreamEl} (h : Wrappable pending)
    (hel : el.isStreamEvent → ∀ x ∈ pending, ¬ x.isStreamEvent) : Wrappable (pending ++ [el]) := by
  unfold Wrappable at h ⊢
  rw [filter_append, length_append]
  cases hevent : el.isStreamEvent with
  | false => simpa [hevent] using h
  | true =>
    have hnil : pending.filter StreamEl.isStreamEvent = [] := filter_eq_nil_iff.2 (hel hevent)
    simp [hnil, hevent]

/-- An element from the c2s process is sent or stored. -/
theorem At.handleSend (hconns : Distinct conns) (hnear : ∀ q, near q → r ≠ none)
    (hs : At c conns A near r F D [] s) {el : StreamEl} (hok : EventOk s (.send el))
    (name : StateName) : (handleSend el name s).Holds c (At c conns A near r F D []) := by
  have hwrap : Wrappable (s.pending ++ [el]) := by
    have hpending := hs.wrappable
    rw [append_nil] at hpending
    exact wrappable_concat hpending hok
  have hstored := hs.withData (s.pending ++ [el]) [] (by simpa using hwrap)
  have hflushed {el : StreamEl} (hwrap : Wrappable (s.pending ++ [el])) :=
    hs.withData [] (s.pending ++ [el]) hwrap
  unfold Bosh.handleSend
  split
  · exact holds_next (At.sendOrStore hconns hnear (hflushed hwrap))
  · exact hstored
  · exact holds_next (At.sendOrStore hconns hnear (hs.withData s.pending [el] hwrap))
  · exact hs

variable {pid : ℕ}

theorem At.handleWaitTimeout (hconns : Distinct conns) (hnear : ∀ q, near q → r ≠ none)
    (hs : At c conns A near r F D [] s) {rid : ℕ} (hok : EventOk s (.waitTimeout rid pid))
    (name : StateName) : (handleWaitTimeout rid pid name s).Holds c (At c conns A near r F D []) := by
  unfold Bosh.handleWaitTimeout
  split
  · exact hs
  · rename_i h hfind
    have hmem := mem_of_find?_eq_some hfind
    have hrid : h.rid = rid := by simpa using find?_some hfind
    have hpid : h.pid = pid := hok h hfind
    subst hrid hpid
    rw [if_pos rfl]
    refine holds_next ((sendToPicked_ends h _ [] s).mono ?_ fun e he => he.2 ⟨wrappable_nil, ?_⟩)
    · rintro s' ⟨w, ns, hwrap, rfl⟩
      exact hs.answer hconns hnear hmem (fun h' hh' => mem_of_mem_eraseP hh') (answered_spec hwrap)
    · rw [hs.rid]
      exact hnear h.rid (hs.handlers h hmem).1

/-- **Every event but a request** leaves what is forwarded and deferred as it is. -/
theorem At.other (hconns : Distinct conns) (hnear : ∀ q, near q → r ≠ none)
    (hF : F = c.payloads r) (hs : At c conns A near r F D [] s) {e : Event} (hok : EventOk s e)
    (he : e.isRequest = false)
    (h : stepRunning order name s e = some p) : p.Holds c (At c conns A near r F D []) := by
  have hc2s : s.world.c2s = c.payloads s.rid := by rw [hs.c2s, hF, hs.rid]
  cases e with
  | start pid tref body => cases he
  | request pid tref body => cases he
  | send el =>
    cases h
    exact hs.handleSend hconns hnear hok name
  | close =>
    cases h
    unfold handleClose
    split
    · exact holds_stop (by simp) hc2s
    · exact hs
  | accOff =>
    cases h
    unfold handleAccOff
    split
    · exact holds_next (At.sendOrStore hconns hnear
        (hs.withData [] s.pending (by simpa using hs.wrappable)))
    · exact hs
  | waitTimeout rid pid =>
    cases h
    exact hs.handleWaitTimeout hconns hnear hok name
  | inactivityTimeout =>
    simp only [stepRunning] at h
    split at h
    · cases h
    · cases h
      exact holds_stop (by simp) hc2s
  | setClientAcks enabled =>
    cases h
    exact { hs with }
  | timerEnds ref =>
    simp only [stepRunning] at h
    split at h
    · cases h
      exact { hs with }
    · cases h
  | elapse ms =>
    cases h
    exact { hs with }

theorem At.cancel (hs : At c conns A near r F D data s) :
    At c conns A near r F D data (cancelInactivityTimer s) := by
  obtain ⟨running, hcancel⟩ := cancelInactivityTimer_eq s
  rw [hcancel]
  exact { hs with }

theorem RequestOk.cancel {q : ℕ} (h : RequestOk c s q) :
    RequestOk c (cancelInactivityTimer s) q := by
  obtain ⟨running, hcancel⟩ := cancelInactivityTimer_eq s
  rw [hcancel]
  refine { h with taken := fun hq => ?_ }
  have hok := h.taken hq
  refine ⟨hok.once, hok.bare, hok.alone, hok.reportable.1, fun e he => ?_⟩
  have hreport := hok.reportable.2 e he
  cases hack : (c.body q).ack with
  | none =>
    rw [hack] at hreport
    exact hreport
  | some ack =>
    rw [hack] at hreport
    exact hreport

/-- **Handling an event**, once it is known how the request of it ends. -/
theorem handleEvent_rule {Q : Halt → Prop} {R : Process → Prop} {tag : EventTag}
    {tref : ℕ} {body : Body}
    (h : Ends (handleStreamEvent order ((cancelInactivityTimer s).deferred.length + 1) ⟨tag, body⟩
    (some (pid, tref)) name (cancelInactivityTimer s)) P Q)
    (hstop : ∀ s', P s' → R (.stop .normal s'))
    (hrun : ∀ s', P s' → R (.running .accumulate s') ∧ R (.running name s'))
    (hrid : ∀ ts, Q (.invalidRid ts) → R (.stop .invalidRid ts))
    (hpause : ∀ ts, Q (.invalidPause ts) → R (.stop .policyViolation ts))
    (hcrash : Q .crash ∨ Q .exhausted → R .crashed) :
    R (handleEvent order tag pid tref body name s) := by
  unfold handleEvent
  dsimp only
  cases hresult : handleStreamEvent order ((cancelInactivityTimer s).deferred.length + 1)
      ⟨tag, body⟩ (some (pid, tref)) name (cancelInactivityTimer s) with
  | ok s' =>
    rw [hresult] at h
    dsimp only
    unfold determineNextState
    split
    · exact hstop s' h
    · split
      · exact (hrun s' h).1
      · exact (hrun s' h).2
  | error e =>
    rw [hresult] at h
    cases e with
    | invalidRid ts => exact hrid ts h
    | invalidPause ts => exact hpause ts h
    | crash => exact hcrash (.inl h)
    | exhausted => exact hcrash (.inr h)

theorem holds_handleEvent {tag : EventTag} {tref : ℕ} {body : Body}
    (h : Ends (handleStreamEvent order ((cancelInactivityTimer s).deferred.length + 1) ⟨tag, body⟩
    (some (pid, tref)) name (cancelInactivityTimer s)) P (Refused c))
    (hP : ∀ s, P s → s.world.c2s = c.payloads s.rid) :
    (handleEvent order tag pid tref body name s).Holds c P := by
  refine handleEvent_rule h (fun s' hs' => holds_stop (by simp) (hP s' hs'))
    (fun s' hs' => ⟨hs', hs'⟩) ?_ ?_ ?_
  · rintro ts ⟨_, hts, -⟩
    cases hts
  · rintro ts ⟨_, hts, hc2s⟩
    cases hts
    exact holds_stop (by simp) hc2s
  · rintro (⟨_, hts, -⟩ | ⟨_, hts, -⟩) <;> cases hts

/-- A session between events: it waits for its first request or has taken some. The requests in
`arrived` have reached it. -/
def Live (c : Client sid) (conns : List (ℕ × ℕ)) (A : ℕ → Prop) (arrived : List ℕ) (s : State) :
    Prop :=
  (At c conns A (fun _ => False) none [] [] [] s ∧ arrived = []) ∨
    ∃ r D, Settled c conns A r D s ∧ ∀ a ∈ arrived, Near r D a

variable {arrived : List ℕ}

section

variable (h : Live c conns A arrived s)

include h

theorem Live.c2s : s.world.c2s = c.payloads s.rid := by
  rcases h with ⟨hs, -⟩ | ⟨r, D, hs, -⟩
  · rw [hs.c2s, hs.rid]
    rfl
  · rw [hs.state.c2s, hs.state.rid]

/-- Whatever the client knows to be answered has been reached. -/
theorem Live.known {a : ℕ} (ha : A a) : s.Reached a := by
  rcases h with ⟨hs, -⟩ | ⟨r, D, hs, -⟩
  · exact hs.known a ha
  · exact hs.state.known a ha

/-- A response that has been sent on a connection of the client is known of. -/
theorem Live.answered {rid : ℕ}
    (hconn : (rid, pid) ∈ conns) (hreplied : s.replied pid) : s.Reached rid := by
  unfold State.replied at hreplied
  obtain ⟨⟨pid', info⟩, hmem, hinfo⟩ := any_eq_true.1 hreplied
  simp only [Bool.and_eq_true, decide_eq_true_eq] at hinfo
  obtain ⟨rfl, hinfo⟩ := hinfo
  cases info with
  | boshReply w =>
    rcases h with ⟨hs, -⟩ | ⟨r, D, hs, -⟩
    · exact hs.answered rid pid' w hconn hmem
    · exact hs.state.answered rid pid' w hconn hmem
  | itemNotFound => cases hinfo
  | policyViolation => cases hinfo
  | close sid => cases hinfo

end

/-- **An event that is no request** keeps such a session. -/
theorem Live.other (hconns : Distinct conns) (h : Live c conns A arrived s) {e : Event}
    (hok : EventOk s e) (he : e.isRequest = false)
    (hstep : stepRunning order name s e = some p) : p.Holds c (Live c conns A arrived) := by
  rcases h with ⟨hs, harrived⟩ | ⟨r, D, hs, harrived⟩
  · exact (hs.other hconns (by simp) rfl hok he hstep).mono fun s' hs' => .inl ⟨hs', harrived⟩
  · exact (hs.state.other hconns (by simp) rfl hok he hstep).mono fun s' hs' =>
      .inr ⟨r, D, ⟨hs.first_le, hs', hs.deferred⟩, harrived⟩

/-- **A request** is taken, deferred or answered again: none arrives beside the first one, or two
ahead of one still missing. -/
theorem Live.arrive (hconns : Distinct conns) (h : Live c conns A arrived s) {q tref : ℕ}
    (hconn : (q, pid) ∈ conns)
    (hq : c.first ≤ q) (hok : if q = c.first then c.Bare q else RequestOk c s q)
    (hstarted : q ≠ c.first → A c.first)
    (hwindow : ∀ a b, c.first ≤ a → a < b → b < q → A a ∨ A b)
    (hstep : stepRunning order name s (c.arrival q pid tref) = some p) :
    p.Holds c (Live c conns A (q :: arrived)) := by
  by_cases hfirst : q = c.first
  · subst hfirst
    rw [if_pos rfl] at hok
    simp only [Client.arrival, if_pos, stepRunning] at hstep
    split at hstep
    · rename_i hnone
      obtain ⟨body, hbody, rfl⟩ := Option.map_eq_some_iff.1 hstep
      rcases h with ⟨hs, rfl⟩ | ⟨r, D, hs, -⟩
      · refine (holds_handleEvent (handleStart_ends order name hconns hconn hok hbody hs.cancel)
          fun s' hs' => ?_).mono fun s' hs' => .inr ⟨c.first, [], hs', ?_⟩
        · rw [hs'.state.c2s, hs'.state.rid]
        · simp [Near]
      · exact absurd (hs.state.rid.symm.trans hnone.1) (by simp)
    · cases hstep
  · rw [if_neg hfirst] at hok
    have hlt : c.first < q := by omega
    simp only [Client.arrival, if_neg hfirst, stepRunning] at hstep
    split at hstep
    · cases hstep
      have hreached := h.known (hstarted hfirst)
      rcases h with ⟨hs, rfl⟩ | ⟨r, D, hs, harrived⟩
      · rcases hreached with ⟨r, hr, -⟩ | ⟨l, hl, -⟩
        · exact absurd (hs.rid.symm.trans hr) (by simp)
        · exact absurd rfl (hs.started (by simp [hl]))
      · have hahead : q ≤ r + 2 := by
          by_contra hgt
          have hr := hs.state.rid
          have hfirst_le := hs.first_le
          have hknown : ∃ a, r < a ∧ A a := by
            rcases hwindow (r + 1) (r + 2) (by omega) (by omega) (by omega) with ha | ha
            · exact ⟨r + 1, by omega, ha⟩
            · exact ⟨r + 2, by omega, ha⟩
          obtain ⟨a, hlt', ha⟩ := hknown
          rcases hs.state.known a ha with ⟨r', hr', hle⟩ | ⟨l, hl, hle⟩
          · cases (hr.symm.trans hr')
            omega
          · exact hgt (hok.notAhead r hr l hl (by omega))
        have hcancel : Settled c conns A r D (cancelInactivityTimer s) :=
          ⟨hs.first_le, hs.state.cancel, hs.deferred⟩
        refine (holds_handleEvent
          (handleRequest_ends order name hconns hconn hlt hahead hcancel hok.cancel)
          fun s' hs' => ?_).mono fun s' hs' => ?_
        · obtain ⟨r', D', hs', -⟩ := hs'
          rw [hs'.state.c2s, hs'.state.rid]
        · obtain ⟨r', D', hs', hnear⟩ := hs'
          refine .inr ⟨r', D', hs', fun a ha => ?_⟩
          rcases mem_cons.1 ha with rfl | ha
          · exact hnear a (.inr rfl)
          · exact hnear a (.inl (harrived a ha))
    · cases hstep

theorem Live.learn {A' : ℕ → Prop} (h : Live c conns A arrived s)
    (hA : ∀ a, A' a → s.Reached a) : Live c conns A' arrived s := by
  rcases h with ⟨hs, harrived⟩ | ⟨r, D, hs, harrived⟩
  · exact .inl ⟨{ hs with known := hA }, harrived⟩
  · have hs' := hs.state
    exact .inr ⟨r, D, ⟨hs.first_le, { hs' with known := hA }, hs.deferred⟩,
      harrived⟩

/-- The client opens a connection on which nothing has been sent. -/
theorem Live.connect (h : Live c conns A arrived s) {q : ℕ}
    (hfresh : s.replied pid = false) : Live c ((q, pid) :: conns) A arrived s := by
  have hanswered {P : ℕ → Prop} (hold : ∀ rid pid w, (rid, pid) ∈ conns →
      (pid, .boshReply w) ∈ s.world.replies → P rid) (rid pid' : ℕ) (w : Response)
      (hconn : (rid, pid') ∈ (q, pid) :: conns) (hreply : (pid', .boshReply w) ∈ s.world.replies) :
      P rid := by
    rcases mem_cons.1 hconn with heq | hconn
    · obtain ⟨rfl, rfl⟩ := Prod.mk.inj heq
      have hreplied : s.replied pid' := any_eq_true.2 ⟨(pid', .boshReply w), hreply, by simp⟩
      rw [hfresh] at hreplied
      cases hreplied
    · exact hold rid pid' w hconn hreply
  rcases h with ⟨hs, harrived⟩ | ⟨r, D, hs, harrived⟩
  · exact .inl ⟨{ hs with
      handlers := fun h hh => ⟨(hs.handlers h hh).1, mem_cons_of_mem _ (hs.handlers h hh).2⟩
      answered := hanswered hs.answered }, harrived⟩
  · have hs' := hs.state
    exact .inr ⟨r, D, ⟨hs.first_le, { hs' with
        handlers := fun h hh => ⟨(hs'.handlers h hh).1, mem_cons_of_mem _ (hs'.handlers h hh).2⟩
        answered := hanswered hs'.answered }, hs.deferred⟩, harrived⟩

end Events

/-- The requests of which the client knows that they have been answered. -/
def System.Knows (a : ℕ) : Prop :=
  c.first ≤ a ∧ a < sys.next ∧ a ∉ sys.unanswered

/-- **The invariant of the client and the session.** -/
structure System.Sound (sys : System) : Prop where
  distinct : Distinct sys.connections
  flight : ∀ x ∈ sys.flight, x ∈ sys.connections
  sent : ∀ x ∈ sys.connections, c.first ≤ x.1 ∧ x.1 < sys.next
  unanswered : ∀ a ∈ sys.unanswered, c.first ≤ a ∧ a < sys.next
  next : c.first ≤ sys.next
  /-- Of two requests before one that has been sent, one has been answered. -/
  window : ∀ a b q, c.first ≤ a → a < b → b < q → q < sys.next → sys.Knows c a ∨ sys.Knows c b
  opened : ∀ q, c.first < q → q < sys.next → sys.Knows c c.first
  process : sys.process.Holds c (Live c sys.connections (sys.Knows c) sys.arrived)

variable {c order} {sys sys' : System}

theorem System.sound_initial (opts : Opts) : (System.initial c opts).Sound c where
  distinct _ _ _ h := nomatch h
  flight _ h := nomatch h
  sent _ h := nomatch h
  unanswered _ h := nomatch h
  next := Nat.le_refl _
  window a b q ha hab hbq hq := by
    have hq : q < c.first := hq
    omega
  opened q hq hq' := by
    have hq' : q < c.first := hq'
    omega
  process := by
    refine .inl ⟨⟨rfl, fun h => absurd rfl h, rfl, rfl, rfl, wrappable_nil, ?_, ?_,
      fun h => absurd rfl h, ?_, ?_⟩, rfl⟩
    · intro h hh
      cases hh
    · intro x hx
      cases hx
    · intro rid pid w hconn
      cases hconn
    · intro a ha
      have hlt : a < c.first := ha.2.1
      have hle := ha.1
      omega

theorem Distinct.cons {conns : List (ℕ × ℕ)} (h : Distinct conns) {q pid : ℕ}
    (hfresh : conns.any (·.2 = pid) = false) : Distinct ((q, pid) :: conns) := by
  have hne : ∀ rid, (rid, pid) ∉ conns := fun rid hmem => by
    have := any_eq_false.1 hfresh (rid, pid) hmem
    simp at this
  intro rid rid' pid' hmem hmem'
  rcases mem_cons.1 hmem with heq | hold
  · cases heq
    rcases mem_cons.1 hmem' with heq' | hold'
    · exact (Prod.mk.inj heq').1.symm
    · exact absurd hold' (hne rid')
  · rcases mem_cons.1 hmem' with heq' | hold'
    · cases heq'
      exact absurd hold (hne rid)
    · exact h rid rid' pid' hold hold'

theorem System.Sound.connect (hs : sys.Sound c) {A : ℕ → Prop} {q pid : ℕ} (hfresh : sys.fresh pid)
    (hA : ∀ a, A a → sys.Knows c a) :
    Distinct ((q, pid) :: sys.connections) ∧
    sys.process.Holds c (Live c ((q, pid) :: sys.connections) A sys.arrived) := by
  unfold System.fresh at hfresh
  simp only [Bool.and_eq_true, Bool.not_eq_true'] at hfresh
  refine ⟨hs.distinct.cons hfresh.1, ?_⟩
  have hprocess := hs.process
  cases hp : sys.process with
  | running name s =>
    rw [hp] at hprocess hfresh
    exact (Live.connect hprocess hfresh.2).learn fun a ha => Live.known hprocess (hA a ha)
  | stopped reason s =>
    rw [hp] at hprocess
    exact hprocess
  | crashed =>
    rw [hp] at hprocess
    exact hprocess

theorem running_of_step {p p' : Process} {e : Event} (h : Bosh.step order p e = some p') :
    ∃ name s, p = .running name s := by
  cases p with
  | running name s => exact ⟨name, s, rfl⟩
  | stopped reason s => cases h
  | crashed => cases h

/-- The invariant is kept by every step that meets the condition. -/
theorem System.Sound.step (hs : sys.Sound c) {e : SystemEvent} (hok : sys.Ok c e)
    (h : sys.step c order e = some sys') : sys'.Sound c := by
  cases e with
  | send pid =>
    simp only [System.step] at h
    split at h
    · rename_i hsend
      obtain ⟨hlength, hopened, hfresh⟩ := hsend
      cases h
      have hknows {a : ℕ} (ha : sys.Knows c a) :
          c.first ≤ a ∧ a < sys.next + 1 ∧ a ∉ sys.next :: sys.unanswered := by
        refine ⟨ha.1, Nat.lt_succ_of_lt ha.2.1, ?_⟩
        rw [mem_cons, not_or]
        exact ⟨Nat.ne_of_lt ha.2.1, ha.2.2⟩
      obtain ⟨hdistinct, hprocess⟩ := hs.connect (q := sys.next)
        (A := fun a => c.first ≤ a ∧ a < sys.next + 1 ∧ a ∉ sys.next :: sys.unanswered) hfresh
        fun a ha => by
          have hne := ha.2.2
          rw [mem_cons, not_or] at hne
          exact ⟨ha.1, by have := ha.2.1; omega, hne.2⟩
      refine ⟨hdistinct, ?_, ?_, ?_, Nat.le_succ_of_le hs.next, ?_, ?_, hprocess⟩
      · rintro x hx
        rcases mem_cons.1 hx with rfl | hx
        · exact mem_cons_self
        · exact mem_cons_of_mem _ (hs.flight x hx)
      · rintro x hx
        rcases mem_cons.1 hx with rfl | hx
        · exact ⟨hs.next, Nat.lt_succ_self _⟩
        · exact ⟨(hs.sent x hx).1, Nat.lt_succ_of_lt (hs.sent x hx).2⟩
      · rintro a ha
        rcases mem_cons.1 ha with rfl | ha
        · exact ⟨hs.next, Nat.lt_succ_self _⟩
        · exact ⟨(hs.unanswered a ha).1, Nat.lt_succ_of_lt (hs.unanswered a ha).2⟩
      · intro a b q ha hab hbq hq
        by_cases hlast : q < sys.next
        · exact (hs.window a b q ha hab hbq hlast).imp hknows hknows
        · -- two requests before the new one cannot both be unanswered
          have hq : q < sys.next + 1 := hq
          have hb : b < sys.next := by omega
          by_cases hmem : a ∈ sys.unanswered
          · by_cases hmem' : b ∈ sys.unanswered
            · exfalso
              match hun : sys.unanswered with
              | [] => simp [hun] at hmem
              | [x] =>
                rw [hun] at hmem hmem'
                simp only [mem_singleton] at hmem hmem'
                omega
              | _ :: _ :: _ =>
                rw [hun] at hlength
                simp only [length_cons] at hlength
                omega
            · exact .inr (hknows ⟨by omega, hb, hmem'⟩)
          · exact .inl (hknows ⟨ha, by omega, hmem⟩)
      · intro q hq hq'
        have hq' : q < sys.next + 1 := hq'
        exact hknows ⟨Nat.le_refl _, by omega, hopened⟩
    · cases h
  | again rid pid =>
    simp only [System.step] at h
    split at h
    · rename_i hagain
      obtain ⟨hmem, hne, hfresh⟩ := hagain
      cases h
      obtain ⟨hdistinct, hprocess⟩ := hs.connect (q := rid) hfresh fun a ha => ha
      refine ⟨hdistinct, ?_, ?_, hs.unanswered, hs.next, hs.window, hs.opened, hprocess⟩
      · rintro x hx
        rcases mem_cons.1 hx with rfl | hx
        · exact mem_cons_self
        · exact mem_cons_of_mem _ (hs.flight x hx)
      · rintro x hx
        rcases mem_cons.1 hx with rfl | hx
        · exact hs.unanswered _ hmem
        · exact hs.sent x hx
    · cases h
  | lost rid pid =>
    cases h
    exact { hs with flight := fun x hx => hs.flight x (mem_of_mem_erase hx) }
  | arrive rid pid tref =>
    simp only [System.step] at h
    split at h
    · rename_i hflight
      obtain ⟨process, hstep, rfl⟩ := Option.map_eq_some_iff.1 h
      have hconn := hs.flight _ hflight
      obtain ⟨hfirst, hlt⟩ := hs.sent _ hconn
      refine { hs with flight := fun x hx => hs.flight x (mem_of_mem_erase hx), process := ?_ }
      obtain ⟨name, s, hp⟩ := running_of_step hstep
      have hprocess := hs.process
      unfold System.Ok at hok
      rw [hp] at hprocess hstep hok
      exact Live.arrive hs.distinct hprocess hconn hfirst hok
        (fun hne => hs.opened rid (by omega) hlt)
        (fun a b ha hab hb => hs.window a b rid ha hab hb hlt) hstep
    · cases h
  | answered rid pid =>
    simp only [System.step] at h
    split at h
    · rename_i hanswered
      obtain ⟨-, hconn, hreplied⟩ := hanswered
      cases h
      have hmore {a : ℕ} (ha : sys.Knows c a) : c.first ≤ a ∧ a < sys.next ∧
          a ∉ sys.unanswered.filter (· ≠ rid) :=
        ⟨ha.1, ha.2.1, fun hmem => ha.2.2 (mem_filter.1 hmem).1⟩
      refine ⟨hs.distinct, hs.flight, hs.sent,
        fun a ha => hs.unanswered a (mem_filter.1 ha).1, hs.next,
        fun a b q ha hab hb hq => (hs.window a b q ha hab hb hq).imp hmore hmore,
        fun q hq hq' => hmore (hs.opened q hq hq'), ?_⟩
      have hprocess := hs.process
      cases hp : sys.process with
      | running name s =>
        rw [hp] at hprocess hreplied
        refine Live.learn hprocess fun a ha => ?_
        by_cases heq : a = rid
        · exact heq ▸ Live.answered hprocess hconn hreplied
        · refine Live.known hprocess ⟨ha.1, ha.2.1, fun hmem => ha.2.2 ?_⟩
          exact mem_filter.2 ⟨hmem, by simpa using heq⟩
      | stopped reason s =>
        rw [hp] at hprocess
        exact hprocess
      | crashed =>
        rw [hp] at hprocess
        exact hprocess
    · cases h
  | session e =>
    simp only [System.step] at h
    split at h
    · cases h
    · rename_i hrequest
      obtain ⟨process, hstep, rfl⟩ := Option.map_eq_some_iff.1 h
      refine { hs with process := ?_ }
      obtain ⟨name, s, hp⟩ := running_of_step hstep
      have hprocess := hs.process
      unfold System.Ok at hok
      rw [hp] at hprocess hstep hok
      exact Live.other hs.distinct hprocess hok (by simpa using hrequest) hstep

/-- **The invariant gives the order.** -/
theorem System.Sound.inOrder (hs : sys.Sound c) : sys.InOrder c := by
  have hprocess := hs.process
  unfold System.InOrder
  cases hp : sys.process with
  | running name s =>
    rw [hp] at hprocess
    refine ⟨Live.c2s hprocess, fun q hq hall => ?_⟩
    rcases hprocess with ⟨-, harrived⟩ | ⟨r, D, hs', hnear⟩
    · rw [harrived] at hq
      cases hq
    · refine ⟨r, hs'.state.rid, ?_⟩
      rcases hnear q hq with hle | ⟨rfl, -⟩
      · exact hle
      · have hfirst := hs'.first_le
        -- the missing request would have arrived
        rcases hnear (r + 1) (hall (r + 1) (by omega) (by omega)) with hle | ⟨heq, -⟩
        · omega
        · omega
  | stopped reason s =>
    rw [hp] at hprocess
    exact hprocess
  | crashed =>
    rw [hp] at hprocess
    exact hprocess

/-- **Requests reach the session once and in order.** In every run whose steps meet the condition,
the c2s process has been sent the payloads up to one, in order, with that of every request that has
arrived with all before it, and the session has not failed. -/
theorem requests_in_order (c : Client sid) (order : StreamEvent → StreamEvent → Bool) (opts : Opts)
    (es : List SystemEvent) (hok : Guarded (System.step c order) (System.Ok c)
    (System.initial c opts) es)
    (hrun : run (System.step c order) (System.initial c opts) es = some sys) : sys.InOrder c :=
  System.Sound.inOrder <| run_invariant (P := System.Sound c)
    (fun _ _ _ hs hok h => System.Sound.step hs hok h) (System.sound_initial opts) hok hrun

/-- A body with one child; the first asks for a session. -/
def sampleBody (rid : ℕ) : Body where
  rid := rid
  sid := if rid = 1 then none else some "sid"
  xmlns := some nsHttpbind
  type := none
  restart := none
  pause := none
  ack := none
  wait := none
  hold := some 1
  fromAttr := none
  toAttr := some "localhost"
  children := if rid = 1 then [] else [.xmlcdata "text"]

/-- A client that sends these bodies, the second one with a pause if there is one. -/
def sampleClient (pause : Option ℕ) : Client "sid" where
  first := 1
  first_pos := by decide
  body rid := if rid = 2 then { sampleBody 2 with pause := pause } else sampleBody rid
  rid_body rid := by
    split
    · rename_i h
      exact h.symm
    · rfl
  starts := ⟨rfl, rfl⟩
  addressed rid h := by
    have hne : rid ≠ 1 := by omega
    split
    · exact ⟨rfl, rfl⟩
    · simp [sampleBody, hne]

/-- The default options. -/
def sampleOpts : Opts := ⟨some 30, none, false, some 120⟩

/-- A session is made and the start of the stream is answered. -/
def streamStarted : List Event :=
  [.start 11 1 (sampleBody 1), .send (.xmlstreamstart ∅), .accOff]

/-- The session is made and the client waits for two more requests, of which the later one has
arrived. -/
def laterFirst : List SystemEvent :=
  [.send 11, .arrive 1 11 1, .session (.send (.xmlstreamstart ∅)), .session .accOff, .answered 1 11,
    .send 12, .send 13, .arrive 3 13 2]

/-- A request that comes too early is taken after the one before it. -/
theorem requests_in_order_deferred : ∃ sys, run (System.step (sampleClient none) fun _ _ => true)
      (System.initial (sampleClient none) sampleOpts)
      (laterFirst ++ [.arrive 2 12 3]) = some sys ∧
    sys.InOrder (sampleClient none) := by
  obtain ⟨sys, hrun⟩ := Option.isSome_iff_exists.1 (show (run
    (System.step (sampleClient none) fun _ _ => true)
    (System.initial (sampleClient none) sampleOpts) (laterFirst ++ [.arrive 2 12 3])).isSome by
      decide +kernel)
  exact ⟨sys, hrun, requests_in_order _ _ _ _ (by decide +kernel) hrun⟩

/-- A deferred request that is sent again ends the session when the earlier one arrives; an earlier
one that is a pause crashes it. -/
theorem repeated_deferred_request_ends_session :
    (∃ sys, run (System.step (sampleClient none) fun _ _ => true)
      (System.initial (sampleClient none) sampleOpts)
      (laterFirst ++ [.again 3 14, .arrive 3 14 3, .arrive 2 12 4]) = some sys ∧
    ¬ sys.InOrder (sampleClient none)) ∧
    ∃ sys, run (System.step (sampleClient (some 10)) fun _ _ => true)
      (System.initial (sampleClient (some 10)) sampleOpts) (laterFirst ++ [.arrive 2 12 3]) =
        some sys ∧
    ¬ sys.InOrder (sampleClient (some 10)) := by
  refine ⟨⟨_, rfl, fun h => ?_⟩, _, rfl, fun h => h⟩
  exact h.1 rfl

end MongooseIM.Bosh
