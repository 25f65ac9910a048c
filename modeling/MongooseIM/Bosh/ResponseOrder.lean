import MongooseIM.Bosh.RequestOrder
import MongooseIM.Bosh.Answering

/-! # Responses carry everything once and in order

In every run of the session whose steps meet `ResponseOk`, there is one response at most for each
request id, in the order of the ids, and the responses carry what the c2s process has sent. -/

namespace MongooseIM.Bosh

open Transition List

variable {S data : List StreamEl} {n : ℕ} {strict : Bool} {near : ℕ → Prop} {r : Option ℕ}
  {D : List StreamEvent} {s s' : State}

/-- The responses made and the elements pending are the elements `S` that have been sent. -/
structure Carries (S : List StreamEl) (s : State) : Prop where
  /-- One response at most for a request id, in the order of the ids. -/
  increasing : (s.world.produced.map Prod.fst).Pairwise (· < ·)
  genuine : ∀ pid w, (pid, .boshReply w) ∈ s.world.replies → ∃ q, (q, w) ∈ s.world.produced
  carried : s.world.produced.flatMap (fun p => p.2.items) ++ s.pending.map StreamEl.item =
    S.map StreamEl.item
  wrapped : ∀ rid, s.rid ≠ none → ∃ b, boshWrap s.pending rid s = .ok b

theorem Carrying.carries (h : Carrying S [] s) : Carries S s where
  increasing := h.increasing
  genuine := h.genuine
  carried := h.carried
  wrapped rid hrid := by
    have hends := boshWrap_ends s.pending rid s
    cases hwrap : boshWrap s.pending rid s with
    | ok b => exact ⟨b, rfl⟩
    | error e =>
      rw [hwrap] at hends
      exact absurd ⟨InLine.wrappable h.line, hrid⟩ hends.2

/-- The process goes on between events or has stopped in order; it crashes only if `c`. -/
def Process.Keeps (S : List StreamEl) (c : Prop) : Process → Prop
  | .running name s => ∃ r D, Between S (name = .normal) r D s
  | .stopped _ s => Carrying S [] s
  | .crashed => c

/-- Stopping tells the handlers and leaves the responses as they are. -/
theorem Carrying.stop (h : Carrying S [] s) (reason : StopReason) {c : Prop} :
    (Process.stop reason s).Keeps S c :=
  Carrying.tell h (by simp)

theorem Stage.not_stuck (e : Halt) : ¬ Stuck (Stage S n strict near r D) e := by
  refine Bosh.not_stuck (fun data s hs hne => ⟨?_, hs.carrying.opened hne⟩) e
  rcases hs.carrying.inHand with rfl | hpending
  · exact wrappable_nil
  · have := hs.carrying.line
    rw [hpending, append_nil] at this
    exact InLine.wrappable this

theorem Stage.loose (hs : Stage S n strict near r D data s) : Stage S n false near r D data s :=
  { hs with room := ⟨hs.room.1, fun h => nomatch h⟩ }

/-- Elements in hand are sent or stored when nothing else is pending, and no request that can be
answered is left open while elements wait. -/
theorem Stage.sendOrStore (hs : Stage S 1 false near r D data s) :
    Ends (Bosh.sendOrStore data s) (Stage S 1 true near r D []) fun _ => False := by
  have hroom : Ends (Bosh.sendOrStore data s) (Room 1 true []) fun _ => True := by
    refine Room.sendOrStore (Nat.le_succ_of_le hs.room.1) (fun _ hle => ?_) (Nat.le_refl 1)
    have := hs.room.1
    omega
  refine ((Stage.kept.sendOrStore hs).and hroom).mono (fun s' hs' => ?_) fun e he =>
    Stage.not_stuck e he.1
  exact { hs'.1 with room := hs'.2 }

variable {el : StreamEl} {strict' : Bool}

/-- An element that goes in line is taken in hand or stored. -/
theorem Stage.push {pending : List StreamEl} {n' : ℕ}
    (hs : Stage S n strict near r D [] s) (hel : el.Follows s.pending)
    (hsplit : data ++ pending = s.pending ++ [el]) (hinHand : data = [] ∨ pending = [])
    (hroom : Room n' strict' data { s with pending := pending }) :
    Stage (S ++ [el]) n' strict' near r D data { s with pending := pending } := by
  have hc := hs.carrying
  refine ⟨{ hc with carried := ?_, line := ?_, inHand := hinHand }, hroom, hs.near, hs.rid, hs.deferred⟩
  · have := hc.carried
    rw [nil_append] at this
    rw [hsplit, map_append, map_append, ← append_assoc, this]
  · rw [hsplit]
    exact InLine.concat hc.line hel

variable {S' : List StreamEl}

theorem Between.of_stage (hs : Between S strict r D s)
    (h : Stage S' 1 strict' (fun p => ∃ q ∈ r, Near q D p) r D [] s') : Between S' strict' r D s' :=
  ⟨h, hs.alone, hs.deferred⟩

/-- A message that is handled without failing leaves the process running. -/
theorem Between.next {c : Prop} {x : Except Halt State} (hs : Between S strict r D s)
    (h : Ends x (Stage S' 1 true (fun p => ∃ q ∈ r, Near q D p) r D []) fun _ => False) :
    (Process.next .normal x).Keeps S' c := by
  cases x with
  | ok s' => exact ⟨r, D, hs.of_stage h⟩
  | error e => exact h.elim

variable {name : StateName}

/-- **An element from the c2s process** joins the elements sent. -/
theorem Between.send {c : Prop}
    (hs : Between S (name = .normal) r D s) (hname : name ≠ .closing) (hel : el.Follows s.pending) :
    (handleSend el name s).Keeps (S ++ [el]) c := by
  have hstage := hs.stage
  have hready := hstage.room.1
  have hhand : Stage (S ++ [el]) 1 false (fun p => ∃ q ∈ r, Near q D p) r D (s.pending ++ [el])
      { s with pending := [] } :=
    hstage.push hel (append_nil _) (.inr rfl) ⟨hready, fun h => nomatch h⟩
  have hstored {strict' : Bool} (hroom : Room 1 strict' [] { s with pending := s.pending ++ [el] }) :
      Stage (S ++ [el]) 1 strict' (fun p => ∃ q ∈ r, Near q D p) r D []
        { s with pending := s.pending ++ [el] } :=
    hstage.push hel (nil_append _) (.inl rfl) hroom
  unfold handleSend
  split
  · exact hs.next hhand.sendOrStore
  · exact ⟨r, D, hs.of_stage (hstored ⟨hready, fun h => nomatch h⟩)⟩
  · refine hs.next ?_
    by_cases hzero : ready s = 0
    · -- no request can be answered
      have hnone := ready_eq_zero.1 hzero
      have hpick : pickHandler s = none := pickHandler_eq_none.2 hnone
      unfold sendOrStore sendToHandler
      rw [hpick]
      refine hstored ⟨hready, fun _ hle => ?_⟩
      have : ready { s with pending := s.pending ++ [el] } = 0 := hzero
      omega
    · have hpending : s.pending = [] := (hstage.room.2 (by simp) (by omega)).1
      rw [hpending, nil_append] at hhand
      have hsame : { s with pending := [] } = s := by rw [← hpending]
      rw [hsame] at hhand
      exact hhand.sendOrStore
  · exact absurd rfl hname

variable {h : Handler}

theorem perm_cons_eraseP {p : Handler → Bool} {l : List Handler}
    (hfind : l.find? p = some h) : (h :: l.eraseP p).Perm l := by
  induction l with
  | nil => cases hfind
  | cons a l ih =>
    by_cases ha : p a
    · rw [find?_cons_of_pos ha] at hfind
      cases hfind
      rw [eraseP_cons_of_pos ha]
    · rw [find?_cons_of_neg ha] at hfind
      rw [eraseP_cons_of_neg ha]
      exact (List.Perm.swap a h _).trans ((ih hfind).cons a)

variable {rest : List Handler}

/-- **A wait that runs out.** The request has been taken, and it is the only one that can be
answered. -/
theorem Stage.waitTimeout (hs : Stage S 1 strict near r D [] s) {w : Response} {ns : State}
    (hperm : (h :: rest).Perm s.handlers)
    (hle : ridLe h.rid s.rid)
    (hwrap : boshWrap [] h.rid { s with handlers := rest } = .ok (w, ns)) :
    Stage S 1 strict near r D [] (answered h w ns) := by
  have ha := answered_spec hwrap
  have hready := ha.ready hperm hle
  have hbound := hs.room.1
  have hzero : ready (answered h w ns) = 0 := by omega
  have hleast : ∀ h' ∈ rest, h.rid < h'.rid := by
    intro h' hh'
    have hlater := ready_eq_zero.1 hzero h' (ha.handlers ▸ hh')
    rw [ha.rid] at hlater
    obtain ⟨q, hq⟩ := Option.ne_none_iff_exists'.1
      (hs.carrying.opened (ne_nil_of_mem (hperm.subset mem_cons_self)))
    rw [hq] at hle hlater
    simp only [ridLe, decide_eq_true_eq, decide_eq_false_iff_not] at hle hlater
    omega
  refine ⟨hs.carrying.answer hperm hle hleast hwrap, ⟨by omega, fun _ hone => by omega⟩,
    fun h' hh' => ?_, ha.rid.trans hs.rid, ha.deferred.trans hs.deferred⟩
  rw [ha.handlers] at hh'
  exact hs.near h' (hperm.subset (mem_cons_of_mem h hh'))

theorem Between.waitTimeout {c : Prop}
    (hs : Between S (name = .normal) r D s) (hperm : (h :: rest).Perm s.handlers)
    (hle : ridLe h.rid s.rid) :
    (Process.next name (sendToPicked h.rid h.pid [] { s with handlers := rest })).Keeps S c := by
  have hends := sendToPicked_ends h rest [] s
  have hopened := hs.stage.carrying.opened (ne_nil_of_mem (hperm.subset mem_cons_self))
  cases hresult : sendToPicked h.rid h.pid [] { s with handlers := rest } with
  | ok s' =>
    rw [hresult] at hends
    obtain ⟨w, ns, hwrap, rfl⟩ := hends
    exact ⟨r, D, hs.of_stage (hs.stage.waitTimeout hperm hle hwrap)⟩
  | error e =>
    rw [hresult] at hends
    exact absurd ⟨wrappable_nil, hopened⟩ hends.2

/-- A request is sent again only when its response is in the cache, an element goes in line after
those pending before the session closes, and a wait runs out for the handler found. -/
def ResponseOk (name : StateName) (s : State) : Event → Prop
  | .request _ _ body => RepeatOk s body.rid
  | .send el => name ≠ .closing ∧ el.Follows s.pending
  | .waitTimeout rid pid => ∀ h ∈ s.handlers.find? (·.rid = rid), h.pid = pid ∧ ridLe rid s.rid
  | _ => True

instance (name : StateName) (s : State) : (e : Event) → Decidable (ResponseOk name s e)
  | .request _ _ body => inferInstanceAs (Decidable (RepeatOk s body.rid))
  | .send el => inferInstanceAs (Decidable (name ≠ .closing ∧ el.Follows s.pending))
  | .waitTimeout rid pid =>
    inferInstanceAs (Decidable (∀ h ∈ s.handlers.find? (·.rid = rid), h.pid = pid ∧ ridLe rid s.rid))
  | .start _ _ _ | .close | .accOff | .inactivityTimeout | .setClientAcks _ | .timerEnds _
  | .elapse _ => .isTrue trivial

/-- The elements that an event sends. -/
def Event.sent : Event → List StreamEl
  | .send el => [el]
  | _ => []

theorem Between.loose (hs : Between S strict r D s) : Between S false r D s :=
  hs.of_stage hs.stage.loose

theorem Between.cancel (hs : Between S strict r D s) :
    Between S strict r D (cancelInactivityTimer s) := by
  obtain ⟨running, hcancel⟩ := cancelInactivityTimer_eq s
  rw [hcancel]
  have hc := hs.stage.carrying
  exact hs.of_stage ⟨{ hc with }, hs.stage.room, hs.stage.near, hs.stage.rid,
    hs.stage.deferred⟩

theorem keeps_handleEvent {order : StreamEvent → StreamEvent → Bool} {tag : EventTag}
    {pid tref : ℕ} {body : Body} {c : Prop} (hcrash : c)
    (h : Ends (handleStreamEvent order ((cancelInactivityTimer s).deferred.length + 1) ⟨tag, body⟩
    (some (pid, tref)) name (cancelInactivityTimer s))
    (fun s' => ∃ r D, Between S (name = .normal) r D s') (Halted S)) :
    (handleEvent order tag pid tref body name s).Keeps S c := by
  refine handleEvent_rule h ?_ ?_ (fun ts hts => (hts ts (.inl rfl)).stop _)
    (fun ts hts => (hts ts (.inr rfl)).stop _) fun _ => hcrash
  · rintro s' ⟨r, D, hs'⟩
    exact hs'.stage.carrying.stop _
  · rintro s' ⟨r, D, hs'⟩
    exact ⟨⟨r, D, hs'.loose⟩, ⟨r, D, hs'⟩⟩

/-- **Every event** keeps the responses in order, and only a request can crash the session. -/
theorem Between.step (order : StreamEvent → StreamEvent → Bool) {e : Event}
    {p : Process} (hs : Between S (name = .normal) r D s) (hok : ResponseOk name s e)
    (h : stepRunning order name s e = some p) : p.Keeps (S ++ e.sent) e.isRequest := by
  have hc := hs.stage.carrying
  -- what the session does besides sending
  have hidle {strict' : Bool} {clientAcks : Bool} {now : ℤ} {running : List (ℕ × ℕ)}
      {mailbox : List ℕ} (hroom : Room 1 strict' [] s) : Between S strict' r D
        { s with clientAcks := clientAcks, world := { s.world with
          now := now, running := running, mailbox := mailbox } } :=
    hs.of_stage ⟨{ hc with }, hroom, hs.stage.near, hs.stage.rid,
      hs.stage.deferred⟩
  cases e with
  | start pid tref body =>
    simp only [Event.sent, append_nil]
    simp only [stepRunning] at h
    split at h
    · rename_i hnone
      obtain ⟨body', -, rfl⟩ := Option.map_eq_some_iff.1 h
      obtain rfl : r = none := hs.stage.rid.symm.trans hnone.1
      exact keeps_handleEvent rfl (hs.cancel.start order rfl)
    · cases h
  | request pid tref body =>
    simp only [Event.sent, append_nil]
    simp only [stepRunning] at h
    split at h
    · rename_i hsid
      cases h
      have hrepeat : RepeatOk (cancelInactivityTimer s) body.rid := by
        obtain ⟨running, hcancel⟩ := cancelInactivityTimer_eq s
        rw [hcancel]
        exact hok
      refine keeps_handleEvent rfl (hs.cancel.request order hrepeat ?_)
      show toEventType body ≠ .streamstart
      unfold toEventType
      rw [hsid]
      split_ifs <;> simp_all
    · cases h
  | send el =>
    cases h
    exact hs.send hok.1 hok.2
  | close =>
    simp only [Event.sent, append_nil]
    cases h
    unfold handleClose
    split
    · exact hc.stop _
    · exact ⟨r, D, hs.loose⟩
  | accOff =>
    simp only [Event.sent, append_nil]
    cases h
    unfold handleAccOff
    split
    · exact hs.next (Stage.kept.take hs.stage.loose).sendOrStore
    · exact ⟨r, D, hs⟩
  | waitTimeout rid pid =>
    simp only [Event.sent, append_nil]
    cases h
    unfold handleWaitTimeout
    split
    · exact ⟨r, D, hs⟩
    · rename_i handler hfind
      obtain ⟨hpid, hle⟩ := hok handler hfind
      have hrid : handler.rid = rid := by simpa using find?_some hfind
      subst hrid hpid
      rw [if_pos rfl]
      exact hs.waitTimeout (perm_cons_eraseP hfind) hle
  | inactivityTimeout =>
    simp only [Event.sent, append_nil]
    simp only [stepRunning] at h
    split at h
    · cases h
    · cases h
      exact (hidle hs.stage.room).stage.carrying.stop _
  | setClientAcks enabled =>
    simp only [Event.sent, append_nil]
    cases h
    exact ⟨r, D, hidle hs.stage.room⟩
  | timerEnds ref =>
    simp only [Event.sent, append_nil]
    simp only [stepRunning] at h
    split at h
    · cases h
      exact ⟨r, D, hidle hs.stage.room⟩
    · cases h
  | elapse ms =>
    simp only [Event.sent, append_nil]
    cases h
    exact ⟨r, D, hidle hs.stage.room⟩

/-- The responses of the process carry the elements that the events have sent, and the process has
crashed only if the last event was a request. -/
def Process.Responds (es : List Event) : Process → Prop
  | .running _ s => Carries (es.flatMap Event.sent) s
  | .stopped _ s => Carries (es.flatMap Event.sent) s
  | .crashed => ∃ e ∈ es.getLast?, e.isRequest

/-- The condition on a step. -/
def Process.Ok (p : Process) (e : Event) : Prop :=
  match p with
  | .running name s => ResponseOk name s e
  | _ => True

instance : (p : Process) → (e : Event) → Decidable (p.Ok e)
  | .running name s, e => inferInstanceAs (Decidable (ResponseOk name s e))
  | .stopped _ _, _ | .crashed, _ => .isTrue trivial

theorem between_newState (sid : String) (opts : Opts) :
    Between [] false none [] (newState sid opts) where
  stage :=
    { carrying :=
        { increasing := List.Pairwise.nil
          above := fun _ hp => nomatch hp
          distinct := nodup_nil
          taken := fun _ hp => nomatch hp
          opened := fun hne => absurd rfl hne
          cached := fun _ hx => nomatch hx
          genuine := fun _ _ hw => nomatch hw
          carried := rfl
          line := rfl
          inHand := .inl rfl }
      room := ⟨Nat.zero_le 1, fun h => nomatch h⟩
      near := fun _ hh => nomatch hh
      rid := rfl
      deferred := rfl }
  alone := Nat.zero_le 1
  deferred := fun _ he => nomatch he

/-- **Responses carry everything once and in order.** In every run whose steps meet the condition,
each request id has one response at most, in the order of the ids, and what they carry with what is
pending is what the c2s process has sent. -/
theorem responses_in_order (order : StreamEvent → StreamEvent → Bool) (sid : String) (opts : Opts)
    {p : Process} (es : List Event)
    (hok : Guarded (step order) Process.Ok (.running .accumulate (newState sid opts)) es)
    (hrun : run (step order) (.running .accumulate (newState sid opts)) es = some p) :
    p.Responds es := by
  have hkeeps := run_history_induction
    (P := fun es p => p.Keeps (es.flatMap Event.sent) (∃ e ∈ es.getLast?, e.isRequest))
    (h := []) (fun es p e p' hp hok h => ?_) ⟨none, [], between_newState sid opts⟩ hok hrun
  · rw [nil_append] at hkeeps
    cases p with
    | running name s =>
      obtain ⟨r, D, hs⟩ := hkeeps
      exact hs.stage.carrying.carries
    | stopped reason s => exact Carrying.carries hkeeps
    | crashed => exact hkeeps
  · cases p with
    | running name s =>
      obtain ⟨r, D, hs⟩ := hp
      have hstep := hs.step order hok h
      rw [flatMap_append, flatMap_singleton]
      cases p' with
      | running name s => exact hstep
      | stopped reason s => exact hstep
      | crashed => exact ⟨e, by simp, hstep⟩
    | stopped reason s => cases h
    | crashed => cases h

/-- A deferred request, a stanza that waits for a request, and one that is answered in time. -/
def stanzasAnswered : List Event :=
  streamStarted ++ [.request 13 2 (sampleBody 3), .send (.child (.xmlcdata "one")),
    .request 12 3 (sampleBody 2), .waitTimeout 3 13, .send (.child (.xmlcdata "two")),
    .request 14 4 (sampleBody 4)]

/-- Responses to requests that come out of order. -/
theorem responses_in_order_deferred :
    ∃ p, run (step fun _ _ => true) (.running .accumulate (newState "sid" sampleOpts))
      stanzasAnswered = some p ∧ p.Responds stanzasAnswered := by
  obtain ⟨p, hrun⟩ := Option.isSome_iff_exists.1 (show (run (step fun _ _ => true)
    (.running .accumulate (newState "sid" sampleOpts)) stanzasAnswered).isSome by decide +kernel)
  exact ⟨p, hrun, responses_in_order _ _ _ _ (by decide +kernel) hrun⟩

/-- A request repeated before it is answered gets two responses; and a stream that ends while
elements accumulate crashes the session. -/
theorem repeated_request_answered_twice :
    (∃ p, run (step fun _ _ => true) (.running .accumulate (newState "sid" sampleOpts))
      (streamStarted ++ [.request 12 2 (sampleBody 2), .request 13 3 (sampleBody 2),
        .send (.child (.xmlcdata "one"))]) = some p ∧
    ¬ p.Responds (streamStarted ++ [.request 12 2 (sampleBody 2), .request 13 3 (sampleBody 2),
        .send (.child (.xmlcdata "one"))])) ∧
    ∃ p, run (step fun _ _ => true) (.running .accumulate (newState "sid" sampleOpts))
      [.start 11 1 (sampleBody 1), .send (.xmlstreamstart ∅), .send .xmlstreamend, .accOff] =
        some p ∧
    ¬ p.Responds
      [.start 11 1 (sampleBody 1), .send (.xmlstreamstart ∅), .send .xmlstreamend, .accOff] := by
  refine ⟨⟨_, rfl, fun h => ?_⟩, _, rfl, fun h => ?_⟩
  · have hids : [1, 2, 2].Pairwise (· < ·) := h.increasing
    exact absurd hids (by decide)
  · obtain ⟨e, he, hrequest⟩ := h
    cases he
    cases hrequest

end MongooseIM.Bosh
