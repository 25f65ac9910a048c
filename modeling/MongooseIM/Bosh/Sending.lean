import MongooseIM.Bosh.Socket
import MongooseIM.Transition.Attempt

/-! # What sending does to a BOSH session

Every function that sends or stores elements is put together from four actions: the first handler
is answered with the elements in hand, it is answered with a response from the cache, the elements
in hand are stored, and the pending elements are taken in hand. -/

namespace MongooseIM.Bosh

open Transition List

/-! ## Small functions -/

theorem foldl_tell_eq (pid : Handler → ℕ) (info : Info) (l : List Handler) (s : State) :
    ∃ replies, l.foldl (fun s h => s.tell (pid h) info) s =
    { s with world := { s.world with replies := replies } } := by
  induction l generalizing s with
  | nil => exact ⟨s.world.replies, rfl⟩
  | cons h l ih =>
    obtain ⟨replies, hl⟩ := ih (s.tell (pid h) info)
    exact ⟨replies, hl⟩

variable {w : Response} {s : State}

theorem boshReply_mem_foldl_tell {pid : Handler → ℕ} {info : Info} {l : List Handler}
    (hinfo : ∀ w, info ≠ .boshReply w) {p : ℕ}
    (h : (p, .boshReply w) ∈ (l.foldl (fun s h => s.tell (pid h) info) s).world.replies) :
    (p, .boshReply w) ∈ s.world.replies := by
  induction l generalizing s with
  | nil => exact h
  | cons x l ih =>
    rcases mem_append.1 (ih h) with h | h
    · exact h
    · exact absurd (Prod.mk.inj (mem_singleton.1 h)).2.symm (hinfo w)

/-- Forwarding adds to what the c2s process has been sent. -/
theorem foldl_forwardToC2s (els : List StreamEl) (s : State) : els.foldl State.forwardToC2s s =
    { s with world := { s.world with c2s := s.world.c2s ++ els } } := by
  induction els generalizing s with
  | nil => simp
  | cons el els ih =>
    rw [foldl_cons, ih]
    simp [State.forwardToC2s]

theorem maybeTrimCache_eq (ack : Option ℕ) (s : State) :
    ∃ sent, maybeTrimCache ack s = { s with sent := sent } ∧ ∀ x ∈ sent, x ∈ s.sent := by
  cases ack with
  | none => exact ⟨s.sent, rfl, fun _ hx => hx⟩
  | some a => exact ⟨_, rfl, fun x hx => (dropWhile_suffix _).subset hx⟩

/-- Besides the elements to forward, a body says something about the session; it is refused with a
crash. -/
theorem boshUnwrap_ends (tag : EventTag) (body : Body) (s : State) : Ends (boshUnwrap tag body s)
    (fun b => ∃ wait hold clientAcks fromAttr toAttr, b.2 = { s with
      wait := wait, hold := hold, clientAcks := clientAcks
      fromAttr := fromAttr, toAttr := toAttr })
    (fun e => e = .crash) := by
  unfold boshUnwrap
  split
  · exact ⟨_, _, _, _, _, rfl⟩
  · exact ⟨_, _, _, _, _, rfl⟩
  · exact ends_ite (fun _ => ⟨_, _, _, _, _, rfl⟩) fun _ => rfl
  · exact ends_ite (fun _ => ⟨_, _, _, _, _, rfl⟩) fun _ => rfl

theorem sortHandlers_perm (handlers : List Handler) : (sortHandlers handlers).Perm handlers :=
  perm_insertionSort _ _

instance : Std.Total fun a b : Handler => a.key ≤ b.key := ⟨fun a b => le_total a.key b.key⟩

instance : IsTrans Handler fun a b => a.key ≤ b.key := ⟨fun _ _ _ => le_trans⟩

variable {rest : List Handler} {h : Handler}

theorem rid_le_of_sorted {handlers : List Handler} {h' : Handler}
    (hsort : sortHandlers handlers = h :: rest) (hmem : h' ∈ rest) : h.rid ≤ h'.rid := by
  have hpair := pairwise_insertionSort (fun a b : Handler => a.key ≤ b.key) handlers
  rw [← sortHandlers, hsort, pairwise_cons] at hpair
  have hle := hpair.1 h' hmem
  rw [Handler.key, Handler.key, Prod.Lex.toLex_le_toLex] at hle
  rcases hle with hlt | ⟨heq, -⟩
  · exact hlt.le
  · exact heq.le

variable {ns : State}

/-- A handler is picked when it is the first one and its request has been processed. -/
theorem pickHandler_eq_some : pickHandler s = some (h, ns) ↔
    ∃ rest, sortHandlers s.handlers = h :: rest ∧ ridLe h.rid s.rid ∧
      ns = { s with handlers := rest } := by
  unfold pickHandler
  constructor
  · intro hpick
    split at hpick
    · cases hpick
    · rename_i h' rest hsort
      split at hpick
      · rename_i hle
        cases hpick
        exact ⟨rest, hsort, hle, rfl⟩
      · cases hpick
  · rintro ⟨rest, hsort, hle, rfl⟩
    rw [hsort]
    exact if_pos hle

/-- No handler is picked when none is for a request that has been processed. -/
theorem pickHandler_eq_none :
    pickHandler s = none ↔ ∀ h ∈ s.handlers, ridLe h.rid s.rid = false := by
  unfold pickHandler
  split
  · rename_i hsort
    have hnil : s.handlers = [] := nil_perm.1 (hsort ▸ sortHandlers_perm s.handlers)
    simp [hnil]
  · rename_i h rest hsort
    have hmem : ∀ h', h' ∈ s.handlers ↔ h' = h ∨ h' ∈ rest := by
      intro h'
      rw [← (sortHandlers_perm s.handlers).mem_iff, hsort, mem_cons]
    split
    · rename_i hle
      simp only [reduceCtorEq, false_iff, not_forall, Bool.not_eq_false]
      exact ⟨h, (hmem h).2 (.inl rfl), hle⟩
    · rename_i hle
      simp only [true_iff]
      intro h' hh'
      rcases (hmem h').1 hh' with rfl | hin
      · simpa using hle
      · have hless := rid_le_of_sorted hsort hin
        cases hr : s.rid with
        | none =>
          rw [hr] at hle
          exact absurd rfl hle
        | some r =>
          rw [hr] at hle
          simp only [ridLe, decide_eq_true_eq, decide_eq_false_iff_not] at hle ⊢
          omega

/-- Which requests are repeated ones: those with a cached response, and the last one taken. -/
theorem maybeIsRetransmission_spec (rid : ℕ) (oldRid : Option ℕ) (sent : List CachedResponse) :
    match maybeIsRetransmission rid oldRid sent with
    | some (some x) => x ∈ sent ∧ x.rid = rid
    | some none => (∀ x ∈ sent, x.rid ≠ rid) ∧ some rid = oldRid
    | none => (∀ x ∈ sent, x.rid ≠ rid) ∧ some rid ≠ oldRid := by
  unfold maybeIsRetransmission
  cases hfind : sent.find? (·.rid = rid) with
  | some x => exact ⟨mem_of_find?_eq_some hfind, by simpa using find?_some hfind⟩
  | none =>
    have hnone : ∀ x ∈ sent, x.rid ≠ rid := by simpa using find?_eq_none.1 hfind
    by_cases hold : some rid = oldRid
    · simp only [if_pos hold]
      exact ⟨hnone, hold⟩
    · simp only [if_neg hold]
      exact ⟨hnone, hold⟩

/-! ## Wrapping -/

variable (data : List StreamEl)

/-- The elements can be put into one body: there is one stream event at most. -/
def Wrappable : Prop := (data.filter StreamEl.isStreamEvent).length ≤ 1

variable (s : State)

/-- `bosh_wrap/3` accepts the elements. -/
def Wraps : Prop := Wrappable data ∧ s.rid ≠ none

@[simp] theorem wrappable_nil : Wrappable [] := Nat.zero_le 1

/-- An acknowledgement can be written once a request has been processed. -/
theorem serverAck_ends (acks : Bool) (rid : Option ℕ) (attrs : Attrs) :
    Ends (serverAck acks rid attrs) (fun _ => True) (fun e => e = .crash ∧ rid = none) := by
  cases acks <;> cases rid <;> simp [serverAck]

/-- What wrapping leaves pending: a stream end that came with stanzas. -/
def heldBack : List StreamEl :=
  match data.filter StreamEl.isStreamEvent, data.filterMap StreamEl.stanza? with
  | [.xmlstreamend], _ :: _ => [.xmlstreamend]
  | _, _ => []

variable (data : List StreamEl)

theorem heldBack_cases : heldBack data = [] ∨ heldBack data = [.xmlstreamend] := by
  unfold heldBack
  split
  · exact .inr rfl
  · exact .inl rfl

variable {pending : List StreamEl}

/-- What is held back can stay with what was pending. -/
theorem Wrappable.heldBack {data : List StreamEl} (h : Wrappable (pending ++ data)) :
    Wrappable (pending ++ heldBack data) := by
  unfold Wrappable at h ⊢
  rw [filter_append, length_append] at h ⊢
  have hle : ((Bosh.heldBack data).filter StreamEl.isStreamEvent).length ≤
      (data.filter StreamEl.isStreamEvent).length := by
    unfold Bosh.heldBack
    split
    · rename_i hevents _
      rw [hevents]
      exact Nat.le_refl 1
    · exact Nat.zero_le _
  omega

/-- A part of what can be wrapped can be wrapped. -/
theorem Wrappable.of_append_right {data : List StreamEl} (h : Wrappable (pending ++ data)) :
    Wrappable data := by
  unfold Wrappable at h ⊢
  rw [filter_append, length_append] at h
  omega

/-- The body to start from, and the state with what is held back. -/
theorem boshWrapBody_ends (s : State) : Ends (boshWrapBody data s)
    (fun b => b.2.2 = { s with pending := s.pending ++ heldBack data })
    (fun e => e = .crash ∧ ¬ Wraps data s) := by
  unfold boshWrapBody
  split
  · rename_i hevents
    simp [heldBack, hevents]
  · rename_i start hevents
    rw [ends_bind]
    refine (serverAck_ends _ _ _).mono (fun attrs _ => ?_) fun e he => ?_
    · simp [heldBack, hevents]
    · exact ⟨he.1, fun hwraps => hwraps.2 he.2⟩
  · rename_i hevents hstanzas
    simp [heldBack, hevents, hstanzas]
  · rename_i hevents hne
    obtain ⟨c, cs, hcons⟩ := exists_cons_of_ne_nil hne
    simp [heldBack, hevents, hcons]
  · rename_i hnil hstart hstop _
    refine ⟨rfl, fun hwraps => ?_⟩
    have hle := hwraps.1
    unfold Wrappable at hle
    cases hevents : data.filter StreamEl.isStreamEvent with
    | nil => exact hnil hevents
    | cons el els =>
      rw [hevents] at hle
      have hels : els = [] := length_eq_zero_iff.1 (by simpa using hle)
      subst hels
      have hel : el.isStreamEvent := by
        have hmem : el ∈ data.filter StreamEl.isStreamEvent := by rw [hevents]; simp
        exact (mem_filter.1 hmem).2
      cases el with
      | xmlstreamstart attrs => exact hstart _ hevents
      | xmlstreamend => exact hstop hevents
      | child c => cases hel

/-- Wrapping changes nothing but what is pending and the report; it fails on two stream events,
and before the first request has been processed. -/
theorem boshWrap_ends (data : List StreamEl) (rid : ℕ) (s : State) : Ends (boshWrap data rid s)
    (fun b => ∃ report, b.2 = { s with pending := s.pending ++ heldBack data, report := report })
    (fun e => e = .crash ∧ ¬ Wraps data s) := by
  unfold boshWrap
  rw [ends_bind]
  refine (boshWrapBody_ends data s).mono ?_ fun e he => he
  rintro ⟨body, children, ns⟩ hns
  obtain rfl : ns = { s with pending := s.pending ++ heldBack data } := hns
  rw [ends_bind]
  have hack : Ends (maybeAddAck rid { s with pending := s.pending ++ heldBack data } body)
      (fun _ => True) (fun e => e = .crash ∧ s.rid = none) := by
    unfold maybeAddAck
    exact ends_ite (fun _ => serverAck_ends _ _ _) fun _ => trivial
  refine hack.mono (fun attrs _ => ?_) fun e he => ⟨he.1, fun hwraps => hwraps.2 he.2⟩
  unfold maybeAddReport
  cases hreport : s.report with
  | none => exact ⟨none, by simp [← hreport]⟩
  | some report => exact ⟨none, rfl⟩

/-! ## What stays as it is -/

/-- What no sending changes. -/
structure SameCore (s s' : State) : Prop where
  sid : s'.sid = s.sid
  fromAttr : s'.fromAttr = s.fromAttr
  toAttr : s'.toAttr = s.toAttr
  rid : s'.rid = s.rid
  deferred : s'.deferred = s.deferred
  inactivity : s'.inactivity = s.inactivity
  maxPause : s'.maxPause = s.maxPause
  c2s : s'.world.c2s = s.world.c2s
  mailbox : s'.world.mailbox = s.world.mailbox

theorem cancelInactivityTimer_eq : ∃ running, cancelInactivityTimer s =
    { s with inactivityTref := none, world := { s.world with running := running } } := by
  unfold cancelInactivityTimer
  split
  · rename_i htref
    exact ⟨s.world.running, by simp [← htref]⟩
  · exact ⟨_, rfl⟩

theorem setupInactivityTimer_eq : ∃ tref running nextRef, setupInactivityTimer s = { s with
    inactivityTref := tref
    world := { s.world with running := running, nextRef := nextRef } } := by
  obtain ⟨running, hcancel⟩ := cancelInactivityTimer_eq s
  unfold setupInactivityTimer
  split
  · exact ⟨s.inactivityTref, s.world.running, s.world.nextRef, rfl⟩
  · rw [hcancel]
    exact ⟨_, _, _, rfl⟩

/-- A message to a handler, and the timer if no handler is left. -/
theorem sendWrappedToHandler_eq (pid : ℕ) (wrapped : Response) (s : State) :
    ∃ tref running nextRef, sendWrappedToHandler pid wrapped s = { s with
    inactivityTref := tref
    world := { s.world with
      replies := s.world.replies ++ [(pid, .boshReply wrapped)]
      running := running
      nextRef := nextRef } } := by
  unfold sendWrappedToHandler
  split
  · obtain ⟨tref, running, nextRef, hsetup⟩ :=
      setupInactivityTimer_eq (s.tell pid (.boshReply wrapped))
    rw [hsetup]
    exact ⟨tref, running, nextRef, rfl⟩
  · exact ⟨s.inactivityTref, s.world.running, s.world.nextRef, rfl⟩

/-! ## The four actions -/

/-- The state after a handler that has been taken out is answered with the elements. -/
def answered (h : Handler) (w : Response) (ns : State) : State :=
  sendWrappedToHandler h.pid w (cacheResponse ⟨h.rid, ns.world.now, w⟩ ns)

/-- A property of the elements in hand and the state that sending keeps. -/
structure Kept (I : List StreamEl → State → Prop) : Prop where
  answer : ∀ {data s h rest w ns}, I data s → sortHandlers s.handlers = h :: rest →
    ridLe h.rid s.rid → boshWrap data h.rid { s with handlers := rest } = .ok (w, ns) →
    I [] (answered h w ns)
  store : ∀ {data s}, I data s → (∀ h ∈ s.handlers, ridLe h.rid s.rid = false) →
    I [] (store data s)
  take : ∀ {s}, I [] s → I s.pending { s with pending := [] }

/-- The one way in which sending fails: there is a handler, but the elements cannot be wrapped. -/
def Stuck (I : List StreamEl → State → Prop) (e : Halt) : Prop :=
  e = .crash ∧ ∃ data s, I data s ∧ s.handlers ≠ [] ∧ ¬ Wraps data s

/-- Sending does not fail when elements can always be wrapped. -/
theorem not_stuck {I : List StreamEl → State → Prop}
    (h : ∀ data s, I data s → s.handlers ≠ [] → Wraps data s) (e : Halt) : ¬ Stuck I e := by
  rintro ⟨-, data, s, hI, hne, hwraps⟩
  exact hwraps (h data s hI hne)

/-- What answering a handler does. -/
structure Answered (s : State) (h : Handler) (rest : List Handler) (data : List StreamEl)
    (w : Response) (s' : State) : Prop extends SameCore s s' where
  handlers : s'.handlers = rest
  pending : s'.pending = s.pending ++ heldBack data
  sent : s'.sent = cacheUpTo (if s.clientAcks then none else some concurrentRequests)
    (mergeResponse ⟨h.rid, s.world.now, w⟩ s.sent)
  lastProcessed : s'.lastProcessed = some (lastProcessed h.rid s.lastProcessed)
  replies : s'.world.replies = s.world.replies ++ [(h.pid, .boshReply w)]
  produced : s'.world.produced = s.world.produced ++ [(h.rid, w)]

/-- Whatever comes out of the cache was in it or is the new response. -/
theorem mem_cacheUpTo {limit : Option ℕ} {response x : CachedResponse} {sent : List CachedResponse}
    (h : x ∈ cacheUpTo limit (mergeResponse response sent)) : x = response ∨ x ∈ sent := by
  have hmerge : ∀ l : List CachedResponse, x ∈ mergeResponse response l → x = response ∨ x ∈ l := by
    intro l
    induction l with
    | nil => simp [mergeResponse]
    | cons y l ih =>
      unfold mergeResponse
      split
      · simp
      · intro hx
        rcases mem_cons.1 hx with rfl | hx
        · exact .inr (by simp)
        · rcases ih hx with hx | hx
          · exact .inl hx
          · exact .inr (mem_cons_of_mem y hx)
  unfold cacheUpTo at h
  split at h
  · exact hmerge sent h
  · exact hmerge sent (mem_of_mem_drop h)

theorem answered_spec {s : State} {data : List StreamEl}
    (hwrap : boshWrap data h.rid { s with handlers := rest } = .ok (w, ns)) :
    Answered s h rest data w (answered h w ns) := by
  have hends := boshWrap_ends data h.rid { s with handlers := rest }
  rw [hwrap] at hends
  obtain ⟨report, hns⟩ := hends
  obtain rfl : ns = _ := hns
  unfold answered
  obtain ⟨tref, running, nextRef, hsend⟩ := sendWrappedToHandler_eq h.pid w
    (cacheResponse ⟨h.rid, s.world.now, w⟩ { s with
      handlers := rest, pending := s.pending ++ heldBack data, report := report })
  rw [hsend]
  exact ⟨⟨rfl, rfl, rfl, rfl, rfl, rfl, rfl, rfl, rfl⟩, rfl, rfl, rfl, rfl, rfl, rfl⟩

/-- A handler that has been taken out is answered, unless the elements cannot be wrapped. -/
theorem sendToPicked_ends (h : Handler) (rest : List Handler) (data : List StreamEl) (s : State) :
    Ends (sendToPicked h.rid h.pid data { s with handlers := rest })
    (fun s' => ∃ w ns, boshWrap data h.rid { s with handlers := rest } = .ok (w, ns) ∧
      s' = answered h w ns)
    (fun e => e = .crash ∧ ¬ Wraps data s) := by
  have hends := boshWrap_ends data h.rid { s with handlers := rest }
  unfold sendToPicked
  rw [ends_bind]
  cases hwrap : boshWrap data h.rid { s with handlers := rest } with
  | ok b => exact ⟨b.1, b.2, rfl, rfl⟩
  | error e =>
    rw [hwrap] at hends
    exact hends

/-- **Sending to a handler.** Either there is a handler to answer or none is for a request that has
been processed. -/
theorem sendToHandler_ends (s : State) : Ends (sendToHandler data s) (fun r => match r with
      | some s' => ∃ h rest w ns, sortHandlers s.handlers = h :: rest ∧ ridLe h.rid s.rid ∧
          boshWrap data h.rid { s with handlers := rest } = .ok (w, ns) ∧ s' = answered h w ns
      | none => ∀ h ∈ s.handlers, ridLe h.rid s.rid = false)
    (fun e => e = .crash ∧ s.handlers ≠ [] ∧ ¬ Wraps data s) := by
  unfold sendToHandler
  split
  · rename_i h ns hpick
    obtain ⟨rest, hsort, hle, rfl⟩ := pickHandler_eq_some.1 hpick
    rw [ends_map]
    refine (sendToPicked_ends h rest data s).mono ?_ fun e he => ⟨he.1, ?_, he.2⟩
    · rintro s' ⟨w, ns, hwrap, rfl⟩
      exact ⟨h, rest, w, ns, hsort, hle, hwrap, rfl⟩
    · intro hnil
      rw [hnil] at hsort
      cases hsort
  · rename_i hpick
    exact pickHandler_eq_none.1 hpick

namespace Kept

variable {I : List StreamEl → State → Prop} (hI : Kept I) {data : List StreamEl} {s : State}

include hI

/-- `send_to_handler/2` keeps the property. -/
theorem sendToHandler (h : I data s) : Ends (sendToHandler data s) (fun r => match r with
      | some s' => I [] s' ∧ ∃ h rest w, sortHandlers s.handlers = h :: rest ∧
          ridLe h.rid s.rid ∧ Answered s h rest data w s'
      | none => ∀ h ∈ s.handlers, ridLe h.rid s.rid = false)
    (Stuck I) := by
  refine (sendToHandler_ends data s).mono (fun r hr => ?_) fun e he => ⟨he.1, data, s, h, he.2⟩
  cases r with
  | none => exact hr
  | some s' =>
    obtain ⟨handler, rest, w, ns', hsort, hle, hwrap, rfl⟩ := hr
    exact ⟨hI.answer h hsort hle hwrap, handler, rest, w, hsort, hle, answered_spec hwrap⟩

/-- `send_or_store/2` keeps the property. -/
theorem sendOrStore (h : I data s) : Ends (sendOrStore data s) (I []) (Stuck I) := by
  unfold Bosh.sendOrStore
  rw [ends_bind]
  refine (hI.sendToHandler h).mono (fun r hr => ?_) fun e he => he
  cases r with
  | some ns => exact hr.1
  | none => exact hI.store h hr

/-- `maybe_send_report/1` keeps the property. -/
theorem maybeSendReport (h : I [] s) : Ends (maybeSendReport s) (I []) (Stuck I) := by
  unfold Bosh.maybeSendReport
  split
  · exact h
  · exact hI.sendOrStore h

theorem returnAccumulated (n : ℕ) (h : I [] s) : Ends (returnAccumulated n s) (I []) (Stuck I) := by
  induction n generalizing s with
  | zero => exact h
  | succ n ih =>
    unfold Bosh.returnAccumulated
    refine ends_ite (fun _ => h) fun _ => ?_
    rw [ends_bind]
    refine (hI.sendToHandler h).mono (fun r hr => ?_) fun e he => he
    cases r with
    | some s' => exact ih hr.1
    | none => exact h

/-- `return_surplus_handlers/2` keeps the property. -/
theorem returnSurplusHandlers (name : StateName) (h : I [] s) :
    Ends (returnSurplusHandlers name s) (I []) (Stuck I) := by
  unfold Bosh.returnSurplusHandlers
  refine ends_ite (fun _ => hI.returnAccumulated _ h) fun _ => ?_
  refine ends_ite (fun _ => h) fun _ => ?_
  exact ends_ite (fun _ => h) fun _ => hI.sendOrStore (hI.take h)

/-- `process_pause_event/2` keeps the property and answers all handlers. It fails when one of them
is for a request that has not been processed. -/
theorem processPauseEvent {seconds : ℕ} (h : I [] { s with inactivity := some seconds }) :
    Ends (processPauseEvent seconds s) (fun s' => I [] s' ∧ s'.handlers = [])
    (fun e => Stuck I e ∨ (e = .crash ∧ ∃ h ∈ s.handlers, ridLe h.rid s.rid = false) ∨
      e = .invalidPause { s.handlers.foldl (fun s h => s.tell h.pid .policyViolation) s with
        handlers := [] }) := by
  unfold Bosh.processPauseEvent
  refine ends_ite (fun _ => ?_) fun _ => .inr (.inr rfl)
  -- as many handlers are left as passes
  have hloop := ends_foldlM (l := range s.handlers.length) (f := fun s (_ : ℕ) => do
      match ← Bosh.sendToHandler [] s with
      | some ns => return ns
      | none => throw .crash)
    (I := fun l s' => I [] s' ∧ s'.handlers.length = l.length ∧ s'.rid = s.rid ∧
      ∀ h ∈ s'.handlers, h ∈ s.handlers)
    (Q := fun e => Stuck I e ∨ (e = .crash ∧ ∃ h ∈ s.handlers, ridLe h.rid s.rid = false))
    ?_ (b := { s with inactivity := some seconds })
    ⟨h, length_range.symm, rfl, fun _ hmem => hmem⟩
  · refine hloop.mono (fun s' hs' => ⟨hs'.1, length_eq_zero_iff.1 hs'.2.1⟩) fun e he => ?_
    rcases he with hstuck | hcrash
    · exact .inl hstuck
    · exact .inr (.inl hcrash)
  · rintro _ as b ⟨hb, hlength, hrid, hsub⟩
    rw [ends_bind]
    refine (hI.sendToHandler hb).mono (fun r hr => ?_) fun e he => .inl he
    cases r with
    | some s' =>
      obtain ⟨hs', h, rest, w, hsort, -, hanswered⟩ := hr
      have hperm := hsort ▸ sortHandlers_perm b.handlers
      refine ⟨hs', ?_, hanswered.rid.trans hrid, fun h' hh' => ?_⟩
      · have := hperm.length_eq
        rw [hanswered.handlers]
        rw [length_cons] at this hlength
        omega
      · rw [hanswered.handlers] at hh'
        exact hsub h' (hperm.subset (mem_cons_of_mem h hh'))
    | none =>
      obtain ⟨h, hmem⟩ : ∃ h, h ∈ b.handlers :=
        exists_mem_of_length_pos (by rw [hlength, length_cons]; omega)
      exact .inr ⟨rfl, h, hsub h hmem, hrid ▸ hr h hmem⟩

omit hI in
theorem handlers (P : Handler → Prop) : Kept fun _ s' => ∀ h ∈ s'.handlers, P h where
  answer {data s h rest w ns} hs hsort _ hwrap h' hh' := by
    rw [(answered_spec hwrap).handlers] at hh'
    exact hs h' ((hsort ▸ sortHandlers_perm s.handlers).subset (mem_cons_of_mem h hh'))
  store hs _ := hs
  take hs := hs

end Kept

/-- The ids of open requests: no later than the last one taken, or that of a deferred request. -/
def Near (r : ℕ) (D : List StreamEvent) (p : ℕ) : Prop := p ≤ r ∨ p = r + 2 ∧ D ≠ []

variable {s : State} {cached : CachedResponse}

/-- **Resending from the cache.** The first handler is answered, if one is for a request that has
been processed. -/
theorem resendCached_eq_some {s s' : State} :
    resendCached cached s = some s' ↔ ∃ h rest, sortHandlers s.handlers = h :: rest ∧
    ridLe h.rid s.rid ∧ s' = sendWrappedToHandler h.pid cached.body { s with handlers := rest } := by
  unfold resendCached
  rw [Option.map_eq_some_iff]
  constructor
  · rintro ⟨⟨h, ns⟩, hpick, rfl⟩
    obtain ⟨rest, hsort, hle, rfl⟩ := pickHandler_eq_some.1 hpick
    exact ⟨h, rest, hsort, hle, rfl⟩
  · rintro ⟨h, rest, hsort, hle, rfl⟩
    exact ⟨(h, _), pickHandler_eq_some.2 ⟨rest, hsort, hle, rfl⟩, rfl⟩

theorem resendCached_eq_none :
    resendCached cached s = none ↔ ∀ h ∈ s.handlers, ridLe h.rid s.rid = false := by
  unfold resendCached
  rw [Option.map_eq_none_iff, pickHandler_eq_none]

variable {event : StreamEvent} {handler : Option (ℕ × ℕ)}

/-- The request that comes next is processed, unless it is taken for a repeated one. -/
theorem handleStreamEventClauses_expected (take : State → Except Halt State)
    (hexpected : isExpectedRid event.rid (maybeAdd 1 s.rid))
    (hnew : maybeIsRetransmission event.rid s.rid s.sent = none ∨ handler = none) :
    handleStreamEventClauses take event handler s =
    processAckedStreamEvent take event (maybeAddHandler handler event.rid s) := by
  unfold handleStreamEventClauses
  dsimp only
  rw [if_pos hexpected, ite_self]
  rcases hnew with hnew | rfl
  · rw [hnew]
  · rcases maybeIsRetransmission event.rid s.rid s.sent with _ | _ | _ <;> rfl

/-! ## What handling a request does -/

variable {take : State → Except Halt State}

/-- **Handling a request.** A repeated one is answered from the cache or held again, one that comes
next is processed, one too early deferred, and any other refused. -/
theorem handleStreamEventClauses_ends {P : State → Prop} {Q : Halt → Prop}
    (hcached : handler ≠ none → ∀ x ∈ s.sent, x.rid = event.rid →
    match resendCached x (maybeAddHandler handler event.rid s) with
      | some nns => P nns
      | none => Q .crash)
    (hrepeated : handler ≠ none → (∀ x ∈ s.sent, x.rid ≠ event.rid) → some event.rid = s.rid →
    P (maybeAddHandler handler event.rid s))
    (hexpected : event.tag = .streamstart ∨ (∃ q, s.rid = some q ∧ event.rid = q + 1) →
    Ends (processAckedStreamEvent take event (maybeAddHandler handler event.rid s)) P Q)
    (hearly : ∀ q, s.rid = some q → event.rid = q + 2 →
    (handler ≠ none → ∀ x ∈ s.sent, x.rid ≠ event.rid) →
    P { maybeAddHandler handler event.rid s with
      deferred := event :: (maybeAddHandler handler event.rid s).deferred })
    (hinvalid : Q (.invalidRid { (sortHandlers (maybeAddHandler handler event.rid s).handlers).foldl
    (fun s h => s.tell h.pid .itemNotFound) (maybeAddHandler handler event.rid s) with
      handlers := [] })) :
    Ends (handleStreamEventClauses take event handler s) P Q := by
  have hretr := maybeIsRetransmission_spec event.rid s.rid s.sent
  -- the request is new, or no handler waits for its response
  have hnew (hsent : handler ≠ none → ∀ x ∈ s.sent, x.rid ≠ event.rid) :
      Ends (if event.tag = .streamstart then
          processAckedStreamEvent take event (maybeAddHandler handler event.rid s)
        else if isExpectedRid event.rid (maybeAdd 1 s.rid) then
          processAckedStreamEvent take event (maybeAddHandler handler event.rid s)
        else if isAcceptableRid event.rid (maybeAdd 1 s.rid) then
          .ok { maybeAddHandler handler event.rid s with
            deferred := event :: (maybeAddHandler handler event.rid s).deferred }
        else
          .error (.invalidRid { (sortHandlers (maybeAddHandler handler event.rid s).handlers).foldl
            (fun s h => s.tell h.pid .itemNotFound) (maybeAddHandler handler event.rid s) with
              handlers := [] })) P Q := by
    refine ends_ite (fun htag => hexpected (.inl htag)) fun _ => ?_
    cases hrid : s.rid with
    | none => exact hinvalid
    | some q =>
      refine ends_ite (fun hnext => hexpected (.inr ⟨q, hrid, ?_⟩)) fun _ => ?_
      · simp [isExpectedRid, maybeAdd] at hnext
        omega
      · refine ends_ite (fun hacceptable => hearly q hrid ?_ hsent) fun _ => hinvalid
        have htwo : concurrentRequests = 2 := rfl
        simp only [isAcceptableRid, maybeAdd, Bool.and_eq_true, decide_eq_true_eq] at hacceptable
        omega
  unfold handleStreamEventClauses
  cases handler with
  | none =>
    have hends := hnew fun hne => absurd rfl hne
    match maybeIsRetransmission event.rid s.rid s.sent with
    | some (some x) => exact hends
    | some none => exact hends
    | none => exact hends
  | some conn =>
    match hcase : maybeIsRetransmission event.rid s.rid s.sent with
    | some (some x) =>
      rw [hcase] at hretr
      have hx := hcached (by simp) x hretr.1 hretr.2
      dsimp only
      split
      · rename_i nns hresend
        rw [hresend] at hx
        exact hx
      · rename_i hresend
        rw [hresend] at hx
        exact hx
    | some none =>
      rw [hcase] at hretr
      exact hrepeated (by simp) hretr.1 hretr.2
    | none =>
      rw [hcase] at hretr
      exact hnew fun _ => hretr.1

/-- A report is scheduled, unless the response that is missing is not in the cache. -/
theorem scheduleReport_ends (ack : ℕ) (s : State) :
    Ends (scheduleReport ack s) (fun s' => ∃ report, s' = { s with report := report })
    (fun e => e = .crash) := by
  unfold scheduleReport
  split
  · rfl
  · dsimp only
    split
    · exact ⟨_, rfl⟩
    · exact ⟨_, rfl⟩

section

variable {P : State → Prop} {Q : Halt → Prop} {s : State} (hcrash : Q .crash)

include hcrash

/-- **Processing a request** starts from its id, with part of the cache. -/
theorem processAckedStreamEvent_ends (hprocess : ∀ sent report, (∀ x ∈ sent, x ∈ s.sent) →
    Ends (processStreamEvent take event.tag event.body
      { s with sent := sent, report := report, rid := some event.rid }) P Q)
    (hsend : ∀ s', P s' → Ends (maybeSendReport s') P Q) :
    Ends (processAckedStreamEvent take event s) P Q := by
  have hset (ack : Option ℕ) (report : Option (ℕ × ℤ)) : Ends (do
        let ns ← setRid { maybeTrimCache ack s with report := report } event.rid
        processStreamEvent take event.tag event.body ns) P Q := by
    obtain ⟨sent, htrim, hsub⟩ := maybeTrimCache_eq ack s
    rw [htrim, ends_bind]
    unfold setRid
    exact ends_ite (fun _ => hprocess sent report hsub) fun _ => hcrash
  unfold processAckedStreamEvent
  obtain ⟨report, ack⟩ := determineReportAction event.body.ack s.lastProcessed
  dsimp only
  split
  · rename_i ack
    rw [ends_bind]
    refine (scheduleReport_ends ack _).mono ?_ fun e he => he ▸ hcrash
    rintro ns ⟨report, rfl⟩
    have hends := hset (some ack) report
    rw [ends_bind] at hends ⊢
    refine hends.mono (fun s' hs' => ?_) fun e he => he
    rw [ends_bind]
    exact hs'.mono hsend fun e he => he
  · cases ack with
    | none => exact hset none s.report
    | some a => exact hset (some a) s.report

/-- A body is forwarded, unless it is a pause or refused. -/
theorem processStreamEvent_forward {tag : EventTag} {body : Body}
    (hpause : ∀ seconds, tag = .pause → body.pause = some seconds →
    Ends (processPauseEvent seconds s >>= take) P Q)
    (htake : tag ≠ .pause → ∀ wait hold clientAcks fromAttr toAttr c2s, Ends (take { s with
      wait := wait, hold := hold, clientAcks := clientAcks, fromAttr := fromAttr
      toAttr := toAttr, world := { s.world with c2s := c2s } }) P Q) :
    Ends (processStreamEvent take tag body s) P Q := by
  by_cases htag : tag = .pause
  · subst htag
    unfold processStreamEvent
    cases hbody : body.pause with
    | none => exact hcrash
    | some seconds => exact hpause seconds rfl hbody
  · have hforward : processStreamEvent take tag body s = boshUnwrap tag body s >>= fun unwrapped =>
        take (unwrapped.1.foldl State.forwardToC2s unwrapped.2) := by
      cases tag with
      | pause => exact absurd rfl htag
      | _ => rfl
    rw [hforward, ends_bind]
    refine (boshUnwrap_ends tag body s).mono ?_ fun e he => he ▸ hcrash
    rintro ⟨els, ns⟩ ⟨wait, hold, clientAcks, fromAttr, toAttr, hns⟩
    obtain rfl : ns = _ := hns
    dsimp only
    rw [foldl_forwardToC2s]
    exact htake htag _ _ _ _ _ _

end

end MongooseIM.Bosh
