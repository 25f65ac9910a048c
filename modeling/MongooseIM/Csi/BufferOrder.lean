import MongooseIM.Csi.Session
import MongooseIM.Transition.Run

/-! # The buffer of an inactive client keeps the stanzas and their order

A stanza handed to `xmpp_presend_element` is passed on, is buffered, or waits in a `flush` event. -/

namespace MongooseIM.Csi

open Transition List

/-- The accumulators in the buffer. -/
def bufferOf : Option (CsiState Acc) → List Acc
  | some csi => csi.buffer
  | none => []

variable (s : Session)

/-- The stanzas in the buffer, in the order they came. -/
def Session.held : List Xmpp.Acc := (bufferOf s.csi).reverse.map Acc.stanza

/-- The stanzas of the flush events among some events. -/
def flushing (events : List (NextEvent Acc)) : List Xmpp.Acc :=
  events.filterMap fun
    | .flush acc => some acc.stanza
    | .route _ => none

/-- The stanzas that come back in flush events. -/
def Session.inFlight : List Xmpp.Acc := flushing s.events

variable (stanza : Xmpp.Acc)

/-- The accumulator that is buffered for a stanza. -/
def marked : Acc := ⟨stanza, true, ⟨none, []⟩⟩

/-- The event that brings a buffered stanza back. -/
def flushOf : NextEvent Acc := .flush (marked stanza)

@[simp] theorem stanza_marked : (marked stanza).stanza = stanza := rfl

@[simp] theorem flushing_nil : flushing [] = [] := rfl

@[simp] theorem flushing_route (acc : Acc) (events : List (NextEvent Acc)) :
    flushing (.route acc :: events) = flushing events := rfl

@[simp] theorem flushing_map (stanzas : List Xmpp.Acc) :
    flushing (stanzas.map flushOf) = stanzas := by
  induction stanzas with
  | nil => rfl
  | cons stanza stanzas ih =>
    show stanza :: flushing (stanzas.map flushOf) = stanza :: stanzas
    rw [ih]

/-- The client is inactive and the limit is zero. -/
def Session.Stuck : Prop :=
  ∃ csi, s.csi = some csi ∧ csi.state = .inactive ∧ csi.bufferMax = .limit 0

section

variable (receive : Xmpp.Acc → Option Xmpp.Acc) (bufferMax : BufferMax) (jid : Xmpp.Jid)

/-- The stanza that an event hands to `xmpp_presend_element` for the first time. -/
def handedOver (s : Session) : Event → Option Xmpp.Acc
  | .route stanza =>
    match s.events with
    | [] => (routed stanza).bind receive
    | _ :: _ => none
  | .next =>
    match s.events with
    | .route acc :: _ => (routed acc.stanza).bind receive
    | _ => none
  | _ => none

/-- No stanza is handed to an inactive session with a limit of zero. -/
def LimitOk (s : Session) (e : Event) : Prop := handedOver receive s e ≠ none → ¬ s.Stuck

/-- **A session that keeps its stanzas.** -/
structure Kept (s : Session) : Prop where
  /-- Every stanza was passed on, comes back in a flush event or is buffered, once and in the order
  in which they were handed over. -/
  inOrder : s.presented = s.passed ++ s.inFlight ++ s.held
  emptyWhenActive : ∀ csi, s.csi = some csi → csi.state = .active → csi.buffer = []
  settles : ∃ n t,
    run (step receive bufferMax jid) s (List.replicate n .next) = some t ∧ t.inFlight = []

end

/-- What `handle_flush/3` makes of a session: the stanza is passed on, buffered, or put with the
buffer into flush events. -/
inductive Flushed (s : Session) (acc : Acc) : Session → Prop
  | passes (h : ∀ csi, s.csi = some csi → csi.state = .inactive →
      csi.bufferMax.exceededBy (csi.buffer.length + 1) = false ∧ acc.buffered = true) :
      Flushed s acc { s with passed := s.passed ++ [acc.stanza] }
  | buffers (csi : CsiState Acc) (hcsi : s.csi = some csi) (hinactive : csi.state = .inactive)
      (hroom : csi.bufferMax.exceededBy (csi.buffer.length + 1) = false)
      (hfresh : acc.buffered = false) :
      Flushed s acc
        { s with csi := some { csi with buffer := markAccAsBuffered acc :: csi.buffer } }
  | overflows (csi : CsiState Acc) (hcsi : s.csi = some csi) (hinactive : csi.state = .inactive)
      (hfull : csi.bufferMax.exceededBy (csi.buffer.length + 1) = true) :
      Flushed s acc
        { s with
          csi := some { csi with buffer := [] }
          events := ((markAccAsBuffered acc :: csi.buffer).reverse.map .flush) ++ s.events }

/-- **`handle_flush/3`** of an accumulator without requests. -/
theorem handleFlush_flushed {acc : Acc} (hacc : acc.statemAcc = ⟨none, []⟩) :
    Flushed s acc (handleFlush s acc) := by
  have hpass : ∀ s' : Session, handleStateAfterPacket s' acc = s' := by
    intro s'
    simp [handleStateAfterPacket, hacc]
  obtain ⟨csi, events, presented, passed⟩ := s
  unfold handleFlush
  cases csi with
  | none =>
    simp only [xmppPresendElement, hpass]
    exact .passes fun csi h => nomatch h
  | some csi =>
    obtain ⟨state, buffer, bufferMax⟩ := csi
    cases state with
    | active =>
      simp only [xmppPresendElement, handlePresendElement, hpass]
      refine .passes fun csi h hinactive => ?_
      cases h
      cases hinactive
    | inactive =>
      simp only [xmppPresendElement, handlePresendElement]
      cases hfull : bufferMax.exceededBy (buffer.length + 1) with
      | true =>
        have h : Flushed ⟨some ⟨.inactive, buffer, bufferMax⟩, events, presented, passed⟩
            acc _ := .overflows ⟨.inactive, buffer, bufferMax⟩ rfl rfl hfull
        simpa [handleStateAfterPacket, toAccMany, toC2SAcc, hacc] using h
      | false =>
        simp only [Bool.false_eq_true, if_false]
        cases hbuffered : acc.buffered with
        | true =>
          simp only [bufferAcc, hpass]
          refine .passes fun csi h _ => ?_
          cases h
          exact ⟨hfull, hbuffered⟩
        | false =>
          have h : Flushed ⟨some ⟨.inactive, buffer, bufferMax⟩, events, presented, passed⟩
              acc _ := .buffers ⟨.inactive, buffer, bufferMax⟩ rfl rfl hfull hbuffered
          simpa [bufferAcc, handleStateAfterPacket, toAcc, toC2SAcc, hacc] using h

/-- What is buffered is marked, and the events left are an error for the client or the stanzas of a
buffer that was emptied. -/
structure Shaped (s : Session) : Prop where
  buffer : ∃ stanzas : List Xmpp.Acc, bufferOf s.csi = stanzas.map marked
  active : ∀ csi, s.csi = some csi → csi.state = .active → csi.buffer = []
  events : (∃ stanza, s.events = [.route (Acc.new stanza)]) ∨
    ∃ stanzas : List Xmpp.Acc, s.events = stanzas.map flushOf ∧
      (stanzas ≠ [] → bufferOf s.csi = [])
  order : s.presented = s.passed ++ s.inFlight ++ s.held

/-- A session that flushes a stanza without end. -/
def Session.Loops : Prop := s.Stuck ∧ s.inFlight ≠ []

theorem not_loops_of_nil {s : Session} (h : s.inFlight = []) : ¬ s.Loops := fun hl => hl.2 h

theorem exceededBy_one {bufferMax : BufferMax} :
    bufferMax.exceededBy 1 = true ↔ bufferMax = .limit 0 := by
  cases bufferMax with
  | limit n => simp [BufferMax.exceededBy]
  | infinity => simp [BufferMax.exceededBy]

theorem exceededBy_zero (n : ℕ) : (BufferMax.limit 0).exceededBy (n + 1) = true := by
  simp [BufferMax.exceededBy]

section

variable {s : Session} {stanza : Xmpp.Acc} {stanzas : List Xmpp.Acc} (hs : Shaped s)
    (hevents : s.events = (stanza :: stanzas).map flushOf)

include hs hevents

theorem Shaped.empty : bufferOf s.csi = [] := by
  rcases hs.events with ⟨error, herror⟩ | ⟨all, hall, hnil⟩
  · rw [herror] at hevents
    cases hevents
  · refine hnil ?_
    rintro rfl
    rw [hall] at hevents
    cases hevents

/-- **A stanza that comes back** is passed on, unless the limit is zero: then it is flushed again
and nothing has changed. -/
theorem Shaped.flush :
    (s.Stuck ∧ handleFlush { s with events := stanzas.map flushOf } (marked stanza) = s) ∨
    (¬ s.Stuck ∧ handleFlush { s with events := stanzas.map flushOf } (marked stanza) =
      { s with events := stanzas.map flushOf, passed := s.passed ++ [stanza] }) := by
  have hempty := hs.empty hevents
  have hflushed : Flushed { s with events := stanzas.map flushOf } (marked stanza)
      (handleFlush { s with events := stanzas.map flushOf } (marked stanza)) :=
    handleFlush_flushed _ rfl
  generalize handleFlush { s with events := stanzas.map flushOf } (marked stanza) = s' at hflushed
  cases hflushed with
  | passes h =>
    refine .inr ⟨?_, rfl⟩
    rintro ⟨csi, hcsi, hinactive, hlimit⟩
    have hroom := (h csi hcsi hinactive).1
    rw [hlimit, exceededBy_zero] at hroom
    cases hroom
  | buffers csi hcsi hinactive hroom hfresh => cases hfresh
  | overflows csi hcsi hinactive hfull =>
    have hcsi : s.csi = some csi := hcsi
    have hnil : csi.buffer = [] := by simpa [hcsi, bufferOf] using hempty
    rw [hnil] at hfull
    refine .inl ⟨⟨csi, hcsi, hinactive, exceededBy_one.1 hfull⟩, ?_⟩
    obtain ⟨state, buffer, bufferMax⟩ := csi
    obtain rfl : buffer = [] := hnil
    obtain ⟨_, _, presented, passed⟩ := s
    obtain rfl := hcsi
    obtain rfl := hevents
    rfl

/-- Passing on the stanza of a flush event keeps the shape. -/
theorem Shaped.passed :
    Shaped { s with events := stanzas.map flushOf, passed := s.passed ++ [stanza] } := by
  refine ⟨hs.buffer, hs.active, .inr ⟨stanzas, rfl, fun _ => hs.empty hevents⟩, ?_⟩
  have horder := hs.order
  rw [Session.inFlight, hevents, flushing_map] at horder
  show s.presented = s.passed ++ [stanza] ++ flushing (stanzas.map flushOf) ++ s.held
  rw [flushing_map, horder]
  simp

end

section

variable {s : Session} (hs : Shaped s)

include hs

/-- **A new stanza** keeps the shape, and is flushed without end only if the limit is zero. -/
theorem Shaped.hand (hnil : s.events = []) (stanza : Xmpp.Acc) :
    let s' := handleFlush { s with presented := s.presented ++ [stanza] } (Acc.new stanza)
    Shaped s' ∧ (s'.Loops ↔ s.Stuck) := by
  intro s'
  have hflushed : Flushed { s with presented := s.presented ++ [stanza] } (Acc.new stanza) s' :=
    handleFlush_flushed _ rfl
  have horder : s.presented = s.passed ++ s.held := by
    have h := hs.order
    rwa [Session.inFlight, hnil, flushing_nil, append_nil] at h
  obtain ⟨stanzas, hbuffer⟩ := hs.buffer
  generalize s' = s' at hflushed
  cases hflushed with
  | passes h =>
    have hroom : ∀ csi, s.csi = some csi → csi.state ≠ .inactive := by
      intro csi hcsi hinactive
      cases (h csi hcsi hinactive).2
    have hheld : s.held = [] := by
      cases hcsi : s.csi with
      | none => simp [Session.held, hcsi, bufferOf]
      | some csi =>
        have hactive : csi.state = .active := by
          cases hstate : csi.state with
          | active => rfl
          | inactive => exact absurd hstate (hroom csi hcsi)
        simp [Session.held, hcsi, bufferOf, hs.active csi hcsi hactive]
    refine ⟨{ hs with order := ?_ }, ?_⟩
    · show s.presented ++ [stanza] = s.passed ++ [stanza] ++ flushing s.events ++ s.held
      rw [hnil, horder, hheld]
      simp
    · constructor
      · rintro ⟨-, hne⟩
        exact absurd (show flushing s.events = [] by rw [hnil, flushing_nil]) hne
      · rintro ⟨csi, hcsi, hinactive, -⟩
        exact absurd hinactive (hroom csi hcsi)
  | buffers csi hcsi hinactive hroom hfresh =>
    have hcsi : s.csi = some csi := hcsi
    rw [hcsi] at hbuffer
    have hheld : s.held = csi.buffer.reverse.map Acc.stanza := by
      rw [Session.held, hcsi]
      rfl
    refine ⟨⟨⟨stanza :: stanzas, ?_⟩, ?_, .inr ⟨[], hnil, fun hne => absurd rfl hne⟩, ?_⟩, ?_⟩
    · exact congrArg (marked stanza :: ·) hbuffer
    · intro csi' hcsi' hactive
      cases hcsi'
      cases hinactive.symm.trans hactive
    · show s.presented ++ [stanza] = s.passed ++ flushing s.events ++
        (marked stanza :: csi.buffer).reverse.map Acc.stanza
      rw [hnil, horder, hheld]
      simp
    · constructor
      · rintro ⟨-, hne⟩
        exact absurd (show flushing s.events = [] by rw [hnil, flushing_nil]) hne
      · rintro ⟨csi', hcsi', -, hlimit⟩
        cases (hcsi.symm.trans hcsi')
        rw [hlimit, exceededBy_zero] at hroom
        cases hroom
  | overflows csi hcsi hinactive hfull =>
    have hcsi : s.csi = some csi := hcsi
    rw [hcsi] at hbuffer
    have hevents : ((marked stanza :: csi.buffer).reverse.map NextEvent.flush) ++ s.events
        = (stanza :: stanzas).reverse.map flushOf := by
      show ((marked stanza :: csi.buffer).reverse.map NextEvent.flush) ++ s.events = _
      rw [show csi.buffer = stanzas.map marked from hbuffer, hnil]
      simp [flushOf, Function.comp_def]
    have hheld : s.held = stanzas.reverse := by
      rw [Session.held, hcsi, hbuffer]
      simp [Function.comp_def]
    have hflight :
        flushing (((marked stanza :: csi.buffer).reverse.map NextEvent.flush) ++ s.events)
          = (stanza :: stanzas).reverse := by rw [hevents, flushing_map]
    refine ⟨⟨⟨[], rfl⟩, ?_, .inr ⟨_, hevents, fun _ => rfl⟩, ?_⟩, ?_⟩
    · intro csi' hcsi' hactive
      cases hcsi'
      rfl
    · show s.presented ++ [stanza] = s.passed ++
        flushing (((marked stanza :: csi.buffer).reverse.map NextEvent.flush) ++ s.events) ++ []
      rw [hflight, horder, hheld]
      simp
    · constructor
      · rintro ⟨⟨csi', hcsi', -, hlimit⟩, -⟩
        cases hcsi'
        exact ⟨csi, hcsi, hinactive, hlimit⟩
      · rintro ⟨csi', hcsi', -, hlimit⟩
        cases (hcsi.symm.trans hcsi')
        refine ⟨⟨_, rfl, hinactive, hlimit⟩, ?_⟩
        show flushing (((marked stanza :: csi.buffer).reverse.map .flush) ++ s.events) ≠ []
        rw [hflight]
        simp

/-- **A change between active and inactive** keeps the shape. The buffer stays or is emptied into
flush events, and then the client is active. -/
theorem Shaped.switch (hnil : s.events = []) (csi' : CsiState Acc)
    (h : (csi'.state = .inactive ∧ csi'.buffer = bufferOf s.csi) ∨
    (csi'.state = .active ∧ csi'.buffer = [])) {events : List (NextEvent Acc)}
    (hevents : events = if csi'.state = .inactive then [] else
    (bufferOf s.csi).reverse.map .flush) :
    Shaped { s with csi := some csi', events := events } ∧
    ¬ ({ s with csi := some csi', events := events } : Session).Loops := by
  have horder : s.presented = s.passed ++ s.held := by
    have h := hs.order
    rwa [Session.inFlight, hnil, flushing_nil, append_nil] at h
  obtain ⟨stanzas, hbuffer⟩ := hs.buffer
  rcases h with ⟨hinactive, hsame⟩ | ⟨hactive, hempty⟩
  · rw [if_pos hinactive] at hevents
    subst hevents
    refine ⟨⟨⟨stanzas, ?_⟩, ?_, .inr ⟨[], rfl, fun hne => absurd rfl hne⟩, ?_⟩,
      not_loops_of_nil rfl⟩
    · exact hsame.trans hbuffer
    · intro csi hcsi hactive
      cases hcsi
      cases hinactive.symm.trans hactive
    · show s.presented = s.passed ++ [] ++ csi'.buffer.reverse.map Acc.stanza
      rw [hsame, horder, append_nil]
      rfl
  · have hne : csi'.state ≠ .inactive := by simp [hactive]
    have hflush : events = stanzas.reverse.map flushOf := by
      rw [hevents, if_neg hne, hbuffer]
      simp [flushOf, Function.comp_def]
    subst hflush
    refine ⟨⟨⟨[], hempty⟩, ?_, .inr ⟨_, rfl, fun _ => hempty⟩, ?_⟩, ?_⟩
    · intro csi hcsi _
      cases hcsi
      exact hempty
    · show s.presented = s.passed ++ flushing (stanzas.reverse.map flushOf) ++
        csi'.buffer.reverse.map Acc.stanza
      rw [flushing_map, hempty, horder, Session.held, hbuffer]
      simp [Function.comp_def]
    · rintro ⟨⟨csi, hcsi, hinactive, -⟩, -⟩
      cases hcsi
      exact hne hinactive

theorem Shaped.idle (hnil : s.events = []) : Shaped s ∧ ¬ s.Loops :=
  ⟨hs, not_loops_of_nil (by rw [Session.inFlight, hnil, flushing_nil])⟩

/-- **The loss of the client** makes it active for what follows. -/
theorem Shaped.stopping (hnil : s.events = []) (stanza : Xmpp.Acc) :
    let s' := handleStateAfterPacket s (handleUserStopping (Acc.new stanza) s.csi)
    Shaped s' ∧ ¬ s'.Loops := by
  obtain ⟨csi, events, presented, passed⟩ := s
  obtain rfl : events = [] := hnil
  cases csi with
  | none => exact hs.idle rfl
  | some csi =>
    have h := hs.switch rfl { csi with state := .active, buffer := [] } (.inr ⟨rfl, rfl⟩) rfl
    simpa [handleStateAfterPacket, handleUserStopping, toAccMany, toC2SAcc, Acc.new, bufferOf]
      using h

/-- **A request of the client** to become inactive or active, or one that is neither. -/
theorem Shaped.request (hnil : s.events = []) (bufferMax : BufferMax)
    (stanza : Xmpp.Acc) (el : Xmpp.Element) :
    let s' := handleStateAfterPacket s (handleCsiRequest bufferMax (Acc.new stanza) s.csi el)
    Shaped s' ∧ ¬ s'.Loops := by
  obtain ⟨csi, events, presented, passed⟩ := s
  obtain rfl : events = [] := hnil
  unfold handleCsiRequest
  split
  · -- inactive
    cases csi with
    | none =>
      have h := hs.switch rfl ⟨.inactive, [], bufferMax⟩ (.inl ⟨rfl, rfl⟩) rfl
      simpa [handleStateAfterPacket, handleInactiveRequest, toAcc, toC2SAcc, Acc.new] using h
    | some csi =>
      have h := hs.switch rfl { csi with state := .inactive } (.inl ⟨rfl, rfl⟩) rfl
      simpa [handleStateAfterPacket, handleInactiveRequest, toAcc, toC2SAcc, Acc.new] using h
  · split
    · -- active
      cases csi with
      | none => exact hs.idle rfl
      | some csi =>
        obtain ⟨state, buffer, limit⟩ := csi
        cases state with
        | active => exact hs.idle rfl
        | inactive =>
          have h := hs.switch rfl ⟨.active, [], limit⟩ (.inr ⟨rfl, rfl⟩) rfl
          simpa [handleStateAfterPacket, handleActiveRequest, toAccMany, toC2SAcc, Acc.new,
            bufferOf] using h
    · -- the error comes back as a stanza for the client
      refine ⟨⟨hs.buffer, hs.active, .inl ⟨_, rfl⟩, ?_⟩, not_loops_of_nil rfl⟩
      exact hs.order

end

section

variable {receive : Xmpp.Acc → Option Xmpp.Acc} {bufferMax : BufferMax} {jid : Xmpp.Jid}
  {s s' : Session}

/-- **A stanza from the router**, or the error that answers a request. -/
theorem Shaped.route (hs : Shaped s) (hnil : s.events = []) {stanza : Xmpp.Acc}
    (hroute : handleRoute receive s (Acc.new stanza) = some s') :
    Shaped s' ∧ (¬ s'.Loops ↔ ((routed stanza).bind receive ≠ none → ¬ s.Stuck)) := by
  obtain ⟨addressed, haddressed, hroute⟩ := Option.map_eq_some_iff.1 hroute
  have haddressed : routed stanza = some addressed := haddressed
  rw [haddressed, Option.bind_some]
  cases hreceive : receive addressed with
  | none =>
    simp only [hreceive] at hroute
    obtain rfl : s = s' := hroute
    obtain ⟨hshaped, hloops⟩ := hs.idle hnil
    exact ⟨hshaped, iff_of_true hloops fun hne => absurd rfl hne⟩
  | some received =>
    simp only [hreceive] at hroute
    subst hroute
    obtain ⟨hshaped, hloops⟩ := hs.hand hnil received
    exact ⟨hshaped, (not_congr hloops).trans (by simp)⟩

/-- **A step of a session** keeps its shape. Flushing without end begins exactly when a stanza is
handed to an inactive session with a limit of zero. -/
theorem Shaped.step (hs : Shaped s) {e : Event} (hstep : step receive bufferMax jid s e = some s') :
    Shaped s' ∧ (¬ s.Loops → (¬ s'.Loops ↔ LimitOk receive s e)) := by
  cases e with
  | next =>
    rcases hs.events with ⟨stanza, hevents⟩ | ⟨stanzas, hevents, -⟩
    · simp only [Csi.step, hevents] at hstep
      have hidle : Shaped { s with events := [] } := by
        refine ⟨hs.buffer, hs.active, .inr ⟨[], rfl, fun hne => absurd rfl hne⟩, ?_⟩
        have horder := hs.order
        rw [Session.inFlight, hevents, flushing_route, flushing_nil] at horder
        exact horder
      obtain ⟨hshaped, hloops⟩ := hidle.route rfl hstep
      refine ⟨hshaped, fun _ => hloops.trans ?_⟩
      simp only [LimitOk, handedOver, hevents]
      exact Iff.rfl
    · cases stanzas with
      | nil => simp [Csi.step, hevents] at hstep
      | cons stanza stanzas =>
        have hok : LimitOk receive s .next := by
          simp [LimitOk, handedOver, hevents, flushOf]
        simp only [Csi.step, hevents, map_cons, flushOf] at hstep
        cases hstep
        rcases hs.flush hevents with ⟨-, hsame⟩ | ⟨hstuck, hpassed⟩
        · rw [hsame]
          exact ⟨hs, fun hloops => iff_of_true hloops hok⟩
        · rw [hpassed]
          refine ⟨hs.passed hevents, fun _ => iff_of_true ?_ hok⟩
          exact fun hloops => hstuck hloops.1
  | route stanza =>
    cases hnil : s.events with
    | cons event events => simp [Csi.step, hnil] at hstep
    | nil =>
      simp only [Csi.step, hnil] at hstep
      obtain ⟨hshaped, hloops⟩ := hs.route hnil hstep
      refine ⟨hshaped, fun _ => hloops.trans ?_⟩
      simp only [LimitOk, handedOver, hnil]
  | xmlel el receiver =>
    cases hnil : s.events with
    | cons event events => simp [Csi.step, hnil] at hstep
    | nil =>
      have hok : LimitOk receive s (.xmlel el receiver) := fun hne => absurd rfl hne
      simp only [Csi.step, hnil, userSendXmlel] at hstep
      split at hstep
      · rename_i acc1 hres
        split at hres
        · cases hres
        · cases hres
          cases hstep
          exact ⟨hs, fun _ => iff_of_true (hs.idle hnil).2 hok⟩
      · rename_i acc1 hres
        split at hres
        · cases hres
          cases hstep
          obtain ⟨hshaped, hloops⟩ := hs.request hnil bufferMax _ _
          exact ⟨hshaped, fun _ => iff_of_true hloops hok⟩
        · cases hres
  | stopping =>
    cases hnil : s.events with
    | cons event events => simp [Csi.step, hnil] at hstep
    | nil =>
      simp only [Csi.step, hnil] at hstep
      cases hstep
      obtain ⟨hshaped, hloops⟩ := hs.stopping hnil _
      exact ⟨hshaped, fun _ => iff_of_true hloops fun hne => absurd rfl hne⟩

theorem Session.Loops.step_next (hloops : s.Loops) (hs : Shaped s) :
    Csi.step receive bufferMax jid s .next = some s := by
  obtain ⟨hstuck, hne⟩ := hloops
  rcases hs.events with ⟨stanza, hevents⟩ | ⟨stanzas, hevents, -⟩
  · rw [Session.inFlight, hevents] at hne
    exact absurd rfl hne
  · cases stanzas with
    | nil =>
      rw [Session.inFlight, hevents] at hne
      exact absurd rfl hne
    | cons stanza stanzas =>
      rcases hs.flush hevents with ⟨-, hsame⟩ | ⟨hfree, -⟩
      · simp only [Csi.step, hevents, map_cons, flushOf]
        exact congrArg some hsame
      · exact absurd hstuck hfree

/-- **The flush events run out** exactly if the session does not flush without end. -/
theorem Shaped.settles_iff (hs : Shaped s) :
    (∃ n t, run (Csi.step receive bufferMax jid) s (replicate n .next) = some t ∧
    t.inFlight = []) ↔ ¬ s.Loops := by
  constructor
  · rintro ⟨n, t, hrun, hnil⟩ hloops
    have hsame : run (Csi.step receive bufferMax jid) s (replicate n .next) = some s := by
      clear hrun
      induction n with
      | zero => rfl
      | succ n ih =>
        rw [replicate_succ, run_cons, hloops.step_next hs]
        exact ih
    cases (hsame.symm.trans hrun)
    exact hloops.2 hnil
  · intro hloops
    rcases hs.events with ⟨stanza, hevents⟩ | ⟨stanzas, hevents, -⟩
    · exact ⟨0, s, rfl, by rw [Session.inFlight, hevents]; rfl⟩
    · -- one flush event after the other
      induction stanzas generalizing s with
      | nil => exact ⟨0, s, rfl, by rw [Session.inFlight, hevents]; rfl⟩
      | cons stanza stanzas ih =>
        rcases hs.flush hevents with ⟨hstuck, -⟩ | ⟨hstuck, hpassed⟩
        · refine absurd ⟨hstuck, ?_⟩ hloops
          rw [Session.inFlight, hevents, flushing_map]
          simp
        · obtain ⟨n, t, hrun, hnil⟩ := ih (hs.passed hevents) (fun h => hstuck h.1) rfl
          refine ⟨n + 1, t, ?_, hnil⟩
          rw [replicate_succ, run_cons]
          have hstep : Csi.step receive bufferMax jid s .next =
              some { s with events := stanzas.map flushOf, passed := s.passed ++ [stanza] } := by
            simp only [Csi.step, hevents, map_cons, flushOf]
            exact congrArg some hpassed
          rw [hstep]
          exact hrun

theorem Shaped.kept_iff (hs : Shaped s) : Kept receive bufferMax jid s ↔ ¬ s.Loops := by
  constructor
  · intro hkept
    exact hs.settles_iff.1 hkept.settles
  · intro hloops
    exact ⟨hs.order, hs.active, hs.settles_iff.2 hloops⟩

theorem Shaped.start : Shaped {} :=
  ⟨⟨[], rfl⟩, (fun _ h => nomatch h), .inr ⟨[], rfl, fun _ => rfl⟩, rfl⟩

end

/-- **A session keeps its stanzas, once and in order**, exactly if none is handed to it while the
client is inactive and the limit is zero. -/
theorem csi_keeps_stanzas (receive : Xmpp.Acc → Option Xmpp.Acc) (bufferMax : BufferMax)
    (jid : Xmpp.Jid) (es : List Event) :
    Guarded (step receive bufferMax jid) (LimitOk receive) {} es ↔
    ∀ h s, h <+: es → run (step receive bufferMax jid) {} h = some s →
      Kept receive bufferMax jid s := by
  have hbroken : ∀ s e, ¬ LimitOk receive s e → ∃ s', step receive bufferMax jid s e = some s' := by
    intro s e hbroken
    have hgiven : handedOver receive s e ≠ none := fun hnone =>
      hbroken fun hne => absurd hnone hne
    cases e with
    | next =>
      simp only [handedOver] at hgiven
      split at hgiven
      · rename_i acc rest hevents
        cases hrouted : routed acc.stanza with
        | none => simp [hrouted] at hgiven
        | some addressed =>
          simp only [step, hevents, handleRoute, hrouted]
          exact ⟨_, rfl⟩
      · exact absurd rfl hgiven
    | route stanza =>
      simp only [handedOver] at hgiven
      split at hgiven
      · rename_i hevents
        cases hrouted : routed stanza with
        | none => simp [hrouted] at hgiven
        | some addressed =>
          have hrouted' : routed (Acc.new stanza).stanza = some addressed := hrouted
          simp only [step, hevents, handleRoute, hrouted']
          exact ⟨_, rfl⟩
      · exact absurd rfl hgiven
    | xmlel el receiver => exact absurd rfl hgiven
    | stopping => exact absurd rfl hgiven
  rw [guarded_iff_holds_along_of_broken (P := fun _ s => Shaped s ∧ ¬ s.Loops)
    (fun _ s e _ => hbroken s e)
    (fun _ s e s' hP hstep => by
      obtain ⟨hshaped, hloops⟩ := hP.1.step hstep
      rw [← hloops hP.2]
      exact ⟨And.right, fun h => ⟨hshaped, h⟩⟩)
    ⟨Shaped.start, not_loops_of_nil rfl⟩ es]
  have hshaped : ∀ h s, run (step receive bufferMax jid) {} h = some s → Shaped s := by
    intro h s hrun
    exact run_induction (P := fun _ s => Shaped s)
      (fun _ s e s' hs hstep => (hs.step hstep).1) Shaped.start hrun
  constructor
  · intro hall h s hinit hrun
    exact (hshaped h s hrun).kept_iff.2 (hall h s hinit hrun).2
  · intro hall h s hinit hrun
    exact ⟨hshaped h s hrun, (hshaped h s hrun).kept_iff.1 (hall h s hinit hrun)⟩

/-- The client of the run below. -/
def alice : Xmpp.Jid := ⟨"alice", "localhost", "res1"⟩

/-- A message for that client. -/
def greeting : Xmpp.Acc :=
  { element := .mk "message" [] [] "", fromJid := some ⟨"bob", "localhost", "res1"⟩
    toJid := some alice }

/-- A client of a server with `buffer_max = 0` becomes inactive, and a message arrives. -/
def zeroLimitRun : List Event :=
  [.xmlel (.mk "inactive" [("xmlns", nsCsi)] [] "") alice.toBare, .route greeting]

/-- **With a limit of zero a message is flushed for ever**: it is not passed on, is not in the
buffer, and comes back in one more event. -/
theorem zero_limit_flushes_forever :
    ∃ s, run (step some (.limit 0) alice) {} zeroLimitRun = some s ∧
    ¬ Kept some (.limit 0) alice s ∧
    ∀ n, ∃ t, run (step some (.limit 0) alice) s (replicate n .next) = some t ∧
      t.passed = [] ∧ t.held = [] ∧ t.inFlight ≠ [] := by
  obtain ⟨s, hrun, hstuck, hne, hpassed, hheld⟩ :
      ∃ s, run (step some (.limit 0) alice) {} zeroLimitRun = some s ∧
        s.Stuck ∧ s.inFlight ≠ [] ∧ s.passed = [] ∧ s.held = [] :=
    ⟨_, rfl, ⟨_, rfl, rfl, rfl⟩, cons_ne_nil _ _, rfl, rfl⟩
  have hshaped : Shaped s := run_induction (P := fun _ s => Shaped s)
    (fun _ s e s' hs hstep => (hs.step hstep).1) Shaped.start hrun
  have hloops : s.Loops := ⟨hstuck, hne⟩
  refine ⟨s, hrun, fun hkept => hshaped.kept_iff.1 hkept hloops, fun n => ?_⟩
  refine ⟨s, ?_, hpassed, hheld, hne⟩
  induction n with
  | zero => rfl
  | succ n ih =>
    rw [replicate_succ, run_cons, hloops.step_next hshaped]
    exact ih

end MongooseIM.Csi
