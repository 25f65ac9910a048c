import MongooseIM.S2S.Out
import MongooseIM.Transition.Run

/-! # Stanzas of outgoing server streams

A process writes every stanza or answers it with an error, and has a timer while stanzas are
postponed, in exactly the runs whose steps meet `StepOk`. -/

namespace MongooseIM.S2S.Out

open Transition Xmpp List

/-- A timer runs, or the connection attempt is still to come. -/
def System.Pending (s : System) : Prop :=
  s.connecting.isSome = true ∨ s.timers.state = true ∨ s.timers.stream = true ∨
    s.timers.retry = true ∨ s.timers.activate = true

/-- **No stanza is lost.** -/
structure Kept (s : System) : Prop where
  /-- A stanza that can be answered waits, was written or was answered, and once. -/
  once : ∀ stanza, stanza.bounces = true →
    s.written.count stanza + (s.bounced.map Prod.fst).count stanza + s.mailbox.count stanza +
      s.queue.count stanza + s.postponed.count stanza = s.routed.count stanza
  /-- At the end of the process it was written or answered. -/
  ended : s.phase = .ended → ∀ stanza, stanza.bounces = true →
    s.written.count stanza + (s.bounced.map Prod.fst).count stanza = s.routed.count stanza
  pending : s.phase = .running → s.postponed ≠ [] → s.Pending

/-- The peer offered neither dialback nor SASL EXTERNAL, and the process waits to try again. -/
def System.Refused (s : System) : Prop :=
  s.state = .connect ∧ ∃ data, s.data = .s2sData data

/-- No stanza is postponed when the process stops, or in its mailbox when it ends; and a refused
process postpones none past its last timer. -/
def Drained (lib : Lib) (opts : Opts) (s : System) : Step → Prop
  | .event env e =>
    ((∃ effects, handleEvent lib opts env e s.state s.data = .stop effects) →
      ∀ stanza ∈ s.postponed, stanza.bounces = false) ∧
    (s.Refused →
      (e = .waitBeforeRetry → s.postponed = [] ∨ s.timers.activate = true) ∧
      (e = .activateSocket → s.postponed = [] ∨ s.timers.retry = true))
  | .receive => s.Refused → s.timers.retry = true ∨ s.timers.activate = true
  | .exited => ∀ stanza ∈ s.mailbox, stanza.bounces = false
  | _ => True

/-- A step that the process takes meets `Drained`. -/
def StepOk (lib : Lib) (opts : Opts) (s : System) (e : Step) : Prop :=
  (step lib opts s e).isSome = true → Drained lib opts s e

/-- A state in which the state timeout runs. -/
def State.Waiting : State → Prop
  | .connect => False
  | .streamEstablished => False
  | _ => True

/-- **What an event leads to.** -/
inductive Led (state : State) (data : Data) : Outcome → Prop
  | same (actions : Actions) (effects : List Effect) (hstate : actions.stateTimeout = false)
      (hstream : actions.streamTimeout = false) : Led state data (.next state data actions effects)
  /-- A state of the negotiation, or the last one, with its timeout. -/
  | waiting (state' : State) (data' : Data) (effects : List Effect) (hwaiting : state'.Waiting) :
      Led state data (.next state' data' { stateTimeout := true } effects)
  | established (data' : S2SData) (actions : Actions) (effects : List Effect) :
      Led state data (.next .streamEstablished (.s2sData data') actions effects)
  | connect (data' : Data) (effects : List Effect) :
      Led state data (.next .connect data' { waitBeforeRetry := true } effects)
  | stop (effects : List Effect) : Led state data (.stop effects)

section

variable {lib : Lib} {opts : Opts} {env : Env} {state : State} {data : S2SData} {data₀ : Data}

theorem handleConnect_led {processType : ProcessType} {fromTo : FromTo} :
    Led state data₀ (handleConnect env processType fromTo) := by
  unfold handleConnect
  split
  · exact .stop _
  · split
    · exact .connect _ _
    · exact .waiting _ _ _ trivial

variable {streamState : StreamState}

theorem handleStreamStart_led {attrs : List (String × String)} :
    Led state data₀ (handleStreamStart lib data attrs streamState) := by
  unfold handleStreamStart
  split
  · split
    · split
      · exact .waiting _ _ _ trivial
      · exact .stop _
    · exact .stop _
  · exact .stop _

theorem handleParsedFeatures_led {features : Features} :
    Led state data₀ (handleParsedFeatures lib opts env data features streamState) := by
  unfold handleParsedFeatures
  split
  · exact .waiting _ _ _ trivial
  · split
    · exact .established _ _ _
    · split
      · exact .waiting _ _ _ trivial
      · split
        · unfold sendDialbackRequest
          dsimp only
          split <;> exact .waiting _ _ _ trivial
        · exact .connect _ _

theorem handleProceed_led : Led state data₀ (handleProceed env data) := by
  unfold handleProceed
  split
  · exact .stop _
  · split
    · exact .waiting _ _ _ trivial
    · exact .stop _

variable {el : Element}

theorem handleValidation_led : Led state data₀ (handleValidation lib opts data el) := by
  unfold handleValidation
  split
  · exact .stop _
  · split
    · split
      · split
        · exact .stop _
        · exact .established _ _ _
      · exact .stop _
    · exact .waiting _ _ _ trivial
  · split
    · exact .stop _
    · exact .waiting _ _ _ trivial
  · exact .waiting _ _ _ trivial

theorem handleElement_led :
    Led state (.s2sData data) (handleElement lib opts env el state data) := by
  unfold handleElement
  split
  · split
    · exact handleParsedFeatures_led
    · exact .same _ _ rfl rfl
  · split
    · exact .waiting _ _ _ trivial
    · split
      · exact .stop _
      · exact .same _ _ rfl rfl
  · split
    · exact handleProceed_led
    · exact .same _ _ rfl rfl
  · split
    · exact handleValidation_led
    · exact .same _ _ rfl rfl
  · exact .same _ _ rfl rfl

/-- **`handle_event/4`** -/
theorem handleEvent_led (lib : Lib) (opts : Opts) (env : Env) (e : Event) (state : State)
    (data : Data) : Led state data (handleEvent lib opts env e state data) := by
  cases data with
  | fromTo fromTo =>
    cases e with
    | connect processType => exact handleConnect_led
    | terminateIfWaitingBeforeRetry =>
      simp only [handleEvent]
      split
      · exact .stop _
      · exact .same _ _ rfl rfl
    | waitBeforeRetry =>
      simp only [handleEvent, bounceAndDisconnect]
      split
      · split
        · exact .stop _
        · exact .waiting _ _ _ trivial
      · exact .same _ _ rfl rfl
    | streamStart attrs => exact .same _ _ rfl rfl
    | element el => exact .same _ _ rfl rfl
    | activateSocket => exact .same _ _ rfl rfl
    | unknown => exact .same _ _ rfl rfl
    | _ => exact .stop _
  | s2sData data =>
    cases e with
    | streamStart attrs =>
      simp only [handleEvent]
      split
      · exact handleStreamStart_led
      · exact .same _ _ rfl rfl
    | element el => exact handleElement_led
    | terminateIfWaitingBeforeRetry =>
      simp only [handleEvent]
      split
      · exact .stop _
      · exact .same _ _ rfl rfl
    | packet pause => exact .same _ _ rfl rfl
    | getStateInfo => exact .same _ _ rfl rfl
    | activateSocket => exact .same _ _ rfl rfl
    | waitBeforeRetry => exact .same _ _ rfl rfl
    | connect processType => exact .same _ _ rfl rfl
    | unknown => exact .same _ _ rfl rfl
    | _ => exact .stop _

theorem handleEvent_stateTimeout (lib : Lib) (opts : Opts) (env : Env) (state : State)
    (data : Data) :
    ∃ effects, handleEvent lib opts env .stateTimeout state data = .stop effects := by
  cases data <;> exact ⟨_, rfl⟩

/-- A refused process stays as it is when a timer for a new attempt or the socket fires. -/
theorem handleEvent_refused {e : Event} (he : e = .waitBeforeRetry ∨ e = .activateSocket) :
    handleEvent lib opts env e state (.s2sData data) = .next state (.s2sData data) {} [] := by
  rcases he with rfl | rfl <;> rfl

end

/-- The state, the data, the timers and the postponed stanzas agree. -/
structure Shaped (s : System) : Prop where
  connecting : s.connecting.isSome = true →
    s.state = .connect ∧ (∃ fromTo, s.data = .fromTo fromTo) ∧ s.postponed = [] ∧ s.queue = []
  handled : s.state = .streamEstablished ∨ s.state = .bounceAndDisconnect → s.postponed = []
  waiting : s.phase = .running → s.state.Waiting → s.timers.state = true
  early : s.state = .connect → s.timers.state = false
  /-- After a failed attempt the process waits to try again. -/
  retrying : s.phase = .running → s.state = .connect → s.connecting = none →
    (∃ fromTo, s.data = .fromTo fromTo) → s.timers.retry = true
  refused : s.phase = .running → s.Refused → s.queue ≠ [] → s.timers.retry = true
  /-- The timeout of the stream runs only where it is established. -/
  stream : s.state ≠ .streamEstablished → s.timers.stream = false
  stopped : s.phase ≠ .running → s.queue = [] ∧ s.postponed = []
  /-- A process that has ended has nothing in its mailbox. -/
  ended : s.phase = .ended → s.mailbox = []

theorem Shaped.init (fromTo : FromTo) (processType : ProcessType) :
    Shaped (init fromTo processType) := by
  refine ⟨fun _ => ⟨rfl, ⟨_, rfl⟩, rfl, rfl⟩, fun _ => rfl, ?_, fun _ => rfl, ?_, ?_, fun _ => rfl,
    ?_, ?_⟩
  · exact fun _ h => absurd h id
  · exact fun _ _ h => nomatch h
  · exact fun _ _ h => absurd rfl h
  · exact fun h => absurd rfl h
  · exact fun h => nomatch h

theorem Kept.init (fromTo : FromTo) (processType : ProcessType) :
    Kept (Out.init fromTo processType) :=
  ⟨fun _ _ => rfl, (fun h => nomatch h), fun _ h => absurd rfl h⟩

theorem count_bounceOne (text : String) (mailbox : List Stanza) {stanza : Stanza}
    (hbounces : stanza.bounces = true) :
    ((mailbox.flatMap (bounceOne text)).map Prod.fst).count stanza = mailbox.count stanza := by
  induction mailbox with
  | nil => rfl
  | cons other mailbox ih =>
    rw [flatMap_cons, map_append, count_append, ih, count_cons]
    by_cases hother : other = stanza
    · subst hother
      simp [bounceOne, hbounces]
      omega
    · have hnone : ((bounceOne text other).map Prod.fst).count stanza = 0 := by
        unfold bounceOne
        split <;> simp [hother]
      simp [hnone, hother]

section

variable {s s' : System}

/-- **`terminate/3`** loses what is postponed. -/
theorem Kept.terminate (hkept : Kept s) (hqueue : s.queue = []) :
    Kept s.terminate ↔ ∀ stanza ∈ s.postponed, stanza.bounces = false := by
  have hcount : ∀ stanza, stanza.bounces = true →
      s.terminate.written.count stanza + (s.terminate.bounced.map Prod.fst).count stanza +
        s.terminate.mailbox.count stanza + s.terminate.queue.count stanza +
        s.terminate.postponed.count stanza + s.postponed.count stanza =
          s.terminate.routed.count stanza := by
    intro stanza hbounces
    have hbefore := hkept.once stanza hbounces
    have hbounced := count_bounceOne "Bounced by s2s" s.mailbox hbounces
    rw [hqueue] at hbefore
    simp only [System.terminate, map_append, count_append, count_nil] at hbefore ⊢
    omega
  constructor
  · intro hafter stanza hmem
    by_contra hbounces
    rw [Bool.not_eq_false] at hbounces
    have hpositive := count_pos_iff.2 hmem
    have := hcount stanza hbounces
    have := hafter.once stanza hbounces
    omega
  · intro hdropped
    refine ⟨fun stanza hbounces => ?_, (fun h => nomatch h), fun h => nomatch h⟩
    have hnone : s.postponed.count stanza = 0 := by
      refine count_eq_zero.2 fun hmem => ?_
      rw [hdropped stanza hmem] at hbounces
      cases hbounces
    have := hcount stanza hbounces
    omega

theorem Shaped.terminate (hconnecting : s.connecting = none) : Shaped s.terminate := by
  refine ⟨?_, fun _ => rfl, ?_, fun _ => rfl, ?_, ?_, fun _ => rfl, fun _ => ⟨rfl, rfl⟩,
    fun _ => rfl⟩
  · intro h
    rw [System.terminate, hconnecting] at h
    cases h
  · exact fun h => nomatch h
  · exact fun h => nomatch h
  · exact fun h => nomatch h

/-- What a stanza changes that is handled: it is written, answered or postponed. -/
theorem count_route (s : System) (stanza : Stanza) {a : Stanza} (hbounces : a.bounces = true) :
    (s.route stanza).written.count a + ((s.route stanza).bounced.map Prod.fst).count a +
    (s.route stanza).postponed.count a =
      s.written.count a + (s.bounced.map Prod.fst).count a + s.postponed.count a +
        [stanza].count a := by
  have hbounced := count_bounceOne "From s2s (waiting)" [stanza] hbounces
  simp only [flatMap_cons, flatMap_nil, append_nil] at hbounced
  unfold System.route
  split
  · simp only [count_append]
    omega
  · simp only [map_append, count_append]
    omega
  · simp only [count_append]
    omega

/-- What handling a stanza leaves alone. -/
structure RouteFrame (s s' : System) : Prop where
  state : s'.state = s.state
  data : s'.data = s.data
  connecting : s'.connecting = s.connecting
  phase : s'.phase = s.phase
  mailbox : s'.mailbox = s.mailbox
  queue : s'.queue = s.queue
  routed : s'.routed = s.routed
  stateTimer : s'.timers.state = s.timers.state
  retryTimer : s'.timers.retry = s.timers.retry
  activateTimer : s'.timers.activate = s.timers.activate
  stream : s'.state ≠ .streamEstablished → s'.timers.stream = false
  postponed : s.state = .streamEstablished ∨ s.state = .bounceAndDisconnect →
    s'.postponed = s.postponed
  postponed_ne : s.state ≠ .streamEstablished → s.state ≠ .bounceAndDisconnect →
    s'.postponed ≠ []

theorem System.route_frame (s : System) (stanza : Stanza) : RouteFrame s (s.route stanza) := by
  unfold System.route
  split
  · rename_i hstate
    exact ⟨rfl, rfl, rfl, rfl, rfl, rfl, rfl, rfl, rfl, rfl, fun h => absurd hstate h, fun _ => rfl,
      fun h => absurd hstate h⟩
  · rename_i hstate
    exact ⟨rfl, rfl, rfl, rfl, rfl, rfl, rfl, rfl, rfl, rfl, fun _ => rfl, fun _ => rfl,
      fun _ h => absurd hstate h⟩
  · rename_i hestablished hbounce
    exact ⟨rfl, rfl, rfl, rfl, rfl, rfl, rfl, rfl, rfl, rfl, fun _ => rfl,
      fun h => (h.elim hestablished hbounce).elim, fun _ _ => by simp⟩

theorem Shaped.route (hs : Shaped s) (hconnecting : s.connecting = none) (stanza : Stanza)
    (hrunning : s.phase = .running) : Shaped (s.route stanza) := by
  have hframe := s.route_frame stanza
  refine ⟨?_, ?_, ?_, ?_, ?_, ?_, hframe.stream, ?_, ?_⟩
  · rw [hframe.connecting, hconnecting]
    exact fun h => nomatch h
  · intro hstate
    rw [hframe.state] at hstate
    rw [hframe.postponed hstate]
    exact hs.handled hstate
  · rw [hframe.phase, hframe.state, hframe.stateTimer]
    exact hs.waiting
  · rw [hframe.state, hframe.stateTimer]
    exact hs.early
  · rw [hframe.phase, hframe.state, hframe.connecting, hframe.data, hframe.retryTimer]
    exact hs.retrying
  · rw [System.Refused, hframe.phase, hframe.state, hframe.data, hframe.queue, hframe.retryTimer]
    exact hs.refused
  · rw [hframe.phase, hrunning]
    exact fun h => absurd rfl h
  · rw [hframe.phase, hrunning]
    exact fun h => nomatch h

/-- **A stanza that is handled** is kept exactly if it is not postponed without a timer. -/
theorem Kept.route (hs : Shaped s) (hconnecting : s.connecting = none)
    (hrunning : s.phase = .running) {stanza : Stanza}
    (hcount : ∀ a, a.bounces = true →
    s.written.count a + (s.bounced.map Prod.fst).count a + s.mailbox.count a +
      s.queue.count a + s.postponed.count a + [stanza].count a = s.routed.count a) :
    Kept (s.route stanza) ↔ (s.Refused → s.timers.retry = true ∨ s.timers.activate = true) := by
  have hframe := s.route_frame stanza
  have hpending : (s.route stanza).Pending ↔ s.timers.state = true ∨
      (s.route stanza).timers.stream = true ∨ s.timers.retry = true ∨ s.timers.activate = true := by
    rw [System.Pending, hframe.connecting, hconnecting, hframe.stateTimer, hframe.retryTimer,
      hframe.activateTimer]
    simp
  constructor
  · rintro hafter ⟨hstate, data, hdata⟩
    have hwaits := hafter.pending (hframe.phase.trans hrunning)
      (hframe.postponed_ne (by rw [hstate]; simp) (by rw [hstate]; simp))
    have hstream : (s.route stanza).timers.stream = false :=
      hframe.stream (by rw [hframe.state, hstate]; simp)
    rw [hpending, hs.early hstate, hstream] at hwaits
    simpa using hwaits
  · intro hok
    refine ⟨fun a hbounces => ?_, ?_, fun _ hne => hpending.2 ?_⟩
    · have hroute := count_route s stanza hbounces
      have hbefore := hcount a hbounces
      rw [hframe.mailbox, hframe.queue, hframe.routed]
      omega
    · rw [hframe.phase, hrunning]
      exact fun h => nomatch h
    · by_cases hwaiting : s.state.Waiting
      · exact .inl (hs.waiting hrunning hwaiting)
      · cases hstate : s.state with
        | connect =>
          cases hdata : s.data with
          | fromTo fromTo =>
            exact .inr (.inr (.inl (hs.retrying hrunning hstate hconnecting ⟨_, hdata⟩)))
          | s2sData data => exact .inr (.inr (hok ⟨hstate, data, hdata⟩))
        | streamEstablished =>
          rw [hframe.postponed (.inl hstate), hs.handled (.inl hstate)] at hne
          exact absurd rfl hne
        | _ =>
          rw [hstate] at hwaiting
          exact absurd trivial hwaiting

variable {timers : Timers} {e : Event}

theorem Timers.fire_eq_some {timers' : Timers} (hfire : timers.fire e = some timers') :
    (e ≠ .stateTimeout → timers'.state = timers.state) ∧
    (e ≠ .waitBeforeRetry → timers'.retry = timers.retry) ∧
    (e ≠ .activateSocket → timers'.activate = timers.activate) ∧
    (e = .waitBeforeRetry → timers'.retry = false) ∧
    (e = .activateSocket → timers'.activate = false) := by
  cases e
  case streamTimeout =>
    obtain ⟨-, hfire⟩ := Option.ite_none_right_eq_some.1 hfire
    cases hfire
    simp
  case activateSocket =>
    obtain ⟨-, hfire⟩ := Option.ite_none_right_eq_some.1 hfire
    cases hfire
    simp
  case waitBeforeRetry =>
    obtain ⟨-, hfire⟩ := Option.ite_none_right_eq_some.1 hfire
    cases hfire
    simp
  case stateTimeout =>
    obtain ⟨-, hfire⟩ := Option.ite_none_right_eq_some.1 hfire
    cases hfire
    simp
  all_goals
    cases hfire
    simp

/-- An event that does not stop the process moves no stanza but those that it brings back. -/
theorem count_apply (s : System) (state : State) (data : Data) (actions : Actions)
    (effects : List Effect) (a : Stanza) :
    (s.apply (.next state data actions effects)).queue.count a +
    (s.apply (.next state data actions effects)).postponed.count a =
      s.queue.count a + s.postponed.count a := by
  simp only [System.apply]
  split
  · simp only [count_append, count_nil]
    omega
  · rfl

variable {state' : State} {data' : Data} {actions : Actions} {effects : List Effect}

/-- **The state after an event** that does not stop the process; the timer that fired is not the one
of a failed attempt, unless the state changes or the timer starts again. -/
theorem Shaped.apply (hs : Shaped s) (hrunning : s.phase = .running)
    (hconnecting : s.connecting = none) (hqueue : s.queue = [])
    (hstateTimer : timers.state = s.timers.state)
    (hretryTimer : timers.retry = s.timers.retry ∨ state' ≠ .connect ∨
    (∃ data, data' = .s2sData data) ∨ actions.waitBeforeRetry = true)
    (hled : Led s.state s.data (.next state' data' actions effects)) :
    Shaped ({ s with timers := timers }.apply (.next state' data' actions effects)) := by
  have hpostponed :
      ({ s with timers := timers }.apply (.next state' data' actions effects)).postponed = [] ∨
        state' = s.state ∧ ({ s with timers := timers }.apply
          (.next state' data' actions effects)).postponed = s.postponed := by
    by_cases hsame : state' = s.state
    · exact .inr ⟨hsame, by simp [System.apply, hsame]⟩
    · exact .inl (by simp [System.apply, hsame])
  refine ⟨?_, ?_, ?_, ?_, ?_, ?_, ?_, ?_, ?_⟩
  · intro h
    rw [System.apply, hconnecting] at h
    cases h
  · intro hstate
    rcases hpostponed with hnone | ⟨hsame, hkept⟩
    · exact hnone
    · rw [hkept]
      refine hs.handled ?_
      rw [← hsame]
      exact hstate
  · intro _ hwaiting
    cases hled with
    | same actions effects hstate hstream =>
      simp [System.apply, hstateTimer, hs.waiting hrunning hwaiting]
    | waiting => simp [System.apply]
    | established => exact absurd hwaiting id
    | connect => exact absurd hwaiting id
  · intro hstate
    cases hled with
    | same _ _ hnone hstream => simp [System.apply, hnone, hstateTimer, hs.early hstate]
    | waiting _ _ _ hwaiting =>
      obtain rfl : state' = .connect := hstate
      exact absurd hwaiting id
    | established => cases hstate
    | connect =>
      by_cases hsame : State.connect = s.state
      · simp [System.apply, hstateTimer, hs.early hsame.symm]
      · simp [System.apply, hsame]
  · rintro _ hstate _ ⟨fromTo, hdata⟩
    cases hled with
    | same _ _ hnone hstream =>
      rcases hretryTimer with hretry | hne | ⟨data, hdata'⟩ | hagain
      · simp [System.apply, hretry, hs.retrying hrunning hstate hconnecting ⟨_, hdata⟩]
      · exact absurd hstate hne
      · cases hdata'.symm.trans hdata
      · simp [System.apply, hagain]
    | waiting _ _ _ hwaiting =>
      obtain rfl : state' = .connect := hstate
      exact absurd hwaiting id
    | established => cases hstate
    | connect => simp [System.apply]
  · rintro _ ⟨hstate, hdata⟩ hne
    cases hled with
    | same => exact absurd (by simp [System.apply, hqueue]) hne
    | waiting _ _ _ hwaiting =>
      obtain rfl : state' = .connect := hstate
      exact absurd hwaiting id
    | established => cases hstate
    | connect => simp [System.apply]
  · intro hstate
    cases hled with
    | same _ _ hnone hstream => simp [System.apply, hstream]
    | waiting => simp [System.apply]
    | established => exact absurd rfl hstate
    | connect => simp [System.apply]
  · exact fun h => absurd hrunning h
  · intro h
    cases hrunning.symm.trans h

/-- **An event that does not stop the process** loses no stanza, and keeps something pending where
the process stays refused with a timer. -/
theorem Kept.apply (hkept : Kept s) (hrunning : s.phase = .running)
    (hled : Led s.state s.data (.next state' data' actions effects))
    (hs : Shaped ({ s with timers := timers }.apply (.next state' data' actions effects)))
    (hconnecting : s.connecting = none)
    (hrefused : s.Refused → s.postponed ≠ [] → timers.retry = true ∨ timers.activate = true) :
    Kept ({ s with timers := timers }.apply (.next state' data' actions effects)) := by
  refine ⟨fun stanza hbounces => ?_, ?_, fun _ hne => ?_⟩
  · have hcount := count_apply { s with timers := timers } state' data' actions effects stanza
    have hbefore := hkept.once stanza hbounces
    simp only [System.apply] at hcount ⊢
    omega
  · intro h
    cases hrunning.symm.trans h
  · by_cases hwaiting : state'.Waiting
    · exact .inr (.inl (hs.waiting hrunning hwaiting))
    · cases hled with
      | same _ _ hnone hstream =>
        cases hstate : s.state with
        | connect =>
          cases hdata : s.data with
          | fromTo fromTo =>
            exact .inr (.inr (.inr (.inl (hs.retrying hrunning hstate hconnecting ⟨_, hdata⟩))))
          | s2sData data =>
            have hkeeps : s.postponed ≠ [] := by
              simpa [System.apply] using hne
            rcases hrefused ⟨hstate, data, hdata⟩ hkeeps with hretry | hactivate
            · exact .inr (.inr (.inr (.inl (by simp [System.apply, hretry]))))
            · exact .inr (.inr (.inr (.inr (by simp [System.apply, hactivate]))))
        | streamEstablished => exact absurd (hs.handled (.inl hstate)) hne
        | _ =>
          rw [hstate] at hwaiting
          exact absurd trivial hwaiting
      | waiting _ _ _ h => exact absurd h hwaiting
      | established => exact absurd (hs.handled (.inl rfl)) hne
      | connect => exact .inr (.inr (.inr (.inl (by simp [System.apply]))))

variable {lib : Lib} {opts : Opts} {env : Env}

/-- **An event** is right exactly if it does not stop the process while stanzas are postponed, and
does not use up the last timer of a refused process that has some. -/
theorem Shaped.event (hs : Shaped s) (hrunning : s.phase = .running)
    (hconnecting : s.connecting = none) (hqueue : s.queue = [])
    (hfire : s.timers.fire e = some timers) :
    let s' := { s with timers := timers }.apply (handleEvent lib opts env e s.state s.data)
    Shaped s' ∧ (Kept s → (Kept s' ↔
      ((∃ effects, handleEvent lib opts env e s.state s.data = .stop effects) →
          ∀ stanza ∈ s.postponed, stanza.bounces = false) ∧
        (s.Refused → (e = .waitBeforeRetry → s.postponed = [] ∨ s.timers.activate = true) ∧
          (e = .activateSocket → s.postponed = [] ∨ s.timers.retry = true)))) := by
  obtain ⟨hstateTimer, hretryTimer, hactivateTimer, hretried, hactivated⟩ :=
    Timers.fire_eq_some hfire
  -- in a refused process these two timers change nothing
  have hrefusedEvent : s.Refused → e = .waitBeforeRetry ∨ e = .activateSocket →
      handleEvent lib opts env e s.state s.data = .next s.state s.data {} [] := by
    rintro ⟨-, data, hdata⟩ he
    rw [hdata]
    exact handleEvent_refused he
  have hled := handleEvent_led lib opts env e s.state s.data
  cases houtcome : handleEvent lib opts env e s.state s.data with
  | stop effects =>
    refine ⟨.terminate hconnecting, fun hkept => ?_⟩
    show Kept s.terminate ↔ _
    rw [hkept.terminate hqueue]
    constructor
    · intro hdropped
      refine ⟨fun _ => hdropped, fun hrefused => ⟨fun he => ?_, fun he => ?_⟩⟩
      · cases houtcome.symm.trans (hrefusedEvent hrefused (.inl he))
      · cases houtcome.symm.trans (hrefusedEvent hrefused (.inr he))
    · exact fun hok => hok.1 ⟨effects, rfl⟩
  | next state' data' actions effects =>
    rw [houtcome] at hled
    have hstate : timers.state = s.timers.state := by
      refine hstateTimer ?_
      rintro rfl
      obtain ⟨effects', hstop⟩ := handleEvent_stateTimeout lib opts env s.state s.data
      cases houtcome.symm.trans hstop
    have hretry : timers.retry = s.timers.retry ∨ state' ≠ .connect ∨
        (∃ data, data' = .s2sData data) ∨ actions.waitBeforeRetry = true := by
      by_cases he : e = .waitBeforeRetry
      · subst he
        cases hdata : s.data with
        | fromTo fromTo =>
          rw [hdata] at houtcome
          simp only [handleEvent, bounceAndDisconnect] at houtcome
          split at houtcome
          · split at houtcome
            · cases houtcome
            · cases houtcome
              exact .inr (.inl (by simp))
          · rename_i hne
            cases houtcome
            exact .inr (.inl hne)
        | s2sData data =>
          rw [hdata] at houtcome
          cases houtcome
          exact .inr (.inr (.inl ⟨data, rfl⟩))
      · exact .inl (hretryTimer he)
    have hshaped := hs.apply hrunning hconnecting hqueue hstate hretry hled
    refine ⟨hshaped, fun hkept => ⟨fun hafter => ⟨?_, fun hrefused => ?_⟩, fun hok => ?_⟩⟩
    · rintro ⟨_, hstop⟩
      cases hstop
    · -- the process stays refused, and only the other of the two timers can be left
      have hleft : e = .waitBeforeRetry ∨ e = .activateSocket → s.postponed ≠ [] →
          timers.retry = true ∨ timers.activate = true := by
        intro he hne
        cases houtcome.symm.trans (hrefusedEvent hrefused he)
        have hpending := hafter.pending hrunning (by simpa [System.apply] using hne)
        simpa [System.Pending, System.apply, hconnecting, hstate, hs.early hrefused.1]
          using hpending
      constructor
      · intro he
        by_cases hne : s.postponed = []
        · exact .inl hne
        · have := hleft (.inl he) hne
          rw [hretried he, hactivateTimer (by rw [he]; simp)] at this
          exact .inr (by simpa using this)
      · intro he
        by_cases hne : s.postponed = []
        · exact .inl hne
        · have := hleft (.inr he) hne
          rw [hactivated he, hretryTimer (by rw [he]; simp)] at this
          exact .inr (by simpa using this)
    · refine hkept.apply hrunning hled hshaped hconnecting fun hrefused hne => ?_
      by_cases hwait : e = .waitBeforeRetry
      · rw [hactivateTimer (by rw [hwait]; simp)]
        exact .inr (((hok.2 hrefused).1 hwait).resolve_left hne)
      · rw [hretryTimer hwait]
        by_cases hactivate : e = .activateSocket
        · exact .inl (((hok.2 hrefused).2 hactivate).resolve_left hne)
        · rw [hactivateTimer hactivate]
          have hpending := hkept.pending hrunning hne
          have hstream : s.timers.stream = false := hs.stream (by rw [hrefused.1]; simp)
          simpa [System.Pending, hconnecting, hs.early hrefused.1, hstream] using hpending

/-- **The connection attempt.** -/
theorem Shaped.connect (hs : Shaped s) (hrunning : s.phase = .running)
    (hconnecting : s.connecting.isSome = true) (processType : ProcessType) :
    let s' := { s with connecting := none }.apply
      (handleEvent lib opts env (.connect processType) s.state s.data)
    Shaped s' ∧ (Kept s → Kept s') := by
  obtain ⟨hstate, ⟨fromTo, hdata⟩, hpostponed, hqueue⟩ := hs.connecting hconnecting
  -- the process before the attempt, with the timer that it gets if the attempt fails
  have hbefore : Shaped
      { s with connecting := none, timers := { s.timers with retry := true } } := by
    refine { hs with
        connecting := (fun h => nomatch h)
        retrying := fun _ _ _ _ => rfl
        refused := fun _ _ _ => rfl }
  have hkeeps : Kept s →
      Kept { s with connecting := none, timers := { s.timers with retry := true } } := by
    intro hkept
    exact ⟨hkept.once, hkept.ended, fun _ hne => absurd hpostponed hne⟩
  have hled := handleEvent_led lib opts env (.connect processType) s.state s.data
  cases houtcome : handleEvent lib opts env (.connect processType) s.state s.data with
  | stop effects =>
    refine ⟨.terminate rfl, fun hkept => ?_⟩
    refine ((hkeeps hkept).terminate hqueue).2 ?_
    intro stanza hmem
    rw [hpostponed] at hmem
    cases hmem
  | next state' data' actions effects =>
    rw [houtcome] at hled
    have hretry : state' ≠ .connect ∨ actions.waitBeforeRetry = true := by
      rw [hdata] at houtcome
      simp only [handleEvent, handleConnect] at houtcome
      split at houtcome
      · cases houtcome
      · split at houtcome
        · cases houtcome
          exact .inr rfl
        · cases houtcome
          exact .inl (by simp)
    have htimer : s.timers.state = ({ s.timers with retry := true } : Timers).state := rfl
    have hshaped := hbefore.apply hrunning rfl hqueue htimer (.inr (hretry.imp id .inr)) hled
    refine ⟨hshaped, fun hkept => ?_⟩
    refine (hkeeps hkept).apply hrunning hled hshaped rfl fun hrefused => ?_
    obtain ⟨-, data, hdata'⟩ := hrefused
    cases hdata.symm.trans hdata'

theorem stepOk_iff {e : Step} (hstep : step lib opts s e = some s') :
    StepOk lib opts s e ↔ Drained lib opts s e := by
  rw [StepOk, hstep]
  simp

/-- **A step of the process.** -/
theorem Shaped.step (hs : Shaped s) {e : Step} (hstep : Out.step lib opts s e = some s') :
    Shaped s' ∧ (Kept s → (Kept s' ↔ StepOk lib opts s e)) := by
  rw [stepOk_iff hstep]
  cases e with
  | route stanza =>
    simp only [Out.step] at hstep
    split at hstep
    · cases hstep
    · rename_i hphase
      cases hstep
      refine ⟨?_, fun hkept => iff_of_true ?_ trivial⟩
      · exact { hs with ended := fun h => absurd h hphase }
      · refine ⟨fun a hbounces => ?_, fun h => absurd h hphase, hkept.pending⟩
        have := hkept.once a hbounces
        simp only [count_append]
        omega
  | receive =>
    simp only [Out.step] at hstep
    split at hstep
    · rename_i stanza mailbox hrunning hconnecting hqueue hmailbox
      cases hstep
      have hbefore : Shaped { s with mailbox := mailbox } :=
        { hs with ended := fun h => nomatch hrunning.symm.trans h }
      refine ⟨hbefore.route hconnecting stanza hrunning, fun hkept => ?_⟩
      refine Kept.route hbefore hconnecting hrunning fun a hbounces => ?_
      have := hkept.once a hbounces
      rw [hmailbox] at this
      simp only [count_cons, count_nil] at this ⊢
      omega
    · cases hstep
  | retry =>
    simp only [Out.step] at hstep
    split at hstep
    · rename_i stanza queue hrunning hqueue
      cases hstep
      have hconnecting : s.connecting = none := by
        by_contra h
        have := (hs.connecting (Option.ne_none_iff_isSome.1 h)).2.2.2
        rw [hqueue] at this
        cases this
      have hbefore : Shaped { s with queue := queue } := by
        refine { hs with connecting := ?_, refused := ?_, stopped := ?_ }
        · intro h
          rw [hconnecting] at h
          cases h
        · intro _ hrefused _
          exact hs.refused hrunning hrefused (by rw [hqueue]; simp)
        · exact fun h => absurd hrunning h
      refine ⟨hbefore.route hconnecting stanza hrunning, fun hkept => ?_⟩
      refine (Kept.route hbefore hconnecting hrunning fun a hbounces => ?_).trans ?_
      · have := hkept.once a hbounces
        rw [hqueue] at this
        simp only [count_cons, count_nil] at this ⊢
        omega
      · -- the timer that the refusal starts still runs
        refine iff_of_true (fun hrefused => .inl ?_) trivial
        exact hs.refused hrunning hrefused (by rw [hqueue]; simp)
    · cases hstep
  | event env e =>
    simp only [Out.step] at hstep
    split at hstep
    · -- the connection attempt, before which nothing is postponed
      rename_i processType processType' hrunning hconnecting hqueue
      cases hstep
      have hsome : s.connecting.isSome = true := by rw [hconnecting]; rfl
      obtain ⟨-, ⟨fromTo, hdata⟩, hpostponed, -⟩ := hs.connecting hsome
      obtain ⟨hshaped, hkept⟩ := hs.connect hrunning hsome processType
      refine ⟨hshaped, fun h => iff_of_true (hkept h) ⟨fun _ stanza hmem => ?_, fun hrefused => ?_⟩⟩
      · rw [hpostponed] at hmem
        cases hmem
      · obtain ⟨-, data, hdata'⟩ := hrefused
        cases hdata.symm.trans hdata'
    · cases hstep
    · cases hstep
    · rename_i hrunning hconnecting hqueue hne
      obtain ⟨timers, hfire, hstep⟩ := Option.bind_eq_some_iff.1 hstep
      cases hstep
      exact hs.event hrunning hconnecting hqueue hfire
    · cases hstep
  | exited =>
    simp only [Out.step] at hstep
    split at hstep
    · rename_i hclosing
      cases hstep
      obtain ⟨hqueue, hpostponed⟩ := hs.stopped (by rw [hclosing]; simp)
      refine ⟨?_, fun hkept => ⟨fun hafter stanza hmem => ?_, fun hdropped => ?_⟩⟩
      · exact ⟨hs.connecting, hs.handled, (fun h => nomatch h), hs.early, (fun h => nomatch h),
          (fun h => nomatch h), hs.stream, fun _ => ⟨hqueue, hpostponed⟩, fun _ => rfl⟩
      · by_contra hbounces
        rw [Bool.not_eq_false] at hbounces
        have hpositive := count_pos_iff.2 hmem
        have hbefore := hkept.once stanza hbounces
        have := hafter.once stanza hbounces
        simp only [count_nil] at this
        omega
      · have hcount : ∀ stanza, stanza.bounces = true →
            s.written.count stanza + (s.bounced.map Prod.fst).count stanza =
              s.routed.count stanza := by
          intro stanza hbounces
          have hnone : s.mailbox.count stanza = 0 := by
            refine count_eq_zero.2 fun hmem => ?_
            rw [hdropped stanza hmem] at hbounces
            cases hbounces
          have hbefore := hkept.once stanza hbounces
          rw [hqueue, hpostponed, hnone] at hbefore
          simpa using hbefore
        refine ⟨fun stanza hbounces => ?_, fun _ => hcount, fun h => nomatch h⟩
        have := hcount stanza hbounces
        simp only [hqueue, hpostponed, count_nil]
        omega
    · cases hstep

/-- **Outgoing server streams lose no stanza silently**, and have something pending while stanzas
are postponed, in every state of a run exactly if every step of the run meets `StepOk`. -/
theorem outgoing_stanzas_answered (lib : Lib) (opts : Opts) (fromTo : FromTo)
    (processType : ProcessType) (es : List Step) :
    Guarded (Out.step lib opts) (StepOk lib opts) (Out.init fromTo processType) es ↔
    ∀ h s, h <+: es → run (Out.step lib opts) (Out.init fromTo processType) h = some s →
      Kept s := by
  rw [guarded_iff_holds_along_of_broken (P := fun _ s => Shaped s ∧ Kept s) ?_
    (fun _ s e s' hP hstep => by
      obtain ⟨hshaped, hiff⟩ := hP.1.step hstep
      rw [← hiff hP.2]
      exact ⟨And.right, fun h => ⟨hshaped, h⟩⟩)
    ⟨Shaped.init fromTo processType, Kept.init fromTo processType⟩ es]
  · have hshaped : ∀ h s, run (Out.step lib opts) (Out.init fromTo processType) h = some s →
        Shaped s := by
      intro h s hrun
      exact run_induction (P := fun _ s => Shaped s)
        (fun _ s e s' hs hstep => (Shaped.step hs hstep).1) (Shaped.init fromTo processType) hrun
    constructor
    · intro hall h s hinit hrun
      exact (hall h s hinit hrun).2
    · intro hall h s hinit hrun
      exact ⟨hshaped h s hrun, hall h s hinit hrun⟩
  · -- the condition is about steps that exist
    intro _ s e _ hbroken
    rw [StepOk, Classical.not_imp] at hbroken
    exact Option.isSome_iff_exists.1 hbroken.1

end

/-! ### Stanzas that nobody answers -/

/-- The libraries, for names that are normalised already. -/
def plainLib : Lib where
  nameprep := some
  fromBinary _ := none
  mimeDecode := some
  encode := id
  domainUtf8ToAscii := some

/-- A node that reaches the remote server. -/
def reachingNode : Env where
  getHostType _ := some "localhost"
  openSocket _ _ := some false
  handshake := true
  key _ _ _ := "key"
  newStreamid := "id"

/-- A message of Alice to Bob. -/
def chat : Stanza where
  sender := ⟨"alice", "local.example", ""⟩
  recipient := ⟨"bob", "remote.example", ""⟩
  element := .mk "message" [("type", "chat")] [] ""

/-- The remote server accepts the connection and then says nothing. -/
def silentRun : List Step :=
  [.route chat, .event reachingNode (.connect .new), .receive, .event reachingNode .stateTimeout,
    .exited]

/-- The remote server offers neither dialback nor SASL EXTERNAL. -/
def refusedRun : List Step :=
  [.event reachingNode (.connect .new),
    .event reachingNode (.streamStart
      [("xmlns", nsServer), ("version", "1.0"), ("id", "1"), ("from", "remote.example")]),
    .event reachingNode (.element (.mk "stream:features" [] [] "")),
    .event reachingNode .waitBeforeRetry, .route chat, .receive]

/-- **A postponed stanza is lost** when the state timeout stops the process, and waits for nothing
after the peer has refused. -/
theorem postponed_stanza_lost : (∃ s, run (Out.step plainLib ⟨some .starttls⟩)
      (Out.init ⟨"local.example", "remote.example"⟩ .new) silentRun = some s ∧
    s.phase = .ended ∧ s.routed = [chat] ∧ s.written = [] ∧ s.bounced = [] ∧ ¬ Kept s) ∧
    ∃ s, run (Out.step plainLib ⟨some .starttls⟩)
      (Out.init ⟨"local.example", "remote.example"⟩ .new) refusedRun = some s ∧
    s.phase = .running ∧ s.postponed = [chat] ∧ ¬ s.Pending ∧ ¬ Kept s := by
  constructor
  · refine ⟨_, rfl, rfl, rfl, rfl, rfl, fun hkept => ?_⟩
    have hanswered := hkept.ended rfl chat rfl
    have hnone : (0 : ℕ) = [chat].count chat := hanswered
    simp at hnone
  · have hpending : ∀ s : System, s.connecting = none → s.timers = {} → ¬ s.Pending := by
      intro s hconnecting htimers
      simp [System.Pending, hconnecting, htimers]
    refine ⟨_, rfl, rfl, rfl, hpending _ rfl rfl, fun hkept => ?_⟩
    exact hpending _ rfl rfl (hkept.pending rfl (cons_ne_nil chat []))

end MongooseIM.S2S.Out
