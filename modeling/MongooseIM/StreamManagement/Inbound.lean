import MongooseIM.C2S.Outcome

/-! # What was received and what is reported

The counter of received stanzas that a session reports is the number of stanzas that the client has
sent since stream management was enabled, as long as each of them takes a path on which it is
counted and the counter has not reached the point where `incr_counter/1` starts again. -/

namespace MongooseIM.StreamManagement

open Xmpp C2S Transition

variable {server : Server}

/-! ## Counting -/

/-- The number of stanzas among the elements that the client sent. -/
def stanzasReceived (els : List Element) : ℕ := els.countP fun el => isStanzaName el.name

@[simp] theorem stanzasReceived_append (els els' : List Element) :
    stanzasReceived (els ++ els') = stanzasReceived els + stanzasReceived els' :=
  List.countP_append

theorem stanzasReceived_event (event : Event) :
    stanzasReceived event.received?.toList = if event.isStanza then 1 else 0 := by
  rw [Event.isStanza]
  cases event.received? with
  | none => rfl
  | some el =>
    rw [Option.toList_some, stanzasReceived, List.countP_singleton, Option.any_some]

/-- A step after which the counter is right: a stanza takes a path on which it is counted, and the
counter is not about to start again. -/
structure InboundOk (server : Server) (p : Process) (input : Input) : Prop where
  path : ∀ event, p.event? input = some event → event.isStanza = true →
    isCountedPath server input.oracle p.data p.state event = true
  noWrap : ∀ event smState, p.event? input = some event → event.isStanza = true →
    p.data.stateMod = some smState → smState.counterIn < 2 ^ 32 - 2

/-- A session that has counted so many stanzas, itself or in the sessions it resumed. -/
def HasCounted (n : ℕ) (data : Data) : Prop :=
  ∃ smState, data.stateMod = some smState ∧ smState.counterIn = n

variable {n : ℕ}

theorem HasCounted.map_counterIn {data : Data} (h : HasCounted n data) :
    data.stateMod.map SmState.counterIn = some n := by
  obtain ⟨smState, hsm, rfl⟩ := h
  rw [hsm]
  rfl

theorem hasCounted_iff {data : Data} :
    HasCounted n data ↔ data.stateMod.map SmState.counterIn = some n :=
  ⟨HasCounted.map_counterIn, fun h => by
    obtain ⟨smState, hsm, hn⟩ := Option.map_eq_some_iff.1 h
    exact ⟨smState, hsm, hn⟩⟩

/-- The counter is right after what the client has sent since the start of a run. -/
structure Counting (n : ℕ) (received : List Element) (p : Process) : Prop where
  phase_eq : p.stopped = none → p.state.phase = .bound
  /-- The counter is that of the start and what was received since. -/
  hasCounted : ∃ since, p.received = received ++ since ∧
    HasCounted (n + stanzasReceived since) p.data

theorem counting_refl {p : Process} (hphase : p.state.phase = .bound)
    (h : HasCounted n p.data) : Counting n p.received p :=
  ⟨fun _ => hphase, [], (List.append_nil _).symm, h⟩

/-- Below the point where it starts again, the counter counts. -/
theorem incrCounter_of_lt (h : n < 2 ^ 32 - 2) : incrCounter n = n + 1 := by
  rw [incrCounter, if_pos]
  rw [hMax]
  omega

/-- **What an event does to the counter** of a session that goes on. -/
theorem counterIn_outcome {oracle : Oracle} {data data' : Data} {state state' : State}
    {event : Event} {actions : List Action} {smState : SmState}
    (hphase : state.phase = .bound) (hsm : data.stateMod = some smState)
    (h : Outcome server oracle data state event (.next state' data' n actions)) :
    data'.stateMod.map SmState.counterIn =
    some (if isCounted server oracle data state event then incrCounter smState.counterIn
      else smState.counterIn) := by
  cases h with
  | idle hcount => rw [hsm, hcount]; rfl
  | count hsm' hcount =>
    cases (hsm.symm.trans hsm')
    rw [hcount]
    rfl
  | reply hcount => rw [hsm, hcount]; rfl
  | enable _ _ hsm' =>
    rw [hsm] at hsm'
    cases hsm'
  | ack hcount hsm' hack =>
    cases (hsm.symm.trans hsm')
    obtain ⟨newSize, -, -, rfl⟩ := doHandleAck_ok hack
    rw [hcount]
    rfl
  | unbuffered hcount => rw [hsm, hcount]; rfl
  | buffered hcount _ hsm' =>
    cases (hsm.symm.trans hsm')
    rw [hcount]
    rfl
  | suspend hcount hsm' =>
    cases (hsm.symm.trans hsm')
    rw [hcount]
    rfl
  | header _ hwait => rw [hwait] at hphase; cases hphase
  | restart _ hwait => rw [hwait] at hphase; cases hphase
  | login _ hphase' => rw [hphase'] at hphase; cases hphase
  | bind _ _ hphase' => rw [hphase'] at hphase; cases hphase
  | resume _ hphase' => rw [hphase'] at hphase; cases hphase

/-- **What a step does to the counter.** -/
theorem counting_step (n : ℕ) (received : List Element) (p : Process) (input : Input) (q : Process)
    (hp : Counting n received p) (hok : InboundOk server p input)
    (h : step server p input = some q) : Counting n received q := by
  obtain ⟨hrunning, event, queue, timers, summary, hreceive, -, -, houtcome, hfollows⟩ :=
    step_outcome h
  have hevent : p.event? input = some event := by rw [Process.event?, hreceive]; rfl
  have hphase := hp.phase_eq hrunning
  obtain ⟨since, hsince, smState, hsm, hn⟩ := hp.hasCounted
  -- every stanza that is received is counted
  have hcount : isCounted server input.oracle p.data p.state event = event.isStanza := by
    rw [isCounted, hsm, Option.isSome_some, Bool.true_and]
    cases hstanza : event.isStanza with
    | false => rfl
    | true => rw [hok.path event hevent hstanza]; rfl
  have hafter : q.received = p.received ++ event.received?.toList ∧
      (q.stopped = none → q.state.phase = .bound) ∧
      q.data.stateMod.map SmState.counterIn =
        some (if event.isStanza then incrCounter smState.counterIn else smState.counterIn) := by
    cases hfollows with
    | stop hstopped hdata hreceived =>
      cases houtcome with
      | stop hnot hsame =>
        refine ⟨hreceived, fun hq => ?_, ?_⟩
        · rw [hq] at hstopped
          cases hstopped
        · rw [hdata, hsame, hsm, ← hcount, hnot]
          rfl
    | next _ hstate hdata _ _ _ _ hreceived =>
      refine ⟨hreceived, fun _ => ?_, ?_⟩
      · rw [hstate]
        exact houtcome.bound hphase
      · rw [hdata, ← hcount]
        exact counterIn_outcome hphase hsm houtcome
  obtain ⟨hreceived, hphase', hcounter⟩ := hafter
  refine ⟨hphase', since ++ event.received?.toList, ?_, ?_⟩
  · rw [hreceived, hsince, List.append_assoc]
  · rw [hasCounted_iff, hcounter, stanzasReceived_append, stanzasReceived_event]
    split_ifs with hstanza
    · rw [incrCounter_of_lt (hok.noWrap event _ hevent hstanza hsm), hn, Nat.add_assoc]
    · rw [hn, Nat.add_zero]

/-! ## Reports -/

/-- The messages that are recovered do not change the counter. -/
theorem counterIn_recoverMessages (smState : SmState) (routed : List Acc) :
    (recoverMessages smState routed).counterIn = smState.counterIn := by
  induction routed generalizing smState with
  | nil => rfl
  | cons acc routed ih =>
    rw [recoverMessages, List.foldl_cons]
    refine (ih _).trans ?_
    rw [maybeBufferAcc]
    split <;> rfl

theorem counterIn_pipelineFutureSmState (data : Data) (smState : SmState) (mailbox : List Acc) :
    (pipelineFutureSmState data smState mailbox).counterIn = smState.counterIn :=
  counterIn_recoverMessages _ mailbox

/-- What `maybe_handle_stream_mgmt_reroute/6` does to the tables of the backend when a session
terminates: a session that waits for its resumption is removed twice. -/
def rerouteRegistry {Table : Type} (b : Backend String Sid Table) (isStaleHEnabled : Bool)
    (state : State) (data : Data) (r : Registry String Table) : Registry String Table :=
  match data.stateMod with
  | none => r
  | some smState =>
    let remove (r : Registry String Table) : Registry String Table :=
      (doRemoveSmid b isStaleHEnabled data.sid (some smState.counterIn) r).2
    if state = .extResumeSession then remove (remove r) else remove r

/-- What a session reports as the number of stanzas it has received. -/
structure Reports (server : Server) (n : ℕ) (p : Process) : Prop where
  ack (hookAcc : HookAcc) :
    handleR p.data hookAcc = ⟨.ok, hookAcc.toAcc [.socketSend [streamMgmtAck n]], []⟩
  /-- The session that resumes this one gets its counter and tells it to the client. -/
  resumed {sender : From} {h : ℕ} {mailbox : List Acc} {keep : SmState} {outputs : List Output}
    (hcall : handleResumeCall p.data sender h mailbox = (.ok keep, outputs)) :
    ∃ old, outputs = streamErrorOutputs (streamError "conflict") ++ [.replyData sender old] ∧
      HasCounted n old ∧ ∀ (new : Data) (smid : String), ∃ forward,
        doResume server (mergeStates old new) smid =
          .ok (streamMgmtResumed smid n) forward (mergeStates old new)
  /-- The counter that is kept when the session is gone. -/
  staleH {Table : Type} (b : Backend String Sid Table) (isStaleHEnabled : Bool)
    (r : Registry String Table) (smid : String) (h : ℕ) :
    (rerouteRegistry b isStaleHEnabled p.state p.data r).staleH.lookup smid = some h →
      r.staleH.lookup smid = some h ∨ h = n

/-- A session that is removed leaves its counter, if anything. -/
theorem staleH_doRemoveSmid {Table : Type} {b : Backend String Sid Table} {isStaleHEnabled : Bool}
    {sid : Sid} {n h : ℕ} {r : Registry String Table} {smid : String}
    (hlookup : (doRemoveSmid b isStaleHEnabled sid (some n) r).2.staleH.lookup smid = some h) :
    r.staleH.lookup smid = some h ∨ h = n := by
  simp only [doRemoveSmid] at hlookup
  split at hlookup
  · next smid' n' _ hn =>
    cases hn
    rw [registerStaleSmidH] at hlookup
    split at hlookup
    · rw [Erlang.lookup_insert] at hlookup
      split at hlookup
      · exact .inr (Option.some.inj hlookup).symm
      · exact .inl hlookup
    · exact .inl hlookup
  · exact .inl hlookup

/-- A session that resumes another one tells the client what the other has counted. -/
theorem doResume_of_hasCounted {old : Data} (h : HasCounted n old) (new : Data)
    (smid : String) : ∃ forward, doResume server (mergeStates old new) smid =
    .ok (streamMgmtResumed smid n) forward (mergeStates old new) := by
  obtain ⟨smState, hsm, rfl⟩ := h
  rw [doResume, show (mergeStates old new).stateMod = some smState from hsm]
  exact ⟨_, rfl⟩

theorem reports_of_hasCounted {p : Process} (hp : HasCounted n p.data) : Reports server n p := by
  obtain ⟨smState, hsm, rfl⟩ := hp
  constructor
  · intro hookAcc
    rw [handleR, hsm]
  · intro sender h mailbox keep outputs hcall
    obtain ⟨smState0, smState1, hsm0, hack, -, rfl⟩ := handleResumeCall_ok hcall
    cases (hsm.symm.trans hsm0)
    obtain ⟨newSize, -, -, hsm1⟩ := doHandleAck_ok hack
    have hcounted : HasCounted smState.counterIn
        (p.data.mergeModState (pipelineFutureSmState p.data smState1 mailbox)) :=
      ⟨_, rfl, by rw [counterIn_pipelineFutureSmState, hsm1]⟩
    exact ⟨_, rfl, hcounted, fun new smid => doResume_of_hasCounted hcounted new smid⟩
  · intro Table b isStaleHEnabled r smid h hlookup
    simp only [rerouteRegistry, hsm] at hlookup
    split at hlookup
    · -- the second removal finds what the first has left
      rcases staleH_doRemoveSmid hlookup with hlookup | rfl
      · exact staleH_doRemoveSmid hlookup
      · exact .inr rfl
    · exact staleH_doRemoveSmid hlookup

/-- **The counter is right.** In every run of steps that count the stanzas they receive, a session
that has counted `n` reports `n` and those received since. -/
theorem inbound_counted {p q : Process} {inputs : List Input} {n : ℕ}
    (hphase : p.state.phase = .bound) (hp : HasCounted n p.data)
    (hg : Guarded (step server) (InboundOk server) p inputs)
    (hrun : run (step server) p inputs = some q) :
    ∃ since, q.received = p.received ++ since ∧ HasCounted (n + stanzasReceived since) q.data ∧
    Reports server (n + stanzasReceived since) q := by
  obtain ⟨-, since, hsince, hcounted⟩ := run_invariant (counting_step n p.received)
    (counting_refl hphase hp) hg hrun
  exact ⟨since, hsince, hcounted, reports_of_hasCounted hcounted⟩

/-- A message that has no `to`. -/
def plainMessage : Element := .mk "message" [] [.mk "body" [] [] "hello"] ""

/-- A session that has just enabled stream management counts a message. -/
theorem inbound_counted_message : ∃ q since,
    run (step (exampleServer (.limit 100))) (exampleSession (.limit 100) ⟨1, 1⟩ "alice")
      [socketElement plainMessage, .next {}] = some q ∧
    q.received = (exampleSession (.limit 100) ⟨1, 1⟩ "alice").received ++ since ∧
    HasCounted (0 + stanzasReceived since) q.data ∧
    Reports (exampleServer (.limit 100)) (0 + stanzasReceived since) q := by
  have hg : Guarded (step (exampleServer (.limit 100))) (InboundOk (exampleServer (.limit 100)))
      (exampleSession (.limit 100) ⟨1, 1⟩ "alice") [socketElement plainMessage, .next {}] := by
    refine (guarded_cons _ _ _).2 ⟨⟨?_, ?_⟩, fun p1 h1 => ?_⟩
    · intro event hevent hstanza
      cases hevent
      cases hstanza
    · intro event smState hevent hstanza
      cases hevent
      cases hstanza
    · cases h1
      refine (guarded_cons _ _ _).2 ⟨⟨?_, ?_⟩, fun _ _ => guarded_nil _⟩
      · intro event hevent hstanza
        cases hevent
        rfl
      · intro event smState hevent hstanza hsm
        cases hsm
        decide
  obtain ⟨q, hq⟩ : ∃ q,
      run (step (exampleServer (.limit 100))) (exampleSession (.limit 100) ⟨1, 1⟩ "alice")
        [socketElement plainMessage, .next {}] = some q := ⟨_, rfl⟩
  obtain ⟨since, h⟩ := inbound_counted rfl ⟨_, rfl, rfl⟩ hg hq
  exact ⟨q, since, hq, h⟩

/-- A session that has counted so many stanzas. -/
def countedSession (n : ℕ) : Process :=
  let p := exampleSession (.limit 100) ⟨1, 1⟩ "alice"
  { p with data := p.data.mergeModState { buildSmHandler (.limit 100) (.every 1) with counterIn := n } }

/-- The client sends a message. After a malformed `to` the session reports that it has received
nothing, and after `2 ^ 32 - 2` stanzas it reports `0` and not `2 ^ 32 - 1`. -/
theorem inbound_miscounted :
    (∃ q, run (step (exampleServer (.limit 100))) (exampleInit ⟨1, 1⟩) (enableInputs "alice") =
      some (exampleSession (.limit 100) ⟨1, 1⟩ "alice") ∧
    run (step (exampleServer (.limit 100))) (exampleSession (.limit 100) ⟨1, 1⟩ "alice")
      [socketElement (.mk "message" [("to", "@")] [] ""), .next {}] = some q ∧
    q.received = (exampleSession (.limit 100) ⟨1, 1⟩ "alice").received ++
      [.mk "message" [("to", "@")] [] ""] ∧
    HasCounted 0 q.data ∧ ¬ 0 ≡ 1 [MOD 2 ^ 32]) ∧
    ∃ q, run (step (exampleServer (.limit 100))) (countedSession (2 ^ 32 - 2))
      [socketElement plainMessage, .next {}] = some q ∧
    q.received = (countedSession (2 ^ 32 - 2)).received ++ [plainMessage] ∧
    HasCounted 0 q.data ∧ ¬ 0 ≡ 2 ^ 32 - 2 + 1 [MOD 2 ^ 32] :=
  ⟨⟨_, run_enableInputs _ _ _, rfl, rfl, ⟨_, rfl, rfl⟩, by decide⟩,
    ⟨_, rfl, rfl, ⟨_, rfl, rfl⟩, by decide⟩⟩

end MongooseIM.StreamManagement
