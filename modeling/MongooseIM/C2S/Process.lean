import MongooseIM.C2S.HandleEvent
import MongooseIM.Transition.Run

/-! # The process of a client session

`gen_statem` around the callbacks of `mongoose_c2s` and `mod_stream_management`: the events that the
callbacks ask for come before those from outside, a timeout replaces the pending timeout of its
name, and the callback module can be pushed and popped. `Process` also keeps a log of what the
client sent and of what the process did to the outside. -/

namespace MongooseIM.C2S

open Xmpp StreamManagement

/-! ## Actions -/

/-- The event that an action puts in front of all others. -/
def Action.nextEvent? : Action → Option Event
  | .nextEvent event => some event
  | _ => none

/-- The pending timeouts, by name. -/
abbrev Timers := TimerName → Option Payload

/-- An action on the pending timeouts: a name has at most one. -/
def Action.setTimer (timers : Timers) : Action → Timers
  | .timeout name _ payload => Function.update timers name (some payload)
  | .cancelTimeout name => Function.update timers name none
  | _ => timers

/-- An action on the stack of callback modules. -/
def Action.changeCallback (callback : List CallbackModule) : Action → List CallbackModule
  | .pushCallbackModule module => module :: callback
  | .popCallbackModule => callback.tail
  | _ => callback

/-! ## Processes -/

/-- The process of a session. -/
structure Process where
  data : Data
  state : State
  queue : List Event := []
  timers : Timers := fun _ => none
  callback : List CallbackModule := [.mongooseC2s]
  /-- The elements that the client sent and that were handled. -/
  received : List Element := []
  outputs : List Output := []
  stopped : Option Reason := none

/-- A process that is about to handle `{connect, _}`. -/
def Process.init (isBlacklisted : Bool) (lserver : String) (sid : Sid)
    (listenerOpts : ListenerOpts) : Process :=
  { data := { lserver := lserver, sid := sid, listenerOpts := listenerOpts }
    state := .connect
    queue := [.connect isBlacklisted] }

/-- The element of the client that an event carries. -/
def Event.received? : Event → Option Element
  | .xml (.element el) => some el
  | .info (.element el) => some el
  | _ => none

/-- Whether an event comes from outside the process. -/
def Event.isExternal : Event → Bool
  | .info _ => true
  | .cast _ => true
  | .timeout _ _ => true
  | .stateTimeout => true
  | .call _ _ => true
  | _ => false

variable (server : Server)

/-- What the current callback module makes of an event. -/
def Process.handle (oracle : Oracle) (p : Process) (event : Event) : FsmRes :=
  match p.callback with
  | .modStreamManagement :: _ =>
    StreamManagement.handleEvent server oracle p.data p.state event
  | _ => handleEvent server oracle p.data p.state event

variable (p : Process)

/-- The actions that a callback returned, in order. -/
def Process.applyActions (actions : List Action) : Process :=
  { p with
    queue := actions.filterMap Action.nextEvent? ++ p.queue
    timers := actions.foldl Action.setTimer p.timers
    callback := actions.foldl Action.changeCallback p.callback }

/-- What a callback returned. -/
def Process.apply (res : FsmRes) : Process :=
  let p1 := { p with outputs := p.outputs ++ res.outputs }
  match res.next with
  | .nextState state data actions => { p1 with state := state, data := data }.applyActions actions
  | .keepState data actions => { p1 with data := data }.applyActions actions
  | .stop reason data => { p1 with data := data, stopped := some reason }

/-- Handle one event. -/
def Process.take (oracle : Oracle) (p : Process) (event : Event) : Process :=
  { p with received := p.received ++ event.received?.toList }.apply (p.handle server oracle event)

/-- What makes a process step. -/
inductive Input
  | next (oracle : Oracle)
  | event (event : Event) (oracle : Oracle)

/-- What the environment contributes to a step. -/
def Input.oracle : Input → Oracle
  | .next oracle => oracle
  | .event _ oracle => oracle

/-- The event that an input makes the process handle, and the process without it: the queue comes
first, and a timeout fires only while it is pending. -/
def Process.receive : Input → Option (Event × Process)
  | .next _ =>
    match p.queue with
    | [] => none
    | event :: queue => some (event, { p with queue := queue })
  | .event event _ =>
    if p.queue.isEmpty && event.isExternal then
      match event with
      | .timeout name payload =>
        if p.timers name = some payload then
          some (event, { p with timers := Function.update p.timers name none })
        else none
      | _ => some (event, p)
    else none

/-- One step of the process. -/
def step (p : Process) (input : Input) : Option Process :=
  match p.stopped with
  | some _ => none
  | none => (p.receive input).map fun received =>
    received.2.take server input.oracle received.1

/-! ## Steps -/

/-- The event that the next step handles, if the process can step. -/
def Process.event? (input : Input) : Option Event := (p.receive input).map Prod.fst

/-- What taking an event out of the queue or out of the timers leaves. -/
theorem receive_eq_some {p q : Process} {input : Input} {event : Event}
    (h : p.receive input = some (event, q)) :
    ∃ queue timers, q = { p with queue := queue, timers := timers } ∧ (timers = p.timers ∨
      ∃ name payload, event = .timeout name payload ∧ p.timers name = some payload ∧
        timers = Function.update p.timers name none) := by
  rcases input with oracle | ⟨ev, oracle⟩
  · simp only [Process.receive] at h
    split at h
    · cases h
    · cases h
      exact ⟨_, p.timers, rfl, .inl rfl⟩
  · simp only [Process.receive] at h
    split at h
    · split at h
      · split at h
        · next hpending =>
          cases h
          exact ⟨p.queue, _, rfl, .inr ⟨_, _, rfl, hpending, rfl⟩⟩
        · cases h
      · cases h
        exact ⟨p.queue, p.timers, rfl, .inl rfl⟩
    · cases h

/-- Every step handles one event of a running process. -/
theorem step_eq_some {server : Server} {p p' : Process} {input : Input}
    (h : step server p input = some p') :
    p.stopped = none ∧ ∃ event q, p.receive input = some (event, q) ∧
    p' = q.take server input.oracle event := by
  rw [step] at h
  split at h
  · cases h
  · next hrunning =>
    obtain ⟨⟨event, q⟩, hreceive, rfl⟩ := Option.map_eq_some_iff.1 h
    exact ⟨hrunning, event, q, hreceive, rfl⟩

/-! ## A session

The session of a client that logs in at `localhost`, for the runs on fixed inputs. -/

/-- The preparations and addresses of the session. -/
def exampleLibrary : Library where
  nodeprep := some
  nameprep := some
  resourceprep := some
  fromBinary s :=
    [("alice@localhost", Jid.mk "alice" "localhost" ""), ("bob@localhost", ⟨"bob", "localhost", ""⟩),
      ("localhost", ⟨"", "localhost", ""⟩)].lookup s
  rfc3339 _ := ""

variable (bufferMax : BufferMax)

/-- A server with two domains. -/
def exampleServer : Server where
  lib := exampleLibrary
  getDomainHostType domain := [("localhost", "localhost"), ("other.host", "other type")].lookup domain
  bufferMax _ := bufferMax

/-- The data from the socket that hold an element. -/
def socketElement (el : Element) : Input := .event (.info (.socketData [.element el])) {}

/-- A stream header to a domain. -/
def socketHeader (domain : String) : Input :=
  .event (.info (.socketData [.streamStart
    [("xmlns:stream", nsStream), ("version", xmppVersion), ("to", domain)]])) {}

/-- A request to bind the resource `phone`. -/
def bindRequest : Element :=
  .mk "iq" [("type", "set")]
    [.mk "bind" [("xmlns", nsBind)] [.mk "resource" [] [] "phone"] ""] ""

/-- A request to enable stream management with resumption. -/
def enableRequest : Element := .mk "enable" [("xmlns", nsStreamMgnt), ("resume", "true")] [] ""

variable (sid : Sid)

/-- The process of a client that is about to connect. -/
def exampleInit : Process :=
  Process.init false "localhost" sid { backwardsCompatibleSession := false }

variable (user : String)

/-- A client that logs in as a user and restarts the stream. -/
def loginInputs : List Input :=
  [.next {}, socketHeader "localhost", .next {},
    socketElement (saslElement "auth"), .next { sasl := .success user },
    socketHeader "localhost", .next {}]

/-- The session of a user that has logged in. -/
def exampleLogin : Process where
  data :=
    { (exampleInit sid).data with
      hostType := some "localhost"
      jid := some ⟨user, "localhost", ""⟩ }
  state := .waitForFeatureAfterAuth bindRetries
  received := [saslElement "auth"]
  outputs :=
    [.header, .element streamFeatures, .element (saslElement "success"), .header,
      .element streamFeatures]

variable (bufferMax : BufferMax)

theorem run_loginInputs (sid : Sid) (user : String) :
    Transition.run (step (exampleServer bufferMax)) (exampleInit sid) (loginInputs user) =
    some (exampleLogin sid user) := by
  rfl

/-- The session of a user that has bound the resource `phone`. -/
def exampleBound : Process :=
  { exampleLogin sid user with
    data := { (exampleLogin sid user).data with jid := some ⟨user, "localhost", "phone"⟩ }
    state := .sessionEstablished
    received := [saslElement "auth", bindRequest]
    outputs := (exampleLogin sid user).outputs ++
      [.element (successfulResourceBinding ⟨"", .set, nsBind, bindRequest⟩
        ⟨user, "localhost", "phone"⟩)] }

theorem run_bindRequest (sid : Sid) (user : String) :
    Transition.run (step (exampleServer bufferMax)) (exampleLogin sid user)
    [socketElement bindRequest, .next {}] = some (exampleBound sid user) := by
  rfl

/-- The session of a user that has just enabled stream management. -/
def exampleSession (sid : Sid) (user : String) : Process :=
  { exampleBound sid user with
    data :=
      { (exampleBound sid user).data with
        stateMod := some (buildSmHandler bufferMax (.every 1)) }
    received := [saslElement "auth", bindRequest, enableRequest]
    outputs := (exampleBound sid user).outputs ++
      [.registerSmid "smid" sid,
        .element (streamMgmtEnabled [("id", "smid"), ("resume", "true")])] }

theorem run_enableRequest (sid : Sid) (user : String) :
    Transition.run (step (exampleServer bufferMax)) (exampleBound sid user)
    [socketElement enableRequest, .next { newSmid := "smid" }] =
    some (exampleSession bufferMax sid user) := by
  rfl

/-- A client that logs in as a user, binds a resource and enables stream management. -/
def enableInputs : List Input :=
  loginInputs user ++ ([socketElement bindRequest, .next {}] ++
    [socketElement enableRequest, .next { newSmid := "smid" }])

theorem run_enableInputs (sid : Sid) (user : String) :
    Transition.run (step (exampleServer bufferMax)) (exampleInit sid) (enableInputs user) =
    some (exampleSession bufferMax sid user) := by
  rw [enableInputs, Transition.run_append, run_loginInputs, Option.bind_some,
    Transition.run_append, run_bindRequest, Option.bind_some, run_enableRequest]

/-- A message from `bob@localhost`. -/
def exampleMessage : Acc where
  element := .mk "message" [("from", "bob@localhost"), ("to", "alice@localhost")] [] ""
  fromJid := some ⟨"bob", "localhost", ""⟩
  toJid := some ⟨"alice", "localhost", ""⟩

end MongooseIM.C2S
