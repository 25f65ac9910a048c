import MongooseIM.Bosh.Data

/-! # The BOSH session process

The functions of `mongoose_bosh_socket` and, over them, `step`: what one message does to the
session process. The clause of `handle_stream_event/4` that takes a request calls itself through
`process_deferred_events/2` for the requests that were waiting for it; `handleStreamEventWith` is
that clause with the call left open and `handleStreamEvent` closes it, counting the calls. -/

namespace MongooseIM.Bosh

open Erlang Xmpp

/-! ## Comparing request ids -/

/-- `maybe_add/2` -/
def maybeAdd (n : ℕ) : Option ℕ → Option ℕ
  | none => none
  | some rid => some (n + rid)

variable (rid : ℕ)

/-- `Rid1 =< Rid2`; a number comes before the atom `undefined`. -/
def ridLe : Option ℕ → Bool
  | none => true
  | some rid' => rid ≤ rid'

/-- `is_expected_rid/2` -/
def isExpectedRid (expected : Option ℕ) : Bool := some rid = expected

/-- `?CONCURRENT_REQUESTS` -/
def concurrentRequests : ℕ := 2

/-- `is_acceptable_rid/2`; a number is not greater than `undefined`. -/
def isAcceptableRid : Option ℕ → Bool
  | none => false
  | some expected => expected < rid && rid < expected + concurrentRequests

/-- `maybe_is_retransmission/3`: `none` for `false`, `some none` for `{true, none}`. -/
def maybeIsRetransmission (oldRid : Option ℕ) (sent : List CachedResponse) :
    Option (Option CachedResponse) :=
  match sent.find? (·.rid = rid) with
  | some cached => some (some cached)
  | none => if some rid = oldRid then some none else none

/-! ## Timers and messages -/

variable (s : State) (pid : ℕ)

/-- `Pid ! Info` -/
def State.tell (info : Info) : State :=
  { s with world := { s.world with replies := s.world.replies ++ [(pid, info)] } }

/-- `forward_to_c2s/2` -/
def State.forwardToC2s (el : StreamEl) : State :=
  { s with world := { s.world with c2s := s.world.c2s ++ [el] } }

/-- `erlang:cancel_timer/1`: the timer no longer runs; a message it has sent stays. -/
def World.cancelTimer (w : World) (ref : ℕ) : World :=
  { w with running := w.running.filter fun t => t.1 ≠ ref }

/-- `cancel_inactivity_timer/1` -/
def cancelInactivityTimer : State :=
  match s.inactivityTref with
  | none => s
  | some ref => { s with inactivityTref := none, world := s.world.cancelTimer ref }

/-- `setup_inactivity_timer/1` -/
def setupInactivityTimer : State :=
  match s.inactivity with
  | none => s
  | some seconds =>
    let w := (cancelInactivityTimer s).world
    { s with
      inactivityTref := some w.nextRef
      world := { w with running := w.running ++ [(w.nextRef, seconds)], nextRef := w.nextRef + 1 } }

/-! ## Responses -/

/-- `is_stream_event/1` -/
def StreamEl.isStreamEvent : StreamEl → Bool
  | .xmlstreamstart _ => true
  | .xmlstreamend => true
  | .child _ => false

/-- The element, if it is no stream event. -/
def StreamEl.stanza? : StreamEl → Option Child
  | .child c => some c
  | _ => none

/-- `?NS_HTTPBIND` -/
def nsHttpbind : String := "http://jabber.org/protocol/httpbind"

/-- `?NS_STREAM` -/
def nsStream : String := "http://etherx.jabber.org/streams"

/-- `?NS_CLIENT` -/
def nsClient : String := "jabber:client"

/-- `bosh_body/1` -/
def boshBody : Attrs :=
  AList.insert "sid" (some s.sid) (AList.insert "xmlns" (some nsHttpbind) ∅)

/-- `bosh_stream_end_body/0` -/
def boshStreamEndBody : Attrs :=
  AList.insert "type" (some "terminate") (AList.insert "xmlns" (some nsHttpbind) ∅)

/-- `integer_to_binary/1` as the value of an attribute. -/
def natAttr (n : ℕ) : Option String := some (integerToBinary n)

/-- `inactivity/2` -/
def inactivityAttr : Option ℕ → Attrs → Attrs
  | some n, attrs => attrs.insert "inactivity" (natAttr n)
  | none, attrs => attrs

/-- `maxpause/2` -/
def maxpauseAttr : Option ℕ → Attrs → Attrs
  | some n, attrs => attrs.insert "maxpause" (natAttr n)
  | none, attrs => attrs

/-- `server_ack/3`; there is no text for an `undefined` id. -/
def serverAck (acks : Bool) (rid : Option ℕ) (attrs : Attrs) : Except Halt Attrs :=
  match acks, rid with
  | true, some rid => .ok (attrs.insert "ack" (natAttr rid))
  | true, none => .error .crash
  | false, _ => .ok attrs

/-- `bosh_stream_start_body/2` -/
def boshStreamStartBody (start : Attrs) (s : State) : Except Halt Attrs :=
  let attrs₁ : Attrs := AList.insert "wait" (natAttr s.wait) <|
    AList.insert "requests" (natAttr concurrentRequests) <|
    AList.insert "hold" (natAttr s.hold) <|
    AList.insert "from" (start.attr "from") <|
    AList.insert "accept" (some "deflate, gzip") <|
    AList.insert "sid" (some s.sid) <|
    AList.insert "xmpp:restartlogic" (some "true") <|
    AList.insert "xmpp:version" (some "1.0") <|
    AList.insert "xmlns" (some nsHttpbind) <|
    AList.insert "xmlns:xmpp" (some "urn:xmpp:xbosh") <|
    AList.insert "xmlns:stream" (some nsStream) ∅
  serverAck s.serverAcks s.rid (maxpauseAttr s.maxPause (inactivityAttr s.inactivity attrs₁))

/-- `maybe_add_ack/3`; `undefined` is greater than every number. -/
def maybeAddAck (handlerRid : ℕ) (s : State) (attrs : Attrs) : Except Halt Attrs :=
  if ridLe handlerRid s.rid && s.rid ≠ some handlerRid then serverAck s.serverAcks s.rid attrs
  else .ok attrs

/-- `maybe_add_report/2` -/
def maybeAddReport (attrs : Attrs) : Attrs × State :=
  match s.report with
  | none => (attrs, s)
  | some (reportRid, elapsed) =>
    ((attrs.insert "report" (natAttr reportRid)).insert "time" (some (integerToBinary elapsed)),
      { s with report := none })

/-- `is_stream_prefix/1` -/
def isStreamPrefix : Child → Bool
  | .xmlel el => el.name = "stream:error" || el.name = "stream:features"
  | .xmlcdata _ => false

/-- `maybe_add_stream_prefix/3` -/
def maybeAddStreamPrefix (hasStreamPrefix : Bool) (stanzas : List Child) (attrs : Attrs) : Attrs :=
  if hasStreamPrefix then attrs
  else if stanzas.any isStreamPrefix then attrs.insert "xmlns:stream" (some nsStream)
  else attrs

/-- `maybe_add_default_ns/1` -/
def maybeAddDefaultNs : Child → Child
  | .xmlel el =>
    if isStanzaName el.name then
      match el.attr? "xmlns" with
      | none => .xmlel (el.withAttrs (putAttr "xmlns" nsClient el.attrs))
      | some _ => .xmlel el
    else .xmlel el
  | .xmlcdata content => .xmlcdata content

/-- The body that `bosh_wrap/3` starts from, and what is left pending. -/
def boshWrapBody (elements : List StreamEl) (s : State) :
    Except Halt (Attrs × List Child × State) :=
  match elements.filter StreamEl.isStreamEvent, elements.filterMap StreamEl.stanza? with
  | [], stanzas => .ok (boshBody s, stanzas, s)
  | [.xmlstreamstart start], stanzas => do
      let body ← boshStreamStartBody start s
      return (body, stanzas, s)
  | [.xmlstreamend], [] => .ok (boshStreamEndBody, [], s)
  | [.xmlstreamend], stanzas =>
    -- the stanzas go out and the stream end waits
    .ok (boshBody s, stanzas, { s with pending := s.pending ++ [.xmlstreamend] })
  | _, _ => .error .crash

/-- `bosh_wrap/3` -/
def boshWrap (elements : List StreamEl) (rid : ℕ) (s : State) : Except Halt (Response × State) := do
  let (body, children, ns) ← boshWrapBody elements s
  let attrs₁ ← maybeAddAck rid ns body
  let (attrs₂, nns) := maybeAddReport ns attrs₁
  let attrs₃ := maybeAddStreamPrefix (body.attr "xmlns:stream").isSome children attrs₂
  return (⟨attrs₃, children.map maybeAddDefaultNs⟩, nns)

/-! ## Sending -/

variable (data : List StreamEl) (s : State)

/-- `store/2` -/
def store : State := { s with pending := s.pending ++ data }

/-- `lists:keymerge(1, [Response], Sent)` -/
def mergeResponse (response : CachedResponse) : List CachedResponse → List CachedResponse
  | [] => [response]
  | c :: sent =>
    if response.rid ≤ c.rid then response :: c :: sent else c :: mergeResponse response sent

/-- `cache_up_to/2` -/
def cacheUpTo (limit : Option ℕ) (responses : List CachedResponse) : List CachedResponse :=
  match limit with
  | none => responses
  | some n => responses.drop (responses.length - n)

/-- `last_processed/2` -/
def lastProcessed : Option ℕ → ℕ
  | none => rid
  | some rid' => max rid rid'

/-- `cache_response/2` -/
def cacheResponse (response : CachedResponse) (s : State) : State :=
  { s with
    sent := cacheUpTo (if s.clientAcks then none else some concurrentRequests)
      (mergeResponse response s.sent)
    lastProcessed := some (lastProcessed response.rid s.lastProcessed)
    world := { s.world with produced := s.world.produced ++ [(response.rid, response.body)] } }

/-- `pick_handler/1`: the first handler, unless it is for a request not processed yet. -/
def pickHandler : Option (Handler × State) :=
  match sortHandlers s.handlers with
  | [] => none
  | h :: rest => if ridLe h.rid s.rid then some (h, { s with handlers := rest }) else none

/-- `send_wrapped_to_handler/3` -/
def sendWrappedToHandler (wrapped : Response) (s : State) : State :=
  if s.handlers = [] then setupInactivityTimer (s.tell pid (.boshReply wrapped))
  else s.tell pid (.boshReply wrapped)

/-- `send_to_handler/3` with elements to wrap. -/
def sendToPicked (data : List StreamEl) (s : State) : Except Halt State := do
  let (wrapped, ns) ← boshWrap data rid s
  return sendWrappedToHandler pid wrapped (cacheResponse ⟨rid, ns.world.now, wrapped⟩ ns)

/-- `send_to_handler/2` with elements to wrap, `none` for `no_valid_handler`. -/
def sendToHandler : Except Halt (Option State) :=
  match pickHandler s with
  | some (h, ns) => some <$> sendToPicked h.rid h.pid data ns
  | none => .ok none

/-- `send_or_store/2` -/
def sendOrStore : Except Halt State := do
  match ← sendToHandler data s with
  | some ns => return ns
  | none => return store data s

/-- `resend_cached/2`, which may come back as `no_valid_handler`. -/
def resendCached (cached : CachedResponse) (s : State) : Option State :=
  (pickHandler s).map fun (h, ns) => sendWrappedToHandler h.pid cached.body ns

/-- The clause of `return_surplus_handlers/2` that empties all handlers but one. -/
def returnAccumulated : ℕ → State → Except Halt State
  | 0, s => .ok s
  | n + 1, s =>
    if s.handlers.length ≤ 1 then .ok s
    else do
      match ← sendToHandler [] s with
      | none => return s
      | some ns => returnAccumulated n ns

variable (name : StateName)

/-- `return_surplus_handlers/2` -/
def returnSurplusHandlers (s : State) : Except Halt State :=
  if name = .accumulate then returnAccumulated s.handlers.length s
  else if s.handlers = [] then .ok s
  else if s.handlers.length = 1 ∧ s.pending.isEmpty then .ok s
  else sendOrStore s.pending { s with pending := [] }

/-! ## Requests -/

/-- `maybe_add_handler/3` -/
def maybeAddHandler (handler : Option (ℕ × ℕ)) (rid : ℕ) (s : State) : State :=
  match handler with
  | some (pid, tref) => { s with handlers := ⟨rid, tref, pid⟩ :: s.handlers }
  | none => s

/-- `determine_report_action/4`: whether to report, and the acknowledged id. -/
def determineReportAction (ack : Option ℕ) (lastProcessed : Option ℕ) : Bool × Option ℕ :=
  match ack, lastProcessed with
  | none, _ => (false, none)
  | some ack, none => (false, some ack)
  | some ack, some last => (decide (ack < last), some ack)

/-- `maybe_trim_cache/2` -/
def maybeTrimCache (ack : Option ℕ) (s : State) : State :=
  match ack with
  | none => s
  | some ack => { s with sent := s.sent.dropWhile fun c => c.rid ≤ ack }

/-- The order of reports as tuples. -/
def reportLt (a b : ℕ × ℤ) : Bool := a.1 < b.1 || a.1 = b.1 && a.2 < b.2

/-- `schedule_report/2`. With no such response the match fails with `{badmatch, false}`, which the
`catch` does not name. -/
def scheduleReport (ack : ℕ) (s : State) : Except Halt State :=
  match s.sent.find? (·.rid = ack + 1) with
  | none => .error .crash
  | some c =>
    let report := (ack + 1, s.world.now - c.tstamp)
    match s.report with
    | none => .ok { s with report := some report }
    | some old => .ok { s with report := some (if reportLt old report then old else report) }

/-- `maybe_send_report/1` -/
def maybeSendReport : Except Halt State :=
  match s.report with
  | none => .ok s
  | some _ => sendOrStore [] s

/-- `rid/2` -/
def setRid (rid : ℕ) : Except Halt State :=
  if 0 < rid then .ok { s with rid := some rid } else .error .crash

/-- `stream_start/2` -/
def streamStart (fromAttr toAttr : Option String) : StreamEl :=
  .xmlstreamstart <| AList.insert "from" fromAttr <| AList.insert "to" toAttr <|
    AList.insert "version" (some "1.0") <| AList.insert "xml:lang" (some "en") <|
    AList.insert "xmlns" (some nsClient) <| AList.insert "xmlns:stream" (some nsStream) ∅

/-- Whether a child is a whitespace keepalive. -/
def Child.isKeepalive : Child → Bool
  | .xmlcdata content => content = " "
  | .xmlel _ => false

/-- The children of a body, whitespace keepalives left out. -/
def Body.elements (body : Body) : List StreamEl :=
  (body.children.filter fun c => !c.isKeepalive).map .child

/-- `get_client_acks/4` -/
def getClientAcks (body : Body) (default : Bool) : Bool :=
  match body.ack with
  | none => default
  | some ack => ack = 1

/-- `bosh_unwrap/3` -/
def boshUnwrap (tag : EventTag) (body : Body) (s : State) : Except Halt (List StreamEl × State) :=
  match tag with
  | .streamstart =>
    let wait := body.wait.getD s.wait
    .ok ([streamStart body.fromAttr body.toAttr],
      { s with
        wait := (s.maxWait.map (min wait)).getD wait
        hold := body.hold.getD s.hold
        clientAcks := getClientAcks body s.clientAcks
        fromAttr := body.fromAttr
        toAttr := body.toAttr })
  | .restart => .ok ([streamStart s.fromAttr s.toAttr], s)
  | .streamend =>
    if body.sid = some s.sid ∧ body.xmlns = some nsHttpbind then
      .ok (body.elements ++ [.xmlstreamend], s)
    else .error .crash
  | _ =>
    if body.sid = some s.sid ∧ body.xmlns = some nsHttpbind then .ok (body.elements, s)
    else .error .crash

/-- `process_pause_event/2`. A reply that finds no valid handler leaves an atom in place of the
state, which no function takes. -/
def processPauseEvent (seconds : ℕ) (s : State) : Except Halt State :=
  if ∃ maxPause, s.maxPause = some maxPause ∧ seconds ≤ maxPause then
    (List.range s.handlers.length).foldlM (fun s _ => do
      match ← sendToHandler [] s with
      | some ns => return ns
      | none => throw .crash) { s with inactivity := some seconds }
  else
    let told := s.handlers.foldl (fun s h => s.tell h.pid .policyViolation) s
    .error (.invalidPause { told with handlers := [] })

section Recursion

variable (takeDeferred : State → Except Halt State)

/-- `process_stream_event/4` -/
def processStreamEvent (tag : EventTag) (body : Body) (s : State) : Except Halt State :=
  match tag, body.pause with
  | .pause, some seconds => do
      let ns ← processPauseEvent seconds s
      takeDeferred ns
  | .pause, none => .error .crash
  | tag, _ => do
      let (els, ns) ← boshUnwrap tag body s
      takeDeferred (els.foldl State.forwardToC2s ns)

/-- `process_acked_stream_event/3` -/
def processAckedStreamEvent (event : StreamEvent) (s : State) : Except Halt State :=
  let (report, ack) := determineReportAction event.body.ack s.lastProcessed
  let ns := maybeTrimCache ack s
  match report, ack with
  | true, some ack => do
      let ns₂ ← scheduleReport ack ns
      let ns₂ ← setRid ns₂ event.rid
      let ns₃ ← processStreamEvent takeDeferred event.tag event.body ns₂
      maybeSendReport ns₃
  | _, _ => do
      let ns ← setRid ns event.rid
      processStreamEvent takeDeferred event.tag event.body ns

/-- The clauses of `handle_stream_event/4`, before the surplus handlers are returned. -/
def handleStreamEventClauses (event : StreamEvent) (handler : Option (ℕ × ℕ)) (s : State) :
    Except Halt State :=
  let expected := maybeAdd 1 s.rid
  let ns := maybeAddHandler handler event.rid s
  match maybeIsRetransmission event.rid s.rid s.sent, handler with
  | some none, some _ => .ok ns
  | some (some cached), some _ =>
    match resendCached cached ns with
    | some nns => .ok nns
    | none => .error .crash
  | _, _ =>
    if event.tag = .streamstart then processAckedStreamEvent takeDeferred event ns
    else if isExpectedRid event.rid expected then processAckedStreamEvent takeDeferred event ns
    else if isAcceptableRid event.rid expected then
      .ok { ns with deferred := event :: ns.deferred }
    else
      let told := (sortHandlers ns.handlers).foldl (fun s h => s.tell h.pid .itemNotFound) ns
      .error (.invalidRid { told with handlers := [] })

/-- `handle_stream_event/4` -/
def handleStreamEventWith (event : StreamEvent) (handler : Option (ℕ × ℕ)) (name : StateName)
    (s : State) : Except Halt State := do
  let nns ← handleStreamEventClauses takeDeferred event handler s
  returnSurplusHandlers name nns

end Recursion

variable (order : StreamEvent → StreamEvent → Bool)

/-- `handle_stream_event/4`, calling itself `fuel` times at most. The requests that it takes up are
sorted by `order`, which stands for the order of terms. -/
def handleStreamEvent : ℕ → StreamEvent → Option (ℕ × ℕ) → StateName → State → Except Halt State
  | 0, _, _, _, _ => .error .exhausted
  | fuel + 1, event, handler, name, s =>
    handleStreamEventWith
      (fun s => (s.deferred.insertionSort fun a b => order a b).foldlM
        (fun s event => handleStreamEvent fuel event none name s) { s with deferred := [] })
      event handler name s

/-- `process_deferred_events/2` -/
def processDeferredEvents (fuel : ℕ) (name : StateName) (s : State) : Except Halt State :=
  (s.deferred.insertionSort fun a b => order a b).foldlM
    (fun s event => handleStreamEvent order fuel event none name s) { s with deferred := [] }

theorem handleStreamEvent_succ (fuel : ℕ) (event : StreamEvent) (handler : Option (ℕ × ℕ))
    (name : StateName) (s : State) :
    handleStreamEvent order (fuel + 1) event handler name s =
    handleStreamEventWith (processDeferredEvents order fuel name) event handler name s := rfl

/-! ## The process -/

/-- `terminate/3` -/
def terminate : State :=
  (sortHandlers s.handlers).foldl (fun s' h => s'.tell h.pid (.close s.sid)) s

/-- `{stop, Reason, State}` -/
def Process.stop (reason : StopReason) (s : State) : Process := .stopped reason (terminate s)

/-- `determine_next_state/3` -/
def determineNextState (tag : EventTag) (name : StateName) (s : State) : Process :=
  if name = .closing then .stop .normal s
  else if tag = .streamstart ∨ tag = .restart then .running .accumulate s
  else .running name s

/-- `handle_event/3`. A call for each deferred request and one for the request itself are as many
as there can be. -/
def handleEvent (tag : EventTag) (pid : ℕ) (tref : ℕ) (body : Body) (name : StateName)
    (s : State) : Process :=
  let ns := cancelInactivityTimer s
  match handleStreamEvent order (ns.deferred.length + 1) ⟨tag, body⟩ (some (pid, tref)) name ns with
  | .ok nns => determineNextState tag name nns
  | .error (.invalidRid ts) => .stop .invalidRid ts
  | .error (.invalidPause ts) => .stop .policyViolation ts
  | .error _ => .crashed

/-- The process goes on in a state, unless the event failed. -/
def Process.next : Except Halt State → Process
  | .ok s => .running name s
  | .error _ => .crashed

/-- `handle_info({send, Data}, SName, State)` -/
def handleSend (el : StreamEl) (name : StateName) (s : State) : Process :=
  match name, el with
  | .normal, .xmlstreamend =>
    .next .normal (sendOrStore (s.pending ++ [.xmlstreamend]) { s with pending := [] })
  | .accumulate, el => .running .accumulate (store [el] s)
  | .normal, el => .next .normal (sendOrStore [el] s)
  | .closing, _ => .running .closing s

/-- `handle_info(close, SName, State)` -/
def handleClose : Process :=
  if s.pending.isEmpty then .stop .normal s else .running .closing s

/-- `handle_info({wait_timeout, {Rid, Pid}}, SName, State)`. The first handler of the request is
taken out; it has to be that of the process. -/
def handleWaitTimeout (name : StateName) (s : State) : Process :=
  match s.handlers.find? (·.rid = rid) with
  | none => .running name s
  | some h =>
    if h.pid = pid then
      .next name (sendToPicked rid pid [] { s with handlers := s.handlers.eraseP (·.rid = rid) })
    else .crashed

/-- `accumulate(acc_off, State)`, `normal(acc_off, State)` and `closing(acc_off, State)` -/
def handleAccOff (s : State) : Process :=
  match name with
  | .accumulate => .next .normal (sendOrStore s.pending { s with pending := [] })
  | name => .running name s

/-- What can happen to the session: messages in its mailbox, and time. -/
inductive Event
  /-- The request that starts the session, from `mongoose_bosh_handler:start_session/4`. -/
  | start (pid : ℕ) (tref : ℕ) (body : Body)
  /-- A request that `mongoose_bosh_handler:forward_body/3` forwards. -/
  | request (pid : ℕ) (tref : ℕ) (body : Body)
  | send (el : StreamEl)
  | close
  | accOff
  | waitTimeout (rid : ℕ) (pid : ℕ)
  /-- The first `inactivity_timeout` message in the mailbox. -/
  | inactivityTimeout
  | setClientAcks (enabled : Bool)
  | timerEnds (ref : ℕ)
  | elapse (ms : ℕ)

/-- The events that are requests. -/
def Event.isRequest : Event → Bool
  | .start _ _ _ => true
  | .request _ _ _ => true
  | _ => false

/-- What an event does to a session in a state; `none` where the event cannot be. -/
def stepRunning (name : StateName) (s : State) : Event → Option Process
  | .start pid tref body =>
    -- a session is made for one such request
    if s.rid = none ∧ toEventType body = .streamstart then
      (setMaxHold body).map fun body => handleEvent order .streamstart pid tref body name s
    else none
  | .request pid tref body =>
    -- `service_bosh:get_session_socket/1` has found this session
    if body.sid = some s.sid then
      some (handleEvent order (toEventType body) pid tref body name s)
    else none
  | .send el => some (handleSend el name s)
  | .close => some (handleClose s)
  | .accOff => some (handleAccOff name s)
  | .waitTimeout rid pid => some (handleWaitTimeout rid pid name s)
  | .inactivityTimeout =>
    match s.world.mailbox with
    | [] => none
    | _ :: mailbox =>
      some (.stop .inactivityTimeout { s with world := { s.world with mailbox := mailbox } })
  | .setClientAcks enabled => some (.running name { s with clientAcks := enabled })
  | .timerEnds ref =>
    if s.world.running.any (·.1 = ref) then
      some (.running name { s with
        world := { s.world.cancelTimer ref with mailbox := s.world.mailbox ++ [ref] } })
    else none
  | .elapse ms => some (.running name { s with world := { s.world with now := s.world.now + ms } })

/-- What an event does to the session process. -/
def step (process : Process) (e : Event) : Option Process :=
  match process with
  | .running name s => stepRunning order name s e
  | _ => none

end MongooseIM.Bosh
