import MongooseIM.Erlang.Maps
import MongooseIM.Transition.Run

/-! # `mongoose_aggregator_worker`

A worker takes tasks classified by key. While no request is pending a task is submitted at once;
otherwise it waits in `flush_elems`, aggregated with the task already waiting under its key, and
`flush_queue` remembers in which order the keys came.

The callbacks are parameters. What the outside world sees of a worker is its calls to
`request_callback`; they are recorded in `Worker.calls`, and the request id that
`gen_server:send_request` makes for a call is the call's number, so ids are fresh. The record
fields `host_type` and `pool_id` only reach logs and instrumentation and are left out. -/

namespace MongooseIM.AsyncPools

open Erlang

/-- A request id, as `gen_server:send_request` makes it. -/
abbrev RequestId := ℕ

/-- What `request_callback` returns. -/
inductive Requested where
  /-- The task was sent; the id is the one of this call. -/
  | reqId
  /-- The atom `drop`: nothing was sent. -/
  | drop
  deriving DecidableEq, Repr

/-- What `verify_callback` returns. -/
inductive Verified where
  | ok
  | error
  /-- Any other term, which no clause of `check_response` takes. -/
  | other
  deriving DecidableEq, Repr

/-- The callbacks of a pool and the `flush_extra` they are called with. -/
structure Callbacks (Task Reply Extra : Type*) where
  /-- `request_callback`, with the number of the call (its behaviour may depend on all that
  happened before) and the `retry_number` put into the extra map. -/
  requestCallback : ℕ → Task → Extra → ℕ → Requested
  /-- `aggregate_callback`, `none` for `{error, Reason}`. -/
  aggregateCallback : Task → Task → Extra → Option Task
  /-- `verify_callback`, `none` for `undefined`. -/
  verifyCallback : Option (Reply → Task → Extra → Verified)
  flushExtra : Extra

/-- The state record of the worker, less the callbacks. -/
structure State (Key Task : Type*) where
  /-- `async_request`: the pending request and its task, `none` for `no_request_pending`. -/
  asyncRequest : Option (RequestId × Task) := none
  /-- `flush_elems`: the tasks waiting, by key. -/
  flushElems : AList (fun _ : Key => Task) := ∅
  /-- `flush_queue`: the keys waiting, the next to flush at the front. -/
  flushQueue : List Key := []
  totalRetries : ℕ := 3
  retriesLeft : ℕ := 3

/-- One call of `request_callback`. -/
structure Call (Key Task : Type*) where
  /-- The key whose task it is, `none` for a broadcast. The code does not pass it on; it is kept
  to tell the requests of the keys apart. -/
  origin : Option Key
  task : Task
  /-- The `retry_number` in the extra map. -/
  retryNumber : ℕ
  requested : Requested
  deriving DecidableEq, Repr

/-- A worker and what can be observed of it. -/
structure Worker (Key Task : Type*) where
  /-- The state of the `gen_server`. -/
  state : State Key Task := {}
  /-- The calls of `request_callback` so far, the first one at the front. -/
  calls : List (Call Key Task) := []
  /-- The ids of the requests whose reply `handle_info` has taken from the mailbox. -/
  consumed : List RequestId := []
  /-- The key of the pending task, to go with the calls that retry it. -/
  pendingOrigin : Option Key := none

/-- The content of a reply, as `gen_server:check_response` decodes it. -/
inductive Response (Reply : Type*) where
  /-- `{error, {Reason, Ref}}`: the server went down. -/
  | error
  /-- `{reply, {error, Reason}}`. -/
  | replyError
  | reply (reply : Reply)

/-- A message that `handle_info` receives. -/
inductive Msg (Reply : Type*) where
  | response (id : RequestId) (response : Response Reply)
  | unexpected

/-- What a worker can be asked to handle. -/
inductive Event (Key Task Reply : Type*) where
  /-- The cast `{task, Key, Value}`. -/
  | task (key : Key) (value : Task)
  /-- The cast `{broadcast, Broadcast}`. -/
  | broadcast (task : Task)
  /-- The call `sync`. -/
  | sync
  /-- A message for `handle_info`. -/
  | info (msg : Msg Reply)
  | unexpected

/-- The verdict of `check_response`. -/
inductive CheckResponse where
  | ignore
  | next
  | retry
  deriving DecidableEq, Repr

variable {Key Task Reply Extra : Type*} [DecidableEq Key]

omit [DecidableEq Key] in
/-- The `retry_number` of the next call: `total_retries - retries_left`. -/
def Worker.retryNumber (w : Worker Key Task) : ℕ := w.state.totalRetries - w.state.retriesLeft

variable (cb : Callbacks Task Reply Extra)

/-! ## Requests -/

omit [DecidableEq Key] in
/-- `make_async_request/2`: call `request_callback`; the state changes only when the task is
sent. -/
def makeAsyncRequest (origin : Option Key) (request : Task) (w : Worker Key Task) :
    Worker Key Task :=
  match cb.requestCallback w.calls.length request cb.flushExtra w.retryNumber with
  | .drop => { w with calls := w.calls ++ [⟨origin, request, w.retryNumber, .drop⟩] }
  | .reqId =>
    { w with
      calls := w.calls ++ [⟨origin, request, w.retryNumber, .reqId⟩]
      state.asyncRequest := some (w.calls.length, request)
      pendingOrigin := origin }

variable (origin : Option Key) (request : Task)

omit [DecidableEq Key] in
/-- **The cases of `make_async_request/2`.** Either the callback drops the task and only the call is
recorded, or the task is sent and its request is pending. -/
theorem makeAsyncRequest_cases (w : Worker Key Task) :
    (cb.requestCallback w.calls.length request cb.flushExtra w.retryNumber = .drop ∧
    makeAsyncRequest cb origin request w =
      { w with calls := w.calls ++ [⟨origin, request, w.retryNumber, .drop⟩] }) ∨
    (cb.requestCallback w.calls.length request cb.flushExtra w.retryNumber = .reqId ∧
    makeAsyncRequest cb origin request w =
      { w with
        calls := w.calls ++ [⟨origin, request, w.retryNumber, .reqId⟩]
        state.asyncRequest := some (w.calls.length, request)
        pendingOrigin := origin }) := by
  unfold makeAsyncRequest
  cases h : cb.requestCallback w.calls.length request cb.flushExtra w.retryNumber with
  | reqId => exact Or.inr ⟨rfl, rfl⟩
  | drop => exact Or.inl ⟨rfl, rfl⟩

omit [DecidableEq Key] in
@[simp] theorem makeAsyncRequest_consumed
    (w : Worker Key Task) : (makeAsyncRequest cb origin request w).consumed = w.consumed := by
  obtain ⟨-, h⟩ | ⟨-, h⟩ := makeAsyncRequest_cases cb origin request w <;> rw [h]

omit [DecidableEq Key] in
@[simp] theorem makeAsyncRequest_flushQueue (w : Worker Key Task) :
    (makeAsyncRequest cb origin request w).state.flushQueue = w.state.flushQueue := by
  obtain ⟨-, h⟩ | ⟨-, h⟩ := makeAsyncRequest_cases cb origin request w <;> rw [h]

omit [DecidableEq Key] in
@[simp] theorem makeAsyncRequest_calls_length (w : Worker Key Task) :
    (makeAsyncRequest cb origin request w).calls.length = w.calls.length + 1 := by
  obtain ⟨-, h⟩ | ⟨-, h⟩ := makeAsyncRequest_cases cb origin request w <;> simp [h]

/-- The loop of `maybe_request_next/1` on the keys that are left in the queue; `none` when
`maps:take/2` fails. -/
def maybeRequestNextLoop : List Key → Worker Key Task → Option (Worker Key Task)
  | [], w =>
    some { w with
      state.retriesLeft := w.state.totalRetries
      state.flushQueue := []
      state.asyncRequest := none }
  | key :: newQueue, w =>
    match take key w.state.flushElems with
    | none => none
    | some (value, newAcc) =>
      let w₂ : Worker Key Task := { w with
        state.retriesLeft := w.state.totalRetries
        state.flushElems := newAcc
        state.flushQueue := newQueue }
      let w₃ := makeAsyncRequest cb (some key) value w₂
      if w₃.state.asyncRequest = none then maybeRequestNextLoop newQueue w₃ else some w₃

/-- `maybe_request_next/1`: reset the number of retries and submit the task of the first key in the
queue, going on to the next key while no request is pending. -/
def maybeRequestNext (w : Worker Key Task) : Option (Worker Key Task) :=
  maybeRequestNextLoop cb w.state.flushQueue w

/-- `cancel_request_retry/1`: give the pending request up and go on. -/
def cancelRequestRetry (w : Worker Key Task) : Option (Worker Key Task) :=
  maybeRequestNext cb { w with state.asyncRequest := none }

/-- `maybe_request_retry/2`. -/
def maybeRequestRetry (reqTask : Task) (w : Worker Key Task) : Option (Worker Key Task) :=
  if w.state.retriesLeft = 0 then cancelRequestRetry cb w
  else
    let w₂ := makeAsyncRequest cb w.pendingOrigin reqTask { w with
      state.asyncRequest := none
      state.retriesLeft := w.state.retriesLeft - 1 }
    if w₂.state.asyncRequest = none then cancelRequestRetry cb w₂ else some w₂

/-! ## Replies -/

/-- `maybe_verify_reply/3`. -/
def maybeVerifyReply (reply : Reply) (reqTask : Task) : Verified :=
  match cb.verifyCallback with
  | none => .ok
  | some verifier => verifier reply reqTask cb.flushExtra

variable (msg : Msg Reply)

/-- `check_response/4`; `none` when the verify callback returns something no clause takes. -/
def checkResponse (asyncRequest : RequestId) (reqTask : Task) : Option CheckResponse :=
  match msg with
  | .unexpected => some .ignore
  | .response id response =>
    if id = asyncRequest then
      match response with
      | .error => some .retry
      | .replyError => some .retry
      | .reply reply =>
        match maybeVerifyReply cb reply reqTask with
        | .ok => some .next
        | .error => some .retry
        | .other => none
    else some .ignore

omit [DecidableEq Key] in
/-- Taking a message from the mailbox: the reply to a request that was made is consumed. -/
def consume (w : Worker Key Task) : Worker Key Task :=
  match msg with
  | .unexpected => w
  | .response id _ =>
    if id < w.calls.length then { w with consumed := id :: w.consumed } else w

/-- `handle_info/2`. -/
def handleInfo (w : Worker Key Task) : Option (Worker Key Task) :=
  match w.state.asyncRequest with
  | none => some (consume msg w)
  | some (asyncRequest, reqTask) =>
    match checkResponse cb msg asyncRequest reqTask with
    | none => none
    | some .ignore => some (consume msg w)
    | some .next => maybeRequestNext cb (consume msg w)
    | some .retry => maybeRequestRetry cb reqTask (consume msg w)

/-! ## Tasks -/

/-- `handle_task/3`: submit the task if no request is pending, otherwise aggregate it with the one
waiting under its key, or let it wait. -/
def handleTask (key : Key) (newValue : Task) (w : Worker Key Task) : Worker Key Task :=
  match w.state.asyncRequest with
  | none => makeAsyncRequest cb (some key) newValue w
  | some _ =>
    match w.state.flushElems.lookup key with
    | some oldValue =>
      match cb.aggregateCallback oldValue newValue cb.flushExtra with
      | some finalValue =>
        { w with state.flushElems := w.state.flushElems.insert key finalValue }
      | none => w
    | none =>
      { w with
        state.flushElems := w.state.flushElems.insert key newValue
        state.flushQueue := w.state.flushQueue ++ [key] }

/-- `handle_broadcast/2`: submit the task if no request is pending, otherwise aggregate it with
every task that waits. -/
def handleBroadcast (task : Task) (w : Worker Key Task) : Worker Key Task :=
  match w.state.asyncRequest with
  | none => makeAsyncRequest cb none task w
  | some _ =>
    { w with
      state.flushElems := mapValues (fun _ oldValue =>
        (cb.aggregateCallback oldValue task cb.flushExtra).getD oldValue) w.state.flushElems }

/-- `run_flush/1` with at most `fuel` calls of `maybe_request_next/1`. -/
def runFlushFuel : ℕ → Worker Key Task → Option (Worker Key Task)
  | 0, _ => none
  | fuel + 1, w =>
    (maybeRequestNext cb w).bind fun w₁ =>
      if w₁.state.asyncRequest = none then some w₁ else runFlushFuel fuel w₁

/-- `run_flush/1`: submit everything that waits, without waiting for any reply. -/
def runFlush (w : Worker Key Task) : Option (Worker Key Task) :=
  runFlushFuel cb (w.state.flushQueue.length + 1) w

/-- `maybe_request_next/1` either empties the queue or takes at least one key out of it. -/
theorem maybeRequestNextLoop_shortens {keys : List Key} {w w' : Worker Key Task}
    (h : maybeRequestNextLoop cb keys w = some w') (hn : w'.state.asyncRequest ≠ none) :
    w'.state.flushQueue.length < keys.length := by
  induction keys generalizing w with
  | nil =>
    cases h
    exact absurd rfl hn
  | cons key keys ih =>
    rw [maybeRequestNextLoop] at h
    split at h
    · cases h
    · simp only at h
      split at h
      · exact Nat.lt_succ_of_lt (ih h)
      · cases h
        rw [makeAsyncRequest_flushQueue]
        exact Nat.lt_succ_self _

/-- Any fuel beyond the length of the queue is enough. -/
theorem runFlushFuel_eq_of_lt {m n : ℕ} {w : Worker Key Task}
    (hm : w.state.flushQueue.length < m) (hn : w.state.flushQueue.length < n) :
    runFlushFuel cb m w = runFlushFuel cb n w := by
  induction m generalizing n w with
  | zero => cases hm
  | succ m ih =>
    cases n with
    | zero => cases hn
    | succ n =>
      rw [runFlushFuel, runFlushFuel]
      refine Option.bind_congr fun w₁ h₁ => ?_
      by_cases hw : w₁.state.asyncRequest = none
      · rw [if_pos hw, if_pos hw]
      · have hlt := maybeRequestNextLoop_shortens cb h₁ hw
        rw [if_neg hw, if_neg hw]
        exact ih (by omega) (by omega)

/-- `run_flush/1` as the source writes it. -/
theorem runFlush_eq (w : Worker Key Task) : runFlush cb w = (maybeRequestNext cb w).bind fun w₁ =>
    if w₁.state.asyncRequest = none then some w₁ else runFlush cb w₁ := by
  rw [runFlush, runFlushFuel]
  refine Option.bind_congr fun w₁ h₁ => ?_
  by_cases hw : w₁.state.asyncRequest = none
  · rw [if_pos hw, if_pos hw]
  · rw [if_neg hw, if_neg hw]
    exact runFlushFuel_eq_of_lt cb (maybeRequestNextLoop_shortens cb h₁ hw) (Nat.lt_succ_self _)

/-- `handle_call/3` for `sync`, which replies `skipped` (`false`) when nothing waits. -/
def handleSync (w : Worker Key Task) : Option (Bool × Worker Key Task) :=
  if w.state.flushElems.keys.length = 0 then some (false, w)
  else (runFlush cb w).map fun w' => (true, w')

/-- One message of the worker's mailbox; `none` when the worker crashes. -/
def step (w : Worker Key Task) : Event Key Task Reply → Option (Worker Key Task)
  | .task key value => some (handleTask cb key value w)
  | .broadcast task => some (handleBroadcast cb task w)
  | .sync => (handleSync cb w).map Prod.snd
  | .info msg => handleInfo cb msg w
  | .unexpected => some w

end MongooseIM.AsyncPools
