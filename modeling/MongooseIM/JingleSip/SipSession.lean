import Mathlib.Data.Int.Notation
import MongooseIM.Xmpp.Stanza

/-! # Sessions of SIP calls

The record of a call is created and changed by the client that starts or accepts the call and by the
callbacks for what comes from the other side, each in its own process. Mnesia does it in
transactions. CETS reads the table and writes it later. -/

namespace MongooseIM.JingleSip

open Xmpp

/-! ## Records -/

/-- `jid:simple_bare_jid()` -/
abbrev SimpleBareJid := String × String

/-- `direction` -/
inductive Direction
  /-- `in` -/
  | incoming
  /-- `out` -/
  | outgoing
  deriving DecidableEq

/-- `state` -/
inductive CallState
  | accepted
  | ringing

/-- `#jingle_sip_session{}` of one call; `none` is `undefined`. -/
structure Session where
  dialog : Option String
  state : Option CallState
  direction : Direction
  request : Option String
  node : String
  owner : SimpleBareJid
  /-- `from` -/
  fromUser : SimpleBareJid
  /-- `to` -/
  toUser : SimpleBareJid
  now : ℤ
  /-- `init_stanza` in `meta` -/
  initStanza : Option Element

/-- A call. -/
structure Call where
  direction : Direction
  /-- `From` of the request. -/
  fromUser : SimpleBareJid
  /-- `To` of the request. -/
  toUser : SimpleBareJid
  /-- The user in the header `from` of responses. -/
  respFrom : SimpleBareJid
  /-- The user in the header `to` of responses. -/
  respTo : SimpleBareJid

variable (call : Call)

/-- The user whose client has made or received the call. -/
def Call.localUser : SimpleBareJid :=
  match call.direction with
  | .incoming => call.toUser
  | .outgoing => call.fromUser

/-- The node, and the time. -/
structure Env where
  node : String
  /-- `os:system_time/1` -/
  now : ℤ

/-- What an operation returns instead of `ok`. -/
inductive SessionError
  | conflict
  | notFound
  | incomingHandleExists
  | outgoingHandleExists

/-- `ok | {error, any()}` -/
abbrev Result := Except SessionError Unit

/-- The table at the id of the call. -/
abbrev Table := Option Session

/-! ## What is written -/

/-- The session of `set_incoming_request/5`. -/
def incomingRequest (env : Env) (reqId : String) (jingleEl : Element) : Session where
  dialog     := none
  state      := none
  direction  := .incoming
  request    := some reqId
  node       := env.node
  owner      := call.toUser
  fromUser   := call.fromUser
  toUser     := call.toUser
  now        := env.now
  initStanza := some jingleEl

/-- The session of `set_outgoing_request/4`. -/
def outgoingRequest (env : Env) (reqId : String) : Session where
  dialog     := none
  state      := none
  direction  := .outgoing
  request    := some reqId
  node       := env.node
  owner      := call.fromUser
  fromUser   := call.fromUser
  toUser     := call.toUser
  now        := env.now
  initStanza := none

/-- The session that `set_outgoing_handle/4` makes when there is none. In a response to the request,
its `From` is the user who was called. -/
def outgoingHandle (env : Env) (dialogHandle : String) : Session where
  dialog     := some dialogHandle
  state      := some .ringing
  direction  := .outgoing
  request    := none
  node       := env.node
  owner      := call.respTo
  fromUser   := call.respTo
  toUser     := call.respFrom
  now        := env.now
  initStanza := none

variable (node dialogHandle : String) (session : Session)

/-- `do_set_incoming_handle/2` -/
def doSetIncomingHandle : Except SessionError Session :=
  if session.dialog = none ∧ session.direction = .incoming then
    .ok { session with
      dialog := some dialogHandle
      node   := node }
  else .error .incomingHandleExists

/-- `do_set_outgoing_handle/2` -/
def doSetOutgoingHandle : Except SessionError Session :=
  if session.dialog = none ∧ session.direction = .outgoing then
    .ok { session with
      dialog := some dialogHandle
      node   := node }
  else .error .outgoingHandleExists

/-- `do_set_incoming_accepted/1` -/
def doSetIncomingAccepted : Except SessionError Session :=
  if session.direction = .incoming then
    .ok { session with
      state      := some .accepted
      initStanza := none }
  else .error .notFound

/-- `do_set_outgoing_accepted/1` -/
def doSetOutgoingAccepted : Except SessionError Session :=
  if session.direction = .outgoing then .ok { session with state := some .accepted }
  else .error .notFound

/-! ## The backends -/

/-- `backend` -/
inductive Backend
  | mnesia
  | cets

/-- A write of CETS that is yet to come. -/
inductive Write
  /-- `cets:insert_new/2` -/
  | insertNew (session : Session)
  /-- `cets:insert/2` -/
  | insert (session : Session)

/-- What an operation has come to when the table was accessed once. -/
inductive Outcome
  | done (result : Result) (table : Table)
  | pending (write : Write)

variable (backend : Backend)

/-- `write_new_session/2` -/
def Backend.writeNewSession (session : Session) (table : Table) : Outcome :=
  match backend, table with
  | _, some _ => .done (.error .conflict) table
  | .mnesia, none => .done (.ok ()) (some session)
  | .cets, none => .pending (.insertNew session)

/-- `update_session/2` -/
def Backend.updateSession (f : Session → Except SessionError Session) (table : Table) : Outcome :=
  match table with
  | none => .done (.error .notFound) table
  | some session =>
    match f session with
    | .error error => .done (.error error) table
    | .ok session₂ =>
      match backend with
      | .mnesia => .done (.ok ()) (some session₂)
      | .cets => .pending (.insert session₂)

/-- The write of CETS. -/
def Write.commit (write : Write) (table : Table) : Result × Table :=
  match write, table with
  | .insertNew _, some _ => (.error .conflict, table)
  | .insertNew session, none => (.ok (), some session)
  | .insert session, _ => (.ok (), some session)

/-! ## Operations -/

/-- What is done to the session of a call. -/
inductive Op
  /-- `set_incoming_request/5` or `set_outgoing_request/4` -/
  | setRequest (reqId : String) (jingleEl : Element)
  /-- `set_incoming_handle/2` or `set_outgoing_handle/4` -/
  | setHandle (dialogHandle : String)
  /-- `set_incoming_accepted/1` or `set_outgoing_accepted/1` -/
  | setAccepted
  | removeSession
  | callEnds
  | nothing

/-- The session of a request. -/
def Call.request (env : Env) (reqId : String) (jingleEl : Element) : Session :=
  match call.direction with
  | .incoming => incomingRequest call env reqId jingleEl
  | .outgoing => outgoingRequest call env reqId

/-- `do_set_incoming_handle/2` or `do_set_outgoing_handle/2` -/
def Call.doSetHandle (node dialogHandle : String) : Session → Except SessionError Session :=
  match call.direction with
  | .incoming => doSetIncomingHandle node dialogHandle
  | .outgoing => doSetOutgoingHandle node dialogHandle

/-- `do_set_incoming_accepted/1` or `do_set_outgoing_accepted/1` -/
def Call.doSetAccepted : Session → Except SessionError Session :=
  match call.direction with
  | .incoming => doSetIncomingAccepted
  | .outgoing => doSetOutgoingAccepted

/-- `invite_resp_callback/1`: what it does to the session. -/
def inviteRespCallback (code : ℕ) (dialogHandle : String) : Op :=
  if code = 180 ∨ code = 183 then .setHandle dialogHandle
  else if code = 200 then .setAccepted
  -- 487 confirms that the call is cancelled, and 486 says that the other side is busy
  else if code = 487 ∨ code = 486 then .callEnds
  else if 400 ≤ code ∧ code ≤ 700 then .removeSession
  else .nothing

/-! ## The processes of a call -/

/-- What a process has still to do. -/
inductive Task
  /-- `set_outgoing_handle/4` has found no session. -/
  | fallback (dialogHandle : String)
  | write (op : Op) (write : Write)

/-- The table, the processes, and what has happened. -/
structure State where
  table : Table
  tasks : ℕ → Option Task
  handles : List String
  accepted : Bool
  removed : Bool
  ended : Bool
  crashed : Bool
  results : List (ℕ × Result)

/-- What happens next. -/
inductive Event
  /-- `session-initiate` of the client, or an INVITE. -/
  | initiate (id : ℕ) (env : Env) (reqId : String) (jingleEl : Element)
  /-- A response to the request, with its code and the handle of its dialog. -/
  | response (id : ℕ) (env : Env) (code : ℕ) (dialogHandle : String)
  /-- `sip_dialog_update/3` of a call that was received. -/
  | dialogStart (id : ℕ) (env : Env) (dialogHandle : String)
  /-- `session-accept` of the client. -/
  | accept (id : ℕ) (env : Env)
  /-- `sip_bye/2` or `sip_cancel/3` -/
  | bye (id : ℕ) (env : Env)
  /-- What ends the call for `session-terminate` of the client, a BYE, a CANCEL or `busy`, is
  confirmed. -/
  | terminated (id : ℕ) (env : Env)
  | next (id : ℕ) (env : Env)

/-- What is done to the session first. -/
def Event.op : Event → Option Op
  | .initiate _ _ reqId jingleEl => some (.setRequest reqId jingleEl)
  | .response _ _ code dialogHandle =>
    if call.direction = .outgoing then some (inviteRespCallback code dialogHandle) else none
  | .dialogStart _ _ dialogHandle =>
    if call.direction = .incoming then some (.setHandle dialogHandle) else none
  | .accept _ _ => if call.direction = .incoming then some .setAccepted else none
  | .bye _ _ => some .removeSession
  | .terminated _ _ => some .callEnds
  | .next _ _ => none

/-- The process. -/
def Event.id : Event → ℕ
  | .initiate id _ _ _ | .response id _ _ _ | .dialogStart id _ _ | .accept id _ | .bye id _
  | .terminated id _ | .next id _ => id

/-- Where it runs, and when. -/
def Event.env : Event → Env
  | .initiate _ env _ _ | .response _ env _ _ | .dialogStart _ env _ | .accept _ env | .bye _ env
  | .terminated _ env | .next _ env => env

variable (s : State) (id : ℕ)

/-- A process has something to do, or is done. -/
def State.setTask (task : Option Task) : State :=
  { s with tasks := Function.update s.tasks id task }

/-- What an operation has recorded that has succeeded. -/
def State.record : Op → State
  | .setRequest _ _ | .callEnds | .nothing => s
  | .setHandle dialogHandle => { s with handles := dialogHandle :: s.handles }
  | .setAccepted => { s with accepted := true }
  | .removeSession => { s with removed := true }

/-- `ok = set_outgoing_accepted(CallID)` in a callback. -/
def Call.crashes : Op → Bool
  | .setAccepted => call.direction = .outgoing
  | _ => false

/-- An operation returns. -/
def State.finish (s : State) (id : ℕ) (op : Op) (result : Result) (table : Table) : State :=
  let s := { s.setTask id none with results := (id, result) :: s.results }
  match result with
  | .ok () => { s.record op with table := table }
  | .error _ => { s with crashed := s.crashed || call.crashes op }

/-- An access of the table has this outcome. -/
def State.proceed (s : State) (id : ℕ) (op : Op) : Outcome → State
  | .done result table => s.finish call id op result table
  | .pending write => s.setTask id (some (.write op write))

variable (s : State)

/-- A process starts. -/
def start (id : ℕ) (env : Env) : Op → State
  | .setRequest reqId jingleEl =>
    s.proceed call id (.setRequest reqId jingleEl)
      (backend.writeNewSession (call.request env reqId jingleEl) s.table)
  | .setHandle dialogHandle =>
    match call.direction,
      backend.updateSession (call.doSetHandle env.node dialogHandle) s.table with
    | .outgoing, .done (.error .notFound) _ => s.setTask id (some (.fallback dialogHandle))
    | _, outcome => s.proceed call id (.setHandle dialogHandle) outcome
  | .setAccepted =>
    s.proceed call id .setAccepted (backend.updateSession call.doSetAccepted s.table)
  | .removeSession =>
    { s.finish call id .removeSession (.ok ()) none with ended := true }
  | .callEnds => { s with ended := true }
  | .nothing => s

/-- The next access of the table. -/
def step (backend : Backend) (s : State) (e : Event) : Option State :=
  match s.tasks e.id, e.op call with
  | none, some op => some (start call backend s e.id e.env op)
  | some (.fallback dialogHandle), none =>
    some (s.proceed call e.id (.setHandle dialogHandle)
      (backend.writeNewSession (outgoingHandle call e.env dialogHandle) s.table))
  | some (.write op write), none =>
    let (result, table) := write.commit s.table
    some (s.finish call e.id op result table)
  | _, _ => none

/-- Nothing has happened. -/
def init : State where
  table := none
  tasks _ := none
  handles := []
  accepted := false
  removed := false
  ended := false
  crashed := false
  results := []

/-! ## One operation after another -/

/-- A process goes on, if it has something to do. -/
def goOn (env : Env) (s : State) : State :=
  (step call backend s (.next id env)).getD s

/-- A process does all it has to do. -/
def execute (process : ℕ × Env × Op) : State :=
  let (id, env, op) := process
  goOn call backend id env (goOn call backend id env (start call backend s id env op))

variable (processes : List (ℕ × Env × Op))

/-- Processes that do not overlap. -/
def executeAll : State :=
  processes.foldl (execute call backend) s

section Alone

variable {call : Call} {s : State} {id : ℕ} {env : Env}

theorem goOn_of_none (backend : Backend) (h : s.tasks id = none) :
    goOn call backend id env s = s := by
  simp [goOn, step, Event.id, Event.op, h]

theorem goOn_fallback (backend : Backend) {dialogHandle : String}
    (h : s.tasks id = some (.fallback dialogHandle)) :
    goOn call backend id env s = s.proceed call id (.setHandle dialogHandle)
    (backend.writeNewSession (outgoingHandle call env dialogHandle) s.table) := by
  simp [goOn, step, Event.id, Event.op, Event.env, h]

theorem goOn_write (backend : Backend) {op : Op} {write : Write}
    (h : s.tasks id = some (.write op write)) :
    goOn call backend id env s =
    s.finish call id op (write.commit s.table).1 (write.commit s.table).2 := by
  simp [goOn, step, Event.id, Event.op, h]

@[simp] theorem tasks_setTask (task : Option Task) :
    (s.setTask id task).tasks = Function.update s.tasks id task := rfl

@[simp] theorem table_setTask (task : Option Task) : (s.setTask id task).table = s.table := rfl

@[simp] theorem tasks_record (op : Op) : (s.record op).tasks = s.tasks := by
  cases op <;> rfl

@[simp] theorem tasks_finish (call : Call) (s : State) (id : ℕ) (op : Op) (result : Result)
    (table : Table) :
    (s.finish call id op result table).tasks = Function.update s.tasks id none := by
  cases result with
  | error error => rfl
  | ok value => simp [State.finish]

/-- What a process was going to do before does not matter when it is done. -/
theorem finish_setTask (s : State) (id : ℕ) (task : Option Task) (op : Op)
    (result : Result) (table : Table) :
    (s.setTask id task).finish call id op result table = s.finish call id op result table := by
  have hset : (s.setTask id task).setTask id none = s.setTask id none := by
    simp [State.setTask]
  cases result with
  | error error => simp only [State.finish, hset]; rfl
  | ok value => simp only [State.finish, hset]; rfl

variable (op : Op)

/-- An access of the table with what follows from it at once, on both backends. -/
theorem proceed_writeNewSession (session : Session) :
    goOn call .cets id env (s.proceed call id op (Backend.cets.writeNewSession session s.table)) =
    s.proceed call id op (Backend.mnesia.writeNewSession session s.table) := by
  cases htable : s.table with
  | some current => exact goOn_of_none _ (by simp [State.proceed, Backend.writeNewSession])
  | none =>
    show goOn call .cets id env (s.setTask id (some (.write op (.insertNew session)))) =
      s.finish call id op (.ok ()) (some session)
    rw [goOn_write _ (Function.update_self id _ _), finish_setTask, table_setTask, htable]
    rfl

variable (f : Session → Except SessionError Session)

theorem proceed_updateSession :
    goOn call .cets id env (s.proceed call id op (Backend.cets.updateSession f s.table)) =
    s.proceed call id op (Backend.mnesia.updateSession f s.table) := by
  cases htable : s.table with
  | none => exact goOn_of_none _ (by simp [State.proceed, Backend.updateSession])
  | some current =>
    cases hf : f current with
    | error error =>
      simp only [Backend.updateSession, hf]
      exact goOn_of_none _ (by simp [State.proceed])
    | ok session₂ =>
      simp only [Backend.updateSession, hf]
      show goOn call .cets id env (s.setTask id (some (.write op (.insert session₂)))) =
        s.finish call id op (.ok ()) (some session₂)
      rw [goOn_write _ (Function.update_self id _ _), finish_setTask]
      rfl

/-- Once the table is written, nothing is left to be done. -/
theorem tasks_proceed_mnesia_writeNewSession (session : Session) (table : Table) :
    (s.proceed call id op (Backend.mnesia.writeNewSession session table)).tasks =
    Function.update s.tasks id none := by
  cases table <;> simp [Backend.writeNewSession, State.proceed]

theorem tasks_proceed_mnesia_updateSession (table : Table) :
    (s.proceed call id op (Backend.mnesia.updateSession f table)).tasks =
    Function.update s.tasks id none := by
  cases table with
  | none => simp [Backend.updateSession, State.proceed]
  | some session => cases hf : f session <;> simp [Backend.updateSession, State.proceed, hf]

/-- A handle is written by `set_outgoing_handle/4` itself when there is no session. -/
theorem start_setHandle (backend : Backend) (s : State) (id : ℕ) (env : Env)
    (dialogHandle : String) :
    start call backend s id env (.setHandle dialogHandle) =
    if call.direction = .outgoing ∧ s.table = none then
      s.setTask id (some (.fallback dialogHandle))
    else
      s.proceed call id (.setHandle dialogHandle)
        (backend.updateSession (call.doSetHandle env.node dialogHandle) s.table) := by
  cases hdirection : call.direction with
  | incoming => simp [start, hdirection]
  | outgoing =>
    cases htable : s.table with
    | none => simp [start, hdirection, htable, Backend.updateSession]
    | some session =>
      cases hhandle : doSetOutgoingHandle env.node dialogHandle session with
      | error error =>
        have herror : error ≠ .notFound := by
          rintro rfl
          unfold doSetOutgoingHandle at hhandle
          split at hhandle <;> cases hhandle
        cases error <;> simp_all [start, Backend.updateSession, Call.doSetHandle]
      | ok session₂ =>
        cases backend <;>
          simp [start, hdirection, htable, Backend.updateSession, Call.doSetHandle, hhandle]

/-- **A process on its own does the same on both backends.** -/
theorem execute_eq (hnone : s.tasks id = none) (op : Op) :
    execute call .cets s (id, env, op) = execute call .mnesia s (id, env, op) ∧
    (execute call .mnesia s (id, env, op)).tasks = s.tasks := by
  have hupdate : Function.update s.tasks id none = s.tasks := by
    rw [← hnone, Function.update_eq_self]
  -- a process that is done, and one that has to access the table once more on CETS
  have hdone : ∀ (backend : Backend) {t : State}, t.tasks = Function.update s.tasks id none →
      goOn call backend id env t = t := by
    intro backend t ht
    exact goOn_of_none backend (by rw [ht, Function.update_self])
  have honce : ∀ {t u : State}, goOn call .cets id env t = u →
      u.tasks = Function.update s.tasks id none →
        goOn call .cets id env (goOn call .cets id env t) = goOn call .mnesia id env
          (goOn call .mnesia id env u) ∧
        (goOn call .mnesia id env (goOn call .mnesia id env u)).tasks = s.tasks := by
    intro t u htu hu
    rw [htu, hdone .cets hu, hdone .mnesia hu, hdone .mnesia hu, hu]
    exact ⟨rfl, hupdate⟩
  simp only [execute]
  cases op with
  | setRequest reqId jingleEl =>
    exact honce (proceed_writeNewSession _ _) (tasks_proceed_mnesia_writeNewSession _ _ _)
  | setHandle dialogHandle =>
    rw [start_setHandle, start_setHandle]
    split
    · have hfallback : ∀ backend : Backend,
          goOn call backend id env (s.setTask id (some (.fallback dialogHandle))) =
            (s.setTask id (some (.fallback dialogHandle))).proceed call id (.setHandle dialogHandle)
              (backend.writeNewSession (outgoingHandle call env dialogHandle) s.table) :=
        fun backend => goOn_fallback backend (Function.update_self id _ _)
      have htasks : ((s.setTask id (some (.fallback dialogHandle))).proceed call id
          (.setHandle dialogHandle) (Backend.mnesia.writeNewSession
            (outgoingHandle call env dialogHandle) s.table)).tasks =
          Function.update s.tasks id none := by
        rw [tasks_proceed_mnesia_writeNewSession, tasks_setTask, Function.update_idem]
      rw [hfallback, hfallback, hdone .mnesia htasks, htasks]
      exact ⟨proceed_writeNewSession _ _, hupdate⟩
    · exact honce (proceed_updateSession _ _) (tasks_proceed_mnesia_updateSession _ _ _)
  | setAccepted =>
    exact honce (proceed_updateSession _ _) (tasks_proceed_mnesia_updateSession _ _ _)
  | removeSession =>
    exact honce (hdone .cets (tasks_finish call s id _ _ _)) (tasks_finish call s id _ _ _)
  | callEnds => exact honce (hdone .cets hupdate.symm) hupdate.symm
  | nothing => exact honce (hdone .cets hupdate.symm) hupdate.symm

end Alone

/-- **Both backends do the same** where processes do not overlap. -/
theorem executeAll_eq {s : State} (hnone : ∀ id, s.tasks id = none) :
    executeAll call .cets s processes = executeAll call .mnesia s processes := by
  induction processes generalizing s with
  | nil => rfl
  | cons process processes ih =>
    obtain ⟨id, env, op⟩ := process
    obtain ⟨heq, htasks⟩ := execute_eq (hnone id) op
    rw [executeAll, List.foldl_cons, heq]
    exact ih fun other => by rw [htasks, hnone other]

end MongooseIM.JingleSip
