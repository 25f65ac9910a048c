import MongooseIM.JingleSip.SipSession
import MongooseIM.Transition.Run

/-! # Whether sessions of calls are consistent

A session is the local user's, has all that was recorded, and is gone when the call is, exactly in
the runs whose steps are `Clean`. -/

namespace MongooseIM.JingleSip

open Transition

/-- **The session of a call is consistent.** -/
structure Consistent (call : Call) (s : State) : Prop where
  owner : ∀ session, s.table = some session → session.owner = call.localUser
  handles : s.removed = false → ∀ handle ∈ s.handles,
    ∃ session, s.table = some session ∧ session.dialog = some handle
  accepted : s.removed = false → s.accepted = true →
    ∃ session, s.table = some session ∧ session.state = some .accepted
  alive : s.crashed = false
  /-- It is gone once it was removed, or the call has ended. -/
  gone : s.removed = true ∨ s.ended = true → s.table = none

/-- The session was not removed, and the call has not ended. -/
def State.Live (s : State) : Prop := s.removed = false ∧ s.ended = false

/-- **What an access is asked for.** A session is made for a live call of the local user; CETS
writes what is up to date; an accepted call has a session, and one that ends otherwise has none. -/
def Clean (call : Call) (backend : Backend) (s : State) (e : Event) : Prop :=
  match s.tasks e.id, e.op call with
  | none, some (.setRequest _ _) => backend = .mnesia → s.table = none → s.Live
  | none, some .setAccepted => call.direction = .outgoing → s.table ≠ none
  | none, some .callEnds => s.table = none
  | some (.fallback _), none =>
    backend = .mnesia → s.table = none → s.Live ∧ call.respTo = call.localUser
  | some (.write _ (.insertNew session)), none =>
    s.table = none → s.Live ∧ session.owner = call.localUser
  | some (.write _ (.insert session)), none =>
    s.Live ∧ ∀ current, s.table = some current →
      (∀ handle, current.dialog = some handle → session.dialog = some handle) ∧
        (current.state = some .accepted → session.state = some .accepted)
  | _, _ => True

/-- What is written for an operation. -/
def Op.Makes (op : Op) (session : Session) : Prop :=
  match op with
  | .setRequest _ _ => session.dialog = none ∧ session.state = none
  | .setHandle dialogHandle => session.dialog = some dialogHandle
  | .setAccepted => session.state = some .accepted
  | _ => False

/-- What a process knows that will write the table. -/
structure WriteOk (call : Call) (s : State) (op : Op) (session : Session) : Prop where
  makes : op.Makes session
  direction : session.direction = call.direction
  dialog : ∀ handle, session.dialog = some handle → handle ∈ (s.record op).handles
  /-- So was that the call is accepted, or it will be. -/
  state : session.state = some .accepted → (s.record op).accepted = true

/-- What a process knows. -/
def TaskOk (call : Call) (s : State) : Task → Prop
  | .fallback _ => call.direction = .outgoing
  | .write op (.insertNew session) => WriteOk call s op session ∧ call.crashes op = false
  | .write op (.insert session) => WriteOk call s op session ∧ session.owner = call.localUser

/-- What the table and the processes hold. -/
structure Inv (call : Call) (s : State) : Prop where
  direction : ∀ session, s.table = some session → session.direction = call.direction
  dialog : ∀ session, s.table = some session → ∀ handle, session.dialog = some handle →
    handle ∈ s.handles
  state : ∀ session, s.table = some session → session.state = some .accepted → s.accepted = true
  tasks : ∀ id task, s.tasks id = some task → TaskOk call s task

section Finish

variable {call : Call} {s s' : State} {id : ℕ} {op : Op} {session : Session}

@[simp] theorem finish_ok (call : Call) (s : State) (id : ℕ) (op : Op) (table : Table) :
    s.finish call id op (.ok ()) table =
    { s.record op with
      table := table
      tasks := Function.update s.tasks id none
      results := (id, .ok ()) :: s.results } := by
  cases op <;> rfl

@[simp] theorem finish_error (call : Call) (s : State) (id : ℕ) (op : Op) (error : SessionError)
    (table : Table) :
    s.finish call id op (.error error) table =
    { s with
      tasks := Function.update s.tasks id none
      crashed := s.crashed || call.crashes op
      results := (id, .error error) :: s.results } := rfl

theorem mem_handles_record {handle : String} :
    handle ∈ (s.record op).handles ↔ handle ∈ s.handles ∨ op = .setHandle handle := by
  cases op <;> simp [State.record, eq_comm, or_comm]

theorem accepted_record : (s.record op).accepted = true ↔ s.accepted = true ∨ op = .setAccepted := by
  cases op <;> simp [State.record]

theorem removed_record (hmakes : op.Makes session) : (s.record op).removed = s.removed := by
  cases op with
  | removeSession => exact hmakes.elim
  | _ => rfl

@[simp] theorem ended_record (s : State) (op : Op) : (s.record op).ended = s.ended := by
  cases op <;> rfl

@[simp] theorem crashed_record (s : State) (op : Op) : (s.record op).crashed = s.crashed := by
  cases op <;> rfl

/-- What is recorded stays so. -/
structure Extends (s s' : State) : Prop where
  handles : ∀ handle ∈ s.handles, handle ∈ s'.handles
  accepted : s.accepted = true → s'.accepted = true

theorem Extends.record (s : State) (op : Op) : Extends s (s.record op) where
  handles _ hmem := mem_handles_record.2 (.inl hmem)
  accepted haccepted := accepted_record.2 (.inl haccepted)

theorem WriteOk.mono (h : WriteOk call s op session) (hext : Extends s s') :
    WriteOk call s' op session where
  makes := h.makes
  direction := h.direction
  dialog handle hdialog := by
    have hmem := h.dialog handle hdialog
    rw [mem_handles_record] at hmem ⊢
    exact hmem.imp_left (hext.handles handle)
  state hstate := by
    have haccepted := h.state hstate
    rw [accepted_record] at haccepted ⊢
    exact haccepted.imp_left hext.accepted

theorem TaskOk.mono {task : Task} (h : TaskOk call s task) (hext : Extends s s') :
    TaskOk call s' task := by
  cases task with
  | fallback dialogHandle => exact h
  | write op write =>
    cases write with
    | insertNew session => exact ⟨h.1.mono hext, h.2⟩
    | insert session => exact ⟨h.1.mono hext, h.2⟩

theorem Inv.tasks_update (hinv : Inv call s) (id : ℕ) (hext : Extends s s') {task : Option Task}
    (htasks : s'.tasks = Function.update s.tasks id task)
    (htask : ∀ t, task = some t → TaskOk call s' t) :
    ∀ other t, s'.tasks other = some t → TaskOk call s' t := by
  intro other t ht
  rw [htasks] at ht
  by_cases heq : other = id
  · rw [heq, Function.update_self] at ht
    exact htask t ht
  · rw [Function.update_of_ne heq] at ht
    exact (hinv.tasks other t ht).mono hext

/-! ### Reading -/

theorem wait_ok (hinv : Inv call s) (hs : Consistent call s) (id : ℕ) {task : Task}
    (htask : TaskOk call s task) :
    Consistent call (s.setTask id (some task)) ∧ Inv call (s.setTask id (some task)) := by
  have hext : Extends s (s.setTask id (some task)) :=
    ⟨fun _ hmem => hmem, fun haccepted => haccepted⟩
  refine ⟨{ hs with },
    { hinv with tasks := ?_ }⟩
  refine hinv.tasks_update id hext rfl ?_
  rintro t ht
  cases ht
  exact htask.mono hext

theorem error_ok (hinv : Inv call s) (hs : Consistent call s) (id : ℕ) (op : Op)
    (error : SessionError) (table : Table) :
    (Consistent call (s.finish call id op (.error error) table) ↔ call.crashes op = false) ∧
    Inv call (s.finish call id op (.error error) table) := by
  rw [finish_error]
  constructor
  · constructor
    · intro h
      have halive := h.alive
      simpa [hs.alive] using halive
    · intro hcrashes
      exact { hs with alive := by simp [hs.alive, hcrashes] }
  · refine { hinv with tasks := ?_ }
    refine hinv.tasks_update id ⟨fun _ hmem => hmem, fun haccepted => haccepted⟩ rfl ?_
    rintro t ht
    cases ht

/-! ### Writing -/

theorem inv_write (hinv : Inv call s) (hwrite : WriteOk call s op session) :
    Inv call (s.finish call id op (.ok ()) (some session)) := by
  rw [finish_ok]
  refine ⟨?_, ?_, ?_, ?_⟩
  · rintro _ ⟨rfl⟩
    exact hwrite.direction
  · rintro _ ⟨rfl⟩
    exact hwrite.dialog
  · rintro _ ⟨rfl⟩
    exact hwrite.state
  · have hext := Extends.record s op
    refine hinv.tasks_update id ⟨hext.handles, hext.accepted⟩ rfl ?_
    rintro t ht
    cases ht

theorem live_of_consistent_write (hmakes : op.Makes session)
    (h : Consistent call (s.finish call id op (.ok ()) (some session))) : s.Live := by
  rw [finish_ok] at h
  have hgone : ¬ (s.removed = true ∨ s.ended = true) := by
    intro hor
    have htable : (some session : Table) = none := h.gone (by
      rw [removed_record hmakes, ended_record]
      exact hor)
    cases htable
  simpa [State.Live, not_or] using hgone

/-- **A session is made** where the call is live, and for the local user. -/
theorem insertNew_iff (hs : Consistent call s) (htable : s.table = none)
    (hwrite : WriteOk call s op session) :
    Consistent call (s.finish call id op (.ok ()) (some session)) ↔
    s.Live ∧ session.owner = call.localUser := by
  constructor
  · intro h
    refine ⟨live_of_consistent_write hwrite.makes h, ?_⟩
    rw [finish_ok] at h
    exact h.owner session rfl
  · rintro ⟨⟨hremoved, hended⟩, howner⟩
    -- nothing was recorded before, since there was no session
    have hnone : ∀ handle, handle ∉ s.handles := by
      intro handle hmem
      obtain ⟨_, hsome, -⟩ := hs.handles hremoved handle hmem
      rw [htable] at hsome
      cases hsome
    have hunaccepted : s.accepted = false := by
      rw [← Bool.not_eq_true]
      intro haccepted
      obtain ⟨_, hsome, -⟩ := hs.accepted hremoved haccepted
      rw [htable] at hsome
      cases hsome
    rw [finish_ok]
    refine ⟨?_, ?_, ?_, ?_, ?_⟩
    · rintro _ ⟨rfl⟩
      exact howner
    · intro _ handle hmem
      rcases mem_handles_record.1 hmem with hmem | rfl
      · exact absurd hmem (hnone handle)
      · exact ⟨session, rfl, hwrite.makes⟩
    · intro _ haccepted
      rcases accepted_record.1 haccepted with haccepted | rfl
      · rw [hunaccepted] at haccepted
        cases haccepted
      · exact ⟨session, rfl, hwrite.makes⟩
    · rw [crashed_record]
      exact hs.alive
    · rw [removed_record hwrite.makes, ended_record, hremoved, hended]
      rintro (hcontra | hcontra) <;> cases hcontra

/-- **A session is changed** where the call is live and the record that is written has what was
recorded. -/
theorem insert_iff (hinv : Inv call s) (hs : Consistent call s)
    (hwrite : WriteOk call s op session) (howner : session.owner = call.localUser) :
    Consistent call (s.finish call id op (.ok ()) (some session)) ↔
    s.Live ∧ ∀ current, s.table = some current →
      (∀ handle, current.dialog = some handle → session.dialog = some handle) ∧
        (current.state = some .accepted → session.state = some .accepted) := by
  constructor
  · intro h
    have hlive := live_of_consistent_write hwrite.makes h
    rw [finish_ok] at h
    have hremoved : (s.record op).removed = false := by
      rw [removed_record hwrite.makes]
      exact hlive.1
    refine ⟨hlive, ?_⟩
    intro current hcurrent
    constructor
    · intro handle hdialog
      have hmem : handle ∈ (s.record op).handles :=
        mem_handles_record.2 (.inl (hinv.dialog current hcurrent handle hdialog))
      obtain ⟨_, ⟨rfl⟩, hkept⟩ := h.handles hremoved handle hmem
      exact hkept
    · intro hstate
      have haccepted : (s.record op).accepted = true :=
        accepted_record.2 (.inl (hinv.state current hcurrent hstate))
      obtain ⟨_, ⟨rfl⟩, hkept⟩ := h.accepted hremoved haccepted
      exact hkept
  · rintro ⟨⟨hremoved, hended⟩, hkeeps⟩
    rw [finish_ok]
    refine ⟨?_, ?_, ?_, ?_, ?_⟩
    · rintro _ ⟨rfl⟩
      exact howner
    · intro _ handle hmem
      refine ⟨session, rfl, ?_⟩
      rcases mem_handles_record.1 hmem with hmem | rfl
      · obtain ⟨current, hcurrent, hdialog⟩ := hs.handles hremoved handle hmem
        exact (hkeeps current hcurrent).1 handle hdialog
      · exact hwrite.makes
    · intro _ haccepted
      refine ⟨session, rfl, ?_⟩
      rcases accepted_record.1 haccepted with haccepted | rfl
      · obtain ⟨current, hcurrent, hstate⟩ := hs.accepted hremoved haccepted
        exact (hkeeps current hcurrent).2 hstate
      · exact hwrite.makes
    · rw [crashed_record]
      exact hs.alive
    · rw [removed_record hwrite.makes, ended_record, hremoved, hended]
      rintro (hcontra | hcontra) <;> cases hcontra

/-! ### Operations up to their first write -/

/-- What an update makes of a session. -/
structure Updates (call : Call) (op : Op) (f : Session → Except SessionError Session) : Prop where
  makes : ∀ {session session₂}, f session = .ok session₂ → op.Makes session₂
  owner : ∀ {session session₂}, f session = .ok session₂ → session₂.owner = session.owner
  direction : ∀ {session session₂}, f session = .ok session₂ →
    session₂.direction = session.direction
  dialog : ∀ {session session₂}, f session = .ok session₂ → ∀ handle,
    session₂.dialog = some handle ↔ session.dialog = some handle ∨ op = .setHandle handle
  state : ∀ {session session₂}, f session = .ok session₂ →
    (session₂.state = some .accepted ↔ session.state = some .accepted ∨ op = .setAccepted)
  /-- A callback does not crash when there is a session. -/
  alive : ∀ {session error}, f session = .error error → session.direction = call.direction →
    call.crashes op = false

theorem updates_doSetHandle (call : Call) (node dialogHandle : String) :
    Updates call (.setHandle dialogHandle) (call.doSetHandle node dialogHandle) := by
  have hok : ∀ {session session₂ : Session},
      call.doSetHandle node dialogHandle session = .ok session₂ → session.dialog = none ∧
        session₂ = { session with dialog := some dialogHandle, node := node } := by
    intro session session₂ h
    cases hdirection : call.direction with
    | incoming =>
      simp only [Call.doSetHandle, hdirection, doSetIncomingHandle] at h
      split at h
      · next hnone => exact ⟨hnone.1, (Except.ok.inj h).symm⟩
      · cases h
    | outgoing =>
      simp only [Call.doSetHandle, hdirection, doSetOutgoingHandle] at h
      split at h
      · next hnone => exact ⟨hnone.1, (Except.ok.inj h).symm⟩
      · cases h
  refine ⟨?_, ?_, ?_, ?_, ?_, ?_⟩
  · intro session session₂ h
    obtain ⟨-, rfl⟩ := hok h
    rfl
  · intro session session₂ h
    obtain ⟨-, rfl⟩ := hok h
    rfl
  · intro session session₂ h
    obtain ⟨-, rfl⟩ := hok h
    rfl
  · intro session session₂ h handle
    obtain ⟨hnone, rfl⟩ := hok h
    simp [hnone]
  · intro session session₂ h
    obtain ⟨-, rfl⟩ := hok h
    simp
  · intros
    rfl

theorem updates_doSetAccepted (call : Call) : Updates call .setAccepted call.doSetAccepted := by
  have hok : ∀ {session session₂ : Session}, call.doSetAccepted session = .ok session₂ →
      session₂.dialog = session.dialog ∧ session₂.state = some .accepted ∧
        session₂.owner = session.owner ∧ session₂.direction = session.direction := by
    intro session session₂ h
    cases hdirection : call.direction with
    | incoming =>
      simp only [Call.doSetAccepted, hdirection, doSetIncomingAccepted] at h
      split at h <;> cases h
      exact ⟨rfl, rfl, rfl, rfl⟩
    | outgoing =>
      simp only [Call.doSetAccepted, hdirection, doSetOutgoingAccepted] at h
      split at h <;> cases h
      exact ⟨rfl, rfl, rfl, rfl⟩
  refine ⟨?_, ?_, ?_, ?_, ?_, ?_⟩
  · intro session session₂ h
    exact (hok h).2.1
  · intro session session₂ h
    exact (hok h).2.2.1
  · intro session session₂ h
    exact (hok h).2.2.2
  · intro session session₂ h handle
    simp [(hok h).1]
  · intro session session₂ h
    simp [(hok h).2.1]
  · intro session error h hsession
    cases hdirection : call.direction with
    | incoming => simp [Call.crashes, hdirection]
    | outgoing =>
      -- only a session of the other direction is refused
      rw [hdirection] at hsession
      simp [Call.doSetAccepted, hdirection, doSetOutgoingAccepted, hsession] at h

/-- **An update** is consistent unless its failure crashes the callback. -/
theorem proceed_update_ok (hinv : Inv call s) (hs : Consistent call s) (backend : Backend) (id : ℕ)
    {f : Session → Except SessionError Session} (hf : Updates call op f) :
    (Consistent call (s.proceed call id op (backend.updateSession f s.table)) ↔
    (call.crashes op = true → s.table ≠ none)) ∧
    Inv call (s.proceed call id op (backend.updateSession f s.table)) := by
  cases htable : s.table with
  | none =>
    obtain ⟨hiff, hinv'⟩ := error_ok hinv hs id op .notFound none
    refine ⟨hiff.trans ?_, hinv'⟩
    simp
  | some session =>
    have hnone : (some session : Table) ≠ none := Option.some_ne_none session
    cases hsession : f session with
    | error error =>
      have halive := hf.alive hsession (hinv.direction session htable)
      obtain ⟨hiff, hinv'⟩ := error_ok hinv hs id op error (some session)
      simp only [Backend.updateSession, hsession]
      exact ⟨hiff.trans (by simp [halive]), hinv'⟩
    | ok session₂ =>
      have hwrite : WriteOk call s op session₂ := by
        refine ⟨hf.makes hsession, ?_, ?_, ?_⟩
        · rw [hf.direction hsession, hinv.direction session htable]
        · intro handle hdialog
          rw [mem_handles_record]
          exact ((hf.dialog hsession handle).1 hdialog).imp_left (hinv.dialog session htable handle)
        · intro hstate
          rw [accepted_record]
          exact ((hf.state hsession).1 hstate).imp_left (hinv.state session htable)
      have howner : session₂.owner = call.localUser := by
        rw [hf.owner hsession, hs.owner session htable]
      simp only [Backend.updateSession, hsession]
      cases backend with
      | mnesia =>
        refine ⟨?_, inv_write hinv hwrite⟩
        refine iff_of_true ((insert_iff hinv hs hwrite howner).2 ⟨?_, ?_⟩) fun _ => hnone
        · -- there is a session, so it is not gone
          have hgone : ¬ (s.removed = true ∨ s.ended = true) := by
            intro hor
            rw [hs.gone hor] at htable
            cases htable
          simpa [State.Live, not_or] using hgone
        · intro current hcurrent
          cases (htable.symm.trans hcurrent)
          exact ⟨fun handle hdialog => (hf.dialog hsession handle).2 (.inl hdialog),
            fun hstate => (hf.state hsession).2 (.inl hstate)⟩
      | cets =>
        have htask : TaskOk call s (.write op (.insert session₂)) := ⟨hwrite, howner⟩
        obtain ⟨hs', hinv'⟩ := wait_ok hinv hs id htask
        exact ⟨iff_of_true hs' fun _ => hnone, hinv'⟩

/-- **A new session** is consistent where it is made later, or not at all, or where the call is live
and the session is the local user's. -/
theorem proceed_new_ok (hinv : Inv call s) (hs : Consistent call s) (backend : Backend) (id : ℕ)
    (hwrite : WriteOk call s op session) (halive : call.crashes op = false) :
    (Consistent call (s.proceed call id op (backend.writeNewSession session s.table)) ↔
    (backend = .mnesia → s.table = none → s.Live ∧ session.owner = call.localUser)) ∧
    Inv call (s.proceed call id op (backend.writeNewSession session s.table)) := by
  cases htable : s.table with
  | some current =>
    obtain ⟨hiff, hinv'⟩ := error_ok hinv hs id op .conflict (some current)
    simp only [Backend.writeNewSession]
    exact ⟨iff_of_true (hiff.2 halive) fun _ hnone => absurd hnone (Option.some_ne_none current),
      hinv'⟩
  | none =>
    cases backend with
    | mnesia =>
      refine ⟨(insertNew_iff hs htable hwrite).trans ?_, inv_write hinv hwrite⟩
      simp
    | cets =>
      have htask : TaskOk call s (.write op (.insertNew session)) := ⟨hwrite, halive⟩
      obtain ⟨hs', hinv'⟩ := wait_ok hinv hs id htask
      refine ⟨iff_of_true hs' ?_, hinv'⟩
      intro hcontra
      cases hcontra

end Finish

section Steps

variable {call : Call} {backend : Backend} {s s' : State} {e : Event}

theorem writeOk_request (call : Call) (s : State) (env : Env) (reqId : String)
    (jingleEl : Xmpp.Element) :
    WriteOk call s (.setRequest reqId jingleEl) (call.request env reqId jingleEl) := by
  cases hdirection : call.direction with
  | incoming => constructor <;> simp [Call.request, hdirection, incomingRequest, Op.Makes]
  | outgoing => constructor <;> simp [Call.request, hdirection, outgoingRequest, Op.Makes]

theorem owner_request (call : Call) (env : Env) (reqId : String) (jingleEl : Xmpp.Element) :
    (call.request env reqId jingleEl).owner = call.localUser := by
  cases hdirection : call.direction <;>
    simp [Call.request, Call.localUser, hdirection, incomingRequest, outgoingRequest]

theorem writeOk_outgoingHandle (s : State) (env : Env) (dialogHandle : String)
    (hdirection : call.direction = .outgoing) :
    WriteOk call s (.setHandle dialogHandle) (outgoingHandle call env dialogHandle) where
  makes := rfl
  direction := hdirection.symm
  dialog handle hdialog := by
    cases hdialog
    exact List.mem_cons_self
  state hstate := by cases hstate

theorem start_ok (hinv : Inv call s) (hs : Consistent call s) {op : Op}
    (hnone : s.tasks e.id = none) (hop : e.op call = some op) :
    (Consistent call (start call backend s e.id e.env op) ↔ Clean call backend s e) ∧
    Inv call (start call backend s e.id e.env op) := by
  simp only [Clean, hnone, hop]
  cases op with
  | setRequest reqId jingleEl =>
    obtain ⟨hiff, hinv'⟩ := proceed_new_ok hinv hs backend e.id
      (writeOk_request call s e.env reqId jingleEl) rfl
    refine ⟨hiff.trans ?_, hinv'⟩
    simp [owner_request]
  | setHandle dialogHandle =>
    rw [start_setHandle]
    split
    · next houtgoing =>
      have htask : TaskOk call s (.fallback dialogHandle) := houtgoing.1
      obtain ⟨hs', hinv'⟩ := wait_ok hinv hs e.id htask
      exact ⟨iff_true_intro hs', hinv'⟩
    · obtain ⟨hiff, hinv'⟩ := proceed_update_ok hinv hs backend e.id
        (updates_doSetHandle call e.env.node dialogHandle)
      refine ⟨hiff.trans (iff_true_intro ?_), hinv'⟩
      intro hcrashes
      cases hcrashes
  | setAccepted =>
    obtain ⟨hiff, hinv'⟩ := proceed_update_ok hinv hs backend e.id (updates_doSetAccepted call)
    refine ⟨hiff.trans ?_, hinv'⟩
    simp [Call.crashes]
  | removeSession =>
    simp only [start, finish_ok]
    constructor
    · refine iff_true_intro ⟨?_, ?_, ?_, hs.alive, fun _ => rfl⟩
      · rintro session hcontra
        cases hcontra
      · rintro hcontra
        cases hcontra
      · rintro hcontra
        cases hcontra
    · refine ⟨?_, ?_, ?_, ?_⟩
      · rintro session hcontra
        cases hcontra
      · rintro session hcontra
        cases hcontra
      · rintro session hcontra
        cases hcontra
      · have hext := Extends.record s .removeSession
        refine hinv.tasks_update e.id ⟨hext.handles, hext.accepted⟩ rfl ?_
        rintro t ht
        cases ht
  | callEnds =>
    refine ⟨⟨fun h => h.gone (.inr rfl), fun htable => ?_⟩, ?_⟩
    · exact { hs with gone := fun _ => htable }
    · refine { hinv with tasks := ?_ }
      intro id task htask
      exact (hinv.tasks id task htask).mono ⟨fun _ hmem => hmem, fun haccepted => haccepted⟩
  | nothing => exact ⟨iff_true_intro hs, hinv⟩

/-- **A step is consistent exactly when it is clean.** -/
theorem step_ok (hinv : Inv call s) (hs : Consistent call s)
    (hstep : step call backend s e = some s') :
    (Consistent call s' ↔ Clean call backend s e) ∧ Inv call s' := by
  unfold step at hstep
  cases htask : s.tasks e.id with
  | none =>
    cases hop : e.op call with
    | none =>
      rw [htask, hop] at hstep
      cases hstep
    | some op =>
      rw [htask, hop] at hstep
      cases hstep
      exact start_ok hinv hs htask hop
  | some task =>
    cases hop : e.op call with
    | some op =>
      rw [htask, hop] at hstep
      cases task <;> cases hstep
    | none =>
      have hknows := hinv.tasks e.id task htask
      rw [htask, hop] at hstep
      simp only [Clean, htask, hop]
      cases task with
      | fallback dialogHandle =>
        cases hstep
        exact proceed_new_ok hinv hs backend e.id
          (writeOk_outgoingHandle s e.env dialogHandle hknows) rfl
      | write op write =>
        cases hstep
        cases write with
        | insertNew session =>
          cases htable : s.table with
          | none =>
            refine ⟨(insertNew_iff hs htable hknows.1).trans ?_, inv_write hinv hknows.1⟩
            simp
          | some current =>
            obtain ⟨hiff, hinv'⟩ := error_ok hinv hs e.id op .conflict (some current)
            refine ⟨iff_of_true (hiff.2 hknows.2) ?_, hinv'⟩
            intro hcontra
            cases hcontra
        | insert session =>
          exact ⟨insert_iff hinv hs hknows.1 hknows.2, inv_write hinv hknows.1⟩

theorem exists_step_of_not_clean (hbroken : ¬ Clean call backend s e) :
    ∃ s', step call backend s e = some s' := by
  by_contra hnone
  apply hbroken
  cases htask : s.tasks e.id with
  | none =>
    cases hop : e.op call with
    | none => simp [Clean, htask, hop]
    | some op => exact absurd ⟨_, by simp only [step, htask, hop]; rfl⟩ hnone
  | some task =>
    cases hop : e.op call with
    | some op => cases task <;> simp [Clean, htask, hop]
    | none =>
      cases task with
      | fallback dialogHandle => exact absurd ⟨_, by simp only [step, htask, hop]; rfl⟩ hnone
      | write op write => exact absurd ⟨_, by simp only [step, htask, hop]; rfl⟩ hnone

end Steps

theorem consistent_init (call : Call) : Consistent call init := by
  refine ⟨?_, ?_, ?_, rfl, fun _ => rfl⟩
  · rintro session hsome
    cases hsome
  · rintro - handle hmem
    cases hmem
  · rintro - haccepted
    cases haccepted

theorem inv_init (call : Call) : Inv call init := by
  refine ⟨?_, ?_, ?_, ?_⟩
  · rintro session hsome
    cases hsome
  · rintro session hsome
    cases hsome
  · rintro session hsome
    cases hsome
  · rintro id task hsome
    cases hsome

/-- **Sessions are consistent exactly in runs that are clean**, on each backend. Where operations do
not overlap, both backends do the same. -/
theorem consistent_iff (call : Call) :
    (∀ backend es, Guarded (step call backend) (Clean call backend) init es ↔
    ∀ h s, h <+: es → run (step call backend) init h = some s → Consistent call s) ∧
    ∀ processes, executeAll call .cets init processes = executeAll call .mnesia init processes := by
  constructor
  · intro backend es
    exact guarded_iff_holds_along_of_invariant (I := Inv call)
      (fun _ _ _ _ hbroken => exists_step_of_not_clean hbroken)
      (fun _ _ _ hinv hs hstep _ => (step_ok hinv hs hstep).2)
      (fun _ _ _ hinv hs hstep => (step_ok hinv hs hstep).1)
      (inv_init call) (consistent_init call) es
  · intro processes
    exact executeAll_eq call processes fun _ => rfl

/-! ### A call that is not consistent -/

/-- Alice calls bob. -/
def aliceCallsBob : Call where
  direction := .outgoing
  fromUser  := ("alice", "localhost")
  toUser    := ("bob", "localhost")
  respFrom  := ("alice", "localhost")
  respTo    := ("bob", "localhost")

/-- The node of all her processes. -/
def here : Env where
  node := "mongooseim@localhost"
  now  := 0

/-- `session-initiate` -/
def initiated : Event := .initiate 0 here "request" (.mk "jingle" [] [] "")

/-- It rings at bob's. -/
def ringing : Event := .response 1 here 180 "dialog"

/-- Bob answers. -/
def answered : Event := .response 2 here 200 "dialog"

/-- Bob is busy. -/
def busy : Event := .response 2 here 486 "dialog"

/-- **The session is bob's** when it rings before the request is recorded; on CETS an answer is lost
at the same time; the answer alone crashes, and a refused call leaves its session. -/
theorem ringing_first :
    (∃ s, run (step aliceCallsBob .mnesia) init [ringing, .next 1 here, initiated] = some s ∧
    s.table.map Session.owner = some aliceCallsBob.toUser ∧
    s.results = [(0, .error .conflict), (1, .ok ())] ∧ ¬ Consistent aliceCallsBob s) ∧
    (∃ s, run (step aliceCallsBob .cets) init
      [initiated, .next 0 here, ringing, answered, .next 2 here, .next 1 here] = some s ∧
    s.accepted = true ∧ s.table.map Session.state = some none ∧ ¬ Consistent aliceCallsBob s) ∧
    (∃ s, run (step aliceCallsBob .mnesia) init [answered] = some s ∧ s.crashed = true ∧
    ¬ Consistent aliceCallsBob s) ∧
    ∃ s, run (step aliceCallsBob .mnesia) init [initiated, busy] = some s ∧ s.table ≠ none ∧
    ¬ Consistent aliceCallsBob s := by
  refine ⟨⟨_, rfl, rfl, rfl, ?_⟩, ⟨_, rfl, rfl, rfl, ?_⟩, ⟨_, rfl, rfl, ?_⟩, ⟨_, rfl, ?_, ?_⟩⟩
  · intro h
    exact absurd (h.owner _ rfl) (by decide)
  · intro h
    obtain ⟨session, ⟨rfl⟩, hstate⟩ := h.accepted rfl rfl
    cases hstate
  · intro h
    exact absurd h.alive (by decide)
  · exact Option.some_ne_none _
  · intro h
    exact absurd (h.gone (.inr rfl)) (Option.some_ne_none _)

end MongooseIM.JingleSip
