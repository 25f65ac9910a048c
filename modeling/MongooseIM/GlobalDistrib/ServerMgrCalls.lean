import MongooseIM.GlobalDistrib.ServerMgr

/-! # Connections of global distribution: calls and messages of the manager

Every call is in one place, and the messages that the manager sends itself are in its mailbox
when they are due: so it is left to the manager to stay alive and to have each endpoint once. -/

namespace MongooseIM.GlobalDistrib.ServerMgr

open Erlang List

/-! ## What is kept -/

variable (s : System)

/-- No endpoint is in both lists, or twice in one of them. -/
def Distinct : Prop :=
  ((s.enabled ++ s.disabled).map EndpointInfo.endpoint).Nodup

/-- **The manager survives and answers.** -/
structure Kept (s : System) : Prop where
  alive : s.crashed = false
  /-- Each endpoint is in use once, or out of use once. -/
  distinct : Distinct s
  /-- While there are changes a message to make them is in the mailbox, and only then. -/
  scheduled : s.pendingEndpoints ≠ [] ↔ .processPendingEndpoint ∈ s.mailbox
  once : ∀ caller, (caller, .forceRefresh) ∈ s.calls → (s.replies.map Prod.fst).count caller ≤ 1
  /-- It is answered, or its message waits, or it waits for changes that are being made. -/
  answered : ∀ caller, (caller, .forceRefresh) ∈ s.calls →
    caller ∈ s.replies.map Prod.fst ∨ .call caller .forceRefresh ∈ s.mailbox ∨
      (caller ∈ s.pendingEndpointsListeners ∧ .processPendingEndpoint ∈ s.mailbox)
  /-- A caller waits for a pool only while there is none or a message to serve it. -/
  served : s.enabled ≠ [] → .processPendingGet ∉ s.mailbox → s.pendingGets = []

/-! ## Calls and messages -/

/-- The caller that a message is from. -/
def Message.caller? : Message → Option Caller
  | .call caller _ => some caller
  | _ => none

/-- The callers whose calls are in the mailbox. -/
def callers (mailbox : List Message) : List Caller := mailbox.filterMap Message.caller?

@[simp] theorem callers_nil : callers [] = [] := rfl

@[simp] theorem callers_call (caller : Caller) (request : Request) (mailbox : List Message) :
    callers (.call caller request :: mailbox) = caller :: callers mailbox := rfl

theorem callers_cons {message : Message} (h : message.caller? = none) (mailbox : List Message) :
    callers (message :: mailbox) = callers mailbox := filterMap_cons_none h

@[simp] theorem callers_append (l l' : List Message) :
    callers (l ++ l') = callers l ++ callers l' := filterMap_append

theorem mem_callers {caller : Caller} {mailbox : List Message} :
    caller ∈ callers mailbox ↔ ∃ request, .call caller request ∈ mailbox := by
  rw [callers, mem_filterMap]
  constructor
  · rintro ⟨message, hmem, hcaller⟩
    cases message with
    | call caller' request =>
      cases hcaller
      exact ⟨request, hmem⟩
    | _ => cases hcaller
  · rintro ⟨request, hmem⟩
    exact ⟨_, hmem, rfl⟩

/-- Every call is in one place. -/
structure Accounted (s : System) : Prop where
  nodup : (s.calls.map Prod.fst).Nodup
  queued : ∀ caller request, .call caller request ∈ s.mailbox → (caller, request) ∈ s.calls
  waiting : ∀ caller ∈ s.pendingGets, (caller, .getConnectionPool) ∈ s.calls
  /-- A call is in the mailbox, waits for a pool or for the changes, or was answered. -/
  count : ∀ caller, (callers s.mailbox).count caller + s.pendingGets.count caller +
    s.pendingEndpointsListeners.count caller + (s.replies.map Prod.fst).count caller =
      (s.calls.map Prod.fst).count caller

/-- One message makes the changes, one after the other. -/
structure Scheduled (s : System) : Prop where
  /-- The message is in the mailbox once, or there is nothing to do. -/
  count : s.mailbox.count .processPendingEndpoint = if s.pendingEndpoints = [] then 0 else 1
  listening : s.pendingEndpoints = [] → s.pendingEndpointsListeners = []

/-- A message serves the callers that wait for a pool. -/
def Served : Prop :=
  s.enabled ≠ [] → s.pendingGets ≠ [] → .processPendingGet ∈ s.mailbox

/-- Calls, changes and callers that wait. -/
structure Shaped (s : System) : Prop where
  accounted : Accounted s
  scheduled : Scheduled s
  served : Served s

section

variable {a : Answers} {s s' : System} {message : Message}

/-- **What is left to the manager.** -/
theorem Shaped.kept_iff (h : Shaped s) : Kept s ↔ s.crashed = false ∧ Distinct s := by
  refine ⟨fun hkept => ⟨hkept.alive, hkept.distinct⟩, fun ⟨halive, hdistinct⟩ => ?_⟩
  have hscheduled : s.pendingEndpoints ≠ [] ↔ .processPendingEndpoint ∈ s.mailbox := by
    rw [← count_pos_iff, h.scheduled.count]
    by_cases hpending : s.pendingEndpoints = [] <;> simp [hpending]
  -- a forced refresh has one place, and that is not among those that wait for a pool
  have hplace : ∀ caller, (caller, .forceRefresh) ∈ s.calls →
      (callers s.mailbox).count caller + s.pendingEndpointsListeners.count caller +
        (s.replies.map Prod.fst).count caller = 1 := by
    intro caller hcall
    have hone : (s.calls.map Prod.fst).count caller = 1 :=
      count_eq_one_of_mem h.accounted.nodup (mem_map_of_mem hcall)
    have hnot : s.pendingGets.count caller = 0 := by
      rw [count_eq_zero]
      intro hwaits
      have hsame := Option.some.inj
        ((lookup_of_mem h.accounted.nodup (h.accounted.waiting caller hwaits)).symm.trans
          (lookup_of_mem h.accounted.nodup hcall))
      cases hsame
    have hcount := h.accounted.count caller
    omega
  refine ⟨halive, hdistinct, hscheduled, fun caller hcall => ?_, fun caller hcall => ?_, ?_⟩
  · have := hplace caller hcall
    omega
  · by_cases hreplied : caller ∈ s.replies.map Prod.fst
    · exact .inl hreplied
    · refine .inr ?_
      by_cases hqueued : caller ∈ callers s.mailbox
      · obtain ⟨request, hqueued⟩ := mem_callers.1 hqueued
        have hsame := Option.some.inj
          ((lookup_of_mem h.accounted.nodup (h.accounted.queued caller request hqueued)).symm.trans
            (lookup_of_mem h.accounted.nodup hcall))
        exact .inl (hsame ▸ hqueued)
      · have hone := hplace caller hcall
        rw [count_eq_zero.2 hreplied, count_eq_zero.2 hqueued] at hone
        have hlistens : caller ∈ s.pendingEndpointsListeners := count_pos_iff.1 (by omega)
        refine .inr ⟨hlistens, hscheduled.1 fun hnone => ?_⟩
        rw [h.scheduled.listening hnone] at hlistens
        cases hlistens
  · intro henabled hnot
    by_contra hgets
    exact hnot (h.served henabled hgets)

/-! ## Parts of a step -/

/-- The message that is being handled is counted as if it were still in the mailbox. -/
def System.holding (s : System) (message : Message) : System :=
  { s with mailbox := message :: s.mailbox }

theorem Accounted.drop (hcaller : message.caller? = none) (h : Accounted (s.holding message)) :
    Accounted s := by
  refine ⟨h.nodup, fun caller request hmem => ?_, h.waiting, fun caller => ?_⟩
  · exact h.queued caller request (mem_cons_of_mem _ hmem)
  · have hcount := h.count caller
    rwa [System.holding, callers_cons hcaller] at hcount

theorem Accounted.send (hcaller : message.caller? = none) (h : Accounted s) :
    Accounted (s.send message) := by
  refine ⟨h.nodup, fun caller request hmem => ?_, h.waiting, fun caller => ?_⟩
  · rcases mem_append.1 hmem with hmem | hmem
    · exact h.queued caller request hmem
    · obtain rfl := mem_singleton.1 hmem
      cases hcaller
  · have hcount := h.count caller
    simpa [System.send, callers_cons hcaller] using hcount

theorem Scheduled.drop (hchange : message ≠ .processPendingEndpoint)
    (h : Scheduled (s.holding message)) : Scheduled s := by
  refine ⟨?_, h.listening⟩
  have hcount := h.count
  rwa [System.holding, count_cons_of_ne hchange] at hcount

theorem Scheduled.send (hchange : message ≠ .processPendingEndpoint) (h : Scheduled s) :
    Scheduled (s.send message) := by
  refine ⟨?_, h.listening⟩
  show (s.mailbox ++ [message]).count .processPendingEndpoint = _
  rw [count_append, count_cons_of_ne hchange, count_nil]
  exact h.count

theorem Served.drop (hget : message ≠ .processPendingGet) (h : Served (s.holding message)) :
    Served s := by
  intro henabled hgets
  exact (mem_cons.1 (h henabled hgets)).resolve_left hget.symm

theorem Served.send (h : Served s) : Served (s.send message) :=
  fun henabled hgets => mem_append_left _ (h henabled hgets)

/-- A message that is neither a call nor one that the manager sends itself. -/
def Message.Plain (message : Message) : Prop :=
  message.caller? = none ∧ message ≠ .processPendingEndpoint ∧ message ≠ .processPendingGet

/-- A plain message has been handled when nothing else is done. -/
theorem Shaped.drop (hplain : message.Plain) (h : Shaped (s.holding message)) : Shaped s :=
  ⟨h.accounted.drop hplain.1, h.scheduled.drop hplain.2.1, h.served.drop hplain.2.2⟩

theorem Shaped.send (hplain : message.Plain) (h : Shaped s) : Shaped (s.send message) :=
  ⟨h.accounted.send hplain.1, h.scheduled.send hplain.2.1, h.served.send⟩

theorem Shaped.around (h : Shaped s) (timers : List (Timer × ℕ)) (pools : Pools) :
    Shaped { s with timers := timers, pools := pools } :=
  ⟨{ h.accounted with },
    ⟨h.scheduled.count, h.scheduled.listening⟩, h.served⟩

theorem Shaped.reply {caller : Caller} {request : Request} (reply : Reply)
    (h : Shaped (s.holding (.call caller request))) : Shaped (s.reply caller reply) := by
  have hscheduled : Scheduled s := h.scheduled.drop (by simp)
  have hserved : Served s := h.served.drop (by simp)
  refine ⟨⟨h.accounted.nodup, fun caller' request' hmem => ?_, h.accounted.waiting,
    fun caller' => ?_⟩, ⟨hscheduled.count, hscheduled.listening⟩, hserved⟩
  · exact h.accounted.queued caller' request' (mem_cons_of_mem _ hmem)
  · have hcount := h.accounted.count caller'
    simp only [System.holding, callers_call, count_cons] at hcount
    simp only [System.reply, map_append, map_cons, map_nil, count_append, count_cons, count_nil]
    omega

theorem Shaped.waits {caller : Caller} (h : Shaped (s.holding (.call caller .getConnectionPool)))
    (henabled : s.enabled = []) : Shaped { s with pendingGets := s.pendingGets ++ [caller] } := by
  have hscheduled : Scheduled s := h.scheduled.drop (by simp)
  refine ⟨⟨h.accounted.nodup, fun caller' request' hmem => ?_, fun caller' hmem => ?_,
    fun caller' => ?_⟩, ⟨hscheduled.count, hscheduled.listening⟩,
    fun hsome => absurd henabled hsome⟩
  · exact h.accounted.queued caller' request' (mem_cons_of_mem _ hmem)
  · rcases mem_append.1 hmem with hmem | hmem
    · exact h.accounted.waiting caller' hmem
    · obtain rfl := mem_singleton.1 hmem
      exact h.accounted.queued caller' _ mem_cons_self
  · have hcount := h.accounted.count caller'
    simp only [System.holding, callers_call, count_cons] at hcount
    simp only [count_append, count_cons, count_nil]
    omega

theorem Shaped.listens {caller : Caller} (h : Shaped (s.holding (.call caller .forceRefresh)))
    (hpending : s.pendingEndpoints ≠ []) :
    Shaped { s with pendingEndpointsListeners := caller :: s.pendingEndpointsListeners } := by
  have hscheduled : Scheduled s := h.scheduled.drop (by simp)
  have hserved : Served s := h.served.drop (by simp)
  refine ⟨⟨h.accounted.nodup, fun caller' request' hmem => ?_, h.accounted.waiting,
    fun caller' => ?_⟩, ⟨hscheduled.count, fun hnone => absurd hnone hpending⟩, hserved⟩
  · exact h.accounted.queued caller' request' (mem_cons_of_mem _ hmem)
  · have hcount := h.accounted.count caller'
    simp only [System.holding, callers_call, count_cons] at hcount
    simp only [count_cons]
    omega

theorem refreshConnections_eq (h : refreshConnections a s = some s') :
    ∃ endpoints changes, a.resolved = some endpoints ∧ s' = { s with
      pendingEndpoints := s.pendingEndpoints ++ changes
      lastEndpoints := some endpoints
      mailbox := s.mailbox ++
        if s.pendingEndpoints = [] ∧ changes ≠ [] then [.processPendingEndpoint] else [] } := by
  unfold refreshConnections at h
  obtain ⟨endpoints, hresolved, h⟩ := Option.bind_eq_some_iff.1 h
  refine ⟨endpoints, resolvePending endpoints s.enabled, hresolved, ?_⟩
  cases h
  cases hpending : s.pendingEndpoints with
  | nil =>
    cases hchanges : resolvePending endpoints s.enabled with
    | nil => simp [maybeScheduleProcessEndpoint]
    | cons change changes => simp [maybeScheduleProcessEndpoint, System.send]
  | cons change changes => simp

/-- **A refresh**: the changes that it finds are scheduled. -/
theorem Shaped.refreshConnections (hmessage : message ≠ .processPendingEndpoint)
    (h : Shaped (s.holding message)) (hrefresh : refreshConnections a s = some s') :
    Shaped (s'.holding message) := by
  obtain ⟨endpoints, changes, -, rfl⟩ := refreshConnections_eq hrefresh
  have hcount := h.scheduled.count
  simp only [System.holding, count_cons_of_ne hmessage] at hcount
  refine ⟨⟨h.accounted.nodup, fun caller request hmem => ?_, h.accounted.waiting,
    fun caller => ?_⟩, ⟨?_, fun hnone => ?_⟩, fun henabled hgets => ?_⟩
  · refine h.accounted.queued caller request ?_
    simp only [System.holding, mem_cons, mem_append] at hmem ⊢
    rcases hmem with hmem | hmem | hmem
    · exact .inl hmem
    · exact .inr hmem
    · split_ifs at hmem <;> simp at hmem
  · have hcallers := h.accounted.count caller
    have hsame : callers (s.mailbox ++ if s.pendingEndpoints = [] ∧ changes ≠ []
        then [.processPendingEndpoint] else []) = callers s.mailbox := by
      split_ifs <;> simp [callers, Message.caller?]
    have hholding : ∀ mailbox, callers (message :: mailbox) =
        callers [message] ++ callers mailbox := fun mailbox => callers_append [message] mailbox
    rw [System.holding, hholding] at hcallers
    rw [System.holding, hholding, hsame]
    exact hcallers
  · simp only [System.holding, count_cons_of_ne hmessage, count_append, hcount]
    by_cases hpending : s.pendingEndpoints = []
    · by_cases hchanges : changes = [] <;> simp [hpending, hchanges]
    · simp [hpending]
  · exact h.scheduled.listening (append_eq_nil_iff.1 hnone).1
  · have hserved := h.served henabled hgets
    simp only [System.holding, mem_cons, mem_append] at hserved ⊢
    exact hserved.imp_right .inl

theorem maybeScheduleProcessGet_eq (h : maybeScheduleProcessGet s = some s') :
    (s.pendingGets = [] ∧ s' = s) ∨ (s.enabled ≠ [] ∧ s' = s.send .processPendingGet) := by
  unfold maybeScheduleProcessGet at h
  split at h
  · rename_i hgets
    exact .inl ⟨hgets, (Option.some.inj h).symm⟩
  · cases h
  · rename_i henabled
    exact .inr ⟨by simp [henabled], (Option.some.inj h).symm⟩

/-- It crashes where a caller waits and there is no endpoint. -/
theorem maybeScheduleProcessGet_eq_none :
    maybeScheduleProcessGet s = none ↔ s.pendingGets ≠ [] ∧ s.enabled = [] := by
  unfold maybeScheduleProcessGet
  split
  · rename_i hgets
    simp [hgets]
  · rename_i hgets henabled
    simp [hgets, henabled]
  · rename_i henabled
    simp [henabled]

/-- **The callers that wait are served.** -/
theorem Accounted.serve (h : Accounted s) (hserve : maybeScheduleProcessGet s = some s') :
    Accounted s' ∧ Served s' := by
  rcases maybeScheduleProcessGet_eq hserve with ⟨hgets, rfl⟩ | ⟨-, rfl⟩
  · exact ⟨h, fun _ hsome => absurd hgets hsome⟩
  · exact ⟨h.send rfl, fun _ _ => mem_append_right _ mem_cons_self⟩

/-- **A change has been made**: the next one is scheduled, or whoever waits is told. -/
theorem Accounted.changeApplied {changes : List Change} (h : Accounted s) (hserved : Served s)
    (hnone : s.mailbox.count .processPendingEndpoint = 0) :
    Shaped (changeApplied changes s) := by
  cases changes with
  | nil =>
    refine ⟨{ h with count := fun caller => ?_ }, ⟨hnone, fun _ => rfl⟩, hserved⟩
    have hcount := h.count caller
    have hfst : (s.pendingEndpointsListeners.map fun listener => (listener, Reply.ok)).map
        Prod.fst = s.pendingEndpointsListeners := by
      rw [map_map]
      exact map_id _
    simp only [ServerMgr.changeApplied, maybeScheduleProcessEndpoint,
      maybeNotifyEndpointsListeners, map_append, hfst, count_append, count_nil]
    omega
  | cons change changes =>
    have hsent : Accounted (s.send .processPendingEndpoint) := h.send rfl
    refine ⟨{ hsent with }, ⟨?_, ?_⟩, hserved.send⟩
    · show (s.mailbox ++ [Message.processPendingEndpoint]).count .processPendingEndpoint = _
      rw [count_append, hnone]
      rfl
    · intro h
      cases h

end

end MongooseIM.GlobalDistrib.ServerMgr
