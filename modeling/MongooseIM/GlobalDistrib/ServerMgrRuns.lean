import MongooseIM.GlobalDistrib.ServerMgrCalls
import MongooseIM.Transition.Run

/-! # Connections of global distribution: what the manager keeps

A message is handled with everything in its place, or the manager crashes; it survives in exactly
the runs whose steps meet `StepOk`. -/

namespace MongooseIM.GlobalDistrib.ServerMgr

open Erlang Transition List

/-- Neither the resolution nor the look at the pools raises, no endpoint in use starts again, and
none fails to start while it is the first one and a caller waits. -/
def MessageOk (a : Answers) (s : System) : Message → Prop
  | .initialRefresh => a.resolved ≠ none
  | .call _ .forceRefresh => s.pendingEndpointsListeners = [] → a.resolved ≠ none
  | .timer .refresh => s.pendingEndpoints = [] → a.resolved ≠ none
  | .timer .disabledGc => ∀ info ∈ s.disabled, a.probe info.connPoolRef ≠ .raises
  | .processPendingEndpoint => ∀ endpoint changes,
      s.pendingEndpoints = .enable endpoint :: changes →
      (∀ info ∈ s.disabled, info.endpoint ≠ endpoint) →
        if s.pools.Starts a endpoint then ∀ info ∈ s.enabled, info.endpoint ≠ endpoint
        else s.enabled = [] → s.pendingGets = []
  | _ => True

/-- The next message meets `MessageOk` when it is handled. -/
def StepOk (s : System) : Event → Prop
  | .handle a => s.crashed = false →
      ∀ message mailbox, s.mailbox = message :: mailbox → MessageOk a s message
  | _ => True

section

variable {opts : Opts} {a : Answers} {s s' : System} {message : Message}

/-! ## The endpoints -/

theorem distinct_of_perm (hdistinct : Distinct s)
    (hperm : (s'.enabled ++ s'.disabled).Perm (s.enabled ++ s.disabled)) : Distinct s' :=
  (hperm.map _).nodup_iff.2 hdistinct

variable {endpoint : Endpoint} {info : EndpointInfo}

theorem enable_of_disabled
    {disabled : List EndpointInfo}
    (htake : keytake EndpointInfo.endpoint endpoint s.disabled = some (info, disabled)) :
    enable a endpoint s = some { s with enabled := info :: s.enabled, disabled := disabled } := by
  rw [enable, htake]

/-- One that is neither in use nor out of use starts, if its pool does. -/
theorem enable_of_not_disabled (htake : keytake EndpointInfo.endpoint endpoint s.disabled = none) :
    (¬ s.pools.Starts a endpoint ∧ enable a endpoint s = none) ∨
    (s.pools.Starts a endpoint ∧ ∃ info pools, info.endpoint = endpoint ∧
      enable a endpoint s = some { s with enabled := info :: s.enabled, pools := pools }) := by
  rw [enable, htake]
  by_cases hstarts : s.pools.Starts a endpoint
  · simp only [Pools.startPool, if_pos hstarts, Option.map_some]
    exact .inr ⟨hstarts, _, _, rfl, rfl⟩
  · refine .inl ⟨hstarts, ?_⟩
    simp only [Pools.startPool, if_neg hstarts, Option.map_none]

theorem distinct_cons_iff {pools : Pools} (hdistinct : Distinct s)
    (hdisabled : ∀ other ∈ s.disabled, other.endpoint ≠ info.endpoint) :
    Distinct { s with enabled := info :: s.enabled, pools := pools } ↔
    ∀ other ∈ s.enabled, other.endpoint ≠ info.endpoint := by
  show (((info :: s.enabled) ++ s.disabled).map EndpointInfo.endpoint).Nodup ↔ _
  have hnodup : ((s.enabled ++ s.disabled).map EndpointInfo.endpoint).Nodup := hdistinct
  rw [cons_append, map_cons, nodup_cons, and_iff_left hnodup, map_append, mem_append, not_or]
  have hnot : ∀ l : List EndpointInfo, info.endpoint ∉ l.map EndpointInfo.endpoint ↔
      ∀ other ∈ l, other.endpoint ≠ info.endpoint := by
    intro l
    simp [mem_map]
  rw [hnot, hnot, and_iff_left hdisabled]

theorem distinct_disable (hdistinct : Distinct s) : Distinct ((disable endpoint s).getD s) := by
  unfold disable
  cases htake : keytake EndpointInfo.endpoint endpoint s.enabled with
  | none => exact hdistinct
  | some taken =>
    obtain ⟨info, enabled⟩ := taken
    refine distinct_of_perm hdistinct ?_
    show (enabled ++ info :: s.disabled).Perm (s.enabled ++ s.disabled)
    have hperm := (perm_of_keytake htake).2
    exact perm_middle.trans (hperm.symm.append_right s.disabled)

theorem distinct_down {monitorRef : ℕ} (hdistinct : Distinct s) : Distinct (down monitorRef s) := by
  have hsublist : ∀ l : List EndpointInfo, l.Sublist (s.enabled ++ s.disabled) →
      (l.map EndpointInfo.endpoint).Nodup :=
    fun l hl => hdistinct.sublist (hl.map EndpointInfo.endpoint)
  unfold down
  split
  · rename_i info enabled htake
    exact hsublist _ ((sublist_of_keytake htake).append_right s.disabled)
  · split
    · rename_i info disabled htake
      exact hsublist _ ((sublist_of_keytake htake).append_left s.enabled)
    · exact hdistinct

/-! ## Messages -/

/-- How handling a message ends: in a crash, or with everything in its place. -/
def Handled (a : Answers) (s : System) (message : Message) : Option System → Prop
  | none => ¬ MessageOk a s message
  | some s' => Shaped s' ∧ s'.crashed = s.crashed ∧ (Distinct s' ↔ MessageOk a s message)

theorem handled_of_same (hdistinct : Distinct s) (hok : MessageOk a s message)
    (hshaped : Shaped s') (hcrashed : s'.crashed = s.crashed) (henabled : s'.enabled = s.enabled)
    (hdisabled : s'.disabled = s.disabled) : Handled a s message (some s') := by
  refine ⟨hshaped, hcrashed, iff_of_true ?_ hok⟩
  rw [Distinct, henabled, hdisabled]
  exact hdistinct

theorem refreshConnections_eq_none : refreshConnections a s = none ↔ a.resolved = none := by
  unfold refreshConnections
  cases a.resolved <;> simp

/-- **`initial_refresh`** -/
theorem Shaped.handleContinue (h : Shaped (s.holding .initialRefresh)) (hdistinct : Distinct s) :
    Handled a s .initialRefresh (handleContinue opts a s) := by
  unfold ServerMgr.handleContinue
  cases hrefresh : ServerMgr.refreshConnections a s with
  | none => exact not_not.2 (refreshConnections_eq_none.1 hrefresh)
  | some s' =>
    have hshaped : Shaped s' :=
      (h.refreshConnections (by simp) hrefresh).drop ⟨rfl, by simp, by simp⟩
    obtain ⟨endpoints, changes, hresolved, rfl⟩ := refreshConnections_eq hrefresh
    have hok : MessageOk a s .initialRefresh := by simp [MessageOk, hresolved]
    simp only [Option.bind_eq_bind, Option.bind_some, scheduleRefresh, scheduleGc]
    split <;> exact handled_of_same hdistinct hok (hshaped.around _ _) rfl rfl rfl

/-- **`refresh`** -/
theorem Shaped.refresh (h : Shaped (s.holding (.timer .refresh))) (hdistinct : Distinct s) :
    Handled a s (.timer .refresh) (refresh opts a s) := by
  have hend : ∀ s₁ : System, Shaped (s₁.holding (.timer .refresh)) →
      MessageOk a s (.timer .refresh) → s₁.crashed = s.crashed → s₁.enabled = s.enabled →
      s₁.disabled = s.disabled →
      Handled a s (.timer .refresh) (some (scheduleRefresh opts s₁)) := by
    intro s₁ hs₁ hok hcrashed henabled hdisabled
    have hshaped : Shaped s₁ := hs₁.drop ⟨rfl, by simp, by simp⟩
    unfold scheduleRefresh
    split <;> exact handled_of_same hdistinct hok (hshaped.around _ _) hcrashed henabled hdisabled
  unfold ServerMgr.refresh
  cases hpending : s.pendingEndpoints with
  | nil =>
    simp only
    cases hrefresh : ServerMgr.refreshConnections a s with
    | none =>
      intro hok
      exact hok hpending (refreshConnections_eq_none.1 hrefresh)
    | some s' =>
      have hshaped := h.refreshConnections (by simp) hrefresh
      obtain ⟨endpoints, changes, hresolved, rfl⟩ := refreshConnections_eq hrefresh
      exact hend _ hshaped (fun _ => by simp [hresolved]) rfl rfl rfl
  | cons change changes =>
    have hsome : s.pendingEndpoints ≠ [] := by simp [hpending]
    exact hend s h (fun hnone => absurd hnone hsome) rfl rfl rfl

/-- Along the endpoints out of use: a fold that fails where the pool cannot be asked. -/
theorem foldlM_eq_none_iff {f : Pools → EndpointInfo → Option Pools}
    (hf : ∀ pools info, f pools info = none ↔ a.probe info.connPoolRef = .raises)
    (infos : List EndpointInfo) (pools : Pools) :
    infos.foldlM f pools = none ↔ ¬ ∀ info ∈ infos, a.probe info.connPoolRef ≠ .raises := by
  induction infos generalizing pools with
  | nil => simp
  | cons info infos ih =>
    rw [foldlM_cons, forall_mem_cons]
    cases hresult : f pools info with
    | none => simp [(hf pools info).1 hresult]
    | some pools' =>
      have hprobe : a.probe info.connPoolRef ≠ .raises := by
        rw [ne_eq, ← hf pools info, hresult]
        exact Option.some_ne_none _
      simp [ih, hprobe]

/-- **`disabled_gc`** -/
theorem Shaped.disabledGc (h : Shaped (s.holding (.timer .disabledGc))) (hdistinct : Distinct s) :
    Handled a s (.timer .disabledGc) (disabledGc opts a s) := by
  have hshaped : Shaped s := h.drop ⟨rfl, by simp, by simp⟩
  cases hgc : ServerMgr.disabledGc opts a s with
  | none =>
    rw [ServerMgr.disabledGc, Option.bind_eq_bind, Option.bind_eq_none_iff] at hgc
    refine (foldlM_eq_none_iff ?_ s.disabled s.pools).1 (Option.eq_none_iff_forall_ne_some.2
      fun pools hpools => Option.some_ne_none _ (hgc pools hpools))
    intro pools info
    cases a.probe info.connPoolRef <;> simp
  | some s' =>
    rw [ServerMgr.disabledGc, Option.bind_eq_bind, Option.bind_eq_some_iff] at hgc
    obtain ⟨pools, hpools, hsome⟩ := hgc
    cases hsome
    have hok : MessageOk a s (.timer .disabledGc) := by
      by_contra hraises
      rw [(foldlM_eq_none_iff ?_ s.disabled s.pools).2 hraises] at hpools
      · cases hpools
      · intro pools info
        cases a.probe info.connPoolRef <;> simp
    exact handled_of_same hdistinct hok (hshaped.around _ _) rfl rfl rfl

variable {caller : Caller} {request : Request}

/-- **Calls** -/
theorem Shaped.handleCall (h : Shaped (s.holding (.call caller request))) (hdistinct : Distinct s) :
    Handled a s (.call caller request) (handleCall a caller s request) := by
  cases request with
  | getConnectionPool =>
    simp only [ServerMgr.handleCall, getConnectionPool]
    split
    · rename_i henabled
      exact handled_of_same hdistinct trivial (h.waits henabled) rfl rfl rfl
    · exact handled_of_same hdistinct trivial (h.reply _) rfl rfl rfl
  | forceRefresh =>
    simp only [ServerMgr.handleCall, forceRefresh]
    cases hlisteners : s.pendingEndpointsListeners with
    | nil =>
      simp only
      cases hrefresh : ServerMgr.refreshConnections a s with
      | none =>
        intro hok
        exact hok hlisteners (refreshConnections_eq_none.1 hrefresh)
      | some s' =>
        have hshaped := h.refreshConnections (by simp) hrefresh
        obtain ⟨endpoints, changes, hresolved, heq⟩ := refreshConnections_eq hrefresh
        have hok : MessageOk a s (.call caller .forceRefresh) := fun _ => by simp [hresolved]
        have hsame : s'.crashed = s.crashed ∧ s'.enabled = s.enabled ∧
            s'.disabled = s.disabled ∧ s'.pendingEndpointsListeners = [] := by
          rw [heq]
          exact ⟨rfl, rfl, rfl, hlisteners⟩
        obtain ⟨hcrashed, henabled, hdisabled, hnobody⟩ := hsame
        simp only [Option.bind_eq_bind, Option.bind_some]
        cases hpending : s'.pendingEndpoints with
        | nil =>
          exact handled_of_same hdistinct hok (hshaped.reply _) hcrashed henabled hdisabled
        | cons change changes =>
          have hlistens := hshaped.listens (by simp [hpending])
          rw [hnobody, hpending] at hlistens
          exact handled_of_same hdistinct hok hlistens hcrashed henabled hdisabled
    | cons listener listeners =>
      have hok : MessageOk a s (.call caller .forceRefresh) :=
        fun hnone => absurd (hlisteners.symm.trans hnone) (by simp)
      have hpending : s.pendingEndpoints ≠ [] := by
        intro hnone
        have hnobody := h.scheduled.listening hnone
        exact absurd (hlisteners.symm.trans hnobody) (by simp)
      have hlistens := h.listens hpending
      rw [hlisteners] at hlistens
      exact handled_of_same hdistinct hok hlistens rfl rfl rfl
  | closeDisabled =>
    exact handled_of_same hdistinct trivial ((h.reply .ok).around _ _) rfl rfl rfl
  | getEnabledEndpoints => exact handled_of_same hdistinct trivial (h.reply _) rfl rfl rfl
  | getDisabledEndpoints => exact handled_of_same hdistinct trivial (h.reply _) rfl rfl rfl
  | pingProc => exact handled_of_same hdistinct trivial (h.reply _) rfl rfl rfl
  | getStateInfo => exact handled_of_same hdistinct trivial (h.reply _) rfl rfl rfl

theorem maybeScheduleProcessGet_same (h : maybeScheduleProcessGet s = some s') :
    s'.crashed = s.crashed ∧ s'.enabled = s.enabled ∧ s'.disabled = s.disabled ∧
    s'.pendingEndpoints = s.pendingEndpoints ∧
    s'.pendingEndpointsListeners = s.pendingEndpointsListeners ∧
    s'.mailbox.count .processPendingEndpoint = s.mailbox.count .processPendingEndpoint := by
  rcases maybeScheduleProcessGet_eq h with ⟨-, rfl⟩ | ⟨-, rfl⟩
  · exact ⟨rfl, rfl, rfl, rfl, rfl, rfl⟩
  · refine ⟨rfl, rfl, rfl, rfl, rfl, ?_⟩
    simp [System.send, count_append]

/-- **`process_pending_get`** -/
theorem Shaped.processPendingGet (h : Shaped (s.holding .processPendingGet))
    (hdistinct : Distinct s) :
    Handled a s .processPendingGet (processPendingGet a s) := by
  have haccounted : Accounted s := h.accounted.drop rfl
  have hscheduled : Scheduled s := h.scheduled.drop (by simp)
  -- a caller has been served, and the next one is
  have hserve : ∀ s₁ : System, Accounted s₁ → Scheduled s₁ → s₁.enabled ≠ [] →
      s₁.crashed = s.crashed → s₁.enabled = s.enabled → s₁.disabled = s.disabled →
      Handled a s .processPendingGet (maybeScheduleProcessGet s₁) := by
    intro s₁ haccounted hscheduled hsome hcrashed henabled hdisabled
    cases hnext : maybeScheduleProcessGet s₁ with
    | none => exact absurd (maybeScheduleProcessGet_eq_none.1 hnext).2 hsome
    | some s' =>
      obtain ⟨hcrashed', henabled', hdisabled', hpending, hlisteners, hcount⟩ :=
        maybeScheduleProcessGet_same hnext
      obtain ⟨haccounted', hserved⟩ := haccounted.serve hnext
      refine handled_of_same hdistinct trivial ⟨haccounted', ⟨?_, ?_⟩, hserved⟩
        (hcrashed'.trans hcrashed) (henabled'.trans henabled) (hdisabled'.trans hdisabled)
      · rw [hcount, hpending]
        exact hscheduled.count
      · rw [hpending, hlisteners]
        exact hscheduled.listening
  unfold ServerMgr.processPendingGet
  split
  · rename_i henabled
    exact handled_of_same hdistinct trivial
      ⟨haccounted, hscheduled, fun hsome => absurd henabled hsome⟩ rfl rfl rfl
  · rename_i info enabled caller pendingGets henabled hgets
    have hsome : s.enabled ≠ [] := by simp [henabled]
    refine hserve _ ⟨haccounted.nodup, haccounted.queued, fun caller' hmem => ?_,
      fun caller' => ?_⟩ ⟨hscheduled.count, hscheduled.listening⟩ hsome rfl rfl rfl
    · exact haccounted.waiting caller' (by rw [hgets]; exact mem_cons_of_mem _ hmem)
    · have hcount := haccounted.count caller'
      simp only [hgets, count_cons] at hcount
      simp only [System.reply, map_append, map_cons, map_nil, count_append, count_cons, count_nil]
      omega
  · rename_i henabled hgets
    exact hserve s haccounted hscheduled (by simp [henabled]) rfl rfl rfl

/-- The changes after one of them touch the endpoints no more. -/
theorem changeApplied_same (s : System) (changes : List Change) :
    (changeApplied changes s).crashed = s.crashed ∧
    (Distinct (changeApplied changes s) ↔ Distinct s) := by
  cases changes <;> exact ⟨rfl, Iff.rfl⟩

section

variable (h : Shaped (s.holding .processPendingEndpoint)) (hdistinct : Distinct s)

include h hdistinct

/-- **An endpoint comes into use**: its pool is open already, or it starts, or it does not. -/
theorem Shaped.enabling {changes : List Change}
    (hpending : s.pendingEndpoints = .enable endpoint :: changes) :
    Handled a s .processPendingEndpoint (processPendingEndpoint a s) := by
  have haccounted : Accounted s := h.accounted.drop rfl
  have hnone : s.mailbox.count .processPendingEndpoint = 0 := by
    have hcount := h.scheduled.count
    simp only [System.holding, count_cons_self, hpending, reduceCtorEq, if_false] at hcount
    omega
  -- whatever has become of the endpoint, the callers are served and the next change comes
  have hserve : ∀ s₁ : System, Accounted s₁ → s₁.mailbox = s.mailbox → s₁.crashed = s.crashed →
      (maybeScheduleProcessGet s₁ = none → ¬ MessageOk a s .processPendingEndpoint) →
      (maybeScheduleProcessGet s₁ ≠ none → (Distinct s₁ ↔ MessageOk a s .processPendingEndpoint)) →
      Handled a s .processPendingEndpoint
        ((maybeScheduleProcessGet s₁).bind fun s₂ => some (changeApplied changes s₂)) := by
    intro s₁ haccounted₁ hmailbox hcrashed hbad hgood
    cases hnext : maybeScheduleProcessGet s₁ with
    | none => exact hbad hnext
    | some s₂ =>
      obtain ⟨hcrashed', henabled', hdisabled', -, -, hcount⟩ := maybeScheduleProcessGet_same hnext
      obtain ⟨haccounted₂, hserved⟩ := haccounted₁.serve hnext
      obtain ⟨hcrashed₂, hdistinct₂⟩ := changeApplied_same s₂ changes
      refine ⟨haccounted₂.changeApplied hserved (by rw [hcount, hmailbox, hnone]),
        hcrashed₂.trans (hcrashed'.trans hcrashed), hdistinct₂.trans ?_⟩
      rw [← hgood (by simp [hnext]), Distinct, Distinct, henabled', hdisabled']
  simp only [ServerMgr.processPendingEndpoint, hpending]
  have hok : MessageOk a s .processPendingEndpoint ↔
      ((∀ info ∈ s.disabled, info.endpoint ≠ endpoint) →
        if s.pools.Starts a endpoint then ∀ info ∈ s.enabled, info.endpoint ≠ endpoint
        else s.enabled = [] → s.pendingGets = []) := by
    simp only [MessageOk, hpending, cons.injEq, Change.enable.injEq, and_imp]
    constructor
    · intro hall
      exact hall endpoint changes rfl rfl
    · rintro hall _ _ rfl -
      exact hall
  cases htake : keytake EndpointInfo.endpoint endpoint s.disabled with
  | some taken =>
    obtain ⟨info, disabled⟩ := taken
    rw [enable_of_disabled htake]
    have hperm := (perm_of_keytake htake).2
    have hvacuous : MessageOk a s .processPendingEndpoint := by
      rw [hok]
      intro hnot
      exact absurd (keytake_eq_none_iff.2 hnot) (by simp [htake])
    refine hserve _ { haccounted with }
      rfl rfl (fun hcrash => ?_) (fun _ => iff_of_true (distinct_of_perm hdistinct ?_) hvacuous)
    · exact absurd (maybeScheduleProcessGet_eq_none.1 hcrash).2 (by simp)
    · show ((info :: s.enabled) ++ disabled).Perm (s.enabled ++ s.disabled)
      exact perm_middle.symm.trans (hperm.symm.append_left s.enabled)
  | none =>
    have hdisabled := keytake_eq_none_iff.1 htake
    rcases enable_of_not_disabled (a := a) htake with
      ⟨hstarts, henable⟩ | ⟨hstarts, info, pools, rfl, henable⟩
    · rw [henable]
      refine hserve s haccounted rfl rfl (fun hcrash => ?_) (fun halive => ?_)
      · obtain ⟨hgets, henabled⟩ := maybeScheduleProcessGet_eq_none.1 hcrash
        intro hgood
        have := (hok.1 hgood) hdisabled
        rw [if_neg hstarts] at this
        exact hgets (this henabled)
      · refine iff_of_true hdistinct (hok.2 fun _ => ?_)
        rw [if_neg hstarts]
        intro henabled
        by_contra hgets
        exact halive (maybeScheduleProcessGet_eq_none.2 ⟨hgets, henabled⟩)
    · rw [henable]
      refine hserve _ { haccounted with } rfl rfl (fun hcrash => ?_) (fun _ => ?_)
      · exact absurd (maybeScheduleProcessGet_eq_none.1 hcrash).2 (by simp)
      · rw [hok, if_pos hstarts, Option.getD_some, distinct_cons_iff hdistinct hdisabled]
        exact ⟨fun h _ => h, fun h => h hdisabled⟩

/-- **`process_pending_endpoint`** -/
theorem Shaped.processPendingEndpoint :
    Handled a s .processPendingEndpoint (processPendingEndpoint a s) := by
  cases hpending : s.pendingEndpoints with
  | nil =>
    -- the message is in the mailbox only while there are changes
    have hcount := h.scheduled.count
    simp [System.holding, hpending] at hcount
  | cons change changes =>
    cases change with
    | enable endpoint => exact h.enabling hdistinct hpending
    | disable endpoint =>
      have hok : MessageOk a s .processPendingEndpoint := by
        intro endpoint' changes' hpending'
        cases hpending.symm.trans hpending'
      have hnone : s.mailbox.count .processPendingEndpoint = 0 := by
        have hcount := h.scheduled.count
        simp only [System.holding, count_cons_self, hpending, reduceCtorEq, if_false] at hcount
        omega
      have haccounted : Accounted s := h.accounted.drop rfl
      have hserved : Served s := h.served.drop (by simp)
      have hdisable : Accounted ((disable endpoint s).getD s) ∧
          Served ((disable endpoint s).getD s) ∧
          ((disable endpoint s).getD s).mailbox = s.mailbox ∧
          ((disable endpoint s).getD s).crashed = s.crashed := by
        unfold disable
        cases htake : keytake EndpointInfo.endpoint endpoint s.enabled with
        | none => exact ⟨haccounted, hserved, rfl, rfl⟩
        | some taken =>
          refine ⟨{ haccounted with }, fun _ => hserved ?_, rfl, rfl⟩
          intro henabled
          simp [henabled, keytake] at htake
      obtain ⟨haccounted', hserved', hmailbox, hcrashed⟩ := hdisable
      simp only [ServerMgr.processPendingEndpoint, hpending]
      obtain ⟨hcrashed', hdistinct'⟩ := changeApplied_same ((disable endpoint s).getD s) changes
      exact ⟨haccounted'.changeApplied hserved' (by rw [hmailbox, hnone]), hcrashed'.trans hcrashed,
        iff_of_true (hdistinct'.2 (distinct_disable hdistinct)) hok⟩

end

/-- **A message is handled.** -/
theorem Shaped.handle (h : Shaped (s.holding message)) (hdistinct : Distinct s) :
    Handled a s message (handle opts a s message) := by
  cases message with
  | initialRefresh => exact h.handleContinue hdistinct
  | call caller request => exact h.handleCall hdistinct
  | timer timer =>
    cases timer with
    | refresh => exact h.refresh hdistinct
    | disabledGc => exact h.disabledGc hdistinct
  | processPendingGet => exact h.processPendingGet hdistinct
  | processPendingEndpoint => exact h.processPendingEndpoint hdistinct
  | down monitorRef =>
    have hshaped : Shaped s := h.drop ⟨rfl, by simp, by simp⟩
    have hsame : Shaped (down monitorRef s) ∧ (down monitorRef s).crashed = s.crashed := by
      unfold down
      split
      · rename_i info enabled htake
        refine ⟨⟨{ hshaped.accounted with }, ⟨hshaped.scheduled.count, hshaped.scheduled.listening⟩,
          fun _ => hshaped.served fun hnone => ?_⟩, rfl⟩
        simp [hnone, keytake] at htake
      · split
        · exact ⟨⟨{ hshaped.accounted with },
            ⟨hshaped.scheduled.count, hshaped.scheduled.listening⟩, hshaped.served⟩, rfl⟩
        · exact ⟨hshaped, rfl⟩
    exact ⟨hsame.1, hsame.2, iff_of_true (distinct_down hdistinct) trivial⟩
  | unexpected =>
    exact handled_of_same hdistinct trivial (h.drop ⟨rfl, by simp, by simp⟩) rfl rfl rfl

/-- The condition on a message does not look at the mailbox. -/
theorem messageOk_mailbox {mailbox : List Message} :
    MessageOk a { s with mailbox := mailbox } message ↔ MessageOk a s message := by
  cases message with
  | call caller request => cases request <;> exact Iff.rfl
  | timer timer => cases timer <;> exact Iff.rfl
  | _ => exact Iff.rfl

theorem Shaped.called (h : Shaped s) (hnew : caller ∉ s.calls.map Prod.fst) :
    Shaped ({ s with calls := s.calls ++ [(caller, request)] }.send (.call caller request)) := by
  refine ⟨⟨?_, fun caller' request' hmem => ?_, fun caller' hmem => ?_, fun caller' => ?_⟩,
    ⟨?_, h.scheduled.listening⟩, fun henabled hgets => ?_⟩
  · show ((s.calls ++ [(caller, request)]).map Prod.fst).Nodup
    rw [map_append, nodup_append]
    refine ⟨h.accounted.nodup, by simp, fun x hx y hy => ?_⟩
    obtain rfl : y = caller := by simpa using hy
    rintro rfl
    exact hnew hx
  · rcases mem_append.1 hmem with hmem | hmem
    · exact mem_append_left _ (h.accounted.queued caller' request' hmem)
    · cases mem_singleton.1 hmem
      exact mem_append_right _ mem_cons_self
  · exact mem_append_left _ (h.accounted.waiting caller' hmem)
  · have hcount := h.accounted.count caller'
    simp only [System.send, callers_append, callers_call, callers_nil, map_append,
      map_cons, map_nil, count_append, count_cons, count_nil]
    omega
  · show (s.mailbox ++ [Message.call caller request]).count .processPendingEndpoint = _
    rw [count_append, h.scheduled.count, count_cons_of_ne (by simp), count_nil]
    rfl
  · exact mem_append_left _ (h.served henabled hgets)

/-- **A step**: everything stays in its place as long as the manager survives. -/
theorem Shaped.step (h : Shaped s) (hkept : Kept s) {e : Event} (hstep : step opts s e = some s') :
    (Kept s' → Shaped s') ∧ (Kept s' ↔ StepOk s e) := by
  -- what happens around the manager
  have haround : ∀ s₁ : System, Shaped s₁ → s₁.crashed = s.crashed → s₁.enabled = s.enabled →
      s₁.disabled = s.disabled → (Kept s₁ → Shaped s₁) ∧ (Kept s₁ ↔ True) := by
    intro s₁ hs₁ hcrashed henabled hdisabled
    refine ⟨fun _ => hs₁, iff_of_true (hs₁.kept_iff.2 ⟨hcrashed.trans hkept.alive, ?_⟩) trivial⟩
    rw [Distinct, henabled, hdisabled]
    exact hkept.distinct
  cases e with
  | call caller request =>
    simp only [ServerMgr.step] at hstep
    split at hstep
    · cases hstep
    · rename_i hnew
      cases hstep
      exact haround _ (h.called hnew) rfl rfl rfl
  | timeout timer seconds =>
    simp only [ServerMgr.step] at hstep
    split at hstep
    · cases hstep
      exact haround _ ((h.around _ s.pools).send ⟨rfl, by simp, by simp⟩) rfl rfl rfl
    · cases hstep
  | poolEnds endpoint =>
    cases hstep
    exact haround _ (h.around s.timers _) rfl rfl rfl
  | arrive monitorRef =>
    simp only [ServerMgr.step] at hstep
    split at hstep
    · cases hstep
      exact haround _ ((h.around s.timers _).send ⟨rfl, by simp, by simp⟩) rfl rfl rfl
    · cases hstep
  | unexpected =>
    cases hstep
    exact haround _ (h.send ⟨rfl, by simp, by simp⟩) rfl rfl rfl
  | handle a =>
    simp only [ServerMgr.step] at hstep
    split at hstep
    · rename_i message mailbox hcrashed hmailbox
      have hholding : Shaped (System.holding { s with mailbox := mailbox } message) := by
        have hsame : System.holding { s with mailbox := mailbox } message = s := by
          rw [System.holding, ← hmailbox]
        rw [hsame]
        exact h
      have hok : StepOk s (.handle a) ↔ MessageOk a { s with mailbox := mailbox } message := by
        rw [messageOk_mailbox]
        constructor
        · intro hall
          exact hall hcrashed message mailbox hmailbox
        · rintro hok - message' mailbox' hmailbox'
          cases hmailbox.symm.trans hmailbox'
          exact hok
      have hhandled : Handled a { s with mailbox := mailbox } message
          (ServerMgr.handle opts a { s with mailbox := mailbox } message) :=
        hholding.handle hkept.distinct
      cases hresult : ServerMgr.handle opts a { s with mailbox := mailbox } message with
      | none =>
        rw [hresult] at hstep hhandled
        cases hstep
        have hdead : ¬ Kept { s with crashed := true } := fun hkept => Bool.true_eq_false.mp hkept.alive
        exact ⟨fun hkept => absurd hkept hdead,
          iff_of_false hdead fun hgood => hhandled (hok.1 hgood)⟩
      | some s₁ =>
        rw [hresult] at hhandled
        rw [hresult, Option.getD_some] at hstep
        cases hstep
        obtain ⟨hshaped, halive, hdistinct⟩ := hhandled
        refine ⟨fun _ => hshaped, ?_⟩
        rw [hok, ← hdistinct, hshaped.kept_iff]
        exact and_iff_right (halive.trans hcrashed)
    · cases hstep

end

/-! ## Runs -/

/-- **The manager survives failures and answers everyone** in exactly the runs whose messages are
all `MessageOk`. -/
theorem manager_survives (opts : Opts) (es : List Event) : Guarded (step opts) StepOk init es ↔
    ∀ h s, h <+: es → run (step opts) init h = some s → Kept s := by
  have hstart : Shaped init :=
    ⟨⟨nodup_nil, by simp [init], by simp [init], fun _ => rfl⟩, ⟨rfl, fun _ => rfl⟩,
      fun henabled => absurd rfl henabled⟩
  have hkept : Kept init := hstart.kept_iff.2 ⟨rfl, nodup_nil⟩
  refine guarded_iff_holds_along_of_invariant (I := Shaped) (fun s e _ _ hbroken => ?_)
    (fun s e s' hs hk hstep hk' => (hs.step hk hstep).1 hk')
    (fun s e s' hs hk hstep => (hs.step hk hstep).2) hstart hkept es
  -- a step that breaks the condition handles a message
  cases e with
  | handle a =>
    simp only [StepOk, not_forall] at hbroken
    obtain ⟨halive, message, mailbox, hmailbox, -⟩ := hbroken
    exact Option.isSome_iff_exists.1 (by simp [step, halive, hmailbox])
  | _ => exact absurd trivial hbroken

/-! ### A pool that does not start, and one that goes down -/

/-- An endpoint. -/
def endpoint : Endpoint := ⟨"192.0.2.1", 5555⟩

/-- A process asks for a connection before the only endpoint is enabled, and its pool does not
start. -/
def crashRun : List Event :=
  [.call 0 .getConnectionPool, .handle { resolved := some [endpoint] }, .handle {},
    .handle { started := false }]

/-- The endpoint is resolved twice, and its pool goes down between the two changes. -/
def twiceRun : List Event :=
  [.handle { resolved := some [endpoint, endpoint] }, .handle {}, .poolEnds endpoint, .handle {}]

/-- **The manager crashes, and has an endpoint twice.** -/
theorem manager_crashes :
    (∃ s, run (step ⟨60, 5, 60⟩) init crashRun = some s ∧ s.crashed = true ∧ ¬ Kept s) ∧
    ∃ s, run (step ⟨60, 5, 60⟩) init twiceRun = some s ∧
      s.enabled.map EndpointInfo.endpoint = [endpoint, endpoint] ∧ ¬ Kept s := by
  refine ⟨⟨_, rfl, rfl, fun hkept => Bool.true_eq_false.mp hkept.alive⟩, ⟨_, rfl, rfl, fun hkept => ?_⟩⟩
  have hnodup : [endpoint, endpoint].Nodup := hkept.distinct
  simp at hnodup

end MongooseIM.GlobalDistrib.ServerMgr
