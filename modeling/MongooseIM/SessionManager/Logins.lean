import MongooseIM.Erlang.Maps
import MongooseIM.SessionManager.Replacement
import MongooseIM.Transition.Run

/-! # Logins of one user

Any number of processes open sessions of one user. Each writes its session, reads all sessions and
asks some processes to leave, in steps of its own; those that are asked close their sessions once
they have opened them. -/

namespace MongooseIM.SessionManager

open Erlang Transition List

variable {Pid : Type*}

/-- How far a process is in `open_session/5`. -/
inductive Stage (Pid : Type*)
  /-- After `set_session/4`. -/
  | written
  /-- The sessions are read, and these processes are to be asked to leave. -/
  | checked (replaced : List Pid)
  | opened
  | closed
  deriving DecidableEq

/-- Those that a process has still to ask. -/
def Stage.replaced : Stage Pid → List Pid
  | .checked replaced => replaced
  | _ => []

/-- A process with its session. -/
structure Login (Pid : Type*) where
  session : Session Pid
  stage : Stage Pid

/-- The sessions of a user and the processes behind them. -/
structure Logins (Pid : Type*) where
  sessions : List (Session Pid) := []
  logins : AList (fun _ : Pid => Login Pid) := ∅
  /-- Those that were sent `{replaced, _}`. -/
  asked : List Pid := []
  limited : List Pid := []

/-- A step of a process. -/
inductive LoginEvent (Pid : Type*)
  | setSession (a : Session Pid)
  | readSessions (pid : Pid)
  | replace (pid : Pid)
  | closeSession (pid : Pid)

namespace Logins

section Steps

variable [LinearOrder Pid]

/-- One step, none when the process is not there. -/
def step (maxSessions : Option ℕ) (s : Logins Pid) : LoginEvent Pid → Option (Logins Pid)
  | .setSession a =>
    match s.logins.lookup a.pid with
    | some _ => none
    | none =>
      some
        { s with
          sessions := s.sessions ++ [a]
          logins := s.logins.insert a.pid ⟨a, .written⟩ }
  | .readSessions pid =>
    match s.logins.lookup pid with
    | some ⟨a, .written⟩ =>
      let redundant := checkExistingResources a.resource s.sessions
      let replaced := checkMaxSessions maxSessions redundant s.sessions
      some
        { s with
          logins := s.logins.insert pid ⟨a, .checked replaced⟩
          limited := s.limited ++ replaced.filter fun pid' => pid' ∉ redundant }
    | _ => none
  | .replace pid =>
    match s.logins.lookup pid with
    | some ⟨a, .checked replaced⟩ =>
      some
        { s with
          logins := s.logins.insert pid ⟨a, .opened⟩
          asked := s.asked ++ replaced }
    | _ => none
  | .closeSession pid =>
    match s.logins.lookup pid with
    | some ⟨a, .opened⟩ =>
      if pid ∈ s.asked then
        some
          { s with
            sessions := s.sessions.filter fun b => b.sid ≠ a.sid
            logins := s.logins.insert pid ⟨a, .closed⟩ }
      else none
    | _ => none

end Steps

variable [DecidableEq Pid] (s : Logins Pid)

/-- Everyone has opened a session, and those that were asked have closed theirs. -/
def Done : Prop :=
  ∀ pid login, s.logins.lookup pid = some login →
    login.stage = .closed ∨ login.stage = .opened ∧ pid ∉ s.asked

variable (pid : Pid)

/-- Those that a process has still to ask. -/
def replacedBy : List Pid :=
  ((s.logins.lookup pid).map fun login => login.stage.replaced).getD []

/-- The process is asked to leave, or is about to be. -/
def Leaves : Prop := pid ∈ s.asked ∨ ∃ by', pid ∈ s.replacedBy by'

/-- The process has read the sessions. -/
def HasRead : Prop :=
  ∃ login, s.logins.lookup pid = some login ∧ login.stage ≠ .written

/-- The session is there to stay. -/
def Stays (a : Session Pid) : Prop :=
  a ∈ s.sessions ∧ s.HasRead a.pid ∧ ¬s.Leaves a.pid

/-- The table holds the sessions of the processes that have not closed theirs. -/
structure WellFormed (s : Logins Pid) : Prop where
  own : ∀ pid login, s.logins.lookup pid = some login → login.session.pid = pid
  table : ∀ a, a ∈ s.sessions ↔
    ∃ login, s.logins.lookup a.pid = some login ∧ login.session = a ∧ login.stage ≠ .closed
  keyed : (s.sessions.map Session.pid).Nodup
  closed : ∀ pid login, s.logins.lookup pid = some login → login.stage = .closed → pid ∈ s.asked

/-! ## One process changes -/

section Insert

variable {s s' : Logins Pid} {pid : Pid} {login : Login Pid}

section

variable (h : s'.logins = s.logins.insert pid login)

include h

/-- The logins after one was written. -/
theorem lookup_of_insert (pid' : Pid) :
    s'.logins.lookup pid' = if pid' = pid then some login else s.logins.lookup pid' := by
  rw [h, lookup_insert]

/-- The sessions to be replaced, after a login was written. -/
theorem replacedBy_of_insert (pid' : Pid) :
    s'.replacedBy pid' = if pid' = pid then login.stage.replaced else s.replacedBy pid' := by
  rw [replacedBy, lookup_of_insert h, replacedBy]
  split <;> rfl

/-- Who has read the sessions, after a login was written. -/
theorem hasRead_of_insert {pid' : Pid} :
    s'.HasRead pid' ↔ if pid' = pid then login.stage ≠ .written else s.HasRead pid' := by
  unfold HasRead
  rw [lookup_of_insert h]
  split
  · simp
  · rfl

/-- Those that leave are the same but for what the process changes. -/
theorem leaves_of_insert {asked : List Pid}
    (hasked : s'.asked = s.asked ++ asked) {p : Pid} {q : Prop}
    (hnew : p ∈ asked ∨ p ∈ login.stage.replaced ↔ p ∈ s.replacedBy pid ∨ q) :
    s'.Leaves p ↔ s.Leaves p ∨ q := by
  have hold : (∃ by', p ∈ s.replacedBy by') ↔
      p ∈ s.replacedBy pid ∨ ∃ by', by' ≠ pid ∧ p ∈ s.replacedBy by' := by
    constructor
    · rintro ⟨by', hmem⟩
      by_cases hby : by' = pid
      · exact .inl (hby ▸ hmem)
      · exact .inr ⟨by', hby, hmem⟩
    · rintro (hmem | ⟨by', -, hmem⟩)
      · exact ⟨pid, hmem⟩
      · exact ⟨by', hmem⟩
  have hnow : (∃ by', p ∈ s'.replacedBy by') ↔
      p ∈ login.stage.replaced ∨ ∃ by', by' ≠ pid ∧ p ∈ s.replacedBy by' := by
    constructor
    · rintro ⟨by', hmem⟩
      rw [replacedBy_of_insert h] at hmem
      split at hmem
      · exact .inl hmem
      · rename_i hby
        exact .inr ⟨by', hby, hmem⟩
    · rintro (hmem | ⟨by', hby, hmem⟩)
      · exact ⟨pid, by rwa [replacedBy_of_insert h, if_pos rfl]⟩
      · exact ⟨by', by rwa [replacedBy_of_insert h, if_neg hby]⟩
  rw [Leaves, Leaves, hasked, mem_append, hold, hnow]
  grind

end

/-- The sessions that a login replaces are those of its stage. -/
theorem replacedBy_of_lookup (h : s.logins.lookup pid = some login) :
    s.replacedBy pid = login.stage.replaced := by
  rw [replacedBy, h]
  rfl

/-- No login, nothing to replace. -/
theorem replacedBy_of_none (h : s.logins.lookup pid = none) : s.replacedBy pid = [] := by
  rw [replacedBy, h]
  rfl

/-- A login has read the sessions once it is past writing its own. -/
theorem hasRead_of_lookup (h : s.logins.lookup pid = some login) :
    s.HasRead pid ↔ login.stage ≠ .written := by
  simp [HasRead, h]

variable {a : Session Pid} {stage : Stage Pid}

/-- A login that goes on keeps the state well formed. -/
theorem WellFormed.goOn (hs : s.WellFormed) {stage' : Stage Pid}
    (hpid : s.logins.lookup pid = some ⟨a, stage⟩) (hopen : stage ≠ .closed)
    (hopen' : stage' ≠ .closed) (h : s'.logins = s.logins.insert pid ⟨a, stage'⟩)
    (hsessions : s'.sessions = s.sessions) (hasked : ∀ p ∈ s.asked, p ∈ s'.asked) :
    s'.WellFormed := by
  constructor
  · intro pid' login' hlookup
    rw [lookup_of_insert h] at hlookup
    split at hlookup
    · rename_i heq
      cases hlookup
      rw [heq]
      show a.pid = pid
      exact hs.own pid ⟨a, stage⟩ hpid
    · exact hs.own pid' login' hlookup
  · intro b
    rw [hsessions, hs.table, lookup_of_insert h]
    split
    · rename_i heq
      rw [heq, hpid]
      simp [hopen, hopen']
    · rfl
  · rw [hsessions]
    exact hs.keyed
  · intro pid' login' hlookup hclosed
    rw [lookup_of_insert h] at hlookup
    split at hlookup
    · cases hlookup
      exact absurd hclosed hopen'
    · exact hasked pid' (hs.closed pid' login' hlookup hclosed)

/-- A new session keeps the state well formed. -/
theorem WellFormed.setSession (hs : s.WellFormed) (hnone : s.logins.lookup a.pid = none) :
    WellFormed { s with
    sessions := s.sessions ++ [a]
    logins := s.logins.insert a.pid ⟨a, .written⟩ } := by
  have hfresh : ∀ b ∈ s.sessions, b.pid ≠ a.pid := by
    intro b hb heq
    obtain ⟨login, hlookup, -⟩ := (hs.table b).1 hb
    rw [heq, hnone] at hlookup
    cases hlookup
  constructor
  · intro pid' login' hlookup
    rw [lookup_insert] at hlookup
    split at hlookup
    · rename_i heq
      cases hlookup
      exact heq.symm
    · exact hs.own pid' login' hlookup
  · intro b
    rw [mem_append, mem_singleton, lookup_insert]
    split
    · rename_i heq
      simp only [Option.some.injEq, exists_eq_left', ne_eq, reduceCtorEq, not_false_eq_true,
        and_true]
      exact ⟨fun h => (h.resolve_left fun hb => hfresh b hb heq).symm, fun h => .inr h.symm⟩
    · rename_i hne
      rw [← hs.table]
      exact or_iff_left fun h => hne (congrArg Session.pid h)
  · rw [map_append, nodup_append]
    refine ⟨hs.keyed, nodup_singleton _, ?_⟩
    rintro p hp q hq rfl
    obtain ⟨b, hb, rfl⟩ := mem_map.1 hp
    exact hfresh b hb (mem_singleton.1 hq)
  · intro pid' login' hlookup hclosed
    rw [lookup_insert] at hlookup
    split at hlookup
    · cases hlookup
      cases hclosed
    · exact hs.closed pid' login' hlookup hclosed

/-- A session that closes keeps the state well formed. -/
theorem WellFormed.closeSession (hs : s.WellFormed)
    (hpid : s.logins.lookup pid = some ⟨a, stage⟩) (hasked : pid ∈ s.asked) :
    WellFormed { s with
    sessions := s.sessions.filter fun b => b.sid ≠ a.sid
    logins := s.logins.insert pid ⟨a, .closed⟩ } := by
  have hown : a.pid = pid := hs.own pid _ hpid
  constructor
  · intro pid' login' hlookup
    rw [lookup_insert] at hlookup
    split at hlookup
    · rename_i heq
      cases hlookup
      exact hown.trans heq.symm
    · exact hs.own pid' login' hlookup
  · intro b
    rw [mem_filter, lookup_insert]
    split
    · rename_i heq
      have hout : ¬(b ∈ s.sessions ∧ decide (b.sid ≠ a.sid) = true) := by
        rintro ⟨hb, hne⟩
        obtain ⟨login, hlookup, rfl, -⟩ := (hs.table b).1 hb
        rw [heq, hpid] at hlookup
        cases hlookup
        exact of_decide_eq_true hne rfl
      refine iff_of_false hout ?_
      simp
    · rename_i hne
      rw [← hs.table]
      refine and_iff_left (decide_eq_true fun hsid => hne ?_)
      rw [← hown]
      exact congrArg (fun sid => (ofLex sid).2) hsid
  · exact hs.keyed.sublist (filter_sublist.map _)
  · intro pid' login' hlookup hclosed
    rw [lookup_insert] at hlookup
    split at hlookup
    · rename_i heq
      rw [heq]
      exact hasked
    · exact hs.closed pid' login' hlookup hclosed

end Insert

/-! ## What a step does -/

section Step

variable {P : Type*} [LinearOrder P] {maxSessions : Option ℕ} {s s' : Logins P}

/-- What a step that writes a session does. -/
theorem step_setSession {a : Session P} (h : step maxSessions s (.setSession a) = some s') :
    s.logins.lookup a.pid = none ∧ s' = { s with
      sessions := s.sessions ++ [a]
      logins := s.logins.insert a.pid ⟨a, .written⟩ } := by
  rw [step] at h
  split at h
  · cases h
  · rename_i hnone
    exact ⟨hnone, (Option.some.inj h).symm⟩

/-- What a step that reads the sessions does. -/
theorem step_readSessions {pid : P} (h : step maxSessions s (.readSessions pid) = some s') :
    ∃ a, s.logins.lookup pid = some ⟨a, .written⟩ ∧ s' = { s with
      logins := s.logins.insert pid ⟨a, .checked (checkMaxSessions maxSessions
        (checkExistingResources a.resource s.sessions) s.sessions)⟩
      limited := s.limited ++ (checkMaxSessions maxSessions
        (checkExistingResources a.resource s.sessions) s.sessions).filter fun pid' =>
          pid' ∉ checkExistingResources a.resource s.sessions } := by
  rw [step] at h
  split at h
  · rename_i a hpid
    exact ⟨a, hpid, (Option.some.inj h).symm⟩
  · cases h

variable {pid : P}

/-- What a step that asks sessions to leave does. -/
theorem step_replace (h : step maxSessions s (.replace pid) = some s') :
    ∃ a replaced, s.logins.lookup pid = some ⟨a, .checked replaced⟩ ∧ s' = { s with
      logins := s.logins.insert pid ⟨a, .opened⟩
      asked := s.asked ++ replaced } := by
  rw [step] at h
  split at h
  · rename_i a replaced hpid
    exact ⟨a, replaced, hpid, (Option.some.inj h).symm⟩
  · cases h

/-- What a step that closes a session does. -/
theorem step_closeSession (h : step maxSessions s (.closeSession pid) = some s') :
    ∃ a, s.logins.lookup pid = some ⟨a, .opened⟩ ∧ pid ∈ s.asked ∧ s' = { s with
      sessions := s.sessions.filter fun b => b.sid ≠ a.sid
      logins := s.logins.insert pid ⟨a, .closed⟩ } := by
  rw [step] at h
  split at h
  · rename_i a hpid
    split at h
    · rename_i hasked
      exact ⟨a, hpid, hasked, (Option.some.inj h).symm⟩
    · cases h
  · cases h

variable {e : LoginEvent P}

/-- Every step keeps the table in line with the processes. -/
theorem WellFormed.step (hs : s.WellFormed)
    (h : step maxSessions s e = some s') : s'.WellFormed := by
  cases e with
  | setSession a =>
    obtain ⟨hnone, rfl⟩ := step_setSession h
    exact hs.setSession hnone
  | readSessions pid =>
    obtain ⟨a, hpid, rfl⟩ := step_readSessions h
    exact hs.goOn hpid (by simp) (by simp) rfl rfl fun _ hp => hp
  | replace pid =>
    obtain ⟨a, replaced, hpid, rfl⟩ := step_replace h
    exact hs.goOn hpid (by simp) (by simp) rfl rfl fun _ hp => mem_append_left _ hp
  | closeSession pid =>
    obtain ⟨a, hpid, hasked, rfl⟩ := step_closeSession h
    exact hs.closeSession hpid hasked

/-- **The steps that are no read** change neither who leaves nor who has read, and take away only
sessions that leave. -/
structure Frame (s s' : Logins P) : Prop where
  leaves : ∀ pid, s'.Leaves pid ↔ s.Leaves pid
  hasRead : ∀ pid, s'.HasRead pid ↔ s.HasRead pid
  old : ∀ a ∈ s'.sessions, s'.HasRead a.pid → a ∈ s.sessions
  kept : ∀ a ∈ s.sessions, a ∈ s'.sessions ∨ s.Leaves a.pid
  limited : s'.limited = s.limited

/-- Steps other than reads keep the frame. -/
theorem frame_step (hs : s.WellFormed) (he : ∀ pid, e ≠ .readSessions pid)
    (h : step maxSessions s e = some s') : Frame s s' := by
  cases e with
  | setSession a =>
    obtain ⟨hnone, hs'⟩ := step_setSession h
    have hlogins := congrArg Logins.logins hs'
    have hasked := (congrArg Logins.asked hs').trans (append_nil s.asked).symm
    have hsessions : s'.sessions = s.sessions ++ [a] := congrArg Logins.sessions hs'
    have hread : ¬s.HasRead a.pid := by
      rintro ⟨login, hlookup, -⟩
      rw [hnone] at hlookup
      cases hlookup
    refine ⟨fun p => ?_, fun p => ?_, fun b hb hb' => ?_, fun b hb => .inl ?_,
      by rw [hs']⟩
    · rw [leaves_of_insert (q := False) hlogins hasked
        (by simp [replacedBy_of_none hnone, Stage.replaced]), or_false]
    · rw [hasRead_of_insert hlogins]
      split
      · rename_i heq
        rw [heq]
        simpa using hread
      · rfl
    · rw [hsessions] at hb
      rcases mem_append.1 hb with hb | hb
      · exact hb
      · obtain rfl := mem_singleton.1 hb
        rw [hasRead_of_insert hlogins, if_pos rfl] at hb'
        exact absurd rfl hb'
    · rw [hsessions]
      exact mem_append_left _ hb
  | readSessions pid => exact absurd rfl (he pid)
  | replace pid =>
    obtain ⟨a, replaced, hpid, hs'⟩ := step_replace h
    have hlogins := congrArg Logins.logins hs'
    have hasked := congrArg Logins.asked hs'
    have hsessions : s'.sessions = s.sessions := by rw [hs']
    refine ⟨fun p => ?_, fun p => ?_, fun b hb _ => hsessions ▸ hb,
      fun b hb => .inl (hsessions ▸ hb), by rw [hs']⟩
    · rw [leaves_of_insert (q := False) hlogins hasked
        (by simp [replacedBy_of_lookup hpid, Stage.replaced]), or_false]
    · rw [hasRead_of_insert hlogins]
      split
      · rename_i heq
        rw [heq, hasRead_of_lookup hpid]
        simp
      · rfl
  | closeSession pid =>
    obtain ⟨a, hpid, hin, hs'⟩ := step_closeSession h
    have hlogins := congrArg Logins.logins hs'
    have hasked := (congrArg Logins.asked hs').trans (append_nil s.asked).symm
    have hsessions : s'.sessions = s.sessions.filter fun b => b.sid ≠ a.sid :=
      congrArg Logins.sessions hs'
    refine ⟨fun p => ?_, fun p => ?_, fun b hb _ => ?_, fun b hb => ?_,
      by rw [hs']⟩
    · rw [leaves_of_insert (q := False) hlogins hasked
        (by simp [replacedBy_of_lookup hpid, Stage.replaced]), or_false]
    · rw [hasRead_of_insert hlogins]
      split
      · rename_i heq
        rw [heq, hasRead_of_lookup hpid]
        simp
      · rfl
    · rw [hsessions] at hb
      exact mem_of_mem_filter hb
    · by_cases hsid : b.sid = a.sid
      · have hpid' : b.pid = pid := (congrArg (fun sid => (ofLex sid).2) hsid).trans
          (hs.own pid _ hpid)
        exact .inr (.inl (by rwa [hpid']))
      · rw [hsessions]
        exact .inl (mem_filter.2 ⟨hb, decide_eq_true hsid⟩)

/-- In the frame the same sessions stay. -/
theorem Frame.stays (h : Frame s s') (a : Session P) : s'.Stays a ↔ s.Stays a := by
  unfold Stays
  rw [h.hasRead, h.leaves]
  constructor
  · rintro ⟨ha, hread, hstay⟩
    exact ⟨h.old a ha ((h.hasRead a.pid).2 hread), hread, hstay⟩
  · rintro ⟨ha, hread, hstay⟩
    exact ⟨(h.kept a ha).resolve_right hstay, hread, hstay⟩

/-- **A read**: the sessions are what they were, and what stays is not among the replaced. -/
theorem leaves_readSessions {pid : P} (h : step maxSessions s (.readSessions pid) = some s') :
    ∃ a, s.logins.lookup pid = some ⟨a, .written⟩ ∧ s'.sessions = s.sessions ∧
    (∀ p, s'.Leaves p ↔ s.Leaves p ∨ p ∈ checkMaxSessions maxSessions
      (checkExistingResources a.resource s.sessions) s.sessions) ∧
    ∀ p, s'.HasRead p ↔ p = pid ∨ s.HasRead p := by
  obtain ⟨a, hpid, hs'⟩ := step_readSessions h
  have hlogins := congrArg Logins.logins hs'
  have hasked := (congrArg Logins.asked hs').trans (append_nil s.asked).symm
  refine ⟨a, hpid, by rw [hs'], fun p => ?_, fun p => ?_⟩
  · refine leaves_of_insert hlogins hasked ?_
    simp [replacedBy_of_lookup hpid, Stage.replaced]
  · rw [hasRead_of_insert hlogins]
    split
    · rename_i heq
      simp [heq]
    · rename_i hne
      simp [hne]

section

variable (h : step maxSessions s e = some s')

include h

/-- Each of these steps writes one login, of the same session as before. -/
theorem exists_insert : ∃ pid login, s'.logins = s.logins.insert pid login ∧
    ∀ old, s.logins.lookup pid = some old → old.session = login.session := by
  have hsame : ∀ {pid : P} {a : Session P} {stage : Stage P},
      s.logins.lookup pid = some ⟨a, stage⟩ →
      ∀ old, s.logins.lookup pid = some old → old.session = a := by
    intro pid a stage hpid old hold
    rw [hpid] at hold
    cases hold
    rfl
  cases e with
  | setSession a =>
    obtain ⟨hnone, rfl⟩ := step_setSession h
    refine ⟨a.pid, ⟨a, .written⟩, rfl, fun old hold => ?_⟩
    rw [hnone] at hold
    cases hold
  | readSessions pid =>
    obtain ⟨a, hpid, rfl⟩ := step_readSessions h
    exact ⟨pid, _, rfl, hsame hpid⟩
  | replace pid =>
    obtain ⟨a, replaced, hpid, rfl⟩ := step_replace h
    exact ⟨pid, _, rfl, hsame hpid⟩
  | closeSession pid =>
    obtain ⟨a, hpid, -, rfl⟩ := step_closeSession h
    exact ⟨pid, _, rfl, hsame hpid⟩

/-- A process that is there stays there with its session. -/
theorem lookup_step {login : Login P} (hpid : s.logins.lookup pid = some login) :
    ∃ login', s'.logins.lookup pid = some login' ∧ login'.session = login.session := by
  obtain ⟨pid₀, login₀, hlogins, hsame⟩ := exists_insert h
  rw [lookup_of_insert hlogins]
  split
  · rename_i heq
    exact ⟨login₀, rfl, (hsame login (heq ▸ hpid)).symm⟩
  · exact ⟨login, hpid, rfl⟩

/-- A process that is there was there with its session, or is new. -/
theorem lookup_of_step {login' : Login P} (hpid : s'.logins.lookup pid = some login') :
    s.logins.lookup pid = none ∨
    ∃ login, s.logins.lookup pid = some login ∧ login.session = login'.session := by
  obtain ⟨pid₀, login₀, hlogins, hsame⟩ := exists_insert h
  rw [lookup_of_insert hlogins] at hpid
  split at hpid
  · rename_i heq
    cases hpid
    cases hold : s.logins.lookup pid with
    | none => exact .inl rfl
    | some old => exact .inr ⟨old, rfl, hsame old (heq ▸ hold)⟩
  · exact .inr ⟨login', hpid, rfl⟩

end

/-! ## Invariants -/

/-- **What holds of every state.** -/
structure Invariant (s : Logins P) : Prop extends WellFormed s where
  known : ∀ pid, s.Leaves pid → ∃ login, s.logins.lookup pid = some login
  /-- Of two that have read, whoever read last saw both. -/
  crowded : ∀ a ∈ s.sessions, ∀ b ∈ s.sessions, a.resource = b.resource → a.sid < b.sid →
    s.HasRead a.pid → s.HasRead b.pid → s.Leaves a.pid
  /-- The newest session of a resource leaves for the limit only. -/
  superseded : ∀ pid login, s.logins.lookup pid = some login → s.Leaves pid →
    pid ∈ s.limited ∨ ∃ pid' login', s.logins.lookup pid' = some login' ∧
      login'.session.resource = login.session.resource ∧ login.session.sid < login'.session.sid

/-- The invariant holds before any login. -/
theorem invariant_empty : Invariant ({} : Logins P) := by
  have hleaves : ∀ pid, ¬Leaves ({} : Logins P) pid := by
    rintro pid (hasked | ⟨by', hby⟩)
    · cases hasked
    · cases hby
  constructor
  · constructor
    · rintro pid login hlookup
      cases hlookup
    · intro a
      refine iff_of_false not_mem_nil ?_
      rintro ⟨login, hlookup, -⟩
      cases hlookup
    · exact nodup_nil
    · rintro pid login hlookup
      cases hlookup
  · exact fun pid h => absurd h (hleaves pid)
  · rintro a ha
    cases ha
  · rintro pid login hlookup
    cases hlookup

/-- A session that a newer one has superseded stays so. -/
theorem superseded_step (h : step maxSessions s e = some s')
    {login : Login P} (hnewer : ∃ pid' login', s.logins.lookup pid' = some login' ∧
    login'.session.resource = login.session.resource ∧ login.session.sid < login'.session.sid) :
    ∃ pid' login', s'.logins.lookup pid' = some login' ∧
    login'.session.resource = login.session.resource ∧
      login.session.sid < login'.session.sid := by
  obtain ⟨pid', login', hpid', hresource, hsid⟩ := hnewer
  obtain ⟨login'', hpid'', hsame⟩ := lookup_step h hpid'
  exact ⟨pid', login'', hpid'', by rw [hsame]; exact hresource, by rw [hsame]; exact hsid⟩

/-- Steps other than reads keep the invariant. -/
theorem Invariant.step_other (hs : s.Invariant)
    (he : ∀ pid, e ≠ .readSessions pid) (h : step maxSessions s e = some s') : s'.Invariant := by
  have hframe := frame_step hs.toWellFormed he h
  refine ⟨hs.toWellFormed.step h, ?_, ?_, ?_⟩
  · intro pid hleaves
    obtain ⟨login, hpid⟩ := hs.known pid ((hframe.leaves pid).1 hleaves)
    obtain ⟨login', hpid', -⟩ := lookup_step h hpid
    exact ⟨login', hpid'⟩
  · intro a ha b hb hresource hsid haread hbread
    rw [hframe.leaves]
    exact hs.crowded a (hframe.old a ha haread) b (hframe.old b hb hbread) hresource hsid
      ((hframe.hasRead _).1 haread) ((hframe.hasRead _).1 hbread)
  · intro pid login' hpid' hleaves
    rw [hframe.leaves] at hleaves
    rcases lookup_of_step h hpid' with hnone | ⟨login, hpid, hsame⟩
    · obtain ⟨login, hpid⟩ := hs.known pid hleaves
      rw [hnone] at hpid
      cases hpid
    · rw [hframe.limited]
      rcases hs.superseded pid login hpid hleaves with hlimited | hnewer
      · exact .inl hlimited
      · obtain ⟨pid₂, login₂, hpid₂, hnewer₂⟩ := superseded_step h hnewer
        rw [hsame] at hnewer₂
        exact .inr ⟨pid₂, login₂, hpid₂, hnewer₂⟩

/-- A read keeps the invariant. -/
theorem Invariant.readSessions (hs : s.Invariant) {pid : P}
    (h : step maxSessions s (.readSessions pid) = some s') : s'.Invariant := by
  obtain ⟨a₀, hpid, hsessions, hleaves, hread⟩ := leaves_readSessions h
  have hown : a₀.pid = pid := hs.own pid _ hpid
  have hlimited : s'.limited = s.limited ++ (checkMaxSessions maxSessions
      (checkExistingResources a₀.resource s.sessions) s.sessions).filter fun pid' =>
        pid' ∉ checkExistingResources a₀.resource s.sessions := by
    obtain ⟨a, hpid', rfl⟩ := step_readSessions h
    rw [hpid] at hpid'
    obtain rfl := (Login.mk.inj (Option.some.inj hpid')).1
    rfl
  have hlookup : ∀ b ∈ s.sessions, ∃ login, s.logins.lookup b.pid = some login ∧
      login.session = b := by
    intro b hb
    obtain ⟨login, hlogin, hsession, -⟩ := (hs.table b).1 hb
    exact ⟨login, hlogin, hsession⟩
  have hin : ∀ b ∈ s.sessions, b.pid = pid → b = a₀ := by
    intro b hb heq
    obtain ⟨login, hlogin, rfl⟩ := hlookup b hb
    rw [heq, hpid] at hlogin
    rw [← Option.some.inj hlogin]
  have hthere : ∀ p, s'.Leaves p → ∃ login, s.logins.lookup p = some login := by
    intro p hp
    rcases (hleaves p).1 hp with hp | hp
    · exact hs.known p hp
    · obtain ⟨b, hb, rfl⟩ := exists_of_mem_checkMaxSessions (fun p hp => by
        obtain ⟨b, hb, -, hpid, -⟩ := mem_checkExistingResources.1 hp
        exact ⟨b, hb, hpid⟩) hp
      obtain ⟨login, hlogin, -⟩ := hlookup b hb
      exact ⟨login, hlogin⟩
  refine ⟨hs.toWellFormed.step h, ?_, ?_, ?_⟩
  · intro p hp
    obtain ⟨login, hlogin⟩ := hthere p hp
    obtain ⟨login', hlogin', -⟩ := lookup_step h hlogin
    exact ⟨login', hlogin'⟩
  · intro a ha b hb hresource hsid haread hbread
    rw [hsessions] at ha hb
    rw [hleaves]
    -- the reader sees both, and either is its own
    have hseen : a.resource = a₀.resource → a.pid ∈ checkMaxSessions maxSessions
        (checkExistingResources a₀.resource s.sessions) s.sessions := by
      intro heq
      refine mem_checkMaxSessions_of_mem (mem_checkExistingResources.2 ?_)
      exact ⟨a, ha, heq, rfl, b, hb, hresource.symm.trans heq, hsid⟩
    rcases (hread a.pid).1 haread with heq | haread
    · exact .inr (hseen (congrArg _ (hin a ha heq)))
    · rcases (hread b.pid).1 hbread with heq | hbread
      · exact .inr (hseen (hresource.trans (congrArg _ (hin b hb heq))))
      · exact .inl (hs.crowded a ha b hb hresource hsid haread hbread)
  · intro p login' hp' hp
    rcases lookup_of_step h hp' with hnone | ⟨login, hlogin, hsame⟩
    · obtain ⟨login, hlogin⟩ := hthere p hp
      rw [hnone] at hlogin
      cases hlogin
    · rw [← hsame, hlimited, mem_append]
      rcases (hleaves p).1 hp with hold | hreplaced
      · rcases hs.superseded p login hlogin hold with hlim | hnewer
        · exact .inl (.inl hlim)
        · exact .inr (superseded_step h hnewer)
      · by_cases hredundant : p ∈ checkExistingResources a₀.resource s.sessions
        · obtain ⟨b, hb, hb', rfl, c, hc, hc', hsid⟩ := mem_checkExistingResources.1 hredundant
          obtain ⟨loginb, hloginb, rfl⟩ := hlookup b hb
          obtain ⟨loginc, hloginc, rfl⟩ := hlookup c hc
          rw [hlogin] at hloginb
          cases hloginb
          exact .inr (superseded_step h ⟨_, loginc, hloginc, hc'.trans hb'.symm, hsid⟩)
        · exact .inl (.inr (mem_filter.2 ⟨hreplaced, decide_eq_true hredundant⟩))

/-- Every step keeps the invariant. -/
theorem Invariant.step (hs : s.Invariant) (h : step maxSessions s e = some s') : s'.Invariant := by
  cases e with
  | readSessions pid => exact hs.readSessions h
  | setSession a => exact hs.step_other (by simp) h
  | replace pid => exact hs.step_other (by simp) h
  | closeSession pid => exact hs.step_other (by simp) h

/-- Every run keeps the invariant. -/
theorem Invariant.run {es : List (LoginEvent P)} (hs : s.Invariant)
    (h : run (Logins.step maxSessions) s es = some s') : s'.Invariant :=
  run_induction (P := fun _ s => s.Invariant) (fun _ _ _ _ hs h => hs.step h) hs h

end Step

end Logins

end MongooseIM.SessionManager
