import Mathlib.Data.List.MinMax
import Mathlib.Data.Prod.Lex
import MongooseIM.Erlang.Lists

/-! # The sessions that a new one replaces

What a process that opens a session finds among the sessions of its user, and which of their
processes it asks to leave. -/

namespace MongooseIM.SessionManager

open Erlang List

variable {Pid : Type*} [LinearOrder Pid]

/-- `sid()`: when it was made and by which process, in this order. -/
abbrev Sid (Pid : Type*) := ℕ ×ₗ Pid

/-- The fields of `#session{}` that are read here, for the sessions of one user. -/
structure Session (Pid : Type*) where
  sid : Sid Pid
  resource : String
  deriving DecidableEq

omit [LinearOrder Pid] in
/-- The process of a session. -/
def Session.pid (a : Session Pid) : Pid := (ofLex a.sid).2

/-- `check_existing_resources/2` -/
def checkExistingResources (lresource : String) (sessions : List (Session Pid)) : List Pid :=
  match (sessions.filter fun a => a.resource = lresource).map Session.sid with
  | [] => []
  | [_] => []
  | sids =>
    match sids.max? with
    | some maxSid => usort ((sids.filter fun sid => sid ≠ maxSid).map fun sid => (ofLex sid).2)
    | none => []

/-- `check_max_sessions/5`, where none is `infinity`. -/
def checkMaxSessions (maxSessions : Option ℕ) (replacedPids : List Pid)
    (sessions : List (Session Pid)) : List Pid :=
  let sids := (sessions.filter fun a => a.pid ∉ replacedPids).map Session.sid
  match maxSessions with
  | none => replacedPids
  | some n =>
    if sids.length ≤ n then replacedPids
    else
      match sids.min? with
      | some sid => (ofLex sid).2 :: replacedPids
      | none => replacedPids

variable {sessions : List (Session Pid)} {pid : Pid}

/-- **Those that are not the newest of their resource** are asked to leave. -/
theorem mem_checkExistingResources {lresource : String}
    : pid ∈ checkExistingResources lresource sessions ↔
    ∃ a ∈ sessions, a.resource = lresource ∧ a.pid = pid ∧
      ∃ b ∈ sessions, b.resource = lresource ∧ a.sid < b.sid := by
  have hsids : ∀ sid, sid ∈ (sessions.filter fun a => a.resource = lresource).map Session.sid ↔
      ∃ a ∈ sessions, a.resource = lresource ∧ a.sid = sid := by
    intro sid
    simp [and_assoc]
  -- a session that is not the newest has a newer one beside it
  have hlt : ∀ a ∈ sessions, a.resource = lresource → ∀ maxSid,
      ((sessions.filter fun a => a.resource = lresource).map Session.sid).max? = some maxSid →
      (a.sid ≠ maxSid ↔ ∃ b ∈ sessions, b.resource = lresource ∧ a.sid < b.sid) := by
    intro a ha hresource maxSid hmax
    obtain ⟨hmem, hle⟩ := max?_eq_some_iff.1 hmax
    constructor
    · intro hne
      obtain ⟨b, hb, hb', hsid⟩ := (hsids maxSid).1 hmem
      exact ⟨b, hb, hb', hsid ▸ lt_of_le_of_ne (hle a.sid ((hsids a.sid).2 ⟨a, ha, hresource, rfl⟩))
        hne⟩
    · rintro ⟨b, hb, hb', hsid⟩ rfl
      exact absurd hsid (not_lt.2 (hle b.sid ((hsids b.sid).2 ⟨b, hb, hb', rfl⟩)))
  rw [checkExistingResources]
  split
  · rename_i hnil
    refine iff_of_false not_mem_nil ?_
    rintro ⟨a, ha, hresource, -⟩
    have hmem := (hsids a.sid).2 ⟨a, ha, hresource, rfl⟩
    rw [hnil] at hmem
    cases hmem
  · rename_i sid hone
    refine iff_of_false not_mem_nil ?_
    rintro ⟨a, ha, hresource, -, b, hb, hb', hsid⟩
    have hmem := (hsids a.sid).2 ⟨a, ha, hresource, rfl⟩
    have hmem' := (hsids b.sid).2 ⟨b, hb, hb', rfl⟩
    rw [hone, mem_singleton] at hmem hmem'
    rw [hmem, hmem'] at hsid
    exact absurd hsid (lt_irrefl sid)
  · rename_i hnil hone
    split
    · rename_i maxSid hmax
      rw [mem_usort, mem_map]
      constructor
      · rintro ⟨sid, hsid, rfl⟩
        obtain ⟨hmem, hne⟩ := mem_filter.1 hsid
        obtain ⟨a, ha, hresource, rfl⟩ := (hsids sid).1 hmem
        exact ⟨a, ha, hresource, rfl, (hlt a ha hresource maxSid hmax).1 (of_decide_eq_true hne)⟩
      · rintro ⟨a, ha, hresource, rfl, hnewer⟩
        refine ⟨a.sid, mem_filter.2 ⟨(hsids a.sid).2 ⟨a, ha, hresource, rfl⟩, ?_⟩, rfl⟩
        exact decide_eq_true ((hlt a ha hresource maxSid hmax).2 hnewer)
    · rename_i hmax
      exact absurd (max?_eq_none_iff.1 hmax) hnil

variable {maxSessions : Option ℕ} {replacedPids : List Pid}

theorem mem_checkMaxSessions_of_mem (h : pid ∈ replacedPids) :
    pid ∈ checkMaxSessions maxSessions replacedPids sessions := by
  unfold checkMaxSessions
  dsimp only
  split
  · exact h
  · split
    · exact h
    · split
      · exact mem_cons_of_mem _ h
      · exact h

/-- Whoever is asked to leave has a session, as those that are replaced anyway have. -/
theorem exists_of_mem_checkMaxSessions (hsub : ∀ pid ∈ replacedPids, ∃ a ∈ sessions, a.pid = pid)
    (h : pid ∈ checkMaxSessions maxSessions replacedPids sessions) :
    ∃ a ∈ sessions, a.pid = pid := by
  unfold checkMaxSessions at h
  dsimp only at h
  split at h
  · exact hsub pid h
  · split at h
    · exact hsub pid h
    · split at h
      · rename_i sid hmin
        rcases mem_cons.1 h with rfl | h
        · obtain ⟨hmem, -⟩ := min?_eq_some_iff.1 hmin
          obtain ⟨a, ha, rfl⟩ := mem_map.1 hmem
          exact ⟨a, mem_of_mem_filter ha, rfl⟩
        · exact hsub pid h
      · exact hsub pid h

/-- The element of a list that has a value which no other has. -/
theorem length_filter_ne {α β : Type*} [DecidableEq β] {f : α → β} {l : List α}
    (hnodup : (l.map f).Nodup) {a : α} (ha : a ∈ l) :
    (l.filter fun b => f b ≠ f a).length + 1 = l.length := by
  induction l with
  | nil => cases ha
  | cons b l ih =>
    obtain ⟨hnotin, hnodup'⟩ := nodup_cons.1 hnodup
    rcases mem_cons.1 ha with rfl | ha
    · have hall : l.filter (fun b => f b ≠ f a) = l := by
        rw [filter_eq_self]
        intro b hb
        exact decide_eq_true fun heq => hnotin (heq ▸ mem_map_of_mem hb)
      rw [filter_cons_of_neg (by simp), hall, length_cons]
    · have hne : f b ≠ f a := fun heq => hnotin (heq ▸ mem_map_of_mem ha)
      have hlength := ih hnodup' ha
      rw [filter_cons_of_pos (by simpa using hne), length_cons, length_cons]
      omega

variable {sessions : List (Session Pid)} {a : Session Pid}

/-- Of the sessions that stay for their resource, one is of that resource. -/
theorem length_filter_checkExistingResources (hnodup : (sessions.map Session.pid).Nodup)
    (ha : a ∈ sessions) :
    (sessions.filter fun b => b.pid ∉ checkExistingResources a.resource sessions).length =
    (sessions.filter fun b => b.resource ≠ a.resource).length + 1 := by
  have hinj : ∀ b ∈ sessions, ∀ c ∈ sessions, b.pid = c.pid → b = c := fun b hb c hc h =>
    inj_on_of_nodup_map hnodup hb hc h
  have hmem : ∀ b ∈ sessions, b.pid ∈ checkExistingResources a.resource sessions ↔
      b.resource = a.resource ∧ ∃ c ∈ sessions, c.resource = a.resource ∧ b.sid < c.sid := by
    intro b hb
    rw [mem_checkExistingResources]
    constructor
    · rintro ⟨b', hb', hresource, hpid, hnewer⟩
      obtain rfl := hinj b' hb' b hb hpid
      exact ⟨hresource, hnewer⟩
    · rintro ⟨hresource, hnewer⟩
      exact ⟨b, hb, hresource, rfl, hnewer⟩
  -- the newest session of the resource
  obtain ⟨m, hm, hmresource, hnewest⟩ : ∃ m ∈ sessions, m.resource = a.resource ∧
      ∀ b ∈ sessions, b.resource = a.resource → b.sid ≤ m.sid := by
    cases hmax : ((sessions.filter fun b => b.resource = a.resource).map Session.sid).max? with
    | none =>
      have hnil := map_eq_nil_iff.1 (max?_eq_none_iff.1 hmax)
      have hin : a ∈ sessions.filter fun b => b.resource = a.resource := by simp [ha]
      rw [hnil] at hin
      cases hin
    | some maxSid =>
      obtain ⟨hmem, hle⟩ := max?_eq_some_iff.1 hmax
      obtain ⟨m, hm, rfl⟩ := mem_map.1 hmem
      obtain ⟨hm, hresource⟩ := mem_filter.1 hm
      refine ⟨m, hm, of_decide_eq_true hresource, fun b hb hb' => ?_⟩
      exact hle b.sid (mem_map_of_mem (mem_filter.2 ⟨hb, decide_eq_true hb'⟩))
  have hstay : ∀ b ∈ sessions, (b.pid ∉ checkExistingResources a.resource sessions ∧
      b.pid ≠ m.pid) ↔ b.resource ≠ a.resource := by
    intro b hb
    rw [hmem b hb]
    constructor
    · rintro ⟨hnot, hne⟩ hresource
      have hle := hnewest b hb hresource
      rcases eq_or_lt_of_le hle with heq | hlt
      · exact hne (congrArg (fun sid => (ofLex sid).2) heq)
      · exact hnot ⟨hresource, m, hm, hmresource, hlt⟩
    · intro hresource
      refine ⟨fun h => hresource h.1, fun hpid => ?_⟩
      obtain rfl := hinj b hb m hm hpid
      exact hresource hmresource
  have hmstay : m ∈ sessions.filter
      fun b => b.pid ∉ checkExistingResources a.resource sessions := by
    refine mem_filter.2 ⟨hm, decide_eq_true fun hin => ?_⟩
    obtain ⟨-, c, hc, hcresource, hlt⟩ := (hmem m hm).1 hin
    exact absurd hlt (not_lt.2 (hnewest c hc hcresource))
  have hcount := length_filter_ne (f := Session.pid)
    (hnodup.sublist (filter_sublist.map Session.pid)) hmstay
  rw [← hcount, filter_filter]
  congr 2
  refine filter_congr fun b hb => ?_
  have hiff := hstay b hb
  rw [Bool.eq_iff_iff]
  simpa [and_comm] using hiff

/-- **When one that leaves is enough**: when the sessions of other resources are not more than
allowed. -/
theorem length_left_le_iff (hnodup : (sessions.map Session.pid).Nodup) (ha : a ∈ sessions) (n : ℕ) :
    (sessions.filter fun b => b.pid ∉ checkMaxSessions (some n)
      (checkExistingResources a.resource sessions) sessions).length ≤ n ↔
    (sessions.filter fun b => b.resource ≠ a.resource).length ≤ n := by
  have hcount := length_filter_checkExistingResources hnodup ha
  generalize checkExistingResources a.resource sessions = redundant at hcount
  simp only [checkMaxSessions, length_map]
  split
  · omega
  · rename_i hmany
    split
    · rename_i sid hmin
      obtain ⟨hmem, -⟩ := min?_eq_some_iff.1 hmin
      obtain ⟨b, hb, rfl⟩ := mem_map.1 hmem
      have hone := length_filter_ne (f := Session.pid)
        (hnodup.sublist (filter_sublist.map Session.pid)) hb
      rw [filter_filter] at hone
      have hleft : (sessions.filter fun c => c.pid ∉ b.pid :: redundant) =
          sessions.filter fun c => decide (c.pid ≠ b.pid) && decide (c.pid ∉ redundant) := by
        refine filter_congr fun c _ => ?_
        rw [Bool.eq_iff_iff]
        simp
      show (sessions.filter fun c => c.pid ∉ b.pid :: redundant).length ≤ n ↔ _
      rw [hleft]
      omega
    · rename_i hmin
      have hnil := map_eq_nil_iff.1 (min?_eq_none_iff.1 hmin)
      rw [hnil] at hmany
      simp at hmany

end MongooseIM.SessionManager
