import Mathlib.Data.String.Basic
import MongooseIM.SessionManager.Replacement

/-! # The sessions that stanzas are routed to

A backend may list several sessions of one full JID; the session manager routes to the newest. -/

namespace MongooseIM.SessionManager.SessionList

open Erlang List

/-- `jid:simple_jid()`: user, server and resource, ordered as tuples are. -/
abbrev SimpleJid := String ×ₗ String ×ₗ String

/-- The tuple of the three parts. -/
def simpleJid (luser lserver lresource : String) : SimpleJid :=
  toLex (luser, toLex (lserver, lresource))

/-- `#session{}`; `us` is the beginning of `usr`, as `set_session/4` writes them. -/
structure Session (Pid : Type*) where
  sid : Sid Pid
  usr : SimpleJid
  /-- `none` is `undefined`. -/
  priority : Option ℤ

variable {Pid : Type*}

/-- `element(2, S#session.sid)` -/
def Session.pid (a : Session Pid) : Pid := (ofLex a.sid).2

/-- `us` -/
def Session.us (a : Session Pid) : String × String :=
  ((ofLex a.usr).1, (ofLex (ofLex a.usr).2).1)

/-- `element(3, S#session.usr)` -/
def Session.resource (a : Session Pid) : String := (ofLex (ofLex a.usr).2).2

theorem Session.usr_eq (a : Session Pid) : a.usr = simpleJid a.us.1 a.us.2 a.resource := rfl

variable [LinearOrder Pid]

/-- `clean_session_list/2` -/
def cleanSessionListAcc : List (Session Pid) → List (Session Pid) → List (Session Pid)
  | [], res => res
  | [a], res => a :: res
  | a :: b :: rest, res =>
    if a.usr = b.usr then
      if b.sid < a.sid then cleanSessionListAcc (a :: rest) res
      else cleanSessionListAcc (b :: rest) res
    else cleanSessionListAcc (b :: rest) (a :: res)
  termination_by ss => ss.length

/-- `clean_session_list/1` -/
def cleanSessionList (ss : List (Session Pid)) : List (Session Pid) :=
  cleanSessionListAcc (keysort Session.usr ss) []

variable (table : List (Session Pid)) (luser lserver : String)

omit [LinearOrder Pid] in
/-- `ejabberd_sm_backend:get_sessions/2`, in the order of the table. -/
def getSessions : List (Session Pid) := table.filter fun a => a.us = (luser, lserver)

/-- `get_user_present_pids/2` -/
def getUserPresentPids : List (ℤ ×ₗ Pid) :=
  (cleanSessionList (getSessions table luser lserver)).filterMap fun a =>
    a.priority.map fun prio => toLex (prio, a.pid)

/-- `get_user_present_resources_and_pids/1` -/
def getUserPresentResourcesAndPids : List (String × Pid) :=
  (cleanSessionList (getSessions table luser lserver)).filterMap fun a =>
    a.priority.map fun _ => (a.resource, a.pid)

/-- `route_message/4`: the processes that are given the message, none when it is handled as one to
a user who is offline. -/
def routeMessage : List Pid :=
  let prioPid := getUserPresentPids table luser lserver
  match prioPid.max? with
  | some top =>
    if 0 ≤ (ofLex top).1 then
      (prioPid.filter fun p => (ofLex p).1 = (ofLex top).1).map fun p => (ofLex p).2
    else []
  | none => []

/-- `do_route_no_resource/5` of a presence that is let through: the full JIDs it is sent to, each
with the process that is given it. -/
def routePresence : List (SimpleJid × Pid) :=
  (getUserPresentResourcesAndPids table luser lserver).map fun (resource, pid) =>
    (simpleJid luser lserver resource, pid)

/-! ## One pass over a sorted list -/

section

variable {ss res : List (Session Pid)} {a : Session Pid}

theorem mem_cleanSessionListAcc (h : a ∈ cleanSessionListAcc ss res) : a ∈ ss ∨ a ∈ res := by
  induction ss, res using cleanSessionListAcc.induct with
  | case1 res =>
    rw [cleanSessionListAcc] at h
    exact .inr h
  | case2 b res =>
    rw [cleanSessionListAcc] at h
    exact (mem_cons.1 h).imp_left mem_singleton.2
  | case3 b c rest res husr hsid ih =>
    rw [cleanSessionListAcc, if_pos husr, if_pos hsid] at h
    refine (ih h).imp_left fun hmem => ?_
    exact (cons_sublist_cons.2 (sublist_cons_self c rest)).subset hmem
  | case4 b c rest res husr hsid ih =>
    rw [cleanSessionListAcc, if_pos husr, if_neg hsid] at h
    exact (ih h).imp_left (mem_cons_of_mem b)
  | case5 b c rest res husr ih =>
    rw [cleanSessionListAcc, if_neg husr] at h
    rcases ih h with hmem | hmem
    · exact .inl (mem_cons_of_mem b hmem)
    · exact (mem_cons.1 hmem).imp_left fun heq => mem_cons.2 (.inl heq)

theorem subset_cleanSessionListAcc : res ⊆ cleanSessionListAcc ss res := by
  induction ss, res using cleanSessionListAcc.induct with
  | case1 res =>
    rw [cleanSessionListAcc]
    exact Subset.refl _
  | case2 b res =>
    rw [cleanSessionListAcc]
    exact subset_cons_self b res
  | case3 b c rest res husr hsid ih =>
    rw [cleanSessionListAcc, if_pos husr, if_pos hsid]
    exact ih
  | case4 b c rest res husr hsid ih =>
    rw [cleanSessionListAcc, if_pos husr, if_neg hsid]
    exact ih
  | case5 b c rest res husr ih =>
    rw [cleanSessionListAcc, if_neg husr]
    exact fun a ha => ih (mem_cons_of_mem b ha)

/-- **No full JID is lost**, and what is left of it is no older than what was there. -/
theorem exists_newer (h : a ∈ ss) :
    ∃ b ∈ cleanSessionListAcc ss res, b.usr = a.usr ∧ a.sid ≤ b.sid := by
  induction ss, res using cleanSessionListAcc.induct generalizing a with
  | case1 res => cases h
  | case2 c res =>
    rw [cleanSessionListAcc]
    rw [mem_singleton] at h
    exact ⟨c, mem_cons_self, h ▸ rfl, h ▸ le_rfl⟩
  | case3 c d rest res husr hsid ih =>
    rw [cleanSessionListAcc, if_pos husr, if_pos hsid]
    rcases mem_cons.1 h with rfl | h
    · exact ih mem_cons_self
    · rcases mem_cons.1 h with rfl | h
      · -- the second one is left out, and the first one is newer
        obtain ⟨b, hb, husr', hsid'⟩ := ih mem_cons_self
        exact ⟨b, hb, husr'.trans husr, hsid.le.trans hsid'⟩
      · exact ih (mem_cons_of_mem c h)
  | case4 c d rest res husr hsid ih =>
    rw [cleanSessionListAcc, if_pos husr, if_neg hsid]
    rcases mem_cons.1 h with rfl | h
    · obtain ⟨b, hb, husr', hsid'⟩ := ih mem_cons_self
      exact ⟨b, hb, husr'.trans husr.symm, (not_lt.1 hsid).trans hsid'⟩
    · exact ih h
  | case5 c d rest res husr ih =>
    rw [cleanSessionListAcc, if_neg husr]
    rcases mem_cons.1 h with rfl | h
    · exact ⟨a, subset_cleanSessionListAcc mem_cons_self, rfl, le_rfl⟩
    · exact ih h

/-- **Each full JID is left once**: those that are done are smaller than those that come. -/
theorem nodup_cleanSessionListAcc (hsorted : ss.Pairwise fun a b => a.usr ≤ b.usr)
    (hres : (res.map Session.usr).Nodup) (hless : ∀ a ∈ res, ∀ b ∈ ss, a.usr < b.usr) :
    ((cleanSessionListAcc ss res).map Session.usr).Nodup := by
  induction ss, res using cleanSessionListAcc.induct with
  | case1 res =>
    rw [cleanSessionListAcc]
    exact hres
  | case2 c res =>
    rw [cleanSessionListAcc, map_cons, nodup_cons]
    refine ⟨fun hmem => ?_, hres⟩
    obtain ⟨a, ha, heq⟩ := mem_map.1 hmem
    exact (hless a ha c mem_cons_self).ne heq
  | case3 c d rest res husr hsid ih =>
    rw [cleanSessionListAcc, if_pos husr, if_pos hsid]
    have hsub : (c :: rest).Sublist (c :: d :: rest) :=
      cons_sublist_cons.2 (sublist_cons_self d rest)
    exact ih (hsorted.sublist hsub) hres fun a ha b hb => hless a ha b (hsub.subset hb)
  | case4 c d rest res husr hsid ih =>
    rw [cleanSessionListAcc, if_pos husr, if_neg hsid]
    exact ih hsorted.of_cons hres fun a ha b hb => hless a ha b (mem_cons_of_mem c hb)
  | case5 c d rest res husr ih =>
    rw [cleanSessionListAcc, if_neg husr]
    obtain ⟨hc, hrest⟩ := pairwise_cons.1 hsorted
    have hlt : ∀ b ∈ d :: rest, c.usr < b.usr := by
      intro b hb
      have hcd : c.usr < d.usr := lt_of_le_of_ne (hc d mem_cons_self) husr
      rcases mem_cons.1 hb with rfl | hb
      · exact hcd
      · exact hcd.trans_le ((pairwise_cons.1 hrest).1 b hb)
    refine ih hrest ?_ ?_
    · rw [map_cons, nodup_cons]
      refine ⟨fun hmem => ?_, hres⟩
      obtain ⟨a, ha, heq⟩ := mem_map.1 hmem
      exact (hless a ha c mem_cons_self).ne heq
    · intro a ha b hb
      rcases mem_cons.1 ha with rfl | ha
      · exact hlt b hb
      · exact hless a ha b (mem_cons_of_mem c hb)

end

/-! ## The newest sessions -/

/-- One session for each full JID, the newest, and no others. -/
structure Newest (ss clean : List (Session Pid)) : Prop where
  nodup : (clean.map Session.usr).Nodup
  subset : clean ⊆ ss
  greatest : ∀ a ∈ clean, ∀ b ∈ ss, b.usr = a.usr → b.sid ≤ a.sid
  complete : ∀ b ∈ ss, ∃ a ∈ clean, a.usr = b.usr

theorem newest_cleanSessionList (ss : List (Session Pid)) : Newest ss (cleanSessionList ss) := by
  have hnodup : ((cleanSessionList ss).map Session.usr).Nodup :=
    nodup_cleanSessionListAcc (pairwise_keysort Session.usr ss) nodup_nil (fun _ h => by cases h)
  have hnewer : ∀ b ∈ ss, ∃ a ∈ cleanSessionList ss, a.usr = b.usr ∧ b.sid ≤ a.sid :=
    fun b hb => exists_newer (mem_keysort.2 hb)
  refine ⟨hnodup, fun a ha => ?_, fun a ha b hb husr => ?_, fun b hb => ?_⟩
  · exact mem_keysort.1 ((mem_cleanSessionListAcc ha).resolve_right not_mem_nil)
  · obtain ⟨a', ha', husr', hsid⟩ := hnewer b hb
    obtain rfl : a' = a := inj_on_of_nodup_map hnodup ha' ha (husr'.trans husr)
    exact hsid
  · obtain ⟨a, ha, husr, -⟩ := hnewer b hb
    exact ⟨a, ha, husr⟩

/-! ## Routing -/

/-- The processes that are given a message are those of some of the newest sessions, in order. -/
theorem routeMessage_eq :
    ∃ l : List (Session Pid), l.Sublist (cleanSessionList (getSessions table luser lserver)) ∧
    routeMessage table luser lserver = l.map Session.pid := by
  unfold routeMessage
  dsimp only
  split
  · next top _ =>
    split
    · refine ⟨(cleanSessionList (getSessions table luser lserver)).filter fun a =>
        a.priority = some (ofLex top).1, filter_sublist, ?_⟩
      rw [getUserPresentPids]
      induction cleanSessionList (getSessions table luser lserver) with
      | nil => rfl
      | cons a rest ih =>
        cases hprio : a.priority with
        | none => simpa [hprio] using ih
        | some prio => by_cases hp : prio = (ofLex top).1 <;> simpa [hprio, hp] using ih
    · exact ⟨[], nil_sublist _, rfl⟩
  · exact ⟨[], nil_sublist _, rfl⟩

/-- A presence goes to the full JIDs of some of the newest sessions, in order. -/
theorem routePresence_eq :
    ∃ l : List (Session Pid), l.Sublist (cleanSessionList (getSessions table luser lserver)) ∧
    routePresence table luser lserver = l.map fun a => (a.usr, a.pid) := by
  have hus : ∀ a ∈ cleanSessionList (getSessions table luser lserver), a.us = (luser, lserver) := by
    intro a ha
    have hmem := (newest_cleanSessionList _).subset ha
    exact of_decide_eq_true (mem_filter.1 hmem).2
  refine ⟨(cleanSessionList (getSessions table luser lserver)).filter fun a => a.priority.isSome,
    filter_sublist, ?_⟩
  rw [routePresence, getUserPresentResourcesAndPids]
  generalize cleanSessionList (getSessions table luser lserver) = clean at hus ⊢
  induction clean with
  | nil => rfl
  | cons a rest ih =>
    obtain ⟨ha, hrest⟩ := forall_mem_cons.1 hus
    have husr : a.usr = simpleJid luser lserver a.resource := by rw [a.usr_eq, ha]
    cases hprio : a.priority with
    | none => simpa [hprio] using ih hrest
    | some prio => simpa [hprio, husr] using ih hrest

/-- **The newest session of each full JID is left**, and messages and presences to a bare JID go to
each full JID once at most. -/
theorem sessions_once (table : List (Session Pid)) : Newest table (cleanSessionList table) ∧
    ∀ luser lserver,
      (∃ l : List (Session Pid), l ⊆ table ∧ (l.map Session.usr).Nodup ∧
        routeMessage table luser lserver = l.map Session.pid) ∧
      ((routePresence table luser lserver).map Prod.fst).Nodup := by
  refine ⟨newest_cleanSessionList table, fun luser lserver => ⟨?_, ?_⟩⟩
  · have hnewest := newest_cleanSessionList (getSessions table luser lserver)
    obtain ⟨l, hl, hroute⟩ := routeMessage_eq table luser lserver
    refine ⟨l, fun a ha => ?_, hnewest.nodup.sublist (hl.map Session.usr), hroute⟩
    exact mem_of_mem_filter (hnewest.subset (hl.subset ha))
  · have hnewest := newest_cleanSessionList (getSessions table luser lserver)
    obtain ⟨l, hl, hroute⟩ := routePresence_eq table luser lserver
    rw [hroute, map_map]
    exact hnewest.nodup.sublist (hl.map Session.usr)

end MongooseIM.SessionManager.SessionList
