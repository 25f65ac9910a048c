import Mathlib.Data.Finset.Max
import MongooseIM.SessionManager.Logins

/-! # What logins leave

Once every process has opened its session, and those that were asked to leave have closed theirs,
the sessions that are left are those that stay. -/

namespace MongooseIM.SessionManager

open Erlang Transition List

variable {Pid : Type*} [LinearOrder Pid] {maxSessions : Option ℕ} {s s' t : Logins Pid}

namespace Logins

theorem Done.mem_sessions_iff (ht : t.WellFormed) (hdone : t.Done) (a : Session Pid) :
    a ∈ t.sessions ↔ t.Stays a := by
  refine ⟨fun ha => ⟨ha, ?_⟩, And.left⟩
  obtain ⟨login, hlookup, -, hopen⟩ := (ht.table a).1 ha
  rcases hdone a.pid login hlookup with hclosed | ⟨hopened, hasked⟩
  · exact absurd hclosed hopen
  · refine ⟨⟨login, hlookup, by simp [hopened]⟩, ?_⟩
    rintro (h | ⟨by', hby⟩)
    · exact hasked h
    · -- nobody has anyone left to ask
      unfold replacedBy at hby
      cases hlookup' : t.logins.lookup by' with
      | none => simp [hlookup'] at hby
      | some login' =>
        rcases hdone by' login' hlookup' with h | ⟨h, -⟩ <;>
          simp [hlookup', h, Stage.replaced] at hby

/-- **One session a resource.** -/
theorem Done.nodup_resource (ht : t.Invariant) (hdone : t.Done) :
    (t.sessions.map Session.resource).Nodup := by
  refine (nodup_map_iff_inj_on (List.Nodup.of_map _ ht.keyed)).2 ?_
  intro a ha b hb hresource
  obtain ⟨-, haread, hastay⟩ := (hdone.mem_sessions_iff ht.toWellFormed a).1 ha
  obtain ⟨-, hbread, hbstay⟩ := (hdone.mem_sessions_iff ht.toWellFormed b).1 hb
  have hle : b.sid ≤ a.sid := not_lt.1 fun h =>
    hastay (ht.crowded a ha b hb hresource h haread hbread)
  have hge : a.sid ≤ b.sid := not_lt.1 fun h =>
    hbstay (ht.crowded b hb a ha hresource.symm h hbread haread)
  obtain ⟨sid, resource⟩ := a
  obtain ⟨sid', resource'⟩ := b
  obtain rfl : sid = sid' := le_antisymm hge hle
  obtain rfl : resource = resource' := hresource
  rfl

/-- **A session of every resource** stays, unless one of them left for the limit. -/
theorem Invariant.exists_resource (ht : t.Invariant) {pid : Pid} {login : Login Pid}
    (hpid : t.logins.lookup pid = some login) :
    (∃ a ∈ t.sessions, a.resource = login.session.resource) ∨
    ∃ pid' ∈ t.limited, ∃ login', t.logins.lookup pid' = some login' ∧
      login'.session.resource = login.session.resource := by
  -- the newest login of the resource
  obtain ⟨e, he, hnewest⟩ := Finset.exists_max_image
    ((t.logins.entries.filter fun e => e.2.session.resource = login.session.resource).map
      fun e => e.2.session).toFinset Session.sid
    ⟨login.session, mem_toFinset.2 (mem_map.2 ⟨⟨pid, login⟩, mem_filter.2
      ⟨AList.mem_lookup_iff.1 hpid, by simp⟩, rfl⟩)⟩
  obtain ⟨⟨pid', login'⟩, hmem, rfl⟩ := mem_map.1 (mem_toFinset.1 he)
  obtain ⟨hentry, hresource⟩ := mem_filter.1 hmem
  replace hresource : login'.session.resource = login.session.resource :=
    of_decide_eq_true hresource
  have hlookup : t.logins.lookup pid' = some login' := AList.mem_lookup_iff.2 hentry
  have hown : login'.session.pid = pid' := ht.own pid' login' hlookup
  by_cases hclosed : login'.stage = .closed
  · refine .inr ⟨pid', ?_, login', hlookup, hresource⟩
    refine (ht.superseded pid' login' hlookup (.inl (ht.closed pid' login' hlookup
      hclosed))).resolve_right ?_
    rintro ⟨pid₂, login₂, hlookup₂, hresource₂, hsid⟩
    refine absurd hsid (not_lt.2 (hnewest login₂.session (mem_toFinset.2 ?_)))
    refine mem_map.2 ⟨⟨pid₂, login₂⟩, mem_filter.2 ⟨?_, ?_⟩, rfl⟩
    · exact AList.mem_lookup_iff.1 hlookup₂
    · exact decide_eq_true (hresource₂.trans hresource)
  · refine .inl ⟨login'.session, (ht.table _).2 ⟨login', ?_, rfl, hclosed⟩, hresource⟩
    rw [hown]
    exact hlookup

/-! ## The limit -/

/-- The limit of sessions that stay. -/
def Bounded (n : ℕ) (s : Logins Pid) : Prop :=
  ∀ l : List (Session Pid), l.Nodup → (∀ a ∈ l, s.Stays a) → l.length ≤ n

/-- A process that reads finds no more sessions of other resources than allowed. -/
def FewOthers (n : ℕ) (s : Logins Pid) : LoginEvent Pid → Prop
  | .readSessions pid =>
    ∀ login, s.logins.lookup pid = some login →
      (s.sessions.filter fun a => a.resource ≠ login.session.resource).length ≤ n
  | _ => True

instance FewOthers.decidable (n : ℕ) (s : Logins Pid) :
    ∀ e : LoginEvent Pid, Decidable (FewOthers n s e)
  | .readSessions pid =>
    decidable_of_iff ((s.logins.lookup pid).all fun login =>
      decide ((s.sessions.filter fun a => a.resource ≠ login.session.resource).length ≤ n))
      (by simp [FewOthers, Option.all_eq_true])
  | .setSession _ => isTrue trivial
  | .replace _ => isTrue trivial
  | .closeSession _ => isTrue trivial

variable {n : ℕ}

/-- After a read only those stay that are not replaced by it. -/
theorem Bounded.of_readSessions (hs : s.WellFormed) {pid : Pid}
    (hfew : FewOthers n s (.readSessions pid))
    (h : step (some n) s (.readSessions pid) = some s') : s'.Bounded n := by
  obtain ⟨a, hpid, hsessions, hleaves, -⟩ := leaves_readSessions h
  have ha : a ∈ s.sessions := by
    refine (hs.table a).2 ⟨⟨a, .written⟩, ?_, rfl, by simp⟩
    rw [hs.own pid _ hpid]
    exact hpid
  intro l hnodup hstays
  refine le_trans (List.Subperm.length_le (hnodup.subperm fun b hb => ?_))
    ((length_left_le_iff hs.keyed ha n).2 (hfew _ hpid))
  obtain ⟨hin, -, hstay⟩ := hstays b hb
  rw [hsessions] at hin
  refine mem_filter.2 ⟨hin, decide_eq_true fun hreplaced => hstay ?_⟩
  exact (hleaves b.pid).2 (.inr hreplaced)

theorem Bounded.step (hs : s.Invariant) (hbounded : s.Bounded n) {e : LoginEvent Pid}
    (hfew : FewOthers n s e) (h : step (some n) s e = some s') : s'.Bounded n := by
  have hother : (∀ pid, e ≠ .readSessions pid) → s'.Bounded n := fun he l hnodup hstays =>
    hbounded l hnodup fun a ha =>
      ((frame_step hs.toWellFormed he h).stays a).1 (hstays a ha)
  cases e with
  | readSessions pid => exact Bounded.of_readSessions hs.toWellFormed hfew h
  | setSession a => exact hother (by simp)
  | replace pid => exact hother (by simp)
  | closeSession pid => exact hother (by simp)

variable {es : List (LoginEvent Pid)}

/-- **The limit holds** after a run whose reads find few others. -/
theorem Done.length_le (hrun : run (Logins.step (some n)) {} es = some t) (hdone : t.Done)
    (hfew : Guarded (Logins.step (some n)) (FewOthers n) {} es) : t.sessions.length ≤ n := by
  have hboth : t.Invariant ∧ t.Bounded n := by
    refine run_invariant (P := fun s => s.Invariant ∧ s.Bounded n) ?_ ?_ hfew hrun
    · rintro s e s' ⟨hs, hbounded⟩ hfew h
      exact ⟨hs.step h, hbounded.step hs hfew h⟩
    · refine ⟨invariant_empty, fun l hnodup hstays => ?_⟩
      cases l with
      | nil => exact Nat.zero_le n
      | cons a l => cases (hstays a mem_cons_self).1
  exact hboth.2 t.sessions (List.Nodup.of_map _ hboth.1.keyed) fun a ha =>
    (hdone.mem_sessions_iff hboth.1.toWellFormed a).1 ha

/-! ## The last read -/

/-- Steps without a read change nothing of what stays, nor who has read. -/
theorem frame_run (hs : s.Invariant)
    (hes : ∀ pid, .readSessions pid ∉ es) (h : run (Logins.step maxSessions) s es = some t) :
    (∀ a, t.Stays a ↔ s.Stays a) ∧ (∀ pid, t.HasRead pid ↔ s.HasRead pid) ∧
    ∀ pid login, s.logins.lookup pid = some login →
      ∃ login', t.logins.lookup pid = some login' := by
  induction es generalizing s with
  | nil =>
    cases h
    exact ⟨fun _ => Iff.rfl, fun _ => Iff.rfl, fun _ login hpid => ⟨login, hpid⟩⟩
  | cons e es ih =>
    obtain ⟨s₁, hstep, hrest⟩ := run_cons_eq_some.1 h
    have he : ∀ pid, e ≠ .readSessions pid := by
      rintro pid rfl
      exact hes pid mem_cons_self
    have hframe := frame_step hs.toWellFormed he hstep
    obtain ⟨hstays, hread, hlookup⟩ := ih (hs.step hstep)
      (fun pid hmem => hes pid (mem_cons_of_mem _ hmem)) hrest
    refine ⟨fun a => (hstays a).trans (hframe.stays a),
      fun pid => (hread pid).trans (hframe.hasRead pid), fun pid login hpid => ?_⟩
    obtain ⟨login₁, hpid₁, -⟩ := lookup_step hstep hpid
    exact hlookup pid login₁ hpid₁

/-- **The limit fails** when the last read finds too many others that nobody has replaced. -/
theorem Done.fewOthers {after : List (LoginEvent Pid)} {pid : Pid} (hs : s.Invariant)
    (hrun : run (Logins.step (some n)) s (.readSessions pid :: after) = some t) (hdone : t.Done)
    (hlast : ∀ pid', .readSessions pid' ∉ after) (hnone : ∀ a ∈ s.sessions, ¬s.Leaves a.pid)
    (hlength : t.sessions.length ≤ n) : FewOthers n s (.readSessions pid) := by
  obtain ⟨s₁, hstep, hafter⟩ := run_cons_eq_some.1 hrun
  obtain ⟨a, hpid, hsessions, hleaves, -⟩ := leaves_readSessions hstep
  have ha : a ∈ s.sessions := by
    refine (hs.table a).2 ⟨⟨a, .written⟩, ?_, rfl, by simp⟩
    rw [hs.own pid _ hpid]
    exact hpid
  have hs₁ := hs.step hstep
  obtain ⟨hstays, hread, hlookup⟩ := frame_run hs₁ hlast hafter
  intro login hlogin
  rw [hpid] at hlogin
  cases hlogin
  refine (length_left_le_iff hs.keyed ha n).1 (le_trans (List.Subperm.length_le ?_) hlength)
  refine List.Nodup.subperm ((List.Nodup.of_map _ hs.keyed).filter _) fun b hb => ?_
  obtain ⟨hb, hleft⟩ := mem_filter.1 hb
  -- everyone has read at the end, so everyone has after the last read
  have hbread : s₁.HasRead b.pid := by
    have hb₁ : b ∈ s₁.sessions := by rwa [hsessions]
    obtain ⟨login₁, hlogin₁, -⟩ := (hs₁.table b).1 hb₁
    obtain ⟨login', hlogin'⟩ := hlookup b.pid login₁ hlogin₁
    refine (hread b.pid).1 ⟨login', hlogin', ?_⟩
    rcases hdone b.pid login' hlogin' with h | ⟨h, -⟩ <;> simp [h]
  refine ((hstays b).2 ⟨by rwa [hsessions], hbread, ?_⟩).1
  rw [hleaves]
  rintro (h | h)
  · exact hnone b hb h
  · exact of_decide_eq_true hleft h

end Logins

/-- **What logins leave when all is done**: one session a resource, a session of every resource
unless one left for the limit, and no more sessions than allowed when every read finds few others;
the last read has to, when it finds nobody who leaves already. -/
theorem logins_keep_limits {es : List (LoginEvent Pid)}
    (hrun : run (Logins.step maxSessions) {} es = some t) (hdone : t.Done) :
    (t.sessions.map Session.resource).Nodup ∧
    (∀ pid login, t.logins.lookup pid = some login →
    (∃ a ∈ t.sessions, a.resource = login.session.resource) ∨
      ∃ pid' ∈ t.limited, ∃ login', t.logins.lookup pid' = some login' ∧
        login'.session.resource = login.session.resource) ∧
    ∀ n, maxSessions = some n →
    (Guarded (Logins.step maxSessions) (Logins.FewOthers n) {} es → t.sessions.length ≤ n) ∧
    ∀ before pid after s, es = before ++ .readSessions pid :: after →
      (∀ pid', .readSessions pid' ∉ after) →
      run (Logins.step maxSessions) {} before = some s →
      (∀ a ∈ s.sessions, ¬s.Leaves a.pid) → t.sessions.length ≤ n →
      Logins.FewOthers n s (.readSessions pid) := by
  have ht : t.Invariant := Logins.invariant_empty.run hrun
  refine ⟨hdone.nodup_resource ht, fun pid login hpid => ht.exists_resource hpid, ?_⟩
  rintro n rfl
  refine ⟨fun hfew => hdone.length_le hrun hfew, ?_⟩
  rintro before pid after s rfl hlast hbefore hnone hlength
  rw [run_append, hbefore] at hrun
  exact hdone.fewOthers (Logins.invariant_empty.run hbefore) hrun hlast hnone hlength

theorem Logins.done_of_entries (h : ∀ e ∈ t.logins.entries,
    e.2.stage = .closed ∨ e.2.stage = .opened ∧ e.1 ∉ t.asked) : t.Done :=
  fun pid login hpid => h ⟨pid, login⟩ (AList.mem_lookup_iff.1 hpid)

/-- The session of a process, named after it. -/
def sessionOf (pid : ℕ) (resource : String) : Session ℕ := ⟨toLex (pid, pid), resource⟩

/-- A second login, for another device, while one session is allowed. -/
def twoLogins : List (LoginEvent ℕ) :=
  [.setSession (sessionOf 1 "phone"), .readSessions 1, .replace 1,
    .setSession (sessionOf 2 "desk"), .readSessions 2, .replace 2, .closeSession 1]

/-- What they leave. -/
def twoLoginsLeft : Logins ℕ where
  sessions := [sessionOf 2 "desk"]
  logins := ((∅ : AList fun _ : ℕ => Login ℕ).insert 2 ⟨sessionOf 2 "desk", .opened⟩).insert 1
    ⟨sessionOf 1 "phone", .closed⟩
  asked := [1]
  limited := [1]

/-- The first session leaves for the limit. -/
theorem logins_keep_limits_two : (twoLoginsLeft.sessions.map Session.resource).Nodup ∧
    (∀ pid login, twoLoginsLeft.logins.lookup pid = some login →
    (∃ a ∈ twoLoginsLeft.sessions, a.resource = login.session.resource) ∨
      ∃ pid' ∈ twoLoginsLeft.limited, ∃ login', twoLoginsLeft.logins.lookup pid' = some login' ∧
        login'.session.resource = login.session.resource) ∧
    twoLoginsLeft.sessions.length ≤ 1 := by
  have hrun : run (Logins.step (some 1)) {} twoLogins = some twoLoginsLeft := by rfl
  have hdone : twoLoginsLeft.Done := Logins.done_of_entries (by decide)
  obtain ⟨hresources, hremain, hlimit⟩ := logins_keep_limits hrun hdone
  exact ⟨hresources, hremain, (hlimit 1 rfl).1 (by decide +kernel)⟩

/-- Three logins for three devices, where everyone writes before anyone reads. -/
def threeLogins : List (LoginEvent ℕ) :=
  [.setSession (sessionOf 1 "phone"), .setSession (sessionOf 2 "desk"),
    .setSession (sessionOf 3 "tv"), .readSessions 1, .readSessions 2, .readSessions 3,
    .replace 1, .replace 2, .replace 3, .closeSession 1]

/-- What they leave. -/
def threeLoginsLeft : Logins ℕ where
  sessions := [sessionOf 2 "desk", sessionOf 3 "tv"]
  logins := (((∅ : AList fun _ : ℕ => Login ℕ).insert 2 ⟨sessionOf 2 "desk", .opened⟩).insert 3
    ⟨sessionOf 3 "tv", .opened⟩).insert 1 ⟨sessionOf 1 "phone", .closed⟩
  asked := [1, 1, 1]
  limited := [1, 1, 1]

/-- Everyone replaces the same one, and two sessions are left where one is allowed. -/
theorem three_logins_exceed_limit :
    run (Logins.step (some 1)) {} threeLogins = some threeLoginsLeft ∧ threeLoginsLeft.Done ∧
    ¬threeLoginsLeft.sessions.length ≤ 1 :=
  ⟨by rfl, Logins.done_of_entries (by decide), by decide⟩

end MongooseIM.SessionManager
