import Mathlib.Data.List.Perm.Basic
import MongooseIM.GlobalDistrib.Mapping

/-! # Session mapping of global distribution: where the keys lead

A key leads to a host only while a session there has it, and a key that an open session has
written leads to its host, in exactly the runs whose steps meet `StepOk`. -/

namespace MongooseIM.GlobalDistrib.Mapping

open Transition Xmpp List

/-! ## What is kept -/

/-- No operation is in progress. -/
def System.Quiet (s : System) : Prop :=
  (∀ session ∈ s.sessions, session.stage = .opened ∨ session.stage = .closed) ∧ s.refreshes = []

/-- **The mapping follows the sessions.** -/
structure Kept (s : System) : Prop where
  /-- The JIDs of an open session lead to its host. -/
  follows : s.Quiet → ∀ session ∈ s.sessions, session.stage = .opened →
    s.redis session.jid = some session.host ∧ s.redis session.jid.toBare = some session.host
  /-- No JID of a user without sessions leads to a host where it was closed. -/
  gone : s.Quiet → ∀ jid : Jid,
    (∀ session ∈ s.sessions, session.stage = .opened → session.jid.toBare ≠ jid.toBare) →
      ∀ session ∈ s.sessions, session.stage = .closed → jid ∈ normalizeJid session.jid →
        s.redis jid ≠ some session.host

/-- The keys that a process has still to write, or to delete. -/
def Stage.pending : Stage → List Jid
  | .updating key rest | .setting key rest => key :: rest
  | .deleting key rest | .getting key rest | .removing key rest => key :: rest
  | .opened | .closed => []

/-- An open session has written the key. -/
def Session.Wrote (session : Session) (key : Jid) : Prop :=
  session.stage.isOpen = true ∧ key ∈ normalizeJid session.jid ∧ key ∉ session.stage.pending

instance (session : Session) (key : Jid) : Decidable (session.Wrote key) := by
  unfold Session.Wrote
  infer_instance

/-- A session has the key: it is open, or it is being closed and comes to the key. -/
def Session.Holds (session : Session) (key : Jid) : Prop :=
  if session.stage.isOpen then key ∈ normalizeJid session.jid else key ∈ session.stage.pending

instance (session : Session) (key : Jid) : Decidable (session.Holds key) := by
  unfold Session.Holds
  infer_instance

/-- The key that is to be deleted. -/
def Stage.removing? : Stage → Option Jid
  | .removing key _ => some key
  | _ => none

/-- The key that is to be given to the cache. -/
def Stage.updating? : Stage → Option Jid
  | .updating key _ => some key
  | _ => none

/-- A key is deleted only when no open session has written it, a refresh writes only a key of its
own host, and the cache leaves out only what is in Redis. -/
def StepOk (s : System) : Event → Prop
  | .proceed i => ∀ session ∈ s.sessions[i]?, ∀ key ∈ session.stage.removing?,
      ∀ other ∈ s.sessions, ¬ other.Wrote key
  | .cached i => ∀ session ∈ s.sessions[i]?, ∀ key ∈ session.stage.updating?,
      s.redis key = some session.host
  | .refreshJid i => ∀ entry ∈ s.refreshes[i]?, ∀ key ∈ entry.2,
      (∃ session ∈ s.sessions, session.host = entry.1 ∧ session.Holds key) ∧
        ∀ other ∈ s.sessions, other.Wrote key → other.host = entry.1
  | _ => True

instance (s : System) (e : Event) : Decidable (StepOk s e) := by
  unfold StepOk
  split <;> infer_instance

/-- **Where the keys lead.** -/
structure Tracks (s : System) : Prop where
  /-- A key leads to a host where a session has it. -/
  held : ∀ key host, s.redis key = some host →
    ∃ session ∈ s.sessions, session.host = host ∧ session.Holds key
  /-- What an open session has written leads to its host. -/
  wrote : ∀ session ∈ s.sessions, ∀ key, session.Wrote key → s.redis key = some session.host

/-- A user has open sessions on one host, and a process comes to the keys of its session. -/
structure Shaped (s : System) : Prop where
  oneHost : ∀ session ∈ s.sessions, ∀ other ∈ s.sessions, session.stage.isOpen = true →
    other.stage.isOpen = true → session.jid.toBare = other.jid.toBare → session.host = other.host
  pending : ∀ session ∈ s.sessions, session.stage.pending <:+ normalizeJid session.jid

/-! ## Keys and sessions -/

theorem toBare_of_mem_normalizeJid {jid key : Jid} (h : key ∈ normalizeJid jid) :
    key.toBare = jid.toBare := by
  unfold normalizeJid at h
  split at h
  · rw [mem_singleton.1 h]
  · rcases mem_cons.1 h with rfl | h
    · rfl
    · rw [mem_singleton.1 h]
      rfl

variable (jid : Jid)

theorem mem_normalizeJid : jid ∈ normalizeJid jid := by
  unfold normalizeJid
  split <;> simp

theorem toBare_mem_normalizeJid : jid.toBare ∈ normalizeJid jid := by
  unfold normalizeJid
  split <;> simp [*]

theorem nodup_normalizeJid : (normalizeJid jid).Nodup := by
  unfold normalizeJid
  split
  · simp
  · rename_i hbare
    simp [Ne.symm hbare]

section

variable (rest : List Jid)

@[simp] theorem isOpen_insertRest : (Stage.insertRest rest).isOpen = true := by
  cases rest <;> rfl

@[simp] theorem isOpen_deleteRest : (Stage.deleteRest rest).isOpen = false := by
  cases rest <;> rfl

@[simp] theorem pending_insertRest : (Stage.insertRest rest).pending = rest := by
  cases rest <;> rfl

@[simp] theorem pending_deleteRest : (Stage.deleteRest rest).pending = rest := by
  cases rest <;> rfl

end

variable {key : Jid}

theorem Session.holds_of_open {session : Session} (h : session.stage.isOpen = true) :
    session.Holds key ↔ key ∈ normalizeJid session.jid := by
  rw [Session.Holds, if_pos h]

/-- A session that is being closed has the keys that are still to come. -/
theorem Session.holds_of_closing {session : Session} (h : session.stage.isOpen = false)
    : session.Holds key ↔ key ∈ session.stage.pending := by
  rw [Session.Holds, h, if_neg Bool.false_ne_true]

section

variable {s s' : System} {i : ℕ} {session : Session} {stage : Stage}

/-- A session in the list, or one of the others. -/
theorem mem_sessions_iff (hsession : s.sessions[i]? = some session) (other : Session) :
    other ∈ s.sessions ↔ other = session ∨ other ∈ s.sessions.eraseIdx i := by
  obtain ⟨hi, rfl⟩ := List.getElem?_eq_some_iff.1 hsession
  rw [← (List.getElem_cons_eraseIdx_perm hi).mem_iff, List.mem_cons]

theorem mem_goOn_iff (hsession : s.sessions[i]? = some session) (other : Session) :
    other ∈ (s.goOn i session stage).sessions ↔
    other = { session with stage := stage } ∨ other ∈ s.sessions.eraseIdx i := by
  obtain ⟨hi, rfl⟩ := List.getElem?_eq_some_iff.1 hsession
  rw [System.goOn, (List.set_perm_cons_eraseIdx hi _).mem_iff, List.mem_cons]

/-- **A process goes on**: the session is open only if it was, and no key comes to its list. -/
theorem Shaped.goOn (h : Shaped s) (hsession : s.sessions[i]? = some session)
    (hopen : stage.isOpen = true → session.stage.isOpen = true)
    (hpending : stage.pending <:+ normalizeJid session.jid) : Shaped (s.goOn i session stage) := by
  have hmem := mem_sessions_iff hsession
  have hother : ∀ other ∈ (s.goOn i session stage).sessions, ∃ before ∈ s.sessions,
      before.host = other.host ∧ before.jid = other.jid ∧
        (other.stage.isOpen = true → before.stage.isOpen = true) := by
    intro other hother
    rcases (mem_goOn_iff hsession other).1 hother with rfl | hother
    · exact ⟨session, (hmem session).2 (.inl rfl), rfl, rfl, hopen⟩
    · exact ⟨other, (hmem other).2 (.inr hother), rfl, rfl, id⟩
  refine ⟨fun t ht t' ht' hopen hopen' hsame => ?_, fun t ht => ?_⟩
  · obtain ⟨u, hu, hhost, hjid, huopen⟩ := hother t ht
    obtain ⟨u', hu', hhost', hjid', huopen'⟩ := hother t' ht'
    rw [← hhost, ← hhost']
    exact h.oneHost u hu u' hu' (huopen hopen) (huopen' hopen') (by rw [hjid, hjid', hsame])
  · rcases (mem_goOn_iff hsession t).1 ht with rfl | ht
    · exact hpending
    · exact h.pending t ((hmem t).2 (.inr ht))

/-- **`SET`** is right where a session has the key at that host, and an open one nowhere else. -/
theorem Tracks.set_iff (h : Tracks s) (key : Jid) (host : Host) : Tracks (s.set key host) ↔
    (∃ session ∈ s.sessions, session.host = host ∧ session.Holds key) ∧
      ∀ other ∈ s.sessions, other.Wrote key → other.host = host := by
  have hkey : (s.set key host).redis key = some host := Function.update_self _ _ _
  have hne : ∀ key' ≠ key, (s.set key host).redis key' = s.redis key' :=
    fun key' hkey' => Function.update_of_ne hkey' _ _
  constructor
  · intro h'
    refine ⟨h'.held key host hkey, fun other hother hwrote => ?_⟩
    exact Option.some.inj ((h'.wrote other hother key hwrote).symm.trans hkey)
  · rintro ⟨hheld, hwrote⟩
    refine ⟨fun key' host' hredis => ?_, fun other hother key' hother' => ?_⟩
    · by_cases hsame : key' = key
      · subst hsame
        cases (hkey.symm.trans hredis)
        exact hheld
      · exact h.held key' host' ((hne key' hsame).symm.trans hredis)
    · by_cases hsame : key' = key
      · subst hsame
        rw [hkey, hwrote other hother hother']
      · rw [hne key' hsame]
        exact h.wrote other hother key' hother'

section

variable (h : Tracks s) (hsession : s.sessions[i]? = some session)

include h hsession

/-- **A process goes on** without a change in Redis. -/
theorem Tracks.goOn (hholds : ∀ key, s.redis key = some session.host → session.Holds key →
    Session.Holds { session with stage := stage } key)
    (hwrote : ∀ key, Session.Wrote { session with stage := stage } key →
    s.redis key = some session.host) : Tracks (s.goOn i session stage) := by
  refine ⟨fun key host hredis => ?_, fun other hother key hother' => ?_⟩
  · obtain ⟨holder, hmem, rfl, hholder⟩ := h.held key host hredis
    rcases (mem_sessions_iff hsession holder).1 hmem with rfl | hmem
    · exact ⟨_, (mem_goOn_iff hsession _).2 (.inl rfl), rfl, hholds key hredis hholder⟩
    · exact ⟨holder, (mem_goOn_iff hsession _).2 (.inr hmem), rfl, hholder⟩
  · rcases (mem_goOn_iff hsession other).1 hother with rfl | hother
    · exact hwrote key hother'
    · exact h.wrote other ((mem_sessions_iff hsession other).2 (.inr hother)) key hother'

/-- The process of a session does not change what the session has and has written. -/
theorem Tracks.goOn_of_same (hopen : stage.isOpen = session.stage.isOpen)
    (hpending : stage.pending = session.stage.pending) : Tracks (s.goOn i session stage) := by
  refine h.goOn hsession (fun key _ hholds => ?_) fun key hwrote => ?_
  · unfold Session.Holds at hholds ⊢
    rwa [hopen, hpending]
  · refine h.wrote session ((mem_sessions_iff hsession session).2 (.inl rfl)) key ?_
    unfold Session.Wrote at hwrote ⊢
    rwa [hopen, hpending] at hwrote

/-- An open session goes on past a key that leads to its host. -/
theorem Tracks.goOn_insertRest {key : Jid} {rest : List Jid} (hopen : session.stage.isOpen = true)
    (hpending : session.stage.pending ⊆ key :: rest) (hkey : s.redis key = some session.host) :
    Tracks (s.goOn i session (.insertRest rest)) := by
  refine h.goOn hsession (fun key' _ hholds => ?_) fun key' hwrote => ?_
  · exact (Session.holds_of_open (isOpen_insertRest rest)).2 ((Session.holds_of_open hopen).1 hholds)
  · obtain ⟨-, hkey', hnot⟩ := hwrote
    rw [pending_insertRest] at hnot
    by_cases hsame : key' = key
    · rw [hsame]
      exact hkey
    · refine h.wrote _ ((mem_sessions_iff hsession _).2 (.inl rfl)) key' ⟨hopen, hkey', ?_⟩
      exact fun hmem => (mem_cons.1 (hpending hmem)).elim hsame hnot

/-- A session that is being closed goes on past a key that leads elsewhere. -/
theorem Tracks.goOn_deleteRest {rest : List Jid} (hclosing : session.stage.isOpen = false)
    (hpending : session.stage.pending = key :: rest) (hkey : s.redis key ≠ some session.host) :
    Tracks (s.goOn i session (.deleteRest rest)) := by
  refine h.goOn hsession (fun key' hredis hholds => ?_) fun key' hwrote => ?_
  · rw [Session.holds_of_closing hclosing, hpending] at hholds
    rcases mem_cons.1 hholds with rfl | hkey'
    · exact absurd hredis hkey
    · exact (Session.holds_of_closing (isOpen_deleteRest rest)).2 (by simpa using hkey')
  · exact absurd hwrote.1 (by simp)

end

/-- **The next action of a process.** -/
theorem Tracks.proceed (hshaped : Shaped s) (h : Tracks s)
    (hsession : s.sessions[i]? = some session) (hstep : proceed s i session = some s') :
    Shaped s' ∧ (Tracks s' ↔ StepOk s (.proceed i)) := by
  obtain ⟨host, jid, stage⟩ := session
  have hmem : ⟨host, jid, stage⟩ ∈ s.sessions := (mem_sessions_iff hsession _).2 (.inl rfl)
  have hsuffix : stage.pending <:+ normalizeJid jid := hshaped.pending _ hmem
  -- only `DEL` asks for something
  have hok : stage.removing? = none → StepOk s (.proceed i) := by
    intro hnone session hsession' key hkey
    cases (hsession.symm.trans hsession')
    exact absurd (hnone.symm.trans hkey) (by simp)
  cases stage with
  | updating key rest =>
    cases hstep
    have hshaped' : Shaped (s.remember host key) := ⟨hshaped.oneHost, hshaped.pending⟩
    have h' : Tracks (s.remember host key) := ⟨h.held, h.wrote⟩
    exact ⟨hshaped'.goOn hsession (fun _ => rfl) hsuffix,
      iff_of_true (h'.goOn_of_same hsession rfl rfl) (hok rfl)⟩
  | setting key rest =>
    cases hstep
    have hkey : key ∈ normalizeJid jid := hsuffix.subset mem_cons_self
    have hset : Tracks (s.set key host) := by
      refine (h.set_iff key host).2 ⟨⟨_, hmem, rfl, ?_⟩, fun other hother hwrote => ?_⟩
      · exact (Session.holds_of_open rfl).2 hkey
      · refine hshaped.oneHost other hother _ hmem hwrote.1 rfl ?_
        rw [← toBare_of_mem_normalizeJid hwrote.2.1, ← toBare_of_mem_normalizeJid hkey]
    have hshaped' : Shaped (s.set key host) := ⟨hshaped.oneHost, hshaped.pending⟩
    refine ⟨hshaped'.goOn hsession (fun _ => rfl) ?_, iff_of_true ?_ (hok rfl)⟩
    · rw [pending_insertRest]
      exact (suffix_cons key rest).trans hsuffix
    · exact hset.goOn_insertRest hsession rfl (List.Subset.refl _) (Function.update_self _ _ _)
  | opened => cases hstep
  | deleting key rest =>
    cases hstep
    have hshaped' : Shaped (s.forget host key) := ⟨hshaped.oneHost, hshaped.pending⟩
    have h' : Tracks (s.forget host key) := ⟨h.held, h.wrote⟩
    exact ⟨hshaped'.goOn hsession id hsuffix,
      iff_of_true (h'.goOn_of_same hsession rfl rfl) (hok rfl)⟩
  | getting key rest =>
    simp only [Mapping.proceed] at hstep
    split at hstep
    · cases hstep
      exact ⟨hshaped.goOn hsession id hsuffix,
        iff_of_true (h.goOn_of_same hsession rfl rfl) (hok rfl)⟩
    · rename_i hother
      cases hstep
      refine ⟨hshaped.goOn hsession (by simp) ?_, iff_of_true ?_ (hok rfl)⟩
      · rw [pending_deleteRest]
        exact (suffix_cons key rest).trans hsuffix
      · exact h.goOn_deleteRest hsession rfl rfl hother
  | removing key rest =>
    cases hstep
    have hshaped' : Shaped (s.del key) := ⟨hshaped.oneHost, hshaped.pending⟩
    refine ⟨hshaped'.goOn hsession (by simp) ?_, ?_⟩
    · rw [pending_deleteRest]
      exact (suffix_cons key rest).trans hsuffix
    have hnone : (s.del key).redis key = none := Function.update_self _ _ _
    have hne : ∀ key' ≠ key, (s.del key).redis key' = s.redis key' :=
      fun key' hkey' => Function.update_of_ne hkey' _ _
    constructor
    · intro h' session hsession' key' hkey' other hmem' hwrote
      cases (hsession.symm.trans hsession')
      cases hkey'
      rcases (mem_sessions_iff hsession other).1 hmem' with rfl | hmem'
      · exact absurd hwrote.1 (by simp [Stage.isOpen])
      · have := h'.wrote other ((mem_goOn_iff hsession _).2 (.inr hmem')) key hwrote
        exact absurd (hnone.symm.trans this) (by simp)
    · intro hgood
      have hnobody := hgood _ hsession key rfl
      have hdel : Tracks (s.del key) := by
        refine ⟨fun key' host' hredis => ?_, fun other hother key' hwrote => ?_⟩
        · have hsame : key' ≠ key := by
            rintro rfl
            exact absurd (hnone.symm.trans hredis) (by simp)
          exact h.held key' host' ((hne key' hsame).symm.trans hredis)
        · have hsame : key' ≠ key := by
            rintro rfl
            exact hnobody other hother hwrote
          rw [hne key' hsame]
          exact h.wrote other hother key' hwrote
      refine hdel.goOn_deleteRest hsession rfl rfl ?_
      rw [hnone]
      exact (Option.some_ne_none host).symm
  | closed => cases hstep

/-- **A step**: a user keeps to one host, and the keys lead where they should exactly if the step
meets `StepOk`. -/
theorem Tracks.step (hshaped : Shaped s) (h : Tracks s) {e : Event} (hstep : step s e = some s') :
    Shaped s' ∧ (Tracks s' ↔ StepOk s e) := by
  cases e with
  | «open» host jid =>
    simp only [Mapping.step] at hstep
    split at hstep
    · rename_i hone
      cases hstep
      refine ⟨⟨?_, ?_⟩, iff_of_true ⟨?_, ?_⟩ trivial⟩
      · -- the open sessions of the user are at the host of the new one
        intro t ht t' ht' hopen hopen' hsame
        rcases mem_append.1 ht with ht | ht <;> rcases mem_append.1 ht' with ht' | ht'
        · exact hshaped.oneHost t ht t' ht' hopen hopen' hsame
        · obtain rfl := mem_singleton.1 ht'
          exact hone t ht hopen hsame
        · obtain rfl := mem_singleton.1 ht
          exact (hone t' ht' hopen' hsame.symm).symm
        · rw [mem_singleton.1 ht, mem_singleton.1 ht']
      · intro t ht
        rcases mem_append.1 ht with ht | ht
        · exact hshaped.pending t ht
        · obtain rfl := mem_singleton.1 ht
          exact ⟨[], pending_insertRest _⟩
      · intro key host' hredis
        obtain ⟨t, ht, hhost, hholds⟩ := h.held key host' hredis
        exact ⟨t, mem_append_left _ ht, hhost, hholds⟩
      · intro t ht key hwrote
        rcases mem_append.1 ht with ht | ht
        · exact h.wrote t ht key hwrote
        · obtain rfl := mem_singleton.1 ht
          exact absurd hwrote.2.1 (by simpa using hwrote.2.2)
    · cases hstep
  | close i =>
    obtain ⟨session, hsession, hstep⟩ := Option.bind_eq_some_iff.1 hstep
    split at hstep
    · rename_i hopened
      cases hstep
      refine ⟨hshaped.goOn hsession (by simp) (by simp), iff_of_true ?_ trivial⟩
      refine h.goOn hsession (fun key _ hholds => ?_) fun key hwrote => ?_
      · rw [Session.holds_of_closing (isOpen_deleteRest _), pending_deleteRest]
        exact (Session.holds_of_open (by rw [hopened]; rfl)).1 hholds
      · exact absurd hwrote.1 (by simp)
    · cases hstep
  | proceed i =>
    obtain ⟨session, hsession, hstep⟩ := Option.bind_eq_some_iff.1 hstep
    exact h.proceed hshaped hsession hstep
  | cached i =>
    obtain ⟨⟨host, jid, stage⟩, hsession, hstep⟩ := Option.bind_eq_some_iff.1 hstep
    have hmem : ⟨host, jid, stage⟩ ∈ s.sessions := (mem_sessions_iff hsession _).2 (.inl rfl)
    cases stage with
    | updating key rest =>
      cases hstep
      have hsuffix : key :: rest <:+ normalizeJid jid := hshaped.pending _ hmem
      have hkey : key ∈ normalizeJid jid := hsuffix.subset mem_cons_self
      -- a key comes once
      have hnot : key ∉ rest := (nodup_cons.1 (hsuffix.sublist.nodup (nodup_normalizeJid jid))).1
      refine ⟨hshaped.goOn hsession (fun _ => rfl) ?_, fun h' => ?_, fun hgood => ?_⟩
      · rw [pending_insertRest]
        exact (suffix_cons key rest).trans hsuffix
      · intro session hsession' key' hkey'
        cases (hsession.symm.trans hsession')
        cases hkey'
        refine h'.wrote _ ((mem_goOn_iff hsession _).2 (.inl rfl)) key ⟨by simp, hkey, ?_⟩
        rwa [pending_insertRest]
      · exact h.goOn_insertRest hsession rfl (List.Subset.refl _) (hgood _ hsession key rfl)
    | _ => cases hstep
  | refresh host =>
    cases hstep
    exact ⟨⟨hshaped.oneHost, hshaped.pending⟩, iff_of_true ⟨h.held, h.wrote⟩ trivial⟩
  | visit i key =>
    simp only [Mapping.step] at hstep
    split at hstep
    · split at hstep
      · cases hstep
        exact ⟨⟨hshaped.oneHost, hshaped.pending⟩, iff_of_true ⟨h.held, h.wrote⟩ trivial⟩
      · cases hstep
    · cases hstep
  | refreshJid i =>
    simp only [Mapping.step] at hstep
    split at hstep
    · rename_i host key hrefresh
      cases hstep
      refine ⟨⟨hshaped.oneHost, hshaped.pending⟩, ?_⟩
      have hok : StepOk s (.refreshJid i) ↔
          (∃ session ∈ s.sessions, session.host = host ∧ session.Holds key) ∧
            ∀ other ∈ s.sessions, other.Wrote key → other.host = host := by
        constructor
        · intro hgood
          exact hgood _ hrefresh key rfl
        · intro hgood entry hentry key' hkey'
          cases (hrefresh.symm.trans hentry)
          cases hkey'
          exact hgood
      rw [hok, ← h.set_iff key host]
      exact ⟨fun h' => ⟨h'.held, h'.wrote⟩, fun h' => ⟨h'.held, h'.wrote⟩⟩
    · cases hstep
  | refreshed i =>
    simp only [Mapping.step] at hstep
    split at hstep
    · cases hstep
      exact ⟨⟨hshaped.oneHost, hshaped.pending⟩, iff_of_true ⟨h.held, h.wrote⟩ trivial⟩
    · cases hstep

/-- When nothing is in progress, the mapping follows the sessions. -/
theorem Tracks.kept (h : Tracks s) : Kept s := by
  refine ⟨fun _ session hmem hopened => ?_, fun hquiet jid hnone session _ _ _ hredis => ?_⟩
  · have hwrote : ∀ key ∈ normalizeJid session.jid, s.redis key = some session.host := by
      intro key hkey
      exact h.wrote session hmem key ⟨by rw [hopened]; rfl, hkey, by simp [hopened, Stage.pending]⟩
    exact ⟨hwrote _ (mem_normalizeJid _), hwrote _ (toBare_mem_normalizeJid _)⟩
  · obtain ⟨holder, hholder, -, hholds⟩ := h.held jid session.host hredis
    rcases hquiet.1 holder hholder with hopened | hclosed
    · have hkey := (Session.holds_of_open (by rw [hopened]; rfl)).1 hholds
      exact hnone holder hholder hopened (toBare_of_mem_normalizeJid hkey).symm
    · have hkey := (Session.holds_of_closing (by rw [hclosed]; rfl)).1 hholds
      rw [hclosed] at hkey
      cases hkey

end

/-! ## Runs -/

/-- **The condition is exact** for where the keys lead all along. -/
theorem tracks_iff (es : List Event) :
    Guarded step StepOk {} es ↔ ∀ h s, h <+: es → run step {} h = some s → Tracks s := by
  have hshaped : Shaped {} := ⟨by simp, by simp⟩
  have htracks : Tracks {} := by
    refine ⟨fun key host h => ?_, by simp⟩
    cases h
  refine guarded_iff_holds_along_of_invariant (I := Shaped) (fun s e _ _ hbroken => ?_)
    (fun s e s' hs ht hstep _ => (ht.step hs hstep).1)
    (fun s e s' hs ht hstep => (ht.step hs hstep).2) hshaped htracks es
  -- what breaks the condition can happen
  cases e with
  | proceed i =>
    simp only [StepOk, not_forall] at hbroken
    obtain ⟨⟨host, jid, stage⟩, hsession, key, hkey, -⟩ := hbroken
    cases stage with
    | removing key rest => exact ⟨_, by rw [step, hsession]; rfl⟩
    | _ => cases hkey
  | cached i =>
    simp only [StepOk, not_forall] at hbroken
    obtain ⟨⟨host, jid, stage⟩, hsession, key, hkey, -⟩ := hbroken
    cases stage with
    | updating key rest => exact ⟨_, by rw [step, hsession]; rfl⟩
    | _ => cases hkey
  | refreshJid i =>
    simp only [StepOk, not_forall] at hbroken
    obtain ⟨⟨host, pending⟩, hentry, key, hkey, -⟩ := hbroken
    obtain rfl : pending = some key := hkey
    have hentry : s.refreshes[i]? = some (host, some key) := hentry
    exact ⟨_, by rw [step, hentry]⟩
  | _ => exact absurd trivial hbroken

/-- **The mapping follows the sessions** whenever no operation is in progress, in every state of a
run whose steps meet `StepOk`. -/
theorem mapping_follows_sessions (es : List Event) (hguarded : Guarded step StepOk {} es)
    (h : List Event) (s : System) (hinit : h <+: es) (hrun : run step {} h = some s) : Kept s :=
  ((tracks_iff es).1 hguarded h s hinit hrun).kept

/-! ### One resource of two -/

/-- Alice with her phone. -/
def phone : Jid := ⟨"alice", "localhost", "phone"⟩

/-- Alice with her laptop. -/
def laptop : Jid := ⟨"alice", "localhost", "laptop"⟩

/-- A session is opened. -/
def opening (host : Host) (jid : Jid) (i : ℕ) : List Event :=
  [.open host jid, .proceed i, .proceed i, .proceed i, .proceed i]

/-- A session is closed, and both keys lead to its host. -/
def closing (i : ℕ) : List Event :=
  [.close i, .proceed i, .proceed i, .proceed i, .proceed i, .proceed i, .proceed i]

/-- Alice goes from one host to another. -/
def moveRun : List Event := opening "h1" phone 0 ++ closing 0 ++ opening "h2" phone 1

/-- It is found there. -/
theorem mapping_follows_move :
    ∃ s, run step {} moveRun = some s ∧ s.redis phone.toBare = some "h2" ∧ Kept s := by
  have hguarded : Guarded step StepOk {} moveRun := by decide +kernel
  obtain ⟨s, hrun, hredis⟩ : ∃ s, run step {} moveRun = some s ∧
      s.redis phone.toBare = some "h2" := ⟨_, rfl, rfl⟩
  exact ⟨s, hrun, hredis, mapping_follows_sessions moveRun hguarded moveRun s prefix_rfl hrun⟩

/-- Alice has two sessions on one host and closes one of them. -/
def twoResourcesRun : List Event := opening "h1" phone 0 ++ opening "h1" laptop 1 ++ closing 0

/-- A refresh has looked a JID up before its session closes, and sets it after that. -/
def lateRefreshRun : List Event :=
  opening "h1" phone 0 ++ [.refresh "h1", .visit 0 phone] ++ closing 0 ++
    [.refreshJid 0, .refreshed 0]

/-- A bare JID is lost although a session is open, and a JID leads to the host where its only
session was closed. -/
theorem bare_jid_lost : (∃ s, run step {} twoResourcesRun = some s ∧
    s.sessions = [⟨"h1", phone, .closed⟩, ⟨"h1", laptop, .opened⟩] ∧ s.Quiet ∧
      s.redis laptop.toBare = none ∧ ¬ Kept s) ∧
    ∃ s, run step {} lateRefreshRun = some s ∧ s.sessions = [⟨"h1", phone, .closed⟩] ∧
      s.Quiet ∧ s.redis phone = some "h1" ∧ ¬ Kept s := by
  constructor
  · obtain ⟨s, hrun, hsessions, hrefreshes, hnone⟩ : ∃ s, run step {} twoResourcesRun = some s ∧
        s.sessions = [⟨"h1", phone, .closed⟩, ⟨"h1", laptop, .opened⟩] ∧ s.refreshes = [] ∧
          s.redis laptop.toBare = none := ⟨_, rfl, rfl, rfl, rfl⟩
    have hquiet : s.Quiet := ⟨by simp [hsessions], hrefreshes⟩
    refine ⟨s, hrun, hsessions, hquiet, hnone, fun hkept => ?_⟩
    have hfollows := hkept.follows hquiet ⟨"h1", laptop, .opened⟩ (by simp [hsessions]) rfl
    cases hnone.symm.trans hfollows.2
  · obtain ⟨s, hrun, hsessions, hrefreshes, hredis⟩ : ∃ s, run step {} lateRefreshRun = some s ∧
        s.sessions = [⟨"h1", phone, .closed⟩] ∧ s.refreshes = [] ∧
          s.redis phone = some "h1" := ⟨_, rfl, rfl, rfl, rfl⟩
    have hquiet : s.Quiet := ⟨by simp [hsessions], hrefreshes⟩
    refine ⟨s, hrun, hsessions, hquiet, hredis, fun hkept => ?_⟩
    exact hkept.gone hquiet phone (by simp [hsessions]) ⟨"h1", phone, .closed⟩ (by simp [hsessions])
      rfl (mem_normalizeJid phone) hredis

end MongooseIM.GlobalDistrib.Mapping
