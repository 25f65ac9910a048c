import Mathlib.Algebra.Order.Group.Int
import MongooseIM.S2S.Dialback
import MongooseIM.Transition.Run

/-! # Registering outgoing connections

`ejabberd_s2s:try_register/1` with its two backends, `mongoose_s2s_cets` and `mongoose_s2s_mnesia`,
called by the processes of one node for one pair of domains. A call is a read of the table and then,
if the limits allow it, a write; other processes may act in between. -/

namespace MongooseIM.S2S.TryRegister

open Xmpp Transition List Option

/-- A process, with its node. -/
structure Pid where
  node : String
  id : ℕ
  deriving DecidableEq

/-- `acl:acl_result()`: an integer or an atom. -/
inductive AclResult
  | int (n : ℤ)
  | atom (name : String)

/-- What the limits depend on. -/
structure Config where
  /-- `mongoose_domain_api:get_host_type/1` -/
  getHostType : String → Option String
  matchRule : String → String → Jid → AclResult

section

variable (cfg : Config) (node : String) (fromTo : FromTo)

/-- `match_integer_acl_rule/3`; `none` when the local domain is unknown, where it crashes. -/
def matchIntegerAclRule (rule : String) (default : ℤ) : Option ℤ := do
  let hostType ← cfg.getHostType fromTo.localServer
  let toServerJid : Jid := { luser := "", lserver := fromTo.remoteServer, lresource := "" }
  match cfg.matchRule hostType rule toServerJid with
  | .int n => return n
  | .atom _ => return default

/-- `max_s2s_connections/1` -/
def maxS2SConnections : Option ℤ := matchIntegerAclRule cfg fromTo "max_s2s_connections" 1

/-- `max_s2s_connections_per_node/1` -/
def maxS2SConnectionsPerNode : Option ℤ :=
  matchIntegerAclRule cfg fromTo "max_s2s_connections_per_node" 1

/-- `filter_local_pids/1` -/
def filterLocalPids (pids : List Pid) : List Pid := pids.filter fun pid => pid.node = node

variable (connections : List Pid)

/-- `needed_extra_connections_number/2` -/
def neededExtraConnectionsNumber : Option ℤ := do
  let maxConnections ← maxS2SConnections cfg fromTo
  let maxConnectionsPerNode ← maxS2SConnectionsPerNode cfg fromTo
  let localPids := filterLocalPids node connections
  return min (maxConnections - connections.length) (maxConnectionsPerNode - localPids.length)

/-- `need_more_connections/2` -/
def needMoreConnections : Option Bool :=
  (neededExtraConnectionsNumber cfg node fromTo connections).map fun n => 0 < n

end

/-- The two backends of `mongoose_s2s_backend`. -/
inductive Backend
  /-- `mongoose_s2s_cets` -/
  | cets
  /-- `mongoose_s2s_mnesia` -/
  | mnesia
  deriving DecidableEq

/-- The table: the keys of `cets_s2s_session`, or the records of the bag `s2s`. -/
abbrev Table := List (FromTo × Pid)

/-- `get_s2s_out_pids/1`; in Mnesia a dirty read, which takes no lock. -/
def getS2SOutPids (table : Table) (fromTo : FromTo) : List Pid :=
  (table.filter fun row => row.1 = fromTo).map Prod.snd

/-- `cets:insert/2`, or the commit of `mnesia:write/1`: a row is there once. -/
def Table.insert (table : Table) (row : FromTo × Pid) : Table :=
  if row ∈ table then table else table ++ [row]

/-- The calls of `try_register/2` for the pair, and the table. -/
structure System where
  table : Table
  called : List Pid := []
  /-- The calls that have read it and are about to write. -/
  admitted : List Pid := []
  locked : Option Pid := none
  returned : List (Pid × Bool) := []

/-- The operations. -/
inductive Event
  /-- A process calls `try_register/2`. -/
  | call (pid : Pid)
  | read (pid : Pid)
  /-- It writes; in Mnesia it gets the lock for this. -/
  | write (pid : Pid)
  | commit (pid : Pid)
  /-- Its transaction starts again, since it cannot have the lock. -/
  | restart (pid : Pid)
  | abort (pid : Pid)
  | removeConnection (fromTo : FromTo) (pid : Pid)
  | nodeCleanup (node : String)

section

variable (cfg : Config) (backend : Backend) (node : String) (fromTo : FromTo)

/-- The function of the transaction, or of the call, after the read. -/
def System.read (s : System) (pid : Pid) : System :=
  match needMoreConnections cfg node fromTo (getS2SOutPids s.table fromTo) with
  | some true => { s with called := s.called.erase pid, admitted := s.admitted ++ [pid] }
  | some false => { s with called := s.called.erase pid, returned := s.returned ++ [(pid, false)] }
  | none =>
    -- Mnesia catches the crash of the function
    match backend with
    | .cets => { s with called := s.called.erase pid }
    | .mnesia => { s with called := s.called.erase pid, returned := s.returned ++ [(pid, false)] }

/-- One operation, of a process on the node or of one that ends. -/
def step (s : System) : Event → Option System
  | .call pid =>
    if pid.node = node then some { s with called := s.called ++ [pid] } else none
  | .read pid => if pid ∈ s.called then some (s.read cfg backend node fromTo pid) else none
  | .write pid =>
    if pid ∈ s.admitted then
      match backend, s.locked with
      | .cets, _ =>
        some { s with
          table := s.table.insert (fromTo, pid)
          admitted := s.admitted.erase pid
          returned := s.returned ++ [(pid, true)] }
      | .mnesia, none => some { s with admitted := s.admitted.erase pid, locked := some pid }
      | .mnesia, some _ => none
    else none
  | .commit pid =>
    if s.locked = some pid then
      some { s with
        table := s.table.insert (fromTo, pid)
        locked := none
        returned := s.returned ++ [(pid, true)] }
    else none
  | .restart pid =>
    if backend = .mnesia ∧ pid ∈ s.admitted then
      some { s with admitted := s.admitted.erase pid, called := s.called ++ [pid] }
    else none
  | .abort pid =>
    if backend = .mnesia ∧ pid ∈ s.admitted then
      some { s with
        admitted := s.admitted.erase pid, returned := s.returned ++ [(pid, false)] }
    else if s.locked = some pid then
      some { s with locked := none, returned := s.returned ++ [(pid, false)] }
    else none
  | .removeConnection fromTo' pid => some { s with table := s.table.erase (fromTo', pid) }
  | .nodeCleanup down => some { s with table := s.table.filter fun row => row.2.node ≠ down }

end

/-- The registered processes of the pair. -/
def System.pids (s : System) (fromTo : FromTo) : List Pid := getS2SOutPids s.table fromTo

/-- The number of calls that are about to write. -/
def System.waiting (s : System) : ℕ := s.admitted.length + s.locked.toList.length

/-- No call is running. -/
def System.Idle (s : System) : Prop := s.called = [] ∧ s.admitted = [] ∧ s.locked = none

instance (s : System) : Decidable s.Idle := inferInstanceAs (Decidable (_ ∧ _ ∧ _))

/-- The limits hold of a number of connections and a number of local ones. A negative limit, which
the type of the limits excludes, is one of none. -/
def WithinLimits (cfg : Config) (fromTo : FromTo) (all «local» : ℕ) : Prop :=
  (∀ n ∈ maxS2SConnections cfg fromTo, (all : ℤ) ≤ max 0 n) ∧
    ∀ n ∈ maxS2SConnectionsPerNode cfg fromTo, («local» : ℤ) ≤ max 0 n

/-- The limits hold, and will when all calls that are about to write have written. -/
structure System.Within (cfg : Config) (node : String) (fromTo : FromTo) (s : System) : Prop where
  limits : WithinLimits cfg fromTo ((s.pids fromTo).length + s.waiting)
    ((filterLocalPids node (s.pids fromTo)).length + s.waiting)
  onNode : ∀ pid ∈ s.called ++ s.admitted ++ s.locked.toList, pid.node = node

/-- A call that is let through finds more room than there are calls about to write. -/
def Admits (cfg : Config) (node : String) (fromTo : FromTo) (s : System) : Event → Prop
  | .read _ => ∀ n ∈ neededExtraConnectionsNumber cfg node fromTo (s.pids fromTo),
      0 < n → (s.waiting : ℤ) < n
  | _ => True

/-- A call starts when no other one is running: `mongoose_s2s_out_sup` waits for the `init/1` of a
process before it starts the next one. -/
def OneByOne (s : System) : Event → Prop
  | .call _ => s.Idle
  | _ => True

instance (s : System) : ∀ e, Decidable (OneByOne s e)
  | .call _ => inferInstanceAs (Decidable s.Idle)
  | .read _ | .write _ | .commit _ | .restart _ | .abort _ => isTrue trivial
  | .removeConnection _ _ | .nodeCleanup _ => isTrue trivial

section

variable {table : Table} {fromTo : FromTo}

theorem getS2SOutPids_sublist {table' : Table} (h : table'.Sublist table) :
    (getS2SOutPids table' fromTo).Sublist (getS2SOutPids table fromTo) :=
  (h.filter _).map _

variable (table fromTo) in
theorem getS2SOutPids_insert (row : FromTo × Pid) :
    getS2SOutPids (table.insert row) fromTo = getS2SOutPids table fromTo ∨ row.1 = fromTo ∧
      getS2SOutPids (table.insert row) fromTo = getS2SOutPids table fromTo ++ [row.2] := by
  unfold Table.insert
  split
  · exact Or.inl rfl
  · by_cases hpair : row.1 = fromTo
    · exact Or.inr ⟨hpair, by simp [getS2SOutPids, filter_append, hpair]⟩
    · exact Or.inl (by simp [getS2SOutPids, filter_append, hpair])

variable (table fromTo) in
theorem length_getS2SOutPids_insert (row : FromTo × Pid) :
    (getS2SOutPids (table.insert row) fromTo).length ≤ (getS2SOutPids table fromTo).length + 1 := by
  rcases getS2SOutPids_insert table fromTo row with h | ⟨-, h⟩ <;> simp [h]

variable (table fromTo) in
theorem length_filterLocalPids_insert (node : String) (row : FromTo × Pid) :
    (filterLocalPids node (getS2SOutPids (table.insert row) fromTo)).length ≤
    (filterLocalPids node (getS2SOutPids table fromTo)).length + 1 := by
  rcases getS2SOutPids_insert table fromTo row with h | ⟨-, h⟩
  · simp [h]
  · rw [h, filterLocalPids, filter_append, length_append]
    exact Nat.add_le_add_left (length_filter_le _ _) _

end

section

variable {cfg : Config} {backend : Backend} {node : String} {fromTo : FromTo} {s s' : System}
  {e : Event}

theorem WithinLimits.mono {all all' «local» local' : ℕ} (h : WithinLimits cfg fromTo all «local»)
    (hall : all' ≤ all) (hlocal : local' ≤ «local») : WithinLimits cfg fromTo all' local' := by
  refine ⟨fun n hn => ?_, fun n hn => ?_⟩
  · have := h.1 n hn
    omega
  · have := h.2 n hn
    omega

section

variable (hs : s.Within cfg node fromTo)

include hs

/-- Less in the table and fewer calls about to write. -/
theorem System.Within.of_le
    (hall : (s'.pids fromTo).length + s'.waiting ≤ (s.pids fromTo).length + s.waiting)
    (hlocal : (filterLocalPids node (s'.pids fromTo)).length + s'.waiting ≤
    (filterLocalPids node (s.pids fromTo)).length + s.waiting)
    (honNode : ∀ pid ∈ s'.called ++ s'.admitted ++ s'.locked.toList,
    pid ∈ s.called ++ s.admitted ++ s.locked.toList ∨ pid.node = node) :
    s'.Within cfg node fromTo :=
  ⟨hs.limits.mono hall hlocal, fun pid hpid => (honNode pid hpid).elim (hs.onNode pid) id⟩

theorem System.Within.of_sublist {table : Table}
    (h : table.Sublist s.table) : ({ s with table := table } : System).Within cfg node fromTo := by
  have hpids : (getS2SOutPids table fromTo).Sublist (s.pids fromTo) := getS2SOutPids_sublist h
  refine hs.of_le ?_ ?_ fun pid hpid => Or.inl hpid
  · exact Nat.add_le_add_right hpids.length_le _
  · exact Nat.add_le_add_right (hpids.filter _).length_le _

/-- The write of a call that was counted as about to write. -/
theorem System.Within.of_insert {pid : Pid}
    (htable : s'.table = s.table.insert (fromTo, pid)) (hwaiting : s'.waiting + 1 = s.waiting)
    (honNode : ∀ pid ∈ s'.called ++ s'.admitted ++ s'.locked.toList,
    pid ∈ s.called ++ s.admitted ++ s.locked.toList) : s'.Within cfg node fromTo := by
  have hall := length_getS2SOutPids_insert s.table fromTo (fromTo, pid)
  have hlocal := length_filterLocalPids_insert s.table fromTo node (fromTo, pid)
  rw [← htable] at hall hlocal
  refine hs.of_le ?_ ?_ fun pid hpid => Or.inl (honNode pid hpid)
  · show (getS2SOutPids s'.table fromTo).length + _ ≤ (getS2SOutPids s.table fromTo).length + _
    omega
  · show (filterLocalPids node (getS2SOutPids s'.table fromTo)).length + _ ≤
      (filterLocalPids node (getS2SOutPids s.table fromTo)).length + _
    omega

end

theorem mem_neededExtraConnectionsNumber {connections : List Pid} {n : ℤ}
    (h : n ∈ neededExtraConnectionsNumber cfg node fromTo connections) :
    ∃ a b, maxS2SConnections cfg fromTo = some a ∧ maxS2SConnectionsPerNode cfg fromTo = some b ∧
    n = min (a - connections.length) (b - (filterLocalPids node connections).length) := by
  simp only [neededExtraConnectionsNumber, Option.mem_def, Option.bind_eq_bind,
    Option.bind_eq_some_iff, Option.pure_def, Option.some.injEq] at h
  obtain ⟨a, ha, b, hb, rfl⟩ := h
  exact ⟨a, b, ha, hb, rfl⟩

theorem System.Within.read (hs : s.Within cfg node fromTo) {pid : Pid} (hpid : pid ∈ s.called)
    (hok : Admits cfg node fromTo s (.read pid)) :
    (s.read cfg backend node fromTo pid).Within cfg node fromTo := by
  have hcalled : ∀ p ∈ s.called.erase pid, p ∈ s.called := fun p hp => mem_of_mem_erase hp
  -- a call that ends is no longer counted among the running ones
  have hended : ∀ t : System, t.table = s.table → t.called = s.called.erase pid →
      t.admitted = s.admitted → t.locked = s.locked → t.Within cfg node fromTo := by
    intro t htable hcall hadmitted hlocked
    refine hs.of_le (by simp [System.pids, System.waiting, htable, hadmitted, hlocked])
      (by simp [System.pids, System.waiting, htable, hadmitted, hlocked]) fun p hp => Or.inl ?_
    rw [hcall, hadmitted, hlocked] at hp
    simp only [mem_append] at hp ⊢
    exact hp.imp_left (Or.imp_left (hcalled p))
  unfold System.read
  split
  next hneed =>
    simp only [needMoreConnections, map_eq_some_iff, decide_eq_true_eq] at hneed
    obtain ⟨n, hn, hpos⟩ := hneed
    have hroom := hok n hn hpos
    obtain ⟨a, b, ha, hb, rfl⟩ := mem_neededExtraConnectionsNumber hn
    refine ⟨⟨fun m hm => ?_, fun m hm => ?_⟩, fun p hp => hs.onNode p ?_⟩
    · rw [mem_def, ha, some.injEq] at hm
      simp only [System.pids, System.waiting, length_append, length_cons, length_nil] at hroom ⊢
      omega
    · rw [mem_def, hb, some.injEq] at hm
      simp only [System.pids, System.waiting, length_append, length_cons, length_nil] at hroom ⊢
      omega
    · simp only [mem_append, mem_singleton] at hp ⊢
      rcases hp with (hp | hp | rfl) | hp
      · exact Or.inl (Or.inl (hcalled p hp))
      · exact Or.inl (Or.inr hp)
      · exact Or.inl (Or.inl hpid)
      · exact Or.inr hp
  next => exact hended _ rfl rfl rfl rfl
  next =>
    cases backend
    · exact hended _ rfl rfl rfl rfl
    · exact hended _ rfl rfl rfl rfl

/-- A call that was about to write and no longer is. -/
theorem System.Within.of_waiting (hs : s.Within cfg node fromTo) (htable : s'.table = s.table)
    (hwaiting : s'.waiting ≤ s.waiting)
    (honNode : ∀ pid ∈ s'.called ++ s'.admitted ++ s'.locked.toList,
    pid ∈ s.called ++ s.admitted ++ s.locked.toList ∨ pid.node = node) :
    s'.Within cfg node fromTo := by
  refine hs.of_le ?_ ?_ honNode
  · simpa [System.pids, htable] using hwaiting
  · simpa [System.pids, htable] using hwaiting

theorem System.length_erase_admitted {pid : Pid} (h : pid ∈ s.admitted) :
    (s.admitted.erase pid).length + 1 = s.admitted.length := by
  have := length_pos_of_mem h
  rw [length_erase_of_mem h]
  omega

/-- **One operation.** The limits are kept, with the calls that are about to write. -/
theorem System.Within.step (hs : s.Within cfg node fromTo) (hok : Admits cfg node fromTo s e)
    (hstep : TryRegister.step cfg backend node fromTo s e = some s') :
    s'.Within cfg node fromTo := by
  have herase : ∀ pid p, p ∈ s.admitted.erase pid → p ∈ s.admitted :=
    fun pid p hp => mem_of_mem_erase hp
  cases e with
  | call pid =>
    simp only [TryRegister.step, ite_none_right_eq_some, some.injEq] at hstep
    obtain ⟨hnode, rfl⟩ := hstep
    refine hs.of_waiting rfl le_rfl fun p hp => ?_
    simp only [mem_append, mem_singleton] at hp ⊢
    rcases hp with ((hp | rfl) | hp) | hp
    · exact Or.inl (Or.inl (Or.inl hp))
    · exact Or.inr hnode
    · exact Or.inl (Or.inl (Or.inr hp))
    · exact Or.inl (Or.inr hp)
  | read pid =>
    simp only [TryRegister.step, ite_none_right_eq_some, some.injEq] at hstep
    obtain ⟨hpid, rfl⟩ := hstep
    exact hs.read hpid hok
  | write pid =>
    simp only [TryRegister.step, ite_none_right_eq_some] at hstep
    obtain ⟨hpid, hstep⟩ := hstep
    have hlength := System.length_erase_admitted hpid
    split at hstep
    next =>
      cases hstep
      refine hs.of_insert rfl ?_ fun p hp => ?_
      · simp only [System.waiting]
        omega
      · simp only [mem_append] at hp ⊢
        exact hp.imp_left (Or.imp_right (herase pid p))
    next hlocked =>
      cases hstep
      refine hs.of_waiting rfl ?_ fun p hp => Or.inl ?_
      · simp only [System.waiting, hlocked, toList_some, toList_none, length_singleton, length_nil]
        omega
      · simp only [mem_append, toList_some, mem_singleton] at hp ⊢
        rcases hp with (hp | hp) | rfl
        · exact Or.inl (Or.inl hp)
        · exact Or.inl (Or.inr (herase pid p hp))
        · exact Or.inl (Or.inr hpid)
    next => cases hstep
  | commit pid =>
    simp only [TryRegister.step, ite_none_right_eq_some, some.injEq] at hstep
    obtain ⟨hlocked, rfl⟩ := hstep
    refine hs.of_insert rfl (by simp [System.waiting, hlocked]) fun p hp => ?_
    simp only [mem_append, toList_none, not_mem_nil, or_false] at hp ⊢
    exact Or.inl hp
  | restart pid =>
    simp only [TryRegister.step, ite_none_right_eq_some, some.injEq] at hstep
    obtain ⟨⟨-, hpid⟩, rfl⟩ := hstep
    have hlength := System.length_erase_admitted hpid
    refine hs.of_waiting rfl ?_ fun p hp => Or.inl ?_
    · simp only [System.waiting]
      omega
    · simp only [mem_append, mem_singleton] at hp ⊢
      rcases hp with ((hp | rfl) | hp) | hp
      · exact Or.inl (Or.inl hp)
      · exact Or.inl (Or.inr hpid)
      · exact Or.inl (Or.inr (herase pid p hp))
      · exact Or.inr hp
  | abort pid =>
    simp only [TryRegister.step] at hstep
    split_ifs at hstep with hpid hlocked
    · cases hstep
      have hlength := System.length_erase_admitted hpid.2
      refine hs.of_waiting rfl ?_ fun p hp => Or.inl ?_
      · simp only [System.waiting]
        omega
      · simp only [mem_append] at hp ⊢
        exact hp.imp_left (Or.imp_right (herase pid p))
    · cases hstep
      refine hs.of_waiting rfl (by simp [System.waiting]) fun p hp => Or.inl ?_
      simp only [mem_append, toList_none, not_mem_nil, or_false] at hp ⊢
      exact Or.inl hp
  | removeConnection fromTo' pid =>
    cases hstep
    exact hs.of_sublist erase_sublist
  | nodeCleanup down =>
    cases hstep
    exact hs.of_sublist filter_sublist

/-- The number of calls that are running. -/
def System.running (s : System) : ℕ := s.called.length + s.waiting

theorem System.length_erase_called {pid : Pid} (h : pid ∈ s.called) :
    (s.called.erase pid).length + 1 = s.called.length := by
  have := length_pos_of_mem h
  rw [length_erase_of_mem h]
  omega

/-- A call that reads while no other one runs has all the room. -/
theorem admits_of_running_le (h : s.running ≤ 1)
    (hstep : TryRegister.step cfg backend node fromTo s e = some s') :
    Admits cfg node fromTo s e := by
  cases e with
  | read pid =>
    simp only [TryRegister.step, ite_none_right_eq_some] at hstep
    intro n _ hpos
    have := length_pos_of_mem hstep.1
    have hwaiting : s.waiting = 0 := by
      simp only [System.running] at h
      omega
    rw [hwaiting]
    exact hpos
  | call _ | write _ | commit _ | restart _ | abort _ => trivial
  | removeConnection _ _ | nodeCleanup _ => trivial

theorem System.running_read {pid : Pid} (hpid : pid ∈ s.called) :
    (s.read cfg backend node fromTo pid).running ≤ s.running := by
  have hlength := System.length_erase_called hpid
  unfold System.read
  split
  · simp only [System.running, System.waiting, length_append, length_singleton]
    omega
  · simp only [System.running, System.waiting]
    omega
  · cases backend
    · simp only [System.running, System.waiting]
      omega
    · simp only [System.running, System.waiting]
      omega

/-- One operation, where a call starts only when no other one runs. -/
theorem System.running_step (h : s.running ≤ 1) (hok : OneByOne s e)
    (hstep : TryRegister.step cfg backend node fromTo s e = some s') : s'.running ≤ 1 := by
  cases e with
  | call pid =>
    simp only [TryRegister.step, ite_none_right_eq_some, some.injEq] at hstep
    obtain ⟨-, rfl⟩ := hstep
    obtain ⟨hcalled, hadmitted, hlocked⟩ := hok
    simp [System.running, System.waiting, hcalled, hadmitted, hlocked]
  | read pid =>
    simp only [TryRegister.step, ite_none_right_eq_some, some.injEq] at hstep
    obtain ⟨hpid, rfl⟩ := hstep
    exact (System.running_read hpid).trans h
  | write pid =>
    simp only [TryRegister.step, ite_none_right_eq_some] at hstep
    obtain ⟨hpid, hstep⟩ := hstep
    have hlength := System.length_erase_admitted hpid
    split at hstep
    next =>
      cases hstep
      simp only [System.running, System.waiting] at h ⊢
      omega
    next hlocked =>
      cases hstep
      simp only [System.running, System.waiting, hlocked, toList_none, length_nil,
        toList_some, length_singleton] at h ⊢
      omega
    next => cases hstep
  | commit pid =>
    simp only [TryRegister.step, ite_none_right_eq_some, some.injEq] at hstep
    obtain ⟨hlocked, rfl⟩ := hstep
    simp only [System.running, System.waiting, toList_none, length_nil] at h ⊢
    omega
  | restart pid =>
    simp only [TryRegister.step, ite_none_right_eq_some, some.injEq] at hstep
    obtain ⟨⟨-, hpid⟩, rfl⟩ := hstep
    have hlength := System.length_erase_admitted hpid
    simp only [System.running, System.waiting, length_append, length_singleton] at h ⊢
    omega
  | abort pid =>
    simp only [TryRegister.step] at hstep
    split_ifs at hstep with hpid hlocked
    · cases hstep
      have hlength := System.length_erase_admitted hpid.2
      simp only [System.running, System.waiting] at h ⊢
      omega
    · cases hstep
      simp only [System.running, System.waiting, toList_none, length_nil] at h ⊢
      omega
  | removeConnection fromTo' pid =>
    cases hstep
    exact h
  | nodeCleanup down =>
    cases hstep
    exact h

theorem System.Idle.waiting_eq (h : s.Idle) : s.waiting = 0 := by
  simp [System.waiting, h.2.1, h.2.2]

theorem System.Idle.within (h : s.Idle) (hlimits : WithinLimits cfg fromTo (s.pids fromTo).length
    (filterLocalPids node (s.pids fromTo)).length) : s.Within cfg node fromTo := by
  refine ⟨?_, ?_⟩
  · simpa [h.waiting_eq] using hlimits
  · simp [h.1, h.2.1, h.2.2]

theorem System.Within.withinLimits (h : s.Within cfg node fromTo) :
    WithinLimits cfg fromTo (s.pids fromTo).length (filterLocalPids node (s.pids fromTo)).length :=
  h.limits.mono (Nat.le_add_right _ _) (Nat.le_add_right _ _)

/-- The operations of a call that nothing comes between. -/
def wholeCall (backend : Backend) (pid : Pid) (isRegistered : Bool) : List Event :=
  [.call pid, .read pid] ++
    if isRegistered then
      match backend with
      | .cets => [.write pid]
      | .mnesia => [.write pid, .commit pid]
    else []

/-- A call that nothing comes between returns what the comparison with the limits says. -/
theorem run_wholeCall (hidle : s.Idle) {pid : Pid} (hnode : pid.node = node) {isRegistered : Bool}
    (hneed : needMoreConnections cfg node fromTo (s.pids fromTo) = some isRegistered) :
    run (TryRegister.step cfg backend node fromTo) s (wholeCall backend pid isRegistered) =
    some { s with
      table := if isRegistered then s.table.insert (fromTo, pid) else s.table
      returned := s.returned ++ [(pid, isRegistered)] } := by
  obtain ⟨table, called, admitted, locked, returned⟩ := s
  obtain ⟨rfl, rfl, rfl⟩ : called = [] ∧ admitted = [] ∧ locked = none := hidle
  simp only [System.pids] at hneed
  cases isRegistered with
  | false =>
    simp [wholeCall, run_cons, TryRegister.step, hnode, System.read, hneed]
  | true =>
    cases backend
    · simp [wholeCall, run_cons, TryRegister.step, hnode, System.read, hneed]
    · simp [wholeCall, run_cons, TryRegister.step, hnode, System.read, hneed]

/-- **The limits hold** with either backend in every run in which a call let through finds room for
those about to write, and so where calls are made one after the other; and then both give the same
answers. -/
theorem limits_hold (cfg : Config) (node : String) (fromTo : FromTo) {s : System} (hidle : s.Idle)
    (hlimits : WithinLimits cfg fromTo (s.pids fromTo).length
    (filterLocalPids node (s.pids fromTo)).length) :
    (∀ backend es t, run (TryRegister.step cfg backend node fromTo) s es = some t →
    Guarded (TryRegister.step cfg backend node fromTo) (Admits cfg node fromTo) s es ∨
      Guarded (TryRegister.step cfg backend node fromTo) OneByOne s es →
    WithinLimits cfg fromTo (t.pids fromTo).length
      (filterLocalPids node (t.pids fromTo)).length) ∧
    ∀ pid isRegistered, pid.node = node →
    needMoreConnections cfg node fromTo (s.pids fromTo) = some isRegistered →
    run (TryRegister.step cfg .cets node fromTo) s (wholeCall .cets pid isRegistered) =
      run (TryRegister.step cfg .mnesia node fromTo) s (wholeCall .mnesia pid isRegistered) := by
  refine ⟨fun backend es t hrun hguarded => ?_, fun pid isRegistered hnode hneed => ?_⟩
  · have hwithin : s.Within cfg node fromTo := hidle.within hlimits
    rcases hguarded with hguarded | hguarded
    · have hkept : ∀ s e s', s.Within cfg node fromTo → Admits cfg node fromTo s e →
          TryRegister.step cfg backend node fromTo s e = some s' → s'.Within cfg node fromTo :=
        fun s e s' hs hok hstep => hs.step hok hstep
      exact (run_invariant hkept hwithin hguarded hrun).withinLimits
    · have hkept : ∀ s e s', s.Within cfg node fromTo ∧ s.running ≤ 1 → OneByOne s e →
          TryRegister.step cfg backend node fromTo s e = some s' →
          s'.Within cfg node fromTo ∧ s'.running ≤ 1 :=
        fun s e s' hs hok hstep => ⟨hs.1.step (admits_of_running_le hs.2 hstep) hstep,
          System.running_step hs.2 hok hstep⟩
      have hrunning : s.running ≤ 1 := by simp [System.running, hidle.1, hidle.waiting_eq]
      exact (run_invariant hkept ⟨hwithin, hrunning⟩ hguarded hrun).1.withinLimits
  · rw [run_wholeCall hidle hnode hneed, run_wholeCall hidle hnode hneed]

end

/-! ### Runs -/

/-- A server without rules for its limits. -/
def plainConfig : Config where
  getHostType := some
  matchRule _ _ _ := .atom "deny"

/-- The pair of domains. -/
def examplePair : FromTo := ⟨"a.example", "b.example"⟩

/-- **Two calls that read before either writes.** The limits are one, and two processes of the node
are registered, with either backend. -/
theorem two_reads_exceed : maxS2SConnections plainConfig examplePair = some 1 ∧
    maxS2SConnectionsPerNode plainConfig examplePair = some 1 ∧
    (run (step plainConfig .cets "n" examplePair) { table := [] }
      [.call ⟨"n", 1⟩, .call ⟨"n", 2⟩, .read ⟨"n", 1⟩, .read ⟨"n", 2⟩, .write ⟨"n", 1⟩,
        .write ⟨"n", 2⟩]).map (fun s => s.pids examplePair) = some [⟨"n", 1⟩, ⟨"n", 2⟩] ∧
    (run (step plainConfig .mnesia "n" examplePair) { table := [] }
      [.call ⟨"n", 1⟩, .call ⟨"n", 2⟩, .read ⟨"n", 1⟩, .read ⟨"n", 2⟩, .write ⟨"n", 1⟩,
        .commit ⟨"n", 1⟩, .write ⟨"n", 2⟩, .commit ⟨"n", 2⟩]).map
          (fun s => s.pids examplePair) = some [⟨"n", 1⟩, ⟨"n", 2⟩] := by
  refine ⟨by decide +kernel, by decide +kernel, by decide +kernel, by decide +kernel⟩

/-- Two calls one after the other. -/
def twoCalls : List Event :=
  [.call ⟨"n", 1⟩, .read ⟨"n", 1⟩, .write ⟨"n", 1⟩, .call ⟨"n", 2⟩, .read ⟨"n", 2⟩]

/-- Of two calls one after the other the second one is refused. -/
theorem limits_hold_example :
    ∃ t, run (step plainConfig .cets "n" examplePair) { table := [] } twoCalls = some t ∧
    t.returned = [(⟨"n", 1⟩, true), (⟨"n", 2⟩, false)] ∧
    WithinLimits plainConfig examplePair (t.pids examplePair).length
      (filterLocalPids "n" (t.pids examplePair)).length := by
  have hidle : System.Idle { table := [] } := ⟨rfl, rfl, rfl⟩
  have hlimits : WithinLimits plainConfig examplePair 0 0 :=
    ⟨fun n _ => le_max_left 0 n, fun n _ => le_max_left 0 n⟩
  have hguarded : Guarded (step plainConfig .cets "n" examplePair) OneByOne { table := [] }
      twoCalls := by decide +kernel
  refine ⟨_, rfl, by decide +kernel, ?_⟩
  exact (limits_hold plainConfig "n" examplePair hidle hlimits).1 .cets twoCalls _ rfl
    (Or.inr hguarded)

end MongooseIM.S2S.TryRegister
