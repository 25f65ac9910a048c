import Mathlib.Data.List.Basic

/-! # Process monitors

The part of the Erlang runtime behind `erlang:monitor/2` and `erlang:demonitor/1`, as one process
sees it. A monitor of a process that ends turns into a `'DOWN'` message in the mailbox;
`demonitor/1` without `flush` leaves a message that is there already. -/

namespace MongooseIM.Erlang

variable {Pid : Type*} [DecidableEq Pid]

/-- The reference of a monitor with the process it is for. -/
structure Monitor (Pid : Type*) where
  ref : ℕ
  pid : Pid

/-- The monitors of a process. -/
structure Monitors (Pid : Type*) where
  /-- The next reference that `make_ref/0` makes. -/
  nextRef : ℕ := 0
  active : List (Monitor Pid) := []
  /-- The `'DOWN'` messages in the mailbox. -/
  down : List (Monitor Pid) := []
  ended : List Pid := []

namespace Monitors

variable {m : Monitors Pid}

/-- `make_ref/0`: the reference and what is left. -/
def makeRef (m : Monitors Pid) : ℕ × Monitors Pid := (m.nextRef, { m with nextRef := m.nextRef + 1 })

/-- `monitor/2`; the message comes at once when the process has ended. -/
def monitor (pid : Pid) (m : Monitors Pid) : ℕ × Monitors Pid :=
  if pid ∈ m.ended then
    (m.nextRef, { m with nextRef := m.nextRef + 1, down := m.down ++ [⟨m.nextRef, pid⟩] })
  else (m.nextRef, { m with nextRef := m.nextRef + 1, active := m.active ++ [⟨m.nextRef, pid⟩] })

/-- `demonitor/1` -/
def demonitor (ref : ℕ) (m : Monitors Pid) : Monitors Pid :=
  { m with active := m.active.filter fun mon => mon.ref ≠ ref }

/-- A process ends. -/
def exit (pid : Pid) (m : Monitors Pid) : Monitors Pid :=
  { m with
    active := m.active.filter fun mon => mon.pid ≠ pid
    down := m.down ++ m.active.filter fun mon => mon.pid = pid
    ended := pid :: m.ended }

/-- What can be said of the monitors at any time. -/
structure Sound (m : Monitors Pid) : Prop where
  ref_lt : ∀ mon ∈ m.active ++ m.down, mon.ref < m.nextRef
  ended : ∀ mon ∈ m.down, mon.pid ∈ m.ended

omit [DecidableEq Pid] in
theorem Sound.init : Sound ({} : Monitors Pid) := by
  constructor <;> simp

omit [DecidableEq Pid] in
omit [DecidableEq Pid] in
theorem Sound.makeRef (h : m.Sound) : m.makeRef.2.Sound := by
  refine ⟨fun mon hmon => ?_, h.ended⟩
  exact Nat.lt_succ_of_lt (h.ref_lt mon hmon)

variable (pid : Pid)

@[simp] theorem monitor_fst : (m.monitor pid).1 = m.nextRef := by
  rw [monitor]
  split <;> rfl

@[simp] theorem nextRef_monitor : (m.monitor pid).2.nextRef = m.nextRef + 1 := by
  rw [monitor]
  split <;> rfl

@[simp] theorem ended_monitor : (m.monitor pid).2.ended = m.ended := by
  rw [monitor]
  split <;> rfl

variable {mon : Monitor Pid}

/-- What is on or in the mailbox after a new monitor. -/
theorem mem_monitor {pid : Pid} : mon ∈ (m.monitor pid).2.active ++ (m.monitor pid).2.down ↔
    mon ∈ m.active ++ m.down ∨ mon = ⟨m.nextRef, pid⟩ := by
  rw [monitor]
  split <;> simp only [List.mem_append, List.mem_singleton] <;> tauto

theorem Sound.monitor (h : m.Sound) (pid : Pid) : (m.monitor pid).2.Sound := by
  constructor
  · intro mon hmon
    rw [nextRef_monitor]
    rcases mem_monitor.1 hmon with hmon | rfl
    · exact Nat.lt_succ_of_lt (h.ref_lt mon hmon)
    · exact Nat.lt_succ_self _
  · intro mon hmon
    rw [ended_monitor]
    rw [Monitors.monitor] at hmon
    split at hmon
    · next hended =>
      rcases List.mem_append.1 hmon with hmon | hmon
      · exact h.ended mon hmon
      · obtain rfl := List.mem_singleton.1 hmon
        exact hended
    · exact h.ended mon hmon

omit [DecidableEq Pid] in
/-- A monitor that is taken away leaves the others and the mailbox. -/
theorem mem_demonitor {ref : ℕ} (hmon : mon ∈ (m.demonitor ref).active ++
    (m.demonitor ref).down) : mon ∈ m.active ++ m.down := by
  rcases List.mem_append.1 hmon with hmon | hmon
  · exact List.mem_append_left _ (List.mem_of_mem_filter hmon)
  · exact List.mem_append_right _ hmon

omit [DecidableEq Pid] in
theorem Sound.demonitor (h : m.Sound) (ref : ℕ) : (m.demonitor ref).Sound :=
  ⟨fun mon hmon => h.ref_lt mon (mem_demonitor hmon), h.ended⟩

/-- The end of a process makes messages of monitors and no new ones. -/
theorem mem_exit {pid : Pid} :
    mon ∈ (m.exit pid).active ++ (m.exit pid).down ↔ mon ∈ m.active ++ m.down := by
  simp only [exit, List.mem_append, List.mem_filter, decide_eq_true_eq, ne_eq]
  tauto

theorem Sound.exit (h : m.Sound) (pid : Pid) : (m.exit pid).Sound := by
  constructor
  · intro mon hmon
    exact h.ref_lt mon (mem_exit.1 hmon)
  · intro mon hmon
    rcases List.mem_append.1 hmon with hmon | hmon
    · exact List.mem_cons_of_mem _ (h.ended mon hmon)
    · have hpid : mon.pid = pid := by simpa using (List.mem_filter.1 hmon).2
      exact hpid ▸ List.mem_cons_self

end Monitors

end MongooseIM.Erlang
