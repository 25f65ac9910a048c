import Mathlib.Algebra.Order.Ring.Int
import Mathlib.Data.List.Nodup
import MongooseIM.Transition.Run

/-! # Message ids

`mod_mam_utils:generate_message_id/1` makes an id from a time stamp and the number of the node. The
stamps of a node are kept apart by `mongoose_mam_id`: all its processes share one integer that they
write by atomic compare-exchange operations only. -/

namespace MongooseIM.Mam.MessageId

open Transition

/-- `atomics:compare_exchange/4`: what it returns, where `none` is `ok`, and what is stored then. -/
def compareExchange (stored expected desired : ℤ) : Option ℤ × ℤ :=
  if stored = expected then (none, desired) else (some stored, stored)

/-- A call of `next_unique/1`: its argument, and the arguments of `next_unique/3`. -/
structure Call where
  stamp : ℤ
  candidate : ℤ
  current : ℤ

/-- `next_unique/1` -/
def startCall (stamp : ℤ) : Option Call :=
  if 0 < stamp then some ⟨stamp, stamp, stamp - 1⟩ else none

/-- What `next_unique/3` does with the result of its operation. -/
inductive Outcome
  | again (call : Call)
  | done (value : ℤ)

/-- `next_unique/3` up to the next operation, with what is stored then. -/
def nextUnique (call : Call) (stored : ℤ) : Outcome × ℤ :=
  match compareExchange stored call.current call.candidate with
  | (some int, stored) =>
    if call.candidate ≤ int then (.again { call with candidate := int + 1, current := int }, stored)
    else (.again { call with current := int }, stored)
  | (none, stored) => (.done call.candidate, stored)

/-- `encode_compact_uuid/2` -/
def encodeCompactUuid (microseconds nodeNum : ℤ) : ℤ := microseconds <<< (8 : ℕ) + nodeNum

/-- A stamp that a process has got. -/
structure Generated (Node Pid : Type*) where
  node : Node
  pid : Pid
  stamp : ℤ
  value : ℤ

/-- The nodes with their integers, and the processes. -/
structure System (Node Pid : Type*) where
  stored : Node → ℤ := fun _ => 0
  calls : Pid → Option Call := fun _ => none
  generated : List (Generated Node Pid) := []

/-- A process calls `generate_message_id/1`, or makes an operation. -/
inductive Event (Pid : Type*)
  | generate (pid : Pid) (candidateStamp : ℤ)
  | exchange (pid : Pid)

/-- `generate_message_id/1` of a stamp, on a node with this number. -/
def messageId {Node Pid : Type*} (nodeNum : Node → ℕ) (g : Generated Node Pid) : ℤ :=
  encodeCompactUuid g.value (nodeNum g.node)

variable {Node Pid : Type*} [DecidableEq Node] [DecidableEq Pid]

/-- What a process does next, where `home` says which node it is on. -/
def step (home : Pid → Node) (s : System Node Pid) : Event Pid → Option (System Node Pid)
  | .generate pid candidateStamp =>
    match s.calls pid with
    | none => (startCall candidateStamp).map fun call =>
      { s with calls := Function.update s.calls pid (some call) }
    | some _ => none
  | .exchange pid =>
    (s.calls pid).map fun call =>
      match nextUnique call (s.stored (home pid)) with
      | (.again call, stored) =>
        { s with
          stored := Function.update s.stored (home pid) stored
          calls := Function.update s.calls pid (some call) }
      | (.done value, stored) =>
        { stored := Function.update s.stored (home pid) stored
          calls := Function.update s.calls pid none
          generated := s.generated ++ [⟨home pid, pid, call.stamp, value⟩] }

variable {home : Pid → Node} {s s' : System Node Pid} {e : Event Pid}

/-- A call that may return: what it expects is less than what it would write. -/
structure Call.Sound (call : Call) : Prop where
  stamp_le : call.stamp ≤ call.candidate
  current_lt : call.current < call.candidate

theorem sound_startCall {stamp : ℤ} {call : Call} (h : startCall stamp = some call) :
    call.Sound := by
  rw [startCall] at h
  split at h
  · cases h
    exact ⟨le_rfl, sub_one_lt stamp⟩
  · cases h

theorem nextUnique_again {call call' : Call} {stored stored' : ℤ} (h : call.Sound)
    (hnext : nextUnique call stored = (.again call', stored')) :
    call'.Sound ∧ stored' = stored := by
  rw [nextUnique, compareExchange] at hnext
  by_cases heq : stored = call.current
  · rw [if_pos heq] at hnext
    cases hnext
  · rw [if_neg heq] at hnext
    dsimp only at hnext
    split at hnext
    · next hle =>
      obtain ⟨hcall, rfl⟩ := Prod.mk.inj hnext
      obtain rfl := Outcome.again.inj hcall
      exact ⟨⟨h.stamp_le.trans (hle.trans (lt_add_one stored).le), lt_add_one stored⟩, rfl⟩
    · next hlt =>
      obtain ⟨hcall, rfl⟩ := Prod.mk.inj hnext
      obtain rfl := Outcome.again.inj hcall
      exact ⟨⟨h.stamp_le, not_le.1 hlt⟩, rfl⟩

theorem nextUnique_done {call : Call} {stored value stored' : ℤ} (h : call.Sound)
    (hnext : nextUnique call stored = (.done value, stored')) :
    call.stamp ≤ value ∧ stored < value ∧ stored' = value := by
  rw [nextUnique, compareExchange] at hnext
  by_cases heq : stored = call.current
  · rw [if_pos heq] at hnext
    obtain ⟨hvalue, rfl⟩ := Prod.mk.inj hnext
    obtain rfl := Outcome.done.inj hvalue
    exact ⟨h.stamp_le, heq ▸ h.current_lt, rfl⟩
  · rw [if_neg heq] at hnext
    dsimp only at hnext
    split at hnext <;> cases hnext

/-- What is stored grows by a stamp, and only on its node. -/
structure Grows (s s' : System Node Pid) (g : Generated Node Pid) : Prop where
  generated : s'.generated = s.generated ++ [g]
  stamp_le : g.stamp ≤ g.value
  lt_value : s.stored g.node < g.value
  stored : s'.stored = Function.update s.stored g.node g.value

/-- The calls that are pending. -/
def Pending (s : System Node Pid) : Prop := ∀ pid call, s.calls pid = some call → call.Sound

omit [DecidableEq Node] in
theorem Pending.update (h : Pending s) {pid : Pid} {call? : Option Call}
    (hcall : ∀ call, call? = some call → call.Sound) {stored : Node → ℤ}
    {generated : List (Generated Node Pid)} :
    Pending ⟨stored, Function.update s.calls pid call?, generated⟩ := by
  intro pid' call (hpid' : Function.update s.calls pid call? pid' = some call)
  rw [Function.update_apply] at hpid'
  split at hpid'
  · exact hcall call hpid'
  · exact h pid' call hpid'

/-- **A step** returns a stamp, which is written then, or neither returns nor writes anything. -/
theorem step_cases (h : Pending s) (hstep : step home s e = some s') : Pending s' ∧
    (s'.generated = s.generated ∧ s'.stored = s.stored ∨ ∃ g, Grows s s' g) := by
  cases e with
  | generate pid candidateStamp =>
    rw [step] at hstep
    split at hstep
    · obtain ⟨call, hcall, rfl⟩ := Option.map_eq_some_iff.1 hstep
      refine ⟨h.update ?_, .inl ⟨rfl, rfl⟩⟩
      rintro _ ⟨⟩
      exact sound_startCall hcall
    · cases hstep
  | exchange pid =>
    obtain ⟨call, hcall, rfl⟩ := Option.map_eq_some_iff.1 hstep
    have hsound := h pid call hcall
    split
    · next call' stored hnext =>
      obtain ⟨hsound', rfl⟩ := nextUnique_again hsound hnext
      refine ⟨h.update ?_, .inl ⟨rfl, Function.update_eq_self _ _⟩⟩
      rintro _ ⟨⟩
      exact hsound'
    · next value stored hnext =>
      obtain ⟨hstamp, hlt, rfl⟩ := nextUnique_done hsound hnext
      refine ⟨h.update ?_, .inr ⟨_, rfl, hstamp, hlt, rfl⟩⟩
      rintro _ ⟨⟩

/-- Stamps are at least what was asked for, those of a node increase, and the last one is stored. -/
structure Placed (s : System Node Pid) : Prop where
  pending : Pending s
  stamp_le : ∀ g ∈ s.generated, g.stamp ≤ g.value
  le_stored : ∀ g ∈ s.generated, g.value ≤ s.stored g.node
  increasing : s.generated.Pairwise fun g g' => g.node = g'.node → g.value < g'.value

omit [DecidableEq Node] [DecidableEq Pid] in
theorem placed_start : Placed ({} : System Node Pid) := ⟨nofun, nofun, nofun, .nil⟩

theorem Placed.step (h : Placed s) (hstep : step home s e = some s') : Placed s' := by
  obtain ⟨hpending, ⟨hgenerated, hstored⟩ | ⟨g, hg⟩⟩ := step_cases h.pending hstep
  · refine ⟨hpending, ?_, ?_, ?_⟩
    · rw [hgenerated]
      exact h.stamp_le
    · rw [hgenerated, hstored]
      exact h.le_stored
    · rw [hgenerated]
      exact h.increasing
  · have hbefore : ∀ g' ∈ s.generated, g'.node = g.node → g'.value < g.value :=
      fun g' hg' hnode => (h.le_stored g' hg').trans_lt (hnode ▸ hg.lt_value)
    refine ⟨hpending, ?_, ?_, ?_⟩
    · rw [hg.generated, List.forall_mem_append]
      exact ⟨h.stamp_le, List.forall_mem_singleton.2 hg.stamp_le⟩
    · rw [hg.generated, hg.stored, List.forall_mem_append]
      refine ⟨fun g' hg' => ?_, List.forall_mem_singleton.2 ?_⟩
      · rw [Function.update_apply]
        split
        · next hnode => exact (hbefore g' hg' hnode).le
        · exact h.le_stored g' hg'
      · rw [Function.update_self]
    · rw [hg.generated, List.pairwise_append]
      refine ⟨h.increasing, List.pairwise_singleton _ _, fun g' hg' g'' hg'' => ?_⟩
      obtain rfl := List.mem_singleton.1 hg''
      exact hbefore g' hg'

/-- An id tells the stamp and the number of the node. -/
theorem encodeCompactUuid_inj {m m' : ℤ} {n n' : ℕ} (hn : n < 256) (hn' : n' < 256)
    (h : encodeCompactUuid m n = encodeCompactUuid m' n') : m = m' ∧ n = n' := by
  rw [encodeCompactUuid, encodeCompactUuid, Int.shiftLeft_eq, Int.shiftLeft_eq] at h
  omega

omit [DecidableEq Node] [DecidableEq Pid] in
theorem nodup_messageId {l : List (Generated Node Pid)}
    (h : l.Pairwise fun g g' => g.node = g'.node → g.value < g'.value) {nodeNum : Node → ℕ}
    (hinj : Function.Injective nodeNum) (hbyte : ∀ node, nodeNum node < 256) :
    (l.map (messageId nodeNum)).Nodup := by
  rw [List.Nodup, List.pairwise_map]
  refine h.imp fun {g g'} hlt heq => ?_
  obtain ⟨hvalue, hnum⟩ := encodeCompactUuid_inj (hbyte g.node) (hbyte g'.node) heq
  exact (hlt (hinj hnum)).ne hvalue

/-- **Message ids are unique.** In every run each stamp is at least what was asked for, those of a
node increase, and nodes with different numbers below 256 never make the same id. -/
theorem message_ids_unique {es : List (Event Pid)} (hrun : run (step home) {} es = some s) :
    (∀ g ∈ s.generated, g.stamp ≤ g.value) ∧
    (∀ node, ((s.generated.filter (·.node = node)).map Generated.value).Pairwise (· < ·)) ∧
    (∀ e s', step home s e = some s' →
    s'.generated = s.generated ∧ s'.stored = s.stored ∨ ∃ g, Grows s s' g) ∧
    ∀ nodeNum : Node → ℕ, Function.Injective nodeNum → (∀ node, nodeNum node < 256) →
    (s.generated.map (messageId nodeNum)).Nodup := by
  have hplaced : Placed s :=
    run_induction (P := fun _ s => Placed s) (fun _ _ _ _ hs hse => hs.step hse) placed_start hrun
  refine ⟨hplaced.stamp_le, fun node => ?_, fun e s' hse => (step_cases hplaced.pending hse).2,
    fun nodeNum hinj hbyte => nodup_messageId hplaced.increasing hinj hbyte⟩
  rw [List.pairwise_map]
  refine List.Pairwise.imp_of_mem ?_ (hplaced.increasing.sublist List.filter_sublist)
  intro g g' hg hg' hlt
  have hnode : ∀ g ∈ s.generated.filter (·.node = node), g.node = node :=
    fun g hg => by simpa using (List.mem_filter.1 hg).2
  exact hlt ((hnode g hg).trans (hnode g' hg').symm)

/-- Two processes of a node ask for the same stamp, and one of another node does. -/
theorem message_ids_unique_three :
    ∃ s ∈ run (step fun pid : Fin 3 => decide (pid = 2)) {} [.generate 0 5, .generate 1 5,
      .generate 2 5, .exchange 1, .exchange 0, .exchange 2, .exchange 1, .exchange 0,
      .exchange 2, .exchange 0],
    s.generated.map (fun g => (g.node, g.pid, g.value)) =
      [(false, 1, 5), (true, 2, 5), (false, 0, 6)] ∧
    (s.generated.map (messageId Bool.toNat)).Nodup := by
  have hrun : run (step fun pid : Fin 3 => decide (pid = 2)) {} [.generate 0 5, .generate 1 5,
      .generate 2 5, .exchange 1, .exchange 0, .exchange 2, .exchange 1, .exchange 0,
      .exchange 2, .exchange 0] = some _ := rfl
  refine ⟨_, hrun, rfl, (message_ids_unique hrun).2.2.2 _ ?_ ?_⟩
  · intro node node'
    revert node node'
    decide
  · decide

end MongooseIM.Mam.MessageId
