import MongooseIM.Transition.Run

/-! # Requests of the server and their callbacks

`ejabberd_local` keeps the callback of a request in a table of its node and starts a timer. A
response and the timer look the callback up, delete it from the table and call it, each in a process
of its own. What is done for one id does not touch the others. -/

namespace MongooseIM.Local

open Transition

variable {Iq : Type}

/-- How far the request has come; ids are drawn anew. -/
inductive Phase
  | unmade
  /-- The timer was started and the entry is not yet inserted. -/
  | registering
  /-- The callback is in `local_iqresponse`. -/
  | entered
  | deleted
  deriving DecidableEq

/-- What there is for an id. -/
structure Slot (Iq : Type) where
  phase : Phase := .unmade
  timer : Bool := false
  /-- Processes of `process_iq_timeout2/1` before their lookup. -/
  timeouts : ℕ := 0
  /-- Processes that have the callback and will delete the entry, with the response or, for
  `timeout`, without. -/
  found : List (Option Iq) := []
  /-- What the callback was called with. -/
  called : List (Option Iq) := []

/-- The operations of `register_iq_response_handler/3`, of the timer and of `get_iq_callback/1`. -/
inductive Op (Iq : Type)
  | startTimer
  | insert
  | timeout
  /-- `ets:lookup/2`, for a response or by the process of the timer. -/
  | lookup (iq : Option Iq)
  /-- `erlang:cancel_timer/1` and `ets:delete/2`, and the call. -/
  | delete (iq : Option Iq)

/-- What any order of operations keeps. -/
def Sound (s : Slot Iq) : Prop :=
  match s.phase with
  | .unmade => s.found = [] ∧ s.called = []
  | .registering => s.found = [] ∧ s.called = []
  | .entered => s.called = []
  | .deleted => s.called ≠ []

/-- An entry has a timer or a process that will take it, and no two processes have it. -/
structure Safe (s : Slot Iq) : Prop where
  awaited : s.phase = .entered → s.timer = true ∨ 0 < s.timeouts ∨ s.found ≠ []
  once : s.found.length + s.called.length ≤ 1

theorem Sound.init : Sound ({} : Slot Iq) := ⟨rfl, rfl⟩

theorem Safe.init : Safe ({} : Slot Iq) := ⟨nofun, Nat.zero_le 1⟩

variable [DecidableEq Iq]

/-- Whether a process is there for an operation. -/
def Slot.enabled (s : Slot Iq) : Op Iq → Bool
  | .startTimer => s.phase = .unmade
  | .insert => s.phase = .registering
  | .timeout => s.timer
  | .lookup iq => iq.isSome || 0 < s.timeouts
  | .delete iq => iq ∈ s.found

/-- What an operation does. -/
def Slot.after (s : Slot Iq) : Op Iq → Slot Iq
  | .startTimer => { s with phase := .registering, timer := true }
  | .insert => { s with phase := .entered }
  | .timeout => { s with timer := false, timeouts := s.timeouts + 1 }
  | .lookup iq => { s with
      timeouts := if iq = none then s.timeouts - 1 else s.timeouts
      found := if s.phase = .entered then iq :: s.found else s.found }
  | .delete iq => { s with
      phase := .deleted
      timer := false
      found := s.found.erase iq
      called := iq :: s.called }

/-- The entry is there before the process of its timer, and one lookup is over before the next. -/
def InTime (s : Slot Iq) : Op Iq → Prop
  | .insert => s.timer = true ∨ 0 < s.timeouts
  | .lookup _ => s.phase = .entered → s.found = []
  | _ => True

/-- An operation that is possible is in time. -/
def Prompt (s : Slot Iq) (op : Op Iq) : Prop := s.enabled op → InTime s op

def Slot.step (s : Slot Iq) (op : Op Iq) : Option (Slot Iq) :=
  if s.enabled op then some (s.after op) else none

variable {s s' : Slot Iq} {op : Op Iq}

theorem Slot.step_eq_some (h : s.step op = some s') : s.enabled op ∧ s.after op = s' := by
  unfold Slot.step at h
  split at h
  · exact ⟨‹_›, Option.some.inj h⟩
  · cases h

theorem Sound.step (hs : Sound s) (h : s.step op = some s') : Sound s' := by
  obtain ⟨hop, rfl⟩ := Slot.step_eq_some h
  cases op with
  | startTimer =>
    have hphase : s.phase = .unmade := of_decide_eq_true hop
    simpa [Sound, Slot.after, hphase] using hs
  | insert =>
    have hphase : s.phase = .registering := of_decide_eq_true hop
    rw [Sound, hphase] at hs
    exact hs.2
  | timeout => exact hs
  | lookup iq =>
    unfold Sound at hs
    cases hphase : s.phase <;> simpa [Sound, Slot.after, hphase] using hs
  | delete iq => exact List.cons_ne_nil _ _

/-- **One operation** keeps its id safe exactly if it is in time. -/
theorem Sound.safe_step_iff (hs : Sound s) (hsafe : Safe s) (h : s.step op = some s') :
    Safe s' ↔ Prompt s op := by
  obtain ⟨hop, rfl⟩ := Slot.step_eq_some h
  rw [Prompt, imp_iff_right hop]
  have honce := hsafe.once
  cases op with
  | startTimer => exact iff_of_true ⟨fun _ => .inl rfl, honce⟩ trivial
  | insert =>
    have hphase : s.phase = .registering := of_decide_eq_true hop
    rw [Sound, hphase] at hs
    constructor
    · intro hsafe'
      have hawaited : s.timer = true ∨ 0 < s.timeouts ∨ s.found ≠ [] := hsafe'.awaited rfl
      simpa [InTime, hs.1] using hawaited
    · intro htime
      exact ⟨fun _ => htime.imp_right .inl, honce⟩
  | timeout => exact iff_of_true ⟨fun _ => .inr (.inl (Nat.succ_pos _)), honce⟩ trivial
  | lookup iq =>
    by_cases hphase : s.phase = .entered
    · rw [Sound, hphase] at hs
      constructor
      · intro hsafe' _
        have honce' := hsafe'.once
        simp only [Slot.after, if_pos hphase, List.length_cons] at honce'
        exact List.length_eq_zero_iff.1 (by omega)
      · intro htime
        constructor <;> simp [Slot.after, hphase, htime hphase, hs]
    · refine iff_of_true ⟨?_, ?_⟩ ?_ <;> simp [Slot.after, InTime, hphase, honce]
  | delete iq =>
    have hmem : iq ∈ s.found := of_decide_eq_true hop
    have hpos := List.length_pos_of_mem hmem
    refine iff_of_true ⟨nofun, ?_⟩ trivial
    simp only [Slot.after, List.length_erase_of_mem hmem, List.length_cons]
    omega

/-- **Exactly the runs in time are safe.** -/
theorem safe_iff (ops : List (Op Iq)) :
    Guarded Slot.step Prompt {} ops ↔
    ∀ before s, before <+: ops → run Slot.step {} before = some s → Safe s := by
  refine guarded_iff_holds_along_of_invariant (I := Sound) (P := Safe)
    (fun s op _ _ hlate => ?_) (fun _ _ _ hs _ h _ => hs.step h)
    (fun _ _ _ hs => hs.safe_step_iff) .init .init ops
  exact ⟨_, if_pos (Classical.not_imp.1 hlate).1⟩

-- the response and the timer, each before the other's deletion
example : (run Slot.step {} [.startTimer, .insert, .timeout, .lookup (some 1), .lookup none,
    .delete none, .delete (some 1)]).map Slot.called = some [some 1, none] := rfl

/-- **The callback is called once**, with a response or because of the timer, when nothing is left
to do. -/
theorem called_once {ops : List (Op Iq)} (hg : Guarded Slot.step Prompt {} ops)
    (hrun : run Slot.step {} ops = some s) (hmade : s.phase = .entered ∨ s.phase = .deleted)
    (hquiet : s.timer = false ∧ s.timeouts = 0 ∧ s.found = []) : ∃ iq, s.called = [iq] := by
  obtain ⟨hs, hsafe⟩ := run_invariant (P := fun s => Sound s ∧ Safe s)
    (fun s op s' ht hprompt h => ⟨ht.1.step h, (ht.1.safe_step_iff ht.2 h).2 hprompt⟩)
    ⟨.init, .init⟩ hg hrun
  obtain ⟨htimer, htimeouts, hfound⟩ := hquiet
  rcases hmade with hphase | hphase
  · have := hsafe.awaited hphase
    simp [htimer, htimeouts, hfound] at this
  · rw [Sound, hphase] at hs
    have honce := hsafe.once
    have hpos := List.length_pos_iff.2 hs
    exact List.length_eq_one_iff.1 (by omega)

/-- The timer ends, and the response comes after its process is done. -/
theorem called_once_timeout : ∃ iq, (Slot.mk .deleted false 0 [] [none] : Slot ℕ).called = [iq] :=
  @called_once ℕ _ _ [.startTimer, .insert, .timeout, .lookup none, .delete none, .lookup (some 1)]
    (by simp [Guarded, Slot.step, Prompt, Slot.enabled, Slot.after, InTime]) rfl (.inr rfl)
    ⟨rfl, rfl, rfl⟩

end MongooseIM.Local
