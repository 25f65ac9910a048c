import MongooseIM.MucLight.DbMnesia
import MongooseIM.MucLight.DbRdbmsRooms
import MongooseIM.Transition.Run

/-! # The backends agree

The same commands are given to both backends. Each of them does to its tables what `Store.step` does
to the map of rooms, so both have the same rooms with the same occupants after any run, as long as
the relational one can write what the other keeps in its records. A transaction that cannot be
written is aborted: the caller crashes, and the tables are as they were. -/

namespace MongooseIM.MucLight

open Transition

variable {R U : Type*} [LinearOrder R] [LinearOrder U]

/-- The tables of both backends. -/
structure Backends (R U : Type*) where
  mnesia : Mnesia.Tables R U
  rdbms : Rdbms.Tables R U

namespace Backends

/-- No rooms. -/
def empty : Backends R U := ⟨Mnesia.Tables.empty, Rdbms.Tables.empty⟩

variable (columns : Rdbms.Columns R U) (params : Params U)

/-- A command for both. One that is aborted leaves the relational tables as they are. -/
def step (backends : Backends R U) (command : Command R U) : Backends R U :=
  ⟨Mnesia.step params backends.mnesia command,
    (Rdbms.step columns params backends.rdbms command).getD backends.rdbms⟩

/-- What a list of commands leads to. -/
def reached (commands : List (Command R U)) : Backends R U :=
  commands.foldl (step columns params) empty

/-- **The backends have the same rooms** with the same occupants. -/
def Agree (backends : Backends R U) : Prop :=
  ∀ room, backends.mnesia.getInfo room = backends.rdbms.getInfo room

/-- The tables of each backend are in order. -/
structure Ordered (backends : Backends R U) : Prop where
  indexed : Mnesia.Indexed backends.mnesia
  wellFormed : Store.WellFormed backends.mnesia.getInfo

theorem agree_empty : Agree (empty : Backends R U) := fun _ => rfl

theorem ordered_empty : Ordered (empty : Backends R U) where
  indexed := by
    refine ⟨fun user room => iff_of_false List.not_mem_nil ?_, List.nodup_nil⟩
    rintro ⟨rec, hrec, _⟩
    cases hrec
  wellFormed room rec hrec := by cases hrec

variable {columns params} {backends : Backends R U} {command : Command R U}

/-- Mnesia keeps its tables in order by itself. -/
theorem Ordered.step (h : Ordered backends) : Ordered (backends.step columns params command) := by
  obtain ⟨hmnesia, hindexed⟩ := Mnesia.step_refines h.indexed h.wellFormed params command
  exact ⟨hindexed, by rw [Backends.step, hmnesia]; exact h.wellFormed.step params command⟩

/-- The relational tables stay consistent: a command is made, or it is aborted. -/
theorem consistent_step (h : Rdbms.Consistent backends.rdbms) :
    Rdbms.Consistent (backends.step columns params command).rdbms := by
  by_cases hcan : Rdbms.CanWrite columns params backends.rdbms.getInfo command
  · obtain ⟨tables', hrun, _, hconsistent⟩ := Rdbms.step_refines h hcan
    rw [Backends.step, hrun]
    exact hconsistent
  · rw [Backends.step, Rdbms.step_eq_none h hcan]
    exact h

/-- **A command keeps the backends in agreement exactly when it can be written.** -/
theorem agree_step_iff (hordered : Ordered backends) (hconsistent : Rdbms.Consistent backends.rdbms)
    (h : Agree backends) : Agree (backends.step columns params command) ↔
    Rdbms.CanWrite columns params backends.rdbms.getInfo command := by
  have heq : backends.mnesia.getInfo = backends.rdbms.getInfo := funext h
  obtain ⟨hmnesia, _⟩ := Mnesia.step_refines hordered.indexed hordered.wellFormed params command
  constructor
  · intro hagree
    by_contra hcan
    -- the relational tables are as they were, so the command changes nothing in Mnesia either
    refine hcan (Rdbms.canWrite_of_step_eq hconsistent ?_)
    have hsame : (backends.step columns params command).rdbms = backends.rdbms := by
      rw [Backends.step, Rdbms.step_eq_none hconsistent hcan, Option.getD_none]
    calc Store.step params backends.rdbms.getInfo command
        = (backends.step columns params command).mnesia.getInfo := by
          rw [Backends.step, hmnesia, heq]
      _ = (backends.step columns params command).rdbms.getInfo := funext hagree
      _ = backends.rdbms.getInfo := by rw [hsame]
  · intro hcan room
    obtain ⟨tables', hrun, hrdbms, _⟩ := Rdbms.step_refines hconsistent hcan
    simp only [Backends.step, hrun, Option.getD_some]
    rw [hmnesia, hrdbms, heq]

end Backends

open Backends

/-- **The bag and the agreement of the backends.** The bag of Mnesia has exactly the users of the
rooms that exist, and every room is the same in both backends all along exactly when each command
can be written. -/
theorem backends_alike_iff (columns : Rdbms.Columns R U) (params : Params U)
    (commands : List (Command R U)) :
    (∀ user room, (user, room) ∈ (reached columns params commands).mnesia.mucLightUserRoom ↔
    ∃ rec, (reached columns params commands).mnesia.getInfo room = some rec ∧
      user ∈ users rec.affUsers) ∧
    (Guarded (fun backends command => some (step columns params backends command))
      (fun backends command => Rdbms.CanWrite columns params backends.rdbms.getInfo command)
      empty commands ↔
    ∀ init, init <+: commands → Agree (reached columns params init)) := by
  constructor
  · have hordered : Ordered (reached columns params commands) := by
      have hguard : Guarded (fun backends command => some (step columns params backends command))
          (fun _ _ => True) empty commands := guarded_of_forall (fun _ _ => trivial) _ _
      refine run_invariant (fun s command s' h _ hs => ?_) ordered_empty hguard (run_some _ _ _)
      exact Option.some.inj hs ▸ h.step
    exact hordered.indexed.mem_iff
  · rw [guarded_iff_holds_along_of_invariant (P := Agree)
      (I := fun backends : Backends R U => Ordered backends ∧ Rdbms.Consistent backends.rdbms)
      (fun s command _ _ _ => ⟨_, rfl⟩)
      (fun s command s' h _ hs _ => Option.some.inj hs ▸ ⟨h.1.step, consistent_step h.2⟩)
      (fun s command s' h hagree hs => Option.some.inj hs ▸ agree_step_iff h.1 h.2 hagree)
      ⟨ordered_empty, Rdbms.consistent_empty⟩ agree_empty]
    constructor
    · intro hall init hinit
      exact hall init _ hinit (run_some _ _ _)
    · intro hall init backends hinit hrun
      rw [run_some] at hrun
      exact Option.some.inj hrun ▸ hall init hinit

/-- The rooms of one host, whose schema has its keys and its fields in opposite orders. -/
def crossedColumns : Rdbms.Columns String String where
  room name := (name, "muclight.localhost")
  user name := (name, "localhost")
  configSchema _ := crossedSchema

/-- A room with the defaults of that schema. -/
def createKitchen : Command String String :=
  .createRoom "kitchen" ⟨[("alice", .owner)], by simp, by simp⟩ "v1"
    [("z", .binary ""), ("y", .binary "")]

/-- Mnesia has the room afterwards, and the other backend has not. -/
theorem create_room_aborted :
    processConfigSchema crossedItems = some crossedSchema ∧
    (reached crossedColumns ⟨dedupProplists, false⟩ [createKitchen]).mnesia.getInfo "kitchen" =
    some ⟨[("alice", .owner)], "v1"⟩ ∧
    (reached crossedColumns ⟨dedupProplists, false⟩ [createKitchen]).rdbms.getInfo "kitchen" =
    none :=
  ⟨by decide, rfl, rfl⟩

end MongooseIM.MucLight
