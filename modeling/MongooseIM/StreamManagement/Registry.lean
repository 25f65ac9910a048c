import Mathlib.Data.List.Induction
import MongooseIM.StreamManagement.Backend

/-! # The SMID registry over sequences of calls

Sessions call the registry in some order. For every such history in which no SID is registered
for two SMIDs, this file says what each backend has in its table. -/

namespace MongooseIM.StreamManagement

open Erlang List

universe u

variable {SMID SID Table : Type u}

/-- The calls of the registry. -/
inductive Call (SMID SID : Type u)
  | registerSmid (smid : SMID) (sid : SID)
  /-- `do_remove_smid/3`, with the counter of the session -/
  | doRemoveSmid (sid : SID) (h? : Option ℕ)
  | getSid (smid : SMID)

variable [DecidableEq SMID] (isStaleHEnabled : Bool) (b : Backend SMID SID Table)

/-- One call: its answer and the tables it leaves. -/
def exec (r : Registry SMID Table) : Call SMID SID → Answer SMID SID × Registry SMID Table
  | .registerSmid smid sid => (.ok, { r with sessions := b.registerSmid smid sid r.sessions })
  | .doRemoveSmid sid h? => doRemoveSmid b isStaleHEnabled sid h? r
  | .getSid smid => (b.getSid smid r.sessions, r)

/-- The tables of a backend that has just started. -/
def Backend.start : Registry SMID Table := ⟨b.init, ∅⟩

/-- The tables after the calls `cs`. -/
def execAll (cs : List (Call SMID SID)) : Registry SMID Table :=
  cs.foldl (fun r c => (exec isStaleHEnabled b r c).2) b.start

/-- The answers of the calls of a list, in order. -/
def answersFrom (b : Backend SMID SID Table) :
    Registry SMID Table → List (Call SMID SID) → List (Answer SMID SID)
  | _, [] => []
  | r, c :: cs =>
    (exec isStaleHEnabled b r c).1 :: answersFrom b (exec isStaleHEnabled b r c).2 cs

/-- The answers of a backend that has just started. -/
def answers (cs : List (Call SMID SID)) : List (Answer SMID SID) :=
  answersFrom isStaleHEnabled b b.start cs

section

variable (b : Backend SMID SID Table) (cs : List (Call SMID SID))

theorem execAll_concat (c : Call SMID SID) : execAll isStaleHEnabled b (cs ++ [c])
    = (exec isStaleHEnabled b (execAll isStaleHEnabled b cs) c).2 :=
  foldl_concat _ _ _ _

theorem answersFrom_concat (r : Registry SMID Table)
    (cs : List (Call SMID SID)) (c : Call SMID SID) :
    answersFrom isStaleHEnabled b r (cs ++ [c]) = answersFrom isStaleHEnabled b r cs ++
    [(exec isStaleHEnabled b (cs.foldl (fun r c => (exec isStaleHEnabled b r c).2) r) c).1] := by
  induction cs generalizing r with
  | nil => rfl
  | cons d cs ih =>
    rw [cons_append, answersFrom, ih]
    rfl

/-- The answer of the last call is its answer in the state that the calls before it leave. -/
theorem answers_concat (c : Call SMID SID) :
    answers isStaleHEnabled b (cs ++ [c]) = answers isStaleHEnabled b cs ++
    [(exec isStaleHEnabled b (execAll isStaleHEnabled b cs) c).1] :=
  answersFrom_concat isStaleHEnabled b b.start cs c

end

variable [DecidableEq SID]

/-- What a call does to the SMID that `sid` holds. -/
def Call.effect (c : Call SMID SID) (sid : SID) (held? : Option (SMID × Bool)) :
    Option (SMID × Bool) :=
  match c with
  | .registerSmid smid sid' =>
    if sid = sid' then some (smid, false)
    else held?.map fun h => (h.1, h.2 || decide (h.1 = smid))
  | .doRemoveSmid sid' _ => if sid = sid' then none else held?
  | .getSid _ => held?

variable (cs : List (Call SMID SID))

/-- The SMID that `sid` has registered and not unregistered, and whether another session has
registered that SMID since. -/
def held (sid : SID) : Option (SMID × Bool) :=
  cs.foldl (fun held? c => c.effect sid held?) none

@[simp] theorem held_nil (sid : SID) : held ([] : List (Call SMID SID)) sid = none := rfl

@[simp] theorem held_concat (c : Call SMID SID) (sid : SID) :
    held (cs ++ [c]) sid = c.effect sid (held cs sid) :=
  foldl_concat _ _ _ _

/-- Two calls register no session for two SMIDs. -/
def Call.Compatible : Call SMID SID → Call SMID SID → Prop
  | .registerSmid smid sid, .registerSmid smid' sid' => sid = sid' → smid = smid'
  | _, _ => True

instance : (c c' : Call SMID SID) → Decidable (c.Compatible c')
  | .registerSmid smid sid, .registerSmid smid' sid' =>
    inferInstanceAs (Decidable (sid = sid' → smid = smid'))
  | .registerSmid _ _, .doRemoveSmid _ _ => isTrue trivial
  | .registerSmid _ _, .getSid _ => isTrue trivial
  | .doRemoveSmid _ _, _ => isTrue trivial
  | .getSid _, _ => isTrue trivial

/-- Each session is registered for at most one SMID. -/
def OneSmid : Prop := ∀ c ∈ cs, ∀ c' ∈ cs, c.Compatible c'

instance (cs : List (Call SMID SID)) : Decidable (OneSmid cs) :=
  inferInstanceAs (Decidable (∀ c ∈ cs, ∀ c' ∈ cs, c.Compatible c'))

/-- The call unregisters a session whose SMID has been registered for another one since. -/
def HitsOverwritten : Call SMID SID → Prop
  | .doRemoveSmid sid _ => ∃ h ∈ held cs sid, h.2
  | _ => False

/-- No call of the list unregisters a session whose SMID has been registered for another one. -/
def NoneOverwritten : Prop :=
  ∀ pre c post, cs = pre ++ c :: post → ¬ HitsOverwritten pre c

variable {cs : List (Call SMID SID)} {c : Call SMID SID}

theorem NoneOverwritten.init (h : NoneOverwritten (cs ++ [c])) : NoneOverwritten cs := by
  intro pre d post hcs
  exact h pre d (post ++ [c]) (by rw [hcs, append_assoc, cons_append])

theorem noneOverwritten_concat :
    NoneOverwritten (cs ++ [c]) ↔ NoneOverwritten cs ∧ ¬ HitsOverwritten cs c := by
  constructor
  · intro h
    exact ⟨h.init, h cs c [] rfl⟩
  · rintro ⟨h, hc⟩ pre d post hcs
    rcases eq_nil_or_concat post with rfl | ⟨post', d', rfl⟩
    · obtain ⟨rfl, hd⟩ := append_inj' hcs rfl
      obtain rfl : c = d := by simpa using hd
      exact hc
    · rw [concat_eq_append, ← cons_append, ← append_assoc] at hcs
      exact h pre d post' (append_inj' hcs rfl).1

omit [DecidableEq SMID] [DecidableEq SID] in
theorem OneSmid.init (h : OneSmid (cs ++ [c])) : OneSmid cs :=
  fun a ha b hb => h a (mem_append_left _ ha) b (mem_append_left _ hb)

variable {sid : SID} {smid : SMID}

theorem mem_of_held {b : Bool}
    (h : held cs sid = some (smid, b)) : .registerSmid smid sid ∈ cs := by
  induction cs using reverseRecOn generalizing b with
  | nil => cases h
  | append_singleton cs c ih =>
    rw [held_concat] at h
    cases c with
    | registerSmid smid' sid' =>
      rw [Call.effect] at h
      split at h
      · next hsid =>
        obtain ⟨rfl, -⟩ := Prod.mk.inj (Option.some.inj h)
        rw [hsid]
        exact mem_append_right _ mem_cons_self
      · obtain ⟨⟨m, b'⟩, hq, hm⟩ := Option.map_eq_some_iff.1 h
        obtain ⟨rfl, -⟩ := Prod.mk.inj hm
        exact mem_append_left _ (ih hq)
    | doRemoveSmid sid' h? =>
      rw [Call.effect] at h
      split at h
      · cases h
      · exact mem_append_left _ (ih h)
    | getSid smid => exact mem_append_left _ (ih h)

omit [DecidableEq SMID] [DecidableEq SID] in
theorem OneSmid.eq_of_mem {smid' : SMID}
    (hone : OneSmid cs) (h : .registerSmid smid sid ∈ cs) (h' : .registerSmid smid' sid ∈ cs) :
    smid = smid' :=
  hone (.registerSmid smid sid) h (.registerSmid smid' sid) h' rfl

/-- A session that holds an SMID does not register another one. -/
theorem OneSmid.eq_of_held {smid' : SMID} {b : Bool}
    (hone : OneSmid (cs ++ [.registerSmid smid' sid])) (h : held cs sid = some (smid, b)) :
    smid = smid' :=
  hone.eq_of_mem (mem_append_left _ (mem_of_held h)) (mem_append_right _ mem_cons_self)

/-- Mnesia maps an SMID to the session that holds it and has not been overwritten. -/
theorem mnesia_lookup (hone : OneSmid cs) (smid : SMID) (sid : SID) :
    (execAll isStaleHEnabled mnesia cs).sessions.lookup smid = some sid
    ↔ held cs sid = some (smid, false) := by
  induction cs using reverseRecOn generalizing smid sid with
  | nil =>
    show (∅ : MnesiaTable SMID SID).lookup smid = some sid ↔ _
    simp
  | append_singleton cs c ih =>
    have ih := ih hone.init
    rw [execAll_concat, held_concat]
    cases c with
    | registerSmid smid' sid' =>
      show (AList.insert smid' sid' (execAll isStaleHEnabled mnesia cs).sessions).lookup smid
        = some sid ↔ _
      rw [lookup_insert, Call.effect]
      by_cases hsid : sid = sid'
      · subst hsid
        rw [if_pos rfl]
        by_cases hsmid : smid = smid'
        · simp [hsmid]
        · -- the session would hold another SMID than the one it registers
          have hne : held cs sid ≠ some (smid, false) := fun h => hsmid (hone.eq_of_held h)
          simp [hsmid, ih, hne, Ne.symm hsmid]
      · rw [if_neg hsid]
        by_cases hsmid : smid = smid'
        · subst hsmid
          simp [Ne.symm hsid]
        · rw [if_neg hsmid, ih]
          cases held cs sid with
          | none => simp
          | some p =>
            obtain ⟨m, b⟩ := p
            simp only [Option.map_some, Option.some_inj, Prod.mk.injEq]
            refine and_congr_right fun hm => ?_
            simp [hm, hsmid]
    | doRemoveSmid sid' h? =>
      rw [exec, doRemoveSmid_sessions, Call.effect]
      by_cases hheld : ∃ m, held cs sid' = some (m, false)
      · obtain ⟨m, hheld⟩ := hheld
        have hm : ∀ m', (execAll isStaleHEnabled mnesia cs).sessions.lookup m' = some sid'
            ↔ m' = m := by
          intro m'
          rw [ih, hheld]
          simp [eq_comm]
        rw [mnesia_unregisterSmid_some hm, lookup_erase]
        by_cases hsmid : smid = m
        · subst hsmid
          -- no other session holds the SMID without the flag
          have hne : sid ≠ sid' → held cs sid ≠ some (smid, false) := by
            intro hsid h
            have := (ih smid sid).2 h
            rw [(hm smid).2 rfl] at this
            exact hsid (Option.some.inj this).symm
          by_cases hsid : sid = sid'
          · simp [hsid]
          · simp [hsid, hne hsid]
        · rw [if_neg hsmid, ih]
          by_cases hsid : sid = sid'
          · rw [hsid, hheld]
            simp [Ne.symm hsmid]
          · rw [if_neg hsid]
      · have hm : ∀ m, (execAll isStaleHEnabled mnesia cs).sessions.lookup m ≠ some sid' :=
          fun m h => hheld ⟨m, (ih m sid').1 h⟩
        rw [mnesia_unregisterSmid_none hm, ih]
        by_cases hsid : sid = sid'
        · rw [if_pos hsid, hsid]
          exact ⟨fun h => (hheld ⟨smid, h⟩).elim, fun h => by cases h⟩
        · rw [if_neg hsid]
    | getSid smid' =>
      rw [exec, ih, Call.effect]

/-- CETS maps every session to the SMID it holds, overwritten or not. -/
theorem cets_smidOf (sid : SID) :
    (execAll isStaleHEnabled cets cs).sessions.smidOf sid = (held cs sid).map Prod.fst := by
  induction cs using reverseRecOn generalizing sid with
  | nil => exact CetsTable.smidOf_empty sid
  | append_singleton cs c ih =>
    rw [execAll_concat, held_concat]
    cases c with
    | registerSmid smid' sid' =>
      show ((execAll isStaleHEnabled cets cs).sessions.insertMany smid' sid').smidOf sid = _
      rw [CetsTable.smidOf_insertMany, Call.effect, ih]
      split
      · rfl
      · rw [Option.map_map]
        rfl
    | doRemoveSmid sid' h? =>
      rw [exec, doRemoveSmid_sessions, Call.effect]
      rcases hheld : (execAll isStaleHEnabled cets cs).sessions.smidOf sid' with _ | smid'
      · rw [cets_unregisterSmid_none hheld, ih]
        split
        · next hsid => rw [← ih, hsid, hheld, Option.map_none]
        · rfl
      · rw [cets_unregisterSmid_some hheld, CetsTable.smidOf_deleteMany, ih]
        split <;> rfl
    | getSid smid' => rw [exec, ih, Call.effect]

/-- CETS maps an SMID to the same session as Mnesia, as long as no call has unregistered a session
whose SMID had been registered for another one. -/
theorem cets_sidOf (hone : OneSmid cs) (hover : NoneOverwritten cs) (smid : SMID) :
    (execAll isStaleHEnabled cets cs).sessions.sidOf smid
    = (execAll isStaleHEnabled mnesia cs).sessions.lookup smid := by
  induction cs using reverseRecOn with
  | nil => exact (CetsTable.sidOf_empty smid).trans (MnesiaTable.lookup_empty smid).symm
  | append_singleton cs c ih =>
    obtain ⟨hover, hc⟩ := noneOverwritten_concat.1 hover
    have ih := ih hone.init hover
    rw [execAll_concat, execAll_concat]
    cases c with
    | registerSmid smid' sid' =>
      show ((execAll isStaleHEnabled cets cs).sessions.insertMany smid' sid').sidOf smid
        = (AList.insert smid' sid' (execAll isStaleHEnabled mnesia cs).sessions).lookup smid
      rw [CetsTable.sidOf_insertMany, lookup_insert, ih]
    | doRemoveSmid sid' h? =>
      rw [exec, exec, doRemoveSmid_sessions, doRemoveSmid_sessions]
      rcases hheld : held cs sid' with _ | ⟨m, b⟩
      · rw [cets_unregisterSmid_none (by rw [cets_smidOf, hheld]; rfl),
          mnesia_unregisterSmid_none, ih]
        intro m h
        rw [mnesia_lookup isStaleHEnabled hone.init, hheld] at h
        cases h
      · -- the session holds its SMID without the flag, so Mnesia has its record
        have hb : b = false := by
          by_contra h
          exact hc ⟨(m, b), hheld, by simpa using h⟩
        subst hb
        have hm : ∀ m', (execAll isStaleHEnabled mnesia cs).sessions.lookup m' = some sid'
            ↔ m' = m := by
          intro m'
          rw [mnesia_lookup isStaleHEnabled hone.init, hheld]
          simp [eq_comm]
        rw [cets_unregisterSmid_some (by rw [cets_smidOf, hheld]; rfl),
          mnesia_unregisterSmid_some hm, CetsTable.sidOf_deleteMany, lookup_erase, ih]
    | getSid smid' => exact ih

/-- After the same calls, a call is answered alike exactly when it does not unregister a session
whose SMID has been registered for another one. -/
theorem exec_answer_eq_iff (hone : OneSmid cs) (hover : NoneOverwritten cs) (c : Call SMID SID) :
    (exec isStaleHEnabled cets (execAll isStaleHEnabled cets cs) c).1
      = (exec isStaleHEnabled mnesia (execAll isStaleHEnabled mnesia cs) c).1
    ↔ ¬ HitsOverwritten cs c := by
  cases c with
  | registerSmid smid sid => exact iff_of_true rfl id
  | getSid smid =>
    have hsid := cets_sidOf isStaleHEnabled hone hover smid
    exact iff_of_true (cets_getSid_eq_mnesia hsid) id
  | doRemoveSmid sid h? =>
    rw [exec, exec, doRemoveSmid_answer, doRemoveSmid_answer]
    rcases hheld : held cs sid with _ | ⟨m, b⟩
    · have hm : ∀ m, (execAll isStaleHEnabled mnesia cs).sessions.lookup m ≠ some sid := by
        intro m h
        rw [mnesia_lookup isStaleHEnabled hone, hheld] at h
        cases h
      rw [cets_unregisterSmid_none (by rw [cets_smidOf, hheld]; rfl), mnesia_unregisterSmid_none hm]
      simp [HitsOverwritten, hheld]
    · rw [cets_unregisterSmid_some (by rw [cets_smidOf, hheld]; rfl)]
      cases b with
      | false =>
        have hm : ∀ m', (execAll isStaleHEnabled mnesia cs).sessions.lookup m' = some sid
            ↔ m' = m := by
          intro m'
          rw [mnesia_lookup isStaleHEnabled hone, hheld]
          simp [eq_comm]
        rw [mnesia_unregisterSmid_some hm]
        simp [HitsOverwritten, hheld]
      | true =>
        -- Mnesia has no record of the session: the other one's has replaced it
        have hm : ∀ m', (execAll isStaleHEnabled mnesia cs).sessions.lookup m' ≠ some sid := by
          intro m' h
          rw [mnesia_lookup isStaleHEnabled hone, hheld] at h
          simp at h
        rw [mnesia_unregisterSmid_none hm]
        simp [HitsOverwritten, hheld]

/-- The backends give the same answers exactly when no call unregisters a session whose SMID has
been registered for another one. -/
theorem answers_eq_iff (hone : OneSmid cs) :
    answers isStaleHEnabled cets cs = answers isStaleHEnabled mnesia cs ↔ NoneOverwritten cs := by
  induction cs using reverseRecOn with
  | nil => exact iff_of_true rfl fun pre c post h => by simp at h
  | append_singleton cs c ih =>
    have hlast := fun hover => exec_answer_eq_iff isStaleHEnabled hone.init hover c
    rw [answers_concat, answers_concat, noneOverwritten_concat, append_singleton_inj, ih hone.init]
    exact and_congr_right hlast

/-- The call registers the SMID. -/
def Call.Registers (smid : SMID) : Call SMID SID → Prop
  | .registerSmid smid' _ => smid' = smid
  | _ => False

/-- The call unregisters the session. -/
def Call.Unregisters (sid : SID) : Call SMID SID → Prop
  | .doRemoveSmid sid' _ => sid' = sid
  | _ => False

/-- Nobody registers the SMID again and nobody unregisters the session that has just done so. -/
def Undisturbed (smid : SMID) (new : SID) (post : List (Call SMID SID)) : Prop :=
  ∀ c ∈ post, ¬ c.Registers smid ∧ ¬ c.Unregisters new

variable {new : SID} {post : List (Call SMID SID)}

omit [DecidableEq SMID] [DecidableEq SID] in
theorem Undisturbed.init (h : Undisturbed smid new (post ++ [c])) :
    Undisturbed smid new post ∧ ¬ c.Registers smid ∧ ¬ c.Unregisters new :=
  ⟨fun d hd => h d (mem_append_left _ hd), h c (mem_append_right _ mem_cons_self)⟩

section

variable {pre : List (Call SMID SID)} (hone : OneSmid (pre ++ .registerSmid smid new :: post))

include hone

/-- A session holds the SMID it registered as long as nothing disturbs that. -/
theorem held_of_undisturbed (hpost : Undisturbed smid new post) :
    held (pre ++ .registerSmid smid new :: post) new = some (smid, false) := by
  induction post using reverseRecOn with
  | nil => simp [Call.effect]
  | append_singleton post c ih =>
    rw [← cons_append, ← append_assoc] at hone ⊢
    obtain ⟨hpost', hreg, hunreg⟩ := hpost.init
    have ih := ih hone.init hpost'
    rw [held_concat, ih]
    cases c with
    | registerSmid smid' sid' =>
      have hsid : new ≠ sid' := by
        rintro rfl
        exact hreg (hone.eq_of_held ih).symm
      have hsmid : smid ≠ smid' := fun h => hreg h.symm
      simp [Call.effect, hsid, hsmid]
    | doRemoveSmid sid' h? =>
      have hsid : new ≠ sid' := fun h => hunreg h.symm
      simp [Call.effect, hsid]
    | getSid smid' => rfl

/-- After the registration another session holds the SMID if it did so before and has not been
unregistered since. -/
theorem holds_of_undisturbed (hsid : sid ≠ new) (hpost : Undisturbed smid new post) :
    (held (pre ++ .registerSmid smid new :: post) sid).map Prod.fst = some smid
    ↔ (held pre sid).map Prod.fst = some smid ∧ ∀ c ∈ post, ¬ c.Unregisters sid := by
  induction post using reverseRecOn with
  | nil =>
    rw [held_concat, Call.effect, if_neg hsid, Option.map_map]
    simp [Function.comp_def]
  | append_singleton post c ih =>
    rw [← cons_append, ← append_assoc] at hone ⊢
    obtain ⟨hpost', hreg, -⟩ := hpost.init
    have ih := ih hone.init hpost'
    rw [held_concat, forall_mem_append, forall_mem_singleton, ← and_assoc, ← ih]
    cases c with
    | registerSmid smid' sid' =>
      by_cases h : sid = sid'
      · subst h
        -- it would hold two SMIDs: the one of `pre` and the one it registers
        refine iff_of_false (by simpa [Call.effect, Call.Registers] using hreg) ?_
        rintro ⟨hheld, -⟩
        obtain ⟨⟨m, b⟩, hheld, rfl⟩ := Option.map_eq_some_iff.1 hheld
        exact hreg (hone.eq_of_held hheld).symm
      · rw [Call.effect, if_neg h, Option.map_map]
        simp [Call.Unregisters, Function.comp_def]
    | doRemoveSmid sid' h? =>
      by_cases h : sid = sid'
      · simp [Call.effect, Call.Unregisters, h]
      · simp [Call.effect, Call.Unregisters, h, Ne.symm h]
    | getSid smid' => simp [Call.effect, Call.Unregisters]

/-- CETS maps the SMID to the new session until a session that held the SMID before is
unregistered. -/
theorem cets_sidOf_of_undisturbed (hpost : Undisturbed smid new post) :
    (execAll isStaleHEnabled cets (pre ++ .registerSmid smid new :: post)).sessions.sidOf smid
      = some new
    ↔ ∀ sid, (∃ c ∈ post, c.Unregisters sid) → (held pre sid).map Prod.fst ≠ some smid := by
  induction post using reverseRecOn with
  | nil =>
    refine iff_of_true ?_ (by simp)
    rw [execAll_concat]
    show ((execAll isStaleHEnabled cets pre).sessions.insertMany smid new).sidOf smid = some new
    rw [CetsTable.sidOf_insertMany, if_pos rfl]
  | append_singleton post c ih =>
    rw [← cons_append, ← append_assoc] at hone ⊢
    obtain ⟨hpost', hreg, hunreg⟩ := hpost.init
    have ih := ih hone.init hpost'
    rw [execAll_concat]
    cases c with
    | registerSmid smid' sid' =>
      have hsmid : smid ≠ smid' := fun h => hreg h.symm
      show ((execAll isStaleHEnabled cets _).sessions.insertMany smid' sid').sidOf smid
        = some new ↔ _
      rw [CetsTable.sidOf_insertMany, if_neg hsmid, ih]
      simp [Call.Unregisters, or_and_right, exists_or]
    | getSid smid' =>
      rw [exec, ih]
      simp [Call.Unregisters, or_and_right, exists_or]
    | doRemoveSmid sid' h? =>
      have hsid : sid' ≠ new := hunreg
      have hholds := holds_of_undisturbed hone.init hsid hpost'
      rw [← cets_smidOf isStaleHEnabled] at hholds
      rw [exec, doRemoveSmid_sessions]
      have hsplit : (∀ sid, (∃ c ∈ post ++ [Call.doRemoveSmid sid' h?], c.Unregisters sid) →
            (held pre sid).map Prod.fst ≠ some smid)
          ↔ (∀ sid, (∃ c ∈ post, c.Unregisters sid) → (held pre sid).map Prod.fst ≠ some smid)
            ∧ (held pre sid').map Prod.fst ≠ some smid := by
        simp only [mem_append, mem_singleton, or_and_right, exists_or, or_imp, forall_and]
        simp [Call.Unregisters]
      rw [hsplit, ← ih]
      by_cases hsmid : (execAll isStaleHEnabled cets
          (pre ++ .registerSmid smid new :: post)).sessions.smidOf sid' = some smid
      · rw [cets_unregisterSmid_sidOf, if_pos hsmid]
        exact iff_of_false (by simp) fun h => h.2 (hholds.1 hsmid).1
      · rw [cets_unregisterSmid_sidOf, if_neg hsmid]
        refine (and_iff_left_of_imp fun hnew hpre => hsmid (hholds.2 ⟨hpre, ?_⟩)).symm
        -- an earlier call would have taken the SMID from the new session
        intro c hc hc'
        exact ih.1 hnew sid' ⟨c, hc, hc'⟩ hpre

end

/-- **The registry survives resumption.** Where no session is registered for two SMIDs, Mnesia
answers with the new session, CETS exactly if no earlier one is unregistered after it, and the
backends agree exactly if none is whose SMID another one has. -/
theorem registry_survives_resumption {cs : List (Call SMID SID)} (hone : OneSmid cs) :
    (∀ smid new pre post, cs = pre ++ .registerSmid smid new :: post → Undisturbed smid new post →
    mnesia.getSid smid (execAll isStaleHEnabled mnesia cs).sessions = .sid new ∧
    (cets.getSid smid (execAll isStaleHEnabled cets cs).sessions = .sid new ↔
      ∀ old, (∃ c ∈ post, c.Unregisters old) → (held pre old).map Prod.fst ≠ some smid)) ∧
    (answers isStaleHEnabled cets cs = answers isStaleHEnabled mnesia cs ↔ NoneOverwritten cs) := by
  refine ⟨?_, answers_eq_iff isStaleHEnabled hone⟩
  rintro smid new pre post rfl hpost
  rw [mnesia_getSid_eq_sid, cets_getSid_eq_sid]
  constructor
  · exact (mnesia_lookup isStaleHEnabled hone smid new).2 (held_of_undisturbed hone hpost)
  · exact cets_sidOf_of_undisturbed isStaleHEnabled hone hpost

/-- Session 2 resumes the stream `"x"` of session 1, which is unregistered first. -/
theorem registry_survives_early_removal : cets.getSid "x" (execAll true cets
    [.registerSmid "x" 1, .doRemoveSmid 1 (some 4), .registerSmid "x" 2]).sessions = .sid 2 := by
  have hone : OneSmid [.registerSmid "x" 1, .doRemoveSmid 1 (some 4), .registerSmid "x" 2] := by
    decide
  have hpost : Undisturbed "x" 2 [] := by simp [Undisturbed]
  have h := (registry_survives_resumption true hone).1 "x" 2
    [.registerSmid "x" 1, .doRemoveSmid 1 (some 4)] [] rfl hpost
  exact h.2.2 (by simp)

/-- Session 2 resumes the stream `"x"` of session 1, which is unregistered afterwards: with CETS
the stream is gone, with Mnesia it is not, and the two answer the removal differently. -/
theorem registry_loses_resumed : let cs : List (Call String ℕ) :=
      [.registerSmid "x" 1, .registerSmid "x" 2, .doRemoveSmid 1 (some 4)]
    OneSmid cs ∧
    cets.getSid "x" (execAll true cets cs).sessions = .smidNotFound ∧
    mnesia.getSid "x" (execAll true mnesia cs).sessions = .sid 2 ∧
    answers true cets cs = [.ok, .ok, .unregistered "x"] ∧
    answers true mnesia cs = [.ok, .ok, .smidNotFound] := by
  decide

end MongooseIM.StreamManagement
