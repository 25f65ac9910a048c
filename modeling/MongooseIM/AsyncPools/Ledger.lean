import MongooseIM.AsyncPools.AggregatorWorker

/-! # What an aggregating worker is for: an abstract model

The ledger says, without maps, queues and aggregated values, which submitted tasks went into which
request. A **batch** is a nonempty list of tasks that end in one request; a ledger holds the batches
issued so far and those that wait, one for each key, in the order in which they will be issued. -/

namespace MongooseIM.AsyncPools

open List

/-- A task of a batch: submitted for the key, or broadcast to every key that waits. -/
inductive Part (Task : Type*) where
  | own (task : Task)
  | broadcast (task : Task)
  deriving DecidableEq, Repr

variable {Key Task Reply : Type*}

/-- The task itself. -/
def Part.task : Part Task → Task
  | .own task => task
  | .broadcast task => task

/-- The task, if it was submitted for the key. -/
def Part.own? : Part Task → Option Task
  | .own task => some task
  | .broadcast _ => none

/-- The tasks that end in one request, at least one. -/
structure Batch (Task : Type*) where
  first : Part Task
  rest : List (Part Task) := []
  deriving DecidableEq, Repr

namespace Batch

variable (b : Batch Task)

/-- The tasks of the batch, in the order in which they came. -/
def parts : List (Part Task) := b.first :: b.rest

variable (p : Part Task)

/-- One more task in the batch. -/
def add : Batch Task := { b with rest := b.rest ++ [p] }

/-- The tasks of the batch folded into one, from the left. -/
def value (agg : Task → Task → Task) (b : Batch Task) : Task :=
  b.rest.foldl (fun acc p => agg acc p.task) b.first.task

@[simp] theorem parts_add : (b.add p).parts = b.parts ++ [p] := rfl

@[simp] theorem parts_single : (⟨p, []⟩ : Batch Task).parts = [p] := rfl

variable (agg : Task → Task → Task)

@[simp] theorem value_single (p : Part Task) : (⟨p, []⟩ : Batch Task).value agg = p.task := rfl

@[simp] theorem value_add (b : Batch Task) (p : Part Task) :
    (b.add p).value agg = agg (b.value agg) p.task := by
  simp [value, add]

end Batch

/-- The batches of a worker. -/
structure Ledger (Key Task : Type*) where
  pending : Option RequestId := none
  /-- The batches issued, in order, each with its key (`none` for a broadcast). -/
  issued : List (Option Key × Batch Task) := []
  /-- The batches that wait, the next to be issued at the front. -/
  buffered : List (Key × Batch Task) := []
  deriving DecidableEq, Repr

/-! ## The tasks of one key -/

variable [DecidableEq Key]

/-- The tasks of the batches with this key, in order. -/
def partsOf {K : Type*} [DecidableEq K] (k : K) (bs : List (K × Batch Task)) : List (Part Task) :=
  (bs.filter fun b => b.1 = k).flatMap fun b => b.2.parts

variable (k : Key)

@[simp] theorem partsOf_nil : partsOf k ([] : List (Key × Batch Task)) = [] := rfl

theorem partsOf_cons (b : Key × Batch Task) (bs : List (Key × Batch Task)) :
    partsOf k (b :: bs) = (if b.1 = k then b.2.parts else []) ++ partsOf k bs := by
  by_cases h : b.1 = k <;> simp [partsOf, h]

theorem partsOf_append (bs cs : List (Key × Batch Task)) :
    partsOf k (bs ++ cs) = partsOf k bs ++ partsOf k cs := by
  simp [partsOf]

variable {k : Key} {bs : List (Key × Batch Task)}

theorem partsOf_eq_nil (h : k ∉ bs.map Prod.fst) : partsOf k bs = [] := by
  induction bs with
  | nil => rfl
  | cons b bs ih =>
    rw [map_cons, mem_cons, not_or] at h
    rw [partsOf_cons, if_neg fun hb => h.1 hb.symm, ih h.2, nil_append]

/-- Add a task to the batch of a key. -/
def addTo (k : Key) (p : Part Task) (bs : List (Key × Batch Task)) : List (Key × Batch Task) :=
  bs.map fun b => if b.1 = k then (b.1, b.2.add p) else b

variable (p : Part Task)

@[simp] theorem addTo_keys (bs : List (Key × Batch Task)) :
    (addTo k p bs).map Prod.fst = bs.map Prod.fst := by
  rw [addTo, map_map]
  refine map_congr_left fun b _ => ?_
  by_cases h : b.1 = k <;> simp [h]

/-- Adding a task to the one batch of its key puts it behind the key's other tasks. -/
theorem partsOf_addTo_self {p : Part Task}
    (hk : k ∈ bs.map Prod.fst) (hnd : (bs.map Prod.fst).Nodup) :
    partsOf k (addTo k p bs) = partsOf k bs ++ [p] := by
  induction bs with
  | nil => cases hk
  | cons b bs ih =>
    rw [map_cons, nodup_cons] at hnd
    rw [addTo, map_cons, ← addTo, partsOf_cons, partsOf_cons]
    by_cases hb : b.1 = k
    · -- the batch of the key is at the front, so no other batch has the key
      have hnot : k ∉ bs.map Prod.fst := hb ▸ hnd.1
      rw [if_pos hb, if_pos hb, if_pos hb, partsOf_eq_nil hnot,
        partsOf_eq_nil (by rwa [addTo_keys]), Batch.parts_add]
      simp
    · have hk' : k ∈ bs.map Prod.fst := by
        obtain h | h := mem_cons.1 hk
        · exact absurd h.symm hb
        · exact h
      rw [if_neg hb, if_neg hb, ih hk' hnd.2, nil_append, nil_append]

/-- Adding a task for one key changes nothing for the others. -/
theorem partsOf_addTo_ne {k' : Key} (h : k' ≠ k) (p : Part Task) (bs : List (Key × Batch Task)) :
    partsOf k' (addTo k p bs) = partsOf k' bs := by
  induction bs with
  | nil => rfl
  | cons b bs ih =>
    rw [addTo, map_cons, ← addTo, partsOf_cons, partsOf_cons, ih]
    by_cases hb : b.1 = k
    · have hb' : b.1 ≠ k' := fun hbk => h (hbk.symm.trans hb)
      rw [if_pos hb, if_neg hb', if_neg hb']
    · rw [if_neg hb]

/-- Add a task to every batch. -/
def addToAll (bs : List (Key × Batch Task)) : List (Key × Batch Task) :=
  bs.map fun b => (b.1, b.2.add p)

omit [DecidableEq Key] in
@[simp] theorem addToAll_keys (bs : List (Key × Batch Task)) :
    (addToAll p bs).map Prod.fst = bs.map Prod.fst := by
  rw [addToAll, map_map]
  rfl

/-- A task added to every batch reaches each key that waits once. -/
theorem partsOf_addToAll {p : Part Task} (hnd : (bs.map Prod.fst).Nodup) :
    partsOf k (addToAll p bs) = partsOf k bs ++ if k ∈ bs.map Prod.fst then [p] else [] := by
  induction bs with
  | nil => rfl
  | cons b bs ih =>
    rw [map_cons, nodup_cons] at hnd
    rw [addToAll, map_cons, ← addToAll, partsOf_cons, partsOf_cons, ih hnd.2]
    by_cases hb : b.1 = k
    · have hnot : k ∉ bs.map Prod.fst := hb ▸ hnd.1
      simp [hb, hnot, partsOf_eq_nil hnot]
    · have hmem : k ∈ (b :: bs).map Prod.fst ↔ k ∈ bs.map Prod.fst := by
        rw [map_cons, mem_cons, or_iff_right fun h => hb h.symm]
      simp only [if_neg hb, nil_append, hmem]

/-! ## The steps of the ledger -/

namespace Ledger

/-- Issue a batch; its request is pending. -/
def issue (origin : Option Key) (b : Batch Task) (l : Ledger Key Task) : Ledger Key Task :=
  { l with pending := some l.issued.length, issued := l.issued ++ [(origin, b)] }

/-- After a reply: issue the next batch that waits, if there is one. -/
def next (l : Ledger Key Task) : Ledger Key Task :=
  match l.buffered with
  | [] => { l with pending := none }
  | (k, b) :: bs => { l with buffered := bs }.issue (some k) b

/-- Issue every batch that waits, without waiting for the replies. -/
def flush (l : Ledger Key Task) : Ledger Key Task where
  pending := none
  issued := l.issued ++ l.buffered.map fun b => (some b.1, b.2)
  buffered := []

/-- A task is issued when nothing is pending; otherwise it joins the batch of its key, or opens
one. -/
def submit (k : Key) (p : Part Task) (l : Ledger Key Task) : Ledger Key Task :=
  match l.pending with
  | none => l.issue (some k) ⟨p, []⟩
  | some _ =>
    if k ∈ l.buffered.map Prod.fst then { l with buffered := addTo k p l.buffered }
    else { l with buffered := l.buffered ++ [(k, ⟨p, []⟩)] }

/-- A broadcast is issued when nothing is pending; otherwise it joins every batch that waits. -/
def submitAll (l : Ledger Key Task) : Ledger Key Task :=
  match l.pending with
  | none => l.issue none ⟨p, []⟩
  | some _ => { l with buffered := addToAll p l.buffered }

variable {l : Ledger Key Task}

omit [DecidableEq Key] in
theorem submitAll_idle (h : l.pending = none) (p : Part Task) :
    l.submitAll p = l.issue none ⟨p, []⟩ := by
  rw [submitAll, h]

omit [DecidableEq Key] in
theorem submitAll_busy (h : l.pending ≠ none) (p : Part Task) :
    l.submitAll p = { l with buffered := addToAll p l.buffered } := by
  unfold submitAll
  split
  · rename_i hn
    exact absurd hn h
  · rfl

theorem submit_idle (h : l.pending = none) (k : Key) (p : Part Task) :
    l.submit k p = l.issue (some k) ⟨p, []⟩ := by
  rw [submit, h]

theorem submit_busy (h : l.pending ≠ none) (k : Key) (p : Part Task) :
    l.submit k p = if k ∈ l.buffered.map Prod.fst then { l with buffered := addTo k p l.buffered }
    else { l with buffered := l.buffered ++ [(k, ⟨p, []⟩)] } := by
  unfold submit
  split
  · rename_i hn
    exact absurd hn h
  · rfl

/-- What an event does when every request succeeds at its first attempt. -/
def step (l : Ledger Key Task) : Event Key Task Reply → Ledger Key Task
  | .task k task => l.submit k (.own task)
  | .broadcast task => l.submitAll (.broadcast task)
  | .sync => if l.buffered = [] then l else l.flush
  | .info (.response id _) => if l.pending = some id then l.next else l
  | .info .unexpected => l
  | .unexpected => l

/-- The tasks that the ledger holds for a key, issued ones first. -/
def partsFor (k : Key) (l : Ledger Key Task) : List (Part Task) :=
  partsOf (some k) l.issued ++ partsOf k l.buffered

end Ledger

/-! ## What was submitted -/

/-- The task that an event submits for the key. -/
def Event.submits? (k : Key) : Event Key Task Reply → Option Task
  | .task k' value => if k' = k then some value else none
  | _ => none

/-- The task that an event may bring to the key: submitted for it, or broadcast. -/
def Event.reaches? (k : Key) : Event Key Task Reply → Option (Part Task)
  | .task k' value => if k' = k then some (.own value) else none
  | .broadcast value => some (.broadcast value)
  | _ => none

namespace Ledger

/-- **The ledger accounts for the events.** Each key's own tasks are those submitted for it, in
order; with the broadcasts, its tasks are in the order in which they came, each once. -/
structure Accounts (l : Ledger Key Task) (es : List (Event Key Task Reply)) : Prop where
  own : ∀ k, (l.partsFor k).filterMap Part.own? = es.filterMap (Event.submits? k)
  order : ∀ k, (l.partsFor k).Sublist (es.filterMap (Event.reaches? k))

/-- Each key has one batch, and batches wait only for a pending request. -/
structure WellFormed (l : Ledger Key Task) : Prop where
  nodup : (l.buffered.map Prod.fst).Nodup
  idle : l.pending = none → l.buffered = []

omit [DecidableEq Key] in
theorem wellFormed_init : WellFormed ({} : Ledger Key Task) := ⟨nodup_nil, fun _ => rfl⟩

variable {l : Ledger Key Task}

omit [DecidableEq Key] in
theorem WellFormed.next (hl : l.WellFormed) : l.next.WellFormed := by
  unfold Ledger.next
  cases hb : l.buffered with
  | nil => exact ⟨by simp, fun _ => rfl⟩
  | cons b bs =>
    have := hl.nodup
    rw [hb, map_cons, nodup_cons] at this
    exact ⟨this.2, fun hn => by cases hn⟩

theorem WellFormed.submit (hl : l.WellFormed) (k : Key) (p : Part Task) :
    (l.submit k p).WellFormed := by
  unfold Ledger.submit
  cases hp : l.pending with
  | none => exact ⟨hl.nodup, fun hn => by cases hn⟩
  | some id =>
    simp only
    by_cases hk : k ∈ l.buffered.map Prod.fst
    · rw [if_pos hk]
      exact ⟨by rw [addTo_keys]; exact hl.nodup, fun hn => by simp at hn⟩
    · rw [if_neg hk]
      refine ⟨?_, fun hn => by simp at hn⟩
      rw [map_append, map_singleton]
      exact nodup_append.2 ⟨hl.nodup, nodup_singleton _, fun a ha b hb => by
        rw [mem_singleton.1 hb]
        rintro rfl
        exact hk ha⟩

omit [DecidableEq Key] in
theorem WellFormed.submitAll (hl : l.WellFormed) (p : Part Task) : (l.submitAll p).WellFormed := by
  unfold Ledger.submitAll
  cases hp : l.pending with
  | none => exact ⟨hl.nodup, fun hn => by cases hn⟩
  | some id => exact ⟨by rw [addToAll_keys]; exact hl.nodup, fun hn => by simp at hn⟩

theorem WellFormed.step (hl : l.WellFormed) (e : Event Key Task Reply) : (l.step e).WellFormed := by
  cases e with
  | task k task => exact hl.submit k _
  | broadcast task => exact hl.submitAll _
  | sync =>
    rw [Ledger.step]
    split
    · exact hl
    · exact ⟨nodup_nil, fun _ => rfl⟩
  | info msg =>
    cases msg with
    | unexpected => exact hl
    | response id response =>
      rw [Ledger.step]
      split
      · exact hl.next
      · exact hl
  | unexpected => exact hl

/-! ## No task is lost -/

/-- Issuing the next batch moves its tasks, it does not change them. -/
theorem partsFor_next (l : Ledger Key Task) (k : Key) : l.next.partsFor k = l.partsFor k := by
  unfold Ledger.next
  cases hb : l.buffered with
  | nil => simp [partsFor, hb]
  | cons b bs =>
    simp only [partsFor, issue, hb, partsOf_append, partsOf_cons, partsOf_nil, Option.some.injEq]
    simp

theorem partsOf_map_some (bs : List (Key × Batch Task)) :
    partsOf (some k) (bs.map fun b => (some b.1, b.2)) = partsOf k bs := by
  induction bs with
  | nil => rfl
  | cons b bs ih => simp only [map_cons, partsOf_cons, ih, Option.some.injEq]

theorem partsFor_flush (l : Ledger Key Task) (k : Key) : l.flush.partsFor k = l.partsFor k := by
  simp [partsFor, flush, partsOf_append, partsOf_map_some]

/-- A submitted task goes behind the tasks of its key and touches no other key. -/
theorem partsFor_submit (hl : l.WellFormed) (k k' : Key) (p : Part Task) :
    (l.submit k p).partsFor k' = l.partsFor k' ++ if k = k' then [p] else [] := by
  unfold Ledger.submit
  cases hp : l.pending with
  | none =>
    simp [partsFor, issue, hl.idle hp, partsOf_append, partsOf_cons]
  | some id =>
    simp only
    by_cases hk : k ∈ l.buffered.map Prod.fst
    · rw [if_pos hk]
      by_cases hkk : k = k'
      · subst hkk
        simp [partsFor, partsOf_addTo_self hk hl.nodup]
      · simp [partsFor, partsOf_addTo_ne (Ne.symm hkk), hkk]
    · rw [if_neg hk]
      simp [partsFor, partsOf_append, partsOf_cons]

/-- A broadcast goes behind the tasks of every key that waits. -/
theorem partsFor_submitAll (hl : l.WellFormed) (k : Key) (p : Part Task) :
    (l.submitAll p).partsFor k = l.partsFor k ∨ (l.submitAll p).partsFor k = l.partsFor k ++ [p] := by
  unfold Ledger.submitAll
  cases hp : l.pending with
  | none =>
    left
    simp [partsFor, issue, partsOf_append, partsOf_cons]
  | some id =>
    simp only [partsFor, partsOf_addToAll hl.nodup]
    by_cases hk : k ∈ l.buffered.map Prod.fst
    · right
      rw [if_pos hk, append_assoc]
    · left
      rw [if_neg hk, append_nil]

/-- An event that submits nothing and moves tasks without changing them. -/
theorem Accounts.of_same {l' : Ledger Key Task} {es : List (Event Key Task Reply)}
    {e : Event Key Task Reply} (h : l.Accounts es) (hl : ∀ k, l'.partsFor k = l.partsFor k)
    (hs : ∀ k, e.submits? k = none) : l'.Accounts (es ++ [e]) where
  own k := by
    rw [hl k, h.own k, filterMap_append]
    simp [hs k]
  order k := by
    rw [hl k, filterMap_append]
    exact (h.order k).trans (sublist_append_left _ _)

theorem Accounts.step {es : List (Event Key Task Reply)} (h : l.Accounts es)
    (hl : l.WellFormed) (e : Event Key Task Reply) : (l.step e).Accounts (es ++ [e]) := by
  cases e with
  | task k task =>
    refine ⟨fun k' => ?_, fun k' => ?_⟩
    · rw [Ledger.step, partsFor_submit hl, filterMap_append, filterMap_append, h.own k']
      by_cases hk : k = k' <;> simp [hk, Event.submits?, Part.own?]
    · rw [Ledger.step, partsFor_submit hl, filterMap_append]
      refine (h.order k').append ?_
      by_cases hk : k = k' <;> simp [hk, Event.reaches?]
  | broadcast task =>
    refine ⟨fun k => ?_, fun k => ?_⟩
    · rw [Ledger.step, filterMap_append, ← h.own k]
      have hs : ([.broadcast task] : List (Event Key Task Reply)).filterMap (Event.submits? k)
          = [] := rfl
      rw [hs, append_nil]
      obtain hp | hp := partsFor_submitAll hl k (.broadcast task)
      · rw [hp]
      · rw [hp, filterMap_append]
        exact append_nil _
    · rw [Ledger.step, filterMap_append]
      obtain hp | hp := partsFor_submitAll hl k (.broadcast task)
      · rw [hp]
        exact (h.order k).trans (sublist_append_left _ _)
      · rw [hp]
        exact (h.order k).append (List.Sublist.refl _)
  | sync =>
    refine h.of_same (fun k => ?_) fun _ => rfl
    rw [Ledger.step]
    split
    · rfl
    · exact partsFor_flush l k
  | info msg =>
    refine h.of_same (fun k => ?_) fun _ => rfl
    cases msg with
    | unexpected => rfl
    | response id response =>
      rw [Ledger.step]
      split
      · exact partsFor_next l k
      · rfl
  | unexpected => exact h.of_same (fun _ => rfl) fun _ => rfl

/-- **No task is lost and none is applied twice**, whatever the events. -/
theorem accounts_foldl (es : List (Event Key Task Reply)) :
    (es.foldl step ({} : Ledger Key Task)).WellFormed ∧ (es.foldl step {}).Accounts es := by
  induction es using reverseRecOn with
  | nil => exact ⟨wellFormed_init, fun _ => rfl, fun _ => List.Sublist.slnil⟩
  | append_singleton es e ih =>
    rw [foldl_concat]
    exact ⟨ih.1.step e, ih.2.step ih.1 e⟩

end Ledger

end MongooseIM.AsyncPools
