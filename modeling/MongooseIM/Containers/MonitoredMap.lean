import MongooseIM.Erlang.Maps
import MongooseIM.Erlang.Monitors
import MongooseIM.Transition.Run

/-! # `monitored_map`: a map whose entries end with their owners

Each entry has an owner, a process that is monitored; `monitors` maps the reference of a monitor
back to the key. `put/4` of a key that another process owns takes the *new* reference out of
`monitors` and leaves the old one there, so the two maps are inverse to each other only as long as
no key changes its owner. -/

namespace MongooseIM.Containers

open Erlang Transition

variable {Key Value Pid : Type*}

/-- `{Value, Pid, Ref}` -/
structure Entry (Value Pid : Type*) where
  value : Value
  pid : Pid
  ref : ℕ

/-- `#monitored_map{}` -/
structure MonitoredMap (Key Value Pid : Type*) where
  map : AList fun _ : Key => Entry Value Pid := ∅
  monitors : AList fun _ : ℕ => Key := ∅

/-- A message that is not for `gen_server`. -/
inductive Info
  /-- `{'DOWN', MonitorRef, _, _, _}` -/
  | down (ref : ℕ)
  | other

/-- The process that has the map. -/
structure Holder (Key Value Pid : Type*) where
  monMap : MonitoredMap Key Value Pid := {}
  rt : Monitors Pid := {}

variable [DecidableEq Key] [DecidableEq Pid] (key : Key)

/-- The clause of `put/4` for a key that is new or has another owner. -/
def replace (value : Value) (pid : Pid) (oldRef : ℕ) (s : Holder Key Value Pid) :
    Holder Key Value Pid :=
  let monitored := (s.rt.demonitor oldRef).monitor pid
  let ref := monitored.1
  { monMap :=
      { map := s.monMap.map.insert key ⟨value, pid, ref⟩
        -- `ref` is the new reference
        monitors := (s.monMap.monitors.erase ref).insert ref key }
    rt := monitored.2 }

/-- `put/4` -/
def put (value : Value) (pid : Pid) (s : Holder Key Value Pid) : Holder Key Value Pid :=
  -- the default of `maps:get/3` makes a reference in any case
  let made := s.rt.makeRef
  let s1 := { s with rt := made.2 }
  match s.monMap.map.lookup key with
  | some entry =>
    if entry.pid = pid then
      { s1 with monMap := { s1.monMap with
          map := s1.monMap.map.insert key ⟨value, pid, entry.ref⟩ } }
    else replace key value pid entry.ref s1
  | none => replace key value pid made.1 s1

variable (s : Holder Key Value Pid)

omit [DecidableEq Pid] in
/-- `remove/2` -/
def remove : Holder Key Value Pid :=
  match s.monMap.map.lookup key with
  | some entry =>
    { monMap :=
        { map := s.monMap.map.erase key
          monitors := s.monMap.monitors.erase entry.ref }
      rt := s.rt.demonitor entry.ref }
  | none => s

variable (monMap : MonitoredMap Key Value Pid)

omit [DecidableEq Pid] in
/-- `find/2` -/
def find : Option Value :=
  (monMap.map.lookup key).map Entry.value

omit [DecidableEq Pid] in
/-- `handle_info/2` -/
def handleInfo (message : Info) (monMap : MonitoredMap Key Value Pid) :
    MonitoredMap Key Value Pid :=
  match message with
  | .down ref =>
    match monMap.monitors.lookup ref with
    | some key =>
      { map := monMap.map.erase key
        monitors := monMap.monitors.erase ref }
    | none => monMap
  | .other => monMap

/-- What can happen to the process. -/
inductive Op (Key Value Pid : Type*)
  | put (key : Key) (value : Value) (pid : Pid)
  | remove (key : Key)
  | exit (pid : Pid)
  /-- `handle_info/2` of a `'DOWN'` message in the mailbox -/
  | down (index : ℕ)
  /-- `handle_info/2` of another message -/
  | other

/-- One operation; `none` when there is no such message. -/
def step : Op Key Value Pid → Option (Holder Key Value Pid)
  | .put key value pid => some (put key value pid s)
  | .remove key => some (remove key s)
  | .exit pid => some { s with rt := s.rt.exit pid }
  | .down index =>
    s.rt.down[index]?.map fun mon =>
      { monMap := handleInfo (.down mon.ref) s.monMap
        rt := { s.rt with down := s.rt.down.eraseIdx index } }
  | .other => some { s with monMap := handleInfo .other s.monMap }

variable {s s' : Holder Key Value Pid}

omit [DecidableEq Pid] in
/-- The references in `monitors` are those of the entries, each under the key of its entry. -/
def Inverse : Prop :=
  ∀ ref key, monMap.monitors.lookup ref = some key ↔
    ∃ entry, monMap.map.lookup key = some entry ∧ entry.ref = ref

/-- Whether an operation leaves every key to the process that owns it. -/
def keepsOwner (s : Holder Key Value Pid) : Op Key Value Pid → Bool
  | .put key _ pid => (s.monMap.map.lookup key).all fun entry => entry.pid = pid
  | _ => true

/-- What every operation keeps that changes no owner. -/
structure Consistent (s : Holder Key Value Pid) : Prop where
  inverse : Inverse s.monMap
  sound : s.rt.Sound
  ref_lt : ∀ key entry, s.monMap.map.lookup key = some entry → entry.ref < s.rt.nextRef
  owner : ∀ key entry, s.monMap.map.lookup key = some entry →
    ∀ mon ∈ s.rt.active ++ s.rt.down, mon.ref = entry.ref → mon.pid = entry.pid

variable {key : Key} {entry : Entry Value Pid} {monMap : MonitoredMap Key Value Pid}

omit [DecidableEq Pid] in
/-- Taking an entry out of both maps keeps the inverse. -/
theorem Inverse.erase (h : Inverse monMap) (hentry : monMap.map.lookup key = some entry) :
    Inverse { map := monMap.map.erase key, monitors := monMap.monitors.erase entry.ref } := by
  have hkey : monMap.monitors.lookup entry.ref = some key := (h _ _).2 ⟨entry, hentry, rfl⟩
  intro ref key'
  show (monMap.monitors.erase entry.ref).lookup ref = some key' ↔
    ∃ entry', (monMap.map.erase key).lookup key' = some entry' ∧ entry'.ref = ref
  rw [lookup_erase, lookup_erase]
  by_cases hk : key' = key
  · subst hk
    rw [if_pos rfl]
    constructor
    · intro hlookup
      split at hlookup
      · cases hlookup
      · next href =>
        obtain ⟨entry', hentry', rfl⟩ := (h _ _).1 hlookup
        rw [hentry] at hentry'
        exact absurd (congrArg Entry.ref (Option.some.inj hentry')).symm href
    · rintro ⟨entry', hentry', -⟩
      cases hentry'
  · rw [if_neg hk, ← h]
    split
    · next href =>
      rw [href, hkey]
      constructor
      · intro hnone
        cases hnone
      · intro hsome
        exact absurd (Option.some.inj hsome).symm hk
    · rfl

omit [DecidableEq Pid] in
/-- A new reference for a key that has no entry keeps the inverse. -/
theorem Inverse.insert (h : Inverse monMap) (hnone : monMap.map.lookup key = none)
    (hfresh : ∀ key' entry', monMap.map.lookup key' = some entry' → entry'.ref ≠ entry.ref) :
    Inverse
    { map := monMap.map.insert key entry
      monitors := (monMap.monitors.erase entry.ref).insert entry.ref key } := by
  intro ref key'
  show ((monMap.monitors.erase entry.ref).insert entry.ref key).lookup ref = some key' ↔
    ∃ entry', (monMap.map.insert key entry).lookup key' = some entry' ∧ entry'.ref = ref
  rw [lookup_insert, lookup_insert, lookup_erase]
  by_cases href : ref = entry.ref
  · subst href
    rw [if_pos rfl]
    constructor
    · intro hkey
      cases hkey
      exact ⟨entry, by rw [if_pos rfl], rfl⟩
    · rintro ⟨entry', hentry', href'⟩
      split at hentry'
      · next hk => rw [hk]
      · exact absurd href' (hfresh _ _ hentry')
  · rw [if_neg href, if_neg href, h]
    constructor
    · rintro ⟨entry', hentry', rfl⟩
      have hk : key' ≠ key := by
        rintro rfl
        rw [hnone] at hentry'
        cases hentry'
      exact ⟨entry', by rw [if_neg hk]; exact hentry', rfl⟩
    · rintro ⟨entry', hentry', href'⟩
      split at hentry'
      · cases hentry'
        exact absurd href'.symm href
      · exact ⟨entry', hentry', href'⟩

omit [DecidableEq Pid] in
/-- A new value under the same reference keeps the inverse. -/
theorem Inverse.update (h : Inverse monMap)
    {entry' : Entry Value Pid} (hentry : monMap.map.lookup key = some entry)
    (href : entry'.ref = entry.ref) :
    Inverse { monMap with map := monMap.map.insert key entry' } := by
  intro ref key'
  show monMap.monitors.lookup ref = some key' ↔
    ∃ entry₁, (monMap.map.insert key entry').lookup key' = some entry₁ ∧ entry₁.ref = ref
  rw [h, lookup_insert]
  by_cases hk : key' = key
  · subst hk
    rw [if_pos rfl]
    constructor
    · rintro ⟨entry₁, hentry₁, rfl⟩
      rw [hentry] at hentry₁
      cases hentry₁
      exact ⟨entry', rfl, href⟩
    · rintro ⟨entry₁, hentry₁, rfl⟩
      cases hentry₁
      exact ⟨entry, hentry, href.symm⟩
  · rw [if_neg hk]

omit [DecidableEq Pid] in
theorem Consistent.makeRef (h : Consistent s) : Consistent { s with rt := s.rt.makeRef.2 } :=
  ⟨h.inverse, h.sound.makeRef, fun key entry hentry => Nat.lt_succ_of_lt (h.ref_lt key entry hentry),
    h.owner⟩

omit [DecidableEq Pid] in
theorem Consistent.update (h : Consistent s)
    (hentry : s.monMap.map.lookup key = some entry) (value : Value) :
    Consistent { s with monMap := { s.monMap with
    map := s.monMap.map.insert key ⟨value, entry.pid, entry.ref⟩ } } := by
  -- every entry has the reference and the owner of an old one
  have hold (key' : Key) (entry' : Entry Value Pid)
      (hentry' : (s.monMap.map.insert key ⟨value, entry.pid, entry.ref⟩).lookup key' = some entry') :
      ∃ entry₁, s.monMap.map.lookup key' = some entry₁ ∧ entry₁.ref = entry'.ref ∧
        entry₁.pid = entry'.pid := by
    rw [lookup_insert] at hentry'
    split at hentry'
    · next hk =>
      cases hentry'
      exact ⟨entry, by rw [hk, hentry], rfl, rfl⟩
    · exact ⟨entry', hentry', rfl, rfl⟩
  refine ⟨h.inverse.update hentry rfl, h.sound, ?_, ?_⟩
  · intro key' entry' hentry'
    obtain ⟨entry₁, hentry₁, href, -⟩ := hold key' entry' hentry'
    exact href ▸ h.ref_lt key' entry₁ hentry₁
  · intro key' entry' hentry' mon hmon hmonRef
    obtain ⟨entry₁, hentry₁, href, hpid⟩ := hold key' entry' hentry'
    exact (h.owner key' entry₁ hentry₁ mon hmon (hmonRef.trans href.symm)).trans hpid

theorem Consistent.replace (h : Consistent s) (hnone : s.monMap.map.lookup key = none)
    (value : Value) (pid : Pid) (oldRef : ℕ) :
    Consistent (Containers.replace key value pid oldRef s) := by
  have href : ((s.rt.demonitor oldRef).monitor pid).1 = s.rt.nextRef := Monitors.monitor_fst pid
  have hnext : ((s.rt.demonitor oldRef).monitor pid).2.nextRef = s.rt.nextRef + 1 :=
    Monitors.nextRef_monitor pid
  have hmap (key' : Key) (entry' : Entry Value Pid)
      (hentry' : (Containers.replace key value pid oldRef s).monMap.map.lookup key' = some entry') :
      s.monMap.map.lookup key' = some entry' ∨ entry' = ⟨value, pid, s.rt.nextRef⟩ := by
    replace hentry' : (s.monMap.map.insert key ⟨value, pid, _⟩).lookup key' = some entry' := hentry'
    rw [lookup_insert, href] at hentry'
    split at hentry'
    · exact .inr (Option.some.inj hentry').symm
    · exact .inl hentry'
  have hmon (mon : Monitor Pid)
      (hmem : mon ∈ (Containers.replace key value pid oldRef s).rt.active ++
        (Containers.replace key value pid oldRef s).rt.down) :
      mon ∈ s.rt.active ++ s.rt.down ∨ mon = ⟨s.rt.nextRef, pid⟩ := by
    rcases Monitors.mem_monitor.1 hmem with hmem | rfl
    · exact .inl (Monitors.mem_demonitor hmem)
    · exact .inr rfl
  refine ⟨?_, (h.sound.demonitor oldRef).monitor pid, ?_, ?_⟩
  · have hfresh (key' : Key) (entry' : Entry Value Pid)
        (hentry' : s.monMap.map.lookup key' = some entry') :
        entry'.ref ≠ ((s.rt.demonitor oldRef).monitor pid).1 := by
      rw [href]
      exact Nat.ne_of_lt (h.ref_lt key' entry' hentry')
    exact h.inverse.insert hnone hfresh
  · intro key' entry' hentry'
    show entry'.ref < ((s.rt.demonitor oldRef).monitor pid).2.nextRef
    rw [hnext]
    rcases hmap key' entry' hentry' with hentry' | rfl
    · exact Nat.lt_succ_of_lt (h.ref_lt key' entry' hentry')
    · exact Nat.lt_succ_self _
  · intro key' entry' hentry' mon hmem href'
    rcases hmap key' entry' hentry' with hentry' | rfl <;> rcases hmon mon hmem with hmem | rfl
    · exact h.owner key' entry' hentry' mon hmem href'
    -- the new reference is that of no old entry, and no old monitor has it
    · exact absurd href'.symm (Nat.ne_of_lt (h.ref_lt key' entry' hentry'))
    · exact absurd href' (Nat.ne_of_lt (h.sound.ref_lt mon hmem))
    · rfl

omit [DecidableEq Pid] in
theorem Consistent.erase (h : Consistent s) (hentry : s.monMap.map.lookup key = some entry) :
    Consistent { s with monMap :=
    { map := s.monMap.map.erase key, monitors := s.monMap.monitors.erase entry.ref } } := by
  have hold (key' : Key) (entry' : Entry Value Pid)
      (hentry' : (s.monMap.map.erase key).lookup key' = some entry') :
      s.monMap.map.lookup key' = some entry' := by
    rw [lookup_erase] at hentry'
    split at hentry'
    · cases hentry'
    · exact hentry'
  exact ⟨h.inverse.erase hentry, h.sound,
    fun key' entry' hentry' => h.ref_lt key' entry' (hold key' entry' hentry'),
    fun key' entry' hentry' => h.owner key' entry' (hold key' entry' hentry')⟩

omit [DecidableEq Key] [DecidableEq Pid] in
/-- Fewer monitors and messages, with the same references to come. -/
theorem Consistent.of_subset [DecidableEq Key] (h : Consistent s) {rt : Monitors Pid}
    (hsound : rt.Sound) (hnext : rt.nextRef = s.rt.nextRef)
    (hsub : ∀ mon ∈ rt.active ++ rt.down, mon ∈ s.rt.active ++ s.rt.down) :
    Consistent { s with rt := rt } :=
  ⟨h.inverse, hsound, fun key entry hentry => hnext ▸ h.ref_lt key entry hentry,
    fun key entry hentry mon hmon => h.owner key entry hentry mon (hsub mon hmon)⟩

/-- **An operation that changes no owner keeps the maps consistent.** -/
theorem consistent_step {op : Op Key Value Pid} (h : Consistent s) (hkeeps : keepsOwner s op = true)
    (hstep : step s op = some s') : Consistent s' := by
  cases op with
  | put key value pid =>
    cases hstep
    simp only [put]
    cases hkey : s.monMap.map.lookup key with
    | some entry =>
      have hpid : entry.pid = pid := by
        rw [keepsOwner, hkey] at hkeeps
        simpa using hkeeps
      subst hpid
      simp only [if_true]
      exact h.makeRef.update hkey value
    | none => exact h.makeRef.replace hkey value pid _
  | remove key =>
    cases hstep
    rw [remove]
    split
    · next entry hentry =>
      exact (h.erase hentry).of_subset (h.sound.demonitor entry.ref) rfl
        fun mon hmon => Monitors.mem_demonitor hmon
    · exact h
  | exit pid =>
    cases hstep
    exact h.of_subset (h.sound.exit pid) rfl fun mon hmon => Monitors.mem_exit.1 hmon
  | down index =>
    obtain ⟨mon, -, rfl⟩ := Option.map_eq_some_iff.1 hstep
    have hsub (mon' : Monitor Pid) (hmon' : mon' ∈ s.rt.active ++ s.rt.down.eraseIdx index) :
        mon' ∈ s.rt.active ++ s.rt.down := by
      rcases List.mem_append.1 hmon' with hmon' | hmon'
      · exact List.mem_append_left _ hmon'
      · exact List.mem_append_right _ (List.mem_of_mem_eraseIdx hmon')
    have hrest : Consistent { s with rt := { s.rt with down := s.rt.down.eraseIdx index } } :=
      h.of_subset ⟨fun mon' hmon' => h.sound.ref_lt mon' (hsub mon' hmon'),
        fun mon' hmon' => h.sound.ended mon' (List.mem_of_mem_eraseIdx hmon')⟩ rfl hsub
    rw [handleInfo]
    split
    · next key hkey =>
      obtain ⟨entry, hentry, href⟩ := (h.inverse _ _).1 hkey
      rw [← href]
      exact hrest.erase hentry
    · exact hrest
  | other =>
    cases hstep
    exact h

/-- A message about an owner that has ended leaves the entries of live processes. -/
theorem lookup_down (h : Consistent s) {index : ℕ} (hstep : step s (.down index) = some s')
    (hentry : s.monMap.map.lookup key = some entry)
    (hlive : entry.pid ∉ s.rt.ended) : s'.monMap.map.lookup key = some entry := by
  obtain ⟨mon, hmon, rfl⟩ := Option.map_eq_some_iff.1 hstep
  have hmem : mon ∈ s.rt.down := List.mem_of_getElem? hmon
  simp only [handleInfo]
  split
  · next key' hkey' =>
    obtain ⟨entry', hentry', href⟩ := (h.inverse _ _).1 hkey'
    show (s.monMap.map.erase key').lookup key = some entry
    rw [lookup_erase, if_neg, hentry]
    rintro rfl
    obtain rfl := Option.some.inj (hentry'.symm.trans hentry)
    -- the message is about the owner of this entry
    have hpid := h.owner key entry' hentry mon (List.mem_append_right _ hmem) href.symm
    exact hlive (hpid ▸ h.sound.ended mon hmem)
  · exact hentry

/-- **The monitored map stays consistent** as long as no operation changes an owner: the maps are
inverse, and no message removes an entry of a live process. -/
theorem monitoredMap_consistent {ops : List (Op Key Value Pid)}
    (hg : Guarded step (fun s op => keepsOwner s op = true) {} ops)
    (hrun : run step {} ops = some s) :
    Inverse s.monMap ∧ ∀ index s', step s (.down index) = some s' →
      ∀ key entry, s.monMap.map.lookup key = some entry → entry.pid ∉ s.rt.ended →
        s'.monMap.map.lookup key = some entry := by
  have hinit : Consistent ({} : Holder Key Value Pid) := by
    refine ⟨fun ref key => ?_, .init, fun key entry hentry => ?_, fun key entry hentry => ?_⟩
    · constructor
      · intro hkey
        cases hkey
      · rintro ⟨entry, hentry, -⟩
        cases hentry
    · cases hentry
    · cases hentry
  have h : Consistent s :=
    run_invariant (fun s op s' hs hok hstep => consistent_step hs hok hstep) hinit hg hrun
  exact ⟨h.inverse, fun index s' hstep key entry hentry hlive => lookup_down h hstep hentry hlive⟩

/-- A process puts two values under a key. -/
theorem monitoredMap_consistent_put :
    ∃ s : Holder String ℕ ℕ, run step {} [.put "key" 1 0, .put "key" 2 0] = some s ∧
    find "key" s.monMap = some 2 ∧ Inverse s.monMap := by
  obtain ⟨s, hrun, hfind⟩ : ∃ s : Holder String ℕ ℕ,
      run step {} [.put "key" 1 0, .put "key" 2 0] = some s ∧ find "key" s.monMap = some 2 :=
    ⟨_, rfl, rfl⟩
  exact ⟨s, hrun, hfind, (monitoredMap_consistent (by decide) hrun).1⟩

/-- The owner `0` of a key ends, the key is given to the live process `1`, and then the message
about `0` is handled: the entry is gone. -/
theorem monitoredMap_inconsistent : ∃ s s' : Holder String ℕ ℕ,
    run step {} [.put "key" 1 0, .exit 0, .put "key" 2 1] = some s ∧ ¬ Inverse s.monMap ∧
    step s (.down 0) = some s' ∧ 1 ∉ s.rt.ended ∧
    find "key" s.monMap = some 2 ∧ find "key" s'.monMap = none := by
  refine ⟨_, _, rfl, ?_, rfl, by decide, rfl, rfl⟩
  intro hinverse
  -- the reference of the first monitor is still in `monitors`
  obtain ⟨entry, hentry, href⟩ := (hinverse 1 "key").1 rfl
  cases hentry
  exact absurd href (by decide)

end MongooseIM.Containers
