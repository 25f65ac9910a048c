import MongooseIM.Erlang.Maps

/-! # The SMID registry of stream management

`mod_stream_management_backend` maps the id of a resumable stream (its SMID) to the session (its
SID) that serves it, and keeps the last inbound counter of the streams that are gone (`stale_h`).
The table of sessions has two implementations, `cets` with two rows for each registration, and
`mnesia` with an index. -/

namespace MongooseIM.StreamManagement

open Erlang

universe u

variable {SMID SID : Type u}

/-- What a call of the registry returns. -/
inductive Answer (SMID SID : Type u)
  | ok
  /-- `{ok, SMID}` of `unregister_smid` -/
  | unregistered (smid : SMID)
  | sid (sid : SID)
  /-- `{error, smid_not_found}` -/
  | smidNotFound
  | caseClause
  deriving DecidableEq

/-- The callbacks of a backend over its table of sessions. -/
structure Backend (SMID SID Table : Type u) where
  /-- The table after `init/2`. -/
  init : Table
  registerSmid : SMID → SID → Table → Table
  unregisterSmid : SID → Table → Answer SMID SID × Table
  getSid : SMID → Table → Answer SMID SID

/-! ## CETS -/

/-- The keys of the CETS table. -/
inductive CetsKey (SMID SID : Type u)
  | sid (sid : SID)
  | smid (smid : SMID)
  deriving DecidableEq

/-- What the CETS table stores under a key. -/
abbrev CetsKey.Value : CetsKey SMID SID → Type u
  | .sid _ => SMID
  | .smid _ => SID

/-- The rows of `cets_stream_management_session`. -/
abbrev CetsTable (SMID SID : Type u) := AList fun key : CetsKey SMID SID => key.Value

variable [DecidableEq SMID] [DecidableEq SID]

namespace CetsTable

variable (t : CetsTable SMID SID)

/-- `ets:lookup(?TABLE, {sid, SID})` -/
def smidOf (sid : SID) : Option SMID := t.lookup (.sid sid)

variable (smid : SMID)

/-- `ets:lookup(?TABLE, {smid, SMID})` -/
def sidOf : Option SID := t.lookup (.smid smid)

/-- `cets:insert_many(?TABLE, [{{sid, SID}, SMID}, {{smid, SMID}, SID}])` -/
def insertMany (sid : SID) : CetsTable SMID SID :=
  (t.insert (.sid sid) smid).insert (.smid smid) sid

/-- `cets:delete_many(?TABLE, [{sid, SID}, {smid, SMID}])` -/
def deleteMany (sid : SID) : CetsTable SMID SID :=
  (t.erase (.sid sid)).erase (.smid smid)

@[simp] theorem smidOf_empty (sid : SID) : smidOf (∅ : CetsTable SMID SID) sid = none :=
  AList.lookup_empty _

variable (smid : SMID)

@[simp] theorem sidOf_empty : sidOf (∅ : CetsTable SMID SID) smid = none := AList.lookup_empty _

section

variable (t : CetsTable SMID SID)

theorem smidOf_insertMany (sid sid' : SID) :
    (t.insertMany smid sid).smidOf sid' = if sid' = sid then some smid else t.smidOf sid' := by
  rw [smidOf, insertMany, AList.lookup_insert_ne (by simp)]
  by_cases h : sid' = sid
  · subst h
    rw [if_pos rfl, AList.lookup_insert]
  · rw [if_neg h, AList.lookup_insert_ne (by simpa using h), smidOf]

theorem sidOf_insertMany (smid smid' : SMID) (sid : SID) :
    (t.insertMany smid sid).sidOf smid' = if smid' = smid then some sid else t.sidOf smid' := by
  rw [sidOf, insertMany]
  by_cases h : smid' = smid
  · subst h
    rw [if_pos rfl, AList.lookup_insert]
  · rw [if_neg h, AList.lookup_insert_ne (by simpa using h), AList.lookup_insert_ne (by simp),
      sidOf]

theorem smidOf_deleteMany (sid sid' : SID) :
    (t.deleteMany smid sid).smidOf sid' = if sid' = sid then none else t.smidOf sid' := by
  rw [smidOf, deleteMany, AList.lookup_erase_ne (by simp)]
  by_cases h : sid' = sid
  · subst h
    rw [if_pos rfl, AList.lookup_erase]
  · rw [if_neg h, AList.lookup_erase_ne (by simpa using h), smidOf]

theorem sidOf_deleteMany (smid smid' : SMID) (sid : SID) :
    (t.deleteMany smid sid).sidOf smid' = if smid' = smid then none else t.sidOf smid' := by
  rw [sidOf, deleteMany]
  by_cases h : smid' = smid
  · subst h
    rw [if_pos rfl, AList.lookup_erase]
  · rw [if_neg h, AList.lookup_erase_ne (by simpa using h), AList.lookup_erase_ne (by simp), sidOf]

end

end CetsTable

/-- `mod_stream_management_cets` -/
def cets : Backend SMID SID (CetsTable SMID SID) where
  init := ∅
  registerSmid smid sid t := t.insertMany smid sid
  unregisterSmid sid t :=
    match t.smidOf sid with
    | none => (.smidNotFound, t)
    | some smid => (.unregistered smid, t.deleteMany smid sid)
  getSid smid t :=
    match t.sidOf smid with
    | none => .smidNotFound
    | some sid => .sid sid

variable {sid : SID} {t : CetsTable SMID SID}

theorem cets_unregisterSmid_none (h : t.smidOf sid = none) :
    cets.unregisterSmid sid t = (.smidNotFound, t) := by
  simp only [cets, h]

variable {smid : SMID}

/-- Unregistering a session deletes its row and the row of its SMID, whatever that row says. -/
theorem cets_unregisterSmid_some (h : t.smidOf sid = some smid) :
    cets.unregisterSmid sid t = (.unregistered smid, t.deleteMany smid sid) := by
  simp only [cets, h]

/-- Unregistering a session leaves every SMID but the session's own with the row it had. -/
theorem cets_unregisterSmid_sidOf (t : CetsTable SMID SID) (sid : SID) (smid : SMID) :
    (cets.unregisterSmid sid t).2.sidOf smid
    = if t.smidOf sid = some smid then none else t.sidOf smid := by
  rcases hsmid : t.smidOf sid with _ | m
  · rw [cets_unregisterSmid_none hsmid]
    simp
  · rw [cets_unregisterSmid_some hsmid, CetsTable.sidOf_deleteMany]
    simp [eq_comm]

/-! ## Mnesia -/

/-- The records of the table `sm_session`: `smid` is the key, `sid` is indexed. -/
abbrev MnesiaTable (SMID SID : Type u) := AList fun _ : SMID => SID

omit [DecidableEq SID] in
@[simp] theorem MnesiaTable.lookup_empty (smid : SMID) :
    (∅ : MnesiaTable SMID SID).lookup smid = none := AList.lookup_empty smid

variable (t : MnesiaTable SMID SID)

/-- `mnesia:dirty_index_read(sm_session, SID, #sm_session.sid)`, as the SMIDs of the records. -/
def MnesiaTable.dirtyIndexRead (sid : SID) : List SMID :=
  t.keys.filter fun smid => t.lookup smid = some sid

theorem MnesiaTable.mem_dirtyIndexRead (sid : SID) (smid : SMID) :
    smid ∈ t.dirtyIndexRead sid ↔ t.lookup smid = some sid := by
  rw [dirtyIndexRead, List.mem_filter, decide_eq_true_eq]
  refine ⟨And.right, fun h => ⟨?_, h⟩⟩
  have hmem : smid ∈ t := AList.lookup_isSome.1 (by rw [h]; rfl)
  exact AList.mem_keys.1 hmem

variable {t : MnesiaTable SMID SID}

/-- Under a SID that no record has, the index is empty. -/
theorem MnesiaTable.dirtyIndexRead_nil
    (h : ∀ smid, t.lookup smid ≠ some sid) : t.dirtyIndexRead sid = [] := by
  refine List.eq_nil_iff_forall_not_mem.2 fun smid hmem => ?_
  exact h smid ((t.mem_dirtyIndexRead sid smid).1 hmem)

/-- Under the SID of exactly one record, the index has that record. -/
theorem MnesiaTable.dirtyIndexRead_singleton
    (h : ∀ smid', t.lookup smid' = some sid ↔ smid' = smid) : t.dirtyIndexRead sid = [smid] := by
  have hnodup : (t.dirtyIndexRead sid).Nodup := t.keys_nodup.filter _
  refine List.perm_singleton.1 ((List.perm_ext_iff_of_nodup hnodup (List.nodup_singleton smid)).2 ?_)
  intro smid'
  rw [t.mem_dirtyIndexRead, h, List.mem_singleton]

/-- `mod_stream_management_mnesia` -/
def mnesia : Backend SMID SID (MnesiaTable SMID SID) where
  init := ∅
  registerSmid smid sid t := t.insert smid sid
  unregisterSmid sid t :=
    match t.dirtyIndexRead sid with
    | [] => (.smidNotFound, t)
    | [smid] => (.unregistered smid, t.erase smid)
    | _ => (.caseClause, t)
  getSid smid t :=
    match t.lookup smid with
    | some sid => .sid sid
    | none => .smidNotFound

theorem mnesia_unregisterSmid_none
    (h : ∀ smid, t.lookup smid ≠ some sid) : mnesia.unregisterSmid sid t = (.smidNotFound, t) := by
  simp only [mnesia, MnesiaTable.dirtyIndexRead_nil h]

/-- Unregistering a session that one record has deletes that record. -/
theorem mnesia_unregisterSmid_some (h : ∀ smid', t.lookup smid' = some sid ↔ smid' = smid) :
    mnesia.unregisterSmid sid t = (.unregistered smid, t.erase smid) := by
  simp only [mnesia, MnesiaTable.dirtyIndexRead_singleton h]

theorem cets_getSid_eq_sid {t : CetsTable SMID SID} :
    cets.getSid smid t = .sid sid ↔ t.sidOf smid = some sid := by
  simp only [cets]
  split <;> simp_all

theorem mnesia_getSid_eq_sid : mnesia.getSid smid t = .sid sid ↔ t.lookup smid = some sid := by
  simp only [mnesia]
  split <;> simp_all

/-- Both backends answer alike on tables that map the SMID to the same session. -/
theorem cets_getSid_eq_mnesia {t : CetsTable SMID SID} {t' : MnesiaTable SMID SID}
    (h : t.sidOf smid = t'.lookup smid) : cets.getSid smid t = mnesia.getSid smid t' := by
  simp only [cets, mnesia, h]
  cases t'.lookup smid <;> rfl

/-! ## The registry -/

/-- The tables of a backend: the sessions, and the counters of the streams that are gone. -/
structure Registry (SMID Table : Type u) where
  sessions : Table
  /-- The table `stale_h`. -/
  staleH : AList fun _ : SMID => ℕ

variable {Table : Type u} (isStaleHEnabled : Bool)

/-- `register_stale_smid_h/3`; the time stamp is left out. -/
def registerStaleSmidH (smid : SMID) (h : ℕ) (r : Registry SMID Table) : Registry SMID Table :=
  if isStaleHEnabled then { r with staleH := r.staleH.insert smid h } else r

variable (b : Backend SMID SID Table) (isStaleHEnabled : Bool)

/-- `do_remove_smid/3`: unregisters the session, and remembers its counter if there is one. -/
def doRemoveSmid (sid : SID) (h? : Option ℕ)
    (r : Registry SMID Table) : Answer SMID SID × Registry SMID Table :=
  let maybeSmid := (b.unregisterSmid sid r.sessions).1
  let r' := { r with sessions := (b.unregisterSmid sid r.sessions).2 }
  match maybeSmid, h? with
  | .unregistered smid, some h => (maybeSmid, registerStaleSmidH isStaleHEnabled smid h r')
  | _, _ => (maybeSmid, r')

/-- What a client that resumes finds under a SMID. -/
inductive MaybeSmid (SID : Type u)
  | sid (sid : SID)
  | staleH (h : ℕ)
  /-- `{error, smid_not_found}` -/
  | smidNotFound

variable (b : Backend SMID SID Table)

omit [DecidableEq SID] in
/-- Removing a session changes the table of sessions as `unregister_smid` does. -/
theorem doRemoveSmid_sessions (isStaleHEnabled : Bool) (sid : SID)
    (h? : Option ℕ) (r : Registry SMID Table) :
    (doRemoveSmid b isStaleHEnabled sid h? r).2.sessions = (b.unregisterSmid sid r.sessions).2 := by
  simp only [doRemoveSmid]
  split
  · cases isStaleHEnabled <;> rfl
  · rfl

omit [DecidableEq SID] in
/-- Removing a session answers as `unregister_smid` does. -/
theorem doRemoveSmid_answer (isStaleHEnabled : Bool) (sid : SID)
    (h? : Option ℕ) (r : Registry SMID Table) :
    (doRemoveSmid b isStaleHEnabled sid h? r).1 = (b.unregisterSmid sid r.sessions).1 := by
  simp only [doRemoveSmid]
  split <;> rfl

end MongooseIM.StreamManagement
