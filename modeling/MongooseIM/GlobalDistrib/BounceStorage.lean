import Mathlib.Data.List.Perm.Basic
import MongooseIM.GlobalDistrib.BounceRetries

/-! # Messages in the bounce storage

Every message that is stored is in the store or handed on once, and the index names only messages
that are there, in exactly the runs whose operations meet `OperationOk`. -/

namespace MongooseIM.GlobalDistrib.Bounce

open Transition Xmpp List

/-- The messages that a call has taken out of the store and not yet handed on. -/
def Call.inHand : Call → List FPacket
  | .takingStore _ _ storedMessages => storedMessages
  | .rerouting _ storedMessages => storedMessages
  | _ => []

/-- The message that the resending process has taken out of the store and not yet handed on. -/
def Resender.inHand : Resender → List FPacket
  | .deleting _ _ fpacket => [fpacket]
  | .casting _ fpacket => [fpacket]
  | _ => []

/-- The resending process is about to delete this message from the index. -/
def Resender.Deletes (resendAt : ℤ) (fpacket : FPacket) : Resender → Prop
  | .deleting _ key taken => key = resendAt ∧ taken = fpacket
  | _ => False

namespace System

variable (s : System)

/-- All messages that are in the hands of some call. -/
def inHand : List FPacket := s.resender.inHand ++ s.calls.flatMap Call.inHand

/-- All messages that are in the store, in the hands of a call, or handed on. -/
def messages : List FPacket :=
  s.tables.store.entries.map Sigma.snd ++ s.inHand ++ s.rerouted.map Prod.snd ++ s.resent

/-- The message is in the store at this time, or its entry in the index is about to be deleted. -/
def Backed (resendAt : ℤ) (fpacket : FPacket) : Prop :=
  s.tables.store.lookup resendAt = some fpacket ∨ s.resender.Deletes resendAt fpacket

end System

/-- **Messages are neither lost nor duplicated.** -/
structure Kept (s : System) : Prop where
  /-- Each message stored is in the store, in the hands of one call or handed on, and once. -/
  once : s.messages.Perm s.stored
  /-- The index has no entry of a message that is handed on. -/
  index : ∀ key resendAt fpacket,
    (key, resendAt, fpacket) ∈ s.tables.index → s.Backed resendAt fpacket

variable (s : System)

/-- A message is put into the index only while it is in the store or the resending process has yet
to delete it there; a reroute takes from the store what it found in the index. -/
def OperationOk : Event → Prop
  | .call i =>
    match s.calls[i]? with
    | some (.indexing resendAt fpacket) => s.Backed resendAt fpacket
    | some (.takingStore _ ((resendAt, fpacket) :: _) _) =>
      ∀ taken, s.tables.store.lookup resendAt = some taken →
        taken = fpacket ∧
          ((getIndexKey fpacket, resendAt, fpacket) ∈ s.tables.index →
            s.resender.Deletes resendAt fpacket)
    | _ => True
  | _ => True

/-- Every entry of the index is under the key of its message. -/
def Shaped : Prop :=
  ∀ key resendAt fpacket, (key, resendAt, fpacket) ∈ s.tables.index → key = getIndexKey fpacket

section

variable {s s' : System} {i : ℕ} {call call' : Call}

theorem count_messages (a : FPacket) :
    s.messages.count a = (s.tables.store.entries.map Sigma.snd).count a + s.resender.inHand.count a
    + (s.calls.flatMap Call.inHand).count a + (s.rerouted.map Prod.snd).count a
    + s.resent.count a := by
  simp only [System.messages, System.inHand, count_append]
  omega

/-- What a call that goes on has in hand replaces what it had. -/
theorem count_set (hcall : s.calls[i]? = some call) (call' : Call) (a : FPacket) :
    ((s.calls.set i call').flatMap Call.inHand).count a + call.inHand.count a =
    (s.calls.flatMap Call.inHand).count a + call'.inHand.count a := by
  obtain ⟨hi, rfl⟩ := List.getElem?_eq_some_iff.1 hcall
  have hbefore := ((List.getElem_cons_eraseIdx_perm hi).flatMap_right Call.inHand).count_eq a
  have hafter := ((List.set_perm_cons_eraseIdx hi call').flatMap_right Call.inHand).count_eq a
  simp only [List.flatMap_cons, List.count_append] at hbefore hafter
  omega

/-- A call that finishes has nothing in hand any more. -/
theorem count_eraseIdx (hcall : s.calls[i]? = some call) (a : FPacket) :
    ((s.calls.eraseIdx i).flatMap Call.inHand).count a + call.inHand.count a =
    (s.calls.flatMap Call.inHand).count a := by
  obtain ⟨hi, rfl⟩ := List.getElem?_eq_some_iff.1 hcall
  have hbefore := ((List.getElem_cons_eraseIdx_perm hi).flatMap_right Call.inHand).count_eq a
  simp only [List.flatMap_cons, List.count_append] at hbefore
  omega

variable {store : AList fun _ : ℤ => FPacket} {resendAt : ℤ}

theorem count_erase {taken : FPacket} (htaken : store.lookup resendAt = some taken) (a : FPacket) :
    ((store.erase resendAt).entries.map Sigma.snd).count a + [taken].count a =
    (store.entries.map Sigma.snd).count a := by
  have hperm : (⟨resendAt, taken⟩ :: (store.erase resendAt).entries).Perm store.entries := by
    refine (perm_ext_iff_of_nodup ?_ store.nodupKeys.nodup).2 ?_
    · exact (store.insert resendAt taken).nodupKeys.nodup
    · rintro ⟨t, f⟩
      show (⟨t, f⟩ : Σ _ : ℤ, FPacket) ∈ (store.insert resendAt taken).entries ↔ _
      rw [← AList.mem_lookup_iff, ← AList.mem_lookup_iff]
      by_cases ht : t = resendAt
      · subst ht
        rw [AList.lookup_insert, htaken]
      · rw [AList.lookup_insert_ne ht]
  have := (hperm.map Sigma.snd).count_eq a
  simp only [map_cons, count_cons, count_nil] at this ⊢
  omega

theorem count_insert (fpacket : FPacket) (hfree : resendAt ∉ store) (a : FPacket) :
    ((store.insert resendAt fpacket).entries.map Sigma.snd).count a =
    (store.entries.map Sigma.snd).count a + [fpacket].count a := by
  have herase : store.erase resendAt = store := AList.ext (kerase_of_notMem_keys hfree)
  show ((⟨resendAt, fpacket⟩ :: (store.erase resendAt).entries).map Sigma.snd).count a = _
  rw [herase]
  simp only [map_cons, count_cons, count_nil]
  omega

theorem Kept.keep (hkept : Kept s)
    (hcount : ∀ a, s'.messages.count a + s.stored.count a = s.messages.count a + s'.stored.count a)
    (hbacked : ∀ key resendAt fpacket, (key, resendAt, fpacket) ∈ s'.tables.index →
    s.Backed resendAt fpacket → s'.Backed resendAt fpacket)
    (hsub : s'.tables.index ⊆ s.tables.index) : Kept s' := by
  refine ⟨perm_iff_count.2 fun a => ?_, fun key resendAt fpacket hmem => ?_⟩
  · have hbefore := perm_iff_count.1 hkept.once a
    have hafter := hcount a
    omega
  · exact hbacked key resendAt fpacket hmem (hkept.index key resendAt fpacket (hsub hmem))

end

section

variable {s : System} {i : ℕ} {resendAt : ℤ} {fpacket : FPacket}

/-- **`insert_new`** -/
theorem Kept.inserting (hkept : Kept s) (hcall : s.calls[i]? = some (.inserting resendAt fpacket)) :
    Kept (Call.operation s i (.inserting resendAt fpacket)) := by
  simp only [Call.operation, Tables.insertNew]
  split
  · rename_i tables hinsert
    split at hinsert
    · cases hinsert
    · rename_i hfree
      cases hinsert
      refine hkept.keep (fun a => ?_) (fun key t f hmem hbacked => ?_) fun _ h => h
      · have hset := count_set hcall (.indexing resendAt fpacket) a
        have hinsert := count_insert fpacket hfree a
        rw [count_messages, count_messages]
        simp only [System.goOn, count_append]
        simp only [Call.inHand, count_nil] at hset
        omega
      · refine hbacked.imp (fun hlookup => ?_) id
        have hne : t ≠ resendAt := by
          rintro rfl
          exact hfree (AList.lookup_isSome.1 (by rw [hlookup]; rfl))
        exact (AList.lookup_insert_ne hne).trans hlookup
  · refine hkept.keep (fun a => ?_) (fun _ _ _ _ => id) fun _ h => h
    have hset := count_set hcall (.inserting (resendAt + 1) fpacket) a
    rw [count_messages, count_messages]
    simp only [Call.inHand] at hset
    simp only [System.goOn]
    omega

theorem Tables.store_addIndex (tables : Tables) (resendAt : ℤ) (fpacket : FPacket) :
    (tables.addIndex resendAt fpacket).store = tables.store := by
  unfold Tables.addIndex
  dsimp only
  split <;> rfl

theorem Tables.mem_addIndex {tables : Tables} {entry : (Jid × Jid) × ℤ × FPacket} :
    entry ∈ (tables.addIndex resendAt fpacket).index ↔
    entry ∈ tables.index ∨ entry = (getIndexKey fpacket, resendAt, fpacket) := by
  unfold Tables.addIndex
  dsimp only
  split
  · rename_i hin
    exact ⟨.inl, fun h => h.elim id fun h => h ▸ hin⟩
  · simp

/-- **`add_index/2`** is right exactly if the message is still there. -/
theorem Kept.indexing (hkept : Kept s) (hcall : s.calls[i]? = some (.indexing resendAt fpacket)) :
    Kept (Call.operation s i (.indexing resendAt fpacket)) ↔ s.Backed resendAt fpacket := by
  simp only [Call.operation]
  have hbacked : ∀ t f,
      ({ s with tables := s.tables.addIndex resendAt fpacket }.finish i).Backed t f ↔
        s.Backed t f := by
    intro t f
    simp only [System.finish, System.Backed, Tables.store_addIndex]
  constructor
  · intro hafter
    exact (hbacked _ _).1 (hafter.index _ _ _ (Tables.mem_addIndex.2 (.inr rfl)))
  · intro hthere
    refine ⟨perm_iff_count.2 fun a => ?_, fun key t f h => (hbacked t f).2 ?_⟩
    · have herase := count_eraseIdx hcall a
      have hbefore := perm_iff_count.1 hkept.once a
      rw [count_messages] at hbefore ⊢
      simp only [System.finish, Tables.store_addIndex]
      simp only [Call.inHand, count_nil] at herase
      omega
    · rcases Tables.mem_addIndex.1 h with h | h
      · exact hkept.index key t f h
      · cases h
        exact hthere

variable {targetHost : String}

/-- **`ets:take`** in the index. -/
theorem Kept.takingIndex (hkept : Kept s) {key : Jid × Jid}
    (hcall : s.calls[i]? = some (.takingIndex targetHost key)) :
    Kept (Call.operation s i (.takingIndex targetHost key)) := by
  refine hkept.keep (fun a => ?_) (fun _ _ _ _ => id) fun _ h => mem_of_mem_filter h
  have hset := count_set hcall (.takingStore targetHost (s.tables.takeIndex key).1 []) a
  rw [count_messages, count_messages]
  simp only [Call.inHand, count_nil] at hset
  simp only [Call.operation, System.goOn, Tables.takeIndex] at hset ⊢
  omega

variable {storedMessages : List FPacket}

/-- **`ets:take`** in the store, of a message that the index named, is right exactly if what is
there is this message, and the index does not have it again. -/
theorem Kept.takingStore (hkept : Kept s) (hshaped : Shaped s) {entries : List (ℤ × FPacket)}
    (hcall : s.calls[i]? =
    some (.takingStore targetHost ((resendAt, fpacket) :: entries) storedMessages)) :
    Kept (Call.operation s i
      (.takingStore targetHost ((resendAt, fpacket) :: entries) storedMessages)) ↔
    ∀ taken, s.tables.store.lookup resendAt = some taken → taken = fpacket ∧
        ((getIndexKey fpacket, resendAt, fpacket) ∈ s.tables.index →
          s.resender.Deletes resendAt fpacket) := by
  cases htaken : s.tables.store.lookup resendAt with
  | none =>
    refine iff_of_true ?_ fun _ h => nomatch h
    have hsame : s.tables.store.erase resendAt = s.tables.store :=
      AList.ext (kerase_of_notMem_keys (AList.lookup_eq_none.1 htaken))
    simp only [Call.operation, Tables.takeStore, htaken, hsame]
    refine hkept.keep (fun a => ?_) (fun _ _ _ _ => id) fun _ h => h
    have hset := count_set hcall (.takingStore targetHost entries storedMessages) a
    rw [count_messages, count_messages]
    simp only [Call.inHand] at hset
    simp only [System.goOn]
    omega
  | some taken =>
    simp only [Call.operation, Tables.takeStore, htaken, Option.some.injEq, forall_eq']
    -- the message that the index named is handed on, the one in the store is gone
    have hcount : ∀ a, ({ s with tables := { s.tables with
          store := s.tables.store.erase resendAt } }.goOn i
            (.takingStore targetHost entries (storedMessages ++ [fpacket]))).messages.count a
              + [taken].count a = s.messages.count a + [fpacket].count a := by
      intro a
      have hset := count_set hcall (.takingStore targetHost entries (storedMessages ++ [fpacket])) a
      have herase := count_erase htaken a
      rw [count_messages, count_messages]
      simp only [Call.inHand, count_append] at hset
      simp only [System.goOn]
      omega
    constructor
    · intro hafter
      obtain rfl : taken = fpacket := by
        have h := hcount taken
        have hbefore := perm_iff_count.1 hkept.once taken
        have hlater := perm_iff_count.1 hafter.once taken
        simp only [System.goOn] at hlater h
        by_contra hne
        simp only [count_singleton_self, count_singleton, beq_iff_eq, Ne.symm hne, if_false] at h
        omega
      refine ⟨rfl, fun hindex => ?_⟩
      rcases hafter.index _ _ _ hindex with hlookup | hdeletes
      · have hgone := (AList.lookup_erase resendAt s.tables.store).symm.trans hlookup
        cases hgone
      · exact hdeletes
    · rintro ⟨rfl, hdeleted⟩
      refine hkept.keep (fun a => ?_) (fun key t f hmem hbacked => ?_) fun _ h => h
      · have := hcount a
        simp only [System.goOn] at this ⊢
        omega
      · rcases hbacked with hlookup | hdeletes
        · by_cases ht : t = resendAt
          · subst ht
            cases (htaken.symm.trans hlookup)
            obtain rfl := hshaped key t taken hmem
            exact .inr (hdeleted hmem)
          · exact .inl ((AList.lookup_erase_ne ht).trans hlookup)
        · exact .inr hdeletes

/-- **`reroute_message/2`** hands a message on that the call has taken. -/
theorem Kept.rerouting (hkept : Kept s)
    (hcall : s.calls[i]? = some (.rerouting targetHost (fpacket :: storedMessages))) :
    Kept (Call.operation s i (.rerouting targetHost (fpacket :: storedMessages))) := by
  refine hkept.keep (fun a => ?_) (fun _ _ _ _ => id) fun _ h => h
  have hset := count_set hcall (.rerouting targetHost storedMessages) a
  rw [count_messages, count_messages]
  simp only [Call.inHand, count_cons] at hset
  simp only [Call.operation, System.goOn, map_append, count_append, map_cons,
    map_nil, count_cons, count_nil]
  omega

/-- **An operation of a call.** -/
theorem Kept.call (hkept : Kept s) (hshaped : Shaped s) {call : Call}
    (hcall : s.calls[i]? = some call) :
    Kept (call.operation s i) ↔ OperationOk s (.call i) := by
  simp only [OperationOk, hcall]
  match call, hcall with
  | .inserting _ _, hcall => exact iff_of_true (hkept.inserting hcall) trivial
  | .indexing _ _, hcall => exact hkept.indexing hcall
  | .takingIndex _ _, hcall => exact iff_of_true (hkept.takingIndex hcall) trivial
  | .takingStore _ ((_, _) :: _) _, hcall => exact hkept.takingStore hshaped hcall
  | .takingStore targetHost [] storedMessages, hcall =>
    refine iff_of_true (hkept.keep (fun a => ?_) (fun _ _ _ _ => id) fun _ h => h) trivial
    have hset := count_set hcall (.rerouting targetHost storedMessages) a
    rw [count_messages, count_messages]
    simp only [Call.inHand] at hset
    simp only [Call.operation, System.goOn]
    omega
  | .rerouting _ (_ :: _), hcall => exact iff_of_true (hkept.rerouting hcall) trivial
  | .rerouting _ [], hcall =>
    refine iff_of_true (hkept.keep (fun a => ?_) (fun _ _ _ _ => id) fun _ h => h) trivial
    have herase := count_eraseIdx hcall a
    rw [count_messages, count_messages]
    simp only [Call.inHand, count_nil] at herase
    simp only [Call.operation, System.finish]
    omega

/-- **An operation of the resending process** keeps the messages. -/
theorem Kept.resender (hkept : Kept s) (hshaped : Shaped s) {s' : System}
    (hstep : s.resender.operation s = some s') : Kept s' := by
  cases hresender : s.resender with
  | idle =>
    rw [hresender] at hstep
    cases hstep
  | looking now =>
    have hsame : ∀ resender : Resender, resender.inHand = [] →
        (∀ t f, ¬ resender.Deletes t f) → Kept { s with resender := resender } := by
      intro resender hhand hdeletes
      refine hkept.keep (fun a => ?_) (fun _ t f _ hbacked => ?_) fun _ h => h
      · have hlooking : (Resender.looking now).inHand = [] := rfl
        rw [count_messages, count_messages, hresender, hhand, hlooking]
      · rw [System.Backed, hresender] at hbacked
        exact hbacked.imp id False.elim
    simp only [hresender, Resender.operation] at hstep
    split at hstep
    · split at hstep
      · cases hstep
        exact hsame _ rfl fun _ _ => id
      · cases hstep
        exact hsame _ rfl fun _ _ => id
    · cases hstep
      exact hsame _ rfl fun _ _ => id
  | taking now key =>
    simp only [hresender, Resender.operation, Tables.takeStore] at hstep
    split at hstep
    · rename_i fpacket htaken
      cases hstep
      refine hkept.keep (fun a => ?_) (fun _ t f _ hbacked => ?_) fun _ h => h
      · have herase := count_erase htaken a
        rw [count_messages, count_messages, hresender]
        simp only [Resender.inHand, count_nil]
        omega
      · rw [System.Backed, hresender] at hbacked
        rcases hbacked with hlookup | hdeletes
        · by_cases ht : t = key
          · subst ht
            cases (htaken.symm.trans hlookup)
            exact .inr ⟨rfl, rfl⟩
          · exact .inl ((AList.lookup_erase_ne ht).trans hlookup)
        · exact absurd hdeletes id
    · rename_i htaken
      have hsame : s.tables.store.erase key = s.tables.store :=
        AList.ext (kerase_of_notMem_keys (AList.lookup_eq_none.1 htaken))
      cases hstep
      refine hkept.keep (fun a => ?_) (fun _ t f _ hbacked => ?_) fun _ h => h
      · rw [count_messages, count_messages, hresender]
        simp only [hsame, Resender.inHand]
      · rw [System.Backed, hresender] at hbacked
        rw [System.Backed, hsame]
        exact hbacked.imp id False.elim
  | deleting now key fpacket =>
    simp only [hresender, Resender.operation] at hstep
    cases hstep
    refine hkept.keep (fun a => ?_) (fun key' t f hmem hbacked => ?_) fun _ h => mem_of_mem_filter h
    · rw [count_messages, count_messages, hresender]
      simp only [Resender.inHand, Tables.deleteIndex]
    · rw [System.Backed, hresender] at hbacked
      obtain ⟨hmem, hother⟩ := mem_filter.1 hmem
      refine .inl (hbacked.resolve_right ?_)
      rintro ⟨rfl, rfl⟩
      obtain rfl := hshaped key' key fpacket hmem
      simp at hother
  | casting now fpacket =>
    simp only [hresender, Resender.operation] at hstep
    cases hstep
    refine hkept.keep (fun a => ?_) (fun _ t f _ hbacked => ?_) fun _ h => h
    · rw [count_messages, count_messages, hresender]
      simp only [Resender.inHand, count_append, count_nil]
      omega
    · rw [System.Backed, hresender] at hbacked
      exact hbacked.imp id False.elim

/-- The index is well formed if it only grows by entries of `add_index/2`. -/
theorem Shaped.of_subset {s' : System} (hshaped : Shaped s) (hsub : ∀ entry ∈ s'.tables.index,
    entry ∈ s.tables.index ∨ entry.1 = getIndexKey entry.2.2) : Shaped s' :=
  fun key t f hmem => (hsub _ hmem).elim (hshaped key t f) id

theorem Shaped.call (hshaped : Shaped s) (call : Call) : Shaped (call.operation s i) := by
  refine hshaped.of_subset fun entry hmem => ?_
  match call, hmem with
  | .inserting resendAt fpacket, hmem =>
    simp only [Call.operation, Tables.insertNew] at hmem
    split at hmem
    · rename_i hinsert
      split at hinsert
      · cases hinsert
      · cases hinsert
        exact .inl hmem
    · exact .inl hmem
  | .indexing resendAt fpacket, hmem =>
    rcases Tables.mem_addIndex.1 hmem with h | rfl
    · exact .inl h
    · exact .inr rfl
  | .takingIndex _ _, hmem => exact .inl (mem_of_mem_filter hmem)
  | .takingStore _ ((_, _) :: _) _, hmem => exact .inl hmem
  | .takingStore _ [] _, hmem => exact .inl hmem
  | .rerouting _ (_ :: _), hmem => exact .inl hmem
  | .rerouting _ [], hmem => exact .inl hmem

theorem Shaped.resender (hshaped : Shaped s) {s' : System}
    (hstep : s.resender.operation s = some s') : Shaped s' := by
  refine hshaped.of_subset fun entry hmem => .inl ?_
  cases hresender : s.resender with
  | idle =>
    rw [hresender] at hstep
    cases hstep
  | looking now =>
    simp only [hresender, Resender.operation] at hstep
    split at hstep
    · split at hstep <;> (cases hstep; exact hmem)
    · cases hstep
      exact hmem
  | taking now key =>
    simp only [hresender, Resender.operation, Tables.takeStore] at hstep
    split at hstep <;> (cases hstep; exact hmem)
  | deleting now key fpacket =>
    rw [hresender] at hstep
    cases hstep
    exact mem_of_mem_filter hmem
  | casting now fpacket =>
    rw [hresender] at hstep
    cases hstep
    exact hmem

variable {opts : Opts} {localHost : String} {resendAfter : ℕ}

/-- **A step of the storage.** -/
theorem Shaped.step (hshaped : Shaped s) {e : Event} {s' : System}
    (hstep : Bounce.step opts localHost resendAfter s e = some s') :
    Shaped s' ∧ (Kept s → (Kept s' ↔ OperationOk s e)) := by
  cases e with
  | maybeStoreMessage fpacket now =>
    simp only [Bounce.step] at hstep
    split at hstep
    · cases hstep
    · split at hstep
      · cases hstep
        refine ⟨hshaped, fun hkept => iff_of_true ?_ trivial⟩
        refine hkept.keep (fun a => ?_) (fun _ _ _ _ => id) fun _ h => h
        simp only [count_messages, flatMap_append, flatMap_cons, flatMap_nil,
          Call.inHand, append_nil]
      · cases hstep
        exact ⟨hshaped, fun hkept => iff_of_true hkept trivial⟩
  | rerouteMessages sender recipient targetHost =>
    cases hstep
    refine ⟨hshaped, fun hkept => iff_of_true ?_ trivial⟩
    refine hkept.keep (fun a => ?_) (fun _ _ _ _ => id) fun _ h => h
    simp only [count_messages, flatMap_append, flatMap_cons, flatMap_nil, Call.inHand, append_nil]
  | resend now =>
    simp only [Bounce.step] at hstep
    split at hstep
    · cases hstep
    · split at hstep
      · rename_i hresender
        cases hstep
        refine ⟨hshaped, fun hkept => iff_of_true ?_ trivial⟩
        refine hkept.keep (fun a => ?_) (fun _ t f _ hbacked => ?_) fun _ h => h
        · simp only [count_messages, hresender, Resender.inHand]
        · rw [System.Backed, hresender] at hbacked
          exact hbacked.imp id False.elim
      · cases hstep
  | call i =>
    obtain ⟨call, hcall, rfl⟩ := Option.map_eq_some_iff.1 hstep
    exact ⟨hshaped.call call, fun hkept => hkept.call hshaped hcall⟩
  | resender =>
    refine ⟨hshaped.resender hstep, fun hkept => ?_⟩
    exact iff_of_true (hkept.resender hshaped hstep) trivial

end

/-- **Bounced messages are kept once**, and the index names none that is handed on, exactly if every
operation of the run meets `OperationOk`; and none is stored on a host more than `max_retries`
times. -/
theorem bounced_messages_kept (opts : String → Opts) (host : String) (resendAfter : ℕ) (clock : ℤ)
    (es : List Event) :
    (Guarded (step (opts host) host resendAfter) OperationOk { clock := clock } es ↔
    ∀ h s, h <+: es → run (step (opts host) host resendAfter) { clock := clock } h = some s →
      Kept s) ∧
    ∀ (router : String) (sender recipient : Jid) (packet : Element)
    (journey : List GlobalDistrib.Event),
    storings opts host (start router sender recipient packet) journey ≤
      (opts host).maxRetries := by
  constructor
  · have hstart : Shaped { clock := clock } := fun _ _ _ h => nomatch h
    have hkept : Kept { clock := clock } := ⟨.refl _, fun _ _ _ h => nomatch h⟩
    rw [guarded_iff_holds_along_of_broken (P := fun _ s => Shaped s ∧ Kept s) ?_
      (fun _ s e s' hP hstep => by
        obtain ⟨hshaped, hiff⟩ := hP.1.step hstep
        rw [← hiff hP.2]
        exact ⟨And.right, fun h => ⟨hshaped, h⟩⟩) ⟨hstart, hkept⟩ es]
    · have hshaped : ∀ h s, run (step (opts host) host resendAfter) { clock := clock } h = some s →
          Shaped s := by
        intro h s hrun
        exact run_induction (P := fun _ s => Shaped s)
          (fun _ s e s' hs hstep => (hs.step hstep).1) hstart hrun
      constructor
      · intro hall h s hinit hrun
        exact (hall h s hinit hrun).2
      · intro hall h s hinit hrun
        exact ⟨hshaped h s hrun, hall h s hinit hrun⟩
    · -- only a call in progress can break the condition
      intro _ s e _ hbroken
      cases e with
      | call i =>
        cases hcall : s.calls[i]? with
        | some call => exact ⟨call.operation s i, by simp only [step, hcall, Option.map_some]⟩
        | none =>
          refine absurd ?_ hbroken
          simp only [OperationOk, hcall]
      | _ => exact absurd trivial hbroken
  · intro router sender recipient packet journey
    have hstart : GlobalDistrib.Shaped (start router sender recipient packet) :=
      ⟨WellMade.empty, fun _ _ h => nomatch h⟩
    have hretries : retries opts host (start router sender recipient packet).fpacket.acc =
        ((opts host).maxRetries : ℤ) := rfl
    have := storings_le hstart (by rw [hretries]; exact Int.natCast_nonneg _) journey
    rw [hretries] at this
    exact_mod_cast this

/-! ### A time stamp that is used again -/

/-- The options of `h1`. -/
def h1Opts : Opts where
  globalHost := "global"

/-- A message of Alice to Bob, before it is stored. -/
def fromAlice : FPacket :=
  ⟨⟨"alice", "global", ""⟩, ⟨"bob", "global", ""⟩, {}, .mk "message" [] [] ""⟩

/-- A message of Carol to Bob, before it is stored. -/
def fromCarol : FPacket :=
  ⟨⟨"carol", "global", ""⟩, ⟨"bob", "global", ""⟩, {}, .mk "message" [] [] ""⟩

/-- A message after it has been stored for the first time. -/
def onceStored (fpacket : FPacket) : FPacket :=
  { fpacket with acc := fpacket.acc.setPermanent (.bounceTtl "h1") (3 : ℤ) }

/-- Two messages come at one reading of the clock: Alice's is resent before it is put into the
index, and Carol's gets its time stamp. -/
def takenOverRun : List Event :=
  [.maybeStoreMessage fromAlice 0, .maybeStoreMessage fromCarol 0, .call 0,
    .resend 1, .resender, .resender, .resender, .resender, .resender,
    .call 1, .call 1, .call 0,
    .rerouteMessages ⟨"alice", "global", ""⟩ ⟨"bob", "global", ""⟩ "h2",
    .call 0, .call 0, .call 0, .call 0, .call 0]

/-- **Alice's message is handed on twice, and Carol's is lost.** -/
theorem bounced_message_lost : ∃ s, run (step h1Opts "h1" 0) {} takenOverRun = some s ∧
    s.calls = [] ∧ s.stored = [onceStored fromAlice, onceStored fromCarol] ∧
    s.tables.store.keys = [] ∧ s.resent = [onceStored fromAlice] ∧
    s.rerouted = [("h2", onceStored fromAlice)] ∧ ¬ Kept s := by
  refine ⟨_, rfl, rfl, rfl, rfl, rfl, rfl, fun hkept => ?_⟩
  have hcarol : onceStored fromCarol ∈ [onceStored fromAlice, onceStored fromAlice] :=
    hkept.once.mem_iff.2 (mem_cons_of_mem _ mem_cons_self)
  simp [onceStored, fromAlice, fromCarol] at hcarol

end MongooseIM.GlobalDistrib.Bounce
