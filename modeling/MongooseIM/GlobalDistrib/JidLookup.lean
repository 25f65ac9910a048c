import MongooseIM.Erlang.Maps
import MongooseIM.GlobalDistrib.Mapping

/-! # Looking up the host of a JID

`mod_global_distrib_mapping` keeps what it knows of the sessions in a cache. A full JID that has no
host falls back to its bare JID; both lookups go through the same cache. -/

namespace MongooseIM.GlobalDistrib.Mapping

open Erlang Xmpp

/-- What `?JID_TAB` has: a host, or none for `error`. -/
abbrev JidTab := AList fun _ : Jid => Option Host

/-- `ets_cache:lookup/3`; none for `error`. -/
def etsLookup (cacheMissed : Bool) (tab : JidTab) (key : Jid) (found : Option Host) :
    Option Host × JidTab :=
  match tab.lookup key with
  | some value => (value, tab)
  | none =>
    match found with
    | some host => (some host, tab.insert key (some host))
    | none => (none, if cacheMissed then tab.insert key none else tab)

variable {cacheMissed : Bool} {tab : JidTab} {key : Jid}

theorem etsLookup_cached {value : Option Host}
    (h : tab.lookup key = some value) (found : Option Host) :
    etsLookup cacheMissed tab key found = (value, tab) := by
  unfold etsLookup
  simp only [h]

theorem etsLookup_found (h : tab.lookup key = none) (host : Host) :
    etsLookup cacheMissed tab key (some host) = (some host, tab.insert key (some host)) := by
  unfold etsLookup
  simp only [h]

theorem etsLookup_missed (h : tab.lookup key = none) : etsLookup cacheMissed tab key none =
    (none, if cacheMissed then tab.insert key none else tab) := by
  unfold etsLookup
  simp only [h]

/-- `ets_cache:update/4`: the table, and whether the host is written to the backend. -/
def etsUpdate (tab : JidTab) (key : Jid) (host : Host) : JidTab × Bool :=
  if tab.lookup key = some (some host) then (tab, false) else (tab.insert key (some host), true)

/-- `do_lookup_jid/1`; the second lookup has the key of the first. -/
def doLookupJid (cacheMissed : Bool) (mapping : Jid → Option Host) (tab : JidTab) (jid : Jid) :
    Option Host × JidTab :=
  match etsLookup cacheMissed tab jid (mapping jid) with
  | (some host, tab) => (some host, tab)
  | (none, tab) =>
    if jid.toBare = jid then (none, tab)
    else etsLookup cacheMissed tab jid (mapping jid.toBare)

/-- What the module is started with. -/
structure CacheConfig where
  cacheMissed : Bool
  localHost : Host
  globalHost : String

/-- What the backend maps, and what is cached. -/
structure Sessions where
  mapping : Jid → Option Host
  tab : JidTab := ∅

namespace Sessions

/-- `do_insert_for_jid/3` for one key -/
def insertKey (put : Bool) (host : Host) (s : Sessions) (key : Jid) : Sessions :=
  let (tab, called) := etsUpdate s.tab key host
  { tab
    mapping := if called && put then Function.update s.mapping key (some host) else s.mapping }

/-- `delete_for_jid/1` for one key -/
def deleteKey (localHost : Host) (s : Sessions) (key : Jid) : Sessions where
  tab := s.tab.erase key
  mapping :=
    if s.mapping key = some localHost then Function.update s.mapping key none else s.mapping

/-- What can happen. -/
inductive Happening
  | forJid (jid : Jid)
  | insertForJid (jid : Jid)
  | cacheJid (jid : Jid) (host : Host)
  | deleteForJid (jid : Jid)
  | clearCache (jid : Jid)
  /-- The life time of an entry is over, or there are too many entries. -/
  | expire (key : Jid)
  | others (mapping : Jid → Option Host)

/-- What it does. -/
def step (c : CacheConfig) (s : Sessions) : Happening → Sessions
  | .forJid jid => { s with tab := (doLookupJid c.cacheMissed s.mapping s.tab jid).2 }
  | .insertForJid jid => (normalizeJid jid).foldl (insertKey true c.localHost) s
  | .cacheJid jid host => (normalizeJid jid).foldl (insertKey false host) s
  | .deleteForJid jid => (normalizeJid jid).foldl (deleteKey c.localHost) s
  | .clearCache jid =>
    if jid.lserver = c.globalHost then
      { s with tab := (normalizeJid jid).foldl (fun tab key => tab.erase key) s.tab }
    else s
  | .expire key => { s with tab := s.tab.erase key }
  | .others mapping => { s with mapping }

/-- A node that was started with a mapping and saw some happenings. -/
def after (c : CacheConfig) (mapping : Jid → Option Host) (happenings : List Happening) :
    Sessions :=
  happenings.foldl (step c) { mapping }

/-- No lookup has left an error. -/
def NoErrors (tab : JidTab) : Prop := ∀ key, tab.lookup key ≠ some none

variable {tab : JidTab}

section

variable (h : NoErrors tab) (key : Jid)

include h

theorem NoErrors.insert (host : Host) : NoErrors (tab.insert key (some host)) := by
  intro key'
  rw [lookup_insert]
  split
  · exact fun heq => Option.some_ne_none _ (Option.some.inj heq)
  · exact h key'

theorem NoErrors.erase : NoErrors (tab.erase key) := by
  intro key'
  rw [lookup_erase]
  split
  · exact (Option.some_ne_none _).symm
  · exact h key'

theorem NoErrors.etsLookup (found : Option Host) : NoErrors (etsLookup false tab key found).2 := by
  unfold Mapping.etsLookup
  cases tab.lookup key with
  | some value => exact h
  | none =>
    cases found with
    | none => exact h
    | some host => exact h.insert key host

end

theorem NoErrors.doLookupJid (h : NoErrors tab) (mapping : Jid → Option Host)
    (jid : Jid) : NoErrors (doLookupJid false mapping tab jid).2 := by
  have hfirst := h.etsLookup jid (mapping jid)
  unfold Mapping.doLookupJid
  cases heq : Mapping.etsLookup false tab jid (mapping jid) with
  | mk found new =>
    rw [heq] at hfirst
    cases found with
    | some host => exact hfirst
    | none =>
      dsimp only
      split
      · exact hfirst
      · exact hfirst.etsLookup jid _

theorem NoErrors.insertKey {s : Sessions} (h : NoErrors s.tab) (put : Bool) (host : Host)
    (key : Jid) : NoErrors (s.insertKey put host key).tab := by
  show NoErrors (etsUpdate s.tab key host).1
  unfold etsUpdate
  split
  · exact h
  · exact h.insert key host

theorem noErrors_foldl {f : Sessions → Jid → Sessions}
    (hf : ∀ s key, NoErrors s.tab → NoErrors (f s key).tab) (keys : List Jid) {s : Sessions}
    (h : NoErrors s.tab) : NoErrors (keys.foldl f s).tab := by
  induction keys generalizing s with
  | nil => exact h
  | cons key keys ih => exact ih (hf s key h)

/-- Without `cache_missed` nothing leaves an error. -/
theorem NoErrors.step {c : CacheConfig} {s : Sessions} (hc : c.cacheMissed = false)
    (h : NoErrors s.tab) (happening : Happening) : NoErrors (s.step c happening).tab := by
  cases happening with
  | forJid jid =>
    show NoErrors (Mapping.doLookupJid c.cacheMissed s.mapping s.tab jid).2
    rw [hc]
    exact h.doLookupJid s.mapping jid
  | insertForJid jid => exact noErrors_foldl (fun s key h => h.insertKey true _ key) _ h
  | cacheJid jid host => exact noErrors_foldl (fun s key h => h.insertKey false _ key) _ h
  | deleteForJid jid => exact noErrors_foldl (fun s key h => h.erase key) _ h
  | clearCache jid =>
    unfold Sessions.step
    dsimp only
    split
    · generalize normalizeJid jid = keys
      show NoErrors (keys.foldl (fun tab key => tab.erase key) s.tab)
      generalize s.tab = tab at h
      induction keys generalizing tab with
      | nil => exact h
      | cons key keys ih => exact ih _ (h.erase key)
    · exact h
  | expire key => exact h.erase key
  | others mapping => exact h

theorem noErrors_after {c : CacheConfig} (hc : c.cacheMissed = false)
    (mapping : Jid → Option Host) (happenings : List Happening) :
    NoErrors (after c mapping happenings).tab := by
  unfold after
  have hstart : NoErrors ({ mapping } : Sessions).tab := fun key => by simp
  generalize ({ mapping } : Sessions) = s at hstart
  induction happenings generalizing s with
  | nil => exact hstart
  | cons happening happenings ih => exact ih _ (hstart.step hc happening)

end Sessions

/-- The host of a JID: that of its own entry, otherwise that of its bare JID. -/
def hostOf (mapping : Jid → Option Host) (jid : Jid) : Option Host :=
  match mapping jid with
  | some host => some host
  | none => mapping jid.toBare

/-- What is cached still is so: a host is the host of the JID, and a JID with an error has no
entry. -/
def NoOutdated (s : Sessions) : Prop :=
  ∀ key value, s.tab.lookup key = some value →
    match value with
    | some host => hostOf s.mapping key = some host
    | none => s.mapping key = none

variable {mapping : Jid → Option Host} {jid : Jid} {host : Host}

theorem hostOf_of_some (h : mapping jid = some host) : hostOf mapping jid = some host := by
  rw [hostOf, h]

theorem hostOf_of_none (h : mapping jid = none) : hostOf mapping jid = mapping jid.toBare := by
  rw [hostOf, h]

theorem doLookupJid_cached (h : tab.lookup jid = some (some host)) :
    (doLookupJid cacheMissed mapping tab jid).1 = some host := by
  rw [doLookupJid, etsLookup_cached h]

/-- An error in the cache is found by both lookups. -/
theorem doLookupJid_error (h : tab.lookup jid = some none) :
    (doLookupJid cacheMissed mapping tab jid).1 = none := by
  rw [doLookupJid, etsLookup_cached h]
  dsimp only
  split
  · rfl
  · rw [etsLookup_cached h]

/-- A host that is not cached is read from the backend. -/
theorem doLookupJid_found (h : tab.lookup jid = none) (hhost : mapping jid = some host) :
    (doLookupJid cacheMissed mapping tab jid).1 = some host := by
  rw [doLookupJid, hhost, etsLookup_found h]

/-- Without `cache_missed` the second lookup reads the bare JID from the backend. -/
theorem doLookupJid_bare (h : tab.lookup jid = none) (hhost : mapping jid = none) :
    (doLookupJid false mapping tab jid).1 = mapping jid.toBare := by
  rw [doLookupJid, hhost, etsLookup_missed h]
  dsimp only
  split
  · next hbare => rw [hbare, hhost]
  · cases mapping jid.toBare with
    | none => exact congrArg Prod.fst (etsLookup_missed h)
    | some host => exact congrArg Prod.fst (etsLookup_found h host)

/-- With `cache_missed` the second lookup finds the error that the first one left. -/
theorem doLookupJid_missed (h : tab.lookup jid = none) (hhost : mapping jid = none) :
    (doLookupJid true mapping tab jid).1 = none := by
  rw [doLookupJid, hhost, etsLookup_missed h]
  dsimp only
  split
  · rfl
  · exact congrArg Prod.fst (etsLookup_cached (AList.lookup_insert _) _)

/-- A lookup finds the host of the JID exactly when errors are not cached, the JID has an entry or
its bare JID has none, or a host is cached for it. -/
theorem forJid_iff (c : CacheConfig) (mapping : Jid → Option Host)
    (happenings : List Sessions.Happening) (jid : Jid)
    (hfresh : NoOutdated (Sessions.after c mapping happenings)) :
    (doLookupJid c.cacheMissed (Sessions.after c mapping happenings).mapping
      (Sessions.after c mapping happenings).tab jid).1 =
    hostOf (Sessions.after c mapping happenings).mapping jid ↔
    c.cacheMissed = false ∨ (Sessions.after c mapping happenings).mapping jid ≠ none ∨
    (Sessions.after c mapping happenings).mapping jid.toBare = none ∨
    ∃ host, (Sessions.after c mapping happenings).tab.lookup jid = some (some host) := by
  have herrors := fun hc => Sessions.noErrors_after (c := c) hc mapping happenings
  generalize Sessions.after c mapping happenings = s at hfresh herrors
  cases hcached : s.tab.lookup jid with
  | some value =>
    have hvalue := hfresh jid value hcached
    cases value with
    | some host =>
      rw [doLookupJid_cached hcached]
      exact ⟨fun _ => Or.inr (Or.inr (Or.inr ⟨host, rfl⟩)), fun _ => hvalue.symm⟩
    | none =>
      -- so errors are cached
      have hmissed : c.cacheMissed ≠ false := fun hc => herrors hc jid hcached
      dsimp only at hvalue
      rw [doLookupJid_error hcached, hostOf_of_none hvalue]
      constructor
      · exact fun hbare => Or.inr (Or.inr (Or.inl hbare.symm))
      · rintro (hc | hfull | hbare | ⟨host, hhost⟩)
        · exact absurd hc hmissed
        · exact absurd hvalue hfull
        · exact hbare.symm
        · cases hhost
  | none =>
    cases hhost : s.mapping jid with
    | some host =>
      -- the first lookup reads the entry, and there is no second one
      rw [doLookupJid_found hcached hhost, hostOf_of_some hhost]
      exact ⟨fun _ => Or.inr (Or.inl (Option.some_ne_none host)), fun _ => rfl⟩
    | none =>
      rw [hostOf_of_none hhost]
      -- the second lookup is for the same key, so it matters whether the first one left an error
      cases hc : c.cacheMissed with
      | false =>
        rw [doLookupJid_bare hcached hhost]
        exact ⟨fun _ => Or.inl rfl, fun _ => rfl⟩
      | true =>
        rw [doLookupJid_missed hcached hhost]
        constructor
        · exact fun hbare => Or.inr (Or.inr (Or.inl hbare.symm))
        · rintro (hc | hfull | hbare | ⟨host, hhost⟩)
          · cases hc
          · exact absurd rfl hfull
          · exact hbare.symm
          · cases hhost

/-- A user on another host. -/
def alice : Jid := ⟨"alice", "localhost", "tablet"⟩

/-- Her bare JID is mapped. -/
def aliceMapping (jid : Jid) : Option Host := if jid = alice.toBare then some "europe" else none

/-- A node with or without `cache_missed`. -/
def asia (cacheMissed : Bool) : CacheConfig := ⟨cacheMissed, "asia", "localhost"⟩

/-- Her host was looked up before, and found. -/
theorem forJid_alice :
    (doLookupJid false (Sessions.after (asia false) aliceMapping [.forJid alice]).mapping
      (Sessions.after (asia false) aliceMapping [.forJid alice]).tab alice).1 =
    hostOf (Sessions.after (asia false) aliceMapping [.forJid alice]).mapping alice :=
  (forJid_iff (asia false) aliceMapping [.forJid alice] alice (by
    have htab : (Sessions.after (asia false) aliceMapping [.forJid alice]).tab =
        (∅ : JidTab).insert alice (some "europe") := AList.ext (by decide)
    intro key value hvalue
    rw [htab, lookup_insert] at hvalue
    split at hvalue
    · next heq =>
      cases hvalue
      rw [heq]
      decide
    · simp at hvalue)).2 (Or.inl rfl)

/-- With `cache_missed` her bare JID is not found. -/
theorem forJid_alice_missed : NoOutdated (Sessions.after (asia true) aliceMapping []) ∧
    (doLookupJid true (Sessions.after (asia true) aliceMapping []).mapping
      (Sessions.after (asia true) aliceMapping []).tab alice).1 = none ∧
    hostOf (Sessions.after (asia true) aliceMapping []).mapping alice = some "europe" := by
  refine ⟨fun key value hvalue => ?_, by decide, by decide⟩
  have hempty : (∅ : JidTab).lookup key = some value := hvalue
  simp at hempty

end MongooseIM.GlobalDistrib.Mapping
