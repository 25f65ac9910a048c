import MongooseIM.Muc.RoomProcess
import MongooseIM.Relational.Index

/-! # Occupants and the sessions of their nicks

`sessions` is to be the index of `users` by nick, and a nick is to belong to one account. -/

namespace MongooseIM.Muc

open Erlang Xmpp Index Transition Option

namespace Room

/-- Occupants and sessions agree, and the sessions of a nick are those of one account. -/
structure Consistent (r : Room) : Prop where
  index : IsIndex User.nick r.users r.sessions
  bare : ∀ j u j' u', r.users.lookup j = some u → r.users.lookup j' = some u' →
    u.nick = u'.nick → j.toBare = j'.toBare

theorem findJidsByNick_eq (nick : Nick) (r : Room) :
    r.findJidsByNick nick = keysOf r.sessions nick := by
  rw [findJidsByNick, keysOf]
  cases r.sessions.lookup nick <;> rfl

variable {nick : Nick}

theorem isLastSession_iff {r : Room} :
    isLastSession nick r ↔ ∃ j, r.sessions.lookup nick = some [j] := by
  rw [isLastSession]
  split
  · rename_i j hj
    exact iff_of_true rfl ⟨j, hj⟩
  · rename_i hne
    exact iff_of_false nofun fun ⟨j, hj⟩ => hne j hj

namespace Consistent

variable {r r' : Room}

theorem congr (h : Consistent r) (husers : r'.users = r.users)
    (hsessions : r'.sessions = r.sessions) : Consistent r' := by
  obtain ⟨hindex, hbare⟩ := h
  rw [← husers] at hindex hbare
  rw [← hsessions] at hindex
  exact ⟨hindex, hbare⟩

theorem update (h : Consistent r) {g : Jid → User → User} (hsessions : r'.sessions = r.sessions)
    (husers : ∀ j, r'.users.lookup j = (r.users.lookup j).map (g j))
    (hnick : ∀ j u, (g j u).nick = u.nick) : Consistent r' := by
  have hold : ∀ j u', r'.users.lookup j = some u' →
      ∃ u, r.users.lookup j = some u ∧ u'.nick = u.nick := by
    intro j u' hu'
    rw [husers, map_eq_some_iff] at hu'
    obtain ⟨u, hu, rfl⟩ := hu'
    exact ⟨u, hu, hnick j u⟩
  constructor
  · rw [hsessions]
    refine h.index.update fun j => ?_
    rw [husers, map_map]
    congr 1
    funext u
    exact hnick j u
  · intro j u' j' v' hu' hv' hsame
    obtain ⟨u, hu, hn⟩ := hold j u' hu'
    obtain ⟨v, hv, hn'⟩ := hold j' v' hv'
    exact h.bare j u j' v hu hv (by rw [← hn, ← hn', hsame])

open Classical in
/-- Occupants go, with the nicks they had; a nick that loses one session loses all. -/
theorem eraseAll (h : Consistent r) (gone : Jid → Prop)
    (hclosed : ∀ j u j' u', r.users.lookup j = some u → r.users.lookup j' = some u' →
    u.nick = u'.nick → gone j → gone j')
    (husers : ∀ j, r'.users.lookup j = if gone j then none else r.users.lookup j)
    (hsessions : ∀ nick, r'.sessions.lookup nick =
    if ∃ j u, r.users.lookup j = some u ∧ gone j ∧ u.nick = nick then none
    else r.sessions.lookup nick) : Consistent r' := by
  have hold : ∀ j u, r'.users.lookup j = some u → r.users.lookup j = some u := by
    intro j u hu
    rw [husers] at hu
    split at hu
    · cases hu
    · exact hu
  exact ⟨h.index.eraseAll gone hclosed husers hsessions,
    fun j u j' u' hu hu' => h.bare j u j' u' (hold j u hu) (hold j' u' hu')⟩

variable {jid : Jid} {nick : Nick}

/-- **A session joins** that is not in the room, under a free nick or one of the same account. -/
theorem addOnlineUser (h : Consistent r) (role : Role) (hoffline : r.users.lookup jid = none)
    (hnick : ∀ j ∈ r.findJidsByNick nick, j.toBare = jid.toBare) :
    Consistent (addOnlineUser jid nick role r) := by
  have hsame : ∀ j u, r.users.lookup j = some u → u.nick = nick → j.toBare = jid.toBare := by
    intro j u hu hn
    refine hnick j ?_
    rw [findJidsByNick_eq, h.index.mem]
    exact ⟨u, hu, hn⟩
  constructor
  · have := h.index.insert ⟨jid, nick, role⟩ hoffline
    rwa [← findJidsByNick_eq] at this
  · intro j u j' u' hu hu' hn
    change (r.users.insert jid ⟨jid, nick, role⟩).lookup j = some u at hu
    change (r.users.insert jid ⟨jid, nick, role⟩).lookup j' = some u' at hu'
    rw [lookup_insert] at hu hu'
    split at hu
    · rename_i hj
      cases hu
      split at hu'
      · rename_i hj'
        rw [hj, hj']
      · rw [hj]
        exact (hsame j' u' hu' hn.symm).symm
    · split at hu'
      · rename_i hj'
        cases hu'
        rw [hj']
        exact hsame j u hu hn
      · exact h.bare j u j' u' hu hu' hn

variable {user : User}

section

variable (h : Consistent r)

include h

/-- **A session leaves**, and the handler finds what it looks for. -/
theorem removeOnlineUser (hjid : r.users.lookup jid = some user) :
    ∃ r', removeOnlineUser jid r = some r' ∧ Consistent r' ∧ r'.users = r.users.erase jid := by
  obtain ⟨jids, hjids, hmem⟩ := h.index.exists_keys hjid
  have hrest : ∀ sessions, IsIndex User.nick (r.users.erase jid) sessions →
      Consistent { r with users := r.users.erase jid, sessions := sessions } := by
    intro sessions hindex
    have hold : ∀ j u, (r.users.erase jid).lookup j = some u → r.users.lookup j = some u := by
      intro j u hu
      rw [lookup_erase] at hu
      split at hu
      · cases hu
      · exact hu
    exact ⟨hindex, fun j u j' u' hu hu' => h.bare j u j' u' (hold j u hu) (hold j' u' hu')⟩
  by_cases hlast : isLastSession user.nick r
  · obtain ⟨j, hj⟩ := isLastSession_iff.1 hlast
    cases (hjids.symm.trans hj)
    obtain rfl := List.mem_singleton.1 hmem
    refine ⟨_, ?_, hrest _ (h.index.eraseOnly hjid hj), rfl⟩
    rw [Room.removeOnlineUser, hjid]
    simp [hlast]
  · have hne : jids ≠ [jid] := by
      rintro rfl
      exact hlast (isLastSession_iff.2 ⟨jid, hjids⟩)
    refine ⟨_, ?_, hrest _ (h.index.erase hjid hjids hne), rfl⟩
    rw [Room.removeOnlineUser, hjid]
    simp [hlast, hjids]

theorem changeNick_eq_some (nick : Nick)
    (hjid : r.users.lookup jid = some user) : ∃ r', Room.changeNick jid nick r = some r' := by
  obtain ⟨jids, hjids, -⟩ := h.index.exists_keys hjid
  rw [Room.changeNick, hjid]
  simp [hjids]

/-- **A nick changes** that had one session. -/
theorem changeNick (hjid : r.users.lookup jid = some user) (hlast : isLastSession user.nick r)
    (hfree : r.sessions.lookup nick = none) :
    ∃ r', changeNick jid nick r = some r' ∧ Consistent r' := by
  obtain ⟨j, hj⟩ := isLastSession_iff.1 hlast
  obtain ⟨jids, hjids, hmem⟩ := h.index.exists_keys hjid
  cases (hjids.symm.trans hj)
  obtain rfl := List.mem_singleton.1 hmem
  -- nobody has the new nick
  have hnobody : ∀ j' u', r.users.lookup j' = some u' → u'.nick ≠ nick := by
    rintro j' u' hu' rfl
    obtain ⟨_, hsome, -⟩ := h.index.exists_keys hu'
    rw [hfree] at hsome
    cases hsome
  have hchange : Room.changeNick jid nick r = some { r with
      users := r.users.insert jid { user with nick := nick }
      sessions := (r.sessions.insert nick [jid]).erase user.nick } := by
    rw [Room.changeNick, hjid]
    simp [hj]
  refine ⟨_, hchange, ?_, ?_⟩
  · exact h.index.move { user with nick := nick } hjid hj hfree
  · intro j₁ u₁ j₂ u₂ hu₁ hu₂ hn
    change (r.users.insert jid { user with nick := nick }).lookup j₁ = some u₁ at hu₁
    change (r.users.insert jid { user with nick := nick }).lookup j₂ = some u₂ at hu₂
    rw [lookup_insert] at hu₁ hu₂
    split at hu₁
    · rename_i hj₁
      cases hu₁
      split at hu₂
      · rename_i hj₂
        rw [hj₁, hj₂]
      · exact absurd hn.symm (hnobody j₂ u₂ hu₂)
    · split at hu₂
      · cases hu₂
        exact absurd hn (hnobody j₁ u₁ hu₁)
      · exact h.bare j₁ u₁ j₂ u₂ hu₁ hu₂ hn

/-- **Sessions taken out by a JID**: all of the account, or one that is alone under its nick. -/
theorem eraseMatchedUsers (herase : eraseMatchedUsers jid r = some r')
    (hlast : jid.lresource ≠ "" → ∀ u ∈ r.users.lookup jid, isLastSession u.nick r) :
    Consistent r' := by
  obtain ⟨users, sessions, rfl, husers, hsessions⟩ := eraseMatchedUsers_eq_some herase
  refine h.eraseAll (fun j => matched jid j) ?_ (fun j => by convert husers j) hsessions
  intro j u j' u' hu hu' hn hm
  by_cases hresource : jid.lresource = ""
  · rw [matched_bare hresource] at hm ⊢
    rw [← h.bare j u j' u' hu hu' hn, hm]
  · -- the other session is on the same list of one
    rw [matched_full hresource] at hm ⊢
    subst hm
    obtain ⟨i, hi⟩ := isLastSession_iff.1 (hlast hresource u hu)
    obtain ⟨is, his, hmem⟩ := h.index.exists_keys hu
    obtain ⟨is', his', hmem'⟩ := h.index.exists_keys hu'
    rw [← hn, his, some.injEq] at his'
    rw [hi, some.injEq] at his
    rw [← his', ← his] at hmem'
    rw [← his] at hmem
    rw [List.mem_singleton.1 hmem', List.mem_singleton.1 hmem]

/-- A change of role, and what it asks for where it takes somebody out. -/
theorem setRole {role : Role} (hset : setRole jid role r = some r')
    (hlast : role = .none → jid.lresource ≠ "" →
    ∀ u ∈ r.users.lookup jid, isLastSession u.nick r) : Consistent r' := by
  cases role with
  | none => exact h.eraseMatchedUsers hset (hlast rfl)
  | moderator | participant | visitor =>
    cases hset
    refine h.update rfl (lookup_updateMatchedUsers _ jid r) fun j u => ?_
    split <;> rfl

/-- The notice of a departure finds all sessions of the nick. -/
theorem sendNewPresenceUn
    (hjid : r.users.lookup jid = some user) : (sendNewPresenceUn jid r).isSome := by
  rw [Room.sendNewPresenceUn, hjid]
  obtain ⟨jids, hjids, -⟩ := h.index.exists_keys hjid
  have hall : ∀ j ∈ jids, (r.users.lookup j).isSome := by
    intro j hj
    obtain ⟨u, hu, -⟩ := h.index.exists_value hjids hj
    rw [hu]
    rfl
  have hmapM : ∀ l : List Jid, (∀ j ∈ l, (r.users.lookup j).isSome) →
      (l.mapM fun j => r.users.lookup j).isSome := by
    intro l
    induction l with
    | nil => simp
    | cons j l ih =>
      intro hl
      obtain ⟨hj, hl'⟩ := List.forall_mem_cons.1 hl
      obtain ⟨u, hu⟩ := isSome_iff_exists.1 hj
      obtain ⟨us, hus⟩ := isSome_iff_exists.1 (ih hl')
      simp [List.mapM_cons, hu, hus]
  simp only [bind_eq_bind, bind_some]
  split
  · rfl
  · rw [hjids]
    exact hmapM jids hall

/-- **A departure** goes through. -/
theorem expulseParticipant (honline : r.isUserOnline jid) :
    ∃ r', expulseParticipant jid r = some r' ∧ Consistent r' := by
  obtain ⟨user, hjid⟩ := isSome_iff_exists.1 honline
  let r₁ : Room := { r with users := r.users.insert jid { user with role := .none } }
  have hlookup : r₁.users.lookup jid = some { user with role := .none } := by
    rw [lookup_insert, if_pos rfl]
  have h₁ : Consistent r₁ := by
    refine h.update (g := fun j u => if j = jid then { u with role := .none } else u) rfl
      (fun j => ?_) fun j u => ?_
    · rw [lookup_insert]
      split
      · rename_i hj
        rw [hj, hjid]
        simp
      · simp
    · split <;> rfl
  obtain ⟨receivers, hreceivers⟩ := isSome_iff_exists.1 (h₁.sendNewPresenceUn hlookup)
  obtain ⟨r', hremove, h', -⟩ := h₁.removeOnlineUser hlookup
  refine ⟨r', ?_, h'⟩
  have hun : addUserPresenceUn jid r = some r₁ := by
    rw [addUserPresenceUn, hjid]
    rfl
  rw [Room.expulseParticipant, hun]
  simp [hreceivers, hremove]

end

end Consistent

/-! ## Admin requests and configuration -/

/-- A change that takes out one session takes out the only one of its nick. -/
def KicksWhole (r : Room) (changed : ChangedItem) : Prop :=
  changed.asked = .role .none → changed.jid.lresource ≠ "" →
    ∀ u ∈ r.users.lookup changed.jid, isLastSession u.nick r

instance (r : Room) (changed : ChangedItem) : Decidable (KicksWhole r changed) :=
  inferInstanceAs (Decidable (_ → _ → _))

/-- **An admin item is applied.** -/
theorem Consistent.processAdminItemSet {r : Room} (h : Consistent r) {changed : ChangedItem}
    (hwf : changed.WellFormed) (hkick : KicksWhole r changed) :
    Consistent (processAdminItemSet changed r) := by
  obtain ⟨affs, heq⟩ | ⟨role, affs, affs', r₁, hset, heq, hasked⟩ :=
    processAdminItemSet_cases changed r
  · rw [heq]
    exact h.congr rfl rfl
  · have hstart : Consistent { r with affiliations := affs } := h.congr rfl rfl
    have h₁ : Consistent r₁ := by
      refine hstart.setRole hset fun hnone hfull => ?_
      cases hitem : changed.asked with
      | role role' =>
        refine hkick ?_ hfull
        rw [hitem, hasked role' hitem, hnone]
      | affiliation affiliation => exact absurd (hwf affiliation hitem) hfull
    rw [heq]
    exact h₁.congr rfl rfl

/-- **Those without an affiliation go** where they go with all sessions of their nicks. -/
theorem Consistent.removeNonmembers {r r' : Room} (h : Consistent r) (hkeyed : r.Keyed)
    (hremove : removeNonmembers r = some r')
    (hnicks : ∀ e ∈ r.users.entries, ∀ e' ∈ r.users.entries, e.2.nick = e'.2.nick →
    r.getAffiliation e.2.jid = .none → r.getAffiliation e'.2.jid = .none) :
    Consistent r' := by
  obtain ⟨husers, hsessions, -⟩ := foldlM_removeNonmember hremove
  refine h.eraseAll (GoesWith r r.users.entries) ?_ husers hsessions
  rintro j u j' u' hu hu' hn ⟨e, he, hnone, hm⟩
  by_cases hresource : e.2.jid.lresource = ""
  · refine ⟨e, he, hnone, ?_⟩
    rw [matched_bare hresource] at hm ⊢
    rw [← h.bare j u j' u' hu hu' hn, hm]
  · -- the other session is without an affiliation as well
    rw [matched_full hresource] at hm
    subst hm
    have heu : e.2 = u := by
      have hlookup := AList.mem_lookup_iff.2 he
      rw [← hkeyed e.1 e.2 (AList.mem_lookup_iff.2 he), hu, mem_some_iff] at hlookup
      exact hlookup.symm
    refine ⟨⟨j', u'⟩, AList.mem_lookup_iff.1 hu', ?_, ?_⟩
    · exact hnicks e he ⟨j', u'⟩ (AList.mem_lookup_iff.1 hu') (by rw [heu, hn]) hnone
    · rw [hkeyed j' u' hu']
      exact matched_self j'

/-! ## Events -/

/-- The presence changes the nick of an occupant. -/
def ChangesNick (env : Environment) (fromJid : Jid) (nick : Nick) (packet : Element) (r : Room) :
    Prop :=
  (packet.attr? "type").getD "" = "" ∧ isNewNickOfOnlineUser fromJid nick r = some true ∧
    chooseNickChangeStrategy env fromJid nick r = .allowed

instance (env : Environment) (fromJid : Jid) (nick : Nick) (packet : Element) (r : Room) :
    Decidable (ChangesNick env fromJid nick packet r) :=
  inferInstanceAs (Decidable (_ ∧ _ ∧ _))

variable {fromJid : Jid}

theorem lookup_sessions_of_allowed {env : Environment} {r : Room}
    (h : chooseNickChangeStrategy env fromJid nick r = .allowed) :
    r.sessions.lookup nick = none := by
  cases hexists : isNickExists nick r with
  | false => simpa [isNickExists] using hexists
  | true =>
    rw [chooseNickChangeStrategy, hexists] at h
    split at h <;> simp_all

/-- A join that waited for the HTTP service would still be let in under its nick. -/
def StillJoins (request : AuthRequest) (r : Room) : Prop :=
  r.isUserOnline request.fromJid = false ∧
    ∀ j ∈ r.findJidsByNick request.nick, j.toBare = request.fromJid.toBare

instance (request : AuthRequest) (r : Room) : Decidable (StillJoins request r) :=
  inferInstanceAs (Decidable (_ ∧ _))

section

variable {r : Room} (h : Consistent r)

include h

/-- Where the nick of a join is free, or the join is the next session of an occupant, the sessions
of the nick are those of the account that joins. -/
theorem Consistent.toBare_of_admits
    (hadmits : isNickExists nick r → isNextSessionOfOccupant fromJid nick r) :
    ∀ j ∈ r.findJidsByNick nick, j.toBare = fromJid.toBare := by
  intro j hj
  have hexists : isNickExists nick r := by
    rw [isNickExists]
    rw [findJidsByNick] at hj
    cases hlookup : r.sessions.lookup nick with
    | none =>
      rw [hlookup] at hj
      cases hj
    | some jids => rfl
  have hnext := hadmits hexists
  rw [isNextSessionOfOccupant, Bool.and_eq_true, List.any_eq_true] at hnext
  obtain ⟨-, other, hother, hsame⟩ := hnext
  have hbare : other.toBare = fromJid.toBare := by
    simp only [Bool.and_eq_true, decide_eq_true_eq] at hsame
    rw [Jid.toBare, Jid.toBare, hsame.1, hsame.2]
  rw [findJidsByNick_eq, h.index.mem] at hj hother
  obtain ⟨u, hu, hn⟩ := hj
  obtain ⟨v, hv, hn'⟩ := hother
  rw [← hbare]
  exact h.bare j u other v hu hv (hn.trans hn'.symm)

/-- **A join is taken** by a consistent room. -/
theorem Consistent.handleNewUser (env : Environment)
    (nick : Nick) (packet : Element) (hoffline : r.users.lookup fromJid = none) :
    ∃ r', handleNewUser env fromJid nick packet r = some r' ∧ Consistent r' := by
  obtain hsame | ⟨⟨-, hadmits⟩, hjoins | hwaits⟩ := handleNewUser_cases env fromJid nick packet r
  · exact ⟨r, hsame, h⟩
  · rw [hjoins, doAddNewUser_eq]
    exact ⟨_, rfl, h.addOnlineUser _ hoffline (h.toBare_of_admits hadmits)⟩
  · exact ⟨_, hwaits, h.congr rfl rfl⟩

/-- An error presence, and likewise a departure, is taken by a consistent room. -/
theorem Consistent.processPresenceError (fromJid : Jid) :
    ∃ r', processPresenceError fromJid r = some r' ∧ Consistent r' := by
  rw [Room.processPresenceError]
  split
  · rename_i honline
    exact h.expulseParticipant honline
  · exact ⟨r, rfl, h⟩

/-- **A presence is taken** by a consistent room, which stays consistent where the change of a nick
is that of its only session. -/
theorem Consistent.processPresence1 (env : Environment)
    (fromJid : Jid) (nick : Nick) (packet : Element) :
    ∃ r', processPresence1 env fromJid nick packet r = some r' ∧
    ((ChangesNick env fromJid nick packet r →
      ∀ u ∈ r.users.lookup fromJid, isLastSession u.nick r) → Consistent r') := by
  have hweak : ∀ {o : Option Room} {p : Prop}, (∃ r', o = some r' ∧ Consistent r') →
      ∃ r', o = some r' ∧ (p → Consistent r') := by
    rintro o p ⟨r', ho, h'⟩
    exact ⟨r', ho, fun _ => h'⟩
  unfold Room.processPresence1
  split
  · exact hweak (h.processPresenceError fromJid)
  · exact hweak (h.processPresenceError fromJid)
  · rename_i htype
    cases hnew : isNewNickOfOnlineUser fromJid nick r with
    | none =>
      have hoffline : r.users.lookup fromJid = none := by
        simpa [isNewNickOfOnlineUser] using hnew
      exact hweak (h.handleNewUser env nick packet hoffline)
    | some new =>
      obtain ⟨user, huser, hchanges⟩ := map_eq_some_iff.1 hnew
      cases new with
      | false =>
        refine ⟨r, ?_, fun _ => h⟩
        simp only
        rw [addUserPresence, huser]
        rfl
      | true =>
        simp only
        rw [processPresenceNickChange]
        cases hs : chooseNickChangeStrategy env fromJid nick r with
        | allowed =>
          obtain ⟨r', hr'⟩ := h.changeNick_eq_some nick huser
          refine ⟨r', hr', fun hlast => ?_⟩
          have hfree := lookup_sessions_of_allowed hs
          obtain ⟨r'', hr'', h''⟩ := h.changeNick huser (hlast ⟨htype, hnew, hs⟩ user huser) hfree
          cases (hr'.symm.trans hr'')
          exact h''
        | notAllowedVisitor | conflictUse | conflictRegistered => exact ⟨r, rfl, fun _ => h⟩
  · exact ⟨r, rfl, fun _ => h⟩

end

/-- A nick is changed, or a session taken out by its full JID, where the nick has no other session;
a join that waited is still let in; a room for members puts out all sessions of a nick or none. -/
def KeepsSessions (lib : Library) (r : Room) : Event → Prop
  | .presence env fromJid nick packet =>
    ChangesNick env fromJid nick packet r → ∀ u ∈ r.users.lookup fromJid, isLastSession u.nick r
  | .httpAuth place result =>
    result = .allowed → ∀ request ∈ r.httpAuthPids[place]?, StillJoins request r
  | .adminItems fromJid items =>
    Accepts lib fromJid r items →
      Guarded applyStep KicksWhole r (changesOf lib fromJid r items).reverse
  | .config config =>
    r.config.membersOnly = false → config.membersOnly →
      ∀ e ∈ r.users.entries, ∀ e' ∈ r.users.entries, e.2.nick = e'.2.nick →
        r.getAffiliation e.2.jid = .none → r.getAffiliation e'.2.jid = .none
  | .errorMessage _ => True
  | .authExit _ => True
  | .invitation _ _ => True
  | .destroy => True

instance (lib : Library) (r : Room) : ∀ event, Decidable (KeepsSessions lib r event)
  | .presence _ _ _ _ => inferInstanceAs (Decidable (_ → _))
  | .httpAuth _ _ => inferInstanceAs (Decidable (_ → _))
  | .adminItems _ _ => inferInstanceAs (Decidable (_ → Guarded _ _ _ _))
  | .config _ => inferInstanceAs (Decidable (_ → _ → _))
  | .errorMessage _ => isTrue trivial
  | .authExit _ => isTrue trivial
  | .invitation _ _ => isTrue trivial
  | .destroy => isTrue trivial

variable {lib : Library}

/-- **A new configuration is taken**, and leaves the room consistent where it does not crash. -/
theorem Consistent.changeConfig {r r' : Room} (h : Consistent r) (hkeyed : r.Keyed)
    {config : Config} (hkeeps : KeepsSessions lib r (.config config))
    (hchange : changeConfig config r = some r') : Consistent r' := by
  have hnsd : Consistent { r with config := config } := h.congr rfl rfl
  unfold Room.changeConfig at hchange
  simp only at hchange
  split at hchange
  · rename_i hopen hmembers
    exact hnsd.removeNonmembers hkeyed hchange (hkeeps hopen hmembers)
  · cases hchange
    exact hnsd

/-- **The answer of the HTTP service is taken**. -/
theorem Consistent.handleHttpAuthResult {r : Room} (h : Consistent r) (result : AuthResult)
    (request : AuthRequest) :
    ∃ r', handleHttpAuthResult result request.fromJid request.nick request.role r = some r' ∧
    ((result = .allowed → StillJoins request r) → Consistent r') := by
  cases result with
  | allowed =>
    refine ⟨_, doAddNewUser_eq .., fun hjoins => ?_⟩
    obtain ⟨hoffline, hnick⟩ := hjoins rfl
    refine h.addOnlineUser request.role ?_ hnick
    simpa [isUserOnline] using hoffline
  | invalidPassword errorMsg => exact ⟨r, rfl, fun _ => h⟩
  | error => exact ⟨r, rfl, fun _ => h⟩

/-- **An admin request** keeps the room consistent. -/
theorem Consistent.processIqAdmin {r : Room} (h : Consistent r)
    {items : List Element} (hkeeps : KeepsSessions lib r (.adminItems fromJid items)) :
    Consistent (processIqAdmin lib fromJid items r) := by
  rw [processIqAdmin_eq]
  split
  · rename_i haccepts
    exact foldr_invariant (fun h' hwf hkick => h'.processAdminItemSet hwf hkick) h
      (fun changed hmem => wellFormed_of_mem_changesOf hmem) (hkeeps haccepts)
  · exact h

end Room

namespace RoomProcess

/-- `Room.KeepsSessions` for a process that still runs. -/
def KeepsSessions (lib : Library) (p : RoomProcess) (event : Event) : Prop :=
  p.stopped = false → p.room.KeepsSessions lib event

instance (lib : Library) (p : RoomProcess) (event : Event) :
    Decidable (KeepsSessions lib p event) :=
  inferInstanceAs (Decidable (_ → _))

variable {p : RoomProcess}

theorem Starts.consistent (h : Starts p) : p.room.Consistent := by
  constructor
  · rw [h.users, h.sessions]
    exact isIndex_empty
  · simp [h.users]

/-- **Every event but a new configuration is taken** by a consistent room. -/
theorem exists_step (h : p.room.Consistent) (lib : Library) (event : Event)
    (hevent : ∀ config, event ≠ .config config) :
    ∃ p', step lib p event = some p' ∧ (KeepsSessions lib p event → p'.room.Consistent) := by
  unfold step
  cases hstopped : p.stopped with
  | true => exact ⟨p, if_pos rfl, fun _ => h⟩
  | false =>
    rw [if_neg Bool.false_ne_true]
    cases event with
    | presence env fromJid nick packet =>
      obtain ⟨r', hr', h'⟩ := h.processPresence1 env fromJid nick packet
      refine ⟨destroyTemporaryRoomIfEmpty r', ?_, fun hkeeps => h' (hkeeps hstopped)⟩
      exact congrArg (Option.map destroyTemporaryRoomIfEmpty) hr'
    | errorMessage fromJid =>
      obtain ⟨r', hr', h'⟩ := h.processPresenceError fromJid
      exact ⟨⟨r', false⟩, congrArg (Option.map _) hr', fun _ => h'⟩
    | httpAuth place result =>
      cases hrequest : p.room.httpAuthPids[place]? with
      | none => exact ⟨p, by simp only [hrequest], fun _ => h⟩
      | some request =>
        have herased : Room.Consistent
            { p.room with httpAuthPids := p.room.httpAuthPids.eraseIdx place } :=
          h.congr rfl rfl
        obtain ⟨r', hr', h'⟩ := herased.handleHttpAuthResult result request
        refine ⟨destroyTemporaryRoomIfEmpty r', ?_, fun hkeeps => h' fun hallowed =>
          hkeeps hstopped hallowed request hrequest⟩
        simp only [hrequest]
        exact congrArg (Option.map destroyTemporaryRoomIfEmpty) hr'
    | authExit place => exact ⟨_, rfl, fun _ => h.congr rfl rfl⟩
    | adminItems fromJid items =>
      exact ⟨_, rfl, fun hkeeps => h.processIqAdmin (hkeeps hstopped)⟩
    | invitation fromJid jids =>
      refine ⟨_, rfl, fun _ => ?_⟩
      split
      · obtain ⟨affs, heq⟩ := Room.routeInvitation_eq jids p.room
        change (Room.routeInvitation jids p.room).Consistent
        rw [heq]
        exact h.congr rfl rfl
      · exact h
    | config config => exact absurd rfl (hevent config)
    | destroy => exact ⟨_, rfl, fun _ => h⟩

/-- **One event** keeps a room consistent. -/
theorem consistent_step {p' : RoomProcess} {lib : Library} {event : Event}
    (h : p.room.Consistent) (hkeyed : p.room.Keyed) (hkeeps : KeepsSessions lib p event)
    (hstep : step lib p event = some p') : p'.room.Consistent := by
  by_cases hevent : ∃ config, event = .config config
  · obtain ⟨config, rfl⟩ := hevent
    unfold step at hstep
    split at hstep
    · cases hstep
      exact h
    · rename_i hruns
      obtain ⟨r', hr', rfl⟩ := map_eq_some_iff.1 hstep
      exact h.changeConfig hkeyed (hkeeps (by simpa using hruns)) hr'
  · obtain ⟨p'', hp'', h''⟩ := exists_step h lib event fun config heq => hevent ⟨config, heq⟩
    cases (hp''.symm.trans hstep)
    exact h'' hkeeps

/-- **Occupants and sessions along the events of a room**: where every event keeps them in step,
they agree in the end, and nothing fails there. -/
theorem consistent_of_guarded {lib : Library} {p t : RoomProcess} {events : List Event}
    (hstart : Starts p) (hguard : Guarded (step lib) (KeepsSessions lib) p events)
    (hrun : run (step lib) p events = some t) :
    t.room.Consistent ∧
    ∀ event, (∀ config, event ≠ .config config) → (step lib t event).isSome := by
  have h : t.room.Consistent ∧ t.room.Keyed := by
    refine run_invariant (P := fun p => p.room.Consistent ∧ p.room.Keyed) ?_
      ⟨hstart.consistent, hstart.keyed⟩ hguard hrun
    rintro p event p' ⟨h, hkeyed⟩ hkeeps hstep
    exact ⟨consistent_step h hkeyed hkeeps hstep, keyed_step hkeyed hstep⟩
  refine ⟨h.1, fun event hevent => ?_⟩
  obtain ⟨t', ht', -⟩ := exists_step h.1 lib event hevent
  rw [ht']
  rfl

/-! ## Rooms that get out of step -/

/-- A room that lets a user in with several sessions; `host` owns it. -/
def sessionsRoom : RoomProcess where
  room :=
    { accessAdmin := fun _ => false
      config := { persistent := true, allowMultipleSessions := true }
      users := ∅
      sessions := ∅
      affiliations := Affiliations.empty.put ⟨"host", "localhost", ""⟩ (.plain .owner)
        StoredAffiliation.owner_ne_none }

/-- The same room when an HTTP service checks its password. -/
def passwordRoom : RoomProcess where
  room :=
    { sessionsRoom.room with
      config := { persistent := true, passwordProtected := true }
      httpAuthPool := true }

/-- No JID is named in the requests below. -/
def noLibrary : Library where
  nodeprep := some
  nameprep := some
  resourceprep := some
  fromBinary _ := none
  rfc3339 _ := ""

variable (account resource : String)

/-- `account@localhost/resource` joins or changes its nick. -/
def enters (nick : Nick) : Event :=
  .presence ⟨true, 0, .allowed⟩ ⟨account, "localhost", resource⟩ nick
    (.mk "presence" []
      [.mk "x" [("xmlns", nsMuc)] [.mk "password" [] [] "secret"] ""] "")

/-- `account@localhost/resource` leaves. -/
def leaves : Event :=
  .presence ⟨true, 0, .allowed⟩ ⟨account, "localhost", resource⟩ ""
    (.mk "presence" [("type", "unavailable")] [] "")

theorem leaves_ne_config (config : Config) : leaves account resource ≠ .config config := by
  rw [leaves]
  exact Event.noConfusion

/-- The owner puts out a nick. -/
def kicks (nick : Nick) : Event :=
  .adminItems ⟨"host", "localhost", "x"⟩ [.mk "item" [("nick", nick), ("role", "none")] [] ""]

/-- One of two sessions leaves before their nick is put out. -/
theorem consistent_of_guarded_kick : ∃ t,
    run (step noLibrary) sessionsRoom [enters "host" "x" "host", enters "guest" "x" "guest",
    enters "guest" "y" "guest", leaves "guest" "y", kicks "guest"] = some t ∧
    t.room.users.lookup ⟨"guest", "localhost", "x"⟩ = none ∧
    t.room.Consistent ∧
    ∀ event, (∀ config, event ≠ .config config) → (step noLibrary t event).isSome := by
  have hrun : (run (step noLibrary) sessionsRoom [enters "host" "x" "host",
      enters "guest" "x" "guest", enters "guest" "y" "guest", leaves "guest" "y",
      kicks "guest"]).any (fun t => t.room.users.lookup ⟨"guest", "localhost", "x"⟩ = none) := by
    decide +kernel
  obtain ⟨t, ht, hgone⟩ := (any_eq_true _ _).1 hrun
  refine ⟨t, ht, of_decide_eq_true hgone, ?_⟩
  exact consistent_of_guarded ⟨rfl, rfl, rfl⟩ (by decide +kernel) ht

/-- One of two sessions is put out by its nick, or changes it: when the other one leaves, the room
crashes. Answers of the HTTP service give one nick to two accounts. -/
theorem sessions_out_of_step :
    (∃ t, run (step noLibrary) sessionsRoom [enters "host" "x" "host", enters "guest" "x" "guest",
      enters "guest" "y" "guest", kicks "guest"] = some t ∧
    ¬t.room.Consistent ∧ step noLibrary t (leaves "guest" "y") = none) ∧
    (∃ t, run (step noLibrary) sessionsRoom [enters "guest" "x" "guest",
      enters "guest" "y" "guest", enters "guest" "x" "other"] = some t ∧
    ¬t.room.Consistent ∧ step noLibrary t (leaves "guest" "y") = none) ∧
    ∃ t, run (step noLibrary) passwordRoom [enters "host" "x" "host", enters "guest" "x" "nick",
      enters "other" "x" "nick", .httpAuth 0 .allowed, .httpAuth 0 .allowed] = some t ∧
    ¬t.room.Consistent := by
  have hcrash : ∀ {p : RoomProcess} {events : List Event} {account resource : String},
      ((run (step noLibrary) p events).any fun t =>
        (step noLibrary t (leaves account resource)).isNone) →
      ∃ t, run (step noLibrary) p events = some t ∧ ¬t.room.Consistent ∧
        step noLibrary t (leaves account resource) = none := by
    intro p events account resource hrun
    obtain ⟨t, ht, hnone⟩ := (any_eq_true _ _).1 hrun
    have hstep := isNone_iff_eq_none.1 hnone
    refine ⟨t, ht, fun h => ?_, hstep⟩
    obtain ⟨t', ht', -⟩ :=
      exists_step h noLibrary (leaves account resource) (leaves_ne_config account resource)
    rw [hstep] at ht'
    cases ht'
  refine ⟨hcrash (by decide +kernel), hcrash (by decide +kernel), ?_⟩
  have hrun : (run (step noLibrary) passwordRoom [enters "host" "x" "host",
      enters "guest" "x" "nick", enters "other" "x" "nick", .httpAuth 0 .allowed,
      .httpAuth 0 .allowed]).any fun t =>
        (t.room.users.lookup ⟨"guest", "localhost", "x"⟩).map User.nick = some "nick" ∧
        (t.room.users.lookup ⟨"other", "localhost", "x"⟩).map User.nick = some "nick" := by
    decide +kernel
  obtain ⟨t, ht, hboth⟩ := (any_eq_true _ _).1 hrun
  obtain ⟨hguest, hother⟩ := of_decide_eq_true hboth
  obtain ⟨u, hu, hn⟩ := map_eq_some_iff.1 hguest
  obtain ⟨v, hv, hn'⟩ := map_eq_some_iff.1 hother
  refine ⟨t, ht, fun h => ?_⟩
  exact absurd (h.bare _ u _ v hu hv (hn.trans hn'.symm)) (by decide)

end RoomProcess

end MongooseIM.Muc
