import MongooseIM.Muc.Admin
import MongooseIM.Muc.Presence
import MongooseIM.Transition.Run

/-! # The process of a room

A room in `normal_state` takes one event after another. A presence that comes too fast is kept for
a while and is an event later; the same holds for presences of the states before `normal_state`,
which take fewer events and lead to states that `normal_state` reaches too. -/

namespace MongooseIM.Muc

open Erlang Xmpp Transition

namespace Room

/-- One occupant in `remove_nonmembers/1`. -/
def removeNonmember (sd : Room) (entry : Σ _ : Jid, User) : Option Room :=
  match sd.getAffiliation entry.2.jid with
  | .none => setRole entry.2.jid .none sd
  | _ => some sd

/-- `remove_nonmembers/1` -/
def removeNonmembers (r : Room) : Option Room := r.users.entries.foldlM removeNonmember r

/-- `change_config/2` -/
def changeConfig (config : Config) (r : Room) : Option Room :=
  let nsd := { r with config := config }
  match r.config.membersOnly, config.membersOnly with
  | false, true => removeNonmembers nsd
  | _, _ => some nsd

/-- `CanInvite` in `unsafe_check_invitation/4`. -/
def canInvite (fromJid : Jid) (r : Room) : Bool :=
  r.config.allowUserInvites || r.getAffiliation fromJid = .admin ||
    r.getAffiliation fromJid = .owner

/-- The member that `route_invitation/5` makes of one JID. -/
def inviteMember (jid : Jid) (r : Room) : Room :=
  match r.getAffiliation jid with
  | .none => setAffiliation jid .member r
  | _ => r

variable (jids : List Jid)

/-- `route_invitation/5` -/
def routeInvitation (r : Room) : Room :=
  if r.config.membersOnly then jids.foldl (fun r jid => inviteMember jid r) r else r

/-- The occupants that go when some of them are looked at: those without an affiliation, and the
other sessions of their account where the account itself is in the room. -/
def GoesWith (r : Room) (l : List (Σ _ : Jid, User)) (j : Jid) : Prop :=
  ∃ entry ∈ l, r.getAffiliation entry.2.jid = .none ∧ matched entry.2.jid j

open Classical in
/-- **What a look at some occupants leaves**: the others, and the nicks that none of them had. -/
theorem foldlM_removeNonmember {l : List (Σ _ : Jid, User)} {r r' : Room}
    (h : l.foldlM removeNonmember r = some r') :
    (∀ j, r'.users.lookup j = if GoesWith r l j then none else r.users.lookup j) ∧
    (∀ nick, r'.sessions.lookup nick =
      if ∃ j u, r.users.lookup j = some u ∧ GoesWith r l j ∧ u.nick = nick then none
      else r.sessions.lookup nick) ∧
    r'.accessAdmin = r.accessAdmin ∧ r'.config = r.config ∧
    r'.affiliations = r.affiliations := by
  induction l generalizing r with
  | nil =>
    cases h
    refine ⟨fun j => ?_, fun nick => ?_, rfl, rfl, rfl⟩
    · rw [if_neg (by simp [GoesWith])]
    · rw [if_neg (by simp [GoesWith])]
  | cons entry l ih =>
    rw [List.foldlM_cons] at h
    obtain ⟨sd, hsd, hrest⟩ := Option.bind_eq_some_iff.1 h
    obtain ⟨husers, hsessions, haccess, hconfig, haffs⟩ := ih hrest
    by_cases hnone : r.getAffiliation entry.2.jid = .none
    · rw [removeNonmember, hnone] at hsd
      obtain ⟨users, sessions, rfl, husers₁, hsessions₁⟩ := eraseMatchedUsers_eq_some hsd
      have hgoes : ∀ j, GoesWith r (entry :: l) j ↔ matched entry.2.jid j ∨ GoesWith r l j := by
        intro j
        rw [GoesWith, List.exists_mem_cons_iff]
        simp [hnone, GoesWith]
      have hsame : ∀ j, GoesWith { r with users := users, sessions := sessions } l j ↔
          GoesWith r l j := fun _ => Iff.rfl
      refine ⟨fun j => ?_, fun nick => ?_, haccess, hconfig, haffs⟩
      · rw [husers]
        simp only [hsame, hgoes]
        by_cases hl : GoesWith r l j
        · rw [if_pos hl, if_pos (.inr hl)]
        · rw [if_neg hl]
          rw [husers₁]
          exact if_congr (by simp [hl]) rfl rfl
      · rw [hsessions]
        simp only [hsame, hgoes]
        rw [hsessions₁]
        by_cases hm : ∃ j u, r.users.lookup j = some u ∧ matched entry.2.jid j ∧ u.nick = nick
        · -- the nick went with this occupant
          have hboth : ∃ j u, r.users.lookup j = some u ∧
              (matched entry.2.jid j ∨ GoesWith r l j) ∧ u.nick = nick := by
            obtain ⟨j, u, hj, hmj, hnick⟩ := hm
            exact ⟨j, u, hj, .inl hmj, hnick⟩
          rw [if_pos hm, if_pos hboth, ite_self]
        · rw [if_neg hm]
          refine if_congr ⟨?_, ?_⟩ rfl rfl
          · rintro ⟨j, u, hj, hl, hnick⟩
            rw [husers₁] at hj
            split at hj
            · cases hj
            · exact ⟨j, u, hj, .inr hl, hnick⟩
          · rintro ⟨j, u, hj, hmj | hl, hnick⟩
            · exact absurd ⟨j, u, hj, hmj, hnick⟩ hm
            · refine ⟨j, u, ?_, hl, hnick⟩
              rw [husers₁, if_neg fun hmj => hm ⟨j, u, hj, hmj, hnick⟩, hj]
    · have heq : sd = r := by
        rw [removeNonmember] at hsd
        split at hsd
        · rename_i haff
          exact absurd haff hnone
        · exact (Option.some.inj hsd).symm
      subst heq
      have hgoes : ∀ j, GoesWith sd (entry :: l) j ↔ GoesWith sd l j := by
        intro j
        rw [GoesWith, List.exists_mem_cons_iff]
        simp [hnone, GoesWith]
      refine ⟨fun j => ?_, fun nick => ?_, haccess, hconfig, haffs⟩
      · rw [husers]
        simp only [hgoes]
      · rw [hsessions]
        simp only [hgoes]

theorem inviteMember_eq (jid : Jid) (r : Room) :
    ∃ affs, inviteMember jid r = { r with affiliations := affs } := by
  rw [inviteMember]
  split
  · exact ⟨_, rfl⟩
  · exact ⟨_, rfl⟩

theorem foldl_inviteMember_eq (r : Room) :
    ∃ affs, jids.foldl (fun r jid => inviteMember jid r) r = { r with affiliations := affs } := by
  induction jids generalizing r with
  | nil => exact ⟨_, rfl⟩
  | cons jid jids ih =>
    obtain ⟨affs, heq⟩ := inviteMember_eq jid r
    rw [List.foldl_cons, heq]
    exact ih { r with affiliations := affs }

theorem routeInvitation_eq (r : Room) :
    ∃ affs, routeInvitation jids r = { r with affiliations := affs } := by
  rw [routeInvitation]
  split
  · exact foldl_inviteMember_eq jids r
  · exact ⟨_, rfl⟩

end Room

/-- One change. -/
def applyStep (r : Room) (changed : ChangedItem) : Option Room :=
  some (processAdminItemSet changed r)

theorem run_applyStep (changes : List ChangedItem) (r : Room) :
    run applyStep r changes.reverse = some (changes.foldr processAdminItemSet r) := by
  rw [← List.foldl_reverse]
  exact run_some (fun r changed => processAdminItemSet changed r) r changes.reverse

/-- What every change keeps that meets a guard, a request keeps whose changes all meet it. -/
theorem foldr_invariant {P : Room → Prop} {ok : Room → ChangedItem → Prop}
    (hstep : ∀ {r : Room} {changed : ChangedItem}, P r → changed.WellFormed → ok r changed →
    P (processAdminItemSet changed r))
    {r : Room} (h : P r) {changes : List ChangedItem}
    (hwf : ∀ changed ∈ changes, changed.WellFormed)
    (hok : Guarded applyStep ok r changes.reverse) :
    P (changes.foldr processAdminItemSet r) := by
  induction changes with
  | nil => exact h
  | cons changed changes ih =>
    obtain ⟨hfirst, hrest⟩ := List.forall_mem_cons.1 hwf
    rw [List.reverse_cons, guarded_concat (run_applyStep changes r)] at hok
    exact hstep (ih hrest hok.1) hfirst hok.2

/-- What happens to a room. -/
inductive Event
  | presence (env : Environment) (fromJid : Jid) (nick : Nick) (packet : Element)
  /-- A message of type `error` that puts its sender out. -/
  | errorMessage (fromJid : Jid)
  /-- `{http_auth, AuthPid, Result, From, Nick, Packet, Role}`, by the place of the process. -/
  | httpAuth (place : Nat) (result : AuthResult)
  /-- `{'EXIT', FromPid, Reason}` -/
  | authExit (place : Nat)
  /-- An IQ of `muc#admin`, an approval of a voice request or a call of `set_admin_items`. -/
  | adminItems (fromJid : Jid) (items : List Element)
  | invitation (fromJid : Jid) (jids : List Jid)
  | config (config : Config)
  /-- The room is destroyed, or its process stops for other reasons. -/
  | destroy

/-- A room and whether its process has stopped. -/
structure RoomProcess where
  room : Room
  stopped : Bool := false

namespace RoomProcess

/-- `destroy_temporary_room_if_empty/2` -/
def destroyTemporaryRoomIfEmpty (r : Room) : RoomProcess where
  room := r
  stopped := ! r.config.persistent && r.users.entries.isEmpty && r.httpAuthPids.isEmpty

/-- The next state; none when the process crashes. -/
def step (lib : Library) (p : RoomProcess) (event : Event) : Option RoomProcess :=
  if p.stopped then some p
  else
    match event with
    | .presence env fromJid nick packet =>
      (Room.processPresence1 env fromJid nick packet p.room).map destroyTemporaryRoomIfEmpty
    | .errorMessage fromJid =>
      (Room.processPresenceError fromJid p.room).map fun r => { p with room := r }
    | .httpAuth place result =>
      match p.room.httpAuthPids[place]? with
      | none => some p
      | some request =>
        (Room.handleHttpAuthResult result request.fromJid request.nick request.role
          { p.room with httpAuthPids := p.room.httpAuthPids.eraseIdx place }).map
            destroyTemporaryRoomIfEmpty
    | .authExit place =>
      some (destroyTemporaryRoomIfEmpty
        { p.room with httpAuthPids := p.room.httpAuthPids.eraseIdx place })
    | .adminItems fromJid items =>
      some { p with room := processIqAdmin lib fromJid items p.room }
    | .invitation fromJid jids =>
      some (if Room.canInvite fromJid p.room then
        { p with room := Room.routeInvitation jids p.room } else p)
    | .config config => (Room.changeConfig config p.room).map fun r => { p with room := r }
    | .destroy => some { p with stopped := true }

/-- A room that is created or restored: nobody is in it. -/
structure Starts (p : RoomProcess) : Prop where
  users : p.room.users = ∅
  sessions : p.room.sessions = ∅
  httpAuthPids : p.room.httpAuthPids = []

end RoomProcess

namespace Room

/-- Occupants are kept under their JIDs. -/
def Keyed (r : Room) : Prop := ∀ j u, r.users.lookup j = some u → u.jid = j

variable {r r' : Room}

theorem Keyed.of_users (h : r.Keyed) (husers : ∀ j u', r'.users.lookup j = some u' →
    ∃ u, r.users.lookup j = some u ∧ u'.jid = u.jid) : r'.Keyed := by
  intro j u' hu'
  obtain ⟨u, hu, hjid⟩ := husers j u' hu'
  rw [hjid, h j u hu]

theorem Stays.keyed (hstays : Stays r r') (h : r.Keyed) : r'.Keyed := by
  refine h.of_users fun j u' hu' => ?_
  obtain ⟨u, hu, hjid, -⟩ := hstays.users j u' hu'
  exact ⟨u, hu, hjid⟩

theorem Keyed.addOnlineUser (h : r.Keyed) (jid : Jid) (nick : Nick) (role : Role) :
    (addOnlineUser jid nick role r).Keyed := by
  intro j u hu
  change (r.users.insert jid ⟨jid, nick, role⟩).lookup j = some u at hu
  rw [lookup_insert] at hu
  split at hu
  · rename_i hj
    cases hu
    exact hj.symm
  · exact h j u hu

variable {jid : Jid} {role : Role}

theorem Keyed.setRole (h : r.Keyed) (hset : setRole jid role r = some r') : r'.Keyed := by
  refine h.of_users fun j u' hu' => ?_
  cases role with
  | none =>
    obtain ⟨users, sessions, rfl, husers, -⟩ := eraseMatchedUsers_eq_some hset
    change users.lookup j = some u' at hu'
    rw [husers] at hu'
    split at hu'
    · cases hu'
    · exact ⟨u', hu', rfl⟩
  | moderator | participant | visitor =>
    cases hset
    rw [lookup_updateMatchedUsers, Option.map_eq_some_iff] at hu'
    obtain ⟨u, hu, rfl⟩ := hu'
    refine ⟨u, hu, ?_⟩
    split <;> rfl

theorem Keyed.processAdminItemSet (h : r.Keyed) (changed : ChangedItem) :
    (processAdminItemSet changed r).Keyed := by
  obtain ⟨affs, heq⟩ | ⟨role, affs, affs', r₁, hset, heq, -⟩ := processAdminItemSet_cases changed r
  · rw [heq]
    exact h
  · rw [heq]
    have hkeyed : Keyed { r with affiliations := affs } := h
    have h₁ : r₁.Keyed := hkeyed.setRole hset
    exact h₁

theorem Keyed.processIqAdmin (h : r.Keyed) (lib : Library) (u : Jid)
    (items : List Element) : (processIqAdmin lib u items r).Keyed := by
  rw [processIqAdmin_eq]
  split
  · have hok : Guarded applyStep (fun _ _ => True) r (changesOf lib u r items).reverse :=
      guarded_of_forall (fun _ _ => trivial) r _
    exact foldr_invariant (fun h' _ _ => h'.processAdminItemSet _) h
      (fun changed hmem => wellFormed_of_mem_changesOf hmem) hok
  · exact h

/-- A look at the occupants puts some of them out. -/
theorem stays_removeNonmembers (h : removeNonmembers r = some r') : Stays r r' := by
  obtain ⟨husers, -, haccess, hconfig, haffs⟩ := foldlM_removeNonmember h
  refine ⟨fun j u hu => ?_, haccess, hconfig, haffs⟩
  rw [husers] at hu
  split at hu
  · cases hu
  · exact ⟨u, hu, rfl, rfl⟩

theorem Keyed.changeConfig (h : r.Keyed) {config : Config}
    (hchange : changeConfig config r = some r') : r'.Keyed := by
  have hnsd : Keyed { r with config := config } := h
  unfold Room.changeConfig at hchange
  simp only at hchange
  split at hchange
  · exact (stays_removeNonmembers hchange).keyed hnsd
  · cases hchange
    exact hnsd

theorem Keyed.handleHttpAuthResult (h : r.Keyed) {result : AuthResult}
    {nick : Nick} (hhandle : handleHttpAuthResult result jid nick role r = some r') :
    r'.Keyed := by
  cases result with
  | allowed =>
    have hjoin := (doAddNewUser_eq jid nick role r).symm.trans hhandle
    cases hjoin
    exact h.addOnlineUser jid nick role
  | invalidPassword errorMsg =>
    cases hhandle
    exact h
  | error =>
    cases hhandle
    exact h

end Room

namespace RoomProcess

variable {p : RoomProcess}

/-- **Occupants stay under their JIDs.** -/
theorem keyed_step {lib : Library} {p' : RoomProcess} {event : Event} (h : p.room.Keyed)
    (hstep : step lib p event = some p') : p'.room.Keyed := by
  unfold step at hstep
  split at hstep
  · cases hstep
    exact h
  · cases event with
    | presence env fromJid nick packet =>
      obtain ⟨r', hr', rfl⟩ := Option.map_eq_some_iff.1 hstep
      rcases Room.processPresence1_cases hr' with hstays | ⟨-, rfl⟩
      · exact hstays.keyed h
      · exact h.addOnlineUser _ _ _
    | errorMessage fromJid =>
      obtain ⟨r', hr', rfl⟩ := Option.map_eq_some_iff.1 hstep
      exact (Room.stays_processPresenceError hr').keyed h
    | httpAuth place result =>
      simp only at hstep
      split at hstep
      · cases hstep
        exact h
      · rename_i request hrequest
        obtain ⟨r', hr', rfl⟩ := Option.map_eq_some_iff.1 hstep
        have herased : Room.Keyed
            { p.room with httpAuthPids := p.room.httpAuthPids.eraseIdx place } := h
        exact herased.handleHttpAuthResult hr'
    | adminItems fromJid items =>
      cases hstep
      exact h.processIqAdmin lib fromJid items
    | invitation fromJid jids =>
      cases hstep
      split
      · change (Room.routeInvitation jids p.room).Keyed
        obtain ⟨affs, heq⟩ := Room.routeInvitation_eq jids p.room
        rw [heq]
        exact h
      · exact h
    | config config =>
      obtain ⟨r', hr', rfl⟩ := Option.map_eq_some_iff.1 hstep
      exact h.changeConfig hr'
    | authExit place | destroy =>
      cases hstep
      exact h

theorem Starts.keyed (h : Starts p) : p.room.Keyed := by
  simp [Room.Keyed, h.users]

end RoomProcess

end MongooseIM.Muc
