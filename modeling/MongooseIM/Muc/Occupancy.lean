import MongooseIM.Muc.Sessions

/-! # Occupants and their affiliations

An outcast is not to be in the room, a room for members is for members, and owners and admins are
to be moderators, service admins aside. -/

namespace MongooseIM.Muc

open Erlang Xmpp Transition Option

/-- Somebody with this affiliation may be in the room with this role. -/
structure Fits (membersOnly : Bool) (affiliation : Affiliation) (role : Role) : Prop where
  notBanned : affiliation ≠ .outcast
  member : membersOnly → affiliation ≠ .none
  moderates : affiliation.isRanked → role = .moderator

instance (membersOnly : Bool) (affiliation : Affiliation) (role : Role) :
    Decidable (Fits membersOnly affiliation role) :=
  decidable_of_iff (affiliation ≠ .outcast ∧ (membersOnly → affiliation ≠ .none) ∧
      (affiliation.isRanked → role = .moderator))
    ⟨fun ⟨h₁, h₂, h₃⟩ => ⟨h₁, h₂, h₃⟩, fun ⟨h₁, h₂, h₃⟩ => ⟨h₁, h₂, h₃⟩⟩

variable {affiliation : Affiliation}

/-- What fits in a room for members fits in any room. -/
theorem Fits.of_membersOnly {membersOnly membersOnly' : Bool}
    {role : Role} (h : Fits membersOnly affiliation role) (hle : membersOnly' → membersOnly) :
    Fits membersOnly' affiliation role :=
  ⟨h.notBanned, fun hmembers => h.member (hle hmembers), h.moderates⟩

/-- A member may be in any room with any role. -/
theorem fits_member (membersOnly : Bool) (role : Role) : Fits membersOnly .member role := by
  refine ⟨?_, fun _ => ?_, ?_⟩ <;> intro h <;> cases h

/-- So may everybody in a room that is not for members. -/
theorem fits_none (role : Role) : Fits false .none role := by
  refine ⟨?_, ?_, ?_⟩ <;> intro h <;> cases h

/-- A moderator may be in the room with every affiliation of rank. -/
theorem fits_moderator (membersOnly : Bool) (h : affiliation.isRanked) :
    Fits membersOnly affiliation .moderator := by
  refine ⟨?_, fun _ => ?_, fun _ => rfl⟩
  · rintro rfl
    cases h
  · rintro rfl
    cases h

/-- **The default role** of an affiliation fits, where it is a role. -/
theorem fits_getDefaultRole {r : Room} (h : Room.getDefaultRole affiliation r ≠ .none) :
    Fits r.config.membersOnly affiliation (Room.getDefaultRole affiliation r) := by
  cases affiliation with
  | owner | admin => exact fits_moderator _ rfl
  | member => exact fits_member _ _
  | outcast => exact absurd rfl h
  | none =>
    -- nobody without an affiliation gets a role in a room for members
    have hopen : r.config.membersOnly = false := by
      rw [← Bool.not_eq_true]
      exact fun hmembers => h (if_pos hmembers)
    rw [hopen]
    exact fits_none _

namespace Room

/-- Every occupant has a role that fits, service admins aside. -/
def RespectsAffiliations (r : Room) : Prop :=
  ∀ j u, r.users.lookup j = some u → r.accessAdmin j = false →
    Fits r.config.membersOnly (r.getAffiliation j) u.role

variable {r r' : Room}

theorem Stays.respects (hstays : Stays r r') (h : r.RespectsAffiliations) :
    r'.RespectsAffiliations := by
  intro j u' hu' hadmin
  obtain ⟨u, hu, -, hrole⟩ := hstays.users j u' hu'
  rw [hstays.accessAdmin] at hadmin
  rw [hstays.config, hrole, getAffiliation_of_frame hstays.accessAdmin hstays.affiliations]
  exact h j u hu hadmin

variable {role : Role}

theorem RespectsAffiliations.addOnlineUser (h : r.RespectsAffiliations) {jid : Jid} (nick : Nick)
    (hfits : r.accessAdmin jid = false → Fits r.config.membersOnly (r.getAffiliation jid) role) :
    (addOnlineUser jid nick role r).RespectsAffiliations := by
  intro j u hu hadmin
  change (r.users.insert jid ⟨jid, nick, role⟩).lookup j = some u at hu
  rw [lookup_insert] at hu
  split at hu
  · rename_i hj
    cases hu
    rw [hj] at hadmin ⊢
    exact hfits hadmin
  · exact h j u hu hadmin

/-- **A presence** keeps to the policy: a role is given by the affiliation of that moment. -/
theorem RespectsAffiliations.processPresence1 (h : r.RespectsAffiliations)
    {env : Environment} {fromJid : Jid} {nick : Nick} {packet : Element}
    (hpresence : processPresence1 env fromJid nick packet r = some r') :
    r'.RespectsAffiliations := by
  rcases processPresence1_cases hpresence with hstays | ⟨hrole, rfl⟩
  · exact hstays.respects h
  · exact h.addOnlineUser nick fun _ => fits_getDefaultRole hrole

variable {j : Jid}

/-- **An invitation** makes members of those without an affiliation. -/
theorem getAffiliation_inviteMember (jid : Jid) (r : Room) (hadmin : r.accessAdmin j = false) :
    (inviteMember jid r).getAffiliation j = r.getAffiliation j ∨
    (inviteMember jid r).getAffiliation j = .member := by
  rw [inviteMember]
  split
  · rename_i hnone
    -- neither the account nor its domain has an entry
    have hentries : r.entry jid = .none ∧ r.entry (domain jid) = .none := by
      rw [getAffiliation_eq] at hnone
      split at hnone
      · cases hnone
      · split at hnone
        · rename_i hentry
          exact ⟨hentry, hnone⟩
        · rename_i hentry
          exact absurd hnone hentry
    have hafter : ∀ j', (setAffiliation jid .member r).entry j' =
        if j'.toBare = jid.toBare then .member else r.entry j' := by
      intro j'
      have hmember : Affiliation.member ≠ .none := by decide
      rw [setAffiliation, dif_neg hmember]
      exact entry_put jid (.plain .member) hmember r j'
    have haccess : (setAffiliation jid .member r).accessAdmin = r.accessAdmin := by
      rw [setAffiliation]
      split <;> rfl
    rw [getAffiliation_eq, getAffiliation_eq r, haccess, hadmin, hafter, hafter]
    by_cases hj : j.toBare = jid.toBare
    · rw [if_pos hj]
      exact .inr rfl
    · rw [if_neg hj]
      by_cases hdomain : (domain j).toBare = jid.toBare
      · rw [if_pos hdomain]
        by_cases hentry : r.entry j = .none
        · right
          simp [hentry]
        · left
          simp [hentry]
      · rw [if_neg hdomain]
        exact .inl rfl
  · exact .inl rfl

theorem RespectsAffiliations.inviteMember (h : r.RespectsAffiliations) (jid : Jid) :
    (inviteMember jid r).RespectsAffiliations := by
  obtain ⟨affs, heq⟩ := inviteMember_eq jid r
  intro j u hu hadmin
  have hu' : r.users.lookup j = some u := by
    rw [heq] at hu
    exact hu
  have hadmin' : r.accessAdmin j = false := by
    rw [heq] at hadmin
    exact hadmin
  have hconfig : (Room.inviteMember jid r).config = r.config := by rw [heq]
  rw [hconfig]
  rcases getAffiliation_inviteMember jid r hadmin' with hsame | hmember
  · rw [hsame]
    exact h j u hu' hadmin'
  · rw [hmember]
    exact fits_member _ _

theorem RespectsAffiliations.routeInvitation (h : r.RespectsAffiliations)
    (jids : List Jid) : (routeInvitation jids r).RespectsAffiliations := by
  rw [Room.routeInvitation]
  split
  · exact List.foldlRecOn jids _ h fun r' h' jid _ => h'.inviteMember jid
  · exact h

/-- **A new configuration** puts out those who do not fit in a room for members. -/
theorem RespectsAffiliations.changeConfig (h : r.RespectsAffiliations)
    (hkeyed : r.Keyed) {config : Config} (hchange : changeConfig config r = some r') :
    r'.RespectsAffiliations := by
  unfold Room.changeConfig at hchange
  simp only at hchange
  split at hchange
  · rename_i hmembers
    obtain ⟨husers, -, haccess, hconfig, haffs⟩ := foldlM_removeNonmember hchange
    intro j u hu hadmin
    rw [haccess] at hadmin
    rw [husers] at hu
    split at hu
    · cases hu
    · rename_i hstays
      have hfits := h j u hu hadmin
      rw [hconfig, getAffiliation_of_frame haccess haffs]
      refine ⟨hfits.notBanned, fun _ hnone => hstays ?_, hfits.moderates⟩
      have hjid : u.jid = j := hkeyed j u hu
      exact ⟨⟨j, u⟩, AList.mem_lookup_iff.1 hu, by rw [hjid]; exact hnone,
        by rw [hjid]; exact matched_self j⟩
  · rename_i hnot
    cases hchange
    intro j u hu hadmin
    refine (h j u hu hadmin).of_membersOnly fun hmembers => ?_
    by_contra hopen
    exact hnot (Bool.eq_false_iff.2 hopen) hmembers

/-- A role below a moderator's is for those below an admin, an entry for a domain suits the
occupants it speaks for, and where an account's entry ends, its domain's suits. -/
def HarmlessFor (r : Room) (changed : ChangedItem) (j : Jid) (role : Role) : Asked → Prop
  | .role asked =>
    asked = .participant ∨ asked = .visitor → matched changed.jid j →
      (r.getAffiliation j).isRanked = false
  | .affiliation affiliation =>
    ¬changed.Ignored →
      (j.toBare ≠ changed.jid → r.entry j = .none → domain j = changed.jid →
        Fits r.config.membersOnly affiliation role) ∧
      (j.toBare = changed.jid → affiliation = .none → r.config.membersOnly = false →
        Fits false (r.entry (domain j)) role)

instance (r : Room) (changed : ChangedItem) (j : Jid) (role : Role) :
    ∀ asked, Decidable (HarmlessFor r changed j role asked)
  | .role _ => inferInstanceAs (Decidable (_ → _ → _))
  | .affiliation _ => inferInstanceAs (Decidable (_ → _ ∧ _))

/-- The change is harmless for every occupant, service admins aside. -/
def Harmless (r : Room) (changed : ChangedItem) : Prop :=
  ∀ e ∈ r.users.entries, r.accessAdmin e.1 = false →
    HarmlessFor r changed e.1 e.2.role changed.asked

instance (r : Room) (changed : ChangedItem) : Decidable (Harmless r changed) :=
  inferInstanceAs (Decidable (∀ e ∈ r.users.entries, _ → _))

theorem respectsAffiliations_iff :
    r.RespectsAffiliations ↔ ∀ j role, r.roleAt j = some role → r.accessAdmin j = false →
    Fits r.config.membersOnly (r.getAffiliation j) role := by
  constructor
  · intro h j role hrole hadmin
    obtain ⟨u, hu, rfl⟩ := map_eq_some_iff.1 hrole
    exact h j u hu hadmin
  · intro h j u hu hadmin
    exact h j u.role (by rw [roleAt, hu]; rfl) hadmin

variable {changed : ChangedItem}

theorem getAffiliation_applied
    (happlied : changed.Applied r r') (hadmin : r.accessAdmin j = false) :
    r'.getAffiliation j = if (changed.writes j).getD (r.entry j) = .none then
      (changed.writes (domain j)).getD (r.entry (domain j))
    else (changed.writes j).getD (r.entry j) := by
  rw [getAffiliation_eq, happlied.accessAdmin, hadmin, happlied.entry, happlied.entry]
  rfl

theorem fits_of_role {asked : Role} (hasked : changed.asked = .role asked) {old : Role}
    (hfits : Fits r.config.membersOnly (r.getAffiliation j) old)
    (hharmless : HarmlessFor r changed j old (.role asked))
    (hafter : changed.roleAfter r.config.membersOnly j old = some role) :
    Fits r.config.membersOnly (r.getAffiliation j) role := by
  rw [ChangedItem.roleAfter] at hafter
  split at hafter
  · rename_i hmatched
    refine ⟨hfits.notBanned, hfits.member, fun hranked => ?_⟩
    rw [ChangedItem.effect, hasked] at hafter
    cases asked with
    | none => cases hafter
    | moderator => exact (some.inj hafter).symm
    | participant | visitor =>
      have hlow := hharmless (by simp) hmatched.2
      rw [hlow] at hranked
      cases hranked
  · cases hafter
    exact hfits

section

variable {affiliation : Affiliation} (hasked : changed.asked = .affiliation affiliation)

include hasked

/-- A change of affiliation comes with a role that fits, for the account it names. -/
theorem fits_of_named (hignored : ¬changed.Ignored) (hj : j.toBare = changed.jid) {old : Role}
    (hharmless : HarmlessFor r changed j old (.affiliation affiliation))
    (hafter : changed.effect r.config.membersOnly old = some role) :
    Fits r.config.membersOnly
    (if affiliation = .none then (changed.writes (domain j)).getD (r.entry (domain j))
      else affiliation) role := by
  rw [ChangedItem.effect, hasked] at hafter
  cases affiliation with
  | outcast => cases hafter
  | member => exact fits_member _ _
  | admin | owner =>
    cases hafter
    exact fits_moderator _ rfl
  | none =>
    simp only at hafter
    split at hafter
    · cases hafter
    · rename_i hopen
      rw [Bool.not_eq_true] at hopen
      cases hafter
      rw [if_pos rfl, hopen, ChangedItem.writes, hasked]
      simp only
      split
      · -- the entry of the domain itself ends
        exact fits_none _
      · exact (hharmless hignored).2 hj rfl hopen

/-- A change of affiliation of another account matters when it is the domain of this one. -/
theorem fits_of_other (hwf : changed.WellFormed)
    (hignored : ¬changed.Ignored) (hj : j.toBare ≠ changed.jid)
    (hadmin : r.accessAdmin j = false)
    (hfits : Fits r.config.membersOnly (r.getAffiliation j) role)
    (hharmless : HarmlessFor r changed j role (.affiliation affiliation)) :
    Fits r.config.membersOnly
    (if r.entry j = .none then (changed.writes (domain j)).getD (r.entry (domain j))
      else r.entry j) role := by
  rw [getAffiliation_eq, hadmin, if_neg Bool.false_ne_true] at hfits
  by_cases hentry : r.entry j = .none
  · rw [if_pos hentry] at hfits ⊢
    rw [ChangedItem.writes_of_affiliation hasked hignored]
    split
    · rename_i hdomain
      have hbare : changed.jid.toBare = changed.jid := by
        rw [Jid.toBare, ← hwf affiliation hasked]
      exact (hharmless hignored).1 hj hentry (hbare ▸ hdomain)
    · exact hfits
  · rw [if_neg hentry] at hfits ⊢
    exact hfits

end

/-- **A change that is harmless** keeps to the policy. -/
theorem RespectsAffiliations.processAdminItemSet (h : r.RespectsAffiliations)
    (hwf : changed.WellFormed) (hharmless : Harmless r changed) :
    (processAdminItemSet changed r).RespectsAffiliations := by
  have happlied := ChangedItem.applied hwf r
  rw [respectsAffiliations_iff]
  intro j role hrole hadmin
  rw [happlied.accessAdmin] at hadmin
  rw [happlied.roleAt, bind_eq_some_iff] at hrole
  obtain ⟨old, hold, hafter⟩ := hrole
  have hfits := respectsAffiliations_iff.1 h j old hold hadmin
  have hfor : HarmlessFor r changed j old changed.asked := by
    obtain ⟨u, hu, rfl⟩ := map_eq_some_iff.1 hold
    exact hharmless ⟨j, u⟩ (AList.mem_lookup_iff.1 hu) hadmin
  rw [happlied.config, getAffiliation_applied happlied hadmin]
  have hwrites : (∀ j', changed.writes j' = none) →
      Fits r.config.membersOnly (r.getAffiliation j) role →
      Fits r.config.membersOnly (if (changed.writes j).getD (r.entry j) = .none then
          (changed.writes (domain j)).getD (r.entry (domain j))
        else (changed.writes j).getD (r.entry j)) role := by
    intro hnone hsame
    rw [getAffiliation_eq, hadmin, if_neg Bool.false_ne_true] at hsame
    rw [hnone, hnone]
    exact hsame
  cases hasked : changed.asked with
  | role asked =>
    rw [hasked] at hfor
    refine hwrites (fun j' => by rw [ChangedItem.writes, hasked]) ?_
    exact fits_of_role hasked hfits hfor hafter
  | affiliation affiliation =>
    rw [hasked] at hfor
    rw [ChangedItem.roleAfter] at hafter
    by_cases hignored : changed.Ignored
    · rw [if_neg fun hboth => hboth.1 hignored] at hafter
      cases hafter
      refine hwrites (fun j' => ?_) hfits
      rw [ChangedItem.writes, hasked]
      exact if_neg fun hboth => hboth.1 hignored
    · have hbare : changed.jid.toBare = changed.jid := by
        rw [Jid.toBare, ← hwf affiliation hasked]
      have hmatched : matched changed.jid j ↔ j.toBare = changed.jid :=
        matched_bare (hwf affiliation hasked)
      rw [ChangedItem.writes_of_affiliation hasked hignored j, hbare]
      by_cases hj : j.toBare = changed.jid
      · rw [if_pos ⟨hignored, hmatched.2 hj⟩] at hafter
        rw [if_pos hj]
        exact fits_of_named hasked hignored hj hfor hafter
      · rw [if_neg fun hboth => hj (hmatched.1 hboth.2)] at hafter
        cases hafter
        rw [if_neg hj]
        exact fits_of_other hasked hwf hignored hj hadmin hfits hfor

/-- Somebody for whom the HTTP service answers still fits, with the role of the time when the
service was asked. -/
def StillFits (request : AuthRequest) (r : Room) : Prop :=
  r.accessAdmin request.fromJid = false →
    Fits r.config.membersOnly (r.getAffiliation request.fromJid) request.role

instance (request : AuthRequest) (r : Room) : Decidable (StillFits request r) :=
  inferInstanceAs (Decidable (_ → _))

/-- The affiliation has not changed too much while the HTTP service was asked, and the changes of an
admin request are harmless one after another. -/
def KeepsOccupancy (lib : Library) (r : Room) : Event → Prop
  | .httpAuth place result =>
    result = .allowed → ∀ request ∈ r.httpAuthPids[place]?, StillFits request r
  | .adminItems fromJid items =>
    Accepts lib fromJid r items →
      Guarded applyStep Harmless r (changesOf lib fromJid r items).reverse
  | .presence _ _ _ _ => True
  | .errorMessage _ => True
  | .authExit _ => True
  | .invitation _ _ => True
  | .config _ => True
  | .destroy => True

instance (lib : Library) (r : Room) : ∀ event, Decidable (KeepsOccupancy lib r event)
  | .httpAuth _ _ => inferInstanceAs (Decidable (_ → _))
  | .adminItems _ _ => inferInstanceAs (Decidable (_ → Guarded _ _ _ _))
  | .presence _ _ _ _ => isTrue trivial
  | .errorMessage _ => isTrue trivial
  | .authExit _ => isTrue trivial
  | .invitation _ _ => isTrue trivial
  | .config _ => isTrue trivial
  | .destroy => isTrue trivial

theorem RespectsAffiliations.processIqAdmin (h : r.RespectsAffiliations)
    {lib : Library} {fromJid : Jid} {items : List Element}
    (hkeeps : KeepsOccupancy lib r (.adminItems fromJid items)) :
    (processIqAdmin lib fromJid items r).RespectsAffiliations := by
  rw [processIqAdmin_eq]
  split
  · rename_i haccepts
    exact foldr_invariant (fun h' hwf hharmless => h'.processAdminItemSet hwf hharmless) h
      (fun changed hmem => wellFormed_of_mem_changesOf hmem) (hkeeps haccepts)
  · exact h

theorem RespectsAffiliations.handleHttpAuthResult (h : r.RespectsAffiliations)
    {result : AuthResult} {request : AuthRequest}
    (hfits : result = .allowed → StillFits request r)
    (hhandle : handleHttpAuthResult result request.fromJid request.nick request.role r = some r') :
    r'.RespectsAffiliations := by
  cases result with
  | allowed =>
    have hjoin := (doAddNewUser_eq _ _ _ r).symm.trans hhandle
    cases hjoin
    exact h.addOnlineUser request.nick (hfits rfl)
  | invalidPassword errorMsg =>
    cases hhandle
    exact h
  | error =>
    cases hhandle
    exact h

end Room

namespace RoomProcess

/-- `Room.KeepsOccupancy` for a process that still runs. -/
def KeepsOccupancy (lib : Library) (p : RoomProcess) (event : Event) : Prop :=
  p.stopped = false → p.room.KeepsOccupancy lib event

instance (lib : Library) (p : RoomProcess) (event : Event) :
    Decidable (KeepsOccupancy lib p event) :=
  inferInstanceAs (Decidable (_ → _))

/-- **One event** keeps to the policy. -/
theorem respects_step {p p' : RoomProcess} {lib : Library} {event : Event}
    (h : p.room.RespectsAffiliations) (hkeyed : p.room.Keyed)
    (hkeeps : KeepsOccupancy lib p event) (hstep : step lib p event = some p') :
    p'.room.RespectsAffiliations := by
  unfold step at hstep
  split at hstep
  · cases hstep
    exact h
  · rename_i hstopped
    have hruns : p.room.KeepsOccupancy lib event := hkeeps (by simpa using hstopped)
    cases event with
    | presence env fromJid nick packet =>
      obtain ⟨r', hr', rfl⟩ := map_eq_some_iff.1 hstep
      exact h.processPresence1 hr'
    | errorMessage fromJid =>
      obtain ⟨r', hr', rfl⟩ := map_eq_some_iff.1 hstep
      exact (Room.stays_processPresenceError hr').respects h
    | httpAuth place result =>
      simp only at hstep
      split at hstep
      · cases hstep
        exact h
      · rename_i request hrequest
        obtain ⟨r', hr', rfl⟩ := map_eq_some_iff.1 hstep
        have herased : Room.RespectsAffiliations
            { p.room with httpAuthPids := p.room.httpAuthPids.eraseIdx place } := h
        exact herased.handleHttpAuthResult (fun hallowed => hruns hallowed request hrequest) hr'
    | adminItems fromJid items =>
      cases hstep
      exact h.processIqAdmin hruns
    | invitation fromJid jids =>
      cases hstep
      split
      · exact h.routeInvitation jids
      · exact h
    | config config =>
      obtain ⟨r', hr', rfl⟩ := map_eq_some_iff.1 hstep
      exact h.changeConfig hkeyed hr'
    | authExit place | destroy =>
      cases hstep
      exact h

/-- **Occupants and affiliations along the events of a room**: where every event keeps them in step,
nobody in the room is an outcast, a stranger to its members, or an admin without the role. -/
theorem respects_of_guarded {lib : Library} {p t : RoomProcess} {events : List Event}
    (hstart : Starts p) (hguard : Guarded (step lib) (KeepsOccupancy lib) p events)
    (hrun : run (step lib) p events = some t) : t.room.RespectsAffiliations := by
  have hempty : p.room.RespectsAffiliations := by
    simp [Room.RespectsAffiliations, hstart.users]
  refine (run_invariant (P := fun p => p.room.RespectsAffiliations ∧ p.room.Keyed) ?_
    ⟨hempty, hstart.keyed⟩ hguard hrun).1
  rintro p event p' ⟨h, hkeyed⟩ hkeeps hstep
  exact ⟨respects_step h hkeyed hkeeps hstep, keyed_step hkeyed hstep⟩

/-- The addresses of `guest` and of the domain. -/
def guestLibrary : Library where
  nodeprep := some
  nameprep := some
  resourceprep := some
  fromBinary
    | "guest@localhost" => some ⟨"guest", "localhost", ""⟩
    | "localhost" => some ⟨"", "localhost", ""⟩
    | _ => none
  rfc3339 _ := ""

/-- The owner asks for affiliations and roles, each item with its attributes. -/
def asks (items : List (List (String × String))) : Event :=
  .adminItems ⟨"host", "localhost", "x"⟩ (items.map fun attrs => .mk "item" attrs [] "")

/-- A guest whose password is right becomes an admin. -/
theorem respects_of_guarded_admin : ∃ t,
    run (step guestLibrary) passwordRoom [enters "host" "x" "host", enters "guest" "x" "guest",
    .httpAuth 0 .allowed, asks [[("jid", "guest@localhost"), ("affiliation", "admin")]]] =
      some t ∧
    t.room.getRole ⟨"guest", "localhost", "x"⟩ = .moderator ∧
    t.room.RespectsAffiliations := by
  have hrun : (run (step guestLibrary) passwordRoom [enters "host" "x" "host",
      enters "guest" "x" "guest", .httpAuth 0 .allowed,
      asks [[("jid", "guest@localhost"), ("affiliation", "admin")]]]).any
        fun t => t.room.getRole ⟨"guest", "localhost", "x"⟩ = .moderator := by
    decide +kernel
  obtain ⟨t, ht, hrole⟩ := (any_eq_true _ _).1 hrun
  refine ⟨t, ht, of_decide_eq_true hrole, ?_⟩
  exact respects_of_guarded ⟨rfl, rfl, rfl⟩ (by decide +kernel) ht

/-- The policy is broken by a ban while the HTTP service is asked, by an admin who is made a
visitor, and by the ban of a domain. -/
theorem affiliations_not_respected :
    (∃ t, run (step guestLibrary) passwordRoom [enters "host" "x" "host",
      enters "guest" "x" "guest", asks [[("jid", "guest@localhost"), ("affiliation", "outcast")]],
      .httpAuth 0 .allowed] = some t ∧ ¬t.room.RespectsAffiliations) ∧
    (∃ t, run (step guestLibrary) sessionsRoom [enters "host" "x" "host",
      enters "guest" "x" "guest", asks [[("nick", "guest"), ("role", "visitor")],
        [("jid", "guest@localhost"), ("affiliation", "admin")]]] = some t ∧
    ¬t.room.RespectsAffiliations) ∧
    ∃ t, run (step guestLibrary) sessionsRoom [enters "host" "x" "host",
      enters "guest" "x" "guest", asks [[("jid", "localhost"), ("affiliation", "outcast")]]] =
        some t ∧ ¬t.room.RespectsAffiliations := by
  have hbreaks : ∀ {p : RoomProcess} {events : List Event},
      ((run (step guestLibrary) p events).any fun t => ∃ e ∈ t.room.users.entries,
        t.room.accessAdmin e.1 = false ∧
          ¬Fits t.room.config.membersOnly (t.room.getAffiliation e.1) e.2.role) →
      ∃ t, run (step guestLibrary) p events = some t ∧ ¬t.room.RespectsAffiliations := by
    intro p events hrun
    obtain ⟨t, ht, hunfit⟩ := (any_eq_true _ _).1 hrun
    obtain ⟨e, he, hadmin, hnot⟩ := of_decide_eq_true hunfit
    exact ⟨t, ht, fun h => hnot (h e.1 e.2 (AList.mem_lookup_iff.2 he) hadmin)⟩
  exact ⟨hbreaks (by decide +kernel), hbreaks (by decide +kernel), hbreaks (by decide +kernel)⟩

end RoomProcess

end MongooseIM.Muc
