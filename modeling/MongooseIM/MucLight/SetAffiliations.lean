import MongooseIM.MucLight.DbMnesia

/-! # Requests to set affiliations

What an occupant may ask for is checked on the request, against the first owner in the list of
occupants. The change is made later, by a backend that takes any list of changes. -/

namespace MongooseIM.MucLight

open Erlang List

variable {R U : Type*} [DecidableEq R] [LinearOrder U]

/-! ## Requests -/

/-- `#affiliations{}` -/
structure Affiliations (U : Type*) where
  id : String
  prevVersion : String
  version : String
  affUsers : AffUsers U

/-- `{set, #affiliations{}, OldAffUsers, NewAffUsers}` -/
structure SetResponse (U : Type*) where
  affReq : Affiliations U
  oldAffUsers : AffUsers U
  newAffUsers : AffUsers U

/-- What a request ends with other than success. -/
inductive RequestError
  | itemNotFound
  | notAllowed
  | db (error : DbError)
  | caseClause

/-- The options of the module, and the privacy settings of the users. `infinity` is `none`. -/
structure Options (R U : Type*) extends Params U where
  allCanInvite : Bool
  maxOccupants : Option ℕ
  roomsPerUser : Option ℕ
  blocking : Bool
  /-- `get_blocking/4` of a user about another user and a room is `allow`. -/
  allows : U → U → R → Bool

variable (options : Options R U)

/-- `participant_limit_check/2` -/
def participantLimitCheck : ExternalCheck R U := fun _ newAffUsers =>
  match options.maxOccupants with
  | some maxOccupants =>
    if newAffUsers.length > maxOccupants then some "occupant_limit_exceeded" else none
  | none => none

variable (tables : Mnesia.Tables R U)

/-- `check_room_limit_reached/3` -/
def checkRoomLimitReached (user : U) (roomsPerUser : Option ℕ) : Bool :=
  match roomsPerUser with
  | none => false
  | some limit => limit ≤ (tables.mucLightUserRoom.filter fun pair => pair.1 = user).length

variable (tables : Mnesia.Tables R U)

/-- `filter_out_prevented/4` about a room that exists. -/
def filterOutPrevented (fromUs : U) (room : R) (affUsers : AffUsers U) : AffUsers U :=
  affUsers.filter fun affUser =>
    (!options.blocking || affUser.1 = fromUs || options.allows affUser.1 fromUs room) &&
      !checkRoomLimitReached tables fromUs options.roomsPerUser

/-- `validate_aff_changes_by_member/6`; `none` is `{error, not_allowed}`. -/
def validateAffChangesByMember (userUs : U) (ownerUs : Option U) (allCanInvite : Bool) :
    AffUsers U → AffUsers U → Option (AffUsers U)
  | [], acc => some acc
  | (user, aff) :: rAffUsersChanges, acc =>
    if user = userUs ∧ aff = .none then
      validateAffChangesByMember userUs ownerUs allCanInvite rAffUsersChanges
        ((userUs, .none) :: acc)
    else if some user = ownerUs then none
    else if aff = .member ∧ allCanInvite then
      validateAffChangesByMember userUs ownerUs allCanInvite rAffUsersChanges ((user, aff) :: acc)
    else none

/-- `maybe_forget/4` -/
def maybeForget (room : R) (newAffUsers : AffUsers U) (tables : Mnesia.Tables R U) :
    Mnesia.Tables R U :=
  if newAffUsers = [] then (Mnesia.destroyRoomTransaction room tables).2 else tables

variable (affReq : Affiliations U)

/-- `process_aff_set/4` of what passed the validation. -/
def processAffSet (room : R)
    (filteredAffUsers : AffUsers U) (newVersion : String) (tables : Mnesia.Tables R U) :
    Except RequestError (SetResponse U) × Mnesia.Tables R U :=
  -- just a result for the user, nothing to change or to broadcast
  if filteredAffUsers = [] then (.ok ⟨affReq, [], []⟩, tables)
  else
    match Mnesia.modifyAffUsersTransaction options.toParams room filteredAffUsers
      (participantLimitCheck options) newVersion tables with
    | (.ok modified, tables') =>
      (.ok ⟨⟨affReq.id, modified.prevVersion, newVersion, modified.affUsersChanged⟩,
          modified.oldAffUsers, modified.newAffUsers⟩,
        maybeForget room modified.newAffUsers tables')
    | (.error reason, tables') => (.error (.db reason), tables')

/-- The validation of `process_request/6` for `{set, #affiliations{}}`. -/
def validateAffChanges (userUs : U) (room : R) (userAff : Aff) (affUsers changes : AffUsers U) :
    Except RequestError (AffUsers U) :=
  let ownerUs := (findAff .owner affUsers).map Prod.fst
  match userAff with
  | .owner => .ok (filterOutPrevented options tables userUs room changes)
  | .member =>
    match validateAffChangesByMember userUs ownerUs options.allCanInvite changes [] with
    | some validated => .ok validated
    | none => .error .notAllowed
  | .none => .error .caseClause

/-- `process_request/6` for `{set, #affiliations{}}` -/
def processRequest (userUs : U) (room : R)
    (auth : Option Aff) (affUsers : AffUsers U) (newVersion : String)
    (tables : Mnesia.Tables R U) :
    Except RequestError (SetResponse U) × Mnesia.Tables R U :=
  match auth with
  | none => (.error .itemNotFound, tables)
  | some userAff =>
    match validateAffChanges options tables userUs room userAff affUsers affReq.affUsers with
    | .ok validated => processAffSet options affReq room validated newVersion tables
    | .error reason => (.error reason, tables)

/-- `handle_request/5` with `{set, #affiliations{}}`, up to the response. -/
def handleRequest (userUs : U) (room : R) (affReq : Affiliations U)
    (newVersion : String) (tables : Mnesia.Tables R U) :
    Except RequestError (SetResponse U) × Mnesia.Tables R U :=
  match tables.getInfo room with
  | none => (.error (.db .notExists), tables)
  | some rec =>
    processRequest options affReq userUs room (rec.affUsers.lookup userUs) rec.affUsers newVersion
      tables

/-! ## What a member may ask for -/

variable {validated : AffUsers U}

/-- **A member asks to leave, or for other users than the first owner to be members.** -/
theorem validateAffChangesByMember_cases {userUs : U} {ownerUs : Option U} {allCanInvite : Bool}
    {changes acc : AffUsers U}
    (h : validateAffChangesByMember userUs ownerUs allCanInvite changes acc = some validated) :
    validated = changes.reverse ++ acc ∧ ∀ user aff, (user, aff) ∈ changes →
    user = userUs ∧ aff = .none ∨ some user ≠ ownerUs ∧ aff = .member := by
  induction changes generalizing acc with
  | nil =>
    cases h
    refine ⟨rfl, ?_⟩
    intro user aff hmem
    cases hmem
  | cons change changes ih =>
    obtain ⟨user, aff⟩ := change
    rw [validateAffChangesByMember] at h
    -- the three clauses that do not stop
    have hrest {acc' : AffUsers U} (hacc : acc' = (user, aff) :: acc)
        (hallowed : user = userUs ∧ aff = .none ∨ some user ≠ ownerUs ∧ aff = .member)
        (hok : validateAffChangesByMember userUs ownerUs allCanInvite changes acc' =
          some validated) :
        validated = ((user, aff) :: changes).reverse ++ acc ∧
          ∀ user' aff', (user', aff') ∈ (user, aff) :: changes →
            user' = userUs ∧ aff' = .none ∨ some user' ≠ ownerUs ∧ aff' = .member := by
      obtain ⟨heq, hchanges⟩ := ih hok
      refine ⟨by rw [heq, hacc]; simp, ?_⟩
      intro user' aff' hmem
      rcases mem_cons.1 hmem with hpair | hmem
      · cases hpair
        exact hallowed
      · exact hchanges user' aff' hmem
    split_ifs at h with hleave howner hinvite
    · refine hrest ?_ (Or.inl hleave) h
      rw [hleave.1, hleave.2]
    · exact hrest rfl (Or.inr ⟨howner, hinvite.1⟩) h

/-! ## The change that follows -/

variable {affUsers : AffUsers U}

omit [LinearOrder U] in
theorem mem_of_findAff {aff : Aff} {affUser : U × Aff}
    (h : findAff aff affUsers = some affUser) : affUser ∈ affUsers ∧ affUser.2 = aff := by
  refine ⟨mem_of_find?_eq_some h, ?_⟩
  have hfound := find?_some h
  simpa using hfound

variable {res : ChangeSuccess U}

/-- Where the changes make no owner, the owners of after are owners of before, and then no old owner
is looked for. -/
theorem maybeDemoteOldOwner_of_noNewOwner (hnone : usersWith .owner res.changedAffUsers = []) :
    maybeDemoteOldOwner res = .ok res ∨
    ∃ text, maybeDemoteOldOwner res = .error (.badRequest text) := by
  rw [maybeDemoteOldOwner]
  simp only [hnone, diff_nil]
  split_ifs with hone
  · exact Or.inl rfl
  · split
    · next howners hold =>
      -- the same list would have two users and one
      rw [howners] at hold
      cases hold
    · exact Or.inr ⟨_, rfl⟩

theorem maybeSelectNewOwner_of_owner {owner : U}
    (howner : owner ∈ usersWith .owner res.newAffUsers) : maybeSelectNewOwner res = res := by
  have hneeded : ¬ isNewOwnerNeeded res.newAffUsers = true := by
    intro hneeded
    rw [findAff_isNone_iff.1 hneeded] at howner
    cases howner
  rw [maybeSelectNewOwner, if_neg hneeded]

/-- **While the first owner is not named and nobody is to be an owner**, the change is the merge. -/
theorem changeAffUsers_of_firstOwner {lib : Proplists U} {allowMultipleOwners : Bool}
    {au auc : AffUsers U} (hau : WellFormed au) (hauc : ∀ user, (user, Aff.owner) ∉ auc)
    (hfirst : ∀ owner, findAff .owner au = some owner → owner.1 ∉ users auc)
    (hok : changeAffUsers lib allowMultipleOwners au auc = .ok res) :
    applyAffUsersChange lib au auc = .ok res := by
  have hnoOwner : findAff .owner auc = none := by
    rw [← Option.isNone_iff_eq_none, findAff_isNone_iff, eq_nil_iff_forall_not_mem]
    intro user hmem
    exact hauc user (mem_usersWith.1 hmem)
  rw [changeAffUsers, hnoOwner] at hok
  cases hfind : findAff .owner au with
  | none =>
    rw [hfind] at hok
    exact hok
  | some owner =>
    rw [hfind] at hok
    simp only at hok
    rcases applyAffUsersChange_cases lib auc hau with
      ⟨text, herror⟩ | ⟨res', hmerge, hnew, hdiff, _, haff⟩
    · rw [herror] at hok
      cases hok
    · obtain ⟨hmem, howner⟩ := mem_of_findAff hfind
      have hstays : affOf res'.newAffUsers owner.1 = .owner := by
        rw [haff, Erlang.lookup_eq_none_iff.2 (hfirst owner hfind), Option.getD_none,
          affOf_of_mem hau.nodup hmem, howner]
      have hselect : maybeSelectNewOwner res' = res' := maybeSelectNewOwner_of_owner
          (mem_usersWith.2 ((affOf_eq_iff hnew.nodup (by decide)).1 hstays))
      have hnoNew : usersWith .owner res'.changedAffUsers = [] := by
        rw [eq_nil_iff_forall_not_mem]
        intro user hin
        obtain ⟨hnow, hwas⟩ := (hdiff.mem_changed user _).1 (mem_usersWith.1 hin)
        -- who is an owner now was not named, so nothing has changed
        rw [haff] at hnow
        rcases hlookup : auc.lookup user with _ | aff
        · rw [hlookup] at hnow
          exact hwas hnow
        · rw [hlookup, Option.getD_some] at hnow
          exact hauc user (hnow ▸ mem_of_lookup hlookup)
      rw [hmerge] at hok ⊢
      cases allowMultipleOwners with
      | true =>
        rw [← hselect]
        exact hok
      | false =>
        replace hok : (maybeDemoteOldOwner res' >>= fun demoted =>
            pure (maybeSelectNewOwner demoted)) = Except.ok res := hok
        rcases maybeDemoteOldOwner_of_noNewOwner hnoNew with hdemote | ⟨text, hdemote⟩
        · rw [hdemote] at hok
          rw [← hselect]
          exact hok
        · rw [hdemote] at hok
          cases hok

/-! ## The other occupants -/

/-- The occupants of a room; a room that does not exist has none. -/
def occupants (room : R) : AffUsers U :=
  ((tables.getInfo room).map MucLightRoom.affUsers).getD []

/-- A member who is an owner now, where no owner of before is one. -/
def Promoted (before after : AffUsers U) (user : U) : Prop :=
  affOf before user = .member ∧ affOf after user = .owner ∧
    ∀ owner, affOf before owner = .owner → affOf after owner ≠ .owner

/-- **The other occupants are as they were**, unless one is promoted, and other changes add users as
members. -/
structure KeepsOthers (user : U) (before after changes : AffUsers U) : Prop where
  /-- Who was in the room is in it as before. -/
  kept : ∀ other, other ≠ user → other ∈ users before →
    other ∈ users after ∧ affOf after other = affOf before other ∨ Promoted before after other
  added : ∀ other aff, other ≠ user → (other, aff) ∈ changes →
    other ∉ users before ∧ other ∈ users after ∧ aff = .member ∨ Promoted before after other
  nobodyElse : ∀ other, other ∉ users before → other ∈ users after →
    other ≠ user ∧ affOf after other = .member ∧ (other, Aff.member) ∈ changes

/-- No change makes an owner a member. -/
def NamesNoOwner (affUsers changes : AffUsers U) : Prop :=
  ∀ owner, (owner, Aff.member) ∈ changes → affOf affUsers owner ≠ .owner

/-- A merge of what a member may ask for: to leave, and that other users are members. -/
structure MemberMerge (au auc after changes : AffUsers U) (user : U) (ownerUs : Option U) :
    Prop where
  before_wellFormed : WellFormed au
  after_wellFormed : WellFormed after
  member : affOf au user = .member
  nodup : (users auc).Nodup
  allowed : ∀ other aff, (other, aff) ∈ auc →
    other = user ∧ aff = .none ∨ some other ≠ ownerUs ∧ aff = .member
  affOf_after : ∀ other, affOf after other = (auc.lookup other).getD (affOf au other)
  mem_changes : ∀ other aff, (other, aff) ∈ changes ↔
    affOf after other = aff ∧ affOf au other ≠ aff

section MemberMerge

variable {au auc after changes : AffUsers U} {user other : U} {ownerUs : Option U}

section

variable (h : MemberMerge au auc after changes user ownerUs)

include h

/-- Another user is named as a member or keeps the affiliation. -/
theorem MemberMerge.named_or_kept (hne : other ≠ user) :
    (other, Aff.member) ∈ auc ∧ affOf after other = .member ∨
    affOf after other = affOf au other := by
  rcases hlookup : auc.lookup other with _ | aff
  · right
    rw [h.affOf_after, hlookup, Option.getD_none]
  · left
    have hmem := mem_of_lookup hlookup
    rcases h.allowed other aff hmem with hself | ⟨_, rfl⟩
    · exact absurd hself.1 hne
    · exact ⟨hmem, by rw [h.affOf_after, hlookup, Option.getD_some]⟩

/-- Who has another affiliation than the requester is somebody else. -/
theorem MemberMerge.ne_user (hnot : affOf au other ≠ .member) : other ≠ user := by
  rintro rfl
  exact hnot h.member

theorem MemberMerge.namesNoOwner
    (hkeeps : KeepsOthers user au after changes) : NamesNoOwner au auc := by
  intro owner hmem howner
  have hne : owner ≠ user := h.ne_user (by rw [howner]; decide)
  have hnow : affOf after owner = .member := by
    rw [h.affOf_after, lookup_of_mem h.nodup hmem, Option.getD_some]
  have hin : owner ∈ users au := by
    rw [h.before_wellFormed.mem_users_iff, howner]
    decide
  rcases hkeeps.kept owner hne hin with ⟨_, hsame⟩ | ⟨hwas, _⟩
  · rw [hnow, howner] at hsame
    cases hsame
  · rw [howner] at hwas
    cases hwas

/-- Another occupant keeps the affiliation when no owner is named. -/
theorem MemberMerge.affOf_occupant
    (hnames : NamesNoOwner au auc) (hne : other ≠ user) (hin : other ∈ users au) :
    affOf after other = affOf au other := by
  rcases h.named_or_kept hne with ⟨hmem, hnow⟩ | hsame
  · rcases hwas : affOf au other with _ | _ | _
    · exact hnow
    · exact absurd hwas (h.before_wellFormed.mem_users_iff.1 hin)
    · exact absurd hwas (hnames other hmem)
  · exact hsame

theorem MemberMerge.affOf_joining (hout : other ∉ users au) (hin : other ∈ users after) :
    other ≠ user ∧ affOf after other = .member ∧ (other, Aff.member) ∈ changes := by
  have hwas : affOf au other = .none :=
    not_not.1 fun hne => hout (h.before_wellFormed.mem_users_iff.2 hne)
  have hne : other ≠ user := h.ne_user (by rw [hwas]; decide)
  rcases h.named_or_kept hne with ⟨_, hnow⟩ | hsame
  · refine ⟨hne, hnow, (h.mem_changes other _).2 ⟨hnow, ?_⟩⟩
    rw [hwas]
    decide
  · exact absurd (hsame.trans hwas) (h.after_wellFormed.mem_users_iff.1 hin)

/-- **A merge of what a member may ask for** keeps the others unless it names an owner. -/
theorem MemberMerge.keepsOthers_iff : KeepsOthers user au after changes ↔ NamesNoOwner au auc := by
  refine ⟨h.namesNoOwner, fun hnames => ?_⟩
  constructor
  · intro other hne hin
    have hsame := h.affOf_occupant hnames hne hin
    refine Or.inl ⟨?_, hsame⟩
    rw [h.after_wellFormed.mem_users_iff, hsame]
    exact h.before_wellFormed.mem_users_iff.1 hin
  · intro other aff hne hchange
    obtain ⟨hnow, hwas⟩ := (h.mem_changes other aff).1 hchange
    have hout : other ∉ users au := by
      intro hin
      exact hwas ((h.affOf_occupant hnames hne hin).symm.trans hnow)
    rcases h.named_or_kept hne with ⟨_, hmember⟩ | hsame
    · refine Or.inl ⟨hout, ?_, hnow.symm.trans hmember⟩
      rw [h.after_wellFormed.mem_users_iff, hmember]
      decide
    · exact absurd (hsame.symm.trans hnow) hwas
  · intro other hout hin
    exact h.affOf_joining hout hin

end

end MemberMerge

variable {room : R} {version : String} {tables tables' : Mnesia.Tables R U}

/-- What a backend has done when it returns `ok`. -/
theorem modifyAffUsersTransaction_ok {params : Params U} {affUsersChanges : AffUsers U}
    {externalCheck : ExternalCheck R U}
    {rec : MucLightRoom U} (hroom : tables.getInfo room = some rec) {modified : Modified U}
    (hok : Mnesia.modifyAffUsersTransaction params room affUsersChanges externalCheck version
    tables = (.ok modified, tables')) :
    ∃ res, changeAffUsers params.lib params.allowMultipleOwners rec.affUsers affUsersChanges =
      .ok res ∧ modified.newAffUsers = res.newAffUsers ∧
    modified.affUsersChanged = res.changedAffUsers ∧
    tables'.getInfo room = some ⟨res.newAffUsers, version⟩ := by
  rw [Mnesia.modifyAffUsersTransaction, hroom] at hok
  simp only at hok
  rcases hchange : changeAffUsers params.lib params.allowMultipleOwners rec.affUsers
    affUsersChanges with failure | res
  · rw [hchange] at hok
    cases hok
  · rw [hchange] at hok
    simp only [Mnesia.verifyExternallyAndSubmit] at hok
    rcases hcheck : externalCheck room res.newAffUsers with _ | reason
    · rw [hcheck] at hok
      obtain ⟨hmodified, rfl⟩ := Prod.mk.inj hok
      cases hmodified
      refine ⟨res, rfl, rfl, rfl, ?_⟩
      rw [Mnesia.updateUsersRooms_eq]
      obtain ⟨hrooms, _, _⟩ := Mnesia.foldl_writeUserRoom room res.joiningUsers
        (tables.writeRoom room ⟨res.newAffUsers, version⟩)
      obtain ⟨hrooms', _, _⟩ := Mnesia.foldl_deleteUserRoom room res.leavingUsers
        (res.joiningUsers.foldl (fun tables user => tables.writeUserRoom room user)
          (tables.writeRoom room ⟨res.newAffUsers, version⟩))
      rw [Mnesia.getInfo_congr (hrooms'.trans hrooms), Mnesia.getInfo_writeRoom,
        Function.update_self]
    · rw [hcheck] at hok
      cases hok

/-- A room without occupants is forgotten, which leaves it without occupants. -/
theorem occupants_maybeForget (hroom : tables.getInfo room = some ⟨affUsers, version⟩) :
    occupants (maybeForget room affUsers tables) room = affUsers := by
  rw [maybeForget]
  split_ifs with hempty
  · rw [occupants, Mnesia.getInfo_destroyRoomTransaction, Function.update_self, hempty]
    rfl
  · rw [occupants, hroom]
    rfl

variable {options : Options R U}

theorem handleRequest_ok
    {user : U} {affReq : Affiliations U} {newVersion : String} {response : SetResponse U}
    (hok : handleRequest options user room affReq newVersion tables = (.ok response, tables')) :
    ∃ rec aff validated, tables.getInfo room = some rec ∧ rec.affUsers.lookup user = some aff ∧
    validateAffChanges options tables user room aff rec.affUsers affReq.affUsers = .ok validated ∧
    (validated = [] ∧ response.affReq = affReq ∧ tables' = tables ∨
      ∃ res, changeAffUsers options.lib options.allowMultipleOwners rec.affUsers validated =
          .ok res ∧ response.affReq.affUsers = res.changedAffUsers ∧
        occupants tables' room = res.newAffUsers) := by
  rw [handleRequest] at hok
  rcases hroom : tables.getInfo room with _ | rec
  · rw [hroom] at hok
    cases hok
  rw [hroom] at hok
  simp only [processRequest] at hok
  rcases hlookup : rec.affUsers.lookup user with _ | aff
  · rw [hlookup] at hok
    cases hok
  rw [hlookup] at hok
  simp only at hok
  rcases hvalidate : validateAffChanges options tables user room aff rec.affUsers
    affReq.affUsers with reason | validated
  · rw [hvalidate] at hok
    cases hok
  rw [hvalidate] at hok
  simp only [processAffSet] at hok
  refine ⟨rec, aff, validated, rfl, hlookup, hvalidate, ?_⟩
  by_cases hempty : validated = []
  · rw [if_pos hempty] at hok
    obtain ⟨hresponse, rfl⟩ := Prod.mk.inj hok
    cases hresponse
    exact Or.inl ⟨hempty, rfl, rfl⟩
  · rw [if_neg hempty] at hok
    rcases hmodify : Mnesia.modifyAffUsersTransaction options.toParams room validated
      (participantLimitCheck options) newVersion tables with ⟨reason | modified, tables''⟩
    · rw [hmodify] at hok
      cases hok
    · rw [hmodify] at hok
      obtain ⟨hresponse, rfl⟩ := Prod.mk.inj hok
      cases hresponse
      obtain ⟨res, hchange, hnew, hchanged, hinfo⟩ := modifyAffUsersTransaction_ok hroom hmodify
      refine Or.inr ⟨res, hchange, hchanged, ?_⟩
      rw [hnew]
      exact occupants_maybeForget hinfo

omit [DecidableEq R] in
/-- The changes of a member are those that may be asked for. -/
theorem validateAffChanges_member {user : U} {changes : AffUsers U}
    (h : validateAffChanges options tables user room .member affUsers changes = .ok validated) :
    validateAffChangesByMember user ((findAff .owner affUsers).map Prod.fst) options.allCanInvite
    changes [] = some validated := by
  simp only [validateAffChanges] at h
  rcases hvalidated : validateAffChangesByMember user ((findAff .owner affUsers).map Prod.fst)
    options.allCanInvite changes [] with _ | validated'
  · rw [hvalidated] at h
    cases h
  · rw [hvalidated] at h
    exact congrArg some (Except.ok.inj h)

/-- **A member changes no other occupant** exactly when the request names no owner. -/
theorem memberRequest_keepsOthers {options : Options R U} {tables tables' : Mnesia.Tables R U}
    {room : R} {rec : MucLightRoom U} (hroom : tables.getInfo room = some rec)
    (hau : WellFormed rec.affUsers) {user : U} (hmember : affOf rec.affUsers user = .member)
    {affReq : Affiliations U} {newVersion : String} {response : SetResponse U}
    (hok : handleRequest options user room affReq newVersion tables = (.ok response, tables')) :
    KeepsOthers user rec.affUsers (occupants tables' room) response.affReq.affUsers ↔
    NamesNoOwner rec.affUsers affReq.affUsers := by
  have hlookup : rec.affUsers.lookup user = some .member :=
    (lookup_eq_some_iff hau.nodup).2 ((affOf_eq_iff hau.nodup (by decide)).1 hmember)
  obtain ⟨rec', aff, validated, hroom', hlookup', hvalidate, hdone⟩ := handleRequest_ok hok
  cases (hroom.symm.trans hroom')
  cases (hlookup.symm.trans hlookup')
  obtain ⟨heq, hallowed⟩ := validateAffChangesByMember_cases (validateAffChanges_member hvalidate)
  rw [append_nil] at heq
  have hmem {other : U} {aff : Aff} :
      (other, aff) ∈ validated ↔ (other, aff) ∈ affReq.affUsers := by
    rw [heq, mem_reverse]
  have hnames : NamesNoOwner rec.affUsers affReq.affUsers ↔
      NamesNoOwner rec.affUsers validated := by
    simp only [NamesNoOwner, hmem]
  have hallowed' : ∀ other aff, (other, aff) ∈ validated → other = user ∧ aff = .none ∨
      some other ≠ (findAff .owner rec.affUsers).map Prod.fst ∧ aff = .member := by
    intro other aff hin
    exact hallowed other aff (hmem.1 hin)
  rw [hnames]
  rcases hdone with ⟨rfl, hresponse, rfl⟩ | ⟨res, hchange, hchanged, hnew⟩
  · -- nothing was requested and nothing has changed
    have hnothing : affReq.affUsers = [] := reverse_eq_nil_iff.1 heq.symm
    have hsame : occupants tables' room = rec.affUsers := by
      rw [occupants, hroom]
      rfl
    rw [hresponse, hnothing, hsame]
    have hmerge : MemberMerge rec.affUsers [] rec.affUsers [] user
        ((findAff .owner rec.affUsers).map Prod.fst) := by
      refine ⟨hau, hau, hmember, nodup_nil, hallowed', fun other => rfl, fun other aff => ?_⟩
      refine iff_of_false not_mem_nil ?_
      rintro ⟨hnow, hwas⟩
      exact hwas hnow
    exact hmerge.keepsOthers_iff
  · have hmerge := changeAffUsers_of_firstOwner hau (fun other hin => ?_) (fun owner hfind => ?_)
      hchange
    · rcases applyAffUsersChange_cases options.lib validated hau with
        ⟨text, herror⟩ | ⟨res', hok', hwf, hdiff, hnodup, hafter⟩
      · rw [hmerge] at herror
        cases herror
      · rw [hmerge] at hok'
        cases hok'
        rw [hnew, hchanged]
        have hmerge : MemberMerge rec.affUsers validated res.newAffUsers res.changedAffUsers user
            ((findAff .owner rec.affUsers).map Prod.fst) :=
          ⟨hau, hwf, hmember, hnodup, hallowed', hafter, hdiff.mem_changed⟩
        exact hmerge.keepsOthers_iff
    · rcases hallowed' other .owner hin with ⟨_, haff⟩ | ⟨_, haff⟩ <;> cases haff
    · -- the first owner is not the requester, and no other user may be named so
      intro hin
      obtain ⟨⟨other, aff⟩, hin, heq⟩ := mem_map.1 hin
      obtain rfl : other = owner.1 := heq
      rcases hallowed' _ _ hin with ⟨hself, _⟩ | ⟨hne, _⟩
      · obtain ⟨hfound, howner⟩ := mem_of_findAff hfind
        have haff := affOf_of_mem hau.nodup hfound
        rw [howner, hself, hmember] at haff
        cases haff
      · rw [hfind] at hne
        exact hne rfl

/-- No limits, everybody may invite, and there may be several owners. -/
def openOptions : Options ℕ ℕ where
  lib := dedupProplists
  allowMultipleOwners := true
  allCanInvite := true
  maxOccupants := none
  roomsPerUser := none
  blocking := true
  allows _ _ _ := true

/-- Tables with one room. -/
def oneRoom (affUsers : AffUsers ℕ) : Mnesia.Tables ℕ ℕ :=
  (Mnesia.createRoomTransaction 0 affUsers "1" .empty).2

/-- Two owners and a member. -/
def twoOwners : AffUsers ℕ := [(1, .owner), (2, .owner), (3, .member)]

theorem wellFormed_twoOwners : WellFormed twoOwners := ⟨by decide, by decide⟩

/-- A member leaves and adds a user: the owners are as they were. -/
theorem memberRequest_keepsOthers_invite :
    ∃ response tables', handleRequest openOptions 3 0 ⟨"", "", "", [(4, .member), (3, .none)]⟩ "2"
      (oneRoom twoOwners) = (.ok response, tables') ∧
    response.newAffUsers = [(1, .owner), (2, .owner), (4, .member)] ∧
    KeepsOthers 3 twoOwners (occupants tables' 0) response.affReq.affUsers := by
  have hroom : (oneRoom twoOwners).getInfo 0 = some ⟨twoOwners, "1"⟩ := rfl
  have hok : handleRequest openOptions 3 0 ⟨"", "", "", [(4, .member), (3, .none)]⟩ "2"
      (oneRoom twoOwners) = (.ok ⟨⟨"", "1", "2", [(4, .member), (3, .none)]⟩, twoOwners,
          [(1, .owner), (2, .owner), (4, .member)]⟩, _) := Prod.ext rfl rfl
  refine ⟨_, _, hok, rfl, (memberRequest_keepsOthers hroom wellFormed_twoOwners rfl hok).2 ?_⟩
  intro owner hmem
  have heq : owner = 4 := by simpa using hmem
  rw [heq]
  decide

/-- A member makes the second owner a member. -/
theorem memberRequest_demotes :
    ∃ response tables', (oneRoom twoOwners).getInfo 0 = some ⟨twoOwners, "1"⟩ ∧
    WellFormed twoOwners ∧ OwnersOk openOptions.allowMultipleOwners twoOwners ∧
    affOf twoOwners 3 = .member ∧
    handleRequest openOptions 3 0 ⟨"", "", "", [(2, .member)]⟩ "2" (oneRoom twoOwners) =
      (.ok response, tables') ∧
    response.newAffUsers = [(1, .owner), (2, .member), (3, .member)] ∧
    ¬ KeepsOthers 3 twoOwners (occupants tables' 0) response.affReq.affUsers := by
  have hok : handleRequest openOptions 3 0 ⟨"", "", "", [(2, .member)]⟩ "2" (oneRoom twoOwners) =
      (.ok ⟨⟨"", "1", "2", [(2, .member)]⟩, twoOwners,
        [(1, .owner), (2, .member), (3, .member)]⟩, _) := Prod.ext rfl rfl
  have howners : OwnersOk openOptions.allowMultipleOwners twoOwners := by
    show 1 ≤ (usersWith .owner twoOwners).length
    decide
  refine ⟨_, _, rfl, wellFormed_twoOwners, howners, rfl, hok, rfl, ?_⟩
  intro h
  -- the second owner is among the changes, and was in the room
  rcases h.added 2 .member (by decide) (mem_singleton.2 rfl) with ⟨hout, _⟩ | ⟨hwas, _⟩
  · exact absurd hout (by decide)
  · exact absurd hwas (by decide)

end MongooseIM.MucLight
