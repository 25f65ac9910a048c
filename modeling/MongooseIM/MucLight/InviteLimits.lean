import MongooseIM.MucLight.SetAffiliations

/-! # Blocking and the limit of rooms

Users block other users and rooms, and the number of rooms of a user is limited. An owner's request
loses the changes of users who block it, and all changes once the owner has too many rooms. A
member's request is taken as it is. -/

namespace MongooseIM.MucLight

open Erlang List

variable {R U : Type*} [DecidableEq R] [LinearOrder U]

/-- `{blocking_what(), jid:simple_bare_jid()}` -/
inductive BlockingItem (R U : Type*)
  | user (user : U)
  | room (room : R)
  deriving DecidableEq

/-- `muc_light_blocking`, a bag. -/
abbrev BlockingTable (R U : Type*) := List (U × BlockingItem R U)

variable (table : BlockingTable R U)

/-- `get_blocking/4` is `allow`. -/
def getBlocking (userUs : U) (whatWhos : List (BlockingItem R U)) : Bool :=
  let blocklist := (table.filter fun entry => entry.1 = userUs).map Prod.snd
  !whatWhos.any fun whatWho => decide (whatWho ∈ blocklist)

variable (options : Options R U) (table : BlockingTable R U)

/-- The options with what is blocked. -/
def Options.withBlocking : Options R U :=
  { options with
    allows := fun userUs fromUs room => getBlocking table userUs [.user fromUs, .room room] }

/-- A user has blocked another one or a room. -/
def Blocks (other user : U) (room : R) : Prop :=
  (other, BlockingItem.user user) ∈ table ∨ (other, BlockingItem.room room) ∈ table

theorem getBlocking_eq_true_iff {table : BlockingTable R U} {other user : U} {room : R} :
    getBlocking table other [.user user, .room room] = true ↔ ¬ Blocks table other user room := by
  have hmem (item : BlockingItem R U) :
      item ∈ (table.filter fun entry => entry.1 = other).map Prod.snd ↔ (other, item) ∈ table := by
    rw [mem_map]
    constructor
    · rintro ⟨⟨other', item'⟩, hin, rfl⟩
      obtain ⟨hin, heq⟩ := mem_filter.1 hin
      exact of_decide_eq_true heq ▸ hin
    · intro hin
      exact ⟨_, mem_filter.2 ⟨hin, decide_eq_true rfl⟩, rfl⟩
  simp [getBlocking, Blocks, hmem]

/-- What commands make of no rooms. -/
def Reached (params : Params U) (tables : Mnesia.Tables R U) : Prop :=
  ∃ commands : List (Command R U), commands.foldl (Mnesia.step params) .empty = tables

variable {tables : Mnesia.Tables R U}

/-- **The bag is in step with the rooms**, and these are well-formed. -/
theorem Reached.indexed {params : Params U} (h : Reached params tables) :
    Mnesia.Indexed tables ∧ Store.WellFormed tables.getInfo := by
  obtain ⟨commands, rfl⟩ := h
  suffices hrun : ∀ tables : Mnesia.Tables R U, Mnesia.Indexed tables →
      Store.WellFormed tables.getInfo → Mnesia.Indexed (commands.foldl (Mnesia.step params) tables) ∧
        Store.WellFormed (commands.foldl (Mnesia.step params) tables).getInfo by
    refine hrun _ ⟨fun user room => iff_of_false not_mem_nil ?_, nodup_nil⟩ ?_
    · rintro ⟨rec, hrec, -⟩
      cases hrec
    · intro room rec hrec
      cases hrec
  induction commands with
  | nil => exact fun tables hindexed hwf => ⟨hindexed, hwf⟩
  | cons command commands ih =>
    intro tables hindexed hwf
    obtain ⟨hinfo, hindexed'⟩ := Mnesia.step_refines hindexed hwf params command
    exact ih _ hindexed' (hinfo ▸ hwf.step params command)

/-- A user is in fewer rooms than the limit. -/
def BelowLimit (tables : Mnesia.Tables R U) (roomsPerUser : Option ℕ) (user : U) : Prop :=
  ∀ limit ∈ roomsPerUser, ∀ rooms : List R, rooms.Nodup →
    (∀ room ∈ rooms, user ∈ users (occupants tables room)) → rooms.length < limit

omit [LinearOrder U] in
theorem mem_users_occupants {user : U} {room : R} : user ∈ users (occupants tables room) ↔
    ∃ rec, tables.getInfo room = some rec ∧ user ∈ users rec.affUsers := by
  rw [occupants]
  cases tables.getInfo room with
  | none => simp
  | some rec => simp

/-- The limit is compared with the number of rooms that the user is in. -/
theorem checkRoomLimitReached_eq_false_iff (h : Mnesia.Indexed tables)
    {user : U} {roomsPerUser : Option ℕ} :
    checkRoomLimitReached tables user roomsPerUser = false ↔
    BelowLimit tables roomsPerUser user := by
  cases roomsPerUser with
  | none => exact ⟨fun _ limit hlimit => absurd hlimit.symm (Option.some_ne_none _), fun _ => rfl⟩
  | some limit =>
    have hmem (room : R) :
        room ∈ (tables.mucLightUserRoom.filter fun pair => pair.1 = user).map Prod.snd ↔
          user ∈ users (occupants tables room) :=
      h.mem_rooms.trans mem_users_occupants.symm
    rw [checkRoomLimitReached, decide_eq_false_iff_not, not_le, ← length_map Prod.snd]
    constructor
    · intro hlt limit' hlimit rooms hrooms hin
      cases hlimit
      refine lt_of_le_of_lt ?_ hlt
      have hsubset := fun room hroom => (hmem room).2 (hin room hroom)
      exact (subperm_of_subset hrooms hsubset).length_le
    · intro hbelow
      exact hbelow limit rfl _ h.nodup_rooms fun room hroom => (hmem room).1 hroom

theorem joiningUsers_maybeSelectNewOwner (res : ChangeSuccess U) :
    (maybeSelectNewOwner res).joiningUsers = res.joiningUsers := by
  rw [maybeSelectNewOwner]
  split_ifs
  · split <;> rfl
  · rfl

theorem joiningUsers_of_maybeDemoteOldOwner {res res' : ChangeSuccess U}
    (h : maybeDemoteOldOwner res = .ok res') : res'.joiningUsers = res.joiningUsers := by
  rw [maybeDemoteOldOwner] at h
  split_ifs at h
  · rw [Except.ok.inj h]
  · split at h
    · rw [← Except.ok.inj h]
    · cases h

variable {allowMultipleOwners : Bool} {res : ChangeSuccess U}

/-- Whatever happens to the owners, those join who join in the merge. -/
theorem joiningUsers_of_changeAffUsers {lib : Proplists U} {au auc : AffUsers U}
    (hok : changeAffUsers lib allowMultipleOwners au auc = .ok res) :
    ∃ merge, applyAffUsersChange lib au auc = .ok merge ∧
    res.joiningUsers = merge.joiningUsers := by
  rw [changeAffUsers] at hok
  split at hok
  · exact ⟨res, hok, rfl⟩
  · cases hok
  · cases hmerge : applyAffUsersChange lib au auc with
    | error failure =>
      rw [hmerge] at hok
      cases hok
    | ok merge =>
      rw [hmerge] at hok
      refine ⟨merge, rfl, ?_⟩
      cases allowMultipleOwners with
      | true =>
        cases hok
        exact joiningUsers_maybeSelectNewOwner merge
      | false =>
        replace hok : (maybeDemoteOldOwner merge >>= fun demoted =>
            pure (maybeSelectNewOwner demoted)) = Except.ok res := hok
        cases hdemote : maybeDemoteOldOwner merge with
        | error failure =>
          rw [hdemote] at hok
          cases hok
        | ok demoted =>
          rw [hdemote] at hok
          cases hok
          exact (joiningUsers_maybeSelectNewOwner demoted).trans
            (joiningUsers_of_maybeDemoteOldOwner hdemote)

/-- A change that adds a user to the occupants. -/
def Adds (affUsers : AffUsers U) (change : U × Aff) : Prop :=
  change.1 ∉ users affUsers ∧ change.2 ≠ .none

/-- **Who is added is named so by the changes.** -/
theorem mem_newAffUsers_iff {lib : Proplists U} {au auc : AffUsers U} (hau : WellFormed au)
    (hok : changeAffUsers lib allowMultipleOwners au auc = .ok res) {other : U}
    (hout : other ∉ users au) :
    other ∈ users res.newAffUsers ↔ ∃ aff, (other, aff) ∈ auc ∧ Adds au (other, aff) := by
  obtain ⟨merge, hmerge, hjoining⟩ := joiningUsers_of_changeAffUsers hok
  rcases changeAffUsers_cases lib allowMultipleOwners hau auc with
    ⟨text, herror⟩ | ⟨res', hok', -, hdiff, -⟩
  · rw [hok] at herror
    cases herror
  cases (hok.symm.trans hok')
  rcases applyAffUsersChange_cases lib auc hau with
    ⟨text, herror⟩ | ⟨merge', hmerge', hwf, hdiff', hnodup, haff⟩
  · rw [hmerge] at herror
    cases herror
  cases (hmerge.symm.trans hmerge')
  -- choosing owners adds and removes nobody
  have hsame : other ∈ users res.newAffUsers ↔ other ∈ users merge.newAffUsers := by
    have hres := hdiff.mem_joining other
    rw [hjoining, hdiff'.mem_joining, and_iff_left hout, and_iff_left hout] at hres
    exact hres.symm
  have hwas : affOf au other = .none := not_not.1 fun hne => hout (hau.mem_users_iff.2 hne)
  rw [hsame, hwf.mem_users_iff, haff, hwas]
  constructor
  · intro hne
    cases hlookup : auc.lookup other with
    | none =>
      rw [hlookup] at hne
      exact absurd rfl hne
    | some aff =>
      rw [hlookup] at hne
      exact ⟨aff, mem_of_lookup hlookup, hout, hne⟩
  · rintro ⟨aff, hmem, -, hne⟩
    rw [lookup_of_mem hnodup hmem]
    exact hne

/-- The owner's request loses the change of a user who blocks it. -/
def Prevented (user : U) (room : R) (change : U × Aff) : Prop :=
  options.blocking = true ∧ change.1 ≠ user ∧ Blocks table change.1 user room

/-- **A request protects the users** who are added, and a limit keeps back no other change. -/
structure Protects (options : Options R U) (table : BlockingTable R U)
    (tables tables' : Mnesia.Tables R U) (user : U) (room : R) (changes : AffUsers U) : Prop where
  /-- Whoever is added is the requester or has blocked neither it nor the room. -/
  notBlocked : ∀ other, other ∉ users (occupants tables room) →
    other ∈ users (occupants tables' room) → other = user ∨ ¬ Blocks table other user room
  /-- Whoever is added was in fewer rooms than the limit. -/
  belowLimit : ∀ other, other ∉ users (occupants tables room) →
    other ∈ users (occupants tables' room) → BelowLimit tables options.roomsPerUser other
  /-- A change that adds nobody is passed on, unless its user blocks it. -/
  passedOn : ∀ change ∈ changes, ¬ Adds (occupants tables room) change →
    ∀ validated, validateAffChanges (options.withBlocking table) tables user room
      (affOf (occupants tables room) user) (occupants tables room) changes = .ok validated →
    change ∈ validated ∨ Prevented options table user room change

/-- **A request that leaves nobody to a limit that is not looked at.** -/
structure SafeRequest (options : Options R U) (table : BlockingTable R U)
    (tables : Mnesia.Tables R U) (user : U) (room : R) (changes : AffUsers U) : Prop where
  /-- A member adds users who block nothing and are in few rooms. -/
  member : affOf (occupants tables room) user = .member → ∀ change ∈ changes,
    Adds (occupants tables room) change →
      ¬ Blocks table change.1 user room ∧ BelowLimit tables options.roomsPerUser change.1
  /-- So does an owner in few rooms; the users who block the request are left out. -/
  owner : affOf (occupants tables room) user = .owner →
    BelowLimit tables options.roomsPerUser user → ∀ change ∈ changes,
      Adds (occupants tables room) change → ¬ Prevented options table user room change →
        ¬ Blocks table change.1 user room ∧ BelowLimit tables options.roomsPerUser change.1
  full : affOf (occupants tables room) user = .owner →
    ¬ BelowLimit tables options.roomsPerUser user → ∀ change ∈ changes,
      Adds (occupants tables room) change ∨ Prevented options table user room change

section Requests

variable {options : Options R U} {table : BlockingTable R U} {tables tables' : Mnesia.Tables R U}
  {user : U} {room : R} {changes validated : AffUsers U}

/-- Below the limit an owner's changes are passed on but those that are prevented. -/
theorem mem_filterOutPrevented_iff (hindexed : Mnesia.Indexed tables) {change : U × Aff} :
    change ∈ filterOutPrevented (options.withBlocking table) tables user room changes ↔
    change ∈ changes ∧ ¬ Prevented options table user room change ∧
      BelowLimit tables options.roomsPerUser user := by
  have hallows : (options.withBlocking table).allows change.1 user room = true ↔
      ¬ Blocks table change.1 user room := getBlocking_eq_true_iff
  rw [filterOutPrevented, mem_filter, Bool.and_eq_true, Bool.not_eq_true',
    checkRoomLimitReached_eq_false_iff hindexed, Prevented]
  refine and_congr_right fun _ => and_congr_left' ?_
  rw [Bool.or_eq_true, Bool.or_eq_true, hallows, Bool.not_eq_true', decide_eq_true_iff]
  have hblocking : (options.withBlocking table).blocking = options.blocking := rfl
  rw [hblocking]
  cases options.blocking <;> by_cases hself : change.1 = user <;> simp [hself]

/-- The requester is in the room. -/
structure Passed (options : Options R U) (table : BlockingTable R U)
    (tables tables' : Mnesia.Tables R U) (user : U) (room : R) (changes validated : AffUsers U) :
    Prop where
  indexed : Mnesia.Indexed tables
  inside : user ∈ users (occupants tables room)
  passed : validateAffChanges (options.withBlocking table) tables user room
    (affOf (occupants tables room) user) (occupants tables room) changes = .ok validated
  added : ∀ other, other ∉ users (occupants tables room) →
    (other ∈ users (occupants tables' room) ↔
      ∃ aff, (other, aff) ∈ validated ∧ Adds (occupants tables room) (other, aff))

theorem passed_of_handleRequest (h : Reached options.toParams tables)
    {request : Affiliations U} {newVersion : String} {response : SetResponse U}
    (hok : handleRequest (options.withBlocking table) user room request newVersion tables =
    (.ok response, tables')) :
    ∃ validated, Passed options table tables tables' user room request.affUsers validated := by
  obtain ⟨hindexed, hwf⟩ := h.indexed
  obtain ⟨rec, aff, validated, hroom, hlookup, hvalidate, hdone⟩ := handleRequest_ok hok
  have hoccupants : occupants tables room = rec.affUsers := by
    rw [occupants, hroom]
    rfl
  have hau := hwf room rec hroom
  have hmem := mem_of_lookup hlookup
  have haff := affOf_of_mem hau.nodup hmem
  refine ⟨validated, hindexed, ?_, ?_, fun other hout => ?_⟩
  · rw [hoccupants]
    exact mem_map_of_mem hmem
  · rw [hoccupants, haff]
    exact hvalidate
  · rw [hoccupants] at hout ⊢
    rcases hdone with ⟨rfl, -, rfl⟩ | ⟨res, hchange, -, hnew⟩
    · rw [hoccupants]
      refine iff_of_false hout ?_
      rintro ⟨aff, hin, -⟩
      cases hin
    · rw [hnew]
      exact mem_newAffUsers_iff hau hchange hout

/-- Nobody is added but by changes that are passed on. -/
theorem Passed.protected_iff (h : Passed options table tables tables' user room changes validated) :
    Protects options table tables tables' user room changes ↔
    (∀ change ∈ validated, Adds (occupants tables room) change →
      ¬ Blocks table change.1 user room ∧ BelowLimit tables options.roomsPerUser change.1) ∧
    ∀ change ∈ changes, ¬ Adds (occupants tables room) change →
      change ∈ validated ∨ Prevented options table user room change := by
  constructor
  · intro hprotects
    constructor
    · rintro ⟨other, aff⟩ hmem hadds
      have hin := (h.added other hadds.1).2 ⟨aff, hmem, hadds⟩
      refine ⟨?_, hprotects.belowLimit other hadds.1 hin⟩
      rcases hprotects.notBlocked other hadds.1 hin with rfl | hnot
      · exact absurd h.inside hadds.1
      · exact hnot
    · intro change hmem hadds
      exact hprotects.passedOn change hmem hadds validated h.passed
  · rintro ⟨hadded, hpassed⟩
    refine ⟨fun other hout hin => ?_, fun other hout hin => ?_, fun change hmem hadds v hv => ?_⟩
    · obtain ⟨aff, hmem, hadds⟩ := (h.added other hout).1 hin
      exact Or.inr (hadded _ hmem hadds).1
    · obtain ⟨aff, hmem, hadds⟩ := (h.added other hout).1 hin
      exact (hadded _ hmem hadds).2
    · cases (h.passed.symm.trans hv)
      exact hpassed change hmem hadds

/-- A request that succeeds protects the users exactly when it is safe: it adds nobody who has to
be protected, and where the requester has too many rooms it does nothing else. -/
theorem protects_iff (h : Reached options.toParams tables) {request : Affiliations U}
    {newVersion : String} {response : SetResponse U}
    (hok : handleRequest (options.withBlocking table) user room request newVersion tables =
    (.ok response, tables')) :
    Protects options table tables tables' user room request.affUsers ↔
    SafeRequest options table tables user room request.affUsers := by
  obtain ⟨validated, hpassed⟩ := passed_of_handleRequest h hok
  rw [hpassed.protected_iff]
  have hvalidated := hpassed.passed
  cases haff : affOf (occupants tables room) user with
  | none =>
    rw [haff] at hvalidated
    cases hvalidated
  | member =>
    rw [haff] at hvalidated
    -- a member has its changes passed on without a filter
    have hmem {change : U × Aff} : change ∈ validated ↔ change ∈ request.affUsers := by
      obtain ⟨heq, -⟩ := validateAffChangesByMember_cases (validateAffChanges_member hvalidated)
      rw [heq, append_nil, mem_reverse]
    constructor
    · rintro ⟨hadded, -⟩
      refine ⟨fun _ change hin => hadded change (hmem.2 hin), fun howner => ?_, fun howner => ?_⟩
      · rw [haff] at howner
        cases howner
      · rw [haff] at howner
        cases howner
    · intro hsafe
      exact ⟨fun change hin => hsafe.member haff change (hmem.1 hin),
        fun change hin _ => Or.inl (hmem.2 hin)⟩
  | owner =>
    rw [haff] at hvalidated
    obtain rfl : filterOutPrevented (options.withBlocking table) tables user room
      request.affUsers = validated := Except.ok.inj hvalidated
    simp only [mem_filterOutPrevented_iff hpassed.indexed]
    have hnotMember : affOf (occupants tables room) user ≠ .member := by
      rw [haff]
      decide
    -- the filter looks at the rooms of the owner, and so keeps all changes or none
    by_cases hbelow : BelowLimit tables options.roomsPerUser user
    · constructor
      · rintro ⟨hadded, -⟩
        exact ⟨fun hmember => absurd hmember hnotMember,
          fun _ _ change hin hadds hnot => hadded change ⟨hin, hnot, hbelow⟩ hadds,
          fun _ hfull => absurd hbelow hfull⟩
      · intro hsafe
        refine ⟨fun change hin hadds => hsafe.owner haff hbelow change hin.1 hadds hin.2.1,
          fun change hin _ => ?_⟩
        by_cases hprevented : Prevented options table user room change
        · exact Or.inr hprevented
        · exact Or.inl ⟨hin, hprevented, hbelow⟩
    · constructor
      · rintro ⟨-, hkept⟩
        refine ⟨fun hmember => absurd hmember hnotMember, fun _ h => absurd h hbelow,
          fun _ _ change hin => ?_⟩
        by_cases hadds : Adds (occupants tables room) change
        · exact Or.inl hadds
        · exact Or.inr ((hkept change hin hadds).resolve_left fun hin => hbelow hin.2.2)
      · intro hsafe
        refine ⟨fun change hin => absurd hin.2.2 hbelow, fun change hin hadds => Or.inr ?_⟩
        exact (hsafe.full haff hbelow change hin).resolve_left hadds

end Requests

/-- Two rooms for each user. -/
def twoRooms : Options ℕ ℕ := { openOptions with roomsPerUser := some 2 }

/-- The first user owns a room and the fourth one two others, who has blocked the second user. -/
def threeRooms : Mnesia.Tables ℕ ℕ :=
  [Command.createRoom 0 ⟨[(1, .owner), (2, .member)], by decide, by decide⟩ "1",
    .createRoom 5 ⟨[(4, .owner)], by decide, by decide⟩ "1",
    .createRoom 6 ⟨[(4, .owner)], by decide, by decide⟩ "1"].foldl
    (Mnesia.step twoRooms.toParams) .empty

/-- An owner adds a user without rooms. -/
theorem protects_newUser :
    ∃ response tables', handleRequest (twoRooms.withBlocking [(4, .user 2)]) 1 0
      ⟨"", "", "", [(3, .member)]⟩ "2" threeRooms = (.ok response, tables') ∧
    Protects twoRooms [(4, .user 2)] threeRooms tables' 1 0 [(3, .member)] := by
  have hreached : Reached twoRooms.toParams threeRooms := ⟨_, rfl⟩
  have hok : handleRequest (twoRooms.withBlocking [(4, .user 2)]) 1 0
      ⟨"", "", "", [(3, .member)]⟩ "2" threeRooms =
        (.ok ⟨⟨"", "1", "2", [(3, .member)]⟩, [(1, .owner), (2, .member)],
          [(1, .owner), (2, .member), (3, .member)]⟩, _) := Prod.ext rfl rfl
  refine ⟨_, _, hok, (protects_iff hreached hok).2 ?_⟩
  have hindexed := hreached.indexed.1
  have hbelow (user : ℕ) (h : checkRoomLimitReached threeRooms user (some 2) = false) :
      BelowLimit threeRooms twoRooms.roomsPerUser user :=
    (checkRoomLimitReached_eq_false_iff hindexed).1 h
  refine ⟨fun hmember => ?_, fun _ _ change hmem _ _ => ?_, fun _ hfull => ?_⟩
  · exact absurd hmember (by decide)
  · obtain rfl := mem_singleton.1 hmem
    exact ⟨by simp [Blocks], hbelow 3 (by decide)⟩
  · exact absurd (hbelow 1 (by decide)) hfull

/-- An owner adds a user who is in two rooms already. -/
theorem owner_adds_beyond_limit : ∃ response tables', Reached twoRooms.toParams threeRooms ∧
    handleRequest (twoRooms.withBlocking []) 1 0 ⟨"", "", "", [(4, .member)]⟩ "2" threeRooms =
      (.ok response, tables') ∧
    response.newAffUsers = [(1, .owner), (2, .member), (4, .member)] ∧
    ¬ Protects twoRooms [] threeRooms tables' 1 0 [(4, .member)] := by
  have hok : handleRequest (twoRooms.withBlocking []) 1 0 ⟨"", "", "", [(4, .member)]⟩ "2"
      threeRooms = (.ok ⟨⟨"", "1", "2", [(4, .member)]⟩, [(1, .owner), (2, .member)],
          [(1, .owner), (2, .member), (4, .member)]⟩, _) := Prod.ext rfl rfl
  have hreached : Reached twoRooms.toParams threeRooms := ⟨_, rfl⟩
  refine ⟨_, _, hreached, hok, rfl, fun hprotects => ?_⟩
  obtain ⟨validated, hpassed⟩ := passed_of_handleRequest hreached hok
  have hvalidated : [(4, .member)] = validated := Except.ok.inj hpassed.passed
  have hout : 4 ∉ users (occupants threeRooms 0) := by decide
  have hadded := (hpassed.added 4 hout).2
    ⟨.member, hvalidated ▸ mem_singleton_self _, hout, by decide⟩
  -- two rooms are not fewer than two
  have hbelow := hprotects.belowLimit 4 hout hadded 2 rfl [5, 6] (by decide) (by decide)
  exact absurd hbelow (by decide)

end MongooseIM.MucLight
