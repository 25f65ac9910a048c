import MongooseIM.Muc.Room

/-! # Admin requests in a room

A request of `muc#admin` holds items, each of which asks for a role or an affiliation of one JID.
All items are checked against the state before the request; then they are applied, the last one
first. -/

namespace MongooseIM.Muc

open Erlang Xmpp Option

/-- `mongoose_xmpp_errors:bad_request/2` -/
def badRequestText (text : String) : Element := stanzaErrort "400" "modify" "bad-request" text

/-- `mongoose_xmpp_errors:not_acceptable/2` -/
def notAcceptable (text : String) : Element := stanzaErrort "406" "modify" "not-acceptable" text

/-- `mongoose_xmpp_errors:forbidden/0` -/
def forbidden : Element := stanzaError "403" "auth" "forbidden"

/-- What an item asks for. -/
inductive Asked
  | affiliation (affiliation : Affiliation)
  | role (role : Role)
  deriving DecidableEq

/-- `res_row()` -/
structure ChangedItem where
  jid : Jid
  asked : Asked
  reason : String

/-- `decode_reason/1` -/
def decodeReason (item : Element) : String :=
  match item.children.find? fun child => child.name = "reason" with
  | some reason => reason.cdata
  | none => ""

/-- `which_property_changed/2` -/
def whichPropertyChanged (item : Element) : Except Element Asked :=
  match item.attr? "role", item.attr? "affiliation" with
  | none, none => .error badRequest
  | none, some bAffiliation =>
    match binaryToAffiliation bAffiliation with
    | none => .error (notAcceptable ("Invalid affiliation " ++ bAffiliation))
    | some affiliation => .ok (.affiliation affiliation)
  | some bRole, _ =>
    match binaryToRole bRole with
    | none => .error (badRequestText ("Invalid role " ++ bRole))
    | some role => .ok (.role role)

variable (lib : Library)

/-- `get_affected_jid/3` -/
def getAffectedJid (item : Element) (r : Room) : Except Element Jid :=
  match item.attr? "jid", item.attr? "nick" with
  | some s, _ =>
    match lib.fromBinary s with
    | none => .error (notAcceptable ("Jabber ID " ++ s ++ " is invalid"))
    | some jid => .ok jid
  | none, some nick =>
    match r.findJidsByNick nick with
    | [] => .error (notAcceptable ("Nickname " ++ nick ++ " does not exist in the room"))
    | firstSessionJid :: _ => .ok firstSessionJid
  | none, none => .error badRequest

/-- The answers of `can_change_ra/7`. -/
inductive CanChange
  | cancel
  | checkOwner
  | no
  | nothing
  | yes
  deriving DecidableEq

/-- `can_change_aff/3`: the affiliation of the requester, the old and the new one. -/
def canChangeAff3 (fAff tAff value : Affiliation) : CanChange :=
  if tAff = value then .nothing
  else
    match fAff, tAff, value with
    | .owner, .outcast, .none => .yes
    | .owner, .outcast, .member => .yes
    | .owner, .outcast, .admin => .yes
    | .owner, .outcast, .owner => .yes
    | .owner, .none, .outcast => .yes
    | .owner, .none, .member => .yes
    | .owner, .none, .admin => .yes
    | .owner, .none, .owner => .yes
    | .owner, .member, .outcast => .yes
    | .owner, .member, .none => .yes
    | .owner, .member, .admin => .yes
    | .owner, .member, .owner => .yes
    | .owner, .admin, _ => .yes
    | .owner, .owner, _ => .checkOwner
    | .admin, .none, .member => .yes
    | .admin, .none, .outcast => .yes
    | .admin, .outcast, .none => .yes
    | .admin, .outcast, .member => .yes
    | .admin, .member, .outcast => .yes
    | .admin, .member, .none => .yes
    | .none, .admin, _ => .cancel
    | .none, .owner, _ => .cancel
    | .admin, .owner, _ => .cancel
    | _, _, _ => .no

/-- `can_change_aff/4`, the last argument being the service affiliation. -/
def canChangeAff4 (fAff tAff value serviceAff : Affiliation) : CanChange :=
  match tAff, value, serviceAff with
  -- a room owner tries to add as persistent owner somebody who is one as a service admin
  | .owner, .owner, .owner => .yes
  | _, _, .owner => .no
  | _, _, _ => canChangeAff3 fAff tAff value

variable (fAff : Affiliation) (fRole : Role) (tAff : Affiliation)

/-- `can_change_role/5`: the affiliation and the role of the requester, the old affiliation, the
old and the new role. -/
def canChangeRole5 (tRole value : Role) : CanChange :=
  if tRole = value then .nothing
  else
    match fAff, fRole, tAff, tRole, value with
    | _, .moderator, _, .visitor, .none => .yes
    | _, .moderator, _, .visitor, .participant => .yes
    | .owner, _, _, .visitor, .moderator => .yes
    | .admin, _, _, .visitor, .moderator => .yes
    | _, .moderator, _, .participant, .none => .yes
    | _, .moderator, _, .participant, .visitor => .yes
    | .owner, _, _, .participant, .moderator => .yes
    | .admin, _, _, .participant, .moderator => .yes
    -- owners and admins are always moderators
    | _, _, .owner, .moderator, .visitor => .no
    | _, _, .admin, .moderator, .visitor => .no
    | _, _, .owner, .moderator, .participant => .no
    | _, _, .admin, .moderator, .participant => .no
    | .owner, _, _, .moderator, .visitor => .yes
    | .admin, _, _, .moderator, .visitor => .yes
    | .owner, _, _, .moderator, .participant => .yes
    | .admin, _, _, .moderator, .participant => .yes
    | _, _, _, _, _ => .no

/-- `can_change_role/6`, the last argument being the service affiliation. -/
def canChangeRole6 (tRole value : Role) (serviceAff : Affiliation) : CanChange :=
  match serviceAff with
  | .owner => .no
  | _ => canChangeRole5 fAff fRole tAff tRole value

/-- `can_change_ra/7` -/
def canChangeRa (tRole : Role) (asked : Asked) (serviceAff : Affiliation) : CanChange :=
  match asked with
  | .affiliation value => canChangeAff4 fAff tAff value serviceAff
  | .role value => canChangeRole6 fAff fRole tAff tRole value serviceAff

variable (u : Jid)

/-- `is_owner/2`: true unless the requester is the only owner on the list. -/
def isOwner (r : Room) : Bool :=
  match r.searchAffiliation .owner with
  | [(owner, _)] => owner.toBare ≠ u.toBare
  | _ => true

/-- `CanChangeRA` in `check_changed_item/9`: a check of the owner is replaced by its outcome. -/
def CanChange.afterOwner (isOwner : Bool) : CanChange → CanChange
  | .checkOwner => if isOwner then .yes else .no
  | other => other

/-- `check_changed_item/9` without what follows the item; none when nothing is to change. -/
def checkChangedItem (uAff : Affiliation) (uRole : Role) (jid : Jid) (item : Element)
    (r : Room) : Except Element (Option ChangedItem) :=
  let tAff := r.getAffiliation jid
  let tRole := r.getRole jid
  match whichPropertyChanged item with
  | .error err => .error err
  | .ok (.role role) =>
    match (canChangeRa uAff uRole tAff tRole (.role role) (r.getServiceAffiliation jid)).afterOwner
        (isOwner u r) with
    | .nothing => .ok none
    | .yes => .ok (some ⟨jid, .role role, decodeReason item⟩)
    | _ => .error notAllowed
  | .ok (.affiliation affiliation) =>
    match (canChangeRa uAff uRole tAff tRole (.affiliation affiliation)
        (r.getServiceAffiliation jid)).afterOwner (isOwner u r) with
    | .nothing => .ok none
    | .yes => .ok (some ⟨jid.toBare, .affiliation affiliation, decodeReason item⟩)
    | .cancel => .error notAllowed
    | _ => .error forbidden

/-- `find_changed_items/7` -/
def findChangedItems (lib : Library) (u : Jid) (uAff : Affiliation) (uRole : Role) (r : Room) :
    List Element → List ChangedItem → Except Element (List ChangedItem)
  | [], res => .ok res
  | item :: items, res =>
    if item.name = "item" then
      match getAffectedJid lib item r with
      | .error err => .error err
      | .ok jid =>
        match checkChangedItem u uAff uRole jid item r with
        | .error err => .error err
        | .ok none => findChangedItems lib u uAff uRole r items res
        | .ok (some changed) => findChangedItems lib u uAff uRole r items (changed :: res)
    else .error badRequest

variable (item : ChangedItem)

/-- `process_admin_item_set_unsafe/3`; none for an exception. -/
def processAdminItemSetUnsafe (r : Room) : Option Room :=
  if item.asked = .affiliation .owner ∧ item.jid.luser = "" then some r
  else
    match item.asked with
    | .role .none => Room.setRole item.jid .none r
    | .affiliation .none =>
      let r1 := Room.setAffiliationAndReason item.jid .none item.reason r
      if r.config.membersOnly then Room.setRole item.jid .none r1 else some r1
    | .affiliation .outcast =>
      (Room.setRole item.jid .none r).map
        (Room.setAffiliationAndReason item.jid .outcast item.reason)
    | .affiliation .admin =>
      Room.setRole item.jid .moderator
        (Room.setAffiliationAndReason item.jid .admin item.reason r)
    | .affiliation .owner =>
      Room.setRole item.jid .moderator
        (Room.setAffiliationAndReason item.jid .owner item.reason r)
    | .affiliation .member =>
      Room.setRole item.jid .participant
        (Room.setAffiliationAndReason item.jid .member item.reason r)
    | .role role => Room.setRole item.jid role r

/-- `process_admin_item_set/3`: an item that raises an exception changes nothing. -/
def processAdminItemSet (r : Room) : Room :=
  (processAdminItemSetUnsafe item r).getD r

variable (items : List Element)

/-- `process_admin_items_set/4` -/
def processAdminItemsSet (r : Room) : Except Element Room :=
  match findChangedItems lib u (r.getAffiliation u) (r.getRole u) r items [] with
  | .ok res => .ok (res.foldl (fun sd item => processAdminItemSet item sd) r)
  | .error err => .error err

/-- The room after `process_iq_admin/5`, as `do_route_iq/4` and the synchronous call
`set_admin_items` go on with it. -/
def processIqAdmin (r : Room) : Room :=
  match processAdminItemsSet lib u items r with
  | .ok r' => r'
  | .error _ => r

/-- What the checks say about an item on its own. -/
def checkItem (u : Jid) (r : Room) (item : Element) : Except Element (Option ChangedItem) :=
  if item.name = "item" then
    match getAffectedJid lib item r with
    | .error err => .error err
    | .ok jid => checkChangedItem u (r.getAffiliation u) (r.getRole u) jid item r
  else .error badRequest

/-- What an item is to change, if anything. -/
def changeOf (u : Jid) (r : Room) (item : Element) : Option ChangedItem :=
  match checkItem lib u r item with
  | .ok changed => changed
  | .error _ => none

/-- The room has no objection to any of the items. -/
def Accepts (u : Jid) (r : Room) (items : List Element) : Prop :=
  ∀ item ∈ items, (checkItem lib u r item).isOk

instance (lib : Library) (u : Jid) (r : Room) (items : List Element) :
    Decidable (Accepts lib u r items) :=
  inferInstanceAs (Decidable (∀ item ∈ items, (checkItem lib u r item).isOk = true))

/-- The changes of a request, in the order of its items. -/
def changesOf (u : Jid) (r : Room) (items : List Element) : List ChangedItem :=
  items.filterMap (changeOf lib u r)

theorem findChangedItems_cons (r : Room) (item : Element)
    (items : List Element) (res : List ChangedItem) :
    findChangedItems lib u (r.getAffiliation u) (r.getRole u) r (item :: items) res =
    match checkItem lib u r item with
    | .error err => .error err
    | .ok changed =>
      findChangedItems lib u (r.getAffiliation u) (r.getRole u) r items
        (changed.toList ++ res) := by
  rw [findChangedItems, checkItem]
  split
  · cases getAffectedJid lib item r with
    | error err => rfl
    | ok jid =>
      simp only
      cases checkChangedItem u (r.getAffiliation u) (r.getRole u) jid item r with
      | error err => rfl
      | ok changed => cases changed <;> rfl
  · rfl

variable {lib : Library} {u : Jid} {r : Room} {items : List Element}

/-- The checks go through exactly when each item does on its own, and collect the changes from the
last to the first. -/
theorem findChangedItems_eq_ok {res res' : List ChangedItem} :
    findChangedItems lib u (r.getAffiliation u) (r.getRole u) r items res = .ok res' ↔
    Accepts lib u r items ∧ res' = (changesOf lib u r items).reverse ++ res := by
  induction items generalizing res with
  | nil =>
    have hnil : Accepts lib u r [] := by simp [Accepts]
    rw [findChangedItems, Except.ok.injEq, eq_comm]
    exact (and_iff_right hnil).symm
  | cons item items ih =>
    rw [findChangedItems_cons, Accepts, List.forall_mem_cons, changesOf, List.filterMap_cons,
      changeOf]
    cases checkItem lib u r item with
    | error err => simp [Except.isOk, Except.toBool]
    | ok changed =>
      simp only
      rw [ih, Accepts, changesOf]
      cases changed <;> simp [Except.isOk, Except.toBool]

/-- **A request is carried out** exactly when the room accepts each of its items; the first change
is then applied last. -/
theorem processAdminItemsSet_eq_ok {r' : Room} : processAdminItemsSet lib u items r = .ok r' ↔
    Accepts lib u r items ∧ r' = (changesOf lib u r items).foldr processAdminItemSet r := by
  rw [processAdminItemsSet]
  cases hfound : findChangedItems lib u (r.getAffiliation u) (r.getRole u) r items [] with
  | error err =>
    have hnot : ¬Accepts lib u r items := by
      intro h
      have hok := (@findChangedItems_eq_ok lib u r items [] _).2 ⟨h, rfl⟩
      rw [hfound] at hok
      cases hok
    simp [hnot]
  | ok res =>
    obtain ⟨haccepts, rfl⟩ := findChangedItems_eq_ok.1 hfound
    rw [List.append_nil]
    simp only
    rw [List.foldl_reverse, Except.ok.injEq, eq_comm]
    exact (and_iff_right haccepts).symm

/-- **The room after a request**: with its changes, or as it was. -/
theorem processIqAdmin_eq (r : Room) : processIqAdmin lib u items r =
    if Accepts lib u r items then (changesOf lib u r items).foldr processAdminItemSet r
    else r := by
  rw [processIqAdmin]
  split
  · rename_i r' hok
    obtain ⟨haccepts, rfl⟩ := processAdminItemsSet_eq_ok.1 hok
    rw [if_pos haccepts]
  · rename_i err herr
    have hnot : ¬Accepts lib u r items := by
      intro h
      have hok := processAdminItemsSet_eq_ok.2 ⟨h, rfl⟩
      rw [herr] at hok
      cases hok
    rw [if_neg hnot]

/-- The JID under which a change is applied. -/
def Asked.target : Asked → Jid → Jid
  | .affiliation _, jid => jid.toBare
  | .role _, jid => jid

variable {changed : ChangedItem}

/-- **What a change has passed**: the tables allow it for the JID that the item names. -/
theorem changeOf_eq_some {item : Element} (h : changeOf lib u r item = some changed) :
    ∃ jid, getAffectedJid lib item r = .ok jid ∧ whichPropertyChanged item = .ok changed.asked ∧
    changed.jid = changed.asked.target jid ∧
    (canChangeRa (r.getAffiliation u) (r.getRole u) (r.getAffiliation jid) (r.getRole jid)
      changed.asked (r.getServiceAffiliation jid)).afterOwner (isOwner u r) = .yes := by
  rw [changeOf, checkItem] at h
  split at h
  · rename_i found hfound
    subst h
    split at hfound
    · cases hjid : getAffectedJid lib item r with
      | error err =>
        rw [hjid] at hfound
        cases hfound
      | ok jid =>
        rw [hjid] at hfound
        refine ⟨jid, rfl, ?_⟩
        simp only [checkChangedItem] at hfound
        cases hasked : whichPropertyChanged item with
        | error err =>
          rw [hasked] at hfound
          cases hfound
        | ok asked =>
          rw [hasked] at hfound
          cases asked with
          | role role | affiliation affiliation =>
            simp only at hfound
            split at hfound
            · cases hfound
            · rename_i hyes
              cases (Except.ok.inj hfound)
              exact ⟨rfl, rfl, hyes⟩
            all_goals cases hfound
    · cases hfound
  · cases h

/-- The affiliations that an admin may give and take. -/
def Affiliation.belowAdmin : Affiliation → Bool
  | .none | .member | .outcast => true
  | .owner | .admin => false

/-- The affiliations whose holders are always moderators. -/
def Affiliation.isRanked : Affiliation → Bool
  | .owner | .admin => true
  | .member | .outcast | .none => false

variable {fAff tAff : Affiliation} {value : Affiliation} {isOwner : Bool}

/-- Affiliations are changed by owners, and below the rank of an admin by admins. -/
theorem canChangeAff3_yes (h : (canChangeAff3 fAff tAff value).afterOwner isOwner = .yes) :
    tAff ≠ value ∧ (fAff = .owner ∨ fAff = .admin ∧ tAff.belowAdmin ∧ value.belowAdmin) := by
  unfold canChangeAff3 at h
  split at h
  · cases h
  · rename_i hne
    refine ⟨hne, ?_⟩
    split at h <;> first | exact .inl rfl | exact .inr ⟨rfl, rfl, rfl⟩ | cases h

/-- What the table of roles asks of a change. -/
structure RoleChange (fAff : Affiliation) (fRole : Role) (tAff : Affiliation)
    (tRole value : Role) : Prop where
  occupant : tRole ≠ .none
  changes : tRole ≠ value
  requester : fRole = .moderator ∨ fAff.isRanked
  /-- To make a moderator takes an owner or an admin. -/
  promotes : value = .moderator → fAff.isRanked
  demotes : tRole = .moderator → tAff.isRanked = false ∧ value ≠ .none

variable {fRole tRole : Role}

theorem canChangeRole5_yes {value : Role} (h : canChangeRole5 fAff fRole tAff tRole value = .yes) :
    RoleChange fAff fRole tAff tRole value := by
  unfold canChangeRole5 at h
  split at h
  · cases h
  · rename_i hne
    split at h
    -- a moderator lowers or removes somebody who is not one
    case h_1 | h_2 | h_5 | h_6 => exact ⟨nofun, hne, .inl rfl, nofun, nofun⟩
    -- an owner or admin promotes
    case h_3 | h_4 | h_7 | h_8 => exact ⟨nofun, hne, .inr rfl, fun _ => rfl, nofun⟩
    -- an owner or admin demotes somebody below their rank
    case h_13 | h_14 | h_15 | h_16 =>
      refine ⟨nofun, hne, .inr rfl, nofun, fun _ => ⟨?_, nofun⟩⟩
      cases tAff <;> simp_all [Affiliation.isRanked]
    all_goals cases h

variable {jid : Jid}

/-- A change of affiliation gives ownership to a service admin, or the table allows it. -/
theorem canChangeRa_affiliation (h : (canChangeRa fAff fRole tAff tRole (.affiliation value)
    (r.getServiceAffiliation jid)).afterOwner isOwner = .yes) :
    r.accessAdmin jid = true ∧ value = .owner ∨ r.accessAdmin jid = false ∧ tAff ≠ value ∧
      (fAff = .owner ∨ fAff = .admin ∧ tAff.belowAdmin ∧ value.belowAdmin) := by
  rw [canChangeRa, Room.getServiceAffiliation] at h
  cases hadmin : r.accessAdmin jid with
  | true =>
    rw [hadmin, if_pos rfl] at h
    cases tAff <;> cases value <;> first | exact .inl ⟨rfl, rfl⟩ | cases h
  | false =>
    have htable : (canChangeAff3 fAff tAff value).afterOwner isOwner = .yes := by
      rw [hadmin, if_neg (by decide)] at h
      cases tAff <;> cases value <;> exact h
    exact .inr ⟨rfl, canChangeAff3_yes htable⟩

/-- A change of role is never one of a service admin. -/
theorem canChangeRa_role {value : Role} (h : (canChangeRa fAff fRole tAff tRole (.role value)
    (r.getServiceAffiliation jid)).afterOwner isOwner = .yes) :
    r.accessAdmin jid = false ∧ RoleChange fAff fRole tAff tRole value := by
  rw [canChangeRa, Room.getServiceAffiliation] at h
  cases hadmin : r.accessAdmin jid with
  | true =>
    rw [hadmin, if_pos rfl] at h
    cases h
  | false =>
    rw [hadmin, if_neg (by decide)] at h
    refine ⟨rfl, canChangeRole5_yes ?_⟩
    -- the table of roles has no check of the owner
    have hno : canChangeRole5 fAff fRole tAff tRole value ≠ .checkOwner := by
      unfold canChangeRole5
      split
      · decide
      · split <;> decide
    change (canChangeRole5 fAff fRole tAff tRole value).afterOwner isOwner = .yes at h
    cases hrole : canChangeRole5 fAff fRole tAff tRole value with
    | checkOwner => exact absurd hrole hno
    | yes => rfl
    | cancel | no | nothing =>
      rw [hrole] at h
      cases h

namespace ChangedItem

/-- Changes of affiliation are about bare JIDs. -/
def WellFormed : Prop :=
  ∀ affiliation, item.asked = .affiliation affiliation → item.jid.lresource = ""

/-- The request to make a domain an owner is passed over. -/
def Ignored : Prop := item.asked = .affiliation .owner ∧ item.jid.luser = ""

instance (item : ChangedItem) : Decidable item.Ignored := inferInstanceAs (Decidable (_ ∧ _))

/-- What the change writes into the affiliation map for a bare JID, if anything. -/
def writes (jid : Jid) : Option Affiliation :=
  match item.asked with
  | .role _ => none
  | .affiliation affiliation =>
    if ¬item.Ignored ∧ jid.toBare = item.jid.toBare then some affiliation else none

/-- What the change makes of the role of an occupant it is about; none takes the occupant out. -/
def effect (membersOnly : Bool) (old : Role) : Option Role :=
  match item.asked with
  | .role .none => none
  | .role role => some role
  | .affiliation .none => if membersOnly then none else some old
  | .affiliation .outcast => none
  | .affiliation .member => some .participant
  | .affiliation .admin => some .moderator
  | .affiliation .owner => some .moderator

/-- What becomes of the role of an occupant. -/
def roleAfter (membersOnly : Bool) (jid : Jid) (old : Role) : Option Role :=
  if ¬item.Ignored ∧ Room.matched item.jid jid then item.effect membersOnly old else some old

/-- What applying a change does to the affiliations and roles of everybody. -/
structure Applied (item : ChangedItem) (r r' : Room) : Prop where
  entry : ∀ j, r'.entry j = (item.writes j).getD (r.entry j)
  roleAt : ∀ j, r'.roleAt j = (r.roleAt j).bind (item.roleAfter r.config.membersOnly j)
  accessAdmin : r'.accessAdmin = r.accessAdmin
  config : r'.config = r.config

variable {item : ChangedItem} {affiliation : Affiliation}

theorem writes_of_affiliation
    (hasked : item.asked = .affiliation affiliation) (hignored : ¬item.Ignored) (j : Jid)
    (old : Affiliation) :
    (item.writes j).getD old = if j.toBare = item.jid.toBare then affiliation else old := by
  rw [writes, hasked]
  simp only [hignored, not_false_eq_true, true_and]
  split <;> rfl

/-- A change of affiliation that also sets a role, by a bare JID. -/
theorem applied_of_both (role : Role) (r : Room)
    (hasked : item.asked = .affiliation affiliation) (hignored : ¬item.Ignored)
    (hwf : item.WellFormed)
    (heffect : ∀ old, item.effect r.config.membersOnly old =
    if role = .none then none else some role) :
    Applied item r ((Room.setRole item.jid role
    (Room.setAffiliationAndReason item.jid affiliation item.reason r)).getD r) := by
  obtain ⟨r', hr'⟩ := isSome_iff_exists.1 (Room.setRole_isSome (hwf affiliation hasked) role
    (Room.setAffiliationAndReason item.jid affiliation item.reason r))
  obtain ⟨haccess, hconfig, haffs⟩ := Room.setRole_frame hr'
  obtain ⟨affs, heq⟩ := Room.setAffiliationAndReason_eq item.jid affiliation item.reason r
  rw [hr', getD_some]
  constructor
  · intro j
    rw [writes_of_affiliation hasked hignored, ← Room.entry_setAffiliationAndReason,
      Room.entry, haffs]
    rfl
  · intro j
    rw [Room.roleAt_setRole hr', heq]
    change (r.roleAt j).bind _ = _
    congr 1
    funext old
    simp only [roleAfter, hignored, not_false_eq_true, true_and, heffect]
  · rw [haccess, heq]
  · rw [hconfig, heq]

theorem applied_of_role {role : Role} (hasked : item.asked = .role role)
    (r : Room) : Applied item r ((Room.setRole item.jid role r).getD r) := by
  have hignored : ¬item.Ignored := by simp [Ignored, hasked]
  have hafter : ∀ j old, item.roleAfter r.config.membersOnly j old =
      if Room.matched item.jid j then (if role = .none then none else some role)
      else some old := by
    intro j old
    simp only [roleAfter, hignored, not_false_eq_true, true_and]
    rw [effect, hasked]
    cases role <;> rfl
  have hwrites : ∀ j, item.writes j = none := fun j => by rw [writes, hasked]
  cases hr' : Room.setRole item.jid role r with
  | some r' =>
    obtain ⟨haccess, hconfig, haffs⟩ := Room.setRole_frame hr'
    refine ⟨fun j => ?_, fun j => ?_, haccess, hconfig⟩
    · rw [hwrites, Room.entry, getD_some, haffs]
      rfl
    · rw [getD_some, Room.roleAt_setRole hr']
      simp only [hafter]
  | none =>
    -- only a full JID that is not there fails
    obtain ⟨hfull, habsent⟩ := Room.setRole_eq_none hr'
    refine ⟨fun j => ?_, fun j => ?_, rfl, rfl⟩
    · rw [hwrites, getD_none, getD_none]
    · rw [getD_none]
      cases hj : r.roleAt j with
      | none => rfl
      | some old =>
        have hm : ¬Room.matched item.jid j := by
          intro hm
          rw [(Room.matched_full hfull).1 hm, Room.roleAt, habsent] at hj
          cases hj
        rw [bind_some, hafter, if_neg hm]

/-- A ban: the occupants are taken out before the entry is written. -/
theorem applied_of_outcast (hasked : item.asked = .affiliation .outcast)
    (hwf : item.WellFormed) (r : Room) :
    Applied item r (((Room.setRole item.jid .none r).map
    (Room.setAffiliationAndReason item.jid .outcast item.reason)).getD r) := by
  have hignored : ¬item.Ignored := by simp [Ignored, hasked]
  obtain ⟨r', hr'⟩ := isSome_iff_exists.1 (Room.setRole_isSome (hwf _ hasked) .none r)
  obtain ⟨haccess, hconfig, haffs⟩ := Room.setRole_frame hr'
  rw [hr', map_some, getD_some]
  refine ⟨fun j => ?_, fun j => ?_, haccess, hconfig⟩
  · rw [writes_of_affiliation hasked hignored, Room.entry_setAffiliationAndReason, Room.entry,
      haffs]
    rfl
  · change r'.roleAt j = _
    rw [Room.roleAt_setRole hr']
    congr 1
    funext old
    simp only [roleAfter, hignored, not_false_eq_true, true_and, effect, hasked, if_pos]

theorem applied_of_none (hasked : item.asked = .affiliation .none)
    {r : Room} (hmembers : r.config.membersOnly = false) :
    Applied item r (Room.setAffiliationAndReason item.jid .none item.reason r) := by
  have hignored : ¬item.Ignored := by simp [Ignored, hasked]
  refine ⟨fun j => ?_, fun j => ?_, rfl, rfl⟩
  · rw [writes_of_affiliation hasked hignored, Room.entry_setAffiliationAndReason]
  · have hafter : item.roleAfter r.config.membersOnly j = some := by
      funext old
      rw [roleAfter, effect, hasked, hmembers]
      exact ite_self _
    rw [hafter]
    exact (bind_fun_some (r.roleAt j)).symm

/-- **What applying a change does**, exceptions included. -/
theorem applied (hwf : item.WellFormed) (r : Room) :
    Applied item r (processAdminItemSet item r) := by
  by_cases hignored : item.Ignored
  · rw [processAdminItemSet, processAdminItemSetUnsafe,
      if_pos (show item.asked = .affiliation .owner ∧ item.jid.luser = "" from hignored)]
    refine ⟨fun j => ?_, fun j => ?_, rfl, rfl⟩
    · have hwrites : item.writes j = none := by
        rw [writes, hignored.1]
        exact if_neg fun h => h.1 hignored
      rw [hwrites]
      rfl
    · have hafter : item.roleAfter r.config.membersOnly j = some := by
        funext old
        exact if_neg fun h => h.1 hignored
      rw [hafter]
      exact (bind_fun_some (r.roleAt j)).symm
  · have hunsafe : ¬(item.asked = .affiliation .owner ∧ item.jid.luser = "") := hignored
    rw [processAdminItemSet, processAdminItemSetUnsafe, if_neg hunsafe]
    cases hasked : item.asked with
    | role role => cases role <;> exact applied_of_role hasked r
    | affiliation affiliation =>
      cases affiliation with
      | none =>
        cases hmembers : r.config.membersOnly with
        | true =>
          exact applied_of_both .none r hasked hignored hwf fun old => by
            simp [effect, hasked, hmembers]
        | false => exact applied_of_none hasked hmembers
      | outcast => exact applied_of_outcast hasked hwf r
      | member =>
        exact applied_of_both .participant r hasked hignored hwf fun old => by
          simp [effect, hasked]
      | admin | owner =>
        exact applied_of_both .moderator r hasked hignored hwf fun old => by
          simp [effect, hasked]

end ChangedItem

/-- The change sets a role, the one it asks for if it asks for one, and affiliations. -/
def ChangedItem.SetsRole (r r' : Room) : Prop :=
  ∃ role affs affs' r₁, Room.setRole item.jid role { r with affiliations := affs } = some r₁ ∧
    r' = { r₁ with affiliations := affs' } ∧ ∀ asked, item.asked = .role asked → asked = role

/-- **A change leaves the occupants alone or sets the role** of those it is about. -/
theorem processAdminItemSet_cases (r : Room) :
    (∃ affs, processAdminItemSet item r = { r with affiliations := affs }) ∨
    item.SetsRole r (processAdminItemSet item r) := by
  rw [processAdminItemSet]
  cases hres : processAdminItemSetUnsafe item r with
  | none => exact .inl ⟨r.affiliations, rfl⟩
  | some r' =>
    rw [getD_some]
    have hrole : ∀ role, item.asked = .role role → Room.setRole item.jid role r = some r' →
        item.SetsRole r r' := by
      intro role hasked hset
      refine ⟨role, r.affiliations, r'.affiliations, r', hset, rfl, fun asked h => ?_⟩
      rw [hasked] at h
      exact (Asked.role.inj h).symm
    have haff : ∀ affiliation role, item.asked = .affiliation affiliation →
        Room.setRole item.jid role
          (Room.setAffiliationAndReason item.jid affiliation item.reason r) = some r' →
        item.SetsRole r r' := by
      intro affiliation role hasked hset
      obtain ⟨affs, heq⟩ := Room.setAffiliationAndReason_eq item.jid affiliation item.reason r
      rw [heq] at hset
      exact ⟨role, affs, r'.affiliations, r', hset, rfl, fun asked h => by simp [hasked] at h⟩
    rw [processAdminItemSetUnsafe] at hres
    split at hres
    · cases hres
      exact .inl ⟨r.affiliations, rfl⟩
    · cases hasked : item.asked with
      | role role =>
        rw [hasked] at hres
        cases role <;> exact .inr (hrole _ hasked hres)
      | affiliation affiliation =>
        rw [hasked] at hres
        cases affiliation with
        | none =>
          simp only at hres
          split at hres
          · exact .inr (haff _ _ hasked hres)
          · cases hres
            exact .inl (Room.setAffiliationAndReason_eq ..)
        | outcast =>
          -- the role first
          obtain ⟨r₁, hset, rfl⟩ := map_eq_some_iff.1 hres
          obtain ⟨affs, heq⟩ := Room.setAffiliationAndReason_eq item.jid .outcast item.reason r₁
          exact .inr ⟨.none, r.affiliations, affs, r₁, hset, heq, fun asked h => by
            simp [hasked] at h⟩
        | member | admin | owner => exact .inr (haff _ _ hasked hres)

theorem wellFormed_of_mem_changesOf (h : changed ∈ changesOf lib u r items) :
    changed.WellFormed := by
  obtain ⟨item, -, hitem⟩ := List.mem_filterMap.1 h
  obtain ⟨jid, -, -, hjid, -⟩ := changeOf_eq_some hitem
  intro affiliation hasked
  rw [hjid, hasked]
  rfl

/-- **What changes leave**: an entry is what the first change for it says, a role is what the
changes make of it from the last to the first. -/
theorem applied_foldr {changes : List ChangedItem}
    (hwf : ∀ changed ∈ changes, changed.WellFormed) (r : Room) :
    let r' := changes.foldr processAdminItemSet r
    (∀ j, r'.entry j = (changes.findSome? fun changed => changed.writes j).getD (r.entry j)) ∧
      (∀ j, r'.roleAt j = changes.foldr
        (fun changed role => role.bind (changed.roleAfter r.config.membersOnly j)) (r.roleAt j)) ∧
      r'.accessAdmin = r.accessAdmin ∧ r'.config = r.config := by
  induction changes with
  | nil => exact ⟨fun _ => rfl, fun _ => rfl, rfl, rfl⟩
  | cons changed changes ih =>
    obtain ⟨hfirst, hrest⟩ := List.forall_mem_cons.1 hwf
    obtain ⟨hentry, hrole, haccess, hconfig⟩ := ih hrest
    have happlied := ChangedItem.applied hfirst (changes.foldr processAdminItemSet r)
    refine ⟨fun j => ?_, fun j => ?_, happlied.accessAdmin.trans haccess,
      happlied.config.trans hconfig⟩
    · rw [List.foldr_cons, happlied.entry, hentry, List.findSome?_cons]
      cases changed.writes j <;> rfl
    · rw [List.foldr_cons, happlied.roleAt, hrole, hconfig]
      rfl

end MongooseIM.Muc
