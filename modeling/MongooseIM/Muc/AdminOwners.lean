import MongooseIM.Muc.Admin

/-! # The owners that an admin request leaves

The last owner cannot give up ownership: `is_owner/2` refuses that to a requester who is alone on
the list of owners. The check is made for each item against the state before the request, so that
two owners may be dismissed by one request, and it is about the requester, who need not be the
owner on the list. -/

namespace MongooseIM.Muc

open Erlang Xmpp

/-- The affiliation map names an owner. -/
def Room.HasOwner (r : Room) : Prop := r.searchAffiliation .owner ≠ []

instance (r : Room) : Decidable r.HasOwner := inferInstanceAs (Decidable (_ ≠ _))

variable {r : Room}

/-- There is an owner when the entry of some account says so. -/
theorem Room.hasOwner_iff : r.HasOwner ↔ ∃ jid, r.entry jid = .owner := by
  rw [HasOwner, searchAffiliation, ne_eq, List.filter_eq_nil_iff, not_forall]
  constructor
  · rintro ⟨⟨jid, value⟩, h⟩
    obtain ⟨hmem, howner⟩ := Classical.not_imp.1 h
    obtain ⟨⟨jid', value'⟩, hentry, heq⟩ := List.mem_map.1 hmem
    cases heq
    have hfind : r.affiliations.find jid' = some value' := AList.mem_lookup_iff.2 hentry
    have hbare : jid'.toBare = jid' := by
      by_contra hne
      have hresource : jid'.lresource ≠ "" := by
        intro hr
        exact hne (by rw [Jid.toBare, ← hr])
      rw [Affiliations.find_of_resource hresource] at hfind
      cases hfind
    refine ⟨jid', ?_⟩
    rw [entry, hbare, hfind]
    simpa using howner
  · rintro ⟨jid, howner⟩
    rw [entry] at howner
    cases hfind : r.affiliations.find jid.toBare with
    | none =>
      rw [hfind] at howner
      cases howner
    | some value =>
      rw [hfind] at howner
      refine ⟨(jid.toBare, value), ?_⟩
      rw [Classical.not_imp]
      refine ⟨List.mem_map.2 ⟨⟨jid.toBare, value⟩, AList.mem_lookup_iff.1 hfind, rfl⟩, ?_⟩
      simpa using howner

/-- The affiliation that an item asks for an account. An item makes no difference when it asks for
the affiliation that the JID has, unless it has it as a service admin, or when it asks for the
ownership of a domain. -/
def asksFor (lib : Library) (r : Room) (account : Jid) (item : Element) : Option Affiliation :=
  match getAffectedJid lib item r, whichPropertyChanged item with
  | .ok jid, .ok (.affiliation affiliation) =>
    if jid.toBare = account.toBare ∧ (r.accessAdmin jid ∨ r.getAffiliation jid ≠ affiliation) ∧
        ¬(affiliation = .owner ∧ jid.luser = "") then some affiliation
    else none
  | _, _ => none

/-- The request is refused, or some account is an owner by the first item that makes a difference
for it, or by its entry when no item does. -/
def KeepsOwner (lib : Library) (u : Jid) (r : Room) (items : List Element) : Prop :=
  ¬Accepts lib u r items ∨
    ∃ account, (items.findSome? (asksFor lib r account)).getD (r.entry account) = .owner

/-- The table finds nothing to change exactly when the affiliation is there, and the JID is not a
service admin. -/
theorem canChangeAff4_nothing {fAff value : Affiliation} {jid : Jid}
    {isOwner : Bool} :
    (canChangeAff4 fAff (r.getAffiliation jid) value (r.getServiceAffiliation jid)).afterOwner
      isOwner = .nothing ↔ r.accessAdmin jid = false ∧ r.getAffiliation jid = value := by
  rw [Room.getServiceAffiliation]
  cases hadmin : r.accessAdmin jid with
  | true =>
    rw [if_pos rfl]
    cases r.getAffiliation jid <;> cases value <;> simp [canChangeAff4, CanChange.afterOwner]
  | false =>
    have htable : canChangeAff4 fAff (r.getAffiliation jid) value .none =
        canChangeAff3 fAff (r.getAffiliation jid) value := by
      cases r.getAffiliation jid <;> cases value <;> rfl
    rw [if_neg (by decide), htable]
    unfold canChangeAff3
    split
    · simp_all [CanChange.afterOwner]
    · split <;> simp_all [CanChange.afterOwner]
      cases isOwner <;> simp

/-- What the checks find for a change of affiliation makes the difference that the item asks for. -/
theorem writes_of_verdict {jid : Jid} {affiliation : Affiliation}
    {fAff : Affiliation} {isOwner : Bool} {verdict : CanChange}
    (hverdict : (canChangeAff4 fAff (r.getAffiliation jid) affiliation
    (r.getServiceAffiliation jid)).afterOwner isOwner = verdict) (reason : String)
    (account : Jid) :
    (if verdict = .nothing then none
    else ChangedItem.writes ⟨jid.toBare, .affiliation affiliation, reason⟩ account) =
    if jid.toBare = account.toBare ∧ (r.accessAdmin jid ∨ r.getAffiliation jid ≠ affiliation) ∧
      ¬(affiliation = .owner ∧ jid.luser = "") then some affiliation
    else none := by
  have hnothing : verdict = .nothing ↔
      ¬(r.accessAdmin jid ∨ r.getAffiliation jid ≠ affiliation) := by
    rw [← hverdict, canChangeAff4_nothing, not_or, not_not, Bool.not_eq_true]
  have hignored : (ChangedItem.mk jid.toBare (.affiliation affiliation) reason).Ignored ↔
      affiliation = .owner ∧ jid.luser = "" := by
    rw [ChangedItem.Ignored, Asked.affiliation.injEq]
    rfl
  rw [ChangedItem.writes]
  by_cases hdiffers : r.accessAdmin jid ∨ r.getAffiliation jid ≠ affiliation
  · rw [if_neg fun h => hnothing.1 h hdiffers]
    refine if_congr ?_ rfl rfl
    rw [hignored, and_iff_right hdiffers, and_comm]
    exact and_congr_left fun _ => eq_comm
  · rw [if_pos (hnothing.2 hdiffers), if_neg fun h => hdiffers h.2.1]

theorem writes_changeOf {lib : Library} {u : Jid} {item : Element}
    (h : (checkItem lib u r item).isOk) (account : Jid) :
    ((changeOf lib u r item).bind fun changed => changed.writes account) =
    asksFor lib r account item := by
  rw [changeOf, asksFor]
  rw [checkItem] at h ⊢
  split at h
  · rename_i hname
    rw [if_pos hname]
    cases hjid : getAffectedJid lib item r with
    | error err =>
      rw [hjid] at h
      cases h
    | ok jid =>
      rw [hjid] at h
      simp only [checkChangedItem] at h ⊢
      cases hasked : whichPropertyChanged item with
      | error err =>
        rw [hasked] at h
        cases h
      | ok asked =>
        rw [hasked] at h
        cases asked with
        | role role =>
          simp only at h ⊢
          cases hverdict : (canChangeRa (r.getAffiliation u) (r.getRole u)
              (r.getAffiliation jid) (r.getRole jid) (.role role)
              (r.getServiceAffiliation jid)).afterOwner (isOwner u r) with
          | nothing => rfl
          | yes => rfl
          | cancel | no | checkOwner =>
            rw [hverdict] at h
            cases h
        | affiliation affiliation =>
          simp only at h ⊢
          cases hverdict : (canChangeRa (r.getAffiliation u) (r.getRole u)
              (r.getAffiliation jid) (r.getRole jid) (.affiliation affiliation)
              (r.getServiceAffiliation jid)).afterOwner (isOwner u r) with
          | nothing => exact writes_of_verdict hverdict "" account
          | yes => exact writes_of_verdict hverdict (decodeReason item) account
          | cancel | no | checkOwner =>
            rw [hverdict] at h
            cases h
  · cases h

/-- The first change that writes an entry is the one of the first item that makes a difference. -/
theorem findSome_writes {lib : Library} {u : Jid} {items : List Element}
    (h : Accepts lib u r items) (account : Jid) :
    ((changesOf lib u r items).findSome? fun changed => changed.writes account) =
    items.findSome? (asksFor lib r account) := by
  induction items with
  | nil => rfl
  | cons item items ih =>
    obtain ⟨hitem, hitems⟩ := List.forall_mem_cons.1 h
    have hfirst := writes_changeOf hitem account
    rw [changesOf, List.filterMap_cons, List.findSome?_cons, ← hfirst, ← ih hitems, changesOf]
    cases changeOf lib u r item with
    | none => rfl
    | some changed => exact List.findSome?_cons

/-- **When a request leaves an owner**: exactly when it is refused, or some account is an owner by
the first item that makes a difference for it, or by its entry when no item does. -/
theorem hasOwner_after_iff (lib : Library) (u : Jid) {r : Room} (items : List Element)
    (h : r.HasOwner) :
    (processIqAdmin lib u items r).HasOwner ↔ KeepsOwner lib u r items := by
  rw [processIqAdmin_eq, KeepsOwner]
  by_cases haccepts : Accepts lib u r items
  · have hwf : ∀ changed ∈ changesOf lib u r items, changed.WellFormed :=
      fun _ => wellFormed_of_mem_changesOf
    rw [if_pos haccepts, Room.hasOwner_iff, or_iff_right (not_not.2 haccepts)]
    refine exists_congr fun account => ?_
    rw [(applied_foldr hwf r).1 account, findSome_writes haccepts]
  · rw [if_neg haccepts]
    exact iff_of_true h (.inl haccepts)

/-- Two owners, one of whom is in charge of the request. -/
def twoOwners : Room where
  accessAdmin _ := false
  config := {}
  users := ∅
  sessions := ∅
  affiliations := (Affiliations.empty.put ⟨"crone1", "localhost", ""⟩ (.plain .owner)
    StoredAffiliation.owner_ne_none).put ⟨"crone2", "localhost", ""⟩ (.plain .owner)
    StoredAffiliation.owner_ne_none

/-- The addresses of the two owners. -/
def ownersLibrary : Library where
  nodeprep := some
  nameprep := some
  resourceprep := some
  fromBinary
    | "crone1@localhost" => some ⟨"crone1", "localhost", ""⟩
    | "crone2@localhost" => some ⟨"crone2", "localhost", ""⟩
    | _ => none
  rfc3339 _ := ""

/-- An item for an affiliation. -/
def affiliationItem (jid affiliation : String) : Element :=
  .mk "item" [("affiliation", affiliation), ("jid", jid)] [] ""

/-- Somebody else than the requester stays an owner. -/
theorem hasOwner_after_iff_one : (processIqAdmin ownersLibrary ⟨"crone1", "localhost", "x"⟩
    [affiliationItem "crone1@localhost" "member"] twoOwners).HasOwner ↔
    KeepsOwner ownersLibrary ⟨"crone1", "localhost", "x"⟩ twoOwners
      [affiliationItem "crone1@localhost" "member"] :=
  hasOwner_after_iff ownersLibrary ⟨"crone1", "localhost", "x"⟩
    [affiliationItem "crone1@localhost" "member"] (by decide +kernel)

/-- Both owners are dismissed by one request of one of them. -/
theorem both_owners_dismissed : twoOwners.HasOwner ∧
    twoOwners.accessAdmin ⟨"crone1", "localhost", "x"⟩ = false ∧
    ¬(processIqAdmin ownersLibrary ⟨"crone1", "localhost", "x"⟩
    [affiliationItem "crone1@localhost" "admin", affiliationItem "crone2@localhost" "admin"]
    twoOwners).HasOwner := by
  decide +kernel

end MongooseIM.Muc
