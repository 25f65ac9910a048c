import MongooseIM.Muc.Admin

/-! # Who may change whom

The tables of `can_change_ra/7` look at the affiliation and the role of the JID that an item names.
What a request changes is the entry of that JID's account in the affiliation map and the roles of
occupants, and the two are not the same thing: an account without an entry is what the entry of its
domain says, a service admin is known by the JID that is named, whose rule may look at the resource,
and a role that is asked for a bare JID goes to all sessions of the account. -/

namespace MongooseIM.Muc

open Erlang Xmpp

/-- The order of roles. -/
def Role.rank : Role → Nat
  | none => 0
  | visitor => 1
  | participant => 2
  | moderator => 3

/-- Changes keep to the rank of the requester, told by the affiliations of the users themselves. -/
structure RespectsRank (u : Jid) (r r' : Room) : Prop where
  affiliation : ∀ j, r'.getAffiliation j ≠ r.getAffiliation j →
    r.getAffiliation u = .owner ∨
      r.getAffiliation u = .admin ∧ (r.getAffiliation j).belowAdmin ∧
        (r'.getAffiliation j).belowAdmin
  role : ∀ j, r'.getRole j ≠ r.getRole j →
    r.getRole u = .moderator ∨ (r.getAffiliation u).isRanked
  promotes : ∀ j, r'.getRole j ≠ r.getRole j → r'.getRole j = .moderator →
    (r.getAffiliation u).isRanked
  ranked : ∀ j, (r.getAffiliation j).isRanked → r'.getAffiliation j ≠ r.getAffiliation j →
    r.getAffiliation u = .owner
  moderator : ∀ j, (r.getAffiliation j).isRanked → r.getRole j = .moderator →
    r'.getRole j ≠ .moderator → r'.getAffiliation j ≠ r.getAffiliation j
  service : ∀ j, r.accessAdmin j → (r.getRole j).rank ≤ (r'.getRole j).rank

/-- An item asks for the ownership of an account, naming a service admin. -/
def AsksAdminOwnership (lib : Library) (r : Room) (items : List Element) (account : Jid) : Prop :=
  ∃ item ∈ items, ∃ jid, getAffectedJid lib item r = .ok jid ∧
    whichPropertyChanged item = .ok (.affiliation .owner) ∧ r.accessAdmin jid ∧
    jid.toBare = account.toBare

/-- An item asks for a role of an account by its bare JID, and the bare JID is in the room. -/
def AsksBareRole (lib : Library) (r : Room) (items : List Element) (account : Jid) : Prop :=
  ∃ item ∈ items, ∃ role, getAffectedJid lib item r = .ok account.toBare ∧
    whichPropertyChanged item = .ok (.role role) ∧ r.getRole account.toBare ≠ .none

/-- Changes keep to the rank of the requester by the entries of the map, and by the users where no
affiliation of a domain is uncovered. -/
structure RespectsEntries (lib : Library) (u : Jid) (items : List Element) (r r' : Room) :
    Prop where
  entry : ∀ j, r'.entry j ≠ r.entry j → ¬AsksAdminOwnership lib r items j →
    r.getAffiliation u = .owner ∨
      r.getAffiliation u = .admin ∧ (r.entry j).belowAdmin ∧ (r'.entry j).belowAdmin
  /-- What a user is changes only with an entry of the account or of its domain. -/
  user : ∀ j, r'.getAffiliation j ≠ r.getAffiliation j →
    r'.entry j ≠ r.entry j ∨ r'.entry (Room.domain j) ≠ r.entry (Room.domain j)
  /-- An admin changes users below the rank of an admin only, and makes of them what is below that
  rank or what their domain is. -/
  affiliation : ∀ j, r'.getAffiliation j ≠ r.getAffiliation j → ¬AsksAdminOwnership lib r items j →
    r.getAffiliation u = .owner ∨
      r.getAffiliation u = .admin ∧ (r.getAffiliation j).belowAdmin ∧
        ((r'.getAffiliation j).belowAdmin ∨
          r'.entry j = .none ∧ r'.getAffiliation j = r.entry (Room.domain j))
  role : ∀ j, r'.getRole j ≠ r.getRole j → ¬AsksAdminOwnership lib r items j →
    r.getRole u = .moderator ∨ (r.getAffiliation u).isRanked
  promotes : ∀ j, r'.getRole j ≠ r.getRole j → r'.getRole j = .moderator →
    ¬AsksAdminOwnership lib r items j → (r.getAffiliation u).isRanked
  rankedEntry : ∀ j, (r.entry j).isRanked → r'.entry j ≠ r.entry j →
    ¬AsksAdminOwnership lib r items j → r.getAffiliation u = .owner
  /-- Nobody below an owner changes what an owner or admin is. -/
  ranked : ∀ j, (r.getAffiliation j).isRanked → r'.getAffiliation j ≠ r.getAffiliation j →
    ¬AsksAdminOwnership lib r items j → r.getAffiliation u = .owner
  /-- Somebody without an entry who is an owner or admin through the domain loses the role at the
  request of an owner. -/
  moderator : ∀ j, r.accessAdmin j = false → (r.getAffiliation j).isRanked →
    r.getRole j = .moderator → r'.getRole j ≠ .moderator →
    ¬AsksAdminOwnership lib r items j → ¬AsksBareRole lib r items j →
    r'.entry j ≠ r.entry j ∨ r.entry j = .none ∧ r.getAffiliation u = .owner
  service : ∀ j, (∀ j', j'.toBare = j.toBare → r.accessAdmin j') →
    (r.getRole j).rank ≤ (r'.getRole j).rank ∧ (r'.entry j = r.entry j ∨ r'.entry j = .owner)

namespace Room

/-- An account below the rank of an admin has no entry above it. -/
theorem belowAdmin_entry {r : Room} {j : Jid} (hj : r.accessAdmin j = false)
    (h : (r.getAffiliation j).belowAdmin) : (r.entry j).belowAdmin := by
  rw [getAffiliation_eq, hj, if_neg (by decide)] at h
  split at h
  · rename_i hnone
    rw [hnone]
    rfl
  · exact h

end Room

theorem Affiliation.isRanked_eq_not (a : Affiliation) : a.isRanked = ! a.belowAdmin := by
  cases a <;> rfl

variable {lib : Library} {u : Jid} {r : Room} {items : List Element} {changed : ChangedItem}

section

variable (h : changed ∈ changesOf lib u r items)

include h

/-- A change comes from an item that passed the tables. -/
theorem exists_of_mem_changesOf : ∃ item ∈ items, ∃ jid, getAffectedJid lib item r = .ok jid ∧
    whichPropertyChanged item = .ok changed.asked ∧ changed.jid = changed.asked.target jid ∧
    (canChangeRa (r.getAffiliation u) (r.getRole u) (r.getAffiliation jid) (r.getRole jid)
      changed.asked (r.getServiceAffiliation jid)).afterOwner (isOwner u r) = .yes := by
  obtain ⟨item, hitem, hchanged⟩ := List.mem_filterMap.1 h
  exact ⟨item, hitem, changeOf_eq_some hchanged⟩

/-- A change of affiliation makes a service admin an owner, or the ranks allow it. -/
theorem affiliation_of_mem_changesOf
    {affiliation : Affiliation} (hasked : changed.asked = .affiliation affiliation) (j : Jid)
    (hj : j.toBare = changed.jid.toBare) :
    AsksAdminOwnership lib r items j ∧ affiliation = .owner ∨
    ∃ jid, jid.toBare = j.toBare ∧ r.accessAdmin jid = false ∧
      r.getAffiliation jid ≠ affiliation ∧
      (r.getAffiliation u = .owner ∨ r.getAffiliation u = .admin ∧
        (r.getAffiliation jid).belowAdmin ∧ affiliation.belowAdmin) := by
  obtain ⟨item, hitem, jid, haffected, hproperty, hjid, hyes⟩ := exists_of_mem_changesOf h
  rw [hasked] at hproperty hjid hyes
  have hbare : jid.toBare = j.toBare := by
    rw [hj, hjid]
    rfl
  rcases canChangeRa_affiliation hyes with ⟨hadmin, rfl⟩ | ⟨hadmin, hne, hranks⟩
  · exact .inl ⟨⟨item, hitem, jid, haffected, hproperty, hadmin, hbare⟩, rfl⟩
  · exact .inr ⟨jid, hbare, hadmin, hne, hranks⟩

/-- A change of role is about somebody who is no service admin and passed the table of roles. -/
theorem role_of_mem_changesOf {role : Role} (hasked : changed.asked = .role role) :
    r.accessAdmin changed.jid = false ∧
    RoleChange (r.getAffiliation u) (r.getRole u) (r.getAffiliation changed.jid)
      (r.getRole changed.jid) role ∧
    ∃ item ∈ items, getAffectedJid lib item r = .ok changed.jid ∧
      whichPropertyChanged item = .ok (.role role) := by
  obtain ⟨item, hitem, jid, haffected, hproperty, hjid, hyes⟩ := exists_of_mem_changesOf h
  rw [hasked] at hproperty hjid hyes
  obtain rfl : changed.jid = jid := hjid
  obtain ⟨hadmin, hchange⟩ := canChangeRa_role hyes
  exact ⟨hadmin, hchange, item, hitem, haffected, hproperty⟩

end

section Chain

variable {α σ : Type*} {f : α → σ → Option σ} {l : List α}

theorem foldr_bind_none (l : List α) : l.foldr (fun a s => s.bind (f a)) none = none := by
  induction l with
  | nil => rfl
  | cons a l ih => rw [List.foldr_cons, ih, Option.bind_none]

/-- A property that every update keeps, together with what it is about, holds at the end. -/
theorem foldr_bind_of_forall {P : σ → Prop}
    (h : ∀ a ∈ l, ∀ s, P s → ∃ s', f a s = some s' ∧ P s') {s : σ} (hs : P s) :
    ∃ s', l.foldr (fun a s => s.bind (f a)) (some s) = some s' ∧ P s' := by
  induction l with
  | nil => exact ⟨s, rfl, hs⟩
  | cons a l ih =>
    obtain ⟨hfirst, hrest⟩ := List.forall_mem_cons.1 h
    obtain ⟨mid, hmid, hP⟩ := ih hrest
    obtain ⟨s', hs', hP'⟩ := hfirst mid hP
    exact ⟨s', by rw [List.foldr_cons, hmid, Option.bind_some, hs'], hP'⟩

/-- Something that is different at the end was made so by one of the updates. -/
theorem exists_cause {s : σ} (h : l.foldr (fun a s => s.bind (f a)) (some s) ≠ some s) :
    ∃ a ∈ l, ∃ mid, f a mid ≠ some mid ∧ f a mid = l.foldr (fun a s => s.bind (f a)) (some s) := by
  induction l with
  | nil => exact absurd rfl h
  | cons a l ih =>
    rw [List.foldr_cons] at h ⊢
    by_cases hkeep : (l.foldr (fun a s => s.bind (f a)) (some s)).bind (f a) =
        l.foldr (fun a s => s.bind (f a)) (some s)
    · rw [hkeep] at h ⊢
      obtain ⟨b, hb, hcause⟩ := ih h
      exact ⟨b, List.mem_cons_of_mem a hb, hcause⟩
    · cases hmid : l.foldr (fun a s => s.bind (f a)) (some s) with
      | none =>
        rw [hmid] at hkeep
        exact absurd rfl hkeep
      | some mid =>
        rw [hmid, Option.bind_some] at hkeep
        exact ⟨a, List.mem_cons_self, mid, hkeep, rfl⟩

end Chain

/-- A change that makes a difference to an occupant is about one of its account. -/
theorem ChangedItem.of_roleAfter_ne {membersOnly : Bool} {j : Jid} {old : Role}
    (h : changed.roleAfter membersOnly j old ≠ some old) :
    Room.matched changed.jid j ∧
    changed.roleAfter membersOnly j old = changed.effect membersOnly old := by
  rw [roleAfter] at h ⊢
  by_cases hm : ¬changed.Ignored ∧ Room.matched changed.jid j
  · exact ⟨hm.2, if_pos hm⟩
  · rw [if_neg hm] at h
    exact absurd rfl h

section Result

variable {r' : Room} (hok : processAdminItemsSet lib u items r = .ok r')
include hok

theorem entry_of_ok (j : Jid) : r'.entry j =
    ((changesOf lib u r items).findSome? fun changed => changed.writes j).getD (r.entry j) := by
  obtain ⟨-, rfl⟩ := processAdminItemsSet_eq_ok.1 hok
  exact (applied_foldr (fun changed (h : changed ∈ changesOf lib u r items) =>
    wellFormed_of_mem_changesOf h) r).1 j

theorem roleAt_of_ok (j : Jid) : r'.roleAt j = (changesOf lib u r items).foldr
    (fun changed role => role.bind (changed.roleAfter r.config.membersOnly j)) (r.roleAt j) := by
  obtain ⟨-, rfl⟩ := processAdminItemsSet_eq_ok.1 hok
  exact (applied_foldr (fun changed (h : changed ∈ changesOf lib u r items) =>
    wellFormed_of_mem_changesOf h) r).2.1 j

theorem accessAdmin_of_ok : r'.accessAdmin = r.accessAdmin := by
  obtain ⟨-, rfl⟩ := processAdminItemsSet_eq_ok.1 hok
  exact (applied_foldr (fun changed (h : changed ∈ changesOf lib u r items) =>
    wellFormed_of_mem_changesOf h) r).2.2.1

variable {j : Jid}

/-- An entry that changes write is what one of them asks for. -/
theorem exists_of_writes (h : ∃ changed ∈ changesOf lib u r items, changed.writes j ≠ none) :
    ∃ changed ∈ changesOf lib u r items, changed.asked = .affiliation (r'.entry j) ∧
    j.toBare = changed.jid.toBare ∧ ¬changed.Ignored := by
  rw [entry_of_ok hok]
  cases hsome : (changesOf lib u r items).findSome? fun changed => changed.writes j with
  | none =>
    obtain ⟨changed, hmem, hwrites⟩ := h
    exact absurd (List.findSome?_eq_none_iff.1 hsome changed hmem) hwrites
  | some affiliation =>
    obtain ⟨changed, hmem, hwrites⟩ := List.exists_of_findSome?_eq_some hsome
    refine ⟨changed, hmem, ?_⟩
    rw [ChangedItem.writes] at hwrites
    split at hwrites
    · cases hwrites
    · rename_i a hasked
      split at hwrites
      · rename_i hj
        cases hwrites
        exact ⟨hasked, hj.2, hj.1⟩
      · cases hwrites

variable {j : Jid}

/-- An entry that changed was written by one of the changes. -/
theorem exists_of_entry_ne (h : r'.entry j ≠ r.entry j) :
    ∃ changed ∈ changesOf lib u r items, changed.asked = .affiliation (r'.entry j) ∧
    j.toBare = changed.jid.toBare ∧ ¬changed.Ignored := by
  refine exists_of_writes hok ?_
  by_contra hnone
  have hsame : ((changesOf lib u r items).findSome? fun changed => changed.writes j) = none := by
    rw [List.findSome?_eq_none_iff]
    intro changed hmem
    by_contra hwrites
    exact hnone ⟨changed, hmem, hwrites⟩
  rw [entry_of_ok hok, hsame] at h
  exact h rfl

/-- A role that changed was made so by one of the changes. -/
theorem exists_of_role_ne (h : r'.getRole j ≠ r.getRole j) :
    ∃ changed ∈ changesOf lib u r items, ∃ mid, Room.matched changed.jid j ∧
    changed.effect r.config.membersOnly mid ≠ some mid ∧
    changed.effect r.config.membersOnly mid = r'.roleAt j := by
  have hrole := roleAt_of_ok hok j
  rw [Room.getRole_eq, Room.getRole_eq] at h
  cases hold : r.roleAt j with
  | none =>
    rw [hold, foldr_bind_none] at hrole
    rw [hold, hrole] at h
    exact absurd rfl h
  | some old =>
    rw [hold] at hrole h
    have hne : r'.roleAt j ≠ some old := fun heq => h (by rw [heq])
    rw [hrole] at hne
    obtain ⟨changed, hmem, mid, hkeep, hcause⟩ := exists_cause hne
    obtain ⟨hm, heffect⟩ := ChangedItem.of_roleAfter_ne hkeep
    rw [heffect] at hkeep hcause
    exact ⟨changed, hmem, mid, hm, hkeep, hcause.trans hrole.symm⟩

theorem respects_entry (h : r'.entry j ≠ r.entry j) (hasks : ¬AsksAdminOwnership lib r items j) :
    r.getAffiliation u = .owner ∨
    r.getAffiliation u = .admin ∧ (r.entry j).belowAdmin ∧ (r'.entry j).belowAdmin := by
  obtain ⟨changed, hmem, hasked, hj, -⟩ := exists_of_entry_ne hok h
  rcases affiliation_of_mem_changesOf hmem hasked j hj with ⟨hyes, -⟩ | ⟨jid, hbare, hadmin, -, hranks⟩
  · exact absurd hyes hasks
  · refine hranks.imp_right fun ⟨hu, hold, hnew⟩ => ⟨hu, ?_, hnew⟩
    rw [← Room.entry_congr hbare]
    exact Room.belowAdmin_entry hadmin hold

/-- The entry of a domain is changed within the ranks, since nobody makes a domain an owner. -/
theorem respects_domain (h : r'.entry (Room.domain j) ≠ r.entry (Room.domain j)) :
    r.getAffiliation u = .owner ∨ r.getAffiliation u = .admin ∧
    (r.entry (Room.domain j)).belowAdmin ∧ (r'.entry (Room.domain j)).belowAdmin := by
  obtain ⟨changed, hmem, hasked, hj, hignored⟩ := exists_of_entry_ne hok h
  rcases affiliation_of_mem_changesOf hmem hasked _ hj with ⟨-, howner⟩ | ⟨jid, hbare, hadmin, -, hranks⟩
  · rw [howner] at hasked
    exact absurd ⟨hasked, (congrArg Jid.luser hj).symm⟩ hignored
  · refine hranks.imp_right fun ⟨hu, hold, hnew⟩ => ⟨hu, ?_, hnew⟩
    rw [← Room.entry_congr hbare]
    exact Room.belowAdmin_entry hadmin hold

/-- **Users are changed within the ranks**, the affiliation of their domain aside. -/
theorem respects_affiliation (h : r'.getAffiliation j ≠ r.getAffiliation j)
    (hasks : ¬AsksAdminOwnership lib r items j) :
    r.getAffiliation u = .owner ∨
    r.getAffiliation u = .admin ∧ (r.getAffiliation j).belowAdmin ∧
      ((r'.getAffiliation j).belowAdmin ∨
        r'.entry j = .none ∧ r'.getAffiliation j = r.entry (Room.domain j)) := by
  have hadmin : r.accessAdmin j = false := by
    by_contra hyes
    rw [Bool.not_eq_false] at hyes
    rw [Room.getAffiliation_eq, Room.getAffiliation_eq, accessAdmin_of_ok hok, hyes] at h
    exact h rfl
  have hold : r.getAffiliation j =
      if r.entry j = .none then r.entry (Room.domain j) else r.entry j := by
    rw [Room.getAffiliation_eq, hadmin, if_neg (by decide)]
  have hnew : r'.getAffiliation j =
      if r'.entry j = .none then r'.entry (Room.domain j) else r'.entry j := by
    rw [Room.getAffiliation_eq, accessAdmin_of_ok hok, hadmin, if_neg (by decide)]
  by_cases hentry : r'.entry j = r.entry j
  · -- only the domain has changed, and the user is what it says
    have hnone : r.entry j = .none := by
      by_contra hsome
      rw [hold, hnew, hentry, if_neg hsome, if_neg hsome] at h
      exact h rfl
    rw [hnone] at hentry
    rw [if_pos hnone] at hold
    rw [if_pos hentry] at hnew
    rw [hold, hnew] at h ⊢
    exact (respects_domain hok h).imp_right fun ⟨hu, hbelow, hbelow'⟩ => ⟨hu, hbelow, .inl hbelow'⟩
  · obtain ⟨changed, hmem, hasked, hj, -⟩ := exists_of_entry_ne hok hentry
    rcases affiliation_of_mem_changesOf hmem hasked j hj with ⟨hyes, -⟩ | ⟨jid, hbare, hjid, -, hranks⟩
    · exact absurd hyes hasks
    · rcases hranks with hu | ⟨hu, hbelow, hbelow'⟩
      · exact .inl hu
      · rw [Room.getAffiliation_congr hbare hjid hadmin] at hbelow
        by_cases hnone : r'.entry j = .none
        · by_cases hdomain : r'.entry (Room.domain j) = r.entry (Room.domain j)
          · exact .inr ⟨hu, hbelow, .inr ⟨hnone, by rw [hnew, if_pos hnone, hdomain]⟩⟩
          · rw [hnew, if_pos hnone]
            refine (respects_domain hok hdomain).imp_right fun ⟨_, _, hbelow'⟩ => ?_
            exact ⟨hu, hbelow, .inl hbelow'⟩
        · rw [hnew, if_neg hnone]
          exact .inr ⟨hu, hbelow, .inl hbelow'⟩

theorem respects_user (h : r'.getAffiliation j ≠ r.getAffiliation j) :
    r'.entry j ≠ r.entry j ∨ r'.entry (Room.domain j) ≠ r.entry (Room.domain j) := by
  by_contra hsame
  rw [not_or, not_not, not_not] at hsame
  rw [Room.getAffiliation_eq, Room.getAffiliation_eq, accessAdmin_of_ok hok, hsame.1, hsame.2] at h
  exact h rfl

/-- The requester of a change of role is a moderator, an admin or an owner, and one of the last two
where the change makes a moderator. -/
theorem respects_role (h : r'.getRole j ≠ r.getRole j) (hasks : ¬AsksAdminOwnership lib r items j) :
    (r.getRole u = .moderator ∨ (r.getAffiliation u).isRanked) ∧
    (r'.getRole j = .moderator → (r.getAffiliation u).isRanked) := by
  obtain ⟨changed, hmem, mid, hm, hkeep, hcause⟩ := exists_of_role_ne hok h
  cases hasked : changed.asked with
  | affiliation affiliation =>
    have hj := Room.toBare_of_matched hm
    rcases affiliation_of_mem_changesOf hmem hasked j hj with ⟨hyes, -⟩ | ⟨_, -, -, -, hranks⟩
    · exact absurd hyes hasks
    · have hu : (r.getAffiliation u).isRanked := by
        rcases hranks with hu | ⟨hu, -⟩
        · rw [hu]
          rfl
        · rw [hu]
          rfl
      exact ⟨.inr hu, fun _ => hu⟩
  | role role =>
    obtain ⟨-, hchange, -⟩ := role_of_mem_changesOf hmem hasked
    refine ⟨hchange.requester, fun hmoderator => hchange.promotes ?_⟩
    rw [Room.getRole_eq, ← hcause, ChangedItem.effect, hasked] at hmoderator
    cases role with
    | moderator => rfl
    | none | participant | visitor => cases hmoderator

/-- A moderator who is one by rank stops being it through a change of affiliation. -/
theorem exists_of_demoted (hranked : (r.getAffiliation j).isRanked)
    (hold : r.getRole j = .moderator) (hnew : r'.getRole j ≠ .moderator)
    (hbare : ¬AsksBareRole lib r items j) :
    ∃ changed ∈ changesOf lib u r items, ∃ affiliation,
    changed.asked = .affiliation affiliation ∧ affiliation ≠ .owner ∧
      j.toBare = changed.jid.toBare := by
  by_contra hnone
  have hkeep : ∀ changed ∈ changesOf lib u r items, ∀ role, role = Role.moderator →
      ∃ role', changed.roleAfter r.config.membersOnly j role = some role' ∧ role' = .moderator := by
    rintro changed hmem _ rfl
    by_contra hlost
    have hne : changed.roleAfter r.config.membersOnly j .moderator ≠ some .moderator :=
      fun heq => hlost ⟨.moderator, heq, rfl⟩
    obtain ⟨hm, heffect⟩ := ChangedItem.of_roleAfter_ne hne
    cases hasked : changed.asked with
    | affiliation affiliation =>
      refine hnone ⟨changed, hmem, affiliation, hasked, ?_, Room.toBare_of_matched hm⟩
      rintro rfl
      rw [heffect, ChangedItem.effect, hasked] at hne
      exact hne rfl
    | role role =>
      obtain ⟨-, hchange, item, hitem, haffected, hproperty⟩ := role_of_mem_changesOf hmem hasked
      by_cases hresource : changed.jid.lresource = ""
      · have hjid : changed.jid = j.toBare := ((Room.matched_bare hresource).1 hm).symm
        rw [hjid] at haffected hchange
        exact hbare ⟨item, hitem, role, haffected, hproperty, hchange.occupant⟩
      · have hjid : j = changed.jid := (Room.matched_full hresource).1 hm
        have hdemotes := (hchange.demotes (hjid ▸ hold)).1
        rw [← hjid, hranked] at hdemotes
        cases hdemotes
  have hrole := roleAt_of_ok hok j
  rw [Room.getRole_eq] at hold hnew
  cases hat : r.roleAt j with
  | none =>
    rw [hat] at hold
    cases hold
  | some role =>
    rw [hat, Option.getD_some] at hold
    rw [hat] at hrole
    obtain ⟨role', hrole', rfl⟩ := foldr_bind_of_forall hkeep hold
    rw [hrole, hrole'] at hnew
    exact hnew rfl

theorem respects_moderator (hadmin : r.accessAdmin j = false)
    (hranked : (r.getAffiliation j).isRanked) (hold : r.getRole j = .moderator)
    (hnew : r'.getRole j ≠ .moderator) (hasks : ¬AsksAdminOwnership lib r items j)
    (hbare : ¬AsksBareRole lib r items j) :
    r'.entry j ≠ r.entry j ∨ r.entry j = .none ∧ r.getAffiliation u = .owner := by
  obtain ⟨changed, hmem, affiliation, hasked, howner, hj⟩ :=
    exists_of_demoted hok hranked hold hnew hbare
  by_cases hentry : r.entry j = .none
  · -- an owner or admin through the domain
    refine .inr ⟨hentry, ?_⟩
    rcases affiliation_of_mem_changesOf hmem hasked j hj with ⟨hyes, -⟩ | ⟨jid, hjid, hjadmin, -, hranks⟩
    · exact absurd hyes hasks
    · rcases hranks with hu | ⟨-, hbelow, -⟩
      · exact hu
      · rw [Room.getAffiliation_congr hjid hjadmin hadmin] at hbelow
        rw [Affiliation.isRanked_eq_not, hbelow] at hranked
        cases hranked
  · -- the first change of the entry asks for something else than the entry
    left
    have hwrites : changed.writes j ≠ none := by
      have hignored : ¬changed.Ignored := by
        rintro ⟨hignored, -⟩
        rw [hasked, Asked.affiliation.injEq] at hignored
        exact howner hignored
      rw [ChangedItem.writes, hasked]
      simp [hignored, hj]
    obtain ⟨first, hfirst, hfirstAsked, hfirstJ, -⟩ := exists_of_writes hok ⟨changed, hmem, hwrites⟩
    rcases affiliation_of_mem_changesOf hfirst hfirstAsked j hfirstJ with
      ⟨hyes, -⟩ | ⟨jid, hjid, hjadmin, hne, -⟩
    · exact absurd hyes hasks
    · have haff : r.getAffiliation jid = r.entry j := by
        rw [Room.getAffiliation_congr hjid hjadmin hadmin, Room.getAffiliation_eq, hadmin,
          if_neg (by decide), if_neg hentry]
      rw [haff] at hne
      exact hne.symm

/-- Somebody who is a service admin under every resource keeps the role. -/
theorem respects_service (h : ∀ j', j'.toBare = j.toBare → r.accessAdmin j') :
    (r.getRole j).rank ≤ (r'.getRole j).rank ∧ (r'.entry j = r.entry j ∨ r'.entry j = .owner) := by
  have haffiliation : ∀ changed ∈ changesOf lib u r items, ∀ affiliation,
      changed.asked = .affiliation affiliation → j.toBare = changed.jid.toBare →
        affiliation = .owner := by
    intro changed hmem affiliation hasked hj
    rcases affiliation_of_mem_changesOf hmem hasked j hj with ⟨-, howner⟩ | ⟨jid, hjid, hadmin, -⟩
    · exact howner
    · rw [h jid hjid] at hadmin
      cases hadmin
  constructor
  · rw [Room.getRole_eq, Room.getRole_eq, roleAt_of_ok hok]
    cases hat : r.roleAt j with
    | none => exact Nat.zero_le _
    | some old =>
      have hkeep : ∀ changed ∈ changesOf lib u r items, ∀ role : Role, old.rank ≤ role.rank →
          ∃ role', changed.roleAfter r.config.membersOnly j role = some role' ∧
            old.rank ≤ role'.rank := by
        intro changed hmem role hle
        by_cases hsame : changed.roleAfter r.config.membersOnly j role = some role
        · exact ⟨role, hsame, hle⟩
        · obtain ⟨hm, heffect⟩ := ChangedItem.of_roleAfter_ne hsame
          have hj := Room.toBare_of_matched hm
          cases hasked : changed.asked with
          | role value =>
            have hadmin := (role_of_mem_changesOf hmem hasked).1
            rw [h changed.jid hj.symm] at hadmin
            cases hadmin
          | affiliation affiliation =>
            rw [haffiliation changed hmem affiliation hasked hj] at hasked
            refine ⟨.moderator, ?_, by cases old <;> decide⟩
            rw [heffect, ChangedItem.effect, hasked]
      obtain ⟨role', hrole', hle⟩ := foldr_bind_of_forall hkeep (Nat.le_refl old.rank)
      rw [hrole']
      exact hle
  · by_cases hsame : r'.entry j = r.entry j
    · exact .inl hsame
    · obtain ⟨changed, hmem, hasked, hj, -⟩ := exists_of_entry_ne hok hsame
      exact .inr (haffiliation changed hmem _ hasked hj)

end Result

/-- A room with occupants of one session each. -/
def roomOf (accessAdmin : Jid → Bool) (membersOnly : Bool) (occupants : List User)
    (affiliations : Affiliations) : Room where
  accessAdmin := accessAdmin
  config := { membersOnly := membersOnly }
  users := occupants.foldl (fun users user => users.insert user.jid user) ∅
  sessions := occupants.foldl (fun sessions user => sessions.insert user.nick [user.jid]) ∅
  affiliations := affiliations

/-- The requester of the requests below. -/
def alice : Jid := ⟨"alice", "remote", "x"⟩

/-- Somebody of another domain, by a session. -/
def bob : Jid := ⟨"bob", "localhost", "x"⟩

/-- The addresses of `bob`. -/
def ranksLibrary : Library where
  nodeprep := some
  nameprep := some
  resourceprep := some
  fromBinary
    | "bob@localhost" => some bob.toBare
    | _ => none
  rfc3339 _ := ""

/-- One item that names the account of `bob`. -/
def bobItem (key value : String) : List Element :=
  [.mk "item" [(key, value), ("jid", "bob@localhost")] [] ""]

/-- An admin takes away the membership of somebody whose domain is an admin. -/
def domainOfAdmins : Room :=
  roomOf (fun _ => false) false []
    (((Affiliations.empty.put alice (.plain .admin) nofun).put (Room.domain bob) (.plain .admin)
      nofun).put bob (.plain .member) nofun)

/-- An owner dismisses somebody who is an admin through the domain only. -/
def membersOnlyRoom : Room :=
  roomOf (fun _ => false) true [⟨bob, "bob", .moderator⟩]
    ((Affiliations.empty.put alice (.plain .owner) StoredAffiliation.owner_ne_none).put
      (Room.domain bob) (.plain .admin) nofun)

/-- A moderator changes the role of the bare JID of an admin, which is in the room on its own. -/
def roomWithBareJid : Room :=
  roomOf (fun _ => false) false
    [⟨alice, "alice", .moderator⟩, ⟨bob, "bob", .moderator⟩, ⟨bob.toBare, "bob2", .visitor⟩]
    (Affiliations.empty.put bob (.plain .admin) nofun)

/-- A service admin by the resource. -/
def roomOfResource : Room :=
  roomOf (fun jid => jid = bob) false [⟨bob, "bob", .moderator⟩]
    (Affiliations.empty.put alice (.plain .owner) StoredAffiliation.owner_ne_none)

/-- A service admin who is a visitor, and a requester without any rights. -/
def roomOfServiceAdmin : Room :=
  roomOf (fun jid => jid.toBare = bob.toBare) false [⟨bob, "bob", .visitor⟩] Affiliations.empty

end MongooseIM.Muc
