import MongooseIM.Muc.RoomStorage
import MongooseIM.Transition.Run

/-! # Registered nicks

The nicks that users have registered at the hosts of the service, in both storages. -/

namespace MongooseIM.Muc

open Erlang Relational Transition

/-- User and server of a JID. -/
abbrev Lus := String × String

/-- Who has registered what: a nick for every host and user. -/
abbrev Holders := String → Lus → Option String

namespace Holders

variable (g : Holders)

/-- At most one user holds a nick on a host. -/
def Unique : Prop :=
  ∀ mucHost lus lus' nick, g mucHost lus = some nick → g mucHost lus' = some nick → lus = lus'

/-- No other user holds the nick on the host. -/
def Free (mucHost : String) (lus : Lus) (nick : String) : Prop :=
  ∀ other, g mucHost other = some nick → other = lus

/-- The nick of one user changes. -/
def write (mucHost : String) (lus : Lus) (nick : Option String) : Holders :=
  fun mucHost' lus' => if mucHost' = mucHost ∧ lus' = lus then nick else g mucHost' lus'

variable {g : Holders}

theorem Unique.write (h : g.Unique) {mucHost : String} {lus : Lus} {nick : String}
    (hfree : g.Free mucHost lus nick) : (g.write mucHost lus (some nick)).Unique := by
  intro mucHost' lus₁ lus₂ nick' h₁ h₂
  rw [Holders.write] at h₁ h₂
  split at h₁
  · rename_i hself₁
    split at h₂
    · rename_i hself₂
      exact hself₁.2.trans hself₂.2.symm
    · rw [hself₁.1, ← Option.some.inj h₁] at h₂
      exact hself₁.2.trans (hfree lus₂ h₂).symm
  · split at h₂
    · rename_i hself₂
      rw [hself₂.1, ← Option.some.inj h₂] at h₁
      exact (hfree lus₁ h₁).trans hself₂.2.symm
    · exact h mucHost' lus₁ lus₂ nick' h₁ h₂

theorem Unique.clear (h : g.Unique) (mucHost : String) (lus : Lus) :
    (g.write mucHost lus none).Unique := by
  intro mucHost' lus₁ lus₂ nick' h₁ h₂
  rw [Holders.write] at h₁ h₂
  split at h₁
  · cases h₁
  · split at h₂
    · cases h₂
    · exact h mucHost' lus₁ lus₂ nick' h₁ h₂

end Holders

/-- A call to the nick functions. -/
inductive NickCall
  | canUseNick (mucHost : String) (lus : Lus) (nick : String)
  | setNick (mucHost : String) (lus : Lus) (nick : String)
  | unsetNick (mucHost : String) (lus : Lus)

/-- What a call returns. -/
inductive NickAnswer
  | ok
  /-- `{error, conflict}` -/
  | conflict
  /-- What `can_use_nick/4` says. -/
  | usable (can : Bool)
  /-- The error of a statement. -/
  | error
  | failed
  deriving DecidableEq

/-- A storage of nicks. -/
structure NickBackend (T : Type*) where
  /-- `get_nick/3`, none for `not_registered`. -/
  getNick : String → Lus → T → Option String
  /-- `can_use_nick/4`, none when no clause matches. -/
  canUseNick : String → Lus → String → T → Option Bool
  /-- The nick of a user is written, over the one before; none for an error. -/
  store : String → Lus → String → T → Option T
  unsetNick : String → Lus → T → T
  getNick_store : ∀ {mucHost lus nick table table'},
    store mucHost lus nick table = some table' → ∀ mucHost' lus', getNick mucHost' lus' table' =
      if mucHost' = mucHost ∧ lus' = lus then some nick else getNick mucHost' lus' table
  getNick_unsetNick : ∀ mucHost lus table mucHost' lus',
    getNick mucHost' lus' (unsetNick mucHost lus table) =
      if mucHost' = mucHost ∧ lus' = lus then none else getNick mucHost' lus' table

/-- The owner may take what nobody has, or what is the owner's already. -/
def soleOwner {α : Type*} [DecidableEq α] (owner : α) : List α → Option Bool
  | [] => some true
  | [other] => some (other = owner)
  | _ => none

theorem soleOwner_eq {α : Type*} [DecidableEq α] {l : List α} (hnodup : l.Nodup)
    (hsame : ∀ a ∈ l, ∀ b ∈ l, a = b) (owner : α) :
    ∃ can, soleOwner owner l = some can ∧ (can = true ↔ ∀ a ∈ l, a = owner) := by
  match l with
  | [] => exact ⟨true, rfl, by simp⟩
  | [other] => exact ⟨decide (other = owner), rfl, by simp⟩
  | a :: b :: rest =>
    have hab : a = b := hsame a (by simp) b (by simp)
    rw [hab] at hnodup
    simp at hnodup

namespace NickBackend

variable {T : Type*} (b : NickBackend T) (mucHost : String) (lus : Lus)

/-- `set_nick/4` -/
def setNick (nick : String) (table : T) : NickAnswer × T :=
  if nick = "" then (.failed, table)
  else
    match b.canUseNick mucHost lus nick table with
    | some true =>
      match b.store mucHost lus nick table with
      | some table' => (.ok, table')
      | none => (.error, table)
    | some false => (.conflict, table)
    | none => (.failed, table)

variable (table : T)

/-- One call: the answer and the table after it. -/
def call : NickCall → NickAnswer × T
  | .canUseNick mucHost lus nick =>
    match b.canUseNick mucHost lus nick table with
    | some can => (.usable can, table)
    | none => (.failed, table)
  | .setNick mucHost lus nick => b.setNick mucHost lus nick table
  | .unsetNick mucHost lus => (.ok, b.unsetNick mucHost lus table)

/-- Who holds what in a table. -/
def holders : Holders := fun mucHost lus => b.getNick mucHost lus table

theorem holders_store {nick : String} {table table' : T}
    (h : b.store mucHost lus nick table = some table') :
    b.holders table' = (b.holders table).write mucHost lus (some nick) := by
  funext mucHost' lus'
  exact b.getNick_store h mucHost' lus'

theorem holders_unsetNick :
    b.holders (b.unsetNick mucHost lus table) = (b.holders table).write mucHost lus none := by
  funext mucHost' lus'
  exact b.getNick_unsetNick mucHost lus table mucHost' lus'

/-- **What is promised**: who may use a nick is answered by who holds it on the host, and nicks are
unique after the call. -/
structure Exact (table : T) (c : NickCall) : Prop where
  usable : ∀ mucHost lus nick, c = .canUseNick mucHost lus nick →
    ∃ can, (b.call table c).1 = .usable can ∧
      (can = true ↔ (b.holders table).Free mucHost lus nick)
  unique : (b.holders (b.call table c).2).Unique

end NickBackend

/-! ## Calls by the book -/

/-- What a call should answer and leave, given who holds what. -/
def Holders.Serves (g : Holders) (c : NickCall) (answer : NickAnswer) (g' : Holders) : Prop :=
  match c with
  | .canUseNick mucHost lus nick =>
    ∃ can, answer = .usable can ∧ (can = true ↔ g.Free mucHost lus nick) ∧ g' = g
  | .setNick mucHost lus nick =>
    (nick = "" ∧ answer = .failed ∧ g' = g) ∨
      (nick ≠ "" ∧ g.Free mucHost lus nick ∧ answer = .ok ∧
        g' = g.write mucHost lus (some nick)) ∨
      (nick ≠ "" ∧ ¬g.Free mucHost lus nick ∧ answer = .conflict ∧ g' = g)
  | .unsetNick mucHost lus => answer = .ok ∧ g' = g.write mucHost lus none

variable {g : Holders} {c : NickCall}

theorem Holders.Serves.eq {g₁ g₂ : Holders} {answer₁ answer₂ : NickAnswer}
    (h₁ : g.Serves c answer₁ g₁) (h₂ : g.Serves c answer₂ g₂) : answer₁ = answer₂ ∧ g₁ = g₂ := by
  cases c with
  | canUseNick mucHost lus nick =>
    obtain ⟨can₁, rfl, hcan₁, rfl⟩ := h₁
    obtain ⟨can₂, rfl, hcan₂, rfl⟩ := h₂
    exact ⟨congrArg _ (Bool.eq_iff_iff.2 (hcan₁.trans hcan₂.symm)), rfl⟩
  | setNick mucHost lus nick =>
    rcases h₁ with ⟨he₁, rfl, rfl⟩ | ⟨he₁, hfree₁, rfl, rfl⟩ | ⟨he₁, hfree₁, rfl, rfl⟩ <;>
      rcases h₂ with ⟨he₂, rfl, rfl⟩ | ⟨he₂, hfree₂, rfl, rfl⟩ | ⟨he₂, hfree₂, rfl, rfl⟩ <;>
      first
      | exact ⟨rfl, rfl⟩
      | contradiction
  | unsetNick mucHost lus =>
    obtain ⟨rfl, rfl⟩ := h₁
    obtain ⟨rfl, rfl⟩ := h₂
    exact ⟨rfl, rfl⟩

theorem Holders.Serves.unique {g' : Holders} {answer : NickAnswer}
    (hserves : g.Serves c answer g') (h : g.Unique) : g'.Unique := by
  cases c with
  | canUseNick mucHost lus nick =>
    obtain ⟨can, -, -, rfl⟩ := hserves
    exact h
  | setNick mucHost lus nick =>
    rcases hserves with ⟨-, -, rfl⟩ | ⟨-, hfree, -, rfl⟩ | ⟨-, -, -, rfl⟩
    · exact h
    · exact h.write hfree
    · exact h
  | unsetNick mucHost lus =>
    obtain ⟨-, rfl⟩ := hserves
    exact h.clear mucHost lus

namespace NickBackend

variable {T : Type*} (b : NickBackend T) {table : T} {c : NickCall}

/-- **A storage that answers who may use a nick**, and can write a free one, takes every call by the
book. -/
theorem serves (hcan : ∀ mucHost lus nick,
    c = .canUseNick mucHost lus nick ∨ c = .setNick mucHost lus nick ∧ nick ≠ "" →
    ∃ can, b.canUseNick mucHost lus nick table = some can ∧
      (can = true ↔ (b.holders table).Free mucHost lus nick))
    (hstore : ∀ mucHost lus nick, c = .setNick mucHost lus nick → nick ≠ "" →
    (b.holders table).Free mucHost lus nick → (b.store mucHost lus nick table).isSome) :
    (b.holders table).Serves c (b.call table c).1 (b.holders (b.call table c).2) := by
  cases c with
  | canUseNick mucHost lus nick =>
    obtain ⟨can, hsome, hiff⟩ := hcan mucHost lus nick (.inl rfl)
    rw [call, hsome]
    exact ⟨can, rfl, hiff, rfl⟩
  | setNick mucHost lus nick =>
    rw [call, setNick]
    by_cases hempty : nick = ""
    · rw [if_pos hempty]
      exact .inl ⟨hempty, rfl, rfl⟩
    · obtain ⟨can, hsome, hiff⟩ := hcan mucHost lus nick (.inr ⟨rfl, hempty⟩)
      rw [if_neg hempty, hsome]
      cases can with
      | true =>
        obtain ⟨table', htable'⟩ :=
          Option.isSome_iff_exists.1 (hstore mucHost lus nick rfl hempty (hiff.1 rfl))
        simp only [htable']
        exact .inr (.inl ⟨hempty, hiff.1 rfl, rfl, b.holders_store mucHost lus htable'⟩)
      | false =>
        have hnot : ¬(b.holders table).Free mucHost lus nick := fun hfree => by
          cases hiff.2 hfree
        exact .inr (.inr ⟨hempty, hnot, rfl, rfl⟩)
  | unsetNick mucHost lus =>
    exact ⟨rfl, b.holders_unsetNick mucHost lus table⟩

theorem Exact.of_serves (hunique : (b.holders table).Unique)
    (h : (b.holders table).Serves c (b.call table c).1 (b.holders (b.call table c).2)) :
    b.Exact table c := by
  refine ⟨?_, h.unique hunique⟩
  rintro mucHost lus nick rfl
  obtain ⟨can, hanswer, hiff, -⟩ := h
  exact ⟨can, hanswer, hiff⟩

end NickBackend

/-! ## The storages -/

/-- The table `muc_registered` of Mnesia, by `us_host`. -/
abbrev Mnesia.Registered := AList fun _ : Lus × String => String

/-- The users with a nick on a host. -/
def Mnesia.selectNick (mucHost nick : String) (table : Mnesia.Registered) : List Lus :=
  (table.entries.filter fun row => row.2 = nick && row.1.2 = mucHost).map fun row => row.1.1

/-- `mod_muc_mnesia` -/
def mnesiaNicks : NickBackend Mnesia.Registered where
  getNick mucHost lus table := table.lookup (lus, mucHost)
  canUseNick mucHost lus nick table := soleOwner lus (Mnesia.selectNick mucHost nick table)
  store mucHost lus nick table := some (table.insert (lus, mucHost) nick)
  unsetNick mucHost lus table := table.erase (lus, mucHost)
  getNick_store h mucHost' lus' := by
    rw [← Option.some.inj h]
    simp only [lookup_insert, Prod.mk.injEq, and_comm]
  getNick_unsetNick mucHost lus table mucHost' lus' := by
    simp only [lookup_erase, Prod.mk.injEq, and_comm]

/-- The rows of `muc_registered`, with `(muc_host, luser, lserver)` as the primary key. -/
abbrev Rdbms.Registered := AList fun _ : String × Lus => String

/-- `muc_select_nick_user`: the users of a server. -/
def Rdbms.selectNickUser (mucHost lserver nick : String) (table : Rdbms.Registered) : List String :=
  (table.entries.filter fun row =>
    row.1.1 = mucHost && row.1.2.2 = lserver && row.2 = nick).map fun row => row.1.2.1

/-- The columns of `muc_registered` can hold a nick and its user. -/
def Rdbms.FitsNick (mucHost : String) (lus : Lus) (nick : String) : Prop :=
  FitsColumns (mucHost, nick) ∧ FitsColumns lus

instance (mucHost : String) (lus : Lus) (nick : String) :
    Decidable (Rdbms.FitsNick mucHost lus nick) := inferInstanceAs (Decidable (_ ∧ _))

/-- `mod_muc_rdbms` -/
def rdbmsNicks : NickBackend Rdbms.Registered where
  getNick mucHost lus table := table.lookup (mucHost, lus)
  canUseNick mucHost lus nick table :=
    soleOwner lus.1 (Rdbms.selectNickUser mucHost lus.2 nick table)
  store mucHost lus nick table :=
    if Rdbms.FitsNick mucHost lus nick then some (table.insert (mucHost, lus) nick) else none
  unsetNick mucHost lus table := table.erase (mucHost, lus)
  getNick_store h mucHost' lus' := by
    rw [← Option.some.inj (Option.ite_none_right_eq_some.1 h).2]
    simp only [lookup_insert, Prod.mk.injEq]
  getNick_unsetNick mucHost lus table mucHost' lus' := by
    simp only [lookup_erase, Prod.mk.injEq]

/-- The list of the users of a nick has each of them once. -/
theorem nodup_map_filter_entries {κ ν α : Type*} (m : AList fun _ : κ => ν)
    (p : (Σ _ : κ, ν) → Bool) (f : κ → α)
    (hf : ∀ e ∈ m.entries, ∀ e' ∈ m.entries, p e → p e' → f e.1 = f e'.1 → e.1 = e'.1) :
    ((m.entries.filter p).map fun e => f e.1).Nodup := by
  refine List.Nodup.map_on ?_ (m.nodupKeys.nodup.filter p)
  intro e he e' he' heq
  obtain ⟨hmem, hp⟩ := List.mem_filter.1 he
  obtain ⟨hmem', hp'⟩ := List.mem_filter.1 he'
  exact m.nodupKeys.eq_of_fst_eq hmem hmem' (hf e hmem e' hmem' hp hp' heq)

variable {mucHost nick : String} {table : Mnesia.Registered} {lus : Lus}

theorem Mnesia.mem_selectNick : lus ∈ Mnesia.selectNick mucHost nick table ↔
    mnesiaNicks.holders table mucHost lus = some nick := by
  rw [Mnesia.selectNick, List.mem_map]
  constructor
  · rintro ⟨row, hrow, rfl⟩
    obtain ⟨hmem, hp⟩ := List.mem_filter.1 hrow
    simp only [Bool.and_eq_true, decide_eq_true_eq] at hp
    obtain ⟨rfl, rfl⟩ := hp
    exact AList.mem_lookup_iff.2 hmem
  · intro h
    refine ⟨⟨(lus, mucHost), nick⟩, List.mem_filter.2 ⟨AList.mem_lookup_iff.1 h, ?_⟩, rfl⟩
    simp

theorem Mnesia.nodup_selectNick (mucHost nick : String) (table : Mnesia.Registered) :
    (Mnesia.selectNick mucHost nick table).Nodup := by
  refine nodup_map_filter_entries table _ Prod.fst ?_
  intro e _ e' _ hp hp' heq
  simp only [Bool.and_eq_true, decide_eq_true_eq] at hp hp'
  exact Prod.ext heq (hp.2.trans hp'.2.symm)

theorem Rdbms.mem_selectNickUser {lserver luser : String} {table : Rdbms.Registered} :
    luser ∈ Rdbms.selectNickUser mucHost lserver nick table ↔
    rdbmsNicks.holders table mucHost (luser, lserver) = some nick := by
  rw [Rdbms.selectNickUser, List.mem_map]
  constructor
  · rintro ⟨row, hrow, rfl⟩
    obtain ⟨hmem, hp⟩ := List.mem_filter.1 hrow
    simp only [Bool.and_eq_true, decide_eq_true_eq] at hp
    obtain ⟨⟨rfl, rfl⟩, rfl⟩ := hp
    exact AList.mem_lookup_iff.2 hmem
  · intro h
    refine ⟨⟨(mucHost, luser, lserver), nick⟩,
      List.mem_filter.2 ⟨AList.mem_lookup_iff.1 h, ?_⟩, rfl⟩
    simp

theorem Rdbms.nodup_selectNickUser (mucHost lserver nick : String) (table : Rdbms.Registered) :
    (Rdbms.selectNickUser mucHost lserver nick table).Nodup := by
  refine nodup_map_filter_entries table _ (fun key => key.2.1) ?_
  intro e _ e' _ hp hp' heq
  simp only [Bool.and_eq_true, decide_eq_true_eq] at hp hp'
  exact Prod.ext (hp.1.1.trans hp'.1.1.symm) (Prod.ext heq (hp.1.2.trans hp'.1.2.symm))

theorem Mnesia.canUseNick_eq
    (h : (mnesiaNicks.holders table).Unique) (mucHost : String) (lus : Lus) (nick : String) :
    ∃ can, mnesiaNicks.canUseNick mucHost lus nick table = some can ∧
    (can = true ↔ (mnesiaNicks.holders table).Free mucHost lus nick) := by
  obtain ⟨can, hsome, hiff⟩ := soleOwner_eq (Mnesia.nodup_selectNick mucHost nick table)
    (fun a ha b hb => h mucHost a b nick (Mnesia.mem_selectNick.1 ha) (Mnesia.mem_selectNick.1 hb))
    lus
  refine ⟨can, hsome, hiff.trans (forall_congr' fun other => ?_)⟩
  rw [Mnesia.mem_selectNick]

/-- The rows of a server say who of its users may use a nick. -/
theorem Rdbms.canUseNick_eq {table : Rdbms.Registered}
    (h : (rdbmsNicks.holders table).Unique) (mucHost : String) (lus : Lus) (nick : String) :
    ∃ can, rdbmsNicks.canUseNick mucHost lus nick table = some can ∧
    (can = true ↔ ∀ other : Lus, other.2 = lus.2 →
      rdbmsNicks.holders table mucHost other = some nick → other = lus) := by
  obtain ⟨can, hsome, hiff⟩ := soleOwner_eq (Rdbms.nodup_selectNickUser mucHost lus.2 nick table)
    (fun a ha b hb => congrArg Prod.fst (h mucHost (a, lus.2) (b, lus.2) nick
      (Rdbms.mem_selectNickUser.1 ha) (Rdbms.mem_selectNickUser.1 hb))) lus.1
  refine ⟨can, hsome, hiff.trans ?_⟩
  constructor
  · rintro hall ⟨luser, lserver⟩ hserver hother
    obtain rfl : lserver = lus.2 := hserver
    exact Prod.ext (hall luser (Rdbms.mem_selectNickUser.2 hother)) rfl
  · intro hall luser hluser
    exact congrArg Prod.fst (hall (luser, lus.2) rfl (Rdbms.mem_selectNickUser.1 hluser))

/-! ## The same calls on both storages -/

/-- The tables of both storages. -/
abbrev NickTables := Mnesia.Registered × Rdbms.Registered

/-- A call to both storages. -/
def nickStep (s : NickTables) (c : NickCall) : Option NickTables :=
  some ((mnesiaNicks.call s.1 c).2, (rdbmsNicks.call s.2 c).2)

/-- **What both storages promise**: the same answers, and each of them is exact. -/
structure NicksAgree (s : NickTables) (c : NickCall) : Prop where
  same : (mnesiaNicks.call s.1 c).1 = (rdbmsNicks.call s.2 c).1
  mnesia : mnesiaNicks.Exact s.1 c
  rdbms : rdbmsNicks.Exact s.2 c

/-- The nick that a call asks for is held by no user of another server, and fits the columns where it
is free and to be written. -/
def AskedAtHome (s : NickTables) : NickCall → Prop
  | .canUseNick mucHost lus nick =>
    ∀ other, rdbmsNicks.getNick mucHost other s.2 = some nick → other.2 = lus.2
  | .setNick mucHost lus nick =>
    nick ≠ "" →
      (∀ other, rdbmsNicks.getNick mucHost other s.2 = some nick → other.2 = lus.2) ∧
        ((rdbmsNicks.holders s.2).Free mucHost lus nick → Rdbms.FitsNick mucHost lus nick)
  | .unsetNick _ _ => True

/-- The storages hold the same nicks, each by one user. -/
structure SameNicks (s : NickTables) : Prop where
  holders : mnesiaNicks.holders s.1 = rdbmsNicks.holders s.2
  unique : (rdbmsNicks.holders s.2).Unique

theorem Mnesia.serves (h : (mnesiaNicks.holders table).Unique)
    (c : NickCall) : (mnesiaNicks.holders table).Serves c (mnesiaNicks.call table c).1
    (mnesiaNicks.holders (mnesiaNicks.call table c).2) :=
  mnesiaNicks.serves (fun mucHost lus nick _ => Mnesia.canUseNick_eq h mucHost lus nick)
    fun _ _ _ _ _ _ => rfl

variable {s : NickTables}

/-- Rows are read by the book when the nick is not held from elsewhere. -/
theorem Rdbms.serves (h : (rdbmsNicks.holders s.2).Unique)
    (hhome : AskedAtHome s c) : (rdbmsNicks.holders s.2).Serves c (rdbmsNicks.call s.2 c).1
    (rdbmsNicks.holders (rdbmsNicks.call s.2 c).2) := by
  refine rdbmsNicks.serves (fun mucHost lus nick hc => ?_) fun mucHost lus nick hc hempty hfree => ?_
  swap
  · subst hc
    show (ite _ _ _ : Option Rdbms.Registered).isSome
    rw [if_pos ((hhome hempty).2 hfree)]
    rfl
  have hserver : ∀ other, rdbmsNicks.holders s.2 mucHost other = some nick → other.2 = lus.2 := by
    rcases hc with rfl | ⟨rfl, hempty⟩
    · exact hhome
    · exact (hhome hempty).1
  obtain ⟨can, hsome, hiff⟩ := Rdbms.canUseNick_eq h mucHost lus nick
  refine ⟨can, hsome, hiff.trans (forall_congr' fun other => ?_)⟩
  exact ⟨fun hother heq => hother (hserver other heq) heq, fun hother _ heq => hother heq⟩

/-- A nick that is held from another server looks free. -/
theorem Rdbms.canUseNick_of_elsewhere {table : Rdbms.Registered}
    (h : (rdbmsNicks.holders table).Unique) {other : Lus}
    (hother : rdbmsNicks.holders table mucHost other = some nick) (hserver : other.2 ≠ lus.2) :
    rdbmsNicks.canUseNick mucHost lus nick table = some true := by
  obtain ⟨can, hsome, hiff⟩ := Rdbms.canUseNick_eq h mucHost lus nick
  rw [hsome, hiff.2]
  intro third hthird heq
  obtain rfl := h mucHost other third nick hother heq
  exact absurd hthird hserver

/-- **One call**: the storages keep their promise exactly when the nick is not held from another
server, and can be written where it is free. -/
theorem nicksAgree_iff (h : SameNicks s) (c : NickCall) : NicksAgree s c ↔ AskedAtHome s c := by
  have hmnesia : (mnesiaNicks.holders s.1).Unique := by
    rw [h.holders]
    exact h.unique
  constructor
  · intro hagree
    cases c with
    | canUseNick mucHost lus nick =>
      intro other hother
      by_contra hserver
      obtain ⟨can, hanswer, hiff⟩ := hagree.rdbms.usable mucHost lus nick rfl
      rw [NickBackend.call, Rdbms.canUseNick_of_elsewhere h.unique hother hserver] at hanswer
      obtain rfl := NickAnswer.usable.inj hanswer
      exact hserver (congrArg Prod.snd (hiff.1 rfl other hother))
    | setNick mucHost lus nick =>
      have hsame := hagree.same
      have hunique := hagree.rdbms.unique
      have hserves := Mnesia.serves hmnesia (.setNick mucHost lus nick)
      rw [h.holders] at hserves
      rw [NickBackend.call, NickBackend.call] at hsame
      intro hempty
      refine ⟨fun other hother => ?_, fun hfree => ?_⟩
      · by_contra hserver
        have hne : other ≠ lus := fun heq => hserver (congrArg Prod.snd heq)
        have hconflict : (mnesiaNicks.setNick mucHost lus nick s.1).1 = .conflict := by
          rcases hserves with ⟨h', -, -⟩ | ⟨-, hfree, -, -⟩ | ⟨-, -, h', -⟩
          · exact absurd h' hempty
          · exact absurd (hfree other hother) hne
          · exact h'
        -- the rows of the server have nobody with the nick
        rw [hconflict, NickBackend.setNick, if_neg hempty,
          Rdbms.canUseNick_of_elsewhere h.unique hother hserver] at hsame
        simp only at hsame
        split at hsame <;> cases hsame
      · by_contra hfits
        have hok : (mnesiaNicks.setNick mucHost lus nick s.1).1 = .ok := by
          rcases hserves with ⟨h', -, -⟩ | ⟨-, -, h', -⟩ | ⟨-, hnot, -, -⟩
          · exact absurd h' hempty
          · exact h'
          · exact absurd hfree hnot
        obtain ⟨can, hsome, hiff⟩ := Rdbms.canUseNick_eq h.unique mucHost lus nick
        have hcan : can = true := hiff.2 fun other _ heq => hfree other heq
        have hstore : rdbmsNicks.store mucHost lus nick s.2 = none := if_neg hfits
        rw [hok, NickBackend.setNick, if_neg hempty, hsome, hcan, hstore] at hsame
        cases hsame
    | unsetNick mucHost lus => trivial
  · intro hhome
    have hserves := Rdbms.serves h.unique hhome
    have hserves' := Mnesia.serves hmnesia c
    refine ⟨?_, .of_serves _ hmnesia hserves', .of_serves _ h.unique hserves⟩
    rw [h.holders] at hserves'
    exact (hserves'.eq hserves).1

theorem SameNicks.step {s' : NickTables} (h : SameNicks s)
    (hhome : AskedAtHome s c) (hstep : nickStep s c = some s') : SameNicks s' := by
  cases hstep
  have hserves := Rdbms.serves h.unique hhome
  have hunique : (mnesiaNicks.holders s.1).Unique := by rw [h.holders]; exact h.unique
  have hserves' := Mnesia.serves hunique c
  rw [h.holders] at hserves'
  exact ⟨(hserves'.eq hserves).2, hserves.unique h.unique⟩

/-- **Runs**: the storages keep their promise along the calls exactly when none asks for a nick
that is held from another server, or that is free and too long. -/
theorem nicksAgree_along_iff (calls : List NickCall) :
    Guarded nickStep NicksAgree (∅, ∅) calls ↔ Guarded nickStep AskedAtHome (∅, ∅) calls := by
  refine guarded_congr (P := SameNicks) (fun s c h => nicksAgree_iff h c) ?_ ?_ calls
  · intro s c s' h hagree hstep
    exact h.step ((nicksAgree_iff h c).1 hagree) hstep
  · refine ⟨rfl, ?_⟩
    intro mucHost lus lus' nick hlus
    cases hlus

/-! ## Domains that are removed -/

namespace Rdbms

/-- The tables of the service. -/
structure Database (Text : Type*) where
  registered : Registered
  tables : Tables Text

variable {Text : Type*}

/-- The affiliations for which `p` is true. -/
def Tables.filterAffs (p : AffRow → Bool) (tables : Tables Text) : Tables Text where
  nextId := tables.nextId
  rooms := tables.rooms
  affs := tables.affs.filter p
  key := tables.key
  serial := tables.serial
  reference row h := tables.reference row (List.mem_of_mem_filter h)

variable (mucHost : String) (tables : Tables Text)

/-- `muc_room_aff_remove_room_domain` -/
def removeRoomDomainAffs : Tables Text :=
  tables.filterAffs fun row =>
    ¬(tables.rooms.any fun room => room.mucHost = mucHost && room.id = row.roomId)

/-- `muc_room_aff_remove_user_domain` -/
def removeUserDomainAffs (domain : String) (tables : Tables Text) : Tables Text :=
  tables.filterAffs fun row => row.user.lserver ≠ domain

/-- `muc_rooms_remove_domain` -/
def removeRooms : Tables Text where
  nextId := tables.nextId
  rooms := tables.rooms.filter fun room => room.mucHost ≠ mucHost
  affs := tables.affs
  key := tables.key.sublist (List.filter_sublist.map _)
  serial room h := tables.serial room (List.mem_of_mem_filter h)
  reference := tables.reference

/-- `muc_registered_remove_room_domain` -/
def removeRoomDomainNicks (db : Database Text) : Database Text :=
  { db with registered := filterKeys (fun key => key.1 ≠ mucHost) db.registered }

/-- `muc_registered_remove_user_domain`: the statement names the table of affiliations. -/
def removeUserDomainNicks (domain : String) (db : Database Text) : Database Text :=
  { db with tables := db.tables.filterAffs fun row => row.user.lserver ≠ domain }

/-- `remove_domain/3` -/
def removeDomain (mucHost domain : String) (db : Database Text) : Database Text :=
  let db := removeRoomDomainNicks mucHost db
  let db := removeUserDomainNicks domain db
  let db := { db with tables := removeRoomDomainAffs mucHost db.tables }
  let db := { db with tables := removeUserDomainAffs domain db.tables }
  { db with tables := removeRooms mucHost db.tables }

/-- **Nothing of the domain remains**: no nick and no affiliation of its users. -/
structure DomainGone (domain : String) (db : Database Text) : Prop where
  nicks : ∀ mucHost lus, rdbmsNicks.getNick mucHost lus db.registered ≠ none → lus.2 ≠ domain
  affs : ∀ row ∈ db.tables.affs, row.user.lserver ≠ domain

variable (mucHost domain : String) (db : Database Text)

theorem getNick_removeDomain (mucHost' : String)
    (lus : Lus) : rdbmsNicks.getNick mucHost' lus (removeDomain mucHost domain db).registered =
    if mucHost' ≠ mucHost then rdbmsNicks.getNick mucHost' lus db.registered else none := by
  have hlookup := lookup_filterKeys (fun key : String × Lus => key.1 ≠ mucHost) db.registered
    (mucHost', lus)
  simp only [decide_eq_true_eq] at hlookup
  exact hlookup

/-- No affiliation of the domain is left, whatever the tables held. -/
theorem affs_removeDomain :
    ∀ row ∈ (removeDomain mucHost domain db).tables.affs, row.user.lserver ≠ domain := by
  intro row hrow
  have := (List.mem_filter.1 hrow).2
  simpa using this

/-- **When nothing of a domain remains**: when its users have nicks at no other host. -/
theorem domainGone_removeDomain_iff : DomainGone domain (removeDomain mucHost domain db) ↔
    ∀ mucHost' lus, rdbmsNicks.getNick mucHost' lus db.registered ≠ none → lus.2 = domain →
      mucHost' = mucHost := by
  constructor
  · intro hgone mucHost' lus hnick hserver
    by_contra hne
    refine hgone.nicks mucHost' lus ?_ hserver
    rw [getNick_removeDomain, if_pos hne]
    exact hnick
  · intro hhome
    refine ⟨fun mucHost' lus hnick hserver => ?_, affs_removeDomain mucHost domain db⟩
    rw [getNick_removeDomain] at hnick
    split at hnick
    · rename_i hne
      exact hne (hhome mucHost' lus hnick hserver)
    · exact hnick rfl

end Rdbms

/-- **When nicks are unique, and gone with their domain**: exactly when no call asks for a nick of a
user of another server or sets one that does not fit the columns; and a removed domain leaves
nothing exactly when its users have nicks at no other host. -/
theorem nicks_unique_iff {Text : Type*} : (∀ calls : List NickCall,
    Guarded nickStep NicksAgree (∅, ∅) calls ↔ Guarded nickStep AskedAtHome (∅, ∅) calls) ∧
    ∀ (mucHost domain : String) (db : Rdbms.Database Text),
    Rdbms.DomainGone domain (Rdbms.removeDomain mucHost domain db) ↔
      ∀ mucHost' lus, rdbmsNicks.getNick mucHost' lus db.registered ≠ none → lus.2 = domain →
        mucHost' = mucHost :=
  ⟨nicksAgree_along_iff, Rdbms.domainGone_removeDomain_iff⟩

/-- Alice and Bob of different servers get the same nick from the RDBMS storage; a nick of 251
characters is refused by that storage only; and Bob's nick at another host outlives his domain. -/
theorem nicks_shared_across_servers :
    (rdbmsNicks.call (rdbmsNicks.call ∅ (.setNick "muc.a.org" ("alice", "a.org") "ace")).2
      (.setNick "muc.a.org" ("bob", "b.org") "ace")).1 = .ok ∧
    (¬Guarded nickStep NicksAgree (∅, ∅)
    [.setNick "muc.a.org" ("alice", "a.org") "ace",
      .setNick "muc.a.org" ("bob", "b.org") "ace"]) ∧
    ((mnesiaNicks.call ∅ (.setNick "muc.a.org" ("alice", "a.org") ("".pushn 'a' 251))).1 = .ok ∧
    (rdbmsNicks.call ∅ (.setNick "muc.a.org" ("alice", "a.org") ("".pushn 'a' 251))).1 =
      .error) ∧
    rdbmsNicks.getNick "muc.a.org" ("bob", "b.org") (Rdbms.removeDomain "muc.b.org" "b.org"
        (⟨(rdbmsNicks.call ∅ (.setNick "muc.a.org" ("bob", "b.org") "ace")).2, .empty⟩ :
          Rdbms.Database String)).registered = some "ace" := by
  refine ⟨by decide +kernel, ?_, by decide +kernel, by decide +kernel⟩
  rw [nicksAgree_along_iff]
  rintro ⟨-, hhome, -⟩
  have hserver : "a.org" = "b.org" :=
    (hhome (by decide)).1 ("alice", "a.org") (by decide +kernel)
  exact absurd hserver (by decide)

end MongooseIM.Muc
