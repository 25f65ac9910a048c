import MongooseIM.Erlang.Maps
import MongooseIM.Mam.Prefs

/-! # Preferences in rows

What rows say, whatever order they stand in: the preferences that they are read to, and the
behaviour that `mod_mam_rdbms_prefs` and `mod_mam_cassandra_prefs` choose from them. -/

namespace MongooseIM.Mam.Prefs

open Erlang Xmpp List

/-- No address is empty or in both lists. -/
structure Preference.WellFormed (p : Preference) : Prop where
  always_ne : "" ∉ p.alwaysJids
  never_ne : "" ∉ p.neverJids
  disjoint : ∀ jid ∈ p.alwaysJids, jid ∉ p.neverJids

/-- The behaviour that is set for one address, or for the others under the empty one. -/
def Preference.ruleOf (p : Preference) (jid : String) : Option Behaviour :=
  if jid = "" then some p.defaultMode
  else if jid ∈ p.alwaysJids then some .always
  else if jid ∈ p.neverJids then some .never
  else none

/-- The behaviour for an address, or else for its bare one, or else the default. -/
def Preference.mostSpecific (p : Preference) (rem bareRem : String) : Behaviour :=
  ((p.ruleOf rem).or (p.ruleOf bareRem)).getD p.defaultMode

/-- The same preferences up to order and repetition. -/
structure Preference.Same (p p' : Preference) : Prop where
  defaultMode : p'.defaultMode = p.defaultMode
  alwaysJids : ∀ jid, jid ∈ p'.alwaysJids ↔ jid ∈ p.alwaysJids
  neverJids : ∀ jid, jid ∈ p'.neverJids ↔ jid ∈ p.neverJids

@[simp] theorem decodeBehaviour_encodeBehaviour (b : Behaviour) :
    decodeBehaviour (encodeBehaviour b) = some b := by
  cases b <;> rfl

theorem encodeBehaviour_inj {b b' : Behaviour} (h : encodeBehaviour b = encodeBehaviour b') :
    b = b' := by
  rw [← Option.some_inj, ← decodeBehaviour_encodeBehaviour, h, decodeBehaviour_encodeBehaviour]

variable {p : Preference} {rows : List (String × String)}

theorem mem_prefsToRows (hp : p.WellFormed) {jid behaviour : String} :
    (jid, behaviour) ∈ prefsToRows p ↔
    ∃ b, p.ruleOf jid = some b ∧ behaviour = encodeBehaviour b := by
  have hsplit : (jid, behaviour) ∈ prefsToRows p ↔
      (jid = "" ∧ behaviour = encodeBehaviour p.defaultMode) ∨
        (jid ∈ p.alwaysJids ∧ behaviour = encodeBehaviour .always) ∨
        (jid ∈ p.neverJids ∧ behaviour = encodeBehaviour .never) := by
    simp [prefsToRows, eq_comm]
  rw [hsplit, Preference.ruleOf]
  by_cases hempty : jid = ""
  · subst hempty
    simp [hp.always_ne, hp.never_ne]
  · by_cases halways : jid ∈ p.alwaysJids
    · simp [hempty, halways, hp.disjoint jid halways]
    · by_cases hnever : jid ∈ p.neverJids
      · simp [hempty, halways, hnever]
      · simp [hempty, halways, hnever]

/-- **The rows of preferences**, each once and in any order. -/
structure Represents (p : Preference) (rows : List (String × String)) : Prop where
  nodup : (rows.map Prod.fst).Nodup
  mem : ∀ row, row ∈ rows ↔ row ∈ prefsToRows p

/-! ## Reading -/

/-- What is read from rows with known behaviours, behind what was read before. -/
theorem decodePrefsRows_spec (hrows : ∀ row ∈ rows, (row.1 = "" ∧ ∃ b, row.2 = encodeBehaviour b) ∨
    (row.1 ≠ "" ∧ (row.2 = "A" ∨ row.2 = "N")))
    (defaultMode : Behaviour) (alwaysJids neverJids : List String) :
    ∃ p, decodePrefsRows rows defaultMode alwaysJids neverJids = some p ∧
    ((p.defaultMode = defaultMode ∧ ∀ b, ("", b) ∉ rows) ∨
      ("", encodeBehaviour p.defaultMode) ∈ rows) ∧
    (∀ jid, jid ∈ p.alwaysJids ↔ jid ∈ alwaysJids ∨ jid ≠ "" ∧ (jid, "A") ∈ rows) ∧
    ∀ jid, jid ∈ p.neverJids ↔ jid ∈ neverJids ∨ jid ≠ "" ∧ (jid, "N") ∈ rows := by
  induction rows generalizing defaultMode alwaysJids neverJids with
  | nil => exact ⟨_, rfl, Or.inl ⟨rfl, by simp⟩, by simp, by simp⟩
  | cons row rows ih =>
    obtain ⟨jid, behaviour⟩ := row
    have ih := ih fun row hrow => hrows row (mem_cons_of_mem _ hrow)
    rcases hrows _ mem_cons_self with ⟨hempty, b, hb⟩ | ⟨hne, rfl | rfl⟩
    · obtain rfl : jid = "" := hempty
      obtain rfl : behaviour = encodeBehaviour b := hb
      obtain ⟨p, hp, hdefault, halways, hnever⟩ := ih b alwaysJids neverJids
      refine ⟨p, ?_, ?_, fun jid' => ?_, fun jid' => ?_⟩
      · rw [decodePrefsRows, if_pos rfl, decodeBehaviour_encodeBehaviour, Option.bind_some, hp]
      · rcases hdefault with ⟨rfl, -⟩ | hin
        · exact Or.inr mem_cons_self
        · exact Or.inr (mem_cons_of_mem _ hin)
      · rw [halways, mem_cons, Prod.mk.injEq]
        by_cases hempty : jid' = ""
        · simp [hempty]
        · simp [hempty]
      · rw [hnever, mem_cons, Prod.mk.injEq]
        by_cases hempty : jid' = ""
        · simp [hempty]
        · simp [hempty]
    · obtain ⟨p, hp, hdefault, halways, hnever⟩ := ih defaultMode (jid :: alwaysJids) neverJids
      have hne : jid ≠ "" := hne
      refine ⟨p, ?_, ?_, fun jid' => ?_, fun jid' => ?_⟩
      · rw [decodePrefsRows, if_neg hne, if_pos rfl, hp]
      · simpa [hne.symm] using hdefault
      · rw [halways, mem_cons, mem_cons, Prod.mk.injEq]
        by_cases heq : jid' = jid
        · simp [heq, hne]
        · simp [heq]
      · rw [hnever, mem_cons, Prod.mk.injEq]
        simp
    · obtain ⟨p, hp, hdefault, halways, hnever⟩ := ih defaultMode alwaysJids (jid :: neverJids)
      have hne : jid ≠ "" := hne
      refine ⟨p, ?_, ?_, fun jid' => ?_, fun jid' => ?_⟩
      · rw [decodePrefsRows, if_neg hne, if_neg (by decide), if_pos rfl, hp]
      · simpa [hne.symm] using hdefault
      · rw [halways, mem_cons, Prod.mk.injEq]
        simp
      · rw [hnever, mem_cons, mem_cons, Prod.mk.injEq]
        by_cases heq : jid' = jid
        · simp [heq, hne]
        · simp [heq]

/-- **Preferences are read back from their rows.** -/
theorem Represents.decodePrefsRows (hp : p.WellFormed) (h : Represents p rows)
    (globalDefaultMode : Behaviour) :
    ∃ p', decodePrefsRows rows globalDefaultMode [] [] = some p' ∧ p.Same p' := by
  have hmem : ∀ jid behaviour, (jid, behaviour) ∈ rows ↔
      ∃ b, p.ruleOf jid = some b ∧ behaviour = encodeBehaviour b := by
    intro jid behaviour
    rw [h.mem, mem_prefsToRows hp]
  have hrule : ∀ jid, jid ≠ "" → ∀ b, p.ruleOf jid = some b ↔
      (jid ∈ p.alwaysJids ∧ b = .always) ∨ (jid ∈ p.neverJids ∧ b = .never) := by
    intro jid hne b
    rw [Preference.ruleOf, if_neg hne]
    by_cases halways : jid ∈ p.alwaysJids
    · simp [halways, hp.disjoint jid halways, eq_comm]
    · simp [halways, eq_comm]
  have hknown : ∀ row ∈ rows, (row.1 = "" ∧ ∃ b, row.2 = encodeBehaviour b) ∨
      (row.1 ≠ "" ∧ (row.2 = "A" ∨ row.2 = "N")) := by
    intro row hrow
    obtain ⟨b, hb, hbehaviour⟩ := (hmem row.1 row.2).1 hrow
    by_cases hempty : row.1 = ""
    · exact Or.inl ⟨hempty, b, hbehaviour⟩
    · refine Or.inr ⟨hempty, ?_⟩
      rcases (hrule _ hempty b).1 hb with ⟨-, rfl⟩ | ⟨-, rfl⟩
      · exact Or.inl hbehaviour
      · exact Or.inr hbehaviour
  obtain ⟨p', hp', hdefault, halways, hnever⟩ := decodePrefsRows_spec hknown globalDefaultMode [] []
  refine ⟨p', hp', ?_, fun jid => ?_, fun jid => ?_⟩
  · rcases hdefault with ⟨-, hnone⟩ | hin
    · exact absurd ((hmem _ _).2 ⟨p.defaultMode, by simp [Preference.ruleOf], rfl⟩) (hnone _)
    · obtain ⟨b, hb, hbehaviour⟩ := (hmem _ _).1 hin
      rw [Preference.ruleOf, if_pos rfl, Option.some_inj] at hb
      rw [encodeBehaviour_inj hbehaviour, hb]
  · rw [halways]
    constructor
    · rintro (hin | ⟨hne, hin⟩)
      · cases hin
      · obtain ⟨b, hb, hbehaviour⟩ := (hmem _ _).1 hin
        obtain rfl : Behaviour.always = b := encodeBehaviour_inj hbehaviour
        simpa using (hrule jid hne _).1 hb
    · intro hin
      have hne : jid ≠ "" := fun hempty => hp.always_ne (hempty ▸ hin)
      exact Or.inr ⟨hne, (hmem _ _).2 ⟨.always, (hrule jid hne _).2 (Or.inl ⟨hin, rfl⟩), rfl⟩⟩
  · rw [hnever]
    constructor
    · rintro (hin | ⟨hne, hin⟩)
      · cases hin
      · obtain ⟨b, hb, hbehaviour⟩ := (hmem _ _).1 hin
        obtain rfl : Behaviour.never = b := encodeBehaviour_inj hbehaviour
        simpa using (hrule jid hne _).1 hb
    · intro hin
      have hne : jid ≠ "" := fun hempty => hp.never_ne (hempty ▸ hin)
      exact Or.inr ⟨hne, (hmem _ _).2 ⟨.never, (hrule jid hne _).2 (Or.inr ⟨hin, rfl⟩), rfl⟩⟩

/-! ## Choosing -/

section Choosing

variable {rem bareRem : String}

/-- The rows that both backends ask for. -/
def asked (rem bareRem : String) (rows : List (String × String)) : List (String × String) :=
  rows.filter fun row => row.1 = "" ∨ row.1 = rem ∨ row.1 = bareRem

section

variable (hp : p.WellFormed) (h : Represents p rows)

include hp h

theorem Represents.lookup_asked {jid : String} (hjid : jid = "" ∨ jid = rem ∨ jid = bareRem) :
    (asked rem bareRem rows).lookup jid = (p.ruleOf jid).map encodeBehaviour := by
  have hnodup : ((asked rem bareRem rows).map Prod.fst).Nodup :=
    h.nodup.sublist (filter_sublist.map _)
  refine Option.ext fun behaviour => ?_
  rw [lookup_eq_some_iff hnodup, asked, mem_filter, h.mem, mem_prefsToRows hp,
    Option.map_eq_some_iff, and_iff_left (decide_eq_true hjid)]
  exact exists_congr fun b => and_congr_right fun _ => eq_comm

theorem Represents.asked_ne_nil : asked rem bareRem rows ≠ [] := by
  have hlookup : (asked rem bareRem rows).lookup "" = (p.ruleOf "").map encodeBehaviour :=
    h.lookup_asked hp (Or.inl rfl)
  intro hnil
  rw [hnil] at hlookup
  cases hlookup

/-- **The RDBMS backend takes the most specific row.** -/
theorem Represents.chooseBehaviour : Rdbms.chooseBehaviour rem bareRem (asked rem bareRem rows) =
    some (encodeBehaviour (p.mostSpecific rem bareRem)) := by
  rw [Rdbms.chooseBehaviour, h.lookup_asked hp (Or.inr (Or.inl rfl)),
    h.lookup_asked hp (Or.inr (Or.inr rfl)), h.lookup_asked hp (Or.inl rfl),
    Preference.mostSpecific]
  cases p.ruleOf rem with
  | some b => rfl
  | none =>
    cases p.ruleOf bareRem with
    | some b => rfl
    | none => rfl

/-- **The Cassandra backend takes the last row**, which is the most specific one: an address comes
behind its bare one, and that behind the empty one. -/
theorem Represents.last (hbare : "" < bareRem) (hrem : rem = bareRem ∨ bareRem < rem) :
    ∃ jid, (keysort toLex (asked rem bareRem rows)).getLast? =
    some (jid, encodeBehaviour (p.mostSpecific rem bareRem)) := by
  have hne : asked rem bareRem rows ≠ [] := h.asked_ne_nil hp
  obtain ⟨⟨jid, behaviour⟩, hlast, hin, hmax⟩ : ∃ row : String × String,
      (keysort toLex (asked rem bareRem rows)).getLast? = some row ∧
        row ∈ asked rem bareRem rows ∧ ∀ b ∈ asked rem bareRem rows, toLex b ≤ toLex row :=
    getLast?_keysort hne
  refine ⟨jid, ?_⟩
  rw [hlast, Option.some_inj, Prod.mk.injEq]
  refine ⟨rfl, ?_⟩
  obtain ⟨hrow, hasked⟩ := mem_filter.1 hin
  rw [decide_eq_true_iff] at hasked
  obtain ⟨b, hb, rfl⟩ := (mem_prefsToRows hp).1 ((h.mem _).1 hrow)
  -- a row that is asked for is not behind the last one
  have hle : ∀ jid' b', (jid' = "" ∨ jid' = rem ∨ jid' = bareRem) → p.ruleOf jid' = some b' →
      jid' ≤ jid := by
    intro jid' b' hjid' hb'
    have hin' : (jid', encodeBehaviour b') ∈ asked rem bareRem rows := by
      rw [asked, mem_filter, h.mem, mem_prefsToRows hp]
      exact ⟨⟨b', hb', rfl⟩, decide_eq_true hjid'⟩
    rcases Prod.Lex.le_iff.1 (hmax _ hin') with hlt | ⟨heq, -⟩
    · exact hlt.le
    · exact heq.le
  have hrem' : bareRem ≤ rem := hrem.elim (fun h => h.ge) le_of_lt
  rw [Preference.mostSpecific]
  congr 1
  cases hruleRem : p.ruleOf rem with
  | some b' =>
    have hjid : jid = rem := by
      rcases hasked with rfl | rfl | rfl
      · exact absurd (hle rem b' (Or.inr (Or.inl rfl)) hruleRem) (hbare.trans_le hrem').not_ge
      · rfl
      · exact le_antisymm hrem' (hle rem b' (Or.inr (Or.inl rfl)) hruleRem)
    rw [hjid, hruleRem] at hb
    simpa using hb.symm
  | none =>
    have hne : jid ≠ rem := fun heq => by simp [heq ▸ hruleRem] at hb
    cases hruleBare : p.ruleOf bareRem with
    | some b' =>
      have hjid : jid = bareRem := by
        rcases hasked with rfl | rfl | rfl
        · exact absurd (hle bareRem b' (Or.inr (Or.inr rfl)) hruleBare) hbare.not_ge
        · exact absurd rfl hne
        · rfl
      rw [hjid, hruleBare] at hb
      simpa using hb.symm
    | none =>
      rcases hasked with rfl | rfl | rfl
      · simpa [Preference.ruleOf] using hb.symm
      · exact absurd rfl hne
      · rw [hruleBare] at hb
        cases hb

end

end Choosing

/-! ## Setting -/

/-- The preferences that the table of the RDBMS takes: no address twice, and none too long. -/
structure Preference.Storable (p : Preference) : Prop where
  always_nodup : p.alwaysJids.Nodup
  never_nodup : p.neverJids.Nodup
  always_length : ∀ jid ∈ p.alwaysJids, jid.length ≤ 250
  never_length : ∀ jid ∈ p.neverJids, jid.length ≤ 250

theorem nodup_keys_prefsToRows (hp : p.WellFormed) :
    ((prefsToRows p).map Prod.fst).Nodup ↔ p.alwaysJids.Nodup ∧ p.neverJids.Nodup := by
  have hkeys : (prefsToRows p).map Prod.fst = "" :: (p.alwaysJids ++ p.neverJids) := by
    simp [prefsToRows, Function.comp_def]
  rw [hkeys, nodup_cons, nodup_append]
  constructor
  · rintro ⟨-, halways, hnever, -⟩
    exact ⟨halways, hnever⟩
  · rintro ⟨halways, hnever⟩
    refine ⟨?_, halways, hnever, fun jid hjid jid' hjid' heq => ?_⟩
    · rw [mem_append, not_or]
      exact ⟨hp.always_ne, hp.never_ne⟩
    · exact hp.disjoint jid hjid (heq ▸ hjid')

namespace Rdbms

variable {userId : ℕ} {table t : List Row}

/-- Rows are inserted when their keys are new and their addresses are not too long. -/
theorem insertAll_eq_some_iff {rows : List Row} :
    rows.foldlM (fun table row => insert row table) table = some t ↔
    t = table ++ rows ∧ (∀ row ∈ rows, row.remoteJid.length ≤ 250) ∧
      rows.Pairwise (fun a b => ¬ (a.userId = b.userId ∧ a.remoteJid = b.remoteJid)) ∧
      ∀ row ∈ table, ∀ row' ∈ rows,
        ¬ (row.userId = row'.userId ∧ row.remoteJid = row'.remoteJid) := by
  induction rows generalizing table with
  | nil => simp [eq_comm]
  | cons row rows ih =>
    rw [foldlM_cons, Option.bind_eq_bind, Option.bind_eq_some_iff]
    constructor
    · rintro ⟨table', hinsert, hrest⟩
      unfold insert at hinsert
      split at hinsert
      · next hrow =>
        cases hinsert
        obtain ⟨rfl, hlength, hpairwise, hnew⟩ := ih.1 hrest
        refine ⟨by simp, by simpa using ⟨hrow.1, hlength⟩, ?_, fun row' hrow' row'' hrow'' => ?_⟩
        · refine pairwise_cons.2 ⟨fun row' hrow' => ?_, hpairwise⟩
          exact hnew row (by simp) row' hrow'
        · rcases mem_cons.1 hrow'' with rfl | hrow''
          · exact hrow.2 row' hrow'
          · exact hnew row' (mem_append_left _ hrow') row'' hrow''
      · cases hinsert
    · rintro ⟨rfl, hlength, hpairwise, hnew⟩
      rw [pairwise_cons] at hpairwise
      refine ⟨table ++ [row], ?_, ih.2 ⟨by simp, fun row' hrow' => ?_, hpairwise.2,
        fun row' hrow' row'' hrow'' => ?_⟩⟩
      · rw [insert, if_pos]
        exact ⟨hlength row mem_cons_self, fun row' hrow' =>
          hnew row' hrow' row mem_cons_self⟩
      · exact hlength row' (mem_cons_of_mem _ hrow')
      · rcases mem_append.1 hrow' with hrow' | hrow'
        · exact hnew row' hrow' row'' (mem_cons_of_mem _ hrow'')
        · rw [mem_singleton.1 hrow']
          exact hpairwise.1 row'' hrow''

theorem userRows_perm (userId : ℕ) (p : Preference) :
    (userRows userId p).Perm ((prefsToRows p).map fun row => ⟨userId, row.1, row.2⟩) := by
  rw [userRows]
  refine List.Perm.map _ ?_
  conv_rhs => rw [← take_append_drop 1 (prefsToRows p)]
  exact (keysort_perm _ _).append_left _

theorem userId_of_mem_userRows {row : Row} (h : row ∈ userRows userId p) : row.userId = userId := by
  rw [(userRows_perm userId p).mem_iff, mem_map] at h
  obtain ⟨_, -, rfl⟩ := h
  rfl

theorem setPrefs_eq_some_iff (hp : p.WellFormed) :
    setPrefs userId p table = some t ↔ t = delete userId table ++ userRows userId p ∧ p.Storable := by
  have hperm := userRows_perm userId p
  have hlength : (∀ row ∈ userRows userId p, row.remoteJid.length ≤ 250) ↔
      (∀ jid ∈ p.alwaysJids, jid.length ≤ 250) ∧ ∀ jid ∈ p.neverJids, jid.length ≤ 250 := by
    constructor
    · intro h
      refine ⟨fun jid hjid => h ⟨userId, jid, "A"⟩ ?_, fun jid hjid => h ⟨userId, jid, "N"⟩ ?_⟩
      · rw [hperm.mem_iff]
        simp [prefsToRows, encodeBehaviour, hjid]
      · rw [hperm.mem_iff]
        simp [prefsToRows, encodeBehaviour, hjid]
    · rintro ⟨halways, hnever⟩ row hrow
      rw [hperm.mem_iff, mem_map] at hrow
      obtain ⟨⟨jid, behaviour⟩, hin, rfl⟩ := hrow
      simp only [prefsToRows, mem_cons, mem_append, mem_map, Prod.mk.injEq] at hin
      rcases hin with ⟨rfl, -⟩ | ⟨_, hjid, rfl, -⟩ | ⟨_, hjid, rfl, -⟩
      · exact Nat.zero_le _
      · exact halways _ hjid
      · exact hnever _ hjid
  have hkeys : (userRows userId p).Pairwise
        (fun a b => ¬ (a.userId = b.userId ∧ a.remoteJid = b.remoteJid)) ↔
      p.alwaysJids.Nodup ∧ p.neverJids.Nodup := by
    rw [hperm.pairwise_iff fun h heq => h ⟨heq.1.symm, heq.2.symm⟩, pairwise_map,
      ← nodup_keys_prefsToRows hp, List.Nodup, pairwise_map]
    simp
  rw [setPrefs, insertAll_eq_some_iff, hlength, hkeys]
  constructor
  · rintro ⟨ht, ⟨halways, hnever⟩, ⟨halways', hnever'⟩, -⟩
    exact ⟨ht, halways', hnever', halways, hnever⟩
  · rintro ⟨ht, halways', hnever', halways, hnever⟩
    refine ⟨ht, ⟨halways, hnever⟩, ⟨halways', hnever'⟩, fun row hrow row' hrow' heq => ?_⟩
    -- the rows of the user are gone
    rw [delete, mem_filter, decide_eq_true_iff] at hrow
    exact hrow.2 (heq.1.trans (userId_of_mem_userRows hrow'))

theorem select_setPrefs_of_ne (h : setPrefs userId p table = some t) {userId' : ℕ}
    (hne : userId' ≠ userId) : select userId' t = select userId' table := by
  obtain ⟨rfl, -⟩ := insertAll_eq_some_iff.1 h
  have hrows : (userRows userId p).filter (·.userId = userId') = [] := by
    rw [filter_eq_nil_iff]
    intro row hrow
    simpa [userId_of_mem_userRows hrow] using hne.symm
  rw [select, select, filter_append, hrows, append_nil, delete, filter_filter]
  congr 1
  refine filter_congr fun row _ => ?_
  by_cases hrow : row.userId = userId'
  · simp [hrow, hne]
  · simp [hrow]

/-- **Preferences that the table takes are in the rows of their user.** -/
theorem select_setPrefs (hp : p.WellFormed) (h : setPrefs userId p table = some t) :
    Represents p (select userId t) := by
  obtain ⟨rfl, hstorable⟩ := (setPrefs_eq_some_iff hp).1 h
  have hselect : (select userId (delete userId table ++ userRows userId p)).Perm (prefsToRows p) := by
    have hdeleted : (delete userId table).filter (·.userId = userId) = [] := by
      rw [delete, filter_filter, filter_eq_nil_iff]
      simp
    have hrows : (userRows userId p).filter (·.userId = userId) = userRows userId p := by
      rw [filter_eq_self]
      exact fun row hrow => decide_eq_true (userId_of_mem_userRows hrow)
    rw [select, filter_append, hdeleted, hrows, nil_append]
    refine ((userRows_perm userId p).map _).trans (List.Perm.of_eq ?_)
    rw [map_map]
    exact map_id _
  refine ⟨?_, fun row => hselect.mem_iff⟩
  exact (hselect.map _).nodup_iff.2
    ((nodup_keys_prefsToRows hp).2 ⟨hstorable.always_nodup, hstorable.never_nodup⟩)

end Rdbms

namespace Cassandra

variable {userJid : String} {timestamp : ℕ} {table : Table} {row : String × String}

/-- The rows of a user are the cells that are not deleted. -/
theorem mem_select : row ∈ select userJid table ↔
    ∃ t, table.cells.lookup (userJid, row.1) = some (row.2, t) ∧ isLive userJid t table = true := by
  rw [select, mem_filterMap]
  constructor
  · rintro ⟨⟨⟨user, jid⟩, behaviour, t⟩, hin, hrow⟩
    rw [Option.ite_none_right_eq_some] at hrow
    obtain ⟨⟨rfl, hlive⟩, hrow⟩ := hrow
    cases hrow
    exact ⟨t, AList.mem_lookup_iff.2 hin, hlive⟩
  · rintro ⟨t, hlookup, hlive⟩
    exact ⟨⟨(userJid, row.1), row.2, t⟩, AList.mem_lookup_iff.1 hlookup, by simp [hlive]⟩

theorem nodup_select (userJid : String) (table : Table) :
    ((select userJid table).map Prod.fst).Nodup := by
  rw [List.Nodup, pairwise_map, select, pairwise_filterMap]
  refine (nodupKeys_iff_pairwise.1 table.cells.nodupKeys).imp ?_
  rintro ⟨⟨user, jid⟩, behaviour, t⟩ ⟨⟨user', jid'⟩, behaviour', t'⟩ hne row hrow row' hrow'
  rw [Option.ite_none_right_eq_some] at hrow hrow'
  obtain ⟨⟨rfl, -⟩, hrow⟩ := hrow
  obtain ⟨⟨rfl, -⟩, hrow'⟩ := hrow'
  cases hrow
  cases hrow'
  intro heq
  obtain rfl : jid = jid' := heq
  exact hne rfl

/-- A write that is not earlier than the cell, and not another one at its time, is what is there. -/
theorem lookup_insert (hold : ∀ b t, table.cells.lookup (userJid, row.1) = some (b, t) →
    t < timestamp ∨ t = timestamp ∧ b = row.2) (key : String × String) :
    (insert userJid timestamp table row).cells.lookup key =
    if key = (userJid, row.1) then some (row.2, timestamp) else table.cells.lookup key := by
  unfold insert
  split
  · next behaviour old hlookup =>
    split
    · exact Erlang.lookup_insert _ _ _ _
    · next hlate =>
      -- the same write at the same time
      obtain ⟨rfl, rfl⟩ : old = timestamp ∧ behaviour = row.2 := by
        rcases hold behaviour old hlookup with hlt | hsame
        · exact absurd (Or.inl hlt) hlate
        · exact hsame
      split
      · next hkey => rw [hkey, hlookup]
      · rfl
  · exact Erlang.lookup_insert _ _ _ _

variable (row : String × String)

@[simp] theorem deleted_insert : (insert userJid timestamp table row).deleted = table.deleted := by
  unfold insert
  split
  · split
    · rfl
    · rfl
  · rfl

/-- What a batch of writes leaves, where no two of them disagree. -/
theorem lookup_insertAll {rows : List (String × String)}
    (hfun : ∀ k b b', (k, b) ∈ rows → (k, b') ∈ rows → b = b')
    (hold : ∀ k b t, table.cells.lookup (userJid, k) = some (b, t) →
    t < timestamp ∨ t = timestamp ∧ ∀ b', (k, b') ∈ rows → b = b') :
    ∀ k b t, (rows.foldl (insert userJid timestamp) table).cells.lookup (userJid, k) = some (b, t) ↔
    (t = timestamp ∧ (k, b) ∈ rows) ∨
      ((∀ b', (k, b') ∉ rows) ∧ table.cells.lookup (userJid, k) = some (b, t)) := by
  induction rows generalizing table with
  | nil => simp
  | cons row rows ih =>
    obtain ⟨k₀, b₀⟩ := row
    have hcell : ∀ k, (insert userJid timestamp table (k₀, b₀)).cells.lookup (userJid, k) =
        if k = k₀ then some (b₀, timestamp) else table.cells.lookup (userJid, k) := by
      intro k
      rw [lookup_insert fun b t hlookup => (hold k₀ b t hlookup).imp_right fun h =>
        ⟨h.1, h.2 b₀ mem_cons_self⟩]
      simp
    have hfun' : ∀ k b b', (k, b) ∈ rows → (k, b') ∈ rows → b = b' := fun k b b' hb hb' =>
      hfun k b b' (mem_cons_of_mem _ hb) (mem_cons_of_mem _ hb')
    have hold' : ∀ k b t,
        (insert userJid timestamp table (k₀, b₀)).cells.lookup (userJid, k) = some (b, t) →
          t < timestamp ∨ t = timestamp ∧ ∀ b', (k, b') ∈ rows → b = b' := by
      intro k b t hlookup
      rw [hcell] at hlookup
      split at hlookup
      · next hk =>
        cases hlookup
        refine Or.inr ⟨rfl, fun b' hb' => ?_⟩
        rw [hk] at hb'
        exact hfun k₀ _ b' mem_cons_self (mem_cons_of_mem _ hb')
      · exact (hold k b t hlookup).imp_right fun h =>
          ⟨h.1, fun b' hb' => h.2 b' (mem_cons_of_mem _ hb')⟩
    intro k b t
    rw [foldl_cons, ih hfun' hold', hcell]
    by_cases hk : k = k₀
    · subst hk
      simp only [if_true, Option.some_inj, Prod.mk.injEq, mem_cons, true_and]
      constructor
      · rintro (⟨rfl, hin⟩ | ⟨-, rfl, rfl⟩)
        · exact Or.inl ⟨rfl, Or.inr hin⟩
        · exact Or.inl ⟨rfl, Or.inl rfl⟩
      · rintro (⟨rfl, rfl | hin⟩ | ⟨hnone, -⟩)
        · by_cases hin : (k, b) ∈ rows
          · exact Or.inl ⟨rfl, hin⟩
          · refine Or.inr ⟨fun b' hb' => hin ?_, rfl, rfl⟩
            rwa [hfun k b b' mem_cons_self (mem_cons_of_mem _ hb')]
        · exact Or.inl ⟨rfl, hin⟩
        · exact absurd (Or.inl rfl) (hnone b₀)
    · simp [hk]

/-- The times of a table are those of what was set up to a time. -/
structure Table.UpTo (table : Table) (clock : ℕ) : Prop where
  cells : ∀ key b t, table.cells.lookup key = some (b, t) → t ≤ clock + 1
  deleted : ∀ user t, table.deleted.lookup user = some t → t ≤ clock

/-- A write fills its cell at its time, or leaves it. -/
theorem lookup_insert_cases (key : String × String) :
    (insert userJid timestamp table row).cells.lookup key = table.cells.lookup key ∨
    key = (userJid, row.1) ∧
      (insert userJid timestamp table row).cells.lookup key = some (row.2, timestamp) := by
  have hinsert : (table.cells.insert (userJid, row.1) (row.2, timestamp)).lookup key =
      table.cells.lookup key ∨ key = (userJid, row.1) ∧
        (table.cells.insert (userJid, row.1) (row.2, timestamp)).lookup key =
          some (row.2, timestamp) := by
    rw [Erlang.lookup_insert]
    split
    · next hkey => exact Or.inr ⟨hkey, rfl⟩
    · exact Or.inl rfl
  unfold insert
  split
  · split
    · exact hinsert
    · exact Or.inl rfl
  · exact hinsert

variable (rows : List (String × String))

/-- A batch of writes fills cells of its user at its time, and leaves the others. -/
theorem lookup_insertAll_cases (key : String × String) :
    (rows.foldl (insert userJid timestamp) table).cells.lookup key = table.cells.lookup key ∨
    key.1 = userJid ∧ ∃ b,
      (rows.foldl (insert userJid timestamp) table).cells.lookup key = some (b, timestamp) := by
  induction rows generalizing table with
  | nil => exact Or.inl rfl
  | cons row rows ih =>
    rw [foldl_cons]
    rcases ih with hsame | hnew
    · rw [hsame]
      have hrow : (insert userJid timestamp table row).cells.lookup key =
            table.cells.lookup key ∨ key = (userJid, row.1) ∧
          (insert userJid timestamp table row).cells.lookup key = some (row.2, timestamp) :=
        lookup_insert_cases row key
      rcases hrow with hsame' | ⟨hkey, hnew⟩
      · exact Or.inl hsame'
      · exact Or.inr ⟨congrArg Prod.fst hkey, row.2, hnew⟩
    · exact Or.inr hnew

theorem deleted_insertAll :
    (rows.foldl (insert userJid timestamp) table).deleted = table.deleted := by
  induction rows generalizing table with
  | nil => rfl
  | cons row rows ih => rw [foldl_cons, ih, deleted_insert]

/-- The cells of the other users stay, and the times are those of what was set. -/
theorem setPrefs_frame {clock now : ℕ} (h : table.UpTo clock) (hnow : clock < now) (user : Jid)
    (p : Preference) :
    (∀ userJid k, userJid ≠ bareJid user →
    (setPrefs now user p table).cells.lookup (userJid, k) = table.cells.lookup (userJid, k)) ∧
    (setPrefs now user p table).deleted = table.deleted.insert (bareJid user) now ∧
    (setPrefs now user p table).UpTo now := by
  have hdeleted : (setPrefs now user p table).deleted = table.deleted.insert (bareJid user) now := by
    have hmax : max now ((table.deleted.lookup (bareJid user)).getD 0) = now := by
      refine max_eq_left ?_
      cases hlookup : table.deleted.lookup (bareJid user) with
      | none => exact Nat.zero_le _
      | some t => exact (h.deleted _ t hlookup).trans hnow.le
    rw [setPrefs, deleted_insertAll, delete, hmax]
  have hcells : ∀ key, (setPrefs now user p table).cells.lookup key = table.cells.lookup key ∨
      key.1 = bareJid user ∧ ∃ b,
        (setPrefs now user p table).cells.lookup key = some (b, now + 1) := fun key =>
    lookup_insertAll_cases (prefsToRows p) key
  refine ⟨fun userJid k hne => ?_, hdeleted, fun key b t hlookup => ?_, fun userJid t hlookup => ?_⟩
  · rcases hcells (userJid, k) with hsame | ⟨huser, -⟩
    · exact hsame
    · exact absurd huser hne
  · rcases hcells key with hsame | ⟨-, b', hnew⟩
    · have := h.cells key b t (hsame.symm.trans hlookup)
      omega
    · rw [hnew, Option.some_inj, Prod.mk.injEq] at hlookup
      exact hlookup.2.ge
  · rw [hdeleted, Erlang.lookup_insert] at hlookup
    split at hlookup
    · exact (Option.some.inj hlookup).ge
    · exact (h.deleted _ t hlookup).trans hnow.le

/-- **Preferences that are set later are in the rows of their user.** -/
theorem select_setPrefs (hp : p.WellFormed) {clock now : ℕ} (h : table.UpTo clock)
    (hnow : clock < now) (user : Jid) :
    Represents p (select (bareJid user) (setPrefs now user p table)) := by
  have hfun : ∀ k b b', (k, b) ∈ prefsToRows p → (k, b') ∈ prefsToRows p → b = b' := by
    intro k b b' hb hb'
    obtain ⟨_, hrule, rfl⟩ := (mem_prefsToRows hp).1 hb
    obtain ⟨_, hrule', rfl⟩ := (mem_prefsToRows hp).1 hb'
    rw [Option.some.inj (hrule.symm.trans hrule')]
  have hold : ∀ k b t, (delete (bareJid user) now table).cells.lookup (bareJid user, k) =
      some (b, t) → t ≤ now := by
    intro k b t hlookup
    have := h.cells _ b t hlookup
    omega
  have hcells := lookup_insertAll hfun fun k b t hlookup =>
    Or.inl (Nat.lt_succ_of_le (hold k b t hlookup))
  obtain ⟨-, hdeleted, -⟩ := setPrefs_frame h hnow user p
  refine ⟨nodup_select _ _, fun row => ?_⟩
  rw [mem_select]
  constructor
  · rintro ⟨t, hlookup, hlive⟩
    rw [isLive, hdeleted, AList.lookup_insert, Option.all_some, decide_eq_true_iff] at hlive
    rcases (hcells _ _ _).1 hlookup with ⟨-, hin⟩ | ⟨-, hin⟩
    · exact hin
    · exact absurd hlive (hold _ _ _ hin).not_gt
  · intro hin
    refine ⟨now + 1, (hcells _ _ _).2 (Or.inl ⟨rfl, hin⟩), ?_⟩
    rw [isLive, hdeleted, AList.lookup_insert, Option.all_some, decide_eq_true_iff]
    omega

end Cassandra

end MongooseIM.Mam.Prefs
