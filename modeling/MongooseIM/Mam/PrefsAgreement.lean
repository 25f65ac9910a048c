import Mathlib.Logic.Equiv.List
import MongooseIM.Mam.PrefsRows
import MongooseIM.Transition.Run

/-! # Do the backends of the preferences agree

The backend with Mnesia goes by the default mode, the other two take the most specific row. -/

namespace MongooseIM.Mam.Prefs

open Erlang Transition Xmpp List

/-! ## Addresses -/

/-- An address that is read back from its text. -/
def IsJid (lib : Library) (j : Jid) : Prop := lib.fromBinary j.toBinary = some j

instance (lib : Library) (j : Jid) : Decidable (IsJid lib j) := inferInstanceAs (Decidable (_ = _))

/-- `jid:from_binary/1` makes such addresses, the bare address of one is one, and none is empty. -/
structure ReadsJids (lib : Library) : Prop where
  fromBinary : ∀ text j, lib.fromBinary text = some j → IsJid lib j
  toBare : ∀ j, IsJid lib j → IsJid lib j.toBare
  empty : lib.fromBinary "" = none

/-- Lists of addresses in lower case, none of which is in both. -/
structure Preference.Valid (lib : Library) (p : Preference) : Prop where
  always : ∀ jid ∈ p.alwaysJids, ∃ j, IsJid lib j ∧ j.toBinary = jid
  never : ∀ jid ∈ p.neverJids, ∃ j, IsJid lib j ∧ j.toBinary = jid
  disjoint : ∀ jid ∈ p.alwaysJids, jid ∉ p.neverJids

/-- **The mode makes no difference**: with the default `never`, no address that is never archived
has its bare address archived always; with another default, the other way round. -/
def Preference.NoOverride (lib : Library) (p : Preference) : Prop :=
  match p.defaultMode with
  | .never => ∀ j, IsJid lib j → j.toBinary ∈ p.neverJids → j.toBare.toBinary ∉ p.alwaysJids
  | _ => ∀ j, IsJid lib j → j.toBinary ∈ p.alwaysJids → j.toBare.toBinary ∉ p.neverJids

/-- The behaviour by the default mode. -/
def Preference.byMode (p : Preference) (rem bareRem : String) : Behaviour :=
  match p.defaultMode with
  | .always => if rem ∈ p.neverJids ∨ bareRem ∈ p.neverJids then .never else .always
  | .never => if rem ∈ p.alwaysJids ∨ bareRem ∈ p.alwaysJids then .always else .never
  | .roster =>
    if rem ∈ p.neverJids ∨ bareRem ∈ p.neverJids then .never
    else if rem ∈ p.alwaysJids ∨ bareRem ∈ p.alwaysJids then .always
    else .roster

variable {lib : Library} {p : Preference}

theorem Preference.Same.symm_trans {p₁ p₂ : Preference} (h₁ : p.Same p₁) (h₂ : p.Same p₂) :
    p₁.Same p₂ where
  defaultMode := h₂.defaultMode.trans h₁.defaultMode.symm
  alwaysJids jid := (h₂.alwaysJids jid).trans (h₁.alwaysJids jid).symm
  neverJids jid := (h₂.neverJids jid).trans (h₁.neverJids jid).symm

theorem IsJid.toBinary_ne (hlib : ReadsJids lib) {j : Jid} (hj : IsJid lib j) :
    j.toBinary ≠ "" := by
  intro hempty
  rw [IsJid, hempty, hlib.empty] at hj
  cases hj

theorem Preference.Valid.wellFormed (hlib : ReadsJids lib) (hp : p.Valid lib) : p.WellFormed where
  always_ne hin := by
    obtain ⟨j, hj, hempty⟩ := hp.always "" hin
    exact hj.toBinary_ne hlib hempty
  never_ne hin := by
    obtain ⟨j, hj, hempty⟩ := hp.never "" hin
    exact hj.toBinary_ne hlib hempty
  disjoint := hp.disjoint

/-- **When the two ways to choose agree** for every remote address. -/
theorem byMode_eq_iff (hlib : ReadsJids lib) (hp : p.WellFormed) : (∀ j, IsJid lib j →
    p.byMode j.toBinary j.toBare.toBinary = p.mostSpecific j.toBinary j.toBare.toBinary) ↔
    p.NoOverride lib := by
  have hone : ∀ j, IsJid lib j →
      (p.byMode j.toBinary j.toBare.toBinary = p.mostSpecific j.toBinary j.toBare.toBinary ↔
        match p.defaultMode with
        | .never => j.toBinary ∈ p.neverJids → j.toBare.toBinary ∉ p.alwaysJids
        | _ => j.toBinary ∈ p.alwaysJids → j.toBare.toBinary ∉ p.neverJids) := by
    intro j hj
    have hne := hj.toBinary_ne hlib
    have hne' := (hlib.toBare j hj).toBinary_ne hlib
    have hdisjoint := hp.disjoint j.toBinary
    have hdisjoint' := hp.disjoint j.toBare.toBinary
    rw [Preference.mostSpecific, Preference.ruleOf, if_neg hne, Preference.ruleOf, if_neg hne',
      Preference.byMode]
    by_cases ha : j.toBinary ∈ p.alwaysJids <;> by_cases hn : j.toBinary ∈ p.neverJids <;>
      by_cases ha' : j.toBare.toBinary ∈ p.alwaysJids <;>
      by_cases hn' : j.toBare.toBinary ∈ p.neverJids <;>
      cases p.defaultMode <;> simp_all
  unfold Preference.NoOverride
  cases hmode : p.defaultMode <;> simp only [hmode] at hone ⊢ <;> exact forall₂_congr hone

/-! ## Mnesia -/

namespace Mnesia

variable {arc : Jid} {jids : List String} {rs : List Rule}

theorem ruleToJid_rule (arc j : Jid) : ruleToJid arc (rule arc j) = j := by
  obtain ⟨luser, lserver, lresource⟩ := j
  unfold rule
  split
  · next hbare =>
    split
    · next hserver => simp_all [ruleToJid]
    · simp_all [ruleToJid]
  · rfl

theorem rule_inj {j j' : Jid} (h : rule arc j = rule arc j') : j = j' := by
  rw [← ruleToJid_rule arc j, h, ruleToJid_rule]

theorem rules_spec (arc : Jid) (hjids : ∀ jid ∈ jids, ∃ j, IsJid lib j ∧ j.toBinary = jid) :
    ∃ rs, rules lib arc jids = some rs ∧
    (∀ r, r ∈ rs ↔ ∃ j, IsJid lib j ∧ j.toBinary ∈ jids ∧ r = rule arc j) := by
  obtain ⟨rs, hrs, hmap⟩ := exists_mapM (l := jids)
    (f := fun jid => (lib.fromBinary jid).map (rule arc)) fun jid hjid => by
      obtain ⟨j, hj, rfl⟩ := hjids jid hjid
      exact ⟨rule arc j, by simp [show lib.fromBinary j.toBinary = some j from hj]⟩
  refine ⟨rs, hrs, fun r => ?_⟩
  have hmem : r ∈ rs ↔ some r ∈ jids.map fun jid => (lib.fromBinary jid).map (rule arc) := by
    rw [hmap]
    simp
  rw [hmem, mem_map]
  constructor
  · rintro ⟨jid, hjid, hr⟩
    obtain ⟨j, hj, rfl⟩ := hjids jid hjid
    rw [show lib.fromBinary j.toBinary = some j from hj] at hr
    exact ⟨j, hj, hjid, (Option.some.inj hr).symm⟩
  · rintro ⟨j, hj, hjid, rfl⟩
    exact ⟨j.toBinary, hjid, by simp [show lib.fromBinary j.toBinary = some j from hj]⟩

section Rules

variable (hrs : ∀ r, r ∈ rs ↔ ∃ j, IsJid lib j ∧ j.toBinary ∈ jids ∧ r = rule arc j)
include hrs

theorem rule_mem_iff {j : Jid} (hj : IsJid lib j) : rule arc j ∈ rs ↔ j.toBinary ∈ jids := by
  rw [hrs]
  constructor
  · rintro ⟨j', -, hin, hrule⟩
    rwa [rule_inj hrule]
  · intro hin
    exact ⟨j, hj, hin, rfl⟩

/-- An address matches when it or its bare one is in the list. -/
theorem matchJid_iff (hlib : ReadsJids lib) {j : Jid} (hj : IsJid lib j) :
    matchJid arc j rs.dedup = true ↔ j.toBinary ∈ jids ∨ j.toBare.toBinary ∈ jids := by
  unfold matchJid
  split
  · next hbare =>
    have : j.toBare = j := by
      obtain ⟨_, _, _⟩ := j
      simp_all [Jid.toBare]
    rw [decide_eq_true_iff, mem_dedup, rule_mem_iff hrs hj, this, or_self]
  · rw [Bool.or_eq_true, decide_eq_true_iff, decide_eq_true_iff, mem_dedup, mem_dedup,
      rule_mem_iff hrs hj, rule_mem_iff hrs (hlib.toBare j hj), or_comm]

theorem mem_jids_iff (hjids : ∀ jid ∈ jids, ∃ j, IsJid lib j ∧ j.toBinary = jid) (jid : String) :
    jid ∈ Mnesia.jids arc rs.dedup ↔ jid ∈ jids := by
  rw [Mnesia.jids, mem_map]
  constructor
  · rintro ⟨r, hr, rfl⟩
    obtain ⟨j, -, hin, rfl⟩ := (hrs r).1 (mem_dedup.1 hr)
    rwa [ruleToJid_rule]
  · intro hin
    obtain ⟨j, hj, rfl⟩ := hjids jid hin
    refine ⟨rule arc j, mem_dedup.2 ((hrs _).2 ⟨j, hj, hin, rfl⟩), ?_⟩
    rw [ruleToJid_rule]

end Rules

variable {table t : Table}

theorem lookup_setPrefs_of_ne (h : setPrefs lib arc p table = some t) {key : String × String}
    (hkey : key ≠ suKey arc) : t.lookup key = table.lookup key := by
  rw [setPrefs, Option.bind_eq_bind, Option.bind_eq_some_iff] at h
  obtain ⟨as, -, hns⟩ := h
  obtain ⟨ns, -, h⟩ := Option.bind_eq_some_iff.1 hns
  rw [← Option.some.inj h]
  exact AList.lookup_insert_ne hkey

/-- **Preferences that are set with Mnesia** are read back, and the behaviour goes by the mode. -/
theorem setPrefs_spec (hlib : ReadsJids lib) (hp : p.Valid lib) (arc : Jid) (table : Table) :
    ∃ t, setPrefs lib arc p table = some t ∧ (∀ g, p.Same (getPrefs g arc t)) ∧ ∀ g j, IsJid lib j →
      getBehaviour g arc j t = p.byMode j.toBinary j.toBare.toBinary := by
  obtain ⟨as, has, hmemA⟩ := rules_spec arc hp.always
  obtain ⟨ns, hns, hmemN⟩ := rules_spec arc hp.never
  refine ⟨table.insert (suKey arc) ⟨p.defaultMode, as.dedup, ns.dedup⟩, ?_, fun g => ?_,
    fun g j hj => ?_⟩
  · simp [setPrefs, has, hns]
  · rw [getPrefs, AList.lookup_insert]
    exact ⟨rfl, mem_jids_iff hmemA hp.always, mem_jids_iff hmemN hp.never⟩
  · rw [getBehaviour, AList.lookup_insert]
    show getBehaviour3 ⟨p.defaultMode, as.dedup, ns.dedup⟩ arc j = _
    unfold Preference.byMode
    cases p.defaultMode <;>
      simp [getBehaviour3, matchJid_iff hmemA hlib hj, matchJid_iff hmemN hlib hj]

end Mnesia

/-! ## All three backends -/

/-- The tables of the backends, and the time of the last change. -/
structure Storage where
  clock : ℕ := 0
  mnesia : Mnesia.Table := ∅
  rdbms : List Rdbms.Row := []
  cassandra : Cassandra.Table := {}

/-- Preferences that a user or a room sets at a time. -/
structure SetPrefs where
  now : ℕ
  owner : Jid
  prefs : Preference

/-- The archive that an address has with `mod_mam_rdbms_user`. -/
def archiveOf (archiveId : String × String → ℕ) (owner : Jid) : ℕ :=
  archiveId (owner.lserver, owner.luser)

namespace Storage

variable (lib : Library) (archiveId : String × String → ℕ)

/-- Preferences are set in all backends, later than any before; a backend that fails is left as it
is. -/
def step (s : Storage) (e : SetPrefs) : Option Storage :=
  if s.clock < e.now ∧ IsJid lib e.owner then
    some {
      clock := e.now
      mnesia := (Mnesia.setPrefs lib e.owner e.prefs s.mnesia).getD s.mnesia
      rdbms := (Rdbms.setPrefs (archiveOf archiveId e.owner) e.prefs s.rdbms).getD s.rdbms
      cassandra := Cassandra.setPrefs e.now e.owner e.prefs s.cassandra }
  else none

/-- **The backends agree** on the behaviour for all remote addresses, and on the preferences up to
order and repetition. -/
structure Agree (s : Storage) (owner : Jid) : Prop where
  behaviour : ∀ defaultBehaviour j, IsJid lib j →
    let b := Mnesia.getBehaviour defaultBehaviour owner j s.mnesia
    Rdbms.getBehaviour defaultBehaviour (archiveOf archiveId owner) j s.rdbms = some b ∧
      Cassandra.getBehaviour defaultBehaviour owner j s.cassandra = some b
  prefs : ∀ globalDefaultMode, ∃ p p',
    Rdbms.getPrefs globalDefaultMode (archiveOf archiveId owner) s.rdbms = some p ∧
      Cassandra.getPrefs globalDefaultMode owner s.cassandra = some p' ∧
      (Mnesia.getPrefs globalDefaultMode owner s.mnesia).Same p ∧
      (Mnesia.getPrefs globalDefaultMode owner s.mnesia).Same p'

/-- **The backends have the default** for all remote addresses, and no lists. -/
structure Default (s : Storage) (owner : Jid) : Prop where
  behaviour : ∀ defaultBehaviour j,
    Mnesia.getBehaviour defaultBehaviour owner j s.mnesia = defaultBehaviour ∧
      Rdbms.getBehaviour defaultBehaviour (archiveOf archiveId owner) j s.rdbms =
        some defaultBehaviour ∧
      Cassandra.getBehaviour defaultBehaviour owner j s.cassandra = some defaultBehaviour
  prefs : ∀ globalDefaultMode,
    Mnesia.getPrefs globalDefaultMode owner s.mnesia = ⟨globalDefaultMode, [], []⟩ ∧
      Rdbms.getPrefs globalDefaultMode (archiveOf archiveId owner) s.rdbms =
        some ⟨globalDefaultMode, [], []⟩ ∧
      Cassandra.getPrefs globalDefaultMode owner s.cassandra = some ⟨globalDefaultMode, [], []⟩

end Storage

/-! ### What rows are asked for -/

theorem queryBehaviour_eq (rem bareRem : String) (rows : List (String × String)) :
    (if rem = bareRem then rows.filter fun row => row.1 = "" ∨ row.1 = rem
    else rows.filter fun row => row.1 = "" ∨ row.1 = rem ∨ row.1 = bareRem) =
    asked rem bareRem rows := by
  split
  · next heq => simp [asked, heq]
  · rfl

theorem lt_append {text : String} (h : text ≠ "") (start : String) : start < start ++ text := by
  have hne : text.toList ≠ [] := by simpa using h
  obtain ⟨c, rest, hcons⟩ := exists_cons_of_ne_nil hne
  rw [String.lt_iff_toList_lt, String.toList_append, hcons]
  have hlt : start.toList ++ [] < start.toList ++ c :: rest := append_left_lt (nil_lt_cons c rest)
  simpa using hlt

/-- The text of an address comes behind that of its bare one. -/
theorem toBare_toBinary_lt (j : Jid) :
    j.toBinary = j.toBare.toBinary ∨ j.toBare.toBinary < j.toBinary := by
  obtain ⟨luser, lserver, lresource⟩ := j
  by_cases hbare : lresource = ""
  · exact Or.inl (by rw [hbare]; rfl)
  · right
    have hfull : (⟨luser, lserver, lresource⟩ : Jid).toBinary =
        (⟨luser, lserver, lresource⟩ : Jid).toBare.toBinary ++ ("/" ++ lresource) := by
      simp [Jid.toBinary, Jid.toBare, hbare, String.append_assoc]
      rfl
    rw [hfull]
    exact lt_append (by simp) _

/-- **The RDBMS takes the most specific row.** -/
theorem Rdbms.getBehaviour_of_represents {userId : ℕ} {table : List Rdbms.Row}
    (hp : p.WellFormed) (h : Represents p (Rdbms.select userId table)) (g : Behaviour) (j : Jid) :
    Rdbms.getBehaviour g userId j table = some (p.mostSpecific j.toBinary j.toBare.toBinary) := by
  have hquery : Rdbms.queryBehaviour userId j.toBinary j.toBare.toBinary table =
      asked j.toBinary j.toBare.toBinary (Rdbms.select userId table) := queryBehaviour_eq _ _ _
  rw [Rdbms.getBehaviour, hquery]
  split
  · next hnil => exact absurd hnil (h.asked_ne_nil hp)
  · rw [h.chooseBehaviour hp, Option.bind_some, decodeBehaviour_encodeBehaviour]

/-- **And so does Cassandra.** -/
theorem Cassandra.getBehaviour_of_represents {owner : Jid} {table : Cassandra.Table}
    (hp : p.WellFormed) (h : Represents p (Cassandra.select (Cassandra.bareJid owner) table))
    (g : Behaviour) {j : Jid} (hne : j.toBare.toBinary ≠ "") :
    Cassandra.getBehaviour g owner j table =
    some (p.mostSpecific j.toBinary j.toBare.toBinary) := by
  have hquery : Cassandra.queryBehaviour (Cassandra.bareJid owner) j.toBinary
      (Cassandra.bareJid j) table = asked j.toBinary j.toBare.toBinary
        (Cassandra.select (Cassandra.bareJid owner) table) := by
    rw [← queryBehaviour_eq, Cassandra.queryBehaviour, Cassandra.bareJid]
    split
    · next heq => simp [heq]
    · rfl
  have hlt : "" < j.toBare.toBinary := by simpa using lt_append hne ""
  obtain ⟨jid, hlast⟩ := h.last hp hlt (toBare_toBinary_lt j)
  rw [Cassandra.getBehaviour, hquery, hlast]
  exact decodeBehaviour_encodeBehaviour _

/-! ### Runs -/

namespace Storage

variable {lib : Library} {archiveId : String × String → ℕ} {s s' : Storage} {e : SetPrefs}

variable {now : ℕ} {owner : Jid}

theorem upTo_step (h : s.cassandra.UpTo s.clock) (hstep : step lib archiveId s e = some s') :
    s'.cassandra.UpTo s'.clock := by
  rw [step, Option.ite_none_right_eq_some] at hstep
  obtain ⟨⟨hnow, -⟩, hs'⟩ := hstep
  cases hs'
  exact (Cassandra.setPrefs_frame h hnow e.owner e.prefs).2.2

theorem upTo_init : ({} : Storage).cassandra.UpTo ({} : Storage).clock where
  cells key b t hlookup := by cases hlookup
  deleted user t hlookup := by cases hlookup

theorem upTo_run {es : List SetPrefs} (hrun : run (step lib archiveId) {} es = some s) :
    s.cassandra.UpTo s.clock :=
  run_induction (P := fun _ s => s.cassandra.UpTo s.clock)
    (fun _ _ _ _ h hstep => upTo_step h hstep) upTo_init hrun

section

variable (hlib : ReadsJids lib) (hp : p.Valid lib) (h : s.cassandra.UpTo s.clock)
    (hstep : step lib archiveId s ⟨now, owner, p⟩ = some s')

include hlib hp h hstep

/-- **What a change leaves in the three backends.** -/
theorem step_spec : ((∀ g, p.Same (Mnesia.getPrefs g owner s'.mnesia)) ∧ ∀ g j, IsJid lib j →
      Mnesia.getBehaviour g owner j s'.mnesia = p.byMode j.toBinary j.toBare.toBinary) ∧
    Represents p (Cassandra.select (Cassandra.bareJid owner) s'.cassandra) ∧
    (p.Storable → Represents p (Rdbms.select (archiveOf archiveId owner) s'.rdbms)) ∧
    (¬ p.Storable → s'.rdbms = s.rdbms) := by
  have hform := hp.wellFormed hlib
  rw [step, Option.ite_none_right_eq_some] at hstep
  obtain ⟨⟨hnow, -⟩, hs'⟩ := hstep
  cases hs'
  refine ⟨?_, Cassandra.select_setPrefs hform h hnow owner, fun hstorable => ?_,
    fun hstorable => ?_⟩
  · obtain ⟨t, ht, hprefs, hbehaviour⟩ := Mnesia.setPrefs_spec hlib hp owner s.mnesia
    simp only [ht, Option.getD_some]
    exact ⟨hprefs, hbehaviour⟩
  · have ht : Rdbms.setPrefs (archiveOf archiveId owner) p s.rdbms = some _ :=
      (Rdbms.setPrefs_eq_some_iff hform).2 ⟨rfl, hstorable⟩
    simp only [ht, Option.getD_some]
    exact Rdbms.select_setPrefs hform ht
  · have hnone : Rdbms.setPrefs (archiveOf archiveId owner) p s.rdbms = none := by
      rw [Option.eq_none_iff_forall_ne_some]
      exact fun t ht => hstorable ((Rdbms.setPrefs_eq_some_iff hform).1 ht).2
    simp only [hnone, Option.getD_none]

/-- With preferences that are stored, the backends agree exactly if the mode makes no
difference. -/
theorem agree_iff_of_storable
    (hstorable : p.Storable) : s'.Agree lib archiveId owner ↔ p.NoOverride lib := by
  have hform := hp.wellFormed hlib
  obtain ⟨⟨hmnesia, hmode⟩, hcassandra, hrdbms, -⟩ := step_spec hlib hp h hstep
  have hrdbms := hrdbms hstorable
  rw [← byMode_eq_iff hlib hform]
  constructor
  · intro hagree j hj
    have hrow := (hagree.behaviour .always j hj).1
    rw [hmode _ j hj, Rdbms.getBehaviour_of_represents hform hrdbms, Option.some_inj] at hrow
    exact hrow.symm
  · intro heq
    refine ⟨fun g j hj => ?_, fun g => ?_⟩
    · have hne := (hlib.toBare j hj).toBinary_ne hlib
      show _ = some (Mnesia.getBehaviour g owner j s'.mnesia) ∧
        _ = some (Mnesia.getBehaviour g owner j s'.mnesia)
      rw [hmode g j hj, heq j hj]
      exact ⟨Rdbms.getBehaviour_of_represents hform hrdbms g j,
        Cassandra.getBehaviour_of_represents hform hcassandra g hne⟩
    · obtain ⟨p₁, hp₁, hsame₁⟩ := hrdbms.decodePrefsRows hform g
      obtain ⟨p₂, hp₂, hsame₂⟩ := hcassandra.decodePrefsRows hform g
      exact ⟨p₁, p₂, hp₁, hp₂, (hmnesia g).symm_trans hsame₁, (hmnesia g).symm_trans hsame₂⟩

end

/-- Preferences that the RDBMS cannot store, as the first of their user, are not read back. -/
theorem storable_of_agree (hlib : ReadsJids lib) (hp : p.Valid lib)
    (hstep : step lib archiveId {} ⟨now, owner, p⟩ = some s') (h : s'.Agree lib archiveId owner) :
    p.Storable := by
  by_contra hstorable
  obtain ⟨⟨hmnesia, -⟩, -, -, hsame⟩ := step_spec hlib hp upTo_init hstep
  obtain ⟨p₁, _, hp₁, -, hsame₁, -⟩ := h.prefs .always
  rw [hsame hstorable] at hp₁
  cases hp₁
  have halways : p.alwaysJids = [] := eq_nil_iff_forall_not_mem.2 fun jid hjid => by
    have := (hsame₁.alwaysJids jid).2 (((hmnesia .always).alwaysJids jid).2 hjid)
    cases this
  have hnever : p.neverJids = [] := eq_nil_iff_forall_not_mem.2 fun jid hjid => by
    have := (hsame₁.neverJids jid).2 (((hmnesia .always).neverJids jid).2 hjid)
    cases this
  refine hstorable ⟨?_, ?_, ?_, ?_⟩ <;> simp [halways, hnever]

/-- Nothing is stored for an owner. -/
structure Untouched (archiveId : String × String → ℕ) (owner : Jid) (s : Storage) : Prop where
  mnesia : s.mnesia.lookup (Mnesia.suKey owner) = none
  rdbms : Rdbms.select (archiveOf archiveId owner) s.rdbms = []
  cassandra : ∀ k, s.cassandra.cells.lookup (Cassandra.bareJid owner, k) = none

theorem Untouched.step (hlib : ReadsJids lib) (hid : Function.Injective archiveId)
    (howner : IsJid lib owner) (h : s.Untouched archiveId owner) (hupTo : s.cassandra.UpTo s.clock)
    (hne : e.owner.toBare ≠ owner.toBare) (hstep : Storage.step lib archiveId s e = some s') :
    s'.Untouched archiveId owner := by
  rw [Storage.step, Option.ite_none_right_eq_some] at hstep
  obtain ⟨⟨hnow, howner'⟩, hs'⟩ := hstep
  cases hs'
  have hkey : ¬ (owner.lserver = e.owner.lserver ∧ owner.luser = e.owner.luser) := by
    rintro ⟨hserver, huser⟩
    exact hne (by rw [Jid.toBare, Jid.toBare]; simp [hserver, huser])
  refine ⟨?_, ?_, fun k => ?_⟩
  · cases hset : Mnesia.setPrefs lib e.owner e.prefs s.mnesia with
    | none => exact h.mnesia
    | some t =>
      rw [Option.getD_some, Mnesia.lookup_setPrefs_of_ne hset, h.mnesia]
      simpa [Mnesia.suKey] using hkey
  · cases hset : Rdbms.setPrefs (archiveOf archiveId e.owner) e.prefs s.rdbms with
    | none => exact h.rdbms
    | some t =>
      rw [Option.getD_some, Rdbms.select_setPrefs_of_ne hset, h.rdbms]
      intro heq
      exact hkey (Prod.mk.inj (hid heq))
  · rw [(Cassandra.setPrefs_frame hupTo hnow e.owner e.prefs).1, h.cassandra]
    intro heq
    refine hne (Option.some.inj ?_)
    rw [← hlib.toBare _ howner', ← hlib.toBare _ howner]
    exact congrArg lib.fromBinary heq.symm

theorem Untouched.default (h : s.Untouched archiveId owner) : s.Default archiveId owner := by
  have hcassandra : Cassandra.select (Cassandra.bareJid owner) s.cassandra = [] := by
    rw [eq_nil_iff_forall_not_mem]
    intro row hrow
    obtain ⟨t, hlookup, -⟩ := Cassandra.mem_select.1 hrow
    rw [h.cassandra] at hlookup
    cases hlookup
  refine ⟨fun g j => ⟨?_, ?_, ?_⟩, fun g => ⟨?_, ?_, ?_⟩⟩
  · rw [Mnesia.getBehaviour, h.mnesia]
  · simp [Rdbms.getBehaviour, Rdbms.queryBehaviour, h.rdbms]
  · simp [Cassandra.getBehaviour, Cassandra.queryBehaviour, hcassandra, keysort]
  · rw [Mnesia.getPrefs, h.mnesia]
  · rw [Rdbms.getPrefs, h.rdbms, decodePrefsRows]
  · rw [Cassandra.getPrefs, hcassandra, decodePrefsRows]

def alice : Jid := ⟨"alice", "x", ""⟩

def bob : Jid := ⟨"bob", "y", ""⟩

def bobHome : Jid := ⟨"bob", "y", "home"⟩

/-- Reads the addresses of two users. -/
def exampleFromBinary : String → Option Jid
  | "alice@x" => some alice
  | "bob@y" => some bob
  | "bob@y/home" => some bobHome
  | _ => none

def exampleLibrary : Library where
  nodeprep := some
  nameprep := some
  resourceprep := some
  fromBinary := exampleFromBinary
  rfc3339 _ := ""

theorem mem_of_exampleFromBinary {text : String} {j : Jid} (h : exampleFromBinary text = some j) :
    j ∈ [alice, bob, bobHome] := by
  unfold exampleFromBinary at h
  split at h
  · simp [← Option.some.inj h]
  · simp [← Option.some.inj h]
  · simp [← Option.some.inj h]
  · cases h

theorem readsJids_exampleLibrary : ReadsJids exampleLibrary where
  fromBinary text j h :=
    (by decide : ∀ j ∈ [alice, bob, bobHome], IsJid exampleLibrary j) j (mem_of_exampleFromBinary h)
  toBare j h := (by decide : ∀ j ∈ [alice, bob, bobHome], IsJid exampleLibrary j.toBare) j
      (mem_of_exampleFromBinary h)
  empty := rfl

/-- A number for each user of each domain. -/
def exampleArchiveId (user : String × String) : ℕ :=
  Encodable.encode (user.1.toList.map Char.toNat, user.2.toList.map Char.toNat)

theorem exampleArchiveId_injective : Function.Injective exampleArchiveId := by
  rintro ⟨a, b⟩ ⟨a', b'⟩ h
  have hcode := Prod.mk.inj (Encodable.encode_injective h)
  have hchar : Function.Injective Char.toNat := fun c c' hc => by
    rw [← Char.ofNat_toNat c, hc, Char.ofNat_toNat]
  rw [Prod.mk.injEq]
  exact ⟨String.ext (map_injective_iff.2 hchar hcode.1),
    String.ext (map_injective_iff.2 hchar hcode.2)⟩

end Storage

end MongooseIM.Mam.Prefs
