import Mathlib.Data.List.Perm.Subperm
import MongooseIM.Offline.Backends
import MongooseIM.Transition.Run

/-! # What the backends deliver

The same messages are written to both backends, popped and removed; next to the two tables stands
the list of the messages that are to be delivered still. -/

namespace MongooseIM.Offline

open Erlang Transition Xmpp List

variable {Packet Field : Type}

/-- The tables of the backends, and the messages that were written and are not popped or removed. -/
structure Storage (Packet Field : Type) where
  mnesia : List (OfflineMsg Packet Field) := []
  rdbms : List Row := []
  kept : List (OfflineMsg Packet Field) := []

/-- An operation. -/
inductive Event (Packet Field : Type)
  | write (us : String × String) (msgs : List (OfflineMsg Packet Field))
  | pop (jid : Jid)
  | removeExpired (lserver : String) (timeStamp : ℤ)
  | removeOld (lserver : String) (timeStamp : ℤ)
  | removeUser (us : String × String)

/-- A message as `store_packet/4` makes it for a user, from a valid address. -/
def IsFor (lib : Library) (us : String × String) (m : OfflineMsg Packet Field) : Prop :=
  m.us = us ∧ (m.receiver.luser, m.receiver.lserver) = us ∧
    lib.fromBinary m.sender.toBinary = some m.sender

instance (lib : Library) (us : String × String) (m : OfflineMsg Packet Field) :
    Decidable (IsFor lib us m) :=
  inferInstanceAs (Decidable (_ ∧ _ ∧ _))

namespace Storage

variable (codec : Codec Packet Field)

/-- One operation on both backends, `none` where it is not possible. -/
def step [DecidableEq Packet] [DecidableEq Field] (s : Storage Packet Field) :
    Event Packet Field → Option (Storage Packet Field)
  | .write us msgs =>
    if ∀ m ∈ msgs, IsFor codec.lib us m then
      some {
        mnesia := Mnesia.writeMessages msgs s.mnesia
        rdbms := (Rdbms.writeMessages codec msgs s.rdbms).getD s.rdbms
        kept := s.kept ++ msgs }
    else none
  | .pop jid =>
    let us := (jid.luser, jid.lserver)
    some {
      mnesia := (Mnesia.popMessages us s.mnesia).2
      rdbms := Rdbms.delete us s.rdbms
      kept := s.kept.filter (·.us ≠ us) }
  | .removeExpired lserver timeStamp =>
    some {
      mnesia := Mnesia.removeExpiredMessages lserver timeStamp s.mnesia
      rdbms := Rdbms.removeExpiredMessages lserver timeStamp s.rdbms
      kept := s.kept.filter fun m => !(m.us.2 = lserver && m.isExpired timeStamp) }
  | .removeOld lserver timeStamp =>
    some {
      mnesia := Mnesia.removeOldMessages lserver timeStamp s.mnesia
      rdbms := Rdbms.removeOldMessages lserver timeStamp s.rdbms
      kept := s.kept.filter fun m => !(m.us.2 = lserver && m.timestamp < timeStamp) }
  | .removeUser us =>
    some {
      mnesia := Mnesia.removeUser us s.mnesia
      rdbms := Rdbms.removeUser us s.rdbms
      kept := s.kept.filter (·.us ≠ us) }

variable (s : Storage Packet Field) (jid : Jid)

/-- What `pop_messages/2` returns for a user with Mnesia. -/
def popMnesia (timeStamp : ℤ) : List (OfflineMsg Packet Field) :=
  deliver timeStamp (Mnesia.popMessages (jid.luser, jid.lserver) s.mnesia).1

/-- What it returns with the RDBMS, whose query has a clock of its own. -/
def popRdbms (orderBy : List Row → List Row) (s : Storage Packet Field) (jid : Jid)
    (extTimeStamp timeStamp : ℤ) : Option (List (OfflineMsg Packet Field)) :=
  ((Rdbms.popMessages codec orderBy jid.toBare extTimeStamp s.rdbms).1).map (deliver timeStamp)

/-- The messages of a user that are kept. -/
def keptFor : List (OfflineMsg Packet Field) :=
  s.kept.filter (·.us = (jid.luser, jid.lserver))

/-- Those that have not expired. -/
def waiting (timeStamp : ℤ) : List (OfflineMsg Packet Field) :=
  skipExpiredMessages timeStamp (s.keptFor jid)

end Storage

/-- The columns of the table can hold the messages that are written. -/
def Fits (codec : Codec Packet Field) (_ : Storage Packet Field) : Event Packet Field → Prop
  | .write _ msgs => ∀ m ∈ msgs, (Rdbms.recordToRow codec m).Fits
  | _ => True

/-- **What a pop should return**: the messages that wait, each as often as it was written and with
all its fields but `expire`, ordered by time stamp. -/
structure Delivers (waiting l : List (OfflineMsg Packet Field)) : Prop where
  perm : (l.map OfflineMsg.withoutExpire).Perm (waiting.map OfflineMsg.withoutExpire)
  sorted : l.Pairwise fun a b => a.timestamp ≤ b.timestamp

/-- **The messages that both backends deliver.** No two of them that wait have the same time stamp,
their receivers have no resource, and none expires between the two clocks or at their time. -/
structure Deliverable (s : Storage Packet Field) (jid : Jid) (extTimeStamp timeStamp : ℤ) :
    Prop where
  distinct : ((s.waiting jid timeStamp).map OfflineMsg.timestamp).Nodup
  bare : ∀ m ∈ s.waiting jid timeStamp, m.receiver.lresource = ""
  border : ∀ m ∈ s.keptFor jid, ∀ e, m.expire = some e → (extTimeStamp < e ↔ timeStamp ≤ e)

/-! ## The invariant -/

variable {codec : Codec Packet Field}

/-- **What all runs keep** whose messages fit. -/
structure Storage.Invariant (codec : Codec Packet Field) (s : Storage Packet Field) : Prop where
  nodup : s.mnesia.Nodup
  mem_mnesia : ∀ m, m ∈ s.mnesia ↔ m ∈ s.kept
  rdbms : s.rdbms = s.kept.map (Rdbms.recordToRow codec)
  isFor : ∀ m ∈ s.kept, IsFor codec.lib m.us m

namespace Mnesia

variable [DecidableEq Packet] [DecidableEq Field] {table msgs : List (OfflineMsg Packet Field)}

theorem mem_writeMessages {m : OfflineMsg Packet Field} :
    m ∈ writeMessages msgs table ↔ m ∈ table ∨ m ∈ msgs := by
  induction msgs generalizing table with
  | nil => simp [writeMessages]
  | cons a msgs ih =>
    show m ∈ writeMessages msgs (write table a) ↔ _
    rw [ih, write]
    split
    · next ha =>
      rw [mem_cons]
      refine ⟨fun h => h.imp_right Or.inr, ?_⟩
      rintro (h | rfl | h)
      · exact Or.inl h
      · exact Or.inl ha
      · exact Or.inr h
    · simp [or_assoc]

theorem nodup_writeMessages (h : table.Nodup) : (writeMessages msgs table).Nodup := by
  induction msgs generalizing table with
  | nil => exact h
  | cons a msgs ih =>
    apply ih
    rw [write]
    split
    · exact h
    · next ha => exact nodup_append.2 ⟨h, nodup_singleton a, by
        rintro b hb c hc rfl
        exact ha (mem_singleton.1 hc ▸ hb)⟩

end Mnesia

namespace Storage

variable {s s' : Storage Packet Field}

theorem decide_us (m : OfflineMsg Packet Field) (us : String × String) :
    (decide (m.us.2 = us.2) && decide (m.us.1 = us.1)) = decide (m.us = us) := by
  rw [← Bool.decide_and, decide_eq_decide, Prod.ext_iff, and_comm]

theorem Invariant.filter {p : OfflineMsg Packet Field → Bool} {q : Row → Bool}
    (h : Invariant codec s) (hpq : ∀ m, q (Rdbms.recordToRow codec m) = p m) :
    Invariant codec ⟨s.mnesia.filter p, s.rdbms.filter q, s.kept.filter p⟩ := by
  refine ⟨h.nodup.filter p, fun m => ?_, ?_, fun m hm => h.isFor m (mem_filter.1 hm).1⟩
  · rw [mem_filter, mem_filter, h.mem_mnesia]
  · show s.rdbms.filter q = (s.kept.filter p).map (Rdbms.recordToRow codec)
    rw [h.rdbms, filter_map]
    congr 2
    funext m
    exact hpq m

theorem Invariant.step [DecidableEq Packet] [DecidableEq Field] {e : Event Packet Field}
    (h : Invariant codec s) (hfits : Fits codec s e)
    (hstep : s.step codec e = some s') : Invariant codec s' := by
  have hdelete : ∀ us, Invariant codec
      ⟨s.mnesia.filter (·.us ≠ us), Rdbms.delete us s.rdbms, s.kept.filter (·.us ≠ us)⟩ := by
    intro us
    refine h.filter fun m => ?_
    show (!(decide (m.us.2 = us.2) && decide (m.us.1 = us.1))) = _
    rw [decide_us, decide_not]
  cases e with
  | write us msgs =>
    rw [Storage.step] at hstep
    split at hstep
    · next hmsgs =>
      cases hstep
      refine ⟨Mnesia.nodup_writeMessages h.nodup, fun m => ?_, ?_, fun m hm => ?_⟩
      · rw [Mnesia.mem_writeMessages, h.mem_mnesia, mem_append]
      · rw [Rdbms.writeMessages_eq hfits, Option.getD_some, h.rdbms, map_append]
      · rcases mem_append.1 hm with hm | hm
        · exact h.isFor m hm
        · have := hmsgs m hm
          rwa [← this.1] at this
    · cases hstep
  | pop jid =>
    cases hstep
    exact hdelete _
  | removeExpired lserver timeStamp =>
    cases hstep
    exact h.filter fun m => rfl
  | removeOld lserver timeStamp =>
    cases hstep
    exact h.filter fun m => rfl
  | removeUser us =>
    cases hstep
    exact hdelete us

theorem invariant_run [DecidableEq Packet] [DecidableEq Field] {es : List (Event Packet Field)}
    (hfits : Guarded (Storage.step codec) (Fits codec) {} es)
    (hrun : run (Storage.step codec) {} es = some s) : Invariant codec s :=
  run_invariant (fun _ _ _ h hok hstep => h.step hok hstep) ⟨nodup_nil, by simp, rfl, by simp⟩ hfits
    hrun

end Storage

/-! ## Pops -/

namespace Storage

variable {s : Storage Packet Field} {jid : Jid} {extTimeStamp timeStamp : ℤ}

theorem mem_waiting {m : OfflineMsg Packet Field} : m ∈ s.waiting jid timeStamp ↔
    m ∈ s.keptFor jid ∧ ∀ e, m.expire = some e → timeStamp ≤ e := by
  rw [waiting, skipExpiredMessages, mem_filter, Bool.not_eq_true',
    OfflineMsg.isExpired_eq_false_iff]

variable (jid timeStamp) in
/-- With Mnesia the messages that wait are returned, each once. -/
theorem Invariant.popMnesia (h : Invariant codec s) : (s.popMnesia jid timeStamp).Nodup ∧
    (∀ m, m ∈ s.popMnesia jid timeStamp ↔ m ∈ s.waiting jid timeStamp) ∧
    (s.popMnesia jid timeStamp).Pairwise fun a b => a.timestamp ≤ b.timestamp := by
  refine ⟨?_, fun m => ?_, (pairwise_keysort _ _).filter _⟩
  · exact ((keysort_perm _ _).nodup_iff.2 (h.nodup.filter _)).filter _
  · rw [mem_waiting, Storage.popMnesia, deliver, skipExpiredMessages, mem_filter,
      mem_keysort, Bool.not_eq_true', OfflineMsg.isExpired_eq_false_iff, Mnesia.popMessages,
      keptFor, mem_filter, mem_filter, h.mem_mnesia]

/-- A message as it is read back from its row. -/
def readBack (jid : Jid) (m : OfflineMsg Packet Field) : OfflineMsg Packet Field :=
  { m with expire := none, receiver := jid.toBare }

/-- The messages of a user that the query selects. -/
def selectedFor (s : Storage Packet Field) (jid : Jid) (extTimeStamp : ℤ) :
    List (OfflineMsg Packet Field) :=
  (s.keptFor jid).filter fun m => m.expire.all (extTimeStamp < ·)

theorem Invariant.filter_selected (h : Invariant codec s) :
    s.rdbms.filter (Rdbms.selected (jid.luser, jid.lserver) extTimeStamp) =
    (s.selectedFor jid extTimeStamp).map (Rdbms.recordToRow codec) := by
  rw [h.rdbms, filter_map, selectedFor, keptFor, filter_filter]
  congr 2
  funext m
  show (decide (m.us.2 = jid.lserver) && decide (m.us.1 = jid.luser) && _) = _
  rw [decide_us m (jid.luser, jid.lserver), Bool.and_comm]
  rfl

variable (jid extTimeStamp timeStamp) in
/-- **With the RDBMS the messages that the query selects are returned**, as they are read back, in
the order of their rows. -/
theorem Invariant.popRdbms (hcodec : codec.Lawful) (h : Invariant codec s)
    {orderBy : List Row → List Row} (horder : OrdersByTimestamp orderBy) :
    ∃ l, s.popRdbms codec orderBy jid extTimeStamp timeStamp = some l ∧
    l.map some = (orderBy (s.rdbms.filter
      (Rdbms.selected (jid.luser, jid.lserver) extTimeStamp))).map
        (Rdbms.rowToRecord codec (jid.luser, jid.lserver) jid.toBare) ∧
    l.map OfflineMsg.timestamp = (orderBy (s.rdbms.filter
      (Rdbms.selected (jid.luser, jid.lserver) extTimeStamp))).map Row.timestamp ∧
    l.Perm ((s.selectedFor jid extTimeStamp).map (readBack jid)) ∧
    l.Pairwise fun a b => a.timestamp ≤ b.timestamp := by
  have hperm := horder.perm (s.rdbms.filter (Rdbms.selected (jid.luser, jid.lserver) extTimeStamp))
  have hsorted := horder.sorted (s.rdbms.filter
    (Rdbms.selected (jid.luser, jid.lserver) extTimeStamp))
  have hback : ∀ m ∈ s.selectedFor jid extTimeStamp,
      Rdbms.rowToRecord codec (jid.luser, jid.lserver) jid.toBare (Rdbms.recordToRow codec m) =
        some (readBack jid m) := by
    intro m hm
    obtain ⟨hkept, hus⟩ := mem_filter.1 (mem_filter.1 hm).1
    rw [decide_eq_true_iff] at hus
    rw [← hus, Rdbms.rowToRecord_recordToRow hcodec (h.isFor m hkept).2.2, readBack]
  have hread : ∀ row ∈ orderBy (s.rdbms.filter
      (Rdbms.selected (jid.luser, jid.lserver) extTimeStamp)), ∃ m,
        Rdbms.rowToRecord codec (jid.luser, jid.lserver) jid.toBare row = some m ∧
          m.timestamp = row.timestamp ∧ m.expire = none := by
    intro row hrow
    rw [hperm.mem_iff, h.filter_selected] at hrow
    obtain ⟨m, hm, rfl⟩ := mem_map.1 hrow
    exact ⟨_, hback m hm, rfl, rfl⟩
  obtain ⟨l, hl, hmap⟩ := exists_mapM fun row hrow => (hread row hrow).imp fun _ h => h.1
  have hexpire : ∀ m ∈ l, m.expire = none := by
    intro m hm
    have hin : some m ∈ l.map some := mem_map_of_mem hm
    rw [← hmap] at hin
    obtain ⟨row, hrow, heq⟩ := mem_map.1 hin
    obtain ⟨m', hm', -, hnone⟩ := hread row hrow
    rw [heq, Option.some_inj] at hm'
    rwa [hm']
  -- the messages have the time stamps of their rows
  have htime : l.map OfflineMsg.timestamp = (orderBy (s.rdbms.filter
      (Rdbms.selected (jid.luser, jid.lserver) extTimeStamp))).map Row.timestamp := by
    have hsome := congrArg (map (Option.map OfflineMsg.timestamp)) hmap
    rw [map_map, map_map] at hsome
    rw [← map_inj_right (f := some) fun _ _ => Option.some.inj, map_map, map_map]
    refine hsome.symm.trans (map_congr_left fun row hrow => ?_)
    obtain ⟨m, hm, htime, -⟩ := hread row hrow
    simp [hm, htime]
  have hsorted : l.Pairwise fun a b => a.timestamp ≤ b.timestamp := by
    have : (l.map OfflineMsg.timestamp).Pairwise (· ≤ ·) := by
      rw [htime]
      exact pairwise_map.2 hsorted
    exact pairwise_map.1 this
  have hdeliver : deliver timeStamp l = l := by
    rw [deliver, keysort_of_pairwise hsorted, skipExpiredMessages, filter_eq_self]
    intro m hm
    simp [OfflineMsg.isExpired, hexpire m hm]
  refine ⟨l, ?_, hmap.symm, htime, ?_, hsorted⟩
  · rw [Storage.popRdbms, Rdbms.popMessages]
    show ((orderBy (s.rdbms.filter (Rdbms.selected (jid.luser, jid.lserver) extTimeStamp))).mapM
      (Rdbms.rowToRecord codec (jid.luser, jid.lserver) jid.toBare)).map (deliver timeStamp) = _
    rw [hl, Option.map_some, hdeliver]
  · rw [← map_perm_map_iff (Option.some_injective _), ← hmap, map_map]
    refine (hperm.map _).trans ?_
    rw [h.filter_selected, map_map]
    exact List.Perm.of_eq (map_congr_left hback)

end Storage

/-! ### The condition is enough -/

section Deliverable

variable {s : Storage Packet Field} {jid : Jid} {extTimeStamp timeStamp : ℤ}

/-- Where no message expires between the two clocks, the query selects those that wait. -/
theorem Deliverable.selectedFor_eq (hd : Deliverable s jid extTimeStamp timeStamp) :
    s.selectedFor jid extTimeStamp = s.waiting jid timeStamp := by
  refine filter_congr fun m hm => ?_
  have hborder := hd.border m hm
  unfold OfflineMsg.isExpired
  cases hexpire : m.expire with
  | none => rfl
  | some e =>
    have := hborder e hexpire
    rw [Bool.eq_iff_iff]
    simpa using this

/-- Then they are read back with all their fields but `expire`. -/
theorem Deliverable.map_readBack (h : s.Invariant codec)
    (hd : Deliverable s jid extTimeStamp timeStamp) :
    (s.waiting jid timeStamp).map (Storage.readBack jid) =
    (s.waiting jid timeStamp).map OfflineMsg.withoutExpire := by
  refine map_congr_left fun m hm => ?_
  have hbare := hd.bare m hm
  obtain ⟨hkept, hus⟩ := mem_filter.1 (Storage.mem_waiting.1 hm).1
  rw [decide_eq_true_iff] at hus
  obtain ⟨-, hreceiver, -⟩ := h.isFor m hkept
  rw [hus, Prod.mk.injEq] at hreceiver
  have : jid.toBare = m.receiver := by
    obtain ⟨_, _, _⟩ := jid
    cases hm : m.receiver
    simp_all [Jid.toBare]
  rw [Storage.readBack, this, OfflineMsg.withoutExpire]

/-- **Both backends deliver** under the condition, and they return the same but for `expire`. -/
theorem Deliverable.delivers (hcodec : codec.Lawful) (h : s.Invariant codec)
    (hd : Deliverable s jid extTimeStamp timeStamp) {orderBy : List Row → List Row}
    (horder : OrdersByTimestamp orderBy) :
    ∃ l, s.popRdbms codec orderBy jid extTimeStamp timeStamp = some l ∧
    Delivers (s.waiting jid timeStamp) (s.popMnesia jid timeStamp) ∧
    Delivers (s.waiting jid timeStamp) l ∧
    l = (s.popMnesia jid timeStamp).map OfflineMsg.withoutExpire := by
  obtain ⟨l, hl, -, -, hperm, hsorted⟩ := h.popRdbms jid extTimeStamp timeStamp hcodec horder
  obtain ⟨hnodup, hmem, hsorted'⟩ := h.popMnesia jid timeStamp
  rw [hd.selectedFor_eq, hd.map_readBack h] at hperm
  have hperm' : (s.popMnesia jid timeStamp).Perm (s.waiting jid timeStamp) :=
    (perm_ext_iff_of_nodup hnodup (List.Nodup.of_map _ hd.distinct)).2 hmem
  have hplain : l.map OfflineMsg.withoutExpire = l := by
    refine (map_congr_left fun m hm => ?_).trans (map_id l)
    obtain ⟨m', -, rfl⟩ := mem_map.1 (hperm.mem_iff.1 hm)
    rfl
  refine ⟨l, hl, ⟨hperm'.map _, hsorted'⟩, ⟨hplain.symm ▸ hperm, hsorted⟩, ?_⟩
  -- both are sorted by distinct time stamps
  have hdistinct : ((s.popMnesia jid timeStamp).map OfflineMsg.timestamp).Nodup :=
    (hperm'.map _).nodup_iff.2 hd.distinct
  have hdistinct' : (l.map OfflineMsg.timestamp).Nodup := by
    refine (hperm.map OfflineMsg.timestamp).nodup_iff.2 ?_
    rw [map_map]
    exact hd.distinct
  refine eq_of_perm_of_keys (hperm.trans (hperm'.map _).symm)
    (pairwise_lt_of_nodup hsorted hdistinct') ?_
  exact pairwise_map.2 (pairwise_lt_of_nodup hsorted' hdistinct)

/-! ### The condition is needed -/

/-- **The messages that both backends return alike.** -/
structure Alike (codec : Codec Packet Field) (s : Storage Packet Field) (jid : Jid)
    (extTimeStamp timeStamp : ℤ) (orderBy : List Row → List Row) : Prop where
  mnesia : Delivers (s.waiting jid timeStamp) (s.popMnesia jid timeStamp)
  rdbms : s.popRdbms codec orderBy jid extTimeStamp timeStamp =
    some (s.popMnesia jid timeStamp)

/-- Where Mnesia delivers, every message that waits is returned once. -/
theorem perm_of_delivers (h : s.Invariant codec)
    (hdelivers : Delivers (s.waiting jid timeStamp) (s.popMnesia jid timeStamp)) :
    (s.popMnesia jid timeStamp).Perm (s.waiting jid timeStamp) := by
  obtain ⟨hnodup, hmem, -⟩ := h.popMnesia jid timeStamp
  have hsub : (s.popMnesia jid timeStamp).Subperm (s.waiting jid timeStamp) :=
    hnodup.subperm fun m hm => (hmem m).1 hm
  refine hsub.perm_of_length_le (Nat.le_of_eq ?_)
  simpa using hdelivers.perm.length_eq.symm

section

variable {orderBy : List Row → List Row} {m : OfflineMsg Packet Field} (hcodec : codec.Lawful)
    (h : s.Invariant codec) (horder : OrdersByTimestamp orderBy)
    (halike : Alike codec s jid extTimeStamp timeStamp orderBy)

include hcodec h horder halike

/-- The messages that the RDBMS returns never expire and have no resource. -/
theorem Alike.of_mem
    (hm : m ∈ s.waiting jid timeStamp) : m.expire = none ∧ m.receiver.lresource = "" := by
  obtain ⟨l, hl, -, -, hperm, -⟩ := h.popRdbms jid extTimeStamp timeStamp hcodec horder
  cases (hl.symm.trans halike.rdbms)
  have hin := hperm.mem_iff.1 ((perm_of_delivers h halike.mnesia).mem_iff.2 hm)
  obtain ⟨m', -, rfl⟩ := mem_map.1 hin
  exact ⟨rfl, rfl⟩

theorem Alike.border (hm : m ∈ s.keptFor jid) {e : ℤ} (hexpire : m.expire = some e) :
    extTimeStamp < e ↔ timeStamp ≤ e := by
  have hnever : ∀ m' ∈ s.keptFor jid, m'.isExpired timeStamp = false → m'.expire = none := by
    intro m' hm' hlive
    exact (halike.of_mem hcodec h horder
      (Storage.mem_waiting.2 ⟨hm', OfflineMsg.isExpired_eq_false_iff.1 hlive⟩)).1
  have hlate : ¬ timeStamp ≤ e := by
    intro hle
    have := hnever m hm (OfflineMsg.isExpired_eq_false_iff.2 fun e' he' => by
      rw [hexpire, Option.some_inj] at he'
      rwa [← he'])
    rw [hexpire] at this
    cases this
  refine iff_of_false (fun hselected => ?_) hlate
  obtain ⟨l, hl, -, -, hperm, -⟩ := h.popRdbms jid extTimeStamp timeStamp hcodec horder
  cases (hl.symm.trans halike.rdbms)
  -- as many messages are selected as wait, and those that wait are selected
  have hlength : (s.waiting jid timeStamp).length = (s.selectedFor jid extTimeStamp).length := by
    rw [← (perm_of_delivers h halike.mnesia).length_eq, hperm.length_eq, length_map]
  have hfilter : (s.selectedFor jid extTimeStamp).filter (fun m => !m.isExpired timeStamp) =
      s.waiting jid timeStamp := by
    rw [Storage.selectedFor, filter_filter, Storage.waiting, skipExpiredMessages]
    refine filter_congr fun m' hm' => ?_
    by_cases hlive : m'.isExpired timeStamp = false
    · simp [hlive, hnever m' hm' hlive]
    · simp [hlive]
  rw [← hfilter, length_filter_eq_length_iff] at hlength
  have hm : m ∈ s.selectedFor jid extTimeStamp := by
    rw [Storage.selectedFor, mem_filter]
    simpa [hexpire] using ⟨hm, hselected⟩
  have hlive := hlength m hm
  rw [Bool.not_eq_true', OfflineMsg.isExpired_eq_false_iff] at hlive
  exact hlate (hlive e hexpire)

end

/-- **Messages with the same time stamp** are returned in one of two orders. -/
theorem distinct_of_alike (hcodec : codec.Lawful) (h : s.Invariant codec)
    (hall : ∀ orderBy, OrdersByTimestamp orderBy →
    Alike codec s jid extTimeStamp timeStamp orderBy) :
    ((s.waiting jid timeStamp).map OfflineMsg.timestamp).Nodup := by
  have hkeysort : OrdersByTimestamp (keysort Row.timestamp) := ⟨keysort_perm _, pairwise_keysort _⟩
  obtain ⟨l, hl, hread, htime, -, -⟩ := h.popRdbms jid extTimeStamp timeStamp hcodec hkeysort
  cases (hl.symm.trans (hall _ hkeysort).rdbms)
  obtain ⟨hnodup, -, -⟩ := h.popMnesia jid timeStamp
  rw [← ((perm_of_delivers h (hall _ hkeysort).mnesia).map _).nodup_iff, htime]
  by_contra htie
  generalize hrows : s.rdbms.filter (Rdbms.selected (jid.luser, jid.lserver) extTimeStamp) = rows
    at hread htie
  obtain ⟨before, a, b, behind, hsorted, htime⟩ := exists_tie (pairwise_keysort _ rows) htie
  -- the database may also leave the two rows the other way round
  have hswap : OrdersByTimestamp fun rows' =>
      if rows' = rows then before ++ b :: a :: behind else keysort Row.timestamp rows' := by
    constructor
    · intro rows'
      split
      · next heq =>
        rw [heq]
        have hperm := keysort_perm Row.timestamp rows
        rw [hsorted] at hperm
        exact ((List.Perm.swap a b behind).append_left before).trans hperm
      · exact keysort_perm _ rows'
    · intro rows'
      split
      · have := pairwise_keysort Row.timestamp rows
        rw [hsorted] at this
        exact pairwise_swap htime this
      · exact pairwise_keysort _ rows'
  obtain ⟨l, hl, hread', -, -, -⟩ := h.popRdbms jid extTimeStamp timeStamp hcodec hswap
  cases (hl.symm.trans (hall _ hswap).rdbms)
  rw [hrows, if_pos rfl] at hread'
  rw [hsorted] at hread
  have hsame := hread.symm.trans hread'
  simp only [map_append, map_cons, append_cancel_left_eq, cons.injEq] at hsame
  have hnodup := hnodup.map (Option.some_injective (OfflineMsg Packet Field))
  rw [hread, map_append, map_cons, map_cons, nodup_append] at hnodup
  have hne := (nodup_cons.1 hnodup.2.1).1
  exact hne (by rw [hsame.1]; exact mem_cons_self)

end Deliverable

variable [DecidableEq Packet] [DecidableEq Field]

instance (waiting l : List (OfflineMsg Packet Field)) : Decidable (Delivers waiting l) :=
  decidable_of_iff ((l.map OfflineMsg.withoutExpire).Perm (waiting.map OfflineMsg.withoutExpire) ∧
      l.Pairwise fun a b => a.timestamp ≤ b.timestamp)
    ⟨fun h => ⟨h.1, h.2⟩, fun h => ⟨h.1, h.2⟩⟩

instance (codec : Codec Packet Field) (s : Storage Packet Field) (jid : Jid)
    (extTimeStamp timeStamp : ℤ) (orderBy : List Row → List Row) :
    Decidable (Alike codec s jid extTimeStamp timeStamp orderBy) :=
  decidable_of_iff (Delivers (s.waiting jid timeStamp) (s.popMnesia jid timeStamp) ∧
      s.popRdbms codec orderBy jid extTimeStamp timeStamp = some (s.popMnesia jid timeStamp))
    ⟨fun h => ⟨h.1, h.2⟩, fun h => ⟨h.1, h.2⟩⟩

/-! ### Runs -/

/-- A user that sends messages. -/
def alice : Jid := ⟨"alice", "localhost", ""⟩

/-- Another one, with a long address. -/
def carol : Jid := ⟨"carol", "localhost", "".pushn 'r' 240⟩

/-- The user that they are for. -/
def bob : Jid := ⟨"bob", "localhost", ""⟩

/-- Texts for packets, and bits for fields. -/
def exampleCodec : Codec String Bool where
  lib := {
    nodeprep := some
    nameprep := some
    resourceprep := some
    fromBinary text := [alice, carol].find? fun jid => jid.toBinary = text
    rfc3339 _ := "" }
  toBinary := id
  parse := some
  termToBinary fields := String.ofList (fields.map fun b => if b then '1' else '0')
  binaryToTerm text := some (text.toList.map fun c => c = '1')

theorem lawful_exampleCodec : exampleCodec.Lawful where
  parse _ := rfl
  binaryToTerm fields := by
    simp only [exampleCodec, String.toList_ofList, map_map, Option.some_inj]
    refine (map_congr_left fun b _ => ?_).trans (map_id fields)
    cases b <;> rfl

/-- A message that is written at a time. -/
def message (timestamp : ℤ) (expire : Option ℤ) (lresource packet : String) :
    OfflineMsg String Bool where
  us := ("bob", "localhost")
  timestamp
  expire
  sender := alice
  receiver := { bob with lresource }
  packet
  permanentFields := [true]

/-- Of three messages one is popped, one has expired and one is removed; two more come and are
popped. -/
def exampleEvents : List (Event String Bool) :=
  [.write ("bob", "localhost") [message 1 none "" "hello"], .pop bob,
    .write ("bob", "localhost") [message 3 (some 4) "" "soon", message 2 none "" "old"],
    .removeOld "localhost" 3,
    .write ("bob", "localhost") [message 6 none "" "two", message 5 none "" "one"]]

end MongooseIM.Offline
