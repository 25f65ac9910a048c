import Mathlib.Data.Finset.Sort
import Mathlib.Data.Int.Interval
import MongooseIM.Domain.Loader

/-! # The gaps in the ids of the events

`find_gaps_between/2` looks for the ids without an event. A small range is read and compared with
all its ids; of a large one the events are counted, and unless all are there each half is searched. -/

namespace MongooseIM.Domain.Loader

open Erlang List

/-- `get_event_ids_between/2` -/
def getEventIdsBetween (events : Finset ℤ) (minEventId maxEventId : ℤ) : List ℤ :=
  (events.filter fun id => minEventId ≤ id ∧ id ≤ maxEventId).sort

/-- `count_events_between_ids/2` -/
def countEventsBetweenIds (events : Finset ℤ) (minEventId maxEventId : ℤ) : Nat :=
  (events.filter fun id => minEventId ≤ id ∧ id ≤ maxEventId).card

variable {events : Finset ℤ} {minEventId maxEventId id : ℤ}

theorem mem_getEventIdsBetween : id ∈ getEventIdsBetween events minEventId maxEventId ↔
    id ∈ events ∧ minEventId ≤ id ∧ id ≤ maxEventId := by
  rw [getEventIdsBetween, Finset.mem_sort, Finset.mem_filter]

theorem pairwise_getEventIdsBetween (events : Finset ℤ) (minEventId maxEventId : ℤ) :
    (getEventIdsBetween events minEventId maxEventId).Pairwise (· < ·) :=
  (Finset.sortedLT_sort _).pairwise

/-- All events are there when there are as many as ids. -/
theorem mem_of_countEventsBetweenIds
    (hcount : (countEventsBetweenIds events minEventId maxEventId : ℤ) =
    maxEventId - minEventId + 1) (hmin : minEventId ≤ id) (hmax : id ≤ maxEventId) :
    id ∈ events := by
  have hsub : (events.filter fun id => minEventId ≤ id ∧ id ≤ maxEventId) ⊆
      Finset.Icc minEventId maxEventId := fun other hother =>
    Finset.mem_Icc.2 (Finset.mem_filter.1 hother).2
  have hcard : (Finset.Icc minEventId maxEventId).card ≤
      (events.filter fun id => minEventId ≤ id ∧ id ≤ maxEventId).card := by
    rw [Int.card_Icc]
    unfold countEventsBetweenIds at hcount
    omega
  have hall := Finset.eq_of_subset_of_card_le hsub hcard
  have hid : id ∈ Finset.Icc minEventId maxEventId := Finset.mem_Icc.2 ⟨hmin, hmax⟩
  rw [← hall] at hid
  exact (Finset.mem_filter.1 hid).1

/-- `lists:seq/2` of integers -/
def seqBetween (minEventId maxEventId : ℤ) : List ℤ :=
  (List.range (maxEventId + 1 - minEventId).toNat).map fun (i : ℕ) => minEventId + i

/-- `ids_to_gaps/3` of integers -/
def idsToGapsBetween (minEventId maxEventId : ℤ) (ids : List ℤ) : List ℤ :=
  subtract (seqBetween minEventId maxEventId) ids

/-- `Mid` in `find_gaps_between/2`. -/
def midOf (minEventId maxEventId : ℤ) : ℤ := minEventId + (maxEventId - minEventId).tdiv 2

theorem midOf_bounds (h : ¬ maxEventId - minEventId < 100) :
    minEventId ≤ midOf minEventId maxEventId ∧ midOf minEventId maxEventId < maxEventId := by
  rw [midOf, Int.tdiv_eq_ediv_of_nonneg (by omega)]
  omega

/-- `find_gaps_between/2` for two ids -/
def gapsBetween (events : Finset ℤ) (minEventId maxEventId : ℤ) : List ℤ :=
  if h : maxEventId - minEventId < 100 then
    idsToGapsBetween minEventId maxEventId (getEventIdsBetween events minEventId maxEventId)
  else if (countEventsBetweenIds events minEventId maxEventId : ℤ) =
      maxEventId - minEventId + 1 then []
  else
    have := midOf_bounds h
    gapsBetween events minEventId (midOf minEventId maxEventId) ++
      gapsBetween events (midOf minEventId maxEventId + 1) maxEventId
  termination_by (maxEventId - minEventId).toNat
  decreasing_by all_goals omega

/-- `find_gaps_between/2`; none for `null`. -/
def findGapsBetween (events : Finset ℤ) : Option (ℤ × ℤ) → List ℤ
  | none => []
  | some (minEventId, maxEventId) => gapsBetween events minEventId maxEventId

theorem mem_seqBetween :
    id ∈ seqBetween minEventId maxEventId ↔ minEventId ≤ id ∧ id ≤ maxEventId := by
  rw [seqBetween, mem_map]
  constructor
  · rintro ⟨i, hi, rfl⟩
    have := mem_range.1 hi
    omega
  · rintro ⟨hmin, hmax⟩
    exact ⟨(id - minEventId).toNat, mem_range.2 (by omega), by omega⟩

theorem pairwise_seqBetween (minEventId maxEventId : ℤ) :
    (seqBetween minEventId maxEventId).Pairwise (· < ·) := by
  rw [seqBetween, pairwise_map]
  exact pairwise_lt_range.imp fun hlt => by omega

theorem seqBetween_append {midEventId : ℤ} (hmin : minEventId ≤ midEventId)
    (hmax : midEventId ≤ maxEventId) :
    seqBetween minEventId midEventId ++ seqBetween (midEventId + 1) maxEventId =
    seqBetween minEventId maxEventId := by
  unfold seqBetween
  have hlen : (maxEventId + 1 - minEventId).toNat =
      (midEventId + 1 - minEventId).toNat + (maxEventId + 1 - (midEventId + 1)).toNat := by omega
  rw [hlen, range_add, map_append, map_map]
  refine congrArg _ (map_congr_left fun i _ => ?_)
  simp only [Function.comp_apply]
  omega

theorem idsToGapsBetween_eq (events : Finset ℤ) (minEventId maxEventId : ℤ) :
    idsToGapsBetween minEventId maxEventId (getEventIdsBetween events minEventId maxEventId) =
    (seqBetween minEventId maxEventId).filter fun id => id ∉ events := by
  rw [idsToGapsBetween, subtract_eq_filter (pairwise_seqBetween _ _)
    (pairwise_getEventIdsBetween _ _ _)]
  refine filter_congr fun id hid => ?_
  have hrange := mem_seqBetween.1 hid
  simp [mem_getEventIdsBetween, hrange.1, hrange.2]

/-- The search finds what reading the whole range would find. -/
theorem gapsBetween_eq (events : Finset ℤ)
    (h : minEventId ≤ maxEventId) : gapsBetween events minEventId maxEventId =
    (seqBetween minEventId maxEventId).filter fun id => id ∉ events := by
  -- a range is small, or has as many events as ids, or is cut in two
  induction minEventId, maxEventId using gapsBetween.induct events with
  | case1 minEventId maxEventId hsmall =>
    rw [gapsBetween, dif_pos hsmall, idsToGapsBetween_eq]
  | case2 minEventId maxEventId hlarge hcount =>
    rw [gapsBetween, dif_neg hlarge, if_pos hcount]
    refine (filter_eq_nil_iff.2 fun id hid => ?_).symm
    have hrange := mem_seqBetween.1 hid
    simpa using mem_of_countEventsBetweenIds hcount hrange.1 hrange.2
  | case3 minEventId maxEventId hlarge hcount hmid ihbelow ihabove =>
    rw [gapsBetween, dif_neg hlarge, if_neg hcount, ihbelow hmid.1, ihabove (by omega),
      ← filter_append, seqBetween_append hmid.1 hmid.2.le]

/-- What is found is exactly what is absent, each once and in ascending order. -/
theorem findGapsBetween_exact (events : Finset ℤ) (minEventId maxEventId : ℤ)
    (h : minEventId ≤ maxEventId) :
    (∀ id, id ∈ findGapsBetween events (some (minEventId, maxEventId)) ↔
    minEventId ≤ id ∧ id ≤ maxEventId ∧ id ∉ events) ∧
    (findGapsBetween events (some (minEventId, maxEventId))).Pairwise (· < ·) := by
  rw [findGapsBetween, gapsBetween_eq events h]
  constructor
  · intro id
    rw [mem_filter, mem_seqBetween, decide_eq_true_iff, and_assoc]
  · exact (pairwise_seqBetween _ _).filter _

/-- Ids below zero are ids as well. -/
theorem findGapsBetween_exact_example :
    (∀ id, id ∈ findGapsBetween {-150, 0, 7} (some (-150, 149)) ↔
    -150 ≤ id ∧ id ≤ 149 ∧ id ∉ ({-150, 0, 7} : Finset ℤ)) ∧
    (findGapsBetween {-150, 0, 7} (some (-150, 149))).Pairwise (· < ·) :=
  findGapsBetween_exact {-150, 0, 7} (-150) 149 (by decide)

end MongooseIM.Domain.Loader
