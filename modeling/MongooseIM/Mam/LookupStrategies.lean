import MongooseIM.Mam.Lookup

/-! # The strategies of a lookup

Where a request has no id, the page tells how many messages there are when it is not full, and else
the messages beyond it are counted. The regular lookup counts them all first. -/

namespace MongooseIM.Mam

open Keyset List

variable {C : Type*} (archive : Archive C) (filter : Filter C) {rsm : Option RsmIn} {pageSize : ℕ}

/-- The first page of what is left, and its surroundings. -/
theorem split_matching (n pageSize : ℕ) :
    (matching archive filter).take n ++ ((matching archive filter).drop n).take pageSize ++
    ((matching archive filter).drop n).drop pageSize = matching archive filter := by
  rw [append_assoc, take_append_drop, take_append_drop]

theorem calcCount_afterId (id : ℤ) : calcCount archive (afterId (some id) filter) =
    ((matching archive filter).filter fun row => id < row.id).length := by
  rw [calcCount_eq, afterId, matching_id]
  rfl

theorem calcCount_beforeId (id : ℤ) : calcCount archive (beforeId (some id) filter) =
    ((matching archive filter).filter fun row => row.id < id).length := by
  rw [calcCount_eq, beforeId, matching_id]
  rfl

theorem calcCount_toId (id : ℤ) : calcCount archive (toId (some id) filter) =
    ((matching archive filter).filter fun row => row.id ≤ id).length := by
  rw [calcCount_eq, toId, matching_id]
  rfl

/-- **The last page.** -/
theorem lookupLastPage_eq (hpage : 0 < pageSize) : lookupLastPage archive pageSize filter =
    .ok ⟨some (matching archive filter).length,
      some (((matching archive filter).length - pageSize : ℕ) : ℤ),
      (matching archive filter).rtake pageSize⟩ := by
  have hincreasing := increasing_matching archive filter
  simp only [lookupLastPage, extractMessages_desc, Except.bind, calcCount_beforeId]
  generalize matching archive filter = l at hincreasing ⊢
  have hlength : (l.rtake pageSize).length = min pageSize l.length := by
    rw [rtake, length_drop]
    omega
  split_ifs with hshort
  · -- all messages are on the page
    have htotal : (l.rtake pageSize).length = l.length := by omega
    have hoffset : l.length - pageSize = 0 := by omega
    rw [htotal, hoffset]
    rfl
  · rcases hfirst : (l.rtake pageSize).head? with _ | first
    · rw [head?_eq_none_iff] at hfirst
      rw [hfirst] at hshort
      exact absurd hpage hshort
    · have hcut : l.take (l.length - pageSize) ++ l.rtake pageSize ++ [] = l := by
        rw [append_nil]
        exact take_append_drop (l.length - pageSize) l
      have hbefore : l.filter (fun row => row.id < first.id) = l.take (l.length - pageSize) := by
        rw [← hcut] at hincreasing
        have hfilter := filter_lt_head hincreasing hfirst
        rw [hcut] at hfilter
        exact hfilter
      have hoffset : (l.filter fun row => row.id < first.id).length = l.length - pageSize := by
        rw [hbefore, length_take]
        omega
      have htotal : ((l.length - pageSize : ℕ) : ℤ) + (l.rtake pageSize).length = l.length := by
        omega
      simp only [hoffset, htotal]

/-- **A page by its offset.** The total count is the offset when that is beyond the end. -/
theorem lookupByOffset_eq (hid : rsm.bind RsmIn.id = none) {n : ℕ} (hindex : rsmToIndex rsm = n)
    (hpage : 0 < pageSize) :
    lookupByOffset archive rsm pageSize filter =
    .ok ⟨some (max n (matching archive filter).length : ℕ), some n,
      ((matching archive filter).drop n).take pageSize⟩ := by
  have hcut := split_matching archive filter n pageSize
  have hincreasing := increasing_matching archive filter
  simp only [lookupByOffset, hid, hindex, extractMessages_asc, Option.isSome_none,
    Bool.false_eq_true, if_false, Except.bind, calcCount_afterId]
  generalize matching archive filter = l at hcut hincreasing ⊢
  have hlength : ((l.drop n).take pageSize).length = min pageSize (l.length - n) := by
    rw [length_take, length_drop]
  split_ifs with hshort
  · -- the page ends where the messages do
    have htotal : (n : ℤ) + ((l.drop n).take pageSize).length = (max n l.length : ℕ) := by
      omega
    rw [htotal]
  · rcases hlast : ((l.drop n).take pageSize).getLast? with _ | last
    · rw [getLast?_eq_none_iff] at hlast
      rw [hlast] at hshort
      exact absurd hpage hshort
    · have hbeyond : l.filter (fun row => last.id < row.id) = (l.drop n).drop pageSize := by
        rw [← hcut] at hincreasing
        have hfilter := filter_gt_getLast hincreasing hlast
        rw [hcut] at hfilter
        exact hfilter
      have hcount : ((l.drop n).drop pageSize).length = l.length - n - pageSize := by
        rw [length_drop, length_drop]
      have htotal : (n : ℤ) + ((l.drop n).take pageSize).length +
          (l.filter fun row => last.id < row.id).length = (max n l.length : ℕ) := by
        rw [hbeyond]
        omega
      simp only [htotal]

/-- A request without an id: none at all, the last page, or a page by its index. -/
inductive WithoutId : Option RsmIn → Prop
  | absent : WithoutId none
  | lastPage (index : Index) : WithoutId (some ⟨some .before, none, index⟩)
  | byIndex (index : Index) : WithoutId (some ⟨none, none, index⟩)

/-- **The optimised lookup returns what the regular one does**, and the simple one the messages of
it; no query has an offset that is not a natural number. -/
def LookupsAgree (rsm : Option RsmIn) (pageSize : ℕ) : Prop :=
  ∃ result simple, lookup archive filter rsm pageSize false = .ok result ∧
    lookupMessagesRegular archive rsm pageSize filter = .ok result ∧
    simpleLookupMessages archive rsm pageSize filter = .ok simple ∧
    simple.messages = result.messages

/-- An index that is asked for is a place in the result, or its end. -/
def IndexWithin (rsm : Option RsmIn) : Prop :=
  ∀ index, rsm = some ⟨none, none, index⟩ →
    ∃ i : ℕ, index = .int i ∧ i ≤ (matching archive filter).length

/-- The regular lookup of the messages from an offset on. -/
theorem lookupMessagesRegular_eq (hvars : ∀ offset, rsmToRegularLookupVars rsm filter offset
    pageSize = (false, filter, .int offset, pageSize, .asc)) {n : ℕ}
    (hoffset : calcOffset archive filter pageSize (calcCount archive filter) rsm = n) :
    lookupMessagesRegular archive rsm pageSize filter =
    .ok ⟨some (matching archive filter).length, some n,
      ((matching archive filter).drop n).take pageSize⟩ := by
  simp only [lookupMessagesRegular, hvars, hoffset, extractMessages_asc, Except.bind,
    Bool.false_eq_true, if_false]
  rw [calcCount_eq]

/-- From an offset on, the lookups agree unless it is beyond the end. -/
theorem lookupsAgree_offset_iff (hcount : optCountType rsm = .byOffset)
    (hid : rsm.bind RsmIn.id = none)
    (hvars : ∀ offset, rsmToRegularLookupVars rsm filter offset pageSize =
    (false, filter, .int offset, pageSize, .asc)) {n : ℕ} (hindex : rsmToIndex rsm = n)
    (hoffset : calcOffset archive filter pageSize (calcCount archive filter) rsm = n)
    (hsimple : rsmToFilter rsm filter = (filter, .int n, .asc)) (hpage : 0 < pageSize) :
    LookupsAgree archive filter rsm pageSize ↔ n ≤ (matching archive filter).length := by
  obtain ⟨size, rfl⟩ : ∃ size, pageSize = size + 1 := ⟨pageSize - 1, by omega⟩
  have hoptimised : lookup archive filter rsm (size + 1) false =
      lookupByOffset archive rsm (size + 1) filter := by
    simp only [lookup, hcount, Bool.false_eq_true, if_false]
  rw [LookupsAgree, hoptimised, lookupByOffset_eq archive filter hid hindex hpage,
    lookupMessagesRegular_eq archive filter hvars hoffset]
  simp only [simpleLookupMessages, hsimple, extractMessages_asc, Except.map]
  constructor
  · rintro ⟨result, _, hresult, hregular, _⟩
    rw [← hregular] at hresult
    have htotal := congrArg LookupResult.totalCount (Except.ok.inj hresult)
    simp only [Option.some.injEq] at htotal
    omega
  · intro hle
    have htotal : max n (matching archive filter).length = (matching archive filter).length :=
      max_eq_right hle
    rw [htotal]
    exact ⟨_, _, rfl, rfl, rfl, rfl⟩

theorem lookupsAgree_lastPage (index : Index) (hpage : 0 < pageSize) :
    LookupsAgree archive filter (some ⟨some .before, none, index⟩) pageSize := by
  obtain ⟨size, rfl⟩ : ∃ size, pageSize = size + 1 := ⟨pageSize - 1, by omega⟩
  -- the regular lookup starts where the last page does
  have hoffset : calcOffset archive filter (size + 1) (calcCount archive filter)
      (some ⟨some .before, none, index⟩) = ((matching archive filter).length - (size + 1) : ℕ) := by
    show max 0 ((calcCount archive filter : ℤ) - (size + 1 : ℕ)) = _
    rw [calcCount_eq]
    omega
  have hpages : ((matching archive filter).drop
      ((matching archive filter).length - (size + 1))).take (size + 1) =
        (matching archive filter).rtake (size + 1) := by
    rw [rtake, take_of_length_le]
    rw [length_drop]
    omega
  have hregular := lookupMessagesRegular_eq archive filter (fun _ => rfl) hoffset
  rw [hpages] at hregular
  refine ⟨_, ⟨none, none, (matching archive filter).rtake (size + 1)⟩,
    lookupLastPage_eq archive filter hpage, hregular, ?_, rfl⟩
  simp only [simpleLookupMessages, rsmToFilter, extractMessages_desc, Except.map]

/-- **The strategies agree on a request without an id exactly when its index is within the
result.** -/
theorem lookups_agree_iff (hrsm : WithoutId rsm) (hpage : 0 < pageSize) :
    LookupsAgree archive filter rsm pageSize ↔ IndexWithin archive filter rsm := by
  rcases hrsm with _ | index | index
  · have hagree : LookupsAgree archive filter none pageSize ↔
        0 ≤ (matching archive filter).length :=
      lookupsAgree_offset_iff archive filter rfl rfl (fun _ => rfl) rfl rfl rfl hpage
    refine iff_of_true (hagree.2 (Nat.zero_le _)) ?_
    intro index heq
    cases heq
  · refine iff_of_true (lookupsAgree_lastPage archive filter index hpage) ?_
    intro index' heq
    cases heq
  · have hvars (offset : ℤ) : rsmToRegularLookupVars (some ⟨none, none, index⟩) filter offset
        pageSize = (false, filter, .int offset, pageSize, .asc) := rfl
    have hwithin : IndexWithin archive filter (some ⟨none, none, index⟩) ↔
        ∃ i : ℕ, index = .int i ∧ i ≤ (matching archive filter).length := by
      constructor
      · intro h
        exact h index rfl
      · rintro h index' heq
        cases heq
        exact h
    rw [hwithin]
    by_cases hnat : ∃ n : ℕ, index = .int n
    · obtain ⟨n, rfl⟩ := hnat
      rw [lookupsAgree_offset_iff archive filter rfl rfl hvars rfl rfl rfl hpage]
      constructor
      · intro hle
        exact ⟨n, rfl, hle⟩
      · rintro ⟨i, heq, hle⟩
        have hi : (n : ℤ) = i := Index.int.inj heq
        omega
    · -- the simple lookup hands the index over as it is
      refine iff_of_false ?_ ?_
      · rintro ⟨result, simple, _, _, hsimple, _⟩
        simp only [simpleLookupMessages, rsmToFilter] at hsimple
        rw [extractMessages_badOffset archive filter hpage
          (fun n heq => hnat ⟨n, heq⟩) .asc] at hsimple
        cases hsimple
      · rintro ⟨i, heq, _⟩
        exact hnat ⟨i, heq⟩

/-- Three messages, and no condition on them. -/
def threeMessages : Archive Unit := ⟨[⟨2, ()⟩, ⟨1, ()⟩, ⟨3, ()⟩], by decide⟩

/-- At the end of the result the page is empty, and the messages are counted. -/
theorem lookups_agree_iff_atEnd : LookupsAgree threeMessages [] (some ⟨none, none, .int 3⟩) 2 := by
  refine (lookups_agree_iff threeMessages [] (.byIndex _) (by decide)).2 ?_
  intro index heq
  cases heq
  exact ⟨3, rfl, by decide⟩

/-- Beyond the end the optimised lookup counts as many messages as the index says; without an index
the simple lookup asks for messages from `undefined` on. -/
theorem lookups_disagree :
    WithoutId (some ⟨none, none, .int 5⟩) ∧ WithoutId (some ⟨none, none, .undefined⟩) ∧
    lookup threeMessages [] (some ⟨none, none, .int 5⟩) 2 false = .ok ⟨some 5, some 5, []⟩ ∧
    lookupMessagesRegular threeMessages (some ⟨none, none, .int 5⟩) 2 [] =
      .ok ⟨some 3, some 5, []⟩ ∧
    simpleLookupMessages threeMessages (some ⟨none, none, .undefined⟩) 2 [] = .error .badOffset ∧
    ¬ LookupsAgree threeMessages [] (some ⟨none, none, .int 5⟩) 2 ∧
    ¬ LookupsAgree threeMessages [] (some ⟨none, none, .undefined⟩) 2 := by
  refine ⟨.byIndex _, .byIndex _, rfl, rfl, rfl, ?_, ?_⟩
  · rintro ⟨result, simple, hoptimised, hregular, _⟩
    cases hoptimised
    have htotal := congrArg LookupResult.totalCount (Except.ok.inj hregular)
    revert htotal
    decide
  · rintro ⟨result, simple, _, _, hsimple, _⟩
    cases hsimple

end MongooseIM.Mam
