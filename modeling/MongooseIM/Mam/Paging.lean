import MongooseIM.Mam.LookupStrategies

/-! # Paging through an archive

`mod_mam_utils:lookup/3` adds to a page whether it is the last one in its direction: by the offset,
or for a simple lookup by one more message that is not shown. A client asks for the messages beyond
its page until one is complete. -/

namespace MongooseIM.Mam

open Keyset List

variable {C : Type*}

/-- `backward | forward` -/
inductive OrderingDirection
  | backward
  | forward

/-- `mam_iq:ordering_direction/1` -/
def orderingDirection : Option RsmIn → OrderingDirection
  | some ⟨some .before, _, _⟩ => .backward
  | _ => .forward

/-- What a lookup reads of its parameters. -/
structure Params where
  rsm : Option RsmIn
  pageSize : ℕ
  isSimple : Bool
  orderingDirection : OrderingDirection

/-- The parameters that `mam_iq` makes of a request. -/
def lookupParams (rsm : Option RsmIn) (pageSize : ℕ) (isSimple : Bool) : Params :=
  ⟨rsm, pageSize, isSimple, orderingDirection rsm⟩

/-- `lookup_result_map()` -/
structure ResultMap (C : Type*) extends LookupResult C where
  isComplete : Bool

/-- `is_most_recent_page/4` -/
def isMostRecentPage (pageSize : ℕ) (totalCount offset : ℤ) (messageRows : List (Row C)) : Bool :=
  if messageRows.length < pageSize then true
  else if messageRows.length = pageSize then totalCount = offset + pageSize
  else false

/-- `is_complete_result_page_using_offset/2` -/
def isCompleteResultPageUsingOffset (params : Params) (result : LookupResult C) :
    Except Failure Bool :=
  match result.totalCount, result.offset with
  | some totalCount, some offset =>
    match params.orderingDirection with
    | .forward => .ok (isMostRecentPage params.pageSize totalCount offset result.messages)
    | .backward => .ok (offset = 0)
  | _, _ => .error .caseClause

/-- `remove_extra_message/2` -/
def removeExtraMessage : OrderingDirection → List (Row C) → List (Row C)
  | .forward, messages => messages.dropLast
  | .backward, messages => messages.tail

/-- `set_complete_result_page_using_extra_message/3` -/
def setCompleteResultPageUsingExtraMessage (params : Params) (result : LookupResult C) :
    ResultMap C :=
  if result.messages.length = params.pageSize + 1 then
    { result with
      isComplete := false
      messages := removeExtraMessage params.orderingDirection result.messages }
  else { result with isComplete := true }

variable (archive : Archive C) (filter : Filter C)

/-- `process_lookup_with_complete_check/3` of a lookup in an archive. -/
def lookupWithCheck (params : Params) : Except Failure (ResultMap C) :=
  if params.isSimple then
    -- one more message is read
    (lookup archive filter params.rsm (params.pageSize + 1) true).map
      (setCompleteResultPageUsingExtraMessage params)
  else
    (lookup archive filter params.rsm params.pageSize false).bind fun result =>
      (isCompleteResultPageUsingOffset params result).map fun isComplete =>
        { result with isComplete }

/-- A request for the first or the last page, or for one beyond an id. -/
inductive PageRequest : Option RsmIn → Prop
  | first : PageRequest none
  | last (index : Index) : PageRequest (some ⟨some .before, none, index⟩)
  | after (id : ℤ) (index : Index) : PageRequest (some ⟨some .aft, some id, index⟩)
  | before (id : ℤ) (index : Index) : PageRequest (some ⟨some .before, some id, index⟩)

variable (messages : List (Row C))

/-- The messages that a request is about: those beyond its id. -/
def restOf : Option RsmIn → List (Row C)
  | some ⟨some .aft, some id, _⟩ => messages.filter fun row => id < row.id
  | some ⟨some .before, some id, _⟩ => messages.filter fun row => row.id < id
  | _ => messages

/-- The page that is cut off them. -/
def pageOf (pageSize : ℕ) (rest : List (Row C)) : OrderingDirection → List (Row C)
  | .forward => rest.take pageSize
  | .backward => rest.rtake pageSize

section Lookup

variable (archive : Archive C) (filter : Filter C) {rsm : Option RsmIn} {pageSize : ℕ}

theorem simpleLookupMessages_eq (hrsm : PageRequest rsm) (pageSize : ℕ) :
    simpleLookupMessages archive rsm pageSize filter =
    .ok ⟨none, none, pageOf pageSize (restOf (matching archive filter) rsm)
      (orderingDirection rsm)⟩ := by
  rcases hrsm with _ | index | ⟨id, index⟩ | ⟨id, index⟩
  · have h := extractMessages_asc archive filter 0 pageSize
    simp only [simpleLookupMessages, rsmToFilter]
    rw [show (0 : ℤ) = ((0 : ℕ) : ℤ) from rfl, h]
    rfl
  · simp only [simpleLookupMessages, rsmToFilter, extractMessages_desc]
    rfl
  · have h := extractMessages_asc archive (afterId (some id) filter) 0 pageSize
    rw [afterId, matching_id] at h
    simp only [simpleLookupMessages, rsmToFilter, afterId]
    rw [show (0 : ℤ) = ((0 : ℕ) : ℤ) from rfl, h]
    rfl
  · simp only [simpleLookupMessages, rsmToFilter, extractMessages_desc, beforeId, matching_id]
    rfl

/-- A full page is followed by nothing when the extra message is missing. -/
theorem setComplete_eq (params : Params) (rest : List (Row C)) :
    setCompleteResultPageUsingExtraMessage params
      ⟨none, none, pageOf (params.pageSize + 1) rest params.orderingDirection⟩ =
    ⟨⟨none, none, pageOf params.pageSize rest params.orderingDirection⟩,
      rest.length ≤ params.pageSize⟩ := by
  obtain ⟨rsm, pageSize, isSimple, direction⟩ := params
  rw [setCompleteResultPageUsingExtraMessage]
  have hlength :
      (pageOf (pageSize + 1) rest direction).length = min (pageSize + 1) rest.length := by
    rcases direction with _ | _
    · rw [pageOf, rtake, length_drop]
      omega
    · rw [pageOf, length_take]
  by_cases hfits : rest.length ≤ pageSize
  · have hnot : ¬ (pageOf (pageSize + 1) rest direction).length = pageSize + 1 := by omega
    -- both pages are all there is
    have hpages : pageOf (pageSize + 1) rest direction = pageOf pageSize rest direction := by
      rcases direction with _ | _
      · have hzero : rest.length - (pageSize + 1) = rest.length - pageSize := by omega
        rw [pageOf, pageOf, rtake, rtake, hzero]
      · rw [pageOf, pageOf, take_of_length_le hfits, take_of_length_le (by omega)]
    rw [if_neg hnot]
    simp only [hpages, hfits, decide_true]
  · have hfull : (pageOf (pageSize + 1) rest direction).length = pageSize + 1 := by omega
    have hpages : removeExtraMessage direction (pageOf (pageSize + 1) rest direction) =
        pageOf pageSize rest direction := by
      rcases direction with _ | _
      · have hnext : rest.length - (pageSize + 1) + 1 = rest.length - pageSize := by omega
        rw [removeExtraMessage, pageOf, pageOf, rtake, rtake, tail_drop, hnext]
      · have hlast : (rest.take (pageSize + 1)).length - 1 = pageSize := by
          rw [pageOf] at hfull
          omega
        rw [removeExtraMessage, pageOf, pageOf, dropLast_eq_take, hlast, take_take,
          min_eq_left (Nat.le_succ pageSize)]
    rw [if_pos hfull]
    simp only [hpages, hfits, decide_false]

variable {pre post : List (Row C)} {row : Row C}

theorem lookupMessagesRegular_after (index : Index) (pageSize : ℕ)
    (hcut : matching archive filter = pre ++ row :: post) :
    lookupMessagesRegular archive (some ⟨some .aft, some row.id, index⟩) pageSize filter =
    .ok ⟨some (matching archive filter).length, some (pre.length + 1 : ℕ),
      post.take pageSize⟩ := by
  have hincreasing := increasing_matching archive filter
  have hcount : calcIndex archive filter row.id = pre.length + 1 := by
    rw [calcIndex, calcCount_toId]
    rw [hcut] at hincreasing ⊢
    rw [filter_le_append_cons hincreasing, length_append, length_singleton]
  -- the message itself comes first
  have hmessages : extractMessages archive (fromId (some row.id) filter) (.int 0) (pageSize + 1)
      .asc = .ok (row :: post.take pageSize) := by
    have h := extractMessages_asc archive (fromId (some row.id) filter) 0 (pageSize + 1)
    have hfrom : matching archive (fromId (some row.id) filter) = row :: post := by
      rw [fromId, matching_id]
      rw [hcut] at hincreasing ⊢
      exact filter_ge_append_cons hincreasing
    rw [hfrom] at h
    exact h
  simp only [lookupMessagesRegular, rsmToRegularLookupVars, calcOffset, hcount, hmessages,
    Except.bind, if_true, checkForItemNotFound]
  rw [calcCount_eq]

theorem lookupMessagesRegular_before (index : Index) (pageSize : ℕ)
    (hcut : matching archive filter = pre ++ row :: post) :
    lookupMessagesRegular archive (some ⟨some .before, some row.id, index⟩) pageSize filter =
    .ok ⟨some (matching archive filter).length, some (pre.length - pageSize : ℕ),
      pre.rtake pageSize⟩ := by
  have hincreasing := increasing_matching archive filter
  have hcount : max 0 ((calcBefore archive filter row.id : ℤ) - pageSize) =
      (pre.length - pageSize : ℕ) := by
    rw [calcBefore, calcCount_beforeId]
    rw [hcut] at hincreasing ⊢
    rw [filter_lt_append_cons hincreasing]
    omega
  -- the message itself comes last
  have hmessages : extractMessages archive (toId (some row.id) filter) (.int 0) (pageSize + 1)
      .desc = .ok (pre.rtake pageSize ++ [row]) := by
    have hto : matching archive (toId (some row.id) filter) = pre ++ [row] := by
      rw [toId, matching_id]
      rw [hcut] at hincreasing ⊢
      exact filter_le_append_cons hincreasing
    rw [extractMessages_desc, hto, rtake_concat_succ]
  simp only [lookupMessagesRegular, rsmToRegularLookupVars, calcOffset, hcount, hmessages,
    Except.bind, if_true, checkForItemNotFound, getLast?_concat, dropLast_concat]
  rw [calcCount_eq]

/-- The id of a request is that of a message, where there is one. -/
def NamesMessage (rsm : Option RsmIn) : Prop :=
  ∀ id, rsm.bind RsmIn.id = some id → ∃ row ∈ messages, row.id = id

/-- What the count and the offset of a page say. -/
structure Counted (rest messages : List (Row C)) (pageSize : ℕ) (direction : OrderingDirection)
    (totalCount offset : ℕ) : Prop where
  totalCount_eq : totalCount = messages.length
  /-- Forwards, the offset is the number of messages before the page. -/
  forward : direction = .forward → offset + rest.length = messages.length
  /-- Backwards, it is the number of messages before the page. -/
  backward : direction = .backward → offset = rest.length - pageSize

/-- **A lookup with a count cuts the page off**, and the offset is the place where it does. -/
theorem lookup_counted (hrsm : PageRequest rsm) (hpage : 0 < pageSize)
    (hnames : NamesMessage (matching archive filter) rsm) :
    ∃ totalCount offset : ℕ, lookup archive filter rsm pageSize false =
      .ok ⟨some totalCount, some offset, pageOf pageSize
        (restOf (matching archive filter) rsm) (orderingDirection rsm)⟩ ∧
    Counted (restOf (matching archive filter) rsm) (matching archive filter) pageSize
      (orderingDirection rsm) totalCount offset := by
  obtain ⟨size, rfl⟩ : ∃ size, pageSize = size + 1 := ⟨pageSize - 1, by omega⟩
  have hincreasing := increasing_matching archive filter
  rcases hrsm with _ | index | ⟨id, index⟩ | ⟨id, index⟩
  · have hlookup : lookupByOffset archive none (size + 1) filter =
        .ok ⟨some (max 0 (matching archive filter).length : ℕ), some (0 : ℕ),
          ((matching archive filter).drop 0).take (size + 1)⟩ :=
      lookupByOffset_eq archive filter rfl rfl hpage
    refine ⟨_, 0, hlookup, Nat.zero_max _, ?_, ?_⟩
    · intro _
      exact Nat.zero_add _
    · intro hbackward
      cases hbackward
  · refine ⟨_, _, lookupLastPage_eq archive filter hpage, rfl, ?_, fun _ => rfl⟩
    intro hforward
    cases hforward
  · obtain ⟨row, hmem, rfl⟩ := hnames id rfl
    obtain ⟨pre, post, hcut⟩ := append_of_mem hmem
    have hrest : restOf (matching archive filter) (some ⟨some .aft, some row.id, index⟩) =
        post := by
      rw [hcut] at hincreasing ⊢
      exact filter_gt_append_cons hincreasing
    have hlookup := lookupMessagesRegular_after archive filter index (size + 1) hcut
    rw [hrest]
    refine ⟨_, _, hlookup, rfl, ?_, ?_⟩
    · intro _
      rw [hcut, length_append, length_cons]
      omega
    · intro hbackward
      cases hbackward
  · obtain ⟨row, hmem, rfl⟩ := hnames id rfl
    obtain ⟨pre, post, hcut⟩ := append_of_mem hmem
    have hrest : restOf (matching archive filter) (some ⟨some .before, some row.id, index⟩) =
        pre := by
      rw [hcut] at hincreasing ⊢
      exact filter_lt_append_cons hincreasing
    have hlookup := lookupMessagesRegular_before archive filter index (size + 1) hcut
    rw [hrest]
    refine ⟨_, _, hlookup, rfl, ?_, fun _ => rfl⟩
    intro hforward
    cases hforward

/-- A request after or before an id that no message has finds nothing. -/
theorem lookup_not_ok (hrsm : PageRequest rsm) (pageSize : ℕ)
    (hnames : ¬ NamesMessage (matching archive filter) rsm) (result : LookupResult C) :
    lookup archive filter rsm pageSize false ≠ .ok result := by
  have hnobody (id : ℤ) (hid : rsm.bind RsmIn.id = some id) :
      ∀ row ∈ matching archive filter, row.id ≠ id := by
    rintro row hmem rfl
    refine hnames fun id' hid' => ?_
    cases (hid.symm.trans hid')
    exact ⟨row, hmem, rfl⟩
  -- the message that would be there has another id
  have hother {id : ℤ} (hid : ∀ row ∈ matching archive filter, row.id ≠ id) {op : Op}
      {row : Row C} (hmem : row ∈ matching archive (.id op (some id) :: filter)) :
      ¬ some row.id = some id := by
    rw [matching_id] at hmem
    intro heq
    exact hid row (mem_filter.1 hmem).1 (Option.some.inj heq)
  intro hok
  rcases hrsm with _ | index | ⟨id, index⟩ | ⟨id, index⟩
  · exact hnames fun id hid => by cases hid
  · exact hnames fun id hid => by cases hid
  · have hid := hnobody id rfl
    have hregular : lookupMessagesRegular archive (some ⟨some .aft, some id, index⟩) pageSize
        filter = .ok result := hok
    have hmessages := extractMessages_asc archive (fromId (some id) filter) 0 (pageSize + 1)
    simp only [lookupMessagesRegular, rsmToRegularLookupVars] at hregular
    rw [show (0 : ℤ) = ((0 : ℕ) : ℤ) from rfl, hmessages] at hregular
    simp only [Except.bind, if_true, checkForItemNotFound] at hregular
    rcases hpageRows : ((matching archive (fromId (some id) filter)).drop 0).take (pageSize + 1)
      with _ | ⟨first, tail⟩
    · rw [hpageRows] at hregular
      cases hregular
    · rw [hpageRows] at hregular
      have hmem : first ∈ matching archive (fromId (some id) filter) :=
        mem_of_mem_take (hpageRows ▸ mem_cons_self)
      simp only [hother hid hmem, if_false] at hregular
      cases hregular
  · have hid := hnobody id rfl
    have hregular : lookupMessagesRegular archive (some ⟨some .before, some id, index⟩) pageSize
        filter = .ok result := hok
    simp only [lookupMessagesRegular, rsmToRegularLookupVars, extractMessages_desc, Except.bind,
      if_true, checkForItemNotFound] at hregular
    rcases hlast : ((matching archive (toId (some id) filter)).rtake (pageSize + 1)).getLast?
      with _ | last
    · rw [hlast] at hregular
      cases hregular
    · rw [hlast] at hregular
      have hmem : last ∈ matching archive (toId (some id) filter) :=
        mem_of_mem_drop (mem_of_getLast? hlast)
      simp only [hother hid hmem, if_false] at hregular
      cases hregular

variable {rest messages : List (Row C)} {totalCount offset : ℕ}

/-- **Forwards a page is complete when nothing is left.** -/
theorem isMostRecentPage_eq (h : Counted rest messages pageSize .forward totalCount offset) :
    isMostRecentPage pageSize totalCount offset (rest.take pageSize) =
    decide (rest.length ≤ pageSize) := by
  have htotal := h.totalCount_eq
  have hoffset := h.forward rfl
  rw [isMostRecentPage, length_take]
  by_cases hshort : rest.length < pageSize
  · have hmin : min pageSize rest.length < pageSize := by omega
    rw [if_pos hmin]
    exact (decide_eq_true hshort.le).symm
  · have hmin : ¬ min pageSize rest.length < pageSize := by omega
    have hfull : min pageSize rest.length = pageSize := by omega
    rw [if_neg hmin, if_pos hfull, decide_eq_decide]
    omega

theorem isComplete_eq
    (h : Counted rest messages pageSize (orderingDirection rsm) totalCount offset) :
    isCompleteResultPageUsingOffset (lookupParams rsm pageSize false)
      ⟨some totalCount, some offset, pageOf pageSize rest (orderingDirection rsm)⟩ =
    .ok (decide (rest.length ≤ pageSize)) := by
  simp only [isCompleteResultPageUsingOffset, lookupParams]
  rcases hdirection : orderingDirection rsm with _ | _
  · have hoffset := h.backward hdirection
    simp only [Except.ok.injEq, decide_eq_decide]
    omega
  · rw [hdirection] at h
    simp only [pageOf, isMostRecentPage_eq h]

/-- **A lookup cuts the page off what is left**, and the page is complete when that is all. -/
theorem lookupWithCheck_eq (hrsm : PageRequest rsm) (hpage : 0 < pageSize) (isSimple : Bool)
    (hnames : isSimple = true ∨ NamesMessage (matching archive filter) rsm) :
    ∃ totalCount offset, lookupWithCheck archive filter (lookupParams rsm pageSize isSimple) =
    .ok ⟨⟨totalCount, offset, pageOf pageSize (restOf (matching archive filter) rsm)
        (orderingDirection rsm)⟩,
      (restOf (matching archive filter) rsm).length ≤ pageSize⟩ := by
  rcases isSimple with _ | _
  · have hnames' := hnames.resolve_left Bool.false_ne_true
    obtain ⟨totalCount, offset, hlookup, hcounted⟩ :=
      lookup_counted archive filter hrsm hpage hnames'
    refine ⟨some totalCount, some offset, ?_⟩
    simp only [lookupWithCheck, lookupParams, Bool.false_eq_true, if_false, hlookup, Except.bind]
    have hcomplete := isComplete_eq hcounted
    rw [lookupParams] at hcomplete
    rw [hcomplete]
    rfl
  · refine ⟨none, none, ?_⟩
    have hlookup : lookup archive filter rsm (pageSize + 1) true = _ :=
      simpleLookupMessages_eq archive filter hrsm (pageSize + 1)
    have hcomplete := setComplete_eq (lookupParams rsm pageSize true)
      (restOf (matching archive filter) rsm)
    simp only [lookupWithCheck, lookupParams, if_true, hlookup, Except.map]
    exact congrArg Except.ok hcomplete

end Lookup

/-- A message in the direction of a request is beyond its id. -/
def BeyondId (rsm : Option RsmIn) (row : Row C) : OrderingDirection → Prop
  | .forward => ∀ id, rsm.bind RsmIn.id = some id → id < row.id
  | .backward => ∀ id, rsm.bind RsmIn.id = some id → row.id < id

/-- A message is beyond those of a page. -/
def BeyondPage (page : List (Row C)) (row : Row C) : OrderingDirection → Prop
  | .forward => ∀ shown ∈ page, shown.id < row.id
  | .backward => ∀ shown ∈ page, row.id < shown.id

/-- A message that matches the filter lies beyond a page, in its direction. -/
def Beyond (rsm : Option RsmIn) (page : List (Row C)) (row : Row C) : Prop :=
  (row ∈ archive.rows ∧ holdsAll filter row = true) ∧ BeyondId rsm row (orderingDirection rsm) ∧
    BeyondPage page row (orderingDirection rsm)

section Beyond

variable (archive : Archive C) (filter : Filter C) {rsm : Option RsmIn} {pageSize : ℕ}

theorem increasing_restOf (rsm : Option RsmIn) :
    Increasing Row.id (restOf (matching archive filter) rsm) := by
  have hincreasing := increasing_matching archive filter
  rw [restOf.eq_def]
  split
  · exact hincreasing.filter _
  · exact hincreasing.filter _
  · exact hincreasing

theorem mem_restOf (hrsm : PageRequest rsm) {row : Row C} :
    row ∈ restOf (matching archive filter) rsm ↔ (row ∈ archive.rows ∧ holdsAll filter row = true) ∧
      BeyondId rsm row (orderingDirection rsm) := by
  rw [← mem_matching]
  rcases hrsm with _ | index | ⟨id, index⟩ | ⟨id, index⟩
  · simp [restOf, BeyondId, orderingDirection]
  · simp [restOf, BeyondId, orderingDirection]
  · simp [restOf, BeyondId, orderingDirection]
  · simp [restOf, BeyondId, orderingDirection]

/-- **Something lies beyond the page exactly when it does not have all that is left.** -/
theorem exists_beyond_iff (hrsm : PageRequest rsm) : (∃ row, Beyond archive filter rsm
      (pageOf pageSize (restOf (matching archive filter) rsm) (orderingDirection rsm)) row) ↔
    ¬ (restOf (matching archive filter) rsm).length ≤ pageSize := by
  have hincreasing := increasing_restOf archive filter rsm
  simp only [Beyond, ← and_assoc, ← mem_restOf archive filter hrsm]
  generalize restOf (matching archive filter) rsm = rest at hincreasing ⊢
  rcases orderingDirection rsm with _ | _
  · -- what is left starts before the page
    have hcut : rest.take (rest.length - pageSize) ++ rest.rtake pageSize = rest :=
      take_append_drop (rest.length - pageSize) rest
    rw [← hcut] at hincreasing
    have hbeyond (row : Row C) : row ∈ rest ∧
        BeyondPage (pageOf pageSize rest .backward) row .backward ↔
          row ∈ rest.take (rest.length - pageSize) := by
      constructor
      · rintro ⟨hmem, hpage⟩
        exact (forall_gt_iff_mem_left hincreasing (hcut.symm ▸ hmem)).1 hpage
      · intro hmem
        have hrest := mem_of_mem_take hmem
        exact ⟨hrest, (forall_gt_iff_mem_left hincreasing (hcut.symm ▸ hrest)).2 hmem⟩
    simp only [hbeyond]
    rw [← length_pos_iff_exists_mem, length_take]
    omega
  · have hcut : rest.take pageSize ++ rest.drop pageSize = rest := take_append_drop pageSize rest
    rw [← hcut] at hincreasing
    have hbeyond (row : Row C) : row ∈ rest ∧
        BeyondPage (pageOf pageSize rest .forward) row .forward ↔ row ∈ rest.drop pageSize := by
      constructor
      · rintro ⟨hmem, hpage⟩
        exact (forall_lt_iff_mem_right hincreasing (hcut.symm ▸ hmem)).1 hpage
      · intro hmem
        have hrest := mem_of_mem_drop hmem
        exact ⟨hrest, (forall_lt_iff_mem_right hincreasing (hcut.symm ▸ hrest)).2 hmem⟩
    simp only [hbeyond]
    rw [← length_pos_iff_exists_mem, length_drop]
    omega

end Beyond

/-- The request for the page beyond one, in a direction. -/
def nextRequest : OrderingDirection → Option RsmIn
  | .forward => messages.getLast?.map fun last => ⟨some .aft, some last.id, .undefined⟩
  | .backward => messages.head?.map fun first => ⟨some .before, some first.id, .undefined⟩

/-- The request that paging in a direction starts with. -/
def firstRequest : OrderingDirection → Option RsmIn
  | .forward => none
  | .backward => some ⟨some .before, none, .undefined⟩

/-- Ask for pages until one is complete, and return them in the order they came in. -/
def collectPages (archive : Archive C) (filter : Filter C) (pageSize : ℕ) (isSimple : Bool)
    (direction : OrderingDirection) : ℕ → Option RsmIn → Option (List (List (Row C)))
  | 0, _ => none
  | fuel + 1, rsm =>
    match lookupWithCheck archive filter (lookupParams rsm pageSize isSimple) with
    | .ok result =>
      if result.isComplete then some [result.messages]
      else
        match nextRequest result.messages direction with
        | some rsm' =>
          (collectPages archive filter pageSize isSimple direction fuel (some rsm')).map
            (result.messages :: ·)
        | none => none
    | .error _ => none

section Paging

variable (archive : Archive C) (filter : Filter C) {pageSize : ℕ} (isSimple : Bool)

variable {fuel : ℕ} {rest : List (Row C)}

theorem collectPages_succ {direction : OrderingDirection} {rsm : Option RsmIn}
    (hrsm : PageRequest rsm) (hdirection : orderingDirection rsm = direction)
    (hpage : 0 < pageSize) (hnames : NamesMessage (matching archive filter) rsm)
    (hrest : restOf (matching archive filter) rsm = rest) :
    collectPages archive filter pageSize isSimple direction (fuel + 1) rsm =
    if rest.length ≤ pageSize then some [pageOf pageSize rest direction]
    else (nextRequest (pageOf pageSize rest direction) direction).bind fun rsm' =>
      (collectPages archive filter pageSize isSimple direction fuel (some rsm')).map
        (pageOf pageSize rest direction :: ·) := by
  subst hdirection hrest
  obtain ⟨totalCount, offset, hlookup⟩ :=
    lookupWithCheck_eq archive filter hrsm hpage isSimple (Or.inr hnames)
  rw [collectPages, hlookup]
  simp only [decide_eq_true_eq]
  split_ifs
  · rfl
  · rcases nextRequest (pageOf pageSize (restOf (matching archive filter) rsm)
      (orderingDirection rsm)) (orderingDirection rsm) with _ | rsm' <;> rfl

section

variable {rsm : Option RsmIn} (hpage : 0 < pageSize) (hrsm : PageRequest rsm)

include hpage hrsm

/-- **Forwards**, the pages are what is left. -/
theorem collectForward_eq (hdirection : orderingDirection rsm = .forward)
    (hnames : NamesMessage (matching archive filter) rsm) {pre : List (Row C)}
    (hcut : matching archive filter = pre ++ rest)
    (hrest : restOf (matching archive filter) rsm = rest) (hfuel : rest.length < fuel) :
    ∃ pages, collectPages archive filter pageSize isSimple .forward fuel rsm = some pages ∧
    pages.flatten = rest := by
  induction fuel generalizing rsm pre rest with
  | zero => omega
  | succ fuel ih =>
    rw [collectPages_succ archive filter isSimple hrsm hdirection hpage hnames hrest]
    split_ifs with hfits
    · refine ⟨_, rfl, ?_⟩
      rw [flatten_singleton, pageOf, take_of_length_le hfits]
    · have hsplit : rest.take pageSize ++ rest.drop pageSize = rest :=
        take_append_drop pageSize rest
      rcases hlast : (rest.take pageSize).getLast? with _ | last
      · -- a page that is not complete is not empty
        rw [getLast?_eq_none_iff, take_eq_nil_iff] at hlast
        rcases hlast with hzero | hnil
        · omega
        · rw [hnil] at hfits
          exact absurd (Nat.zero_le _) hfits
      · have hcut' : matching archive filter =
            (pre ++ rest.take pageSize) ++ rest.drop pageSize := by
          rw [append_assoc, hsplit, hcut]
        have hlastMem : last ∈ matching archive filter := by
          rw [hcut', mem_append, mem_append]
          exact Or.inl (Or.inr (mem_of_getLast? hlast))
        have hbeyond : restOf (matching archive filter)
            (some ⟨some .aft, some last.id, .undefined⟩) = rest.drop pageSize := by
          have hincreasing := increasing_matching archive filter
          rw [hcut'] at hincreasing
          rw [restOf, hcut']
          exact filter_gt_getLast hincreasing hlast
        have hshorter : (rest.drop pageSize).length < fuel := by
          rw [length_drop]
          omega
        obtain ⟨pages, hpages, hflatten⟩ := ih (.after last.id .undefined) rfl
          (fun id hid => ⟨last, hlastMem, Option.some.inj hid⟩) hcut' hbeyond hshorter
        refine ⟨rest.take pageSize :: pages, ?_, ?_⟩
        · simp only [pageOf, nextRequest, hlast, Option.map_some, Option.bind_some, hpages]
        · rw [flatten_cons, hflatten, hsplit]

/-- **Backwards**, so are the pages from the last to the first. -/
theorem collectBackward_eq (hdirection : orderingDirection rsm = .backward)
    (hnames : NamesMessage (matching archive filter) rsm) {post : List (Row C)}
    (hcut : matching archive filter = rest ++ post)
    (hrest : restOf (matching archive filter) rsm = rest) (hfuel : rest.length < fuel) :
    ∃ pages, collectPages archive filter pageSize isSimple .backward fuel rsm = some pages ∧
    pages.reverse.flatten = rest := by
  induction fuel generalizing rsm rest post with
  | zero => omega
  | succ fuel ih =>
    rw [collectPages_succ archive filter isSimple hrsm hdirection hpage hnames hrest]
    split_ifs with hfits
    · refine ⟨_, rfl, ?_⟩
      have hzero : rest.length - pageSize = 0 := by omega
      rw [reverse_singleton, flatten_singleton, pageOf, rtake, hzero, drop_zero]
    · have hsplit : rest.take (rest.length - pageSize) ++ rest.rtake pageSize = rest :=
        take_append_drop (rest.length - pageSize) rest
      rcases hfirst : (rest.rtake pageSize).head? with _ | first
      · -- a page that is not complete is not empty
        rw [head?_eq_none_iff, rtake, drop_eq_nil_iff] at hfirst
        omega
      · have hcut' : matching archive filter =
            rest.take (rest.length - pageSize) ++ rest.rtake pageSize ++ post := by
          rw [hsplit, hcut]
        have hfirstMem : first ∈ matching archive filter := by
          rw [hcut', mem_append, mem_append]
          exact Or.inl (Or.inr (mem_of_head? hfirst))
        have hbeyond : restOf (matching archive filter)
            (some ⟨some .before, some first.id, .undefined⟩) =
              rest.take (rest.length - pageSize) := by
          have hincreasing := increasing_matching archive filter
          rw [hcut'] at hincreasing
          rw [restOf, hcut']
          exact filter_lt_head hincreasing hfirst
        have hshorter : (rest.take (rest.length - pageSize)).length < fuel := by
          rw [length_take]
          omega
        rw [append_assoc] at hcut'
        obtain ⟨pages, hpages, hflatten⟩ := ih (.before first.id .undefined) rfl
          (fun id hid => ⟨first, hfirstMem, Option.some.inj hid⟩) hcut' hbeyond hshorter
        refine ⟨rest.rtake pageSize :: pages, ?_, ?_⟩
        · simp only [pageOf, nextRequest, hfirst, Option.map_some, Option.bind_some, hpages]
        · rw [reverse_cons, flatten_append, hflatten, flatten_singleton, hsplit]

end

end Paging

/-- The messages that match a filter, each once and by id. -/
def Exact (messages : List (Row C)) : Prop :=
  Increasing Row.id messages ∧
    ∀ row, row ∈ messages ↔ row ∈ archive.rows ∧ holdsAll filter row = true

theorem exact_matching : Exact archive filter (matching archive filter) :=
  ⟨increasing_matching archive filter, fun _ => mem_matching archive filter⟩

/-- **Paging is complete and exact**, both ways: the pages have every message that matches once and
in order, and one is complete exactly when none lies beyond it. -/
theorem paging_complete (archive : Archive C) (filter : Filter C) {pageSize : ℕ}
    (hpage : 0 < pageSize) (isSimple : Bool) :
    (∀ fuel, archive.rows.length < fuel → ∃ pages,
    collectPages archive filter pageSize isSimple .forward fuel (firstRequest .forward) =
      some pages ∧ Exact archive filter pages.flatten) ∧
    (∀ fuel, archive.rows.length < fuel → ∃ pages,
    collectPages archive filter pageSize isSimple .backward fuel (firstRequest .backward) =
      some pages ∧ Exact archive filter pages.reverse.flatten) ∧
    ∀ rsm, PageRequest rsm → ∀ result,
    lookupWithCheck archive filter (lookupParams rsm pageSize isSimple) = .ok result →
      (result.isComplete = true ↔ ¬ ∃ row, Beyond archive filter rsm result.messages row) := by
  have hexact := exact_matching archive filter
  have hlength : (matching archive filter).length ≤ archive.rows.length := by
    rw [← calcCount_eq]
    exact length_filter_le _ _
  refine ⟨?_, ?_, ?_⟩
  · intro fuel hfuel
    obtain ⟨pages, hpages, hflatten⟩ := collectForward_eq archive filter isSimple hpage .first rfl
      (fun id hid => by cases hid) (nil_append _).symm rfl (hlength.trans_lt hfuel)
    exact ⟨pages, hpages, hflatten ▸ hexact⟩
  · intro fuel hfuel
    obtain ⟨pages, hpages, hflatten⟩ := collectBackward_eq archive filter isSimple hpage
      (.last .undefined) rfl (fun id hid => by cases hid) (append_nil _).symm rfl
      (hlength.trans_lt hfuel)
    exact ⟨pages, hpages, hflatten ▸ hexact⟩
  · intro rsm hrsm result hok
    by_cases hnames : isSimple = true ∨ NamesMessage (matching archive filter) rsm
    · obtain ⟨totalCount, offset, hlookup⟩ :=
        lookupWithCheck_eq archive filter hrsm hpage isSimple hnames
      cases (hlookup.symm.trans hok)
      rw [exists_beyond_iff archive filter hrsm, not_not, decide_eq_true_eq]
    · -- then there is no result
      obtain ⟨hcount, hnot⟩ := not_or.1 hnames
      obtain rfl := Bool.eq_false_of_not_eq_true hcount
      have hnone := lookup_not_ok archive filter hrsm pageSize hnot
      rw [lookupWithCheck] at hok
      simp only [lookupParams, Bool.false_eq_true, if_false] at hok
      rcases hlookup : lookup archive filter rsm pageSize false with failure | result'
      · rw [hlookup] at hok
        cases hok
      · exact absurd hlookup (hnone result')

/-- Three messages in pages of two, with a count. -/
theorem paging_complete_three : ∃ pages,
    collectPages threeMessages [] 2 false .forward 4 none = some pages ∧
    pages.map (map Row.id) = [[1, 2], [3]] ∧ Exact threeMessages [] pages.flatten := by
  obtain ⟨pages, hpages, hexact⟩ :=
    (paging_complete threeMessages [] (by decide : 0 < 2) false).1 4 (by decide)
  have hrun : collectPages threeMessages [] 2 false .forward 4 none =
      some [[⟨1, ()⟩, ⟨2, ()⟩], [⟨3, ()⟩]] := rfl
  cases (hrun.symm.trans hpages)
  exact ⟨_, hrun, rfl, hexact⟩

end MongooseIM.Mam
