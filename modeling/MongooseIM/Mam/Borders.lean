import MongooseIM.Mam.MessageId

/-! # The borders of a lookup

A lookup may be bounded by two time stamps and by four message ids. They are folded into the first
and the last id that are searched, for each of which `undefined` is no bound. -/

namespace MongooseIM.Mam.Borders

open Mam.MessageId

/-! ## Borders -/

/-- `#mam_borders{}`; `undefined` is `none`. -/
structure MamBorders where
  afterId : Option ℤ := none
  beforeId : Option ℤ := none
  fromId : Option ℤ := none
  toId : Option ℤ := none

/-- `maybe_min/2` -/
def maybeMin : Option ℤ → Option ℤ → Option ℤ
  | none, y => y
  | x, none => x
  | some x, some y => some (min x y)

/-- `maybe_max/2` -/
def maybeMax : Option ℤ → Option ℤ → Option ℤ
  | none, y => y
  | x, none => x
  | some x, some y => some (max x y)

/-- `maybe_next_id/1` -/
def maybeNextId : Option ℤ → Option ℤ
  | none => none
  | some x => some (x + 1)

/-- `maybe_previous_id/1` -/
def maybePreviousId : Option ℤ → Option ℤ
  | none => none
  | some x => some (x - 1)

variable (borders : Option MamBorders)

/-- `apply_start_border/2` -/
def applyStartBorder (startId : Option ℤ) : Option ℤ :=
  match borders with
  | none => startId
  | some borders => maybeMax (maybeNextId borders.afterId) (maybeMax borders.fromId startId)

/-- `apply_end_border/2` -/
def applyEndBorder (endId : Option ℤ) : Option ℤ :=
  match borders with
  | none => endId
  | some borders => maybeMin (maybePreviousId borders.beforeId) (maybeMin borders.toId endId)

/-- `maybe_encode_compact_uuid/2` -/
def maybeEncodeCompactUuid (microseconds : Option ℤ) (nodeId : ℤ) : Option ℤ :=
  match microseconds with
  | none => none
  | some microseconds => some (encodeCompactUuid microseconds nodeId)

/-- `calculate_msg_id_borders/3` -/
def calculateMsgIdBorders (startTs endTs : Option ℤ) : Option ℤ × Option ℤ :=
  let startId := maybeEncodeCompactUuid startTs 0
  let endId := maybeEncodeCompactUuid endTs 255
  (applyStartBorder borders startId, applyEndBorder borders endId)

/-- What `mam_encoder:extend_lookup_params/2` reads of the parameters for the ids. -/
structure LookupParams where
  startTs : Option ℤ
  endTs : Option ℤ
  borders : Option MamBorders

/-- `mam_encoder:make_start_id/2` -/
def makeStartId (startTs : Option ℤ) (borders : Option MamBorders) : Option ℤ :=
  let startId := maybeEncodeCompactUuid startTs 0
  applyStartBorder borders startId

/-- `mam_encoder:make_end_id/2` -/
def makeEndId (endTs : Option ℤ) (borders : Option MamBorders) : Option ℤ :=
  let endId := maybeEncodeCompactUuid endTs 255
  applyEndBorder borders endId

/-- `start_id` and `end_id` of `mam_encoder:extend_lookup_params/2`. -/
def extendLookupParams (params : LookupParams) : Option ℤ × Option ℤ :=
  (makeStartId params.startTs params.borders, makeEndId params.endTs params.borders)

/-! ## Bounds -/

/-- Not below a bound, if there is one. -/
def AtLeast (bound : Option ℤ) (n : ℤ) : Prop := ∀ m ∈ bound, m ≤ n

/-- Not above a bound, if there is one. -/
def AtMost (bound : Option ℤ) (n : ℤ) : Prop := ∀ m ∈ bound, n ≤ m

/-- Between two borders. -/
def Between (borders : Option ℤ × Option ℤ) (n : ℤ) : Prop :=
  AtLeast borders.1 n ∧ AtMost borders.2 n

variable {x y : Option ℤ} {m n : ℤ}

@[simp] theorem atLeast_none : AtLeast none n := nofun

@[simp] theorem atLeast_some : AtLeast (some m) n ↔ m ≤ n := by
  simp [AtLeast]

@[simp] theorem atMost_none : AtMost none n := nofun

@[simp] theorem atMost_some : AtMost (some m) n ↔ n ≤ m := by
  simp [AtMost]

/-- The larger one of two lower bounds asks for both. -/
@[simp] theorem atLeast_maybeMax : AtLeast (maybeMax x y) n ↔ AtLeast x n ∧ AtLeast y n := by
  cases x with
  | none => simp [maybeMax]
  | some x =>
    cases y with
    | none => simp [maybeMax]
    | some y => simp [maybeMax]

/-- The smaller one of two upper bounds asks for both. -/
@[simp] theorem atMost_maybeMin : AtMost (maybeMin x y) n ↔ AtMost x n ∧ AtMost y n := by
  cases x with
  | none => simp [maybeMin]
  | some x =>
    cases y with
    | none => simp [maybeMin]
    | some y => simp [maybeMin]

@[simp] theorem atLeast_maybeNextId : AtLeast (maybeNextId x) n ↔ ∀ m ∈ x, m < n := by
  cases x with
  | none => simp [maybeNextId]
  | some x => simp [maybeNextId, Int.add_one_le_iff]

@[simp] theorem atMost_maybePreviousId : AtMost (maybePreviousId x) n ↔ ∀ m ∈ x, n < m := by
  cases x with
  | none => simp [maybePreviousId]
  | some x => simp [maybePreviousId, Int.le_sub_one_iff]

theorem encodeCompactUuid_zero_le_iff : encodeCompactUuid m 0 ≤ n ↔ m ≤ n >>> (8 : ℕ) := by
  rw [encodeCompactUuid, Int.shiftLeft_eq, Int.shiftRight_eq_div_pow]
  omega

theorem le_encodeCompactUuid_iff : n ≤ encodeCompactUuid m 255 ↔ n >>> (8 : ℕ) ≤ m := by
  rw [encodeCompactUuid, Int.shiftLeft_eq, Int.shiftRight_eq_div_pow]
  omega

@[simp] theorem atLeast_maybeEncodeCompactUuid :
    AtLeast (maybeEncodeCompactUuid x 0) n ↔ ∀ m ∈ x, m ≤ n >>> (8 : ℕ) := by
  cases x with
  | none => simp [maybeEncodeCompactUuid]
  | some x => simp [maybeEncodeCompactUuid, encodeCompactUuid_zero_le_iff]

@[simp] theorem atMost_maybeEncodeCompactUuid :
    AtMost (maybeEncodeCompactUuid x 255) n ↔ ∀ m ∈ x, n >>> (8 : ℕ) ≤ m := by
  cases x with
  | none => simp [maybeEncodeCompactUuid]
  | some x => simp [maybeEncodeCompactUuid, le_encodeCompactUuid_iff]

/-! ## The range -/

/-- What a lookup asks for: the bounds that are given. -/
structure InRange (borders : Option MamBorders) (startTs endTs : Option ℤ) (n : ℤ) : Prop where
  start : ∀ start ∈ startTs, start ≤ n >>> (8 : ℕ)
  stop : ∀ stop ∈ endTs, n >>> (8 : ℕ) ≤ stop
  after : ∀ id ∈ borders.bind MamBorders.afterId, id < n
  before : ∀ id ∈ borders.bind MamBorders.beforeId, n < id
  since : ∀ id ∈ borders.bind MamBorders.fromId, id ≤ n
  upTo : ∀ id ∈ borders.bind MamBorders.toId, n ≤ id

variable {borders : Option MamBorders}

theorem atLeast_applyStartBorder : AtLeast (applyStartBorder borders x) n ↔
    AtLeast x n ∧ (∀ id ∈ borders.bind MamBorders.afterId, id < n) ∧
      ∀ id ∈ borders.bind MamBorders.fromId, id ≤ n := by
  cases borders with
  | none => simp [applyStartBorder]
  | some borders =>
    rw [applyStartBorder, atLeast_maybeMax, atLeast_maybeMax, atLeast_maybeNextId]
    exact ⟨fun ⟨hafter, hsince, hx⟩ => ⟨hx, hafter, hsince⟩,
      fun ⟨hx, hafter, hsince⟩ => ⟨hafter, hsince, hx⟩⟩

theorem atMost_applyEndBorder : AtMost (applyEndBorder borders x) n ↔
    AtMost x n ∧ (∀ id ∈ borders.bind MamBorders.beforeId, n < id) ∧
      ∀ id ∈ borders.bind MamBorders.toId, n ≤ id := by
  cases borders with
  | none => simp [applyEndBorder]
  | some borders =>
    rw [applyEndBorder, atMost_maybeMin, atMost_maybeMin, atMost_maybePreviousId]
    exact ⟨fun ⟨hbefore, hupTo, hx⟩ => ⟨hx, hbefore, hupTo⟩,
      fun ⟨hx, hbefore, hupTo⟩ => ⟨hbefore, hupTo, hx⟩⟩

/-- **The borders select the range that is asked for**, and the encoder computes the same ones. -/
theorem borders_select_iff (borders : Option MamBorders) (startTs endTs : Option ℤ) :
    (∀ n, Between (calculateMsgIdBorders borders startTs endTs) n ↔
    InRange borders startTs endTs n) ∧
    ∀ n, Between (extendLookupParams ⟨startTs, endTs, borders⟩) n ↔
    InRange borders startTs endTs n := by
  have hrange (n : ℤ) : Between (calculateMsgIdBorders borders startTs endTs) n ↔
      InRange borders startTs endTs n := by
    rw [Between, calculateMsgIdBorders, atLeast_applyStartBorder, atMost_applyEndBorder,
      atLeast_maybeEncodeCompactUuid, atMost_maybeEncodeCompactUuid]
    constructor
    · rintro ⟨⟨hstart, hafter, hsince⟩, hstop, hbefore, hupTo⟩
      exact ⟨hstart, hstop, hafter, hbefore, hsince, hupTo⟩
    · rintro ⟨hstart, hstop, hafter, hbefore, hsince, hupTo⟩
      exact ⟨⟨hstart, hafter, hsince⟩, hstop, hbefore, hupTo⟩
  exact ⟨hrange, hrange⟩

/-- All six bounds, of which the ids are the tighter ones. -/
example : calculateMsgIdBorders (some ⟨some 600, some 800, some 520, some 900⟩) (some 2) (some 3) =
    (some 601, some 799) := by decide

end MongooseIM.Mam.Borders
