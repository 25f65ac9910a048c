import Mathlib.Algebra.GroupWithZero.Nat
import Mathlib.Algebra.Order.BigOperators.Group.List
import Mathlib.Algebra.Order.Group.Int
import Mathlib.Algebra.Order.Group.Nat
import Mathlib.Data.List.Induction
import MongooseIM.Erlang.Integers
import MongooseIM.Muc.Presence
import MongooseIM.Xmpp.Query

/-! # The history of a room

A room keeps its last messages in a queue of bounded length. Who joins gets the end of it, and can
ask for less by four limits. -/

namespace MongooseIM.Muc

open Erlang Xmpp List

/-- `#lqueue{}` -/
structure Lqueue (α : Type*) where
  queue : List α
  len : ℕ
  max : ℕ
  len_eq : len = queue.length
  len_le : len ≤ max

namespace Lqueue

variable {α : Type*}

/-- `lqueue_new/1` -/
def new (max : ℕ) : Lqueue α := ⟨[], 0, max, rfl, Nat.zero_le max⟩

/-- `lqueue_cut/2` -/
def cut : List α → ℕ → List α
  | q, 0 => q
  | q, n + 1 => cut q.tail n

theorem cut_eq_drop (q : List α) (n : ℕ) : cut q n = q.drop n := by
  induction n generalizing q with
  | zero => rfl
  | succ n ih => rw [cut, ih, drop_tail]

theorem length_cut (q : List α) (n : ℕ) : (cut q n).length = q.length - n := by
  rw [cut_eq_drop, length_drop]

variable (item : α)

theorem length_of_full {lq : Lqueue α} (h : lq.max ≤ lq.len) :
    lq.max = (cut (lq.queue ++ [item]) (lq.len - lq.max + 1)).length := by
  have hlen := lq.len_eq
  rw [length_cut, length_append, length_singleton]
  omega

variable (lq : Lqueue α)

theorem length_concat : lq.len + 1 = (lq.queue ++ [item]).length := by
  rw [length_append, length_singleton, lq.len_eq]

/-- `lqueue_in/2` -/
def enqueue (item : α) (lq : Lqueue α) : Lqueue α :=
  if lq.max = 0 then lq
  else if h : lq.max ≤ lq.len then
    { queue := cut (lq.queue ++ [item]) (lq.len - lq.max + 1)
      len := lq.max
      max := lq.max
      len_eq := length_of_full item h
      len_le := le_rfl }
  else
    { queue := lq.queue ++ [item]
      len := lq.len + 1
      max := lq.max
      len_eq := length_concat item lq
      len_le := Nat.not_le.1 h }

theorem max_enqueue : (lq.enqueue item).max = lq.max := by
  unfold enqueue
  split_ifs <;> rfl

theorem queue_enqueue : (lq.enqueue item).queue =
    (lq.queue ++ [item]).drop (lq.queue.length + 1 - lq.max) := by
  have hlen := lq.len_eq
  have hle := lq.len_le
  unfold enqueue
  split_ifs with hzero hfull
  · -- a queue for nothing stays empty
    have hnil : lq.queue = [] := eq_nil_of_length_eq_zero (by omega)
    simp [hnil, hzero]
  · show cut (lq.queue ++ [item]) (lq.len - lq.max + 1) = _
    rw [cut_eq_drop]
    congr 1
    omega
  · rw [show lq.queue.length + 1 - lq.max = 0 by omega, drop_zero]

theorem max_foldl (items : List α) (lq : Lqueue α) :
    (items.foldl (fun q item => q.enqueue item) lq).max = lq.max := by
  induction items generalizing lq with
  | nil => rfl
  | cons item items ih => rw [foldl_cons, ih, max_enqueue]

/-- **The queue has the last items**, as many as fit. -/
theorem queue_foldl_new (size : ℕ) (items : List α) :
    (items.foldl (fun q item => q.enqueue item) (new size)).queue =
    items.drop (items.length - size) := by
  induction items using reverseRecOn with
  | nil => exact drop_nil.symm
  | append_singleton items item ih =>
    rw [foldl_concat, queue_enqueue, ih, max_foldl, length_append, length_singleton, length_drop]
    show _ = (items ++ [item]).drop (items.length + 1 - size)
    rw [← drop_append_of_le_length (Nat.sub_le _ _), drop_drop]
    congr 1
    show items.length - size + (items.length - (items.length - size) + 1 - size) = _
    omega

end Lqueue

/-- A message of the history: `{Nick, Packet, HaveSubject, TimeStamp, Size}`. -/
structure HistoryItem where
  nick : Nick
  packet : Element
  haveSubject : Bool
  timeStamp : ℤ
  size : ℕ

/-- What comes from outside. -/
structure HistoryLib where
  /-- `calendar:system_time_to_rfc3339/2` of seconds -/
  systemTimeToRfc3339 : ℤ → String
  /-- `calendar:rfc3339_to_system_time/1`; none when it fails. -/
  rfc3339ToSystemTime : String → Option ℤ
  elementSize : Element → ℕ

/-- A message that is added, with the configuration and the time at that moment. -/
structure Added where
  fromNick : Nick
  fromJid : Jid
  packet : Element
  /-- `#config.anonymous` -/
  anonymous : Bool
  systemTime : ℤ

/-- `timestamp_to_xml/3` without a text -/
def timestampToXml (timestamp : String) (fromJid : Jid) : Element :=
  .mk "delay" [("from", fromJid.toBinary), ("xmlns", nsDelay), ("stamp", timestamp)] [] ""

variable (lib : HistoryLib) (roomJid : Jid)

/-- What `add_message_to_history/4` puts into the queue. -/
def historyItem (m : Added) : HistoryItem :=
  let senderJid := if m.anonymous then roomJid else m.fromJid
  let tsPacket : Element := .mk m.packet.name m.packet.attrs
    (m.packet.children ++ [timestampToXml (lib.systemTimeToRfc3339 m.systemTime) senderJid])
    m.packet.cdata
  let sPacket := replaceFromTo (roomJid.replaceResourceNoprep m.fromNick) (some roomJid) tsPacket
  { nick := m.fromNick
    packet := tsPacket
    haveSubject := (m.packet.subelement "subject").isSome
    timeStamp := m.systemTime
    size := lib.elementSize sPacket }

/-- `add_message_to_history/4` -/
def addMessageToHistory (history : Lqueue HistoryItem) (m : Added) : Lqueue HistoryItem :=
  history.enqueue (historyItem lib roomJid m)

/-- The history of a room that was started with a size, after some messages. -/
def historyAfter (size : ℕ) (added : List Added) : Lqueue HistoryItem :=
  added.foldl (addMessageToHistory lib roomJid) (Lqueue.new size)

/-- `parse_history_val/2`; none for `false`. -/
def parseHistoryVal (attrVal : String) (type : String) : Option ℕ :=
  let parsed := if type = "since" then lib.rfc3339ToSystemTime attrVal else binaryToInteger attrVal
  match parsed with
  | some intVal => if 0 ≤ intVal then some intVal.toNat else none
  | none => none

/-- `extract_history/2`; none for `false`. -/
def extractHistory (lib : HistoryLib) (type : String) : List Element → Option ℕ
  | [] => none
  | el :: els =>
    if el.attrD "xmlns" "" = nsMuc then
      parseHistoryVal lib
        (match el.subelement "history" with
        | some history => history.attrD type ""
        | none => "") type
    else extractHistory lib type els

/-- `count_seconds_shift/2` -/
def countSecondsShift (seconds : ℤ) (historyList : List HistoryItem) : ℕ :=
  (historyList.map fun m => if m.timeStamp < seconds then 1 else 0).sum

/-- `count_maxstanzas_shift/2` -/
def countMaxstanzasShift (maxStanzas : ℕ) (historyList : List HistoryItem) : ℕ :=
  historyList.length - maxStanzas

/-- `calc_shift/4` -/
def calcShift (maxSize : ℕ) : (size shift : ℕ) → List ℕ → ℕ
  | _, shift, [] => shift
  | size, shift, s :: sizes =>
    if size ≤ maxSize then shift else calcShift maxSize (size - s) (shift + 1) sizes

variable (nick : Nick)

/-- What a message counts for `maxchars`; the nick is that of the new occupant. -/
def charsOf (m : HistoryItem) : ℕ := m.size + (nick.utf8ByteSize + 1)

/-- `count_maxchars_shift/3`, with `calc_shift/2` -/
def countMaxcharsShift (maxSize : ℕ) (historyList : List HistoryItem) : ℕ :=
  calcShift maxSize (historyList.map (charsOf nick)).sum 0 (historyList.map (charsOf nick))

/-- The limits that a presence asks for. -/
structure Limits where
  since : Option ℕ
  seconds : Option ℕ
  maxStanzas : Option ℕ
  maxChars : Option ℕ
  deriving DecidableEq

/-- The limits in the children of a presence. -/
def limitsOf (els : List Element) : Limits where
  since := extractHistory lib "since" els
  seconds := extractHistory lib "seconds" els
  maxStanzas := extractHistory lib "maxstanzas" els
  maxChars := extractHistory lib "maxchars" els

/-- What the `history` element of the first child in the MUC namespace has for an attribute. -/
def requestedVal (els : List Element) (type : String) : Option String :=
  (els.find? fun el => el.attrD "xmlns" "" = nsMuc).map fun x =>
    (x.subelement "history").elim "" fun history => history.attrD type ""

/-- The limits that the children of a presence ask for: a time, and three numbers that are not
negative. -/
structure AsksFor (els : List Element) (limits : Limits) : Prop where
  since : ∀ n : ℕ, limits.since = some n ↔
    (requestedVal els "since").bind lib.rfc3339ToSystemTime = some (n : ℤ)
  seconds : ∀ n : ℕ, limits.seconds = some n ↔
    (requestedVal els "seconds").bind binaryToInteger = some (n : ℤ)
  maxStanzas : ∀ n : ℕ, limits.maxStanzas = some n ↔
    (requestedVal els "maxstanzas").bind binaryToInteger = some (n : ℤ)
  maxChars : ∀ n : ℕ, limits.maxChars = some n ↔
    (requestedVal els "maxchars").bind binaryToInteger = some (n : ℤ)

/-- A value is read as a number if it stands for one that is not negative. -/
theorem parseHistoryVal_eq_some_iff (attrVal type : String) (n : ℕ) :
    parseHistoryVal lib attrVal type = some n ↔
    (if type = "since" then lib.rfc3339ToSystemTime attrVal else binaryToInteger attrVal) =
      some (n : ℤ) := by
  unfold parseHistoryVal
  cases (if type = "since" then lib.rfc3339ToSystemTime attrVal else binaryToInteger attrVal) with
  | none => simp
  | some intVal =>
    simp only [Option.some_inj]
    split_ifs with hsign
    · rw [Option.some_inj]
      omega
    · refine iff_of_false not_false fun heq => hsign ?_
      omega

/-- The value that is read is the one that is requested. -/
theorem extractHistory_eq (type : String) (els : List Element) :
    extractHistory lib type els =
    (requestedVal els type).bind fun attrVal => parseHistoryVal lib attrVal type := by
  induction els with
  | nil => rfl
  | cons el els ih =>
    rw [extractHistory, requestedVal, find?_cons]
    by_cases hmuc : el.attrD "xmlns" "" = nsMuc
    · simp only [hmuc, if_true, decide_true, Option.map_some, Option.bind_some]
      cases el.subelement "history" <;> rfl
    · simp only [hmuc, if_false, decide_false]
      exact ih

theorem extractHistory_eq_some_iff (type : String) (els : List Element) (n : ℕ) :
    extractHistory lib type els = some n ↔ (requestedVal els type).bind (fun attrVal =>
    if type = "since" then lib.rfc3339ToSystemTime attrVal else binaryToInteger attrVal) =
      some (n : ℤ) := by
  rw [extractHistory_eq]
  cases requestedVal els type with
  | none => simp
  | some attrVal => exact parseHistoryVal_eq_some_iff lib attrVal type n

/-- The limits that are read are the ones that are asked for. -/
theorem asksFor_iff (els : List Element) (limits : Limits) :
    AsksFor lib els limits ↔ limits = limitsOf lib els := by
  have hsince := extractHistory_eq_some_iff lib "since" els
  have hseconds := extractHistory_eq_some_iff lib "seconds" els
  have hstanzas := extractHistory_eq_some_iff lib "maxstanzas" els
  have hchars := extractHistory_eq_some_iff lib "maxchars" els
  constructor
  · intro h
    have h1 : limits.since = (limitsOf lib els).since :=
      Option.ext fun n => (h.since n).trans (hsince n).symm
    have h2 : limits.seconds = (limitsOf lib els).seconds :=
      Option.ext fun n => (h.seconds n).trans (hseconds n).symm
    have h3 : limits.maxStanzas = (limitsOf lib els).maxStanzas :=
      Option.ext fun n => (h.maxStanzas n).trans (hstanzas n).symm
    have h4 : limits.maxChars = (limitsOf lib els).maxChars :=
      Option.ext fun n => (h.maxChars n).trans (hchars n).symm
    cases limits
    simp only at h1 h2 h3 h4
    rw [h1, h2, h3, h4]
  · rintro rfl
    exact ⟨hsince, hseconds, hstanzas, hchars⟩

/-- `count_stanza_shift/3`, at a time. -/
def countStanzaShift (now : ℤ) (nick : Nick) (els : List Element) (hl : List HistoryItem) : ℕ :=
  let limits := limitsOf lib els
  let shift0 := limits.since.elim 0 fun since => countSecondsShift since hl
  let shift1 := limits.seconds.elim 0 fun seconds => countSecondsShift (now - seconds) hl
  let shift2 := limits.maxStanzas.elim 0 fun n => countMaxstanzasShift n hl
  let shift3 := limits.maxChars.elim 0 fun n => countMaxcharsShift nick n hl
  max (max shift0 shift1) (max shift2 shift3)

/-- A message that the room sends under a nick. -/
structure HistoryRouted where
  nick : Nick
  recipient : Jid
  packet : Element

/-- `lists:nthtail/2`; none when the list is too short. -/
def nthtail {α : Type*} (n : ℕ) (l : List α) : Option (List α) :=
  if n ≤ l.length then some (l.drop n) else none

/-- `send_history/3`: what is sent, and whether there was a subject; none when it fails. -/
def sendHistory (jid : Jid) (shift : ℕ) (history : Lqueue HistoryItem) :
    Option (List HistoryRouted × Bool) :=
  (nthtail shift history.queue).map fun items =>
    (items.map fun m => ⟨m.nick, jid, m.packet⟩, items.any HistoryItem.haveSubject)

variable {hl : List HistoryItem}

/-- Messages of a time or later are left when those before it are left out. -/
theorem countSecondsShift_le_iff
    (hsorted : hl.Pairwise fun a b => a.timeStamp ≤ b.timeStamp) (seconds : ℤ) (k : ℕ) :
    countSecondsShift seconds hl ≤ k ↔ ∀ m ∈ hl.drop k, seconds ≤ m.timeStamp := by
  induction hl generalizing k with
  | nil => simp [countSecondsShift]
  | cons m hl ih =>
    obtain ⟨hle, hrest⟩ := pairwise_cons.1 hsorted
    have hcount : countSecondsShift seconds (m :: hl) =
        (if m.timeStamp < seconds then 1 else 0) + countSecondsShift seconds hl := by
      rw [countSecondsShift, map_cons, sum_cons]
      rfl
    rw [hcount]
    -- the messages are in order, so the old ones are counted from the front
    by_cases hold : m.timeStamp < seconds
    · rw [if_pos hold]
      cases k with
      | zero =>
        refine ⟨fun h => by omega, fun h => absurd (h m mem_cons_self) (not_le.2 hold)⟩
      | succ k => rw [drop_succ_cons, ← ih hrest k, Nat.add_comm, Nat.add_le_add_iff_right]
    · -- the others are not older
      have hall : ∀ other ∈ m :: hl, seconds ≤ other.timeStamp := by
        intro other hother
        rcases mem_cons.1 hother with rfl | hother
        · exact not_lt.1 hold
        · exact (not_lt.1 hold).trans (hle other hother)
      have hzero : countSecondsShift seconds hl ≤ 0 :=
        (ih hrest 0).2 fun other hother => hall other (mem_cons_of_mem m hother)
      rw [if_neg hold]
      exact ⟨fun _ other hother => hall other (mem_of_mem_drop hother), fun _ => by omega⟩

theorem countMaxstanzasShift_le_iff (hl : List HistoryItem) (maxStanzas k : ℕ) :
    countMaxstanzasShift maxStanzas hl ≤ k ↔ (hl.drop k).length ≤ maxStanzas := by
  rw [countMaxstanzasShift, length_drop]
  omega

theorem le_calcShift (maxSize size shift : ℕ) (sizes : List ℕ) :
    shift ≤ calcShift maxSize size shift sizes := by
  induction sizes generalizing size shift with
  | nil => exact le_rfl
  | cons s sizes ih =>
    rw [calcShift]
    split
    · exact le_rfl
    · exact (Nat.le_succ shift).trans (ih _ _)

/-- A total fits when as many sizes as the shift are left out. -/
theorem calcShift_le_iff (maxSize shift : ℕ) (sizes : List ℕ) (k : ℕ) :
    calcShift maxSize sizes.sum shift sizes ≤ shift + k ↔ (sizes.drop k).sum ≤ maxSize := by
  induction sizes generalizing shift k with
  | nil => simp [calcShift]
  | cons s sizes ih =>
    rw [calcShift]
    -- the size is that of what is left, so the loop ends where it fits
    by_cases hfits : (s :: sizes).sum ≤ maxSize
    · have hdrop : ((s :: sizes).drop k).sum ≤ (s :: sizes).sum :=
        (drop_sublist k _).sum_le_sum fun _ _ => Nat.zero_le _
      rw [if_pos hfits]
      exact ⟨fun _ => hdrop.trans hfits, fun _ => Nat.le_add_right _ _⟩
    · rw [if_neg hfits, sum_cons, Nat.add_sub_cancel_left]
      cases k with
      | zero =>
        have hlow := le_calcShift maxSize sizes.sum (shift + 1) sizes
        exact ⟨fun h => by omega, fun h => absurd h hfits⟩
      | succ k =>
        rw [drop_succ_cons, ← ih (shift + 1) k]
        omega

theorem countMaxcharsShift_le_iff (hl : List HistoryItem) (maxSize k : ℕ) :
    countMaxcharsShift nick maxSize hl ≤ k ↔ ((hl.drop k).map (charsOf nick)).sum ≤ maxSize := by
  have hshift := calcShift_le_iff maxSize 0 (hl.map (charsOf nick)) k
  rwa [Nat.zero_add, ← map_drop] at hshift

/-- What a new occupant may get of the history. -/
structure Admissible (limits : Limits) (now : ℤ) (nick : Nick) (items : List HistoryItem) :
    Prop where
  since : ∀ since ∈ limits.since, ∀ m ∈ items, (since : ℤ) ≤ m.timeStamp
  seconds : ∀ seconds ∈ limits.seconds, ∀ m ∈ items, now - (seconds : ℤ) ≤ m.timeStamp
  maxStanzas : ∀ n ∈ limits.maxStanzas, items.length ≤ n
  maxChars : ∀ n ∈ limits.maxChars, (items.map (charsOf nick)).sum ≤ n

theorem elim_le_iff {shift : ℕ → ℕ} {ok : ℕ → Prop} {k : ℕ} (h : ∀ n, shift n ≤ k ↔ ok n)
    (limit : Option ℕ) : limit.elim 0 shift ≤ k ↔ ∀ n ∈ limit, ok n := by
  cases limit with
  | none => simp
  | some n => simp [h]

section

variable {hl : List HistoryItem} (lib : HistoryLib) (now : ℤ) (nick : Nick) (els : List Element)
    (hsorted : hl.Pairwise fun a b => a.timeStamp ≤ b.timeStamp)

include hsorted

/-- **What is left of a history is admissible when at least the shift is left out.** -/
theorem drop_admissible_iff (k : ℕ) : Admissible (limitsOf lib els) now nick (hl.drop k) ↔
    countStanzaShift lib now nick els hl ≤ k := by
  have hsince := elim_le_iff (fun n => countSecondsShift_le_iff hsorted (n : ℤ) k)
    (limitsOf lib els).since
  have hseconds := elim_le_iff (fun n => countSecondsShift_le_iff hsorted (now - (n : ℤ)) k)
    (limitsOf lib els).seconds
  have hstanzas := elim_le_iff (fun n => countMaxstanzasShift_le_iff hl n k)
    (limitsOf lib els).maxStanzas
  have hchars := elim_le_iff (fun n => countMaxcharsShift_le_iff nick hl n k)
    (limitsOf lib els).maxChars
  simp only [countStanzaShift, max_le_iff, hsince, hseconds, hstanzas, hchars]
  constructor
  · rintro ⟨h1, h2, h3, h4⟩
    exact ⟨⟨h1, h2⟩, h3, h4⟩
  · rintro ⟨⟨h1, h2⟩, h3, h4⟩
    exact ⟨h1, h2, h3, h4⟩

/-- Nothing at all is admissible, so the shift is not too large. -/
theorem countStanzaShift_le_length : countStanzaShift lib now nick els hl ≤ hl.length := by
  rw [← drop_admissible_iff lib now nick els hsorted, drop_length]
  exact ⟨fun _ _ _ hm => absurd hm not_mem_nil, fun _ _ _ hm => absurd hm not_mem_nil,
    fun _ _ => Nat.zero_le _, fun _ _ => Nat.zero_le _⟩

end

/-- The longest admissible end of a history. -/
structure Longest (limits : Limits) (now : ℤ) (nick : Nick) (history items : List HistoryItem) :
    Prop where
  suffix : items <:+ history
  admissible : Admissible limits now nick items
  longest : ∀ other, other <:+ history → Admissible limits now nick other →
    other.length ≤ items.length

theorem longest_drop (lib : HistoryLib) (now : ℤ) (nick : Nick) (els : List Element)
    (hsorted : hl.Pairwise fun a b => a.timeStamp ≤ b.timeStamp) :
    Longest (limitsOf lib els) now nick hl (hl.drop (countStanzaShift lib now nick els hl)) where
  suffix := drop_suffix _ hl
  admissible := (drop_admissible_iff lib now nick els hsorted _).2 le_rfl
  longest other hother hok := by
    -- another end leaves out at least the shift
    rw [suffix_iff_eq_drop.1 hother, drop_admissible_iff lib now nick els hsorted] at hok
    have hlen := hother.length_le
    rw [length_drop]
    omega

theorem queue_historyAfter (size : ℕ) (added : List Added) :
    (historyAfter lib roomJid size added).queue =
    (added.map (historyItem lib roomJid)).drop (added.length - size) := by
  have hmap := Lqueue.queue_foldl_new size (added.map (historyItem lib roomJid))
  rw [foldl_map, length_map] at hmap
  exact hmap

mutual

/-- `exml:xml_size/1` of an element whose text needs no escapes -/
def xmlSize : Element → ℕ
  | .mk name attrs children cdata =>
    (attrs.map fun a => a.1.utf8ByteSize + a.2.utf8ByteSize + 4).sum +
      if children.isEmpty && cdata = "" then name.utf8ByteSize + 3
      else 2 * name.utf8ByteSize + 5 + xmlSizes children + cdata.utf8ByteSize

/-- `exml:xml_size/1` of a list of elements -/
def xmlSizes : List Element → ℕ
  | [] => 0
  | el :: els => xmlSize el + xmlSizes els

end

/-- One second of July 2017 after another. -/
def julyLib : HistoryLib where
  systemTimeToRfc3339 t :=
    if t = 1500000000 then "2017-07-14T02:40:00Z" else
    if t = 1500000001 then "2017-07-14T02:40:01Z" else "2017-07-14T02:40:02Z"
  rfc3339ToSystemTime s := if s = "2017-07-14T02:40:01Z" then some 1500000001 else none
  elementSize := xmlSize

/-- A message from an occupant. -/
def julyMessage (body : String) (systemTime : ℤ) : Added where
  fromNick := "host"
  fromJid := ⟨"host", "localhost", "phone"⟩
  packet := .mk "message" [("type", "groupchat")] [.mk "body" [] [] body] ""
  anonymous := true
  systemTime

/-- The address of the room. -/
def julyRoom : Jid := ⟨"lobby", "muc.localhost", ""⟩

/-- Three messages. -/
def julyMessages : List Added :=
  [julyMessage "one" 1500000000, julyMessage "two" 1500000001, julyMessage "three" 1500000002]

/-- An occupant asks for the messages since the second one, and for at most one. -/
def julyRequest : List Element :=
  [.mk "status" [] [] "here", .mk "x" [("xmlns", nsMuc)] [.mk "history"
    [("maxstanzas", "1"), ("since", "2017-07-14T02:40:01Z")] [] ""] ""]

end MongooseIM.Muc
