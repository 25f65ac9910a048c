import Mathlib.Data.Int.ModEq
import Mathlib.Tactic.Ring
import MongooseIM.Erlang.Integers
import MongooseIM.Xmpp.Stanza

/-! # The state of stream management

`#sm_state{}`, the buffer of stanzas that the client has not acknowledged with its counters, and
the functions of `mod_stream_management` that only read and change this record. -/

namespace MongooseIM.StreamManagement

open Xmpp
open Erlang (binaryToInteger)

/-- `?STREAM_MGMT_H_MAX` -/
def hMax : ℕ := 2 ^ 32 - 1

/-- `buffer_max()` -/
inductive BufferMax
  | limit (n : ℕ)
  | infinity
  | noBuffer
  deriving DecidableEq

/-- `ack_freq()` -/
inductive AckFreq
  | every (n : ℕ)
  | never

/-- `gen_statem:from()`: who waits for the reply to a call. -/
structure From where
  pid : ℕ
  tag : ℕ
  deriving DecidableEq

/-- The other session of a resumption. -/
inductive Peer
  | undefined
  /-- `{gen_statem, From}`: the session that resumed this one -/
  | genStatem (sender : From)
  /-- `{sid, SID}`: the session that this one resumed -/
  | sid (sid : Sid)

/-- `#sm_state{}` -/
structure SmState where
  /-- The stanzas that wait for an ack, the newest first. -/
  buffer : List Acc := []
  bufferSize : ℕ := 0
  counterIn : ℕ := 0
  counterOut : ℕ := 0
  bufferMax : BufferMax := .limit 100
  ackFreq : AckFreq := .every 1
  peer : Peer := .undefined

/-! ## Elements of the protocol -/

/-- `?NS_STREAM_MGNT_3` -/
def nsStreamMgnt : String := "urn:xmpp:sm:3"

/-- `stream_mgmt_enabled/1`, with no other attributes than the given ones. -/
def streamMgmtEnabled (attrs : List (String × String)) : Element :=
  .mk "enabled" (putAttr "xmlns" nsStreamMgnt attrs) [] ""

/-- `stream_mgmt_resumed/2` -/
def streamMgmtResumed (smid : String) (handled : ℕ) : Element :=
  .mk "resumed" [("xmlns", nsStreamMgnt), ("previd", smid), ("h", toString handled)] [] ""

/-- `stream_mgmt_failed/2` -/
def streamMgmtFailed (reason : String) (attrs : List (String × String)) : Element :=
  .mk "failed" (putAttr "xmlns" nsStreamMgnt attrs) [.mk reason [("xmlns", nsStanzas)] [] ""] ""

/-- `stream_mgmt_ack/1` -/
def streamMgmtAck (incoming : ℕ) : Element :=
  .mk "a" [("xmlns", nsStreamMgnt), ("h", toString incoming)] [] ""

/-- `stream_mgmt_request/0` -/
def streamMgmtRequest : Element := .mk "r" [("xmlns", nsStreamMgnt)] [] ""

/-- `sm_handled_count_too_high_stanza/2` -/
def smHandledCountTooHighStanza (handled oldAcked : ℕ) : Element :=
  .mk "handled-count-too-high"
    [("xmlns", nsStreamMgnt), ("h", toString handled), ("send-count", toString oldAcked)] [] ""

/-! ## Counters and acks -/

/-- `incr_counter/1` -/
def incrCounter (incoming : ℕ) : ℕ :=
  if incoming < hMax - 1 then incoming + 1 else 0

variable (acked oldAcked : ℕ)

/-- `calc_to_drop/2` -/
def calcToDrop : ℤ :=
  if oldAcked ≤ acked then acked - oldAcked else acked + hMax - oldAcked + 1

/-- What `do_handle_ack/2` returns. -/
inductive AckResult
  | ok (smState : SmState)
  /-- `{error, ErrorStanza, {shutdown, sm_handled_count_too_high_stanza}}` -/
  | error (errorStanza : Element)
  /-- `lists:split/2` crashed: the size to keep exceeds the buffer. -/
  | badarg

variable (smState : SmState)

/-- `do_handle_ack/2` -/
def doHandleAck (acked : ℕ) : AckResult :=
  let toDrop := calcToDrop acked smState.counterOut
  if smState.bufferSize < toDrop then
    .error ((streamErrort "undefined-condition"
      "You acknowledged more stanzas that what has been sent").addChild
      (smHandledCountTooHighStanza acked smState.counterOut))
  else
    let newSize := (smState.bufferSize - toDrop).toNat
    if newSize ≤ smState.buffer.length then
      .ok { smState with
        counterOut := acked, bufferSize := newSize, buffer := smState.buffer.take newSize }
    else .badarg

/-- What an ack drops is the difference of the counters modulo `2 ^ 32`. -/
theorem calcToDrop_modEq : calcToDrop acked oldAcked ≡ acked - oldAcked [ZMOD 2 ^ 32] := by
  rw [calcToDrop]
  split
  · rfl
  · have h : ((acked : ℤ) + hMax - oldAcked + 1) = (acked - oldAcked) + 2 ^ 32 := by
      rw [hMax]
      push_cast
      ring
    rw [h]
    exact Int.add_emod_right _ _

/-- An ack below `2 ^ 32` never drops `2 ^ 32` stanzas. -/
theorem calcToDrop_lt {acked oldAcked : ℕ} (h : acked < 2 ^ 32) :
    calcToDrop acked oldAcked < 2 ^ 32 := by
  rw [calcToDrop, hMax]
  split <;> omega

section

variable {s s' : SmState} {acked : ℕ} (h : doHandleAck s acked = .ok s')

include h

/-- An accepted ack keeps the oldest counter plus the size of the buffer, modulo `2 ^ 32`. -/
theorem doHandleAck_ok : ∃ newSize ≤ s.buffer.length,
    (newSize : ℤ) = s.bufferSize - calcToDrop acked s.counterOut ∧
    s' = { s with
      counterOut := acked, bufferSize := newSize, buffer := s.buffer.take newSize } := by
  simp only [doHandleAck] at h
  split at h
  · cases h
  · next hdrop =>
    split at h
    · next hle =>
      obtain rfl := AckResult.ok.inj h
      refine ⟨_, hle, ?_, rfl⟩
      exact Int.toNat_of_nonneg (by omega)
    · cases h

/-- The last ack and the size of the buffer together count what was sent. -/
theorem doHandleAck_sent :
    s'.counterOut + s'.bufferSize ≡ s.counterOut + s.bufferSize [MOD 2 ^ 32] := by
  obtain ⟨newSize, -, hsize, rfl⟩ := doHandleAck_ok h
  rw [← Int.natCast_modEq_iff]
  push_cast
  rw [hsize]
  have hdrop := calcToDrop_modEq acked s.counterOut
  calc (acked : ℤ) + (s.bufferSize - calcToDrop acked s.counterOut)
      ≡ acked + (s.bufferSize - (acked - s.counterOut)) [ZMOD 2 ^ 32] :=
        (hdrop.sub_left _).add_left _
    _ = s.counterOut + s.bufferSize := by ring

/-- An accepted ack keeps the size of the buffer right. -/
theorem doHandleAck_length : s'.bufferSize = s'.buffer.length := by
  obtain ⟨newSize, hle, -, rfl⟩ := doHandleAck_ok h
  rw [List.length_take, Nat.min_eq_left hle]

end

/-- **An honest ack is not refused.** A client that acknowledges at least what was dropped and at
most what was sent is not told that it acknowledged too many. -/
theorem doHandleAck_ne_error {s : SmState} {sent received : ℕ}
    (hsent : sent ≡ s.counterOut + s.bufferSize [MOD 2 ^ 32]) (hle : received ≤ sent)
    (hlast : sent ≤ received + s.bufferSize) (e : Element) :
    doHandleAck s (received % 2 ^ 32) ≠ .error e := by
  have hpos : received % 2 ^ 32 < 2 ^ 32 := Nat.mod_lt received (by decide)
  have hlt : calcToDrop (received % 2 ^ 32) s.counterOut < 2 ^ 32 := calcToDrop_lt hpos
  have hdrop := calcToDrop_modEq (received % 2 ^ 32) s.counterOut
  have hle : calcToDrop (received % 2 ^ 32) s.counterOut ≤ s.bufferSize := by
    rw [Int.ModEq] at hdrop
    rw [Nat.ModEq] at hsent
    omega
  simp only [doHandleAck, if_neg (not_lt.2 hle)]
  split <;> simp

/-! ## The buffer -/

/-- `is_buffer_full/2` -/
def isBufferFull (bufferSize : ℕ) : BufferMax → Bool
  | .infinity => false
  | .limit bufferMax => !decide (bufferSize ≤ bufferMax)
  -- the term order puts every number before the atom
  | .noBuffer => false

/-- `build_sm_handler/1` -/
def buildSmHandler (bufferMax : BufferMax) (ackFreq : AckFreq) : SmState :=
  { bufferMax := bufferMax, ackFreq := ackFreq }

/-- `prevent_buffer_duplication/2`: the accumulator with its reference, `none` for `duplicate`. -/
def preventBufferDuplication (newRef : ℕ) (acc : Acc) (smState : SmState) : Option Acc :=
  match acc.bufferRef with
  | none => some { acc with bufferRef := some newRef }
  | some ref => if smState.buffer.any fun b => b.bufferRef = some ref then none else some acc

/-- The buffer with one more stanza. -/
def SmState.push (acc : Acc) : SmState :=
  { smState with buffer := acc :: smState.buffer, bufferSize := smState.bufferSize + 1 }

variable (acc : Acc)

/-- `is_message/1` -/
def isMessage : Bool := acc.stanzaName = "message"

/-- `is_stanza_element/1` -/
def isStanzaElement : Bool := isStanzaName acc.stanzaName

/-- `maybe_buffer_acc/3` -/
def maybeBufferAcc (acc : Acc) : SmState :=
  if isMessage acc then smState.push acc else smState

/-- `recover_messages/1`, which takes the routed accumulators out of the mailbox. -/
def recoverMessages (routed : List Acc) : SmState :=
  routed.foldl maybeBufferAcc smState

/-- `sm_state_to_keep/2` -/
def smStateToKeep (sender : From) : SmState :=
  { smState with buffer := [], bufferSize := 0, peer := .genStatem sender }

/-- The hook `unacknowledged_message`, which pushes a notification and changes none of the fields
that are modelled. -/
def unacknowledgedMessage : Acc := acc

/-- `maybe_notify_unacknowledged_msg/2` -/
def maybeNotifyUnacknowledgedMsg : Acc :=
  if isMessage acc then unacknowledgedMessage acc else acc

/-- `notify_unacknowledged_messages/3` -/
def notifyUnacknowledgedMessages : SmState :=
  { smState with buffer := (smState.buffer.reverse.map maybeNotifyUnacknowledgedMsg).reverse }

/-- `maybe_add_timestamp/2` -/
def maybeAddTimestamp (lib : Library) (fromServer : Jid) (acc : Acc) : Acc :=
  if acc.stanzaName = "message" ∧ acc.stanzaType ≠ some "error" ∧ acc.stanzaType ≠ some "headline"
  then acc.updateStanza acc.fromJid acc.toJid
    (maybeAppendDelay lib acc.element fromServer acc.timestamp "SM Storage")
  else acc

/-- `get_all_stanzas_to_forward/2` -/
def getAllStanzasToForward (lib : Library) (smState : SmState) (lserver smid : String) :
    Element × List Element :=
  (streamMgmtResumed smid smState.counterIn,
    smState.buffer.reverse.map fun acc => (maybeAddTimestamp lib (.server lserver) acc).element)

/-- `stream_mgmt_parse_h/1`, `none` for `invalid_h_attribute`. -/
def streamMgmtParseH (el : Element) : Option ℕ :=
  match (el.attr? "h").bind binaryToInteger with
  | some (.ofNat h) => some h
  | _ => none

variable (smState : SmState)

@[simp] theorem length_push (acc : Acc) :
    (smState.push acc).buffer.length = smState.buffer.length + 1 := rfl

@[simp] theorem bufferSize_push (acc : Acc) :
    (smState.push acc).bufferSize = smState.bufferSize + 1 := rfl

@[simp] theorem maybeNotifyUnacknowledgedMsg_eq : maybeNotifyUnacknowledgedMsg acc = acc := by
  rw [maybeNotifyUnacknowledgedMsg, unacknowledgedMessage]
  split <;> rfl

@[simp] theorem notifyUnacknowledgedMessages_eq :
    notifyUnacknowledgedMessages smState = smState := by
  have hbuffer : (smState.buffer.reverse.map maybeNotifyUnacknowledgedMsg).reverse
      = smState.buffer := by
    rw [List.map_congr_left (g := id) fun acc _ => maybeNotifyUnacknowledgedMsg_eq acc]
    simp
  rw [notifyUnacknowledgedMessages, hbuffer]

/-- The accumulator that is buffered is the given one, with a reference. -/
theorem preventBufferDuplication_element {newRef : ℕ} {acc acc' : Acc} {smState : SmState}
    (h : preventBufferDuplication newRef acc smState = some acc') :
    acc'.element = acc.element := by
  rw [preventBufferDuplication] at h
  split at h
  · cases h
    rfl
  · split at h
    · cases h
    · cases h
      rfl

end MongooseIM.StreamManagement
