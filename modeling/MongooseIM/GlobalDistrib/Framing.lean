import Mathlib.Data.String.Basic
import MongooseIM.Erlang.Bytes
import MongooseIM.Erlang.Lists
import MongooseIM.Xmpp.Stanza

/-! # The connections between clusters

A packet for another cluster is sent over a connection with the key of its sender. A frame starts
with its size; the first frame introduces the sending host. The receiver gets the stream in chunks,
cut anywhere, keeps what is not a whole frame yet, and hands each packet to the worker of its key. -/

namespace MongooseIM.GlobalDistrib.Framing

open Erlang Xmpp List

variable {α : Type*}

/-- A packet `{From, To, Acc, Packet}`. -/
structure FPacket (α : Type*) where
  /-- `From` -/
  sender : Jid
  /-- `To` -/
  recipient : Jid
  acc : α
  packet : Element

/-- What comes from outside: the external term format and `exml`. -/
structure Lib (α : Type*) where
  termToBinary : FPacket α → Bytes
  binaryToTerm : Bytes → Option (FPacket α)
  /-- `exml:to_binary/1` -/
  toBinary : Element → Bytes
  /-- `exml:parse/1` -/
  parse : Bytes → Option Element

/-! ## Sending -/

/-- `recipient_to_worker_key/2` -/
def recipientToWorkerKey (j : Jid) (globalHost : String) : String :=
  if j.lserver = globalHost then j.toBinary else j.lserver

/-- `Data` in `mod_global_distrib_sender:send/2`. -/
def sentData (lib : Lib α) (globalHost : String) (p : FPacket α) : Bytes :=
  integerBytes 2 (utf8 (recipientToWorkerKey p.sender globalHost)).length ++
    utf8 (recipientToWorkerKey p.sender globalHost) ++ lib.termToBinary p

/-- `gd_start/2`, before it is written. -/
def gdStart (server connId : String) : Element :=
  .mk "gd_start" [("server", server), ("conn_id", connId)] [] ""

/-- A frame: its size, and what it contains. -/
def frame (data : Bytes) : Bytes := integerBytes 4 data.length ++ data

/-- What `mod_global_distrib_connection:handle_cast/2` sends: `Annotated` is a frame that starts
with the time. -/
def annotated (clockTime : ℕ) (data : Bytes) : Bytes :=
  integerBytes 4 (data.length + 8) ++ integerBytes 8 clockTime ++ data

theorem annotated_eq_frame (clockTime : ℕ) (data : Bytes) :
    annotated clockTime data = frame (integerBytes 8 clockTime ++ data) := by
  rw [annotated, frame, length_append, length_integerBytes, Nat.add_comm 8, append_assoc]

/-- The packets that a connection sends, each at its time. -/
def packetFrames (lib : Lib α) (globalHost : String) (sent : List (FPacket α × ℕ)) : Bytes :=
  sent.flatMap fun p => annotated p.2 (sentData lib globalHost p.1)

/-- All that a connection sends. -/
def stream (lib : Lib α) (globalHost server connId : String) (sent : List (FPacket α × ℕ)) :
    Bytes :=
  frame (lib.toBinary (gdStart server connId)) ++ packetFrames lib globalHost sent

/-! ## Receiving -/

/-- `any_binary_to_atom/1` -/
def anyBinaryToAtom (binary : Bytes) : Option Atom := binaryToAtom (base64Encode binary)

/-- A key is the name of a worker when base 64 does not make it too long for an atom. -/
theorem isSome_anyBinaryToAtom {binary : Bytes} :
    (anyBinaryToAtom binary).isSome ↔ binary.length ≤ 189 := by
  rw [anyBinaryToAtom, isSome_binaryToAtom, length_base64Encode]
  omega

/-- What a worker gets; `TransferTime` counts from the time in the frame. -/
structure Handed where
  /-- `BinFrom` -/
  workerKey : Bytes
  worker : Atom
  host : String
  clockTime : ℕ
  binTerm : Bytes

/-- `waiting_for` -/
inductive WaitingFor
  | header
  | size (size : ℕ)

/-- A size is taken after its header, and a header only after some frame. -/
def WaitingFor.weight : WaitingFor → ℕ
  | header => 0
  | size _ => 1

/-- How many bytes the loop needs to go on. -/
def WaitingFor.needed : WaitingFor → ℕ
  | header => 4
  | size n => n

/-- The state of `mod_global_distrib_receiver`, with what the workers got from it. -/
structure Receiver where
  waitingFor : WaitingFor := .header
  buffer : Bytes := []
  host : Option String := none
  connId : String := ""
  handed : List Handed := []

namespace Receiver

/-- The second clause of `handle_data/2`; none when a segment does not match or there is no worker
of that name. -/
def handlePacket (data : Bytes) (host : String) (s : Receiver) : Option Receiver :=
  if data.length < 10 then none
  else
    let binFromSize := decodeUnsigned ((data.drop 8).take 2)
    if (data.drop 10).length < binFromSize then none
    else (anyBinaryToAtom ((data.drop 10).take binFromSize)).map fun worker =>
      { s with handed := s.handed ++ [{
          workerKey := (data.drop 10).take binFromSize
          worker
          host
          clockTime := decodeUnsigned (data.take 8)
          binTerm := (data.drop 10).drop binFromSize }] }

/-- The first clause of `handle_data/2`. -/
def handleStart (lib : Lib α) (data : Bytes) (s : Receiver) : Option Receiver := do
  let el ← lib.parse data
  if el.name = "gd_start" then
    let host ← el.attr? "server"
    let connId ← el.attr? "conn_id"
    return { s with host := some host, connId }
  else none

/-- `handle_data/2`; none when the receiver crashes. -/
def handleData (lib : Lib α) (data : Bytes) (s : Receiver) : Option Receiver :=
  match s.host with
  | none => handleStart lib data s
  | some host => handlePacket data host s

/-- `handle_buffered/1` -/
def handleBuffered (lib : Lib α) (s : Receiver) : Option Receiver :=
  match _ : s.waitingFor with
  | .header =>
    -- no number of bytes is at least an atom, so the second clause does not match
    if 4 ≤ s.buffer.length then
      handleBuffered lib { s with
        waitingFor := .size (decodeUnsigned (s.buffer.take 4))
        buffer := s.buffer.drop 4 }
    else some s
  | .size size =>
    if size ≤ s.buffer.length then
      match handleData lib (s.buffer.take size) s with
      | none => none
      | some new => handleBuffered lib { new with
          waitingFor := .header
          buffer := s.buffer.drop size }
    else some s
  termination_by 2 * s.buffer.length + s.waitingFor.weight
  decreasing_by
    all_goals simp only [*, List.length_drop, WaitingFor.weight]; omega

/-- `do_receive_data/3` -/
def doReceiveData (lib : Lib α) (s : Receiver) (data : Bytes) : Option Receiver :=
  handleBuffered lib { s with buffer := s.buffer ++ data }

/-- A receiver gets chunk after chunk. -/
def receive (lib : Lib α) (chunks : List Bytes) : Option Receiver :=
  chunks.foldlM (doReceiveData lib) {}

/-! ## Chunks -/

variable {lib : Lib α} {s : Receiver}

theorem handleBuffered_header (hwait : s.waitingFor = .header)
    (h : 4 ≤ s.buffer.length) : handleBuffered lib s = handleBuffered lib { s with
    waitingFor := .size (decodeUnsigned (s.buffer.take 4))
    buffer := s.buffer.drop 4 } := by
  rw [handleBuffered]
  split
  · exact if_pos h
  · next hsize => rw [hwait] at hsize; cases hsize

theorem handleBuffered_size {size : ℕ}
    (hwait : s.waitingFor = .size size) (h : size ≤ s.buffer.length) :
    handleBuffered lib s = (handleData lib (s.buffer.take size) s).bind fun new =>
    handleBuffered lib { new with waitingFor := .header, buffer := s.buffer.drop size } := by
  rw [handleBuffered]
  split
  · next hheader => rw [hwait] at hheader; cases hheader
  · next hsize =>
    obtain rfl : size = _ := WaitingFor.size.inj (hwait.symm.trans hsize)
    rw [if_pos h]
    cases handleData lib (s.buffer.take size) s <;> rfl

theorem handleBuffered_short
    (h : s.buffer.length < s.waitingFor.needed) : handleBuffered lib s = some s := by
  rw [handleBuffered]
  split
  · next hwait => rw [hwait] at h; exact if_neg (Nat.not_le.2 h)
  · next hwait => rw [hwait] at h; exact if_neg (Nat.not_le.2 h)

theorem handleStart_buffer (lib : Lib α) (data : Bytes) (s : Receiver) (waitingFor : WaitingFor)
    (buffer : Bytes) : handleStart lib data { s with waitingFor, buffer } =
    (handleStart lib data s).map fun new => { new with waitingFor, buffer } := by
  unfold handleStart
  cases lib.parse data with
  | none => rfl
  | some el =>
    by_cases hname : el.name = "gd_start"
    · cases hserver : el.attr? "server" <;> cases hconn : el.attr? "conn_id" <;>
        simp [hname, hserver, hconn]
    · simp [hname]

theorem handlePacket_buffer (data : Bytes) (host : String) (s : Receiver)
    (waitingFor : WaitingFor) (buffer : Bytes) :
    handlePacket data host { s with waitingFor, buffer } =
    (handlePacket data host s).map fun new => { new with waitingFor, buffer } := by
  unfold handlePacket
  by_cases hlen : data.length < 10
  · simp only [if_pos hlen, Option.map_none]
  by_cases hsize : (data.drop 10).length < decodeUnsigned ((data.drop 8).take 2)
  · simp only [if_neg hlen, if_pos hsize, Option.map_none]
  · simp only [if_neg hlen, if_neg hsize, Option.map_map]
    rfl

/-- What a frame does to the receiver has nothing to do with what is in the buffer. -/
theorem handleData_buffer (lib : Lib α) (data : Bytes) (s : Receiver) (waitingFor : WaitingFor)
    (buffer : Bytes) : handleData lib data { s with waitingFor, buffer } =
    (handleData lib data s).map fun new => { new with waitingFor, buffer } := by
  obtain ⟨_, _, host, _, _⟩ := s
  cases host with
  | none => exact handleStart_buffer lib data _ waitingFor buffer
  | some host => exact handlePacket_buffer data host _ waitingFor buffer

/-- **More bytes can come before or after the loop has looked at the others.** -/
theorem handleBuffered_append (lib : Lib α) (s : Receiver) (more : Bytes) :
    handleBuffered lib { s with buffer := s.buffer ++ more } =
    (handleBuffered lib s).bind fun new => doReceiveData lib new more := by
  induction s using handleBuffered.induct lib with
  | case1 s hwait hlen ih =>
    have hlong : 4 ≤ (s.buffer ++ more).length := by rw [length_append]; omega
    rw [handleBuffered_header hwait hlen,
      handleBuffered_header (s := { s with buffer := s.buffer ++ more }) hwait hlong, ← ih]
    dsimp only
    rw [take_append_of_le_length hlen, drop_append_of_le_length hlen]
  | case2 s hwait hlen =>
    rw [handleBuffered_short (s := s) (by rw [hwait]; exact Nat.not_le.1 hlen)]
    rfl
  | case3 s size hwait hlen hdata =>
    have hlong : size ≤ (s.buffer ++ more).length := by rw [length_append]; omega
    rw [handleBuffered_size hwait hlen,
      handleBuffered_size (s := { s with buffer := s.buffer ++ more }) hwait hlong]
    dsimp only
    rw [take_append_of_le_length hlen, handleData_buffer, hdata]
    rfl
  | case4 s size hwait hlen new hdata ih =>
    have hlong : size ≤ (s.buffer ++ more).length := by rw [length_append]; omega
    rw [handleBuffered_size hwait hlen,
      handleBuffered_size (s := { s with buffer := s.buffer ++ more }) hwait hlong]
    dsimp only
    rw [take_append_of_le_length hlen, handleData_buffer, hdata, Option.map_some,
      Option.bind_some, Option.bind_some, drop_append_of_le_length hlen]
    exact ih
  | case5 s size hwait hlen =>
    rw [handleBuffered_short (s := s) (by rw [hwait]; exact Nat.not_le.1 hlen)]
    rfl

/-- **It does not matter where the bytes are cut.** -/
theorem foldlM_doReceiveData (lib : Lib α) (chunks : List Bytes) (s : Receiver) :
    ((handleBuffered lib s).bind fun new => chunks.foldlM (doReceiveData lib) new) =
    handleBuffered lib { s with buffer := s.buffer ++ chunks.flatten } := by
  induction chunks generalizing s with
  | nil =>
    rw [flatten_nil, append_nil]
    exact Option.bind_fun_some _
  | cons chunk chunks ih =>
    have hcut := ih { s with buffer := s.buffer ++ chunk }
    rw [handleBuffered_append, Option.bind_assoc] at hcut
    rw [flatten_cons, ← append_assoc]
    exact hcut

/-! ## Frames -/

/-- The loop takes a whole frame out of the buffer. -/
theorem handleBuffered_frame {data rest : Bytes}
    (hwait : s.waitingFor = .header) (hbuffer : s.buffer = frame data ++ rest)
    (hdata : data.length < 2 ^ 32) :
    handleBuffered lib s = (handleData lib data s).bind fun new =>
    handleBuffered lib { new with waitingFor := .header, buffer := rest } := by
  have hlen : 4 ≤ s.buffer.length := by
    rw [hbuffer, frame, length_append, length_append, length_integerBytes]
    omega
  have hhead : decodeUnsigned (s.buffer.take 4) = data.length := by
    rw [hbuffer, frame, append_assoc, take_left' (length_integerBytes 4 _)]
    exact decodeUnsigned_integerBytes hdata
  have htail : s.buffer.drop 4 = data ++ rest := by
    rw [hbuffer, frame, append_assoc, drop_left' (length_integerBytes 4 _)]
  rw [handleBuffered_header hwait hlen, hhead, htail,
    handleBuffered_size rfl (by rw [length_append]; exact Nat.le_add_right _ _),
    take_left, drop_left, handleData_buffer]
  cases handleData lib data s <;> rfl

variable {globalHost : String}

/-- A packet whose key is short is handed to its worker. -/
theorem handlePacket_sent (lib : Lib α) (host : String) {p : FPacket α} (clockTime : ℕ)
    (s : Receiver)
    (hkey : (utf8 (recipientToWorkerKey p.sender globalHost)).length ≤ 189) :
    ∃ worker, anyBinaryToAtom (utf8 (recipientToWorkerKey p.sender globalHost)) = some worker ∧
    handlePacket (integerBytes 8 clockTime ++ sentData lib globalHost p) host s =
      some { s with handed := s.handed ++ [{
        workerKey := utf8 (recipientToWorkerKey p.sender globalHost)
        worker
        host
        clockTime := clockTime % 256 ^ 8
        binTerm := lib.termToBinary p }] } := by
  obtain ⟨worker, hworker⟩ := Option.isSome_iff_exists.1 (isSome_anyBinaryToAtom.2 hkey)
  refine ⟨worker, hworker, ?_⟩
  -- the receiver cuts off the clock, the size of the key, the key and the term
  have hclock : (integerBytes 8 clockTime ++ sentData lib globalHost p).take 8 =
      integerBytes 8 clockTime := take_left' (length_integerBytes 8 _)
  have hsent : (integerBytes 8 clockTime ++ sentData lib globalHost p).drop 8 =
      sentData lib globalHost p := drop_left' (length_integerBytes 8 _)
  have hbody : (integerBytes 8 clockTime ++ sentData lib globalHost p).drop 10 =
      utf8 (recipientToWorkerKey p.sender globalHost) ++ lib.termToBinary p := by
    rw [show 10 = 8 + 2 from rfl, ← drop_drop, hsent, sentData, append_assoc,
      drop_left' (length_integerBytes 2 _)]
  have hsize : decodeUnsigned ((sentData lib globalHost p).take 2) =
      (utf8 (recipientToWorkerKey p.sender globalHost)).length := by
    rw [sentData, append_assoc, take_left' (length_integerBytes 2 _)]
    exact decodeUnsigned_integerBytes (hkey.trans_lt (by decide : 189 < 256 ^ 2))
  have hlong : ¬ (integerBytes 8 clockTime ++ sentData lib globalHost p).length < 10 := by
    rw [sentData, length_append, length_append, length_append, length_integerBytes,
      length_integerBytes]
    omega
  rw [handlePacket, if_neg hlong]
  simp only [hclock, hsent, hbody, hsize, take_left, drop_left, hworker,
    decodeUnsigned_integerBytes_mod, Option.map_some, length_append]
  exact if_neg (Nat.not_lt.2 (Nat.le_add_right _ _))

/-- A packet that was handed to the worker of its key. -/
structure Arrived (lib : Lib α) (globalHost server : String) (p : FPacket α) (h : Handed) :
    Prop where
  workerKey : h.workerKey = utf8 (recipientToWorkerKey p.sender globalHost)
  worker : anyBinaryToAtom (utf8 (recipientToWorkerKey p.sender globalHost)) = some h.worker
  term : lib.binaryToTerm h.binTerm = some p
  host : h.host = server

variable {server : String}

/-- Only a short key is the name of a worker. -/
theorem Arrived.short {p : FPacket α} {h : Handed} (harrived : Arrived lib globalHost server p h) :
    (utf8 (recipientToWorkerKey p.sender globalHost)).length ≤ 189 :=
  isSome_anyBinaryToAtom.1 (by rw [harrived.worker]; rfl)

/-- The packets arrived in order, each once, and nothing is left. -/
structure Exact (lib : Lib α) (globalHost server : String) (packets : List (FPacket α))
    (s : Receiver) : Prop where
  waitingFor : s.waitingFor = .header
  buffer : s.buffer = []
  handed : List.Forall₂ (Arrived lib globalHost server) packets s.handed

theorem Exact.short {packets : List (FPacket α)} (h : Exact lib globalHost server packets s) :
    ∀ p ∈ packets, (utf8 (recipientToWorkerKey p.sender globalHost)).length ≤ 189 := by
  intro p hp
  obtain ⟨handed, -, harrived⟩ := exists_of_forall₂ h.handed hp
  exact harrived.short

/-- The packets after the first frame, when their keys are short. -/
theorem handleBuffered_packetFrames (lib : Lib α) (s : Receiver)
    {sent : List (FPacket α × ℕ)} (hwait : s.waitingFor = .header)
    (hbuffer : s.buffer = packetFrames lib globalHost sent) (hhost : s.host = some server)
    (hterm : ∀ p ∈ sent, lib.binaryToTerm (lib.termToBinary p.1) = some p.1)
    (hsize : ∀ p ∈ sent, (sentData lib globalHost p.1).length + 8 < 2 ^ 32)
    (hkeys : ∀ p ∈ sent, (utf8 (recipientToWorkerKey p.1.sender globalHost)).length ≤ 189) :
    ∃ new handed, handleBuffered lib s = some new ∧ new.waitingFor = .header ∧ new.buffer = [] ∧
    new.handed = s.handed ++ handed ∧
    List.Forall₂ (Arrived lib globalHost server) (sent.map Prod.fst) handed := by
  induction sent generalizing s with
  | nil =>
    refine ⟨s, [], handleBuffered_short ?_, hwait, hbuffer, (append_nil _).symm, .nil⟩
    rw [hbuffer, hwait]
    exact Nat.zero_lt_succ _
  | cons p sent ih =>
    obtain ⟨p, clockTime⟩ := p
    obtain ⟨hterm₀, hterm⟩ := forall_mem_cons.1 hterm
    obtain ⟨hsize₀, hsize⟩ := forall_mem_cons.1 hsize
    obtain ⟨hkey₀, hkeys⟩ := forall_mem_cons.1 hkeys
    obtain ⟨worker, hworker, hpacket⟩ := handlePacket_sent lib server clockTime s hkey₀
    have hframe : s.buffer = frame (integerBytes 8 clockTime ++ sentData lib globalHost p) ++
        packetFrames lib globalHost sent := by
      rw [hbuffer, packetFrames, flatMap_cons, annotated_eq_frame]
      rfl
    have hlen : (integerBytes 8 clockTime ++ sentData lib globalHost p).length < 2 ^ 32 := by
      rw [length_append, length_integerBytes, Nat.add_comm]
      exact hsize₀
    have hdata : handleData lib (integerBytes 8 clockTime ++ sentData lib globalHost p) s =
        handlePacket (integerBytes 8 clockTime ++ sentData lib globalHost p) server s := by
      rw [handleData, hhost]
    rw [handleBuffered_frame hwait hframe hlen, hdata, hpacket, Option.bind_some]
    -- what the first packet leaves is a receiver that waits for the others
    obtain ⟨new, handed, hrun, hwaits, hempty, hhanded, harrived⟩ := ih (s := { s with
        waitingFor := .header
        buffer := packetFrames lib globalHost sent
        handed := s.handed ++ [⟨_, worker, server, clockTime % 256 ^ 8, _⟩] })
        rfl rfl hhost hterm hsize hkeys
    have hfirst : Arrived lib globalHost server p ⟨_, worker, server, clockTime % 256 ^ 8, _⟩ :=
      ⟨rfl, hworker, hterm₀, rfl⟩
    exact ⟨new, _, hrun, hwaits, hempty, hhanded.trans (append_assoc _ _ _), .cons hfirst harrived⟩

theorem handleStart_gdStart {connId : String} (s : Receiver)
    (hstart : lib.parse (lib.toBinary (gdStart server connId)) = some (gdStart server connId)) :
    handleStart lib (lib.toBinary (gdStart server connId)) s =
    some { s with host := some server, connId } := by
  rw [handleStart, hstart]
  rfl

/-- However the stream is cut, the packets arrive exactly when every key is short. -/
theorem receive_exact_iff (lib : Lib α) (globalHost server connId : String)
    (sent : List (FPacket α × ℕ)) (chunks : List Bytes)
    (hchunks : chunks.flatten = stream lib globalHost server connId sent)
    (hstart : lib.parse (lib.toBinary (gdStart server connId)) = some (gdStart server connId))
    (hterm : ∀ p ∈ sent, lib.binaryToTerm (lib.termToBinary p.1) = some p.1)
    (hstartSize : (lib.toBinary (gdStart server connId)).length < 2 ^ 32)
    (hsize : ∀ p ∈ sent, (sentData lib globalHost p.1).length + 8 < 2 ^ 32) :
    (∃ s, receive lib chunks = some s ∧ Exact lib globalHost server (sent.map Prod.fst) s) ↔
    ∀ p ∈ sent, (utf8 (recipientToWorkerKey p.1.sender globalHost)).length ≤ 189 := by
  constructor
  · rintro ⟨s, -, hexact⟩ p hp
    exact hexact.short p.1 (mem_map_of_mem hp)
  · intro hkeys
    -- the loop resumes where it stopped, so that the chunks may come at once
    have hwhole : receive lib chunks = handleBuffered lib { buffer := chunks.flatten } := by
      have hcut := foldlM_doReceiveData lib chunks {}
      rwa [handleBuffered_short (s := {}) (Nat.zero_lt_succ _)] at hcut
    rw [hwhole, hchunks, handleBuffered_frame rfl rfl hstartSize]
    show ∃ s, (handleStart lib _ _).bind _ = some s ∧ _
    rw [handleStart_gdStart _ hstart]
    obtain ⟨new, handed, hrun, hwaits, hempty, hhanded, harrived⟩ :=
      handleBuffered_packetFrames lib {
        waitingFor := .header
        buffer := packetFrames lib globalHost sent
        host := some server
        connId } rfl rfl rfl hterm hsize hkeys
    exact ⟨new, hrun, hwaits, hempty, hhanded ▸ harrived⟩

end Receiver

/-! ## Two packets -/

/-- A binary in the external term format. -/
def termBinary (s : String) : Bytes := 109 :: (integerBytes 4 s.utf8ByteSize ++ utf8 s)

/-- An atom in the external term format. -/
def termAtom (s : String) : Bytes := 119 :: (integerBytes 1 s.utf8ByteSize ++ utf8 s)

/-- A `#jid{}` in the external term format. -/
def termJid (j : Jid) : Bytes :=
  [104, 4] ++ termAtom "jid" ++ termBinary j.luser ++ termBinary j.lserver ++
    termBinary j.lresource

/-- A packet with an empty accumulator and an empty element. -/
def termPacket (p : FPacket Unit) : Bytes :=
  [131, 104, 4] ++ termJid p.sender ++ termJid p.recipient ++ [116, 0, 0, 0, 0] ++
    [104, 4] ++ termAtom "xmlel" ++ termBinary p.packet.name ++ [116, 0, 0, 0, 0, 106]

/-- An element without children. -/
def plainXml (el : Element) : Bytes := utf8 ("<" ++ el.name ++
  String.join (el.attrs.reverse.map fun a => " " ++ a.1 ++ "='" ++ a.2 ++ "'") ++ "/>")

/-- `exml` and the external term format, for one packet and one connection. -/
def plainLib (p : FPacket Unit) : Lib Unit where
  termToBinary := termPacket
  binaryToTerm bytes := if bytes = termPacket p then some p else none
  toBinary := plainXml
  parse bytes :=
    if bytes = utf8 "<gd_start conn_id='1' server='host1'/>" then some (gdStart "host1" "1") else none

/-- A packet from a user of the global host. -/
def packetFrom (luser lresource : String) : FPacket Unit where
  sender := ⟨luser, "localhost", lresource⟩
  recipient := ⟨"bob", "localhost", ""⟩
  acc := ()
  packet := .mk "presence" [] [] ""

/-- The stream of one packet. -/
def plainStream (p : FPacket Unit) : Bytes :=
  stream (plainLib p) "localhost" "host1" "1" [(p, 1500000000000000)]

theorem parse_plainLib (p : FPacket Unit) :
    (plainLib p).parse ((plainLib p).toBinary (gdStart "host1" "1")) =
    some (gdStart "host1" "1") := by
  have htext : plainXml (gdStart "host1" "1") =
      utf8 "<gd_start conn_id='1' server='host1'/>" := by decide
  show (if plainXml (gdStart "host1" "1") = utf8 "<gd_start conn_id='1' server='host1'/>" then
    some (gdStart "host1" "1") else none) = _
  exact if_pos htext

theorem binaryToTerm_plainLib (p : FPacket Unit) :
    (plainLib p).binaryToTerm ((plainLib p).termToBinary p) = some p := by
  simp only [plainLib, if_true]

theorem flatten_plainStream (p : FPacket Unit) (n : ℕ) :
    [(plainStream p).take n, (plainStream p).drop n].flatten =
    stream (plainLib p) "localhost" "host1" "1" [(p, 1500000000000000)] := by
  rw [flatten_cons, flatten_cons, flatten_nil, append_nil, take_append_drop]
  rfl

/-- A stream that is cut in the first header. -/
theorem receive_exact : ∃ s, Receiver.receive (plainLib (packetFrom "alice" "tablet"))
      [(plainStream (packetFrom "alice" "tablet")).take 3,
        (plainStream (packetFrom "alice" "tablet")).drop 3] = some s ∧
    Receiver.Exact (plainLib (packetFrom "alice" "tablet")) "localhost" "host1"
      [packetFrom "alice" "tablet"] s := by
  have hiff := Receiver.receive_exact_iff (plainLib (packetFrom "alice" "tablet")) "localhost"
    "host1" "1" [(packetFrom "alice" "tablet", 1500000000000000)] _ (flatten_plainStream _ 3)
    (parse_plainLib _) (forall_mem_singleton.2 (binaryToTerm_plainLib _))
    (by decide +kernel) (by decide +kernel)
  exact hiff.2 (by decide +kernel)

/-- A text of one letter. -/
def letters (n : ℕ) (c : Char) : String := String.ofList (List.replicate n c)

theorem utf8ByteSize_letters (n : ℕ) {c : Char} (hc : c.utf8Size = 1) :
    (letters n c).utf8ByteSize = n := by
  rw [letters, String.utf8ByteSize_ofList]
  induction n with
  | zero => rfl
  | succ n ih => rw [replicate_succ, String.utf8Len_cons, ih, hc]

/-- A packet of a user whose full JID has 191 bytes. -/
def longPacket : FPacket Unit := packetFrom (letters 90 'a') (letters 90 'b')

theorem length_longKey :
    (utf8 (recipientToWorkerKey longPacket.sender "localhost")).length = 191 := by
  have huser : letters 90 'a' ≠ "" := fun h => by
    have := utf8ByteSize_letters 90 (c := 'a') rfl
    rw [h] at this
    cases this
  have hresource : letters 90 'b' ≠ "" := fun h => by
    have := utf8ByteSize_letters 90 (c := 'b') rfl
    rw [h] at this
    cases this
  have hkey : recipientToWorkerKey longPacket.sender "localhost" =
      letters 90 'a' ++ "@" ++ "localhost" ++ ("/" ++ letters 90 'b') := by
    simp [recipientToWorkerKey, longPacket, packetFrom, Jid.toBinary, huser, hresource]
  rw [length_utf8, hkey]
  simp only [String.utf8ByteSize_append]
  rw [utf8ByteSize_letters 90 rfl, utf8ByteSize_letters 90 rfl]
  decide

theorem length_termBinary (s : String) : (termBinary s).length = s.utf8ByteSize + 5 := by
  rw [termBinary, length_cons, length_append, length_integerBytes, length_utf8, Nat.add_comm 4]

theorem length_sentData (lib : Lib α) (globalHost : String) (p : FPacket α) :
    (sentData lib globalHost p).length =
    2 + (utf8 (recipientToWorkerKey p.sender globalHost)).length + (lib.termToBinary p).length := by
  simp only [sentData, length_append, length_integerBytes]

theorem length_termPacket (p : FPacket Unit) : (termPacket p).length =
    p.sender.luser.utf8ByteSize + p.sender.lserver.utf8ByteSize + p.sender.lresource.utf8ByteSize +
    p.recipient.luser.utf8ByteSize + p.recipient.lserver.utf8ByteSize +
    p.recipient.lresource.utf8ByteSize + p.packet.name.utf8ByteSize + 72 := by
  have hjid : (termAtom "jid").length = 5 := rfl
  have hxmlel : (termAtom "xmlel").length = 7 := rfl
  simp only [termPacket, termJid, length_append, length_termBinary, hjid, hxmlel,
    length_cons, length_nil]
  omega

theorem length_longPacket : (termPacket longPacket).length < 1000 := by
  have hsender : longPacket.sender = ⟨letters 90 'a', "localhost", letters 90 'b'⟩ := rfl
  have hrecipient : longPacket.recipient = ⟨"bob", "localhost", ""⟩ := rfl
  have hname : longPacket.packet.name = "presence" := rfl
  rw [length_termPacket, hsender, hrecipient, hname]
  dsimp only
  rw [utf8ByteSize_letters 90 rfl, utf8ByteSize_letters 90 rfl]
  decide

/-- The receiver of a packet with a long key has no worker for it. -/
theorem receive_long :
    (plainLib longPacket).parse ((plainLib longPacket).toBinary (gdStart "host1" "1")) =
    some (gdStart "host1" "1") ∧
    (plainLib longPacket).binaryToTerm ((plainLib longPacket).termToBinary longPacket) =
    some longPacket ∧
    (sentData (plainLib longPacket) "localhost" longPacket).length + 8 < 2 ^ 32 ∧
    ¬ ∃ s, Receiver.receive (plainLib longPacket) [plainStream longPacket] = some s ∧
    Receiver.Exact (plainLib longPacket) "localhost" "host1" [longPacket] s := by
  refine ⟨parse_plainLib _, binaryToTerm_plainLib longPacket, ?_, ?_⟩
  · have hterm : ((plainLib longPacket).termToBinary longPacket).length < 1000 := length_longPacket
    rw [length_sentData, length_longKey]
    omega
  rintro ⟨s, -, hexact⟩
  have hshort := hexact.short longPacket (mem_singleton_self _)
  rw [length_longKey] at hshort
  exact absurd hshort (by decide)

end MongooseIM.GlobalDistrib.Framing
