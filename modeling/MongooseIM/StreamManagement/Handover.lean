import Mathlib.Algebra.Order.Group.Multiset
import MongooseIM.StreamManagement.Buffered

/-! # The messages of a resumption

A new session resumes an old one by a call: the old session replies with its buffer and with the
messages in its mailbox, and ends. The old session may have lost its socket or not, messages are
under way to it all the time, the call fails after five seconds, and the old session may end for
another reason. What a session that ends still holds it routes again. -/

namespace MongooseIM.StreamManagement

open Xmpp C2S Transition

/-! ## The end of a session -/

/-- Where the buffer of a session that ends is routed. -/
inductive Target
  /-- `reroute_buffer_to_pid/3` -/
  | pid (pid : ℕ)
  /-- `reroute_buffer/2` -/
  | router

/-- The clauses of `reroute_buffer/3`. -/
def rerouteTarget (smState : SmState) (reason : Reason) : Target :=
  match smState.peer, reason with
  | .genStatem sender, _ => .pid sender.pid
  | _, .shutdown (.replaced pid) => .pid pid
  | _, _ => .router

/-- `patch_acc_for_reroute/2` -/
def patchAccForReroute (acc : Acc) (sid : Sid) : Acc :=
  if acc.stanzaName = "message" then acc
  else
    match acc.receiverSid with
    | none => { acc with receiverSid := some sid }
    | some _ => acc

/-- What `handle_user_terminate/4` routes again: the buffer with delays, the oldest stanza first,
after the handlers of `filter_unacknowledged_messages`, which change it one by one. -/
def reroutedBuffer (server : Server) (hook : Reaction) (data : Data) (smState : SmState) :
    List Acc :=
  let delayed := smState.buffer.map (maybeAddTimestamp server.lib (.server data.lserver))
  (delayed.reverse.map hook.change).map fun acc => patchAccForReroute acc data.sid

/-! ## The acks of the client -/

/-- The stanzas of the buffer that an ack of `h` covers. -/
def ackedBy (data : Data) (h : ℕ) : List Acc :=
  match data.stateMod with
  | none => []
  | some smState =>
    match doHandleAck smState h with
    | .ok smState' => smState.buffer.drop smState'.buffer.length
    | _ => []

/-- The stanzas of the buffer that the last ack covers once a step has been taken. -/
def ackedIn (data data' : Data) : List Acc :=
  match data'.stateMod with
  | none => []
  | some smState' => ackedBy data smState'.counterOut

/-! ## The system -/

/-- What waits in the mailbox of the old session. -/
inductive Mail
  | route (acc : Acc)
  /-- A call of `{resume, H}`. -/
  | resume (sender : From) (h : ℕ)

/-- The stanza that is routed. -/
def Mail.acc? : Mail → Option Acc
  | route acc => some acc
  | resume _ _ => none

/-- Who calls. -/
def Mail.sender? : Mail → Option From
  | route _ => none
  | resume sender _ => some sender

/-- A new session in `get_peer_state/2`. -/
structure Caller where
  sender : From
  data : Data
  smid : String

/-- A new session that has resumed the old one. -/
structure Resumed where
  forward : List Element
  data : Data

/-- The old session, the new ones, and what is between them. -/
structure Handover where
  old : Process
  mailbox : List Mail := []
  /-- The old session has ended and `reroute_unacked_messages` has run. -/
  rerouted : Bool := false
  gone : Bool := false
  /-- The stanzas that are under way to the old session. -/
  inFlight : List Acc := []
  calls : ℕ := 0
  callers : List Caller := []
  replies : List (From × PeerReply) := []
  resumed : List Resumed := []
  /-- What was routed again to the process of another session. -/
  toPid : List (ℕ × Acc) := []
  toRouter : List Acc := []
  routed : List Acc
  acked : List Acc := []

/-- The steps of the system. -/
inductive Act
  | send (acc : Acc)
  | arrive (i : ℕ)
  | call (pid : ℕ) (data : Data) (smid : String) (h : ℕ)
  | handle (oracle : Oracle)
  | event (input : Input)
  | reroute (hook : Reaction)
  /-- One mail in `bounce_messages/1`. -/
  | bounce
  /-- The end of `terminate/3`. -/
  | exit
  | reply
  | timeout (sender : From)
  | down (sender : From)

namespace Handover

/-- Before anything has happened to a session: it holds what is in its buffer. -/
def init (p : Process) : Handover := { old := p, routed := buffered p.data }

/-- What is no mail: a route and a call to resume are, unless the session has queued a route. -/
def isEvent (p : Process) : Input → Bool
  | .next _ =>
    match p.queue.head? with
    -- a call comes from outside
    | some (.call _ (.resume _)) => false
    | _ => true
  | .event (.info (.route _)) _ => false
  | .event (.call _ (.resume _)) _ => false
  | .event _ _ => true

/-- The old session after a step, with what the client has acknowledged in it. -/
def stepped (s : Handover) (q : Process) : Handover :=
  { s with old := q, acked := ackedIn s.old.data q.data ++ s.acked }

/-- The old session after a call. `recover_messages/1` has emptied the mailbox of routes if the data
are handed over. -/
def called (s : Handover) (q : Process) : Handover :=
  let replies := (q.outputs.drop s.old.outputs.length).filterMap Output.reply?
  let mailbox :=
    if replies.any fun reply => reply.2.isOk then s.mailbox.filter fun mail => mail.acc?.isNone
    else s.mailbox
  { s.stepped q with mailbox := mailbox, replies := s.replies ++ replies }

/-- A stanza comes to the mailbox of the old session, or is lost with it. -/
def deliver (s : Handover) (mail : Mail) : Handover :=
  if s.gone then s else { s with mailbox := s.mailbox ++ [mail] }

/-- The old session handles a mail. -/
def handleMail (server : Server) (s : Handover) (oracle : Oracle) : Mail → Option Handover
  | .route acc =>
    (C2S.step server s.old (.event (.info (.route acc)) oracle)).map s.stepped
  | .resume sender h =>
    let oracle := { oracle with mailbox := s.mailbox.filterMap Mail.acc? }
    (C2S.step server s.old (.event (.call sender (.resume h)) oracle)).map s.called

/-- `reroute_unacked_messages/3`, when the session has stopped. -/
def rerouteUnacked (server : Server) (s : Handover) (hook : Reaction) (reason : Reason) :
    Handover :=
  match s.old.data.stateMod with
  | none => { s with rerouted := true }
  | some smState =>
    let accs := reroutedBuffer server hook s.old.data smState
    match rerouteTarget smState reason with
    | .pid pid => { s with rerouted := true, toPid := s.toPid ++ accs.map fun acc => (pid, acc) }
    | .router => { s with rerouted := true, toRouter := s.toRouter ++ accs }

/-- The caller does not wait any more. -/
def release (s : Handover) (sender : From) : Handover :=
  { s with callers := s.callers.filter fun caller => caller.sender ≠ sender }

/-- A reply arrives; nobody waits for one that comes too late. -/
def receive (server : Server) (s : Handover) (sender : From) (reply : PeerReply) : Handover :=
  match s.callers.find? fun caller => caller.sender = sender with
  | none => s
  | some caller =>
    let oracle : Oracle := { session := .sid s.old.data.sid, peer := reply }
    match doHandleResume server oracle caller.data caller.smid with
    | .ok _ forward data => { s.release sender with resumed := ⟨forward, data⟩ :: s.resumed }
    | _ => s.release sender

/-- One step of the system. -/
def step (server : Server) (s : Handover) : Act → Option Handover
  | .send acc => some { s with inFlight := acc :: s.inFlight, routed := acc :: s.routed }
  | .arrive i =>
    match s.inFlight[i]? with
    | none => none
    | some acc => some ({ s with inFlight := s.inFlight.eraseIdx i }.deliver (.route acc))
  | .call pid data smid h =>
    let caller : Caller := ⟨⟨pid, s.calls⟩, data, smid⟩
    -- a session that has stream management resumes no other
    if data.stateMod.isSome then none
    else some ({ s with calls := s.calls + 1, callers := caller :: s.callers }.deliver
      (.resume caller.sender h))
  | .handle oracle =>
    match s.mailbox with
    | [] => none
    | mail :: mailbox => { s with mailbox := mailbox }.handleMail server oracle mail
  | .event input =>
    if isEvent s.old input then
      (C2S.step server s.old input).map fun q =>
        -- what the session has routed to itself counts as routed once it is buffered
        let before := buffered s.old.data
        let after := buffered q.data
        { s.stepped q with routed := after.take (after.length - before.length) ++ s.routed }
    else none
  | .reroute hook =>
    if s.rerouted then none else s.old.stopped.map (s.rerouteUnacked server hook)
  | .bounce =>
    if s.rerouted then
      match s.mailbox with
      | [] => none
      | .route acc :: mailbox => some
          { s with
            mailbox := mailbox
            toRouter := s.toRouter ++ [patchAccForReroute acc s.old.data.sid] }
      | .resume _ _ :: mailbox => some { s with mailbox := mailbox }
    else none
  | .exit => if s.rerouted && s.mailbox.isEmpty then some { s with gone := true } else none
  | .reply =>
    match s.replies with
    | [] => none
    | (sender, reply) :: replies =>
      some ({ s with replies := replies }.receive server sender reply)
  -- the call itself stays in the mailbox
  | .timeout sender => some (s.release sender)
  | .down sender =>
    -- a reply comes before the message about the end of its sender
    if s.gone && s.replies.all fun reply => reply.1 ≠ sender then some (s.release sender)
    else none

end Handover

/-! ## Messages -/

/-- An identity of accumulators that routing does not change, such as the reference each is created
with. -/
structure Identity {ι : Type*} (ident : Acc → ι) : Prop where
  updateStanza : ∀ acc fromJid toJid el, ident (acc.updateStanza fromJid toJid el) = ident acc
  bufferRef : ∀ acc ref, ident { acc with bufferRef := some ref } = ident acc
  receiverSid : ∀ acc sid, ident { acc with receiverSid := some sid } = ident acc

variable {ι : Type*} {ident : Acc → ι}

/-- The messages among some stanzas. -/
def messages (ident : Acc → ι) (accs : List Acc) : Multiset ι :=
  ((accs.filter isMessage).map ident : List ι)

@[simp] theorem messages_nil : messages ident [] = 0 := rfl

@[simp] theorem messages_append (accs accs' : List Acc) :
    messages ident (accs ++ accs') = messages ident accs + messages ident accs' := by
  rw [messages, List.filter_append, List.map_append, ← Multiset.coe_add]
  rfl

variable (acc : Acc)

theorem messages_cons (accs : List Acc) :
    messages ident (acc :: accs) = messages ident [acc] + messages ident accs :=
  messages_append [acc] accs

theorem messages_perm {accs accs' : List Acc} (h : accs.Perm accs') :
    messages ident accs = messages ident accs' :=
  Multiset.coe_eq_coe.2 ((h.filter _).map _)

theorem messages_singleton {acc acc' : Acc} (hname : acc.stanzaName = acc'.stanzaName)
    (hident : ident acc = ident acc') : messages ident [acc] = messages ident [acc'] := by
  have hmessage : isMessage acc = isMessage acc' := by
    rw [isMessage, isMessage, hname]
  cases h : isMessage acc' with
  | false => simp [messages, hmessage, h]
  | true => simp [messages, hmessage, h, hident]

theorem messages_map {f : Acc → Acc} (hname : ∀ acc, (f acc).stanzaName = acc.stanzaName)
    (hident : ∀ acc, ident (f acc) = ident acc) (accs : List Acc) :
    messages ident (accs.map f) = messages ident accs := by
  induction accs with
  | nil => rfl
  | cons acc accs ih =>
    rw [List.map_cons, messages_cons, ih, messages_singleton (hname acc) (hident acc),
      ← messages_cons]

theorem messages_of_not_message {acc : Acc} (h : isMessage acc = false) :
    messages ident [acc] = 0 := by
  simp [messages, h]

theorem messages_take_drop (accs : List Acc) (n : ℕ) :
    messages ident accs = messages ident (accs.take n) + messages ident (accs.drop n) := by
  rw [← messages_append, List.take_append_drop]

namespace Identity

variable (hident : Identity ident)
include hident

theorem maybeAddTimestamp (lib : Library) (fromServer : Jid) (acc : Acc) :
    ident (maybeAddTimestamp lib fromServer acc) = ident acc := by
  rw [StreamManagement.maybeAddTimestamp]
  split
  · exact hident.updateStanza _ _ _ _
  · rfl

theorem patchAccForReroute (sid : Sid) : ident (patchAccForReroute acc sid) = ident acc := by
  rw [StreamManagement.patchAccForReroute]
  split
  · rfl
  · split
    · exact hident.receiverSid _ _
    · rfl

end Identity

theorem stanzaName_maybeAddTimestamp (lib : Library) (fromServer : Jid) (acc : Acc) :
    (maybeAddTimestamp lib fromServer acc).stanzaName = acc.stanzaName := by
  rw [maybeAddTimestamp]
  split
  · rw [Acc.stanzaName_updateStanza, maybeAppendDelay]
    split <;> rfl
  · rfl

theorem stanzaName_patchAccForReroute (sid : Sid) :
    (patchAccForReroute acc sid).stanzaName = acc.stanzaName := by
  rw [patchAccForReroute]
  split
  · rfl
  · split <;> rfl

/-- A buffer that is routed again has the messages it had. -/
theorem messages_reroutedBuffer (hident : Identity ident) (server : Server) {hook : Reaction}
    (hhook : ∀ acc, ident (hook.change acc) = ident acc) (data : Data) (smState : SmState) :
    messages ident (reroutedBuffer server hook data smState) = messages ident smState.buffer := by
  rw [reroutedBuffer, messages_map (fun acc => stanzaName_patchAccForReroute acc _)
      (fun acc => hident.patchAccForReroute acc _),
    messages_map hook.stanzaName_change hhook, messages_perm (List.reverse_perm _),
    messages_map (fun acc => stanzaName_maybeAddTimestamp _ _ acc)
      (fun acc => hident.maybeAddTimestamp _ _ acc)]

theorem messages_recoverMessages (smState : SmState) (routed : List Acc) :
    messages ident (recoverMessages smState routed).buffer =
    messages ident routed + messages ident smState.buffer := by
  induction routed generalizing smState with
  | nil => rw [messages_nil, zero_add]; rfl
  | cons acc routed ih =>
    rw [recoverMessages, List.foldl_cons, messages_cons]
    refine (ih _).trans ?_
    rw [maybeBufferAcc]
    split_ifs with hmessage
    · show _ + messages ident (acc :: smState.buffer) = _
      rw [messages_cons, add_left_comm, add_assoc]
    · rw [messages_of_not_message (Bool.eq_false_iff.2 hmessage), zero_add]

/-- The handlers of other modules leave the identity of a stanza as it is. -/
def KeepsIdentity (ident : Acc → ι) (oracle : Oracle) : Prop :=
  (∀ acc, ident (oracle.userReceiveStanza.change acc) = ident acc) ∧
    ∀ acc, ident (oracle.xmppPresendElement.change acc) = ident acc

section

variable {oracle : Oracle} (hident : Identity ident) (horacle : KeepsIdentity ident oracle)

include hident horacle

theorem receiveHooks_acc (data : Data) (sender : Jid) (acc : Acc) :
    (receiveHooks oracle data sender acc).hookAcc.acc.stanzaName = acc.stanzaName ∧
    ident (receiveHooks oracle data sender acc).hookAcc.acc = ident acc := by
  rw [receiveHooks, HookResult.andThen]
  split
  · rw [(userReceivePacket_eq data _).1]
    exact ⟨name_replaceFromTo _ _ _, hident.updateStanza _ _ _ _⟩
  · rw [acc_run, (userReceivePacket_eq data _).1, Reaction.stanzaName_change, horacle.1]
    exact ⟨name_replaceFromTo _ _ _, hident.updateStanza _ _ _ _⟩

/-- A routed stanza that is buffered is the one that was routed. -/
theorem messages_presents {data : Data} {acc stored : Acc}
    (h : Presents oracle data (.info (.route acc)) stored) :
    messages ident [stored] = messages ident [acc] := by
  obtain ⟨presented, smState, hpresend, hstored⟩ := h
  obtain ⟨sender, -, hreceive⟩ := Option.bind_eq_some_iff.1 hpresend
  split at hreceive
  swap
  · cases hreceive
  rw [presendAcc.beforePresend] at hreceive
  split at hreceive
  swap
  · cases hreceive
  cases hreceive
  obtain ⟨hname, hkept⟩ := receiveHooks_acc hident horacle data sender acc
  have hname' := (oracle.xmppPresendElement.stanzaName_change _).trans hname
  have hkept' := (horacle.2 _).trans hkept
  rw [preventBufferDuplication] at hstored
  split at hstored
  · cases hstored
    exact messages_singleton hname' ((hident.bufferRef _ _).trans hkept')
  · split at hstored
    · cases hstored
    · cases hstored
      exact messages_singleton hname' hkept'

end

/-! ## The balance -/

namespace Handover

/-- The stanzas that the old session holds. -/
def held (s : Handover) : List Acc := if s.rerouted then [] else buffered s.old.data

/-- The stanzas that a reply hands over. -/
def handedOver (reply : From × PeerReply) : List Acc :=
  match reply.2 with
  | .ok data => buffered data
  | _ => []

/-- The messages that are on their way. -/
def pending (ident : Acc → ι) (s : Handover) : Multiset ι :=
  messages ident s.inFlight + messages ident (s.mailbox.filterMap Mail.acc?) +
    messages ident s.held + messages ident (s.replies.flatMap handedOver)

/-- The messages that are in the buffer of the new session, routed to its process or routed through
the router. -/
def delivered (ident : Acc → ι) (s : Handover) : Multiset ι :=
  messages ident (s.resumed.flatMap fun session => buffered session.data) +
    messages ident (s.toPid.map Prod.snd) + messages ident s.toRouter

/-- **Every message is in one place.** -/
def Balance (ident : Acc → ι) (s : Handover) : Prop :=
  messages ident s.routed = messages ident s.acked + pending ident s + delivered ident s

/-- Who is to be replied to. -/
def senders (s : Handover) : List From :=
  s.mailbox.filterMap Mail.sender? ++ s.replies.map Prod.fst

/-- Somebody waits for a reply. -/
def Waits (s : Handover) (sender : From) : Prop := ∃ caller ∈ s.callers, caller.sender = sender

/-- A step loses nothing: what arrives finds the old session, a route is buffered, data are handed
over to a session that waits, and it waits until they arrive. -/
def Safe (s : Handover) : Act → Prop
  | .arrive _ => s.gone = false
  | .handle oracle =>
    match s.mailbox with
    | .route acc :: _ => isMessage acc = true → Accepts oracle s.old.data acc
    | .resume sender h :: _ => (∃ smState, Serves s.old oracle h smState) → s.Waits sender
    | [] => True
  | .timeout sender => ∀ data, (sender, .ok data) ∉ s.replies
  | _ => True

/-- The handlers of other modules leave identities as they are. -/
def Keeps (ident : Acc → ι) : Act → Prop
  | .handle oracle => KeepsIdentity ident oracle
  | .reroute hook => ∀ acc, ident (hook.change acc) = ident acc
  | _ => True

/-- What holds in every state of a run of safe steps. -/
structure Inv (server : Server) (ident : Acc → ι) (s : Handover) : Prop where
  bound : s.old.stopped = none → s.old.state.phase = .bound
  sized : s.old.stopped = none → Sized s.old.data.stateMod
  /-- The buffer is routed again when the session has stopped. -/
  stopped : s.rerouted = true → s.old.stopped ≠ none
  gone : s.gone = true → s.rerouted = true ∧ s.mailbox = []
  nodup : s.senders.Nodup
  tag_lt : ∀ sender ∈ s.senders, sender.tag < s.calls
  waits : ∀ sender data, (sender, .ok data) ∈ s.replies → s.Waits sender
  isSome : ∀ sender data, (sender, .ok data) ∈ s.replies → data.stateMod.isSome
  forward : ∀ session ∈ s.resumed, session.forward =
    (buffered session.data).reverse.map fun acc =>
      (maybeAddTimestamp server.lib (.server session.data.lserver) acc).element
  balance : s.Balance ident

end Handover

end MongooseIM.StreamManagement
