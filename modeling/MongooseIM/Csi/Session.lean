import MongooseIM.Xmpp.Stanza

/-! # Client state indication in a session

`mod_csi` with the part of `mongoose_c2s` and `mongoose_c2s_acc` that it drives: while the client is
inactive the stanzas sent to it are buffered, and they come back as `flush` events of the session. -/

namespace MongooseIM.Csi

open Xmpp

/-- `buffer_max` -/
inductive BufferMax
  | limit (n : ℕ)
  | infinity

/-- `Size > BMax`; an atom is greater than any number. -/
def BufferMax.exceededBy (size : ℕ) : BufferMax → Bool
  | .limit n => decide (n < size)
  | .infinity => false

/-- `state()` -/
inductive Activity
  | active
  | inactive
  deriving DecidableEq

/-- `#csi_state{}`, for a type of accumulators. -/
structure CsiState (α : Type) where
  state : Activity
  buffer : List α
  /-- The limit that was configured when the state was created. -/
  bufferMax : BufferMax

/-- A `next_event` action of the session. -/
inductive NextEvent (α : Type)
  /-- `{next_event, info, {route, Acc}}` -/
  | route (acc : α)
  /-- `{next_event, internal, {flush, Acc}}` -/
  | flush (acc : α)

/-- `mongoose_c2s_acc:t()`: what handlers ask of the session. The actions are the last one first. -/
structure C2SAcc (α : Type) where
  /-- The entry of `mod_csi` in `state_mod`. -/
  stateMod : Option (CsiState α)
  actions : List (NextEvent α)

/-- `mongoose_acc:t()` -/
structure Acc where
  stanza : Xmpp.Acc
  /-- `{mod_csi, buffered}` -/
  buffered : Bool
  statemAcc : C2SAcc Acc

/-- An accumulator as it comes from the router or from the client: local delivery strips the marks
and the requests of the sender's session. -/
def Acc.new (stanza : Xmpp.Acc) : Acc := ⟨stanza, false, ⟨none, []⟩⟩

/-- `pair()` of `mongoose_c2s_acc`, those that `mod_csi` uses. -/
inductive Pair
  | stateMod (csi : CsiState Acc)
  | route (acc : Acc)
  | flush (accs : List Acc)

/-- `mongoose_c2s_acc:to_c2s_acc/2` -/
def toC2SAcc (c2sAcc : C2SAcc Acc) : Pair → C2SAcc Acc
  | .stateMod csi => { c2sAcc with stateMod := some csi }
  | .route acc => { c2sAcc with actions := .route acc :: c2sAcc.actions }
  | .flush accs => { c2sAcc with actions := (accs.map .flush).reverse ++ c2sAcc.actions }

variable (acc : Acc)

/-- `mongoose_c2s_acc:to_acc_many/2` -/
def toAccMany (pairs : List Pair) : Acc :=
  { acc with statemAcc := pairs.foldl toC2SAcc acc.statemAcc }

/-- `mongoose_c2s_acc:to_acc/3` -/
def toAcc (pair : Pair) : Acc := { acc with statemAcc := toC2SAcc acc.statemAcc pair }

/-- `mark_acc_as_buffered/1` -/
def markAccAsBuffered : Acc := { acc with buffered := true }

/-- `mongoose_c2s_hooks:result()` -/
inductive Result
  | ok (acc : Acc)
  | stop (acc : Acc)

/-- `buffer_acc/3` -/
def bufferAcc (csi : CsiState Acc) : Bool → Result
  | false =>
    let accToBuffer := markAccAsBuffered acc
    .stop (toAcc acc (.stateMod { csi with buffer := accToBuffer :: csi.buffer }))
  | true => .ok acc

/-- `handle_presend_element/2` -/
def handlePresendElement (csi : CsiState Acc) : Result :=
  match csi.state with
  | .inactive =>
    if csi.bufferMax.exceededBy (csi.buffer.length + 1) then
      let newBuffer := markAccAsBuffered acc :: csi.buffer
      .stop (toAccMany acc [.stateMod { csi with buffer := [] }, .flush newBuffer.reverse])
    else bufferAcc acc csi acc.buffered
  | .active => .ok acc

/-- `xmpp_presend_element/3` -/
def xmppPresendElement : Option (CsiState Acc) → Result
  | some csi => handlePresendElement acc csi
  | none => .ok acc

variable (bufferMax : BufferMax) (acc : Acc)

/-- `handle_inactive_request/2`; `bufferMax` is the option of the module. -/
def handleInactiveRequest : Option (CsiState Acc) → Acc
  | none => toAcc acc (.stateMod ⟨.inactive, [], bufferMax⟩)
  | some csi => toAcc acc (.stateMod { csi with state := .inactive })

/-- `handle_active_request/2` -/
def handleActiveRequest : Option (CsiState Acc) → Acc
  | some csi =>
    match csi.state with
    | .inactive =>
      toAccMany acc
        [.stateMod { csi with state := .active, buffer := [] }, .flush csi.buffer.reverse]
    | .active => acc
  | none => acc

variable (csi : Option (CsiState Acc))

/-- `handle_csi_request/3` -/
def handleCsiRequest (el : Element) : Acc :=
  if el.name = "inactive" then handleInactiveRequest bufferMax acc csi
  else if el.name = "active" then handleActiveRequest acc csi
  else
    let error := makeErrorReply acc.stanza.element badRequest
    let errorAcc :=
      { acc with stanza := acc.stanza.updateStanza acc.stanza.fromJid acc.stanza.toJid error }
    toAcc acc (.route errorAcc)

/-- `?NS_CSI` -/
def nsCsi : String := "urn:xmpp:csi:0"

/-- `user_send_xmlel/3` -/
def userSendXmlel : Result :=
  let el := acc.stanza.element
  if el.attr? "xmlns" = some nsCsi then .stop (handleCsiRequest bufferMax acc csi el) else .ok acc

/-- `handle_user_stopping/3` -/
def handleUserStopping : Option (CsiState Acc) → Acc
  | some csi =>
    toAccMany acc
      [.stateMod { csi with state := .active, buffer := [] }, .flush csi.buffer.reverse]
  | none => acc

/-- A session, with a record of the stanzas it was given to send. -/
structure Session where
  /-- The entry of `mod_csi` in the states of the modules. -/
  csi : Option (CsiState Acc) := none
  /-- The events inserted by `next_event`, which are handled before all others. -/
  events : List (NextEvent Acc) := []
  /-- The stanzas handed to `xmpp_presend_element`, those that come back not counted again. -/
  presented : List Xmpp.Acc := []
  /-- The stanzas handed on by `mod_csi` to the next handler of the hook. -/
  passed : List Xmpp.Acc := []

/-- `handle_state_after_packet/3`: the states of the modules are merged, and the actions run. -/
def handleStateAfterPacket (s : Session) (acc : Acc) : Session :=
  { s with
    csi := acc.statemAcc.stateMod <|> s.csi
    events := acc.statemAcc.actions.reverse ++ s.events }

/-- `handle_flush/3` -/
def handleFlush (s : Session) (acc : Acc) : Session :=
  match xmppPresendElement acc s.csi with
  | .ok acc1 => handleStateAfterPacket { s with passed := s.passed ++ [acc1.stanza] } acc1
  | .stop acc1 => handleStateAfterPacket s acc1

section

/- What the `user_receive_*` handlers of other modules make of a stanza for the client; `none` when
one of them stops. -/
variable (receive : Xmpp.Acc → Option Xmpp.Acc)

/-- The stanza that `handle_route/3` hands to the hook, with its addresses in the element. -/
def routed (stanza : Xmpp.Acc) : Option Xmpp.Acc :=
  stanza.fromJid.map fun sender =>
    stanza.updateStanza stanza.fromJid stanza.toJid
      (replaceFromTo sender stanza.toJid stanza.element)

/-- `handle_route/3` with `handle_route_packet/4`; without a sender it crashes. -/
def handleRoute (s : Session) (acc : Acc) : Option Session :=
  (routed acc.stanza).map fun stanza =>
    match receive stanza with
    | some received =>
      handleFlush { s with presented := s.presented ++ [received] }
        { acc with stanza := received }
    | none => handleStateAfterPacket s { acc with stanza := stanza }

/-- An event of a session. -/
inductive Event
  | next
  /-- `{route, Acc}`, a stanza from the router. -/
  | route (stanza : Xmpp.Acc)
  /-- An element of the client that is no stanza, with the address it is for. -/
  | xmlel (el : Element) (receiver : Jid)
  /-- A stop request or the loss of the socket, when another module keeps the session alive. -/
  | stopping

variable (bufferMax : BufferMax) (jid : Jid)

/-- What the session of `jid` does with an event. An event from outside is handled when no inserted
event is left. -/
def step (s : Session) : Event → Option Session
  | .next =>
    match s.events with
    | [] => none
    | .route acc :: rest => handleRoute receive { s with events := rest } acc
    | .flush acc :: rest => some (handleFlush { s with events := rest } acc)
  | .route stanza =>
    match s.events with
    | [] => handleRoute receive s (Acc.new stanza)
    | _ :: _ => none
  | .xmlel el receiver =>
    match s.events with
    | [] =>
      let acc := Acc.new { element := el, fromJid := some jid, toJid := some receiver }
      match userSendXmlel bufferMax acc s.csi with
      | .ok acc1 => some (handleStateAfterPacket s acc1)
      | .stop acc1 => some (handleStateAfterPacket s acc1)
    | _ :: _ => none
  | .stopping =>
    match s.events with
    | [] =>
      let acc := Acc.new
        { element := .mk "" [] [] "", fromJid := none, toJid := none }
      some (handleStateAfterPacket s (handleUserStopping acc s.csi))
    | _ :: _ => none

end

end MongooseIM.Csi
