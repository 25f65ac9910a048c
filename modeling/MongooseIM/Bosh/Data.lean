import Mathlib.Data.List.Sort
import Mathlib.Data.Prod.Lex
import MongooseIM.Erlang.Integers
import MongooseIM.Erlang.Maps
import MongooseIM.Xmpp.Stanza

/-! # The data of a BOSH session

A BOSH session (`mongoose_bosh_socket`) answers HTTP requests. Each request carries a `<body/>`
with a request id and holds a handler, the process of the HTTP connection, until a response is
sent to it. This file has the requests, the responses and the state of the session. What the
session does to the rest of the system is kept in `World`: the messages it has sent to its c2s
process and to the handlers, and the timers it has started. Request ids, the processes of HTTP
connections and the references of timers are numbers. -/

namespace MongooseIM.Bosh

open Erlang Xmpp

/-- `exml:attrs()`, a value `none` for the atom `undefined`. -/
abbrev Attrs := AList fun _ : String => Option String

/-- `exml_query:attr/2` -/
def Attrs.attr (key : String) (attrs : Attrs) : Option String := (attrs.lookup key).join

/-- A child of an element. -/
inductive Child
  | xmlel (el : Element)
  | xmlcdata (content : String)

/-- `jlib:xmlstreamel()` -/
inductive StreamEl
  | xmlstreamstart (attrs : Attrs)
  | xmlstreamend
  | child (child : Child)

/-- The request `<body/>`: the attributes that the session reads, numbers as
`binary_to_integer/1` reads them, and the children. -/
structure Body where
  rid : ℕ
  sid : Option String
  xmlns : Option String
  type : Option String
  /-- `xmpp:restart` -/
  restart : Option String
  pause : Option ℕ
  ack : Option ℕ
  wait : Option ℕ
  hold : Option ℕ
  /-- `from` -/
  fromAttr : Option String
  /-- `to` -/
  toAttr : Option String
  children : List Child

/-- `event_type()` -/
inductive EventTag
  | normal
  | pause
  | restart
  | streamend
  | streamstart
  deriving DecidableEq

/-- `mongoose_bosh_handler:to_event_type/1` -/
def toEventType (body : Body) : EventTag :=
  if body.type = some "terminate" then .streamend
  else if body.restart = some "true" then .restart
  else if body.pause.isSome then .pause
  else if body.sid.isSome then .normal
  else .streamstart

/-- `mongoose_bosh_handler:set_max_hold/1`, `none` where it fails. -/
def setMaxHold (body : Body) : Option Body :=
  match body.hold with
  | some 0 => none
  | some 1 => some body
  | some _ => some { body with hold := some 1 }
  | none => none

/-- A request as the session handles it, `{EventTag, Body, Rid}`. -/
structure StreamEvent where
  tag : EventTag
  body : Body

/-- The request id of a request. -/
def StreamEvent.rid (event : StreamEvent) : ℕ := event.body.rid

/-- The response `<body/>`. -/
structure Response where
  attrs : Attrs
  children : List Child

/-- `cached_response()` -/
structure CachedResponse where
  rid : ℕ
  tstamp : ℤ
  body : Response

/-- What the session sends to a handler. -/
inductive Info
  | boshReply (body : Response)
  | itemNotFound
  | policyViolation
  | close (sid : String)

/-- An open request: its id, the timer of its wait and the process to answer. -/
structure Handler where
  rid : ℕ
  tref : ℕ
  pid : ℕ

/-- The order of handlers as tuples. -/
def Handler.key (h : Handler) : ℕ ×ₗ ℕ ×ₗ ℕ := toLex (h.rid, toLex (h.tref, h.pid))

/-- `lists:sort/1` of the handlers -/
def sortHandlers (handlers : List Handler) : List Handler :=
  handlers.insertionSort fun a b => a.key ≤ b.key

/-- What the session has done to other processes and to its timers. -/
structure World where
  /-- `erlang:monotonic_time(millisecond)` -/
  now : ℤ
  c2s : List StreamEl
  replies : List (ℕ × Info)
  produced : List (ℕ × Response)
  running : List (ℕ × ℕ)
  /-- The `inactivity_timeout` messages in the mailbox, by the timer that sent them. -/
  mailbox : List ℕ
  nextRef : ℕ

/-- `#state{}` -/
structure State where
  sid : String
  fromAttr : Option String
  toAttr : Option String
  handlers : List Handler
  pending : List StreamEl
  wait : ℕ
  hold : ℕ
  rid : Option ℕ
  deferred : List StreamEvent
  clientAcks : Bool
  sent : List CachedResponse
  /-- Seconds, `none` for `infinity`. -/
  inactivity : Option ℕ
  inactivityTref : Option ℕ
  maxPause : Option ℕ
  /-- Seconds, `none` for `infinity`. -/
  maxWait : Option ℕ
  serverAcks : Bool
  lastProcessed : Option ℕ
  report : Option (ℕ × ℤ)
  world : World

/-- The options of `service_bosh`. -/
structure Opts where
  inactivity : Option ℕ
  maxWait : Option ℕ
  serverAcks : Bool
  maxPause : Option ℕ

/-- `new_state/3` -/
def newState (sid : String) (opts : Opts) : State where
  sid := sid
  fromAttr := none
  toAttr := none
  handlers := []
  pending := []
  wait := 60
  hold := 1
  rid := none
  deferred := []
  clientAcks := false
  sent := []
  inactivity := opts.inactivity
  inactivityTref := none
  maxPause := opts.maxPause
  maxWait := opts.maxWait
  serverAcks := opts.serverAcks
  lastProcessed := none
  report := none
  world := ⟨0, [], [], [], [], [], 0⟩

/-- `statename()` -/
inductive StateName
  | accumulate
  | normal
  | closing
  deriving DecidableEq

/-- What ends the handling of an event: `throw({invalid_rid, State})`,
`throw({invalid_pause, State})`, or an error. -/
inductive Halt
  | invalidRid (s : State)
  | invalidPause (s : State)
  | crash
  | exhausted

/-- Why a session stopped. -/
inductive StopReason
  | normal
  | invalidRid
  | policyViolation
  | inactivityTimeout

/-- The session process. -/
inductive Process
  | running (name : StateName) (s : State)
  | stopped (reason : StopReason) (s : State)
  | crashed

end MongooseIM.Bosh
