import Mathlib.Data.List.Basic
import Mathlib.Data.Option.Basic

/-! # XML elements, JIDs and accumulators

The data that a client session handles: elements (`#xmlel{}`), addresses (`#jid{}`), IQs and
`mongoose_acc` accumulators, with the functions of `jlib`, `mongoose_xmpp_errors` and
`mongoose_acc` that the session uses on them. -/

namespace MongooseIM.Xmpp

/-! ## Elements -/

/-- An element `#xmlel{}`: its attributes are a map, its text is kept apart from its children. -/
inductive Element
  | mk (name : String) (attrs : List (String × String)) (children : List Element) (cdata : String)

namespace Element

/-- The name of an element. -/
def name : Element → String
  | mk name _ _ _ => name

/-- The attributes of an element. -/
def attrs : Element → List (String × String)
  | mk _ attrs _ _ => attrs

/-- The child elements of an element. -/
def children : Element → List Element
  | mk _ _ children _ => children

/-- The character data of an element. -/
def cdata : Element → String
  | mk _ _ _ cdata => cdata

variable (el : Element)

/-- `exml_query:attr/2`, `none` for `undefined`. -/
def attr? (key : String) : Option String := el.attrs.lookup key

variable (attrs : List (String × String))

/-- The element with other attributes. -/
def withAttrs : Element :=
  mk el.name attrs el.children el.cdata

/-- The element with one more child in front. -/
def addChild (el child : Element) : Element :=
  mk el.name el.attrs (child :: el.children) el.cdata

@[simp] theorem name_mk (name : String) (attrs : List (String × String)) (children : List Element)
    (cdata : String) : (mk name attrs children cdata).name = name := rfl

@[simp] theorem name_withAttrs : (el.withAttrs attrs).name = el.name := rfl

@[simp] theorem name_addChild (el child : Element) : (el.addChild child).name = el.name := rfl

mutual

/-- Whether two elements are the same. -/
def decEq : (a b : Element) → Decidable (a = b)
  | mk name attrs children cdata, mk name' attrs' children' cdata' =>
    match decEqList children children' with
    | isTrue h =>
      decidable_of_iff (name = name' ∧ attrs = attrs' ∧ cdata = cdata') (by simp [h])
    | isFalse h => isFalse (by simp [h])

/-- Whether two lists of elements are the same. -/
def decEqList : (as bs : List Element) → Decidable (as = bs)
  | [], [] => isTrue rfl
  | [], _ :: _ => isFalse nofun
  | _ :: _, [] => isFalse nofun
  | a :: as, b :: bs =>
    match decEq a b, decEqList as bs with
    | isTrue h, isTrue h' => isTrue (by rw [h, h'])
    | isFalse h, _ => isFalse (by simp [h])
    | _, isFalse h => isFalse (by simp [h])

end

instance : DecidableEq Element := decEq

end Element

/-- Replace the value under a key. -/
def putAttr (key value : String) (attrs : List (String × String)) : List (String × String) :=
  (key, value) :: attrs.filter fun a => a.1 ≠ key

/-- Remove a key. -/
def removeAttr (key : String) (attrs : List (String × String)) : List (String × String) :=
  attrs.filter fun a => a.1 ≠ key

/-- The names that count as XMPP stanzas. -/
def isStanzaName (name : String) : Bool :=
  name = "message" || name = "iq" || name = "presence"

/-! ## Addresses -/

/-- `#jid{}`, by its normalised parts. -/
structure Jid where
  luser : String
  lserver : String
  lresource : String
  deriving DecidableEq

namespace Jid

/-- `jid:are_bare_equal/2` -/
def areBareEqual (a b : Jid) : Bool := a.luser = b.luser && a.lserver = b.lserver

variable (j : Jid)

/-- `jid:to_bare/1` -/
def toBare : Jid := { j with lresource := "" }

/-- `jid:replace_resource_noprep/2` -/
def replaceResourceNoprep (resource : String) : Jid := { j with lresource := resource }

/-- `jid:to_binary/1` -/
def toBinary : String :=
  (if j.luser = "" then "" else j.luser ++ "@") ++ j.lserver ++
    (if j.lresource = "" then "" else "/" ++ j.lresource)

/-- `jid:make_noprep(<<>>, LServer, <<>>)`, the address of a domain. -/
def server (lserver : String) : Jid := ⟨"", lserver, ""⟩

@[simp] theorem toBare_toBare : j.toBare.toBare = j.toBare := rfl

@[simp] theorem lserver_toBare : j.toBare.lserver = j.lserver := rfl

end Jid

/-- What comes from libraries: the preparations of `jid`, which fail on some input, and the text of
a time. -/
structure Library where
  /-- `jid:nodeprep/1` -/
  nodeprep : String → Option String
  /-- `jid:nameprep/1` -/
  nameprep : String → Option String
  /-- `jid:resourceprep/1` -/
  resourceprep : String → Option String
  fromBinary : String → Option Jid
  /-- `calendar:system_time_to_rfc3339/2` of microseconds in UTC -/
  rfc3339 : ℕ → String

variable (lib : Library)

/-- `jid:make_bare/2` -/
def Library.makeBare (user server : String) : Option Jid := do
  let luser ← lib.nodeprep user
  let lserver ← lib.nameprep server
  return ⟨luser, lserver, ""⟩

/-! ## Errors -/

/-- The namespace of stanza errors. -/
def nsStanzas : String := "urn:ietf:params:xml:ns:xmpp-stanzas"

/-- The namespace of stream errors. -/
def nsStreams : String := "urn:ietf:params:xml:ns:xmpp-streams"

/-- `jlib:stanza_error/3` -/
def stanzaError (code type condition : String) : Element :=
  .mk "error" [("code", code), ("type", type)]
    [.mk condition [("xmlns", nsStanzas)] [] ""] ""

/-- `jlib:stanza_errort/5`, the text before its translation. -/
def stanzaErrort (code type condition text : String) : Element :=
  .mk "error" [("code", code), ("type", type)]
    [.mk condition [("xmlns", nsStanzas)] [] "", .mk "text" [("xmlns", nsStanzas)] [] text] ""

/-- `jlib:stream_error/1` -/
def streamError (condition : String) : Element :=
  .mk "stream:error" [] [.mk condition [("xmlns", nsStreams)] [] ""] ""

/-- `jlib:stream_errort/3`, the text before its translation. -/
def streamErrort (condition text : String) : Element :=
  .mk "stream:error" []
    [.mk condition [("xmlns", nsStreams)] [] "", .mk "text" [("xmlns", nsStreams)] [] text] ""

/-- `mongoose_xmpp_errors:bad_request/0` -/
def badRequest : Element := stanzaError "400" "modify" "bad-request"

/-- `mongoose_xmpp_errors:jid_malformed/0` -/
def jidMalformed : Element := stanzaError "400" "modify" "jid-malformed"

/-- `mongoose_xmpp_errors:not_allowed/0` -/
def notAllowed : Element := stanzaError "405" "cancel" "not-allowed"

/-- `jlib:swap_from_to_attrs/1` -/
def swapFromToAttrs (attrs : List (String × String)) : List (String × String) :=
  match attrs.lookup "from", attrs.lookup "to" with
  | some sender, some receiver => putAttr "from" receiver (putAttr "to" sender attrs)
  | some sender, none => putAttr "to" sender (removeAttr "from" attrs)
  | none, some receiver => putAttr "from" receiver (removeAttr "to" attrs)
  | none, none => attrs

/-- `jlib:make_error_reply/2` on an element. -/
def makeErrorReply (el error : Element) : Element :=
  (el.withAttrs (putAttr "type" "error" (swapFromToAttrs el.attrs))).addChild error

/-- An error reply is an element of the same name. -/
@[simp] theorem name_makeErrorReply (el error : Element) :
    (makeErrorReply el error).name = el.name := rfl

/-- `jlib:replace_from_to/3` -/
def replaceFromTo (sender : Jid) (receiver : Option Jid) (el : Element) : Element :=
  match receiver with
  | none => el.withAttrs (putAttr "from" sender.toBinary (removeAttr "to" el.attrs))
  | some receiver =>
    el.withAttrs (putAttr "from" sender.toBinary (putAttr "to" receiver.toBinary el.attrs))

@[simp] theorem name_replaceFromTo (sender : Jid) (receiver : Option Jid) (el : Element) :
    (replaceFromTo sender receiver el).name = el.name := by
  cases receiver <;> rfl

/-- The namespace of delays. -/
def nsDelay : String := "urn:xmpp:delay"

variable (el : Element)

/-- `jlib:maybe_append_delay/4` -/
def maybeAppendDelay (sender : Jid) (timestamp : ℕ) (desc : String) : Element :=
  if el.children.any fun child => child.name = "delay" then el
  else el.addChild (.mk "delay"
    [("xmlns", nsDelay), ("stamp", lib.rfc3339 timestamp), ("from", sender.toBinary)] [] desc)

/-! ## IQs -/

/-- The type of an IQ request. -/
inductive IqType
  | set
  | get
  deriving DecidableEq

/-- `#iq{}` of a request. -/
structure Iq where
  /-- The attribute `id`. -/
  id : String
  /-- `set` or `get` -/
  type : IqType
  xmlns : String
  subEl : Element

/-- `jlib:iq_query_info/1`: the request that an element is, `none` for `not_iq`, `invalid` and
`reply`. -/
def iqQueryInfo : Option Iq :=
  if el.name = "iq" then
    match el.attr? "type", el.children with
    | some "set", [subEl] => request .set subEl
    | some "get", [subEl] => request .get subEl
    | _, _ => none
  else none
where
  request (type : IqType) (subEl : Element) : Option Iq :=
    match subEl.attr? "xmlns" with
    | none => none
    | some "" => none
    | some xmlns => some ⟨(el.attr? "id").getD "", type, xmlns, subEl⟩

/-- `jlib:iq_to_xml/1` of a result with the given child. -/
def iqResult (iq : Iq) (child : Element) : Element :=
  .mk "iq" [("id", iq.id), ("type", "result")] [child] ""

/-! ## Accumulators -/

/-- The session of a resource: `{Timestamp, Pid}`. -/
structure Sid where
  timestamp : ℕ
  pid : ℕ
  deriving DecidableEq

/-- A `mongoose_acc` with the stanza it carries and the fields that survive `strip`; the requests
that hook handlers add to it are kept apart. -/
structure Acc where
  element : Element
  fromJid : Option Jid
  toJid : Option Jid
  timestamp : ℕ := 0
  /-- `{c2s, origin_sid}` -/
  originSid : Option Sid := none
  /-- `{c2s, origin_jid}` -/
  originJid : Option Jid := none
  /-- `{c2s, receiver_sid}` -/
  receiverSid : Option Sid := none
  /-- `{mod_stream_management, buffer_ref}` -/
  bufferRef : Option ℕ := none

namespace Acc

variable (acc : Acc)

/-- `mongoose_acc:stanza_name/1` -/
def stanzaName : String := acc.element.name

/-- `mongoose_acc:stanza_type/1` -/
def stanzaType : Option String := acc.element.attr? "type"

variable (fromJid toJid : Option Jid)

/-- `mongoose_acc:update_stanza/2` -/
def updateStanza (el : Element) : Acc :=
  { acc with element := el, fromJid := fromJid, toJid := toJid }

theorem stanzaName_id : (id acc).stanzaName = acc.stanzaName := rfl

@[simp] theorem stanzaName_updateStanza (el : Element) :
    (acc.updateStanza fromJid toJid el).stanzaName = el.name := rfl

end Acc

/-- `mongoose_acc:new/1` of an element: an address that is not given is taken from the element, and
`none` stands for the crash on an attribute that is missing or malformed. -/
def newAcc (fromJid : Jid) (toJid : Option Jid) : Option Acc :=
  match toJid with
  | some _ => some { element := el, fromJid := some fromJid, toJid := toJid }
  | none => do
      let receiver ← lib.fromBinary (← el.attr? "to")
      return { element := el, fromJid := some fromJid, toJid := some receiver }

end MongooseIM.Xmpp
