import MongooseIM.Xmpp.Stanza

/-! # Server dialback

The elements of `mongoose_s2s_dialback` and how they are read. -/

namespace MongooseIM.S2S

open Xmpp

/-- `ejabberd_s2s:fromto()`, as seen by the outgoing stream: the local and the remote domain. -/
structure FromTo where
  localServer : String
  remoteServer : String
  deriving DecidableEq

/-- The functions of the libraries that the streams call. -/
structure Lib where
  /-- `jid:nameprep/1`; `none` for `error`. -/
  nameprep : String → Option String
  /-- `jid:from_binary/1`; `none` for `error`. -/
  fromBinary : String → Option Jid
  /-- `base64:mime_decode/1`; `none` when it crashes. -/
  mimeDecode : String → Option String
  /-- `base64:encode/1` -/
  encode : String → String
  /-- `mongoose_s2s_lib:domain_utf8_to_ascii/2`; `none` for `false`. -/
  domainUtf8ToAscii : String → Option String

namespace Dialback

/-- The first two steps. -/
inductive KeyStep
  | step1
  | step2

/-- The last two steps. -/
inductive ValidityStep
  | step3
  | step4

variable (lib : Lib)

/-- The domain that an address without user and resource names. -/
def domainOf (address : String) : Option String := do
  let jid ← lib.fromBinary address
  if jid.luser = "" ∧ jid.lresource = "" then some jid.lserver else none

/-- `parse_from_to/1` -/
def parseFromTo (attrs : List (String × String)) : Option FromTo := do
  let remote ← attrs.lookup "from"
  let «local» ← attrs.lookup "to"
  let lRemoteServer ← domainOf lib remote
  let lLocalServer ← domainOf lib «local»
  return ⟨lLocalServer, lRemoteServer⟩

/-- A dialback key. -/
structure Key where
  /-- `step_1` or `step_2` -/
  step : KeyStep
  fromTo : FromTo
  streamId : String
  key : String

/-- `parse_key/1`: `some none` for `false`, `none` when it crashes. -/
def parseKey (el : Element) : Option (Option Key) :=
  let parse (step : KeyStep) : Option (Option Key) := do
    let fromTo ← parseFromTo lib el.attrs
    return some ⟨step, fromTo, (el.attr? "id").getD "", el.cdata⟩
  if el.name = "db:result" then parse .step1
  else if el.name = "db:verify" then parse .step2
  else some none

/-- The result of a verification. -/
structure Validity where
  /-- `step_3` or `step_4` -/
  step : ValidityStep
  fromTo : FromTo
  streamId : String
  isValid : Bool

/-- `parse_validity/1`: `some none` for `false`, `none` when it crashes. -/
def parseValidity (el : Element) : Option (Option Validity) :=
  let parse (step : ValidityStep) : Option (Option Validity) := do
    let fromTo ← parseFromTo lib el.attrs
    return some ⟨step, fromTo, (el.attr? "id").getD "", el.attr? "type" = some "valid"⟩
  if el.name = "db:verify" then parse .step3
  else if el.name = "db:result" then parse .step4
  else some none

variable (fromTo : FromTo)

/-- `fromto_to_attrs/1` -/
def fromtoToAttrs : List (String × String) :=
  [("from", fromTo.localServer), ("to", fromTo.remoteServer)]

/-- `is_valid_to_type/1` -/
def isValidToType (isValid : Bool) : String := if isValid then "valid" else "invalid"

/-- `step_1/2` -/
def step1 (key : String) : Element :=
  .mk "db:result" (fromtoToAttrs fromTo) [] key

/-- `step_2/3` -/
def step2 (key streamId : String) : Element :=
  .mk "db:verify" (fromtoToAttrs fromTo ++ [("id", streamId)]) [] key

/-- `step_3/3` -/
def step3 (streamId : String) (isValid : Bool) : Element :=
  .mk "db:verify" (fromtoToAttrs fromTo ++ [("id", streamId), ("type", isValidToType isValid)]) [] ""

/-- `step_4/2` -/
def step4 (isValid : Bool) : Element :=
  .mk "db:result" (fromtoToAttrs fromTo ++ [("type", isValidToType isValid)]) [] ""

end Dialback

/-- Whether the name of an element is in the namespace prefix `db`. -/
def isDialback (el : Element) : Bool := "db:".toList.isPrefixOf el.name.toList

end MongooseIM.S2S
