import MongooseIM.Erlang.Binaries
import MongooseIM.Erlang.Bytes
import MongooseIM.Muc.Admin
import MongooseIM.Muc.Presence

/-! # Queries between occupants

An occupant sends an IQ to the nick of another, and the room passes it on. The server of an account
answers a vCard request to its full JID from the bare one. So such a request goes to the bare JID,
and the resource is packed into the id that the answer repeats. -/

namespace MongooseIM.Muc

open Erlang Xmpp Option

/-- `base64` -/
structure Base64 where
  /-- `base64:encode/1` -/
  encode : String → String
  /-- `base64:decode/1`; none when it fails. -/
  decode : String → Option String
  decode_encode : ∀ s, decode (encode s) = some s

/-- The separator of a packed id. -/
def nul : Char := '\x00'

variable (s : String)

/-- `binary:split/2` at the separator -/
def binarySplit : List String :=
  match splitOnce nul s with
  | (before, some rest) => [before, rest]
  | (whole, none) => [whole]

variable (originalId resource : String)

/-- `<<"ejab\0", OriginalId/binary, 0, Resource/binary>>` -/
def packed : String :=
  "ejab" ++ String.singleton nul ++ originalId ++ String.singleton nul ++ resource

variable (b : Base64) (originalId resource : String)

/-- `stanzaid_pack/2` -/
def stanzaidPack : String :=
  "berd" ++ b.encode (packed originalId resource)

/-- The rest of a text after its first four characters, when these are `berd`. -/
def dropBerd : Option String :=
  match s.toList with
  | 'b' :: 'e' :: 'r' :: 'd' :: rest => some (String.ofList rest)
  | _ => none

/-- `stanzaid_unpack/1`; none when it fails. -/
def stanzaidUnpack (s : String) : Option (String × String) := do
  let stanzaIdBase64 ← dropBerd s
  let stanzaId ← b.decode stanzaIdBase64
  match binarySplit stanzaId with
  | ["ejab", originalId, resource] => some (originalId, resource)
  | _ => none

variable (lib : Library)

/-- `jid:replace_resource/2`; none for `error`. -/
def replaceResource (j : Jid) (resource : String) : Option Jid :=
  (lib.resourceprep resource).map j.replaceResourceNoprep

namespace Room

/-- `is_user_online_iq/3`; none when it fails outside of `try`. -/
def isUserOnlineIq (r : Room) (stanzaId : String) (jid : Jid) : Option (Bool × String × Jid) :=
  if jid.lresource ≠ "" then some (r.isUserOnline jid, stanzaId, jid)
  else
    match stanzaidUnpack b stanzaId with
    | some (originalId, resource) =>
      (replaceResource lib jid resource).map fun jidWithResource =>
        (r.isUserOnline jidWithResource, originalId, jidWithResource)
    | none => some (r.isUserOnline jid, stanzaId, jid)

end Room

theorem binarySplit_packed : binarySplit (packed originalId resource) =
    ["ejab", originalId ++ String.singleton nul ++ resource] := by
  have hsplit : splitOnce nul (packed originalId resource) =
      ("ejab", some (originalId ++ String.singleton nul ++ resource)) := by
    have hassoc : packed originalId resource =
        "ejab" ++ String.singleton nul ++ (originalId ++ String.singleton nul ++ resource) := by
      simp only [packed, String.append_assoc]
    rw [hassoc]
    exact splitOnce_append (by decide)
  rw [binarySplit, hsplit]

theorem dropBerd_append : dropBerd ("berd" ++ s) = some s := by
  rw [dropBerd, String.toList_append]
  show some (String.ofList s.toList) = some s
  rw [String.ofList_toList]

/-- **A packed id is not unpacked**, whatever it is made of. -/
theorem stanzaidUnpack_stanzaidPack :
    stanzaidUnpack b (stanzaidPack b originalId resource) = none := by
  rw [stanzaidUnpack, stanzaidPack, dropBerd_append, bind_eq_bind, bind_some,
    b.decode_encode, bind_some, binarySplit_packed]
  rfl

/-- An answer with a packed id from a bare JID stays with the bare JID and the packed id. -/
theorem isUserOnlineIq_stanzaidPack (r : Room) (j : Jid) (originalId resource : String) :
    r.isUserOnlineIq b lib (stanzaidPack b originalId resource) j.toBare =
    some (r.isUserOnline j.toBare, stanzaidPack b originalId resource, j.toBare) := by
  have hbare : ¬ j.toBare.lresource ≠ "" := not_not_intro rfl
  rw [Room.isUserOnlineIq, if_neg hbare, stanzaidUnpack_stanzaidPack]

/-- No packed id is decoded, and no answer from a bare JID is attributed to the full one. -/
theorem stanzaid_never (b : Base64) (lib : Library) (r : Room) (originalId : String) (j : Jid) :
    stanzaidUnpack b (stanzaidPack b originalId j.lresource) ≠ some (originalId, j.lresource) ∧
    (j.lresource ≠ "" → r.isUserOnlineIq b lib (stanzaidPack b originalId j.lresource) j.toBare ≠
      some (r.isUserOnline j, originalId, j)) := by
  constructor
  · rw [stanzaidUnpack_stanzaidPack]
    exact (some_ne_none _).symm
  · intro hfull heq
    rw [isUserOnlineIq_stanzaidPack] at heq
    -- the answer is attributed to the bare JID, which is not the full one
    have hjid : j.toBare = j := congrArg (fun answer => answer.2.2) (some.inj heq)
    exact hfull (congrArg Jid.lresource hjid).symm

/-- `base64:encode/1` and `base64:decode/1` on texts; bytes that are not UTF-8 are no text. -/
def erlangBase64 : Base64 where
  encode s := String.ofList (base64Encode (utf8 s))
  decode s := (base64Decode (utf8 s)).bind ofUtf8
  decode_encode s := by rw [base64Decode_base64Encode, bind_some, ofUtf8_utf8]

/-- The request `vc1` of a vCard from a tablet. -/
theorem stanzaidUnpack_tablet :
    stanzaidPack erlangBase64 "vc1" "tablet" = "berdZWphYgB2YzEAdGFibGV0" ∧
    nul ∉ "vc1".toList ∧ nul ∉ "tablet".toList ∧
    stanzaidUnpack erlangBase64 (stanzaidPack erlangBase64 "vc1" "tablet") ≠
    some ("vc1", "tablet") := by
  refine ⟨?_, by decide, by decide, ?_⟩
  · decide +kernel
  · rw [stanzaidUnpack_stanzaidPack]
    exact (some_ne_none _).symm

end MongooseIM.Muc
