import MongooseIM.GlobalDistrib.Bounce
import MongooseIM.GlobalDistrib.Override

/-! # The retries of a bounced message

A message on its way comes into the bounce storage of a host at most as often as it has retries
left there. -/

namespace MongooseIM.GlobalDistrib.Bounce

open Xmpp

/-- One in the bounce storage of a host, else zero. -/
def Place.storedAt (host : String) : Place → ℕ
  | .stored storing => if storing = host then 1 else 0
  | _ => 0

/-- How often a message comes into the bounce storage of a host. -/
def storings (opts : String → Opts) (host : String) : Journey → List GlobalDistrib.Event → ℕ
  | _, [] => 0
  | j, e :: es =>
    match GlobalDistrib.step opts j e with
    | none => 0
    | some j' => Place.storedAt host j'.place + storings opts host j' es

/-- How often a message may still be stored on a host. -/
def retries (opts : String → Opts) (host : String) (acc : Acc) : ℤ :=
  (acc.get (.bounceTtl host)).getD ((opts host).maxRetries : ℤ)

section

variable {opts : String → Opts} {host : String}

theorem retries_setPermanent {acc : Acc} {key : Key} (value : key.Value)
    (hkey : .bounceTtl host ≠ key) :
    retries opts host (acc.setPermanent key value) = retries opts host acc := by
  simp only [retries, Acc.get_setPermanent_ne acc value hkey]

theorem retries_initialize (opts' : Opts) (localHost newId : String) (acc : Acc) :
    retries opts host (maybeInitializeMetadata opts' localHost newId acc) =
    retries opts host acc := by
  unfold maybeInitializeMetadata
  split
  · rw [retries_setPermanent _ (by simp), retries_setPermanent _ (by simp),
      retries_setPermanent _ (by simp)]
  · rfl

/-- A routing decision on `localHost` uses up one retry there if it stores the message. -/
inductive Retried (opts : String → Opts) (localHost : String) (acc : Acc) : Routing → Prop
  | continue (fpacket : FPacket)
      (hacc : ∀ host, retries opts host fpacket.acc = retries opts host acc) :
      Retried opts localHost acc (.continue fpacket)
  | forward (target : String) (fpacket : FPacket)
      (hacc : ∀ host, retries opts host fpacket.acc = retries opts host acc) :
      Retried opts localHost acc (.forward target fpacket)
  | stored (fpacket : FPacket) (hpositive : retries opts localHost acc ≠ 0)
      (hacc : ∀ host, retries opts host fpacket.acc =
        retries opts host acc - if localHost = host then 1 else 0) :
      Retried opts localHost acc (.stored fpacket)

theorem Retried.congr {localHost : String} {acc acc' : Acc} {routing : Routing}
    (hretried : Retried opts localHost acc routing)
    (hsame : ∀ host, retries opts host acc = retries opts host acc') :
    Retried opts localHost acc' routing := by
  cases hretried with
  | «continue» fpacket hacc => exact .continue _ fun host => (hacc host).trans (hsame host)
  | forward target fpacket hacc => exact .forward _ _ fun host => (hacc host).trans (hsame host)
  | stored fpacket hpositive hacc =>
    refine .stored _ ?_ fun host => ?_
    · rwa [← hsame localHost]
    · rw [← hsame host]
      exact hacc host

/-- **`maybe_store_message/3`** -/
theorem maybeStoreMessage_retried (opts : String → Opts) (localHost : String) (fpacket : FPacket) :
    Retried opts localHost fpacket.acc (maybeStoreMessage (opts localHost) localHost fpacket) := by
  simp only [maybeStoreMessage]
  split
  · exact .continue _ fun _ => rfl
  · rename_i hpositive
    refine .stored _ hpositive fun host => ?_
    split
    · rename_i h
      subst h
      simp [retries]
    · rename_i h
      have hkey : Key.bounceTtl host ≠ .bounceTtl localHost := by
        simpa using Ne.symm h
      rw [retries_setPermanent _ hkey, Int.sub_zero]

/-- **`filter_packet/3`** -/
theorem filterPacket_retried {localHost newId : String} {mapping : Mapping} {fpacket : FPacket}
    {routing : Routing}
    (hrouting : filterPacket (opts localHost) localHost newId mapping fpacket = some routing) :
    Retried opts localHost fpacket.acc routing := by
  unfold filterPacket at hrouting
  have hinit : ∀ host, retries opts host
      (maybeInitializeMetadata (opts localHost) localHost newId fpacket.acc) =
        retries opts host fpacket.acc :=
    fun host => retries_initialize _ _ _ _
  generalize maybeInitializeMetadata (opts localHost) localHost newId fpacket.acc = acc
    at hrouting hinit
  split at hrouting
  · cases hrouting
    exact .continue _ fun _ => rfl
  · obtain ⟨id, -, hrouting⟩ := Option.bind_eq_some_iff.1 hrouting
    split at hrouting
    · obtain ⟨ttl, -, hrouting⟩ := Option.bind_eq_some_iff.1 hrouting
      split at hrouting
      · cases hrouting
        exact .continue _ hinit
      · split at hrouting
        · cases hrouting
          exact .continue _ fun _ => rfl
        · cases hrouting
          refine .forward _ _ fun host => ?_
          rw [← hinit host]
          simp only [retries]
          rw [Acc.get_delete_ne _ (by simp), Acc.get_setPermanent_ne _ _ (by simp)]
    · split at hrouting
      · cases hrouting
        exact (maybeStoreMessage_retried opts localHost { fpacket with acc := acc }).congr hinit
      · cases hrouting
        exact .continue _ hinit

/-- **A step of a message** that stores it uses up one retry, and no other step does. -/
theorem retries_step {j j' : Journey} {e : GlobalDistrib.Event} (hj : GlobalDistrib.Shaped j)
    (hretries : 0 ≤ retries opts host j.fpacket.acc)
    (hstep : GlobalDistrib.step opts j e = some j') :
    0 ≤ retries opts host j'.fpacket.acc ∧
    Place.storedAt host j'.place + retries opts host j'.fpacket.acc =
      retries opts host j.fpacket.acc := by
  -- the steps that leave the storages alone
  have hkept : Place.storedAt host j'.place = 0 →
      retries opts host j'.fpacket.acc = retries opts host j.fpacket.acc →
      0 ≤ retries opts host j'.fpacket.acc ∧
        Place.storedAt host j'.place + retries opts host j'.fpacket.acc =
          retries opts host j.fpacket.acc := by
    intro hplace hsame
    rw [hplace, hsame]
    omega
  cases e with
  | filter mapping newId =>
    simp only [GlobalDistrib.step] at hstep
    split at hstep
    · obtain ⟨routing, hrouting, hstep⟩ := Option.bind_eq_some_iff.1 hstep
      cases filterPacket_retried hrouting with
      | «continue» fpacket hacc =>
        cases hstep
        exact hkept rfl (hacc host)
      | forward target fpacket hacc =>
        cases hstep
        exact hkept rfl (hacc host)
      | stored fpacket hpositive hacc =>
        cases hstep
        have := hacc host
        simp only [Place.storedAt]
        split
        · rename_i h
          subst h
          simp only [if_true] at this
          omega
        · rename_i h
          simp only [h, if_false] at this
          omega
    · cases hstep
  | deliver =>
    simp only [GlobalDistrib.step] at hstep
    split at hstep
    · rename_i delivering hplace
      cases hstep
      refine hkept ?_ ?_
      · simp only [hplace, Place.storedAt]
      · simp only [retries, hj.acc.permanent.get_strip]
    · cases hstep
  | rerouteOne sid =>
    simp only [GlobalDistrib.step] at hstep
    split at hstep
    · cases hstep
      refine hkept rfl ?_
      simp only [patchAccForReroute]
      split
      · rfl
      · split
        · exact retries_setPermanent _ (by simp)
        · rfl
    · cases hstep
  | routeAgain sender recipient packet =>
    simp only [GlobalDistrib.step] at hstep
    split at hstep
    · cases hstep
      exact hkept rfl rfl
    · cases hstep
  | rerouteMessage target =>
    simp only [GlobalDistrib.step] at hstep
    split at hstep
    · cases hstep
      exact hkept rfl (retries_setPermanent _ (by simp))
    · cases hstep
  | resend =>
    simp only [GlobalDistrib.step] at hstep
    split at hstep
    · cases hstep
      exact hkept rfl rfl
    · cases hstep
  | arrive =>
    simp only [GlobalDistrib.step] at hstep
    split at hstep
    · cases hstep
      exact hkept rfl rfl
    · cases hstep

/-- A message is not stored more often than it has retries. -/
theorem storings_le {j : Journey} (hj : GlobalDistrib.Shaped j)
    (hretries : 0 ≤ retries opts host j.fpacket.acc) (es : List GlobalDistrib.Event) :
    storings opts host j es ≤ retries opts host j.fpacket.acc := by
  induction es generalizing j with
  | nil => exact hretries
  | cons e es ih =>
    rw [storings]
    cases hstep : GlobalDistrib.step opts j e with
    | none => exact hretries
    | some j' =>
      obtain ⟨hnonneg, hsum⟩ := retries_step hj hretries hstep
      have := ih (hj.step hstep).1 hnonneg
      push_cast
      omega

end

end MongooseIM.GlobalDistrib.Bounce
