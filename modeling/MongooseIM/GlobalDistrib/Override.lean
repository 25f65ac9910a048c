import MongooseIM.GlobalDistrib.FilterPacket
import MongooseIM.Transition.Run

/-! # The target host of a routing decision

`reroute_message/2` sets the target of the routing call that it makes. `filter_packet/3` removes it
when it forwards the message, but not when it delivers the message on its own host. -/

namespace MongooseIM.GlobalDistrib

open Transition Xmpp Option

/-- The target is the override of a call made by `reroute_message/2`, else that of the mapping. -/
def Call.OneDecision (call : Call) : Prop :=
  call.used =
    match call.rerouted with
    | some target => some target
    | none => call.mapped

/-- **The override serves one decision, and the time to live bounds the forwards.** -/
structure Kept (j : Journey) : Prop where
  /-- Every routing decision uses the override only in the call that it was set for. -/
  decisions : ∀ call ∈ j.calls, call.OneDecision
  /-- Each forward makes the time to live smaller, and leaves it at zero or above. -/
  forwards : ∀ f ∈ j.forwards, 0 ≤ f.2 ∧ f.2 < f.1
  /-- The time to live of the message is not negative. -/
  ttl : ∀ ttl : ℤ, j.fpacket.acc.get .ttl = some ttl → 0 ≤ ttl

/-- An override that is left from an earlier call agrees with the mapping. -/
def OverrideOk (opts : String → Opts) (j : Journey) : Event → Prop
  | .filter mapping _ =>
    ∀ host, j.place = .routing host none → j.fpacket.sameUser = false →
      ∀ target : String, j.fpacket.acc.get .targetHostOverride = some target →
        mappedHost (opts host) host mapping j.fpacket.recipient = some target
  | _ => True

/-- Metadata as `mod_global_distrib` makes it. -/
structure WellMade (acc : Acc) : Prop where
  permanent : acc.Permanent
  initialized : acc.get .origin ≠ none → acc.get .id ≠ none ∧ acc.get .ttl ≠ none
  ttl : ∀ ttl : ℤ, acc.get .ttl = some ttl → 0 ≤ ttl

theorem WellMade.empty : WellMade {} :=
  ⟨Acc.Permanent.empty, (fun h => absurd rfl h), fun _ h => nomatch h⟩

variable {acc : Acc}

/-- Setting a field that is neither the origin, the identifier nor the time to live. -/
theorem WellMade.setPermanent (hacc : WellMade acc) {key : Key} (value : key.Value)
    (horigin : .origin ≠ key) (hid : .id ≠ key) (httl : .ttl ≠ key) :
    WellMade (acc.setPermanent key value) := by
  refine ⟨hacc.permanent.setPermanent key value, ?_, ?_⟩
  · rw [Acc.get_setPermanent_ne acc value horigin, Acc.get_setPermanent_ne acc value hid,
      Acc.get_setPermanent_ne acc value httl]
    exact hacc.initialized
  · rw [Acc.get_setPermanent_ne acc value httl]
    exact hacc.ttl

/-- **`maybe_initialize_metadata/1`** gives the message an origin, an identifier and a time to live,
and leaves the override. -/
theorem WellMade.initialize (hacc : WellMade acc) (opts : Opts) (localHost newId : String) :
    let acc' := maybeInitializeMetadata opts localHost newId acc
    WellMade acc' ∧ acc'.get .origin ≠ none ∧
      acc'.get .targetHostOverride = acc.get .targetHostOverride := by
  cases horigin : acc.get .origin with
  | some origin =>
    simp only [maybeInitializeMetadata, horigin]
    exact ⟨hacc, by simp, trivial⟩
  | none =>
    simp only [maybeInitializeMetadata, horigin]
    have httl : (((acc.setPermanent .ttl (opts.messageTtl : ℤ)).setPermanent .id
        newId).setPermanent .origin localHost).get .ttl = some (opts.messageTtl : ℤ) := by
      rw [Acc.get_setPermanent_ne _ _ (by simp), Acc.get_setPermanent_ne _ _ (by simp),
        Acc.get_setPermanent]
    refine ⟨⟨?_, fun _ => ⟨?_, ?_⟩, ?_⟩, ?_, ?_⟩
    · exact ((hacc.permanent.setPermanent _ _).setPermanent _ _).setPermanent _ _
    · rw [Acc.get_setPermanent_ne _ _ (by simp), Acc.get_setPermanent]
      simp
    · rw [httl]
      simp
    · intro value hvalue
      cases (httl.symm.trans hvalue)
      exact Int.natCast_nonneg _
    · rw [Acc.get_setPermanent]
      simp
    · rw [Acc.get_setPermanent_ne _ _ (by simp), Acc.get_setPermanent_ne _ _ (by simp),
        Acc.get_setPermanent_ne _ _ (by simp)]

/-- What a routing decision makes of the metadata: a forward lowers the time to live by one. -/
inductive Routed (acc : Acc) : Routing → Prop
  | continue (fpacket : FPacket) (hacc : WellMade fpacket.acc) : Routed acc (.continue fpacket)
  | forward (target : String) (fpacket : FPacket) (hacc : WellMade fpacket.acc) (ttl : ℤ)
      (hbefore : acc.get .ttl = some ttl) (hpositive : 0 < ttl)
      (hafter : fpacket.acc.get .ttl = some (ttl - 1 : ℤ)) : Routed acc (.forward target fpacket)
  | stored (fpacket : FPacket) (hacc : WellMade fpacket.acc) : Routed acc (.stored fpacket)

/-- **`filter_packet/3`** does not crash, and keeps the metadata well made. -/
theorem filterPacket_routed {fpacket : FPacket} (hacc : WellMade fpacket.acc) (opts : Opts)
    (localHost newId : String) (mapping : Mapping) :
    ∃ routing, filterPacket opts localHost newId mapping fpacket = some routing ∧
    Routed (maybeInitializeMetadata opts localHost newId fpacket.acc) routing := by
  obtain ⟨hacc', horigin, -⟩ := hacc.initialize opts localHost newId
  obtain ⟨hid, httl⟩ := hacc'.initialized horigin
  unfold filterPacket
  generalize maybeInitializeMetadata opts localHost newId fpacket.acc = acc at hacc' hid httl
  obtain ⟨id, hid⟩ := ne_none_iff_exists'.1 hid
  obtain ⟨ttl, httl⟩ := ne_none_iff_exists'.1 httl
  have hnonneg : (0 : ℤ) ≤ ttl := hacc'.ttl ttl httl
  split
  · exact ⟨_, rfl, .continue _ hacc⟩
  · simp only [hid, httl, bind_eq_bind, bind_some]
    cases targetHost opts localHost newId mapping fpacket with
    | some target =>
      simp only
      split
      · exact ⟨_, rfl, .continue _ hacc'⟩
      · split
        · exact ⟨_, rfl, .continue _ hacc⟩
        · rename_i hzero
          have hafter : ((acc.setPermanent .ttl (ttl - 1 : ℤ)).delete .targetHostOverride).get
              .ttl = some (ttl - 1 : ℤ) := by
            rw [Acc.get_delete_ne _ (by decide), Acc.get_setPermanent]
          have hpositive : (0 : ℤ) < ttl := Int.lt_iff_le_and_ne.2 ⟨hnonneg, Ne.symm hzero⟩
          refine ⟨_, rfl, .forward _ _ ⟨?_, fun _ => ⟨?_, ?_⟩, ?_⟩ ttl httl hpositive hafter⟩
          · exact (hacc'.permanent.setPermanent _ _).delete _
          · show ((acc.setPermanent .ttl (ttl - 1 : ℤ)).delete .targetHostOverride).get .id ≠ none
            rw [Acc.get_delete_ne _ (by decide), Acc.get_setPermanent_ne _ _ (by decide), hid]
            exact some_ne_none _
          · rw [hafter]
            exact some_ne_none _
          · intro value hvalue
            have hsame : (ttl - 1 : ℤ) = value := some.inj (hafter.symm.trans hvalue)
            have hafter : (0 : ℤ) ≤ ttl - 1 := Int.le_sub_one_of_lt hpositive
            rwa [hsame] at hafter
    | none =>
      simp only [maybeStoreMessage]
      split
      · split
        · exact ⟨_, rfl, .continue _ hacc'⟩
        · refine ⟨_, rfl, .stored _ ?_⟩
          exact hacc'.setPermanent _ (by simp) (by simp) (by simp)
      · exact ⟨_, rfl, .continue _ hacc'⟩

/-- The metadata is well made, and a call of `reroute_message/2` has its override. -/
structure Shaped (j : Journey) : Prop where
  acc : WellMade j.fpacket.acc
  rerouted : ∀ host target, j.place = .routing host (some target) →
    j.fpacket.acc.get .targetHostOverride = some target

section

variable {opts : String → Opts} {j j' : Journey}

/-- **The decision of a routing call** is the right one exactly if no other override is left. -/
theorem Shaped.oneDecision_iff (hj : Shaped j) {host : String} {rerouted : Option String}
    (hplace : j.place = .routing host rerouted) (hother : j.fpacket.sameUser = false)
    (mapping : Mapping) (newId : String) :
    Call.OneDecision ⟨rerouted, mappedHost (opts host) host mapping j.fpacket.recipient,
    targetHost (opts host) host newId mapping j.fpacket⟩ ↔
      OverrideOk opts j (.filter mapping newId) := by
  obtain ⟨-, -, hkept⟩ := hj.acc.initialize (opts host) host newId
  simp only [Call.OneDecision, targetHost, hkept, OverrideOk, hplace, Place.routing.injEq]
  cases rerouted with
  | some target =>
    rw [hj.rerouted host target hplace]
    exact iff_of_true rfl fun _ h => nomatch h.2
  | none =>
    cases hoverride : j.fpacket.acc.get .targetHostOverride with
    | none => exact iff_of_true rfl fun _ _ _ _ h => nomatch h
    | some target =>
      simp only [lookupRecipientsHost]
      constructor
      · rintro hsame host' ⟨rfl, -⟩ - target' htarget
        rw [← hsame]
        exact htarget
      · intro hok
        exact (hok host ⟨rfl, trivial⟩ hother target rfl).symm

/-- **A routing decision**: the metadata stays well made, and what is recorded is right exactly if
the override is. -/
theorem Shaped.filter (hj : Shaped j) {mapping : Mapping} {newId : String}
    (hstep : step opts j (.filter mapping newId) = some j') :
    Shaped j' ∧ (Kept j → (Kept j' ↔ OverrideOk opts j (.filter mapping newId))) := by
  simp only [step] at hstep
  split at hstep
  · rename_i host rerouted hplace
    obtain ⟨routing, hrouting, hrouted⟩ := filterPacket_routed hj.acc (opts host) host newId mapping
    rw [hrouting, bind_eq_bind, bind_some] at hstep
    -- the record of the call
    have hcalls : (∀ call ∈ j.calls, call.OneDecision) →
        ((∀ call ∈ (if j.fpacket.sameUser then j.calls
          else j.calls ++ [⟨rerouted, mappedHost (opts host) host mapping j.fpacket.recipient,
            targetHost (opts host) host newId mapping j.fpacket⟩]), call.OneDecision) ↔
          OverrideOk opts j (.filter mapping newId)) := by
      intro hbefore
      cases hsame : j.fpacket.sameUser with
      | true =>
        refine iff_of_true (by simpa using hbefore) ?_
        intro _ _ hother
        rw [hsame] at hother
        cases hother
      | false =>
        rw [← hj.oneDecision_iff hplace hsame mapping newId]
        simp only [Bool.false_eq_true, if_false, List.mem_append, List.mem_singleton]
        constructor
        · intro h
          exact h _ (.inr rfl)
        · rintro h call (hcall | rfl)
          · exact hbefore call hcall
          · exact h
    generalize (if j.fpacket.sameUser then j.calls else j.calls ++ _) = calls at hstep hcalls
    cases hrouted with
    | «continue» fpacket hacc =>
      cases hstep
      refine ⟨⟨hacc, fun _ _ h => nomatch h⟩, fun hkept => ?_⟩
      rw [← hcalls hkept.decisions]
      exact ⟨Kept.decisions, fun h => ⟨h, hkept.forwards, hacc.ttl⟩⟩
    | stored fpacket hacc =>
      cases hstep
      refine ⟨⟨hacc, fun _ _ h => nomatch h⟩, fun hkept => ?_⟩
      rw [← hcalls hkept.decisions]
      exact ⟨Kept.decisions, fun h => ⟨h, hkept.forwards, hacc.ttl⟩⟩
    | forward target fpacket hacc ttl hbefore hpositive hafter =>
      cases hstep
      refine ⟨⟨hacc, fun _ _ h => nomatch h⟩, fun hkept => ?_⟩
      rw [← hcalls hkept.decisions]
      refine ⟨Kept.decisions, fun h => ⟨h, ?_, hacc.ttl⟩⟩
      intro f hf
      rcases List.mem_append.1 hf with hf | hf
      · exact hkept.forwards f hf
      · obtain rfl := List.mem_singleton.1 hf
        rw [hbefore, hafter]
        show 0 ≤ ttl - 1 ∧ ttl - 1 < ttl
        omega
  · cases hstep

/-- Steps between the decisions keep the time to live and what is recorded. -/
theorem Kept.keep (hkept : Kept j) (hcalls : j'.calls = j.calls)
    (hforwards : j'.forwards = j.forwards)
    (httl : j'.fpacket.acc.get .ttl = j.fpacket.acc.get .ttl) : Kept j' := by
  refine ⟨?_, ?_, ?_⟩
  · rw [hcalls]
    exact hkept.decisions
  · rw [hforwards]
    exact hkept.forwards
  · rw [httl]
    exact hkept.ttl

theorem WellMade.strip (hacc : WellMade acc) : WellMade acc.strip := by
  refine ⟨hacc.permanent.strip, ?_, ?_⟩
  · simp only [hacc.permanent.get_strip]
    exact hacc.initialized
  · simp only [hacc.permanent.get_strip]
    exact hacc.ttl

/-- `patch_acc_for_reroute/2` keeps the metadata. -/
theorem WellMade.patchAccForReroute {fpacket : FPacket} (hacc : WellMade fpacket.acc) (sid : Sid) :
    WellMade (patchAccForReroute fpacket sid) ∧
    (GlobalDistrib.patchAccForReroute fpacket sid).get .ttl = fpacket.acc.get .ttl := by
  unfold GlobalDistrib.patchAccForReroute
  split
  · exact ⟨hacc, rfl⟩
  · split
    · exact ⟨hacc.setPermanent _ (by simp) (by simp) (by simp),
        Acc.get_setPermanent_ne _ _ (by simp)⟩
    · exact ⟨hacc, rfl⟩

/-- **A step of a message.** -/
theorem Shaped.step (hj : Shaped j) {e : Event} (hstep : step opts j e = some j') :
    Shaped j' ∧ (Kept j → (Kept j' ↔ OverrideOk opts j e)) := by
  cases e with
  | filter mapping newId => exact hj.filter hstep
  | deliver =>
    simp only [GlobalDistrib.step] at hstep
    split at hstep
    · rename_i host hplace
      cases hstep
      refine ⟨⟨hj.acc.strip, ?_⟩, fun hkept => iff_of_true (hkept.keep rfl rfl ?_) trivial⟩
      · intro host' target h
        rw [hplace] at h
        cases h
      · exact hj.acc.permanent.get_strip _
    · cases hstep
  | rerouteOne sid =>
    simp only [GlobalDistrib.step] at hstep
    split at hstep
    · cases hstep
      obtain ⟨hacc, httl⟩ := hj.acc.patchAccForReroute sid
      exact ⟨⟨hacc, fun _ _ h => nomatch h⟩,
        fun hkept => iff_of_true (hkept.keep rfl rfl httl) trivial⟩
    · cases hstep
  | routeAgain sender recipient packet =>
    simp only [GlobalDistrib.step] at hstep
    split at hstep
    · cases hstep
      exact ⟨⟨hj.acc, fun _ _ h => nomatch h⟩,
        fun hkept => iff_of_true (hkept.keep rfl rfl rfl) trivial⟩
    · cases hstep
  | rerouteMessage target =>
    simp only [GlobalDistrib.step] at hstep
    split at hstep
    · cases hstep
      refine ⟨⟨hj.acc.setPermanent _ (by simp) (by simp) (by simp), ?_⟩,
        fun hkept => iff_of_true (hkept.keep rfl rfl ?_) trivial⟩
      · intro host' target' h
        cases h
        exact Acc.get_setPermanent _ _ _
      · exact Acc.get_setPermanent_ne _ _ (by simp)
    · cases hstep
  | resend =>
    simp only [GlobalDistrib.step] at hstep
    split at hstep
    · cases hstep
      exact ⟨⟨hj.acc, fun _ _ h => nomatch h⟩,
        fun hkept => iff_of_true (hkept.keep rfl rfl rfl) trivial⟩
    · cases hstep
  | arrive =>
    simp only [GlobalDistrib.step] at hstep
    split at hstep
    · cases hstep
      exact ⟨⟨hj.acc, fun _ _ h => nomatch h⟩,
        fun hkept => iff_of_true (hkept.keep rfl rfl rfl) trivial⟩
    · cases hstep

end

/-- A new message in the router of a host. -/
def start (host : String) (sender recipient : Jid) (packet : Element) : Journey where
  place := .routing host none
  fpacket := ⟨sender, recipient, {}, packet⟩

/-- **A rerouting override serves one routing decision**, and the time to live bounds the forwards,
exactly if no decision meets an override of an earlier one that differs from the mapping. -/
theorem override_serves_one_decision (opts : String → Opts) (host : String)
    (sender recipient : Jid) (packet : Element) (es : List Event) :
    Guarded (step opts) (OverrideOk opts) (start host sender recipient packet) es ↔
    ∀ h j, h <+: es → run (step opts) (start host sender recipient packet) h = some j →
      Kept j := by
  have hstart : Shaped (start host sender recipient packet) :=
    ⟨WellMade.empty, fun _ _ h => nomatch h⟩
  have hkept : Kept (start host sender recipient packet) :=
    ⟨(fun _ h => nomatch h), (fun _ h => nomatch h), WellMade.empty.ttl⟩
  have hbroken : ∀ j e, Shaped j → ¬ OverrideOk opts j e → ∃ j', step opts j e = some j' := by
    intro j e hj hbroken
    cases e with
    | filter mapping newId =>
      by_cases hplace : ∃ host, j.place = .routing host none
      · obtain ⟨host, hplace⟩ := hplace
        obtain ⟨routing, hrouting, -⟩ := filterPacket_routed hj.acc (opts host) host newId mapping
        simp only [step, hplace, hrouting, bind_eq_bind, bind_some]
        cases routing <;> exact ⟨_, rfl⟩
      · exact absurd (fun host h => absurd ⟨host, h⟩ hplace) hbroken
    | _ => exact absurd trivial hbroken
  rw [guarded_iff_holds_along_of_broken (P := fun _ j => Shaped j ∧ Kept j)
    (fun _ j e hP => hbroken j e hP.1)
    (fun _ j e j' hP hstep => by
      obtain ⟨hshaped, hiff⟩ := hP.1.step hstep
      rw [← hiff hP.2]
      exact ⟨And.right, fun h => ⟨hshaped, h⟩⟩)
    ⟨hstart, hkept⟩ es]
  have hshaped : ∀ h j, run (step opts) (start host sender recipient packet) h = some j →
      Shaped j := by
    intro h j hrun
    exact run_induction (P := fun _ j => Shaped j) (fun _ j e j' hj hstep => (hj.step hstep).1)
      hstart hrun
  constructor
  · intro hall h j hinit hrun
    exact (hall h j hinit hrun).2
  · intro hall h j hinit hrun
    exact ⟨hshaped h j hrun, hall h j hinit hrun⟩

/-! ### A session that closes after a reroute -/

/-- Every host serves `global`. -/
def globalOpts (_ : String) : Opts where
  globalHost := "global"

/-- A mapping that gives one answer. -/
def mappingTo (host : Option String) : Mapping := ⟨fun _ => host, fun _ => host⟩

/-- Bob opens a session on `h1`, from where the message is rerouted to him, and one on `h2`; the one
on `h1` closes without having acknowledged it. -/
def closedSessionRun : List Event :=
  [.filter (mappingTo none) "id", .rerouteMessage "h1", .filter (mappingTo (some "h1")) "id'",
    .deliver, .rerouteOne ⟨0, 1⟩, .filter (mappingTo (some "h2")) "id''"]

/-- **An override outlives the delivery of the message.** -/
theorem override_outlives_delivery : ∃ j, run (step globalOpts)
      (start "h1" ⟨"alice", "global", ""⟩ ⟨"bob", "global", ""⟩ (.mk "message" [] [] ""))
      closedSessionRun = some j ∧
    ⟨none, some "h2", some "h1"⟩ ∈ j.calls ∧ ¬ Kept j := by
  refine ⟨_, rfl, ?_⟩
  have hcall : (⟨none, some "h2", some "h1"⟩ : Call) ∈
      [⟨none, none, none⟩, ⟨some "h1", some "h1", some "h1"⟩,
        (⟨none, some "h2", some "h1"⟩ : Call)] := by simp
  refine ⟨hcall, fun hkept => ?_⟩
  have hused : Call.OneDecision ⟨none, some "h2", some "h1"⟩ := hkept.decisions _ hcall
  simp [Call.OneDecision] at hused

end MongooseIM.GlobalDistrib
