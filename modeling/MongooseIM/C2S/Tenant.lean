import MongooseIM.C2S.Sessions

/-! # The domain of a session

After the SASL exchange, the domain of a session is that of its address and its host type is that of
the domain, as long as every header of the authenticated stream names the domain of the address.
A header that names another hosted domain changes the domain and the host type and keeps the
address. -/

namespace MongooseIM.C2S

open Xmpp StreamManagement Transition Option

variable {server : Server}

/-- The domain of the session is that of its address, and the host type is that of the domain. -/
def TenantConsistent (server : Server) (data : Data) : Prop :=
  (∃ jid, data.jid = some jid ∧ jid.lserver = data.lserver) ∧
    data.hostType = server.getDomainHostType data.lserver

/-- Whether a step takes the header of an authenticated stream to a domain that is not that of the
address. -/
def namesOtherDomain (server : Server) (p : Process) (input : Input) : Bool :=
  match p.state, p.event? input, p.data.jid with
  | .waitForStream .authenticated, some (.xml (.streamStart attrs)), some jid =>
    (streamDomain server attrs).any fun domain => domain.1 ≠ jid.lserver
  | _, _, _ => false

/-- What holds of the domain of a session, by its phase. -/
structure Tenant (server : Server) (phase : Phase) (data : Data) : Prop where
  /-- After the first header, the domain is a prepared one and the host type is its own. -/
  identified : phase = .identified →
    server.lib.nameprep data.lserver = some data.lserver ∧
      data.hostType = server.getDomainHostType data.lserver
  /-- After the SASL exchange, domain, host type and address belong together. -/
  consistent : phase = .authenticated ∨ phase = .bound → TenantConsistent server data
  bound : data.stateMod.isSome → phase = .bound

variable {data : Data}

/-- The state of stream management does not matter to the domain. -/
theorem Tenant.mergeModState {phase : Phase} (h : Tenant server phase data)
    (hphase : phase = .bound) (smState : SmState) :
    Tenant server phase (data.mergeModState smState) :=
  ⟨h.identified, h.consistent, fun _ => hphase⟩

variable {attrs : List (String × String)} {lserver hostType : String}

theorem streamDomain_eq_some
    (hprep : ∀ s t, server.lib.nameprep s = some t → server.lib.nameprep t = some t)
    (h : streamDomain server attrs = some (lserver, hostType)) :
    server.lib.nameprep lserver = some lserver ∧
    server.getDomainHostType lserver = some hostType := by
  simp only [streamDomain, bind_eq_bind, bind_eq_some_iff, pure_def, some.injEq, Prod.mk.injEq] at h
  obtain ⟨_, hname, _, htype, rfl, rfl⟩ := h
  exact ⟨hprep _ _ hname, htype⟩

variable {jid : Jid}

/-- The address that the SASL exchange makes is one of the domain. -/
theorem lserver_makeBare {user : String} (h : server.lib.makeBare user lserver = some jid) :
    server.lib.nameprep lserver = some jid.lserver := by
  simp only [Library.makeBare, bind_eq_bind, bind_eq_some_iff, pure_def, some.injEq] at h
  obtain ⟨_, -, _, hname, rfl⟩ := h
  exact hname

/-- A resource does not change the domain of an address. -/
theorem jid_replaceResource (h : data.jid = some jid) (generated resource : String) :
    ∃ jid', (data.replaceResource generated resource).jid = some jid' ∧
    jid'.lserver = jid.lserver := by
  refine ⟨jid.replaceResourceNoprep (if resource = "" then generated else resource), ?_, rfl⟩
  rw [Data.replaceResource, h]
  rfl

variable {p : Process} {input : Input}

/-- A header that names no other domain names that of the address. -/
theorem eq_lserver_of_namesOtherDomain (hok : namesOtherDomain server p input = false)
    (hstate : p.state = .waitForStream .authenticated)
    (hevent : p.event? input = some (.xml (.streamStart attrs)))
    (hjid : p.data.jid = some jid)
    (hdomain : streamDomain server attrs = some (lserver, hostType)) : jid.lserver = lserver := by
  simp only [namesOtherDomain, hstate, hevent, hjid, hdomain, any_some,
    decide_eq_false_iff_not, ne_eq, not_not] at hok
  exact hok.symm

/-- **What an event does to the domain.** -/
theorem tenant_outcome
    (hprep : ∀ s t, server.lib.nameprep s = some t → server.lib.nameprep t = some t)
    {oracle : Oracle} {data' : Data} {state state' : State} {event : Event} {n : ℕ}
    {actions : List Action} (htenant : Tenant server state.phase data)
    (hheader : ∀ attrs jid lserver hostType, state = .waitForStream .authenticated →
    event = .xml (.streamStart attrs) → data.jid = some jid →
    streamDomain server attrs = some (lserver, hostType) → jid.lserver = lserver)
    (hpeer : ∀ old, oracle.peer = .ok old → TenantConsistent server old)
    (h : Outcome server oracle data state event (.next state' data' n actions)) :
    Tenant server state'.phase data' := by
  -- a session that has no resource has no stream management
  have hnone (hphase : state.phase ≠ .bound) {α : Prop} (hsm : data.stateMod.isSome) : α :=
    absurd (htenant.bound hsm) hphase
  cases h with
  | idle _ hphase =>
    rcases hphase with hphase | ⟨hphase, hphase'⟩
    · rw [hphase]
      exact htenant
    · rw [hphase']
      refine ⟨fun h => (by cases h), fun h => (by rcases h with h | h <;> cases h), fun hsm => ?_⟩
      exact hnone (by rw [hphase]; decide) hsm
  | count hsm _ hphase =>
    rw [hphase]
    exact htenant.mergeModState (htenant.bound (by rw [hsm]; rfl)) _
  | reply _ hphase =>
    rw [hphase]
    exact htenant
  | enable _ hphase => exact htenant.mergeModState hphase _
  | ack _ hsm => exact htenant.mergeModState (htenant.bound (by rw [hsm]; rfl)) _
  | unbuffered => exact htenant
  | buffered _ _ hsm => exact htenant.mergeModState (htenant.bound (by rw [hsm]; rfl)) _
  | suspend _ hsm =>
    have hphase := htenant.bound (by rw [hsm]; rfl)
    rw [hphase] at htenant
    exact htenant.mergeModState rfl _
  | header _ hwait _ hdomain =>
    obtain ⟨hname, htype⟩ := streamDomain_eq_some hprep hdomain
    refine ⟨fun _ => ⟨hname, htype.symm⟩, fun h => (by rcases h with h | h <;> cases h),
      fun hsm => ?_⟩
    exact hnone (by rw [hwait]; decide) hsm
  | restart _ hwait hevent hdomain =>
    obtain ⟨-, htype⟩ := streamDomain_eq_some hprep hdomain
    obtain ⟨⟨jid, hjid, -⟩, -⟩ := htenant.consistent (.inl (by rw [hwait]; rfl))
    have hserver := hheader _ jid _ _ hwait hevent hjid hdomain
    refine ⟨fun h => (by cases h), fun _ => ⟨⟨jid, hjid, hserver⟩, htype.symm⟩, fun hsm => ?_⟩
    exact hnone (by rw [hwait]; decide) hsm
  | login _ hphase _ hjid =>
    obtain ⟨hname, htype⟩ := htenant.identified hphase
    have hserver := some.inj ((lserver_makeBare hjid).symm.trans hname)
    refine ⟨fun h => (by cases h), fun _ => ⟨⟨_, rfl, hserver⟩, htype⟩, fun hsm => ?_⟩
    exact hnone (by rw [hphase]; decide) hsm
  | bind _ _ hphase hphase' =>
    obtain ⟨⟨jid, hjid, hserver⟩, htype⟩ := htenant.consistent (.inl hphase)
    refine ⟨fun h => ?_, fun _ => ⟨?_, htype⟩, fun hsm => ?_⟩
    · rw [h] at hphase'
      rcases hphase' with hphase' | hphase' <;> cases hphase'
    · obtain ⟨jid', hjid', hserver'⟩ := jid_replaceResource hjid _ _
      exact ⟨jid', hjid', hserver'.trans hserver⟩
    · exact hnone (by rw [hphase]; decide) hsm
  | resume _ _ hold =>
    have hconsistent := hpeer _ hold
    exact ⟨fun h => (by cases h), fun _ => hconsistent, fun _ => rfl⟩

/-- The data that another session hands over is that of a session whose SASL exchange is over. -/
theorem HandsOver.tenantConsistent {peer : Process} {old : Data} (hands : HandsOver peer old)
    (hpeer : peer.stopped = none → Tenant server peer.state.phase peer.data) :
    TenantConsistent server old := by
  obtain ⟨hrunning, hsm, smState, rfl⟩ := hands.eq_mergeModState
  have hbound := (hpeer hrunning).bound hsm
  exact (hpeer hrunning).consistent (.inr hbound)

/-- **What a step does to the domain.** -/
theorem tenant_step (hprep : ∀ s t, server.lib.nameprep s = some t → server.lib.nameprep t = some t)
    {q : Process} (hp : p.stopped = none → Tenant server p.state.phase p.data)
    (hok : namesOtherDomain server p input = false)
    (hpeer : ∀ old, input.oracle.peer = .ok old → ∃ peer : Process,
    (peer.stopped = none → Tenant server peer.state.phase peer.data) ∧ HandsOver peer old)
    (h : step server p input = some q) (hq : q.stopped = none) :
    Tenant server q.state.phase q.data := by
  obtain ⟨hrunning, event, queue, timers, summary, hreceive, -, -, houtcome, hfollows⟩ :=
    step_outcome h
  have hevent : p.event? input = some event := by rw [Process.event?, hreceive]; rfl
  cases hfollows with
  | stop hstopped =>
    rw [hq] at hstopped
    cases hstopped
  | next _ hstate hdata =>
    rw [hstate, hdata]
    refine tenant_outcome hprep (hp hrunning) ?_ ?_ houtcome
    · rintro attrs jid lserver hostType hwait rfl hjid hdomain
      exact eq_lserver_of_namesOtherDomain hok hwait hevent hjid hdomain
    · intro old hold
      obtain ⟨peer, hpeerTenant, hands⟩ := hpeer old hold
      exact hands.tenantConsistent hpeerTenant

/-- **Domain, host type and address belong together** in every session reachable by steps whose
headers name the domain of the address. -/
theorem tenant_consistent
    (hprep : ∀ s t, server.lib.nameprep s = some t → server.lib.nameprep t = some t) {p : Process}
    (hp : Reachable server (fun p input => namesOtherDomain server p input = false) p)
    (hrunning : p.stopped = none)
    (hphase : p.state.phase = .authenticated ∨ p.state.phase = .bound) :
    TenantConsistent server p.data := by
  have htenant : p.stopped = none → Tenant server p.state.phase p.data := by
    refine hp.invariant (P := fun p => p.stopped = none → Tenant server p.state.phase p.data)
      (fun _ _ _ _ _ => ?_) (fun p input q hp hok hpeer h => tenant_step hprep hp hok hpeer h)
    exact ⟨fun h => (by cases h), fun h => (by rcases h with h | h <;> cases h),
      fun h => (by cases h)⟩
  exact (htenant hrunning).consistent hphase

/-- The session of a user that has logged in belongs to one domain. -/
theorem tenant_consistent_login :
    TenantConsistent (exampleServer .infinity) (exampleLogin ⟨1, 1⟩ "alice").data := by
  have hreachable : Reachable (exampleServer .infinity)
      (fun p input => namesOtherDomain (exampleServer .infinity) p input = false)
      (exampleLogin ⟨1, 1⟩ "alice") :=
    reachable_of_run (.init _ _ _ _) (by decide) (by decide) (run_loginInputs .infinity _ "alice")
  exact tenant_consistent (fun s t _ => rfl) hreachable rfl (.inl rfl)

/-- A client logs in at `localhost` and restarts its stream to `other.host`: the address is one of
`localhost`, the domain and the host type are others. -/
theorem tenant_inconsistent :
    ∃ p, Reachable (exampleServer .infinity) (fun _ _ => True) p ∧ p.stopped = none ∧
    p.state.phase = .authenticated ∧ p.data.jid = some ⟨"alice", "localhost", ""⟩ ∧
    p.data.lserver = "other.host" ∧ p.data.hostType = some "other type" ∧
    ¬ TenantConsistent (exampleServer .infinity) p.data := by
  have hrun : ∃ p, run (step (exampleServer .infinity)) (exampleInit ⟨1, 1⟩)
      ((loginInputs "alice").take 5 ++ [socketHeader "other.host", .next {}]) = some p ∧
      p.stopped = none ∧ p.state.phase = .authenticated ∧
      p.data.jid = some ⟨"alice", "localhost", ""⟩ ∧ p.data.lserver = "other.host" ∧
      p.data.hostType = some "other type" := ⟨_, rfl, rfl, rfl, rfl, rfl, rfl⟩
  obtain ⟨p, hrun, hrunning, hphase, hjid, hserver, htype⟩ := hrun
  refine ⟨p, ?_, hrunning, hphase, hjid, hserver, htype, ?_⟩
  · exact reachable_of_run (.init _ _ _ _) (by decide)
      (guarded_of_forall (fun _ _ => trivial) _ _) hrun
  · rintro ⟨⟨jid, hjid', hserver'⟩, -⟩
    cases (hjid.symm.trans hjid')
    rw [hserver] at hserver'
    exact absurd hserver' (by decide)

end MongooseIM.C2S
