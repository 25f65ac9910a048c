import MongooseIM.Component.Connection

/-! # Whose registrations are in the tables

A domain has one established connection, which is registered, and what is registered for a
connection goes with it, exactly in the runs whose steps are `Clean`. -/

namespace MongooseIM.Component

open Domain.Subdomains Erlang Transition Xmpp List Option

variable {H : Type}

/-- What is registered for a connection of a node is as it should be. -/
structure GoodAt (hostTypes : HostTypes H) (s : State H) (pid : Pid) : Prop where
  unique : ∀ component other component',
    (s.connections pid).phase = .streamEstablished component →
      (s.connections other).phase = .streamEstablished component' →
        (s.connections other).lserver = (s.connections pid).lserver → other = pid
  /-- When it is established, it is registered for its domain and its prefixes. -/
  registered : ∀ component, (s.connections pid).phase = .streamEstablished component →
    component ∈ s.components ∧ component = (s.connections pid).component pid ∧
      ∀ hostType ∈ (s.connections pid).hostTypes hostTypes,
        s.registrations (hostType, subdomainPrefix (s.connections pid).lserver) =
          some (.component pid)
  gone : (s.connections pid).phase = .terminated →
    (∀ component ∈ s.components, component.handler ≠ pid) ∧
      ∀ key, s.registrations key ≠ some (.component pid)
  /-- With `check_from` it has only passed stanzas of its domain. -/
  fromChecked : ∀ routed ∈ s.routed, routed.pid = pid →
    (s.connections pid).listenerOpts.checkFrom = true →
      ∃ jid, routed.fromJid = some jid ∧ jid.lserver = (s.connections pid).lserver

variable (hostTypes : HostTypes H)

/-- **Registrations belong to one live connection.** -/
def Good (s : State H) : Prop := ∀ pid, GoodAt hostTypes s pid

/-- **A step of a connection leaves what others have registered.** -/
structure KeepsOthers (pid : Pid) (s s' : State H) : Prop where
  components : ∀ component ∈ s.components, component.handler ≠ pid → component ∈ s'.components
  registrations : ∀ key handler, handler ≠ .component pid → s.registrations key = some handler →
    s'.registrations key = some handler

/-- What may still be registered for a host type in a phase. -/
def Phase.mayHold (hostType : H) : Phase H → Prop
  | .waitForStream | .waitForHandshake | .terminated => False
  | .unregistering todo _ => hostType ∈ todo
  | _ => True

/-- In the middle of `handle_handshake/2`. -/
def Phase.busy : Phase H → Bool
  | .registering _ _ | .noDynamicDomain _ | .noDomainRoute _ | .notRegistered _ | .conflict _
  | .kicking _ _ _ | .waiting _ _ _ _ | .disconnecting => true
  | _ => false

/-- What the tables hold for a connection. -/
structure InvAt (hostTypes : HostTypes H) (s : State H) (pid : Pid) : Prop where
  /-- A component is that of an established connection, or of one that ends. -/
  component : ∀ component ∈ s.components, component.handler = pid →
    (s.connections pid).phase = .streamEstablished component ∨
      ∃ todo, (s.connections pid).phase = .unregistering todo component
  key : ∀ key, s.registrations key = some (.component pid) →
    key.1 ∈ (s.connections pid).hostTypes hostTypes ∧
      key.2 = subdomainPrefix (s.connections pid).lserver ∧
        (s.connections pid).phase.mayHold key.1
  registering : ∀ todo retries, (s.connections pid).phase = .registering todo retries →
    ∀ hostType ∈ todo, hostType ∈ (s.connections pid).hostTypes hostTypes
  /-- What is left to be unregistered is registered for the connection. -/
  unregistering : ∀ todo component, (s.connections pid).phase = .unregistering todo component →
    component.handler = pid ∧ todo.Nodup ∧ ∀ hostType ∈ todo,
      hostType ∈ (s.connections pid).hostTypes hostTypes ∧
        s.registrations (hostType, subdomainPrefix (s.connections pid).lserver) =
          some (.component pid)
  started : ∀ routed ∈ s.routed, routed.pid = pid →
    (s.connections pid).phase ≠ .waitForStream

/-- The same of every connection. -/
def Inv (s : State H) : Prop := ∀ pid, InvAt hostTypes s pid

variable {hostTypes : HostTypes H} {s : State H} {pid : Pid}

/-- Before the handshake is checked and while it is, no component of the connection is in the
table. -/
theorem InvAt.not_registered (h : InvAt hostTypes s pid)
    (hphase : (s.connections pid).phase = .waitForStream ∨
    (s.connections pid).phase = .waitForHandshake ∨ (s.connections pid).phase.busy = true)
    {component : ExternalComponent} (hmem : component ∈ s.components) :
    component.handler ≠ pid := by
  intro hhandler
  rcases h.component component hmem hhandler with hestablished | ⟨todo, hunregistering⟩
  · rw [hestablished] at hphase
    simp [Phase.busy] at hphase
  · rw [hunregistering] at hphase
    simp [Phase.busy] at hphase

/-- In the middle of `handle_handshake/2`, a connection may hold prefixes. -/
theorem Phase.mayHold_of_busy {phase : Phase H} (hbusy : phase.busy = true) (hostType : H) :
    phase.mayHold hostType := by
  cases phase <;> first | exact trivial | cases hbusy

/-- A connection that is gone keeps the invariant when nothing is registered for it. -/
theorem InvAt.of_terminated
    (hphase : (s.connections pid).phase = .terminated) (hgood : GoodAt hostTypes s pid) :
    InvAt hostTypes s pid := by
  obtain ⟨hcomponents, hkeys⟩ := hgood.gone hphase
  constructor
  · intro component hmem hhandler
    exact absurd hhandler (hcomponents component hmem)
  · intro key hkey
    exact absurd hkey (hkeys key)
  · simp [hphase]
  · simp [hphase]
  · simp [hphase]

/-- A connection that is neither established nor gone is as it should be when what it has passed
was checked. -/
theorem GoodAt.of_phase
    (hestablished : ∀ component, (s.connections pid).phase ≠ .streamEstablished component)
    (hgone : (s.connections pid).phase ≠ .terminated)
    (hfrom : ∀ routed ∈ s.routed, routed.pid = pid →
    (s.connections pid).listenerOpts.checkFrom = true →
      ∃ jid, routed.fromJid = some jid ∧ jid.lserver = (s.connections pid).lserver) :
    GoodAt hostTypes s pid where
  unique component _ _ hphase := absurd hphase (hestablished component)
  registered component hphase := absurd hphase (hestablished component)
  gone hphase := absurd hphase hgone
  fromChecked := hfrom

/-- A connection that is gone is as it should be when nothing is registered for it and what it has
passed was checked. -/
theorem goodAt_enter_terminated (hgood : GoodAt hostTypes s pid) :
    GoodAt hostTypes (s.enter pid .terminated) pid ↔
    (∀ component ∈ s.components, component.handler ≠ pid) ∧
      ∀ key, s.registrations key ≠ some (.component pid) := by
  refine ⟨fun h => h.gone (by rw [State.enter_self]), ?_⟩
  intro hgone
  refine ⟨?_, ?_, fun _ => hgone, ?_⟩
  · simp
  · simp
  · rw [State.enter_self]
    exact hgood.fromChecked

/-- No other connection serves the domain of a component that is written. -/
theorem unique_iff (hgood : Good hostTypes s) (pid : Pid) :
    (∀ other component, other ≠ pid → (s.connections other).phase = .streamEstablished component →
      (s.connections other).lserver ≠ (s.connections pid).lserver) ↔
    ∀ component ∈ s.components, component.domain = (s.connections pid).lserver →
      component.handler ≠ pid →
        (s.connections component.handler).phase ≠ .streamEstablished component := by
  constructor
  · intro hall component hmem hdomain hne hphase
    obtain ⟨-, hcomponent, -⟩ := (hgood component.handler).registered component hphase
    refine hall component.handler component hne hphase ?_
    rw [← hdomain]
    exact (congrArg ExternalComponent.domain hcomponent).symm
  · intro hall other component hne hphase hlserver
    obtain ⟨hmem, hcomponent, -⟩ := (hgood other).registered component hphase
    have hhandler : component.handler = other := by rw [hcomponent]; rfl
    have hdomain : component.domain = (s.connections pid).lserver := by
      rw [hcomponent]
      exact hlserver
    exact hall component hmem hdomain (hhandler ▸ hne) (hhandler ▸ hphase)

section

variable (hostTypes : HostTypes H) (opts : Pid → ListenerOpts) (taken : H × SubdomainPattern → Bool)

theorem inv_init : Inv hostTypes (init opts taken) := by
  intro pid
  constructor
  · simp [init]
  · intro key hkey
    simp [init] at hkey
  · simp [init]
  · simp [init]
  · simp [init]

theorem good_init : Good hostTypes (init opts taken) := by
  intro pid
  refine .of_phase ?_ ?_ ?_
  · simp [init]
  · simp [init]
  · simp [init]

end

/-- **Only one connection changes, and what is registered for it.** -/
structure Local (pid : Pid) (s s' : State H) : Prop where
  connections : ∀ other, other ≠ pid → s'.connections other = s.connections other
  components : ∀ component : ExternalComponent, component.handler ≠ pid →
    (component ∈ s'.components ↔ component ∈ s.components)
  registrations : ∀ key handler, handler ≠ .component pid →
    (s'.registrations key = some handler ↔ s.registrations key = some handler)
  routed : ∀ routed : Routed, routed.pid ≠ pid → (routed ∈ s'.routed ↔ routed ∈ s.routed)

namespace Local

variable {hostTypes : HostTypes H} {s s' : State H} {pid : Pid}

theorem keepsOthers (h : Local pid s s') : KeepsOthers pid s s' where
  components component hmem hne := (h.components component hne).2 hmem
  registrations key handler hne hkey := (h.registrations key handler hne).2 hkey

/-- The invariant has to be shown of the connection that acts. -/
theorem inv (h : Local pid s s') (hs : Inv hostTypes s) (hpid : InvAt hostTypes s' pid) :
    Inv hostTypes s' := by
  intro other
  by_cases heq : other = pid
  · rw [heq]
    exact hpid
  have hhandler : Handler.component other ≠ .component pid := fun hsame => heq (by cases hsame; rfl)
  have hother := hs other
  constructor
  · intro component hmem hcomponent
    rw [h.connections other heq]
    have hne : component.handler ≠ pid := hcomponent ▸ heq
    exact hother.component component ((h.components component hne).1 hmem) hcomponent
  · intro key hkey
    rw [h.connections other heq]
    exact hother.key key ((h.registrations key _ hhandler).1 hkey)
  · rw [h.connections other heq]
    exact hother.registering
  · rw [h.connections other heq]
    intro todo component hphase
    obtain ⟨howner, hnodup, hall⟩ := hother.unregistering todo component hphase
    refine ⟨howner, hnodup, ?_⟩
    intro hostType hmem
    obtain ⟨hhost, hkey⟩ := hall hostType hmem
    exact ⟨hhost, (h.registrations _ _ hhandler).2 hkey⟩
  · intro routed hmem hrouted
    rw [h.connections other heq]
    have hne : routed.pid ≠ pid := hrouted ▸ heq
    exact hother.started routed ((h.routed routed hne).1 hmem) hrouted

theorem good_iff (h : Local pid s s') (hs : Good hostTypes s) :
    Good hostTypes s' ↔ GoodAt hostTypes s' pid := by
  refine ⟨fun hgood => hgood pid, ?_⟩
  intro hpid other
  by_cases heq : other = pid
  · rw [heq]
    exact hpid
  have hhandler : Handler.component other ≠ .component pid := fun hsame => heq (by cases hsame; rfl)
  have hother := hs other
  constructor
  · intro component third component' hphase hthird hlserver
    by_cases hthirdEq : third = pid
    · subst hthirdEq
      exact (heq (hpid.unique component' other component hthird hphase hlserver.symm)).elim
    · rw [h.connections other heq] at hphase hlserver
      rw [h.connections third hthirdEq] at hthird hlserver
      exact hother.unique component third component' hphase hthird hlserver
  · rw [h.connections other heq]
    intro component hphase
    obtain ⟨hmem, hcomponent, hall⟩ := hother.registered component hphase
    have hne : component.handler ≠ pid := by
      rw [hcomponent]
      exact heq
    refine ⟨(h.components component hne).2 hmem, hcomponent, ?_⟩
    intro hostType hhost
    exact (h.registrations _ _ hhandler).2 (hall hostType hhost)
  · rw [h.connections other heq]
    intro hphase
    obtain ⟨hcomponents, hkeys⟩ := hother.gone hphase
    constructor
    · intro component hmem hcomponent
      have hne : component.handler ≠ pid := hcomponent ▸ heq
      exact hcomponents component ((h.components component hne).1 hmem) hcomponent
    · intro key hkey
      exact hkeys key ((h.registrations key _ hhandler).1 hkey)
  · rw [h.connections other heq]
    intro routed hmem hrouted
    have hne : routed.pid ≠ pid := hrouted ▸ heq
    exact hother.fromChecked routed ((h.routed routed hne).1 hmem) hrouted

end Local

theorem local_enter (s : State H) (pid : Pid) (phase : Phase H) (exits : Pid → Bool) :
    Local pid s { s.enter pid phase with exits := exits } where
  connections _ hne := s.enter_of_ne phase hne
  components _ _ := Iff.rfl
  registrations _ _ _ := Iff.rfl
  routed _ _ := Iff.rfl

section Steps

variable [DecidableEq H] (hostTypes : HostTypes H) (fromBinary : String → Option Jid)

/-- **What an event is asked for**: a component is written where no other one of its domain serves
it, with all its prefixes, and with `check_from` what is passed on has a sender. -/
def Clean (s : State H) : Event → Prop
  | .registerComponents pid =>
    ∀ retries, (s.connections pid).phase = .notRegistered retries →
      (∀ component ∈ s.components, component.domain = (s.connections pid).lserver →
        (s.connections component.handler).phase ≠ .streamEstablished component) ∧
        ∀ hostType ∈ (s.connections pid).hostTypes hostTypes,
          s.registrations (hostType, subdomainPrefix (s.connections pid).lserver) =
            some (.component pid)
  | .disconnect pid =>
    (s.connections pid).phase = .disconnecting →
      ∀ hostType ∈ (s.connections pid).hostTypes hostTypes,
        s.registrations (hostType, subdomainPrefix (s.connections pid).lserver) ≠
          some (.component pid)
  | .element pid el =>
    ∀ component, (s.connections pid).phase = .streamEstablished component →
      ∀ routed, handleStreamEstablished fromBinary pid (s.connections pid) el = some routed →
        (s.connections pid).listenerOpts.checkFrom = true → routed.fromJid ≠ none
  | _ => True

/-- What a step does, by the tables that it changes. -/
inductive Moves (s : State H) : Pid → Event → State H → Prop
  | start (pid : Pid) (lserver : String) (isSubdomain : Bool)
      (hphase : (s.connections pid).phase = .waitForStream) :
      Moves s pid (.streamStart pid lserver isSubdomain)
        { s with
          connections := Function.update s.connections pid
            { s.connections pid with
              lserver := lserver
              isSubdomain := isSubdomain
              phase := .waitForHandshake } }
  /-- Nothing but the phase changes, on the way through `handle_handshake/2`. -/
  | quiet (pid : Pid) (e : Event) (phase : Phase H) (exits : Pid → Bool)
      (hfrom : (s.connections pid).phase = .waitForHandshake ∨
        (s.connections pid).phase.busy = true)
      (hbusy : phase.busy = true)
      (htodo : ∀ todo retries, phase = .registering todo retries →
        ∀ hostType ∈ todo, hostType ∈ (s.connections pid).hostTypes hostTypes)
      (hclean : Clean hostTypes fromBinary s e) :
      Moves s pid e { s.enter pid phase with exits := exits }
  | leave (pid : Pid) (e : Event)
      (hphase : (s.connections pid).phase = .waitForStream ∨
        (s.connections pid).phase = .waitForHandshake)
      (hclean : Clean hostTypes fromBinary s e) : Moves s pid e (s.enter pid .terminated)
  | disconnect (pid : Pid) (hphase : (s.connections pid).phase = .disconnecting) :
      Moves s pid (.disconnect pid) (s.enter pid .terminated)
  | finish (pid : Pid) (e : Event) (component : ExternalComponent)
      (hphase : (s.connections pid).phase = .streamEstablished component)
      (hclean : Clean hostTypes fromBinary s e) :
      Moves s pid e
        (s.enter pid (.unregistering ((s.connections pid).hostTypes hostTypes) component))
  | registerSubdomain (pid : Pid) (hostType : H) (todo : List H) (retries : ℕ)
      (registrations : H × SubdomainPattern → Option Handler)
      (hphase : (s.connections pid).phase = .registering (hostType :: todo) retries)
      (hregistrations : registrations = s.registrations ∨
        s.registrations (hostType, subdomainPrefix (s.connections pid).lserver) = none ∧
          registrations = Function.update s.registrations
            (hostType, subdomainPrefix (s.connections pid).lserver) (some (.component pid))) :
      Moves s pid (.registerSubdomain pid)
        { s.enter pid (.registering todo retries) with registrations := registrations }
  | registerComponents (pid : Pid) (retries : ℕ)
      (hphase : (s.connections pid).phase = .notRegistered retries) :
      Moves s pid (.registerComponents pid)
        { s.enter pid (.streamEstablished ((s.connections pid).component pid)) with
          components :=
            Component.registerComponents ((s.connections pid).component pid)
              s.components }
  | unregisterSubdomain (pid : Pid) (hostType : H) (todo : List H) (component : ExternalComponent)
      (hphase : (s.connections pid).phase = .unregistering (hostType :: todo) component) :
      Moves s pid (.unregisterSubdomain pid)
        { s.enter pid (.unregistering todo component) with
          registrations := Function.update s.registrations
            (hostType, subdomainPrefix (s.connections pid).lserver) none }
  | unregisterComponent (pid : Pid) (component : ExternalComponent)
      (hphase : (s.connections pid).phase = .unregistering [] component) :
      Moves s pid (.unregisterComponent pid)
        { s.enter pid .terminated with
          components := unregisterComponents component s.components }
  | element (pid : Pid) (el : Element) (component : ExternalComponent)
      (hphase : (s.connections pid).phase = .streamEstablished component) :
      Moves s pid (.element pid el)
        { s with
          routed :=
            (handleStreamEstablished fromBinary pid (s.connections pid) el).toList ++ s.routed }

variable {hostTypes fromBinary} {s s' : State H} {pid : Pid} {e : Event}

/-- The process of a connection that waits is stopped, by whatever event. -/
theorem moves_of_terminate (hidle : (s.connections pid).phase.idle = true)
    (hclean : Clean hostTypes fromBinary s e) :
    Moves hostTypes fromBinary s pid e (s.enter pid (terminate hostTypes (s.connections pid))) := by
  cases hphase : (s.connections pid).phase with
  | waitForStream =>
    rw [terminate, hphase]
    exact .leave pid e (.inl hphase) hclean
  | waitForHandshake =>
    rw [terminate, hphase]
    exact .leave pid e (.inr hphase) hclean
  | streamEstablished component =>
    rw [terminate, hphase]
    exact .finish pid e component hphase hclean
  | _ =>
    rw [hphase] at hidle
    cases hidle

/-- `try_register_routes/2` goes through host types of the connection. -/
theorem moves_of_tryRegisterRoutes (retries : ℕ)
    (hfrom : (s.connections pid).phase = .waitForHandshake ∨ (s.connections pid).phase.busy = true)
    (hclean : Clean hostTypes fromBinary s e) :
    Moves hostTypes fromBinary s pid e
    (s.enter pid (tryRegisterRoutes hostTypes (s.connections pid) retries)) := by
  refine .quiet pid e _ s.exits hfrom rfl ?_ hclean
  intro todo retries' htodo hostType hmem
  obtain ⟨rfl, -⟩ := Phase.registering.inj htodo
  exact hmem

/-- Between two phases of `handle_handshake/2` of which the second registers no prefix. -/
theorem moves_of_busy (phase : Phase H) (exits : Pid → Bool)
    (hfrom : (s.connections pid).phase.busy = true) (hbusy : phase.busy = true)
    (hne : ∀ todo retries, phase ≠ .registering todo retries)
    (hclean : Clean hostTypes fromBinary s e) :
    Moves hostTypes fromBinary s pid e { s.enter pid phase with exits := exits } :=
  .quiet pid e phase exits (.inr hfrom) hbusy
    (fun todo retries htodo => absurd htodo (hne todo retries)) hclean

/-- **Every step is one of these.** -/
theorem moves_of_step (hstep : step hostTypes fromBinary s e = some s') :
    Moves hostTypes fromBinary s e.pid e s' := by
  have hbusy : ∀ {phase}, (s.connections e.pid).phase = phase → phase.busy = true →
      (s.connections e.pid).phase.busy = true := fun hphase h => hphase ▸ h
  -- a phase in which the event does not come is no step
  cases e with
  | streamStart pid lserver isSubdomain =>
    simp only [step] at hstep
    split at hstep <;> cases hstep
    exact .start pid lserver isSubdomain ‹_›
  | handshake pid equal =>
    simp only [step] at hstep
    split at hstep <;> cases hstep
    cases equal with
    | true => exact moves_of_tryRegisterRoutes retries (.inl ‹_›) trivial
    | false => exact .leave pid _ (.inr ‹_›) trivial
  | registerSubdomain pid =>
    simp only [step] at hstep
    split at hstep <;> cases hstep
    refine .registerSubdomain pid _ _ _ _ ‹_› ?_
    split_ifs with hfree
    · exact .inr ⟨isNone_iff_eq_none.1 hfree, rfl⟩
    · exact .inl rfl
  | hasDynamicDomains pid answer =>
    simp only [step] at hstep
    split at hstep <;> cases hstep
    refine moves_of_busy _ s.exits (hbusy ‹_› rfl) ?_ ?_ trivial
    · cases answer <;> rfl
    · cases answer <;> simp
  | hasDomainRoute pid answer =>
    simp only [step] at hstep
    split at hstep <;> cases hstep
    refine moves_of_busy _ s.exits (hbusy ‹_› rfl) ?_ ?_ trivial
    · cases answer <;> rfl
    · cases answer <;> simp
  | hasComponentRegistered pid =>
    simp only [step] at hstep
    split at hstep <;> cases hstep
    refine moves_of_busy _ s.exits (hbusy ‹_› rfl) ?_ ?_ trivial
    · split <;> rfl
    · split <;> simp
  | registerComponents pid =>
    simp only [step] at hstep
    split at hstep <;> cases hstep
    exact .registerComponents pid _ ‹_›
  | lookupRoutes pid =>
    simp only [step] at hstep
    split at hstep <;> cases hstep
    refine moves_of_busy _ s.exits (hbusy ‹_› rfl) ?_ ?_ trivial
    · split <;> rfl
    · split <;> simp
  | castExit pid =>
    simp only [step] at hstep
    split at hstep <;> cases hstep
    exact moves_of_busy _ _ (hbusy ‹_› rfl) rfl (by simp) trivial
  | down pid =>
    simp only [step] at hstep
    split at hstep
    · split_ifs at hstep
      cases hstep
      exact moves_of_busy _ s.exits (hbusy ‹_› rfl) rfl (by simp) trivial
    · cases hstep
  | timeout pid =>
    simp only [step] at hstep
    split at hstep <;> cases hstep
    exact moves_of_busy _ s.exits (hbusy ‹_› rfl) rfl (by simp) trivial
  | kicked pid =>
    simp only [step] at hstep
    split at hstep
    · rename_i allOk retries hphase
      cases hstep
      cases allOk with
      | true => exact moves_of_tryRegisterRoutes (retries - 1) (.inr (hbusy hphase rfl)) trivial
      | false => exact moves_of_busy _ s.exits (hbusy hphase rfl) rfl (by simp) trivial
    · cases hstep
  | disconnect pid =>
    simp only [step] at hstep
    split at hstep <;> cases hstep
    exact .disconnect pid ‹_›
  | exit pid =>
    simp only [step, ite_none_right_eq_some, some.injEq] at hstep
    obtain ⟨⟨-, hidle⟩, rfl⟩ := hstep
    exact moves_of_terminate hidle trivial
  | close pid =>
    simp only [step, ite_none_right_eq_some, some.injEq] at hstep
    obtain ⟨hidle, rfl⟩ := hstep
    exact moves_of_terminate hidle trivial
  | unregisterSubdomain pid =>
    simp only [step] at hstep
    split at hstep <;> cases hstep
    exact .unregisterSubdomain pid _ _ _ ‹_›
  | unregisterComponent pid =>
    simp only [step] at hstep
    split at hstep <;> cases hstep
    exact .unregisterComponent pid _ ‹_›
  | element pid el =>
    simp only [step] at hstep
    split at hstep
    · have hmoves : Moves hostTypes fromBinary s pid (.element pid el) _ := .element pid el _ ‹_›
      cases hrouted : handleStreamEstablished fromBinary pid (s.connections pid) el <;>
        rw [hrouted] at hmoves hstep <;> exact some.inj hstep ▸ hmoves
    · cases hstep

/-- What is registered under a key of a connection's own is nobody else's. -/
theorem update_registrations_iff {registrations : H × SubdomainPattern → Option Handler}
    {key key' : H × SubdomainPattern} {handler : Handler} {value : Option Handler}
    (hne : handler ≠ .component pid)
    (hold : registrations key = none ∨ registrations key = some (.component pid))
    (hvalue : value = none ∨ value = some (.component pid)) :
    Function.update registrations key value key' = some handler ↔
    registrations key' = some handler := by
  by_cases hkey : key' = key
  · subst hkey
    rw [Function.update_self]
    refine iff_of_false ?_ ?_
    · rintro rfl
      rcases hvalue with hvalue | hvalue
      · cases hvalue
      · exact hne (some.inj hvalue)
    · intro hhandler
      rcases hold with hold | hold
      · rw [hold] at hhandler
        cases hhandler
      · rw [hold] at hhandler
        exact hne (some.inj hhandler).symm
  · rw [Function.update_of_ne hkey]

section

variable (hmoves : Moves hostTypes fromBinary s pid e s')

include hmoves

/-- **Every step is local.** What is unregistered was the connection's own. -/
theorem Moves.toLocal (hinv : Inv hostTypes s) : Local pid s s' := by
  cases hmoves with
  | start lserver isSubdomain hphase =>
    exact ⟨fun other hne => Function.update_of_ne hne _ _, fun _ _ => Iff.rfl,
      fun _ _ _ => Iff.rfl, fun _ _ => Iff.rfl⟩
  | quiet _ phase exits => exact local_enter s pid phase exits
  | leave => exact local_enter s pid _ s.exits
  | disconnect => exact local_enter s pid _ s.exits
  | finish => exact local_enter s pid _ s.exits
  | registerSubdomain hostType todo retries registrations hphase hregistrations =>
    refine ⟨fun other hne => s.enter_of_ne _ hne, fun _ _ => Iff.rfl, ?_, fun _ _ => Iff.rfl⟩
    intro key handler hne
    rcases hregistrations with rfl | ⟨hfree, rfl⟩
    · exact Iff.rfl
    · exact update_registrations_iff hne (.inl hfree) (.inr rfl)
  | registerComponents retries hphase =>
    refine ⟨fun other hne => s.enter_of_ne _ hne, ?_, fun _ _ _ => Iff.rfl, fun _ _ => Iff.rfl⟩
    intro component hne
    rw [mem_registerComponents]
    refine or_iff_right ?_
    rintro rfl
    exact hne rfl
  | unregisterSubdomain hostType todo component hphase =>
    refine ⟨fun other hne => s.enter_of_ne _ hne, fun _ _ => Iff.rfl, ?_, fun _ _ => Iff.rfl⟩
    intro key handler hne
    obtain ⟨-, -, hall⟩ := (hinv pid).unregistering _ _ hphase
    exact update_registrations_iff hne (.inr (hall hostType mem_cons_self).2) (.inl rfl)
  | unregisterComponent component hphase =>
    refine ⟨fun other hne => s.enter_of_ne _ hne, ?_, fun _ _ _ => Iff.rfl, fun _ _ => Iff.rfl⟩
    intro other hne
    rw [mem_unregisterComponents]
    refine and_iff_left ?_
    rintro rfl
    exact hne ((hinv pid).unregistering _ _ hphase).1
  | element el component hphase =>
    refine ⟨fun _ _ => rfl, fun _ _ => Iff.rfl, fun _ _ _ => Iff.rfl, ?_⟩
    intro routed hne
    rw [mem_append]
    refine or_iff_right ?_
    intro hmem
    exact hne (handleStreamEstablished_eq_some (mem_toList.1 hmem)).1

/-- **The invariant is kept** by steps to good states. -/
theorem Moves.invAt (hinv : InvAt hostTypes s pid)
    (hgood : GoodAt hostTypes s pid) (hgood' : GoodAt hostTypes s' pid) :
    InvAt hostTypes s' pid := by
  cases hmoves with
  | start lserver isSubdomain hphase =>
    constructor
    · intro component hmem hhandler
      exact absurd hhandler (hinv.not_registered (.inl hphase) hmem)
    · intro key hkey
      obtain ⟨-, -, hmay⟩ := hinv.key key hkey
      rw [hphase] at hmay
      exact hmay.elim
    · simp
    · simp
    · simp
  | quiet _ phase exits hfrom hbusy htodo hclean =>
    constructor
    · intro component hmem hhandler
      exact absurd hhandler (hinv.not_registered (.inr hfrom) hmem)
    · intro key hkey
      obtain ⟨hhost, hsubdomain, -⟩ := hinv.key key hkey
      rw [State.enter_self]
      exact ⟨hhost, hsubdomain, Phase.mayHold_of_busy hbusy key.1⟩
    · rw [State.enter_self]
      exact htodo
    · rw [State.enter_self]
      rintro todo component rfl
      cases hbusy
    · rw [State.enter_self]
      rintro routed - - rfl
      cases hbusy
  | leave | disconnect | unregisterComponent =>
    refine .of_terminated ?_ hgood'
    rw [State.enter_self]
  | finish _ component hphase hclean =>
    obtain ⟨-, hcomponent, hall⟩ := hgood.registered component hphase
    constructor
    · intro other hmem hhandler
      rw [State.enter_self]
      refine .inr ⟨(s.connections pid).hostTypes hostTypes, ?_⟩
      rcases hinv.component other hmem hhandler with hestablished | ⟨todo, hunregistering⟩
      · rw [hphase] at hestablished
        rw [Phase.streamEstablished.inj hestablished]
      · rw [hphase] at hunregistering
        cases hunregistering
    · intro key hkey
      obtain ⟨hhost, hsubdomain, -⟩ := hinv.key key hkey
      rw [State.enter_self]
      exact ⟨hhost, hsubdomain, hhost⟩
    · simp
    · rw [State.enter_self]
      rintro todo other hnext
      obtain ⟨rfl, rfl⟩ := Phase.unregistering.inj hnext
      refine ⟨by rw [hcomponent]; rfl, nodup_hostTypes _ _, ?_⟩
      intro hostType hmem
      exact ⟨hmem, hall hostType hmem⟩
    · simp
  | registerSubdomain hostType todo retries registrations hphase hregistrations =>
    have htodo := hinv.registering _ _ hphase
    constructor
    · intro component hmem hhandler
      exact absurd hhandler (hinv.not_registered (.inr (.inr (by rw [hphase]; rfl))) hmem)
    · intro key hkey
      rw [State.enter_self]
      have hold : s.registrations key = some (.component pid) →
          key.1 ∈ (s.connections pid).hostTypes hostTypes ∧
            key.2 = subdomainPrefix (s.connections pid).lserver ∧ True := by
        intro hkey
        obtain ⟨hhost, hsubdomain, -⟩ := hinv.key key hkey
        exact ⟨hhost, hsubdomain, trivial⟩
      rcases hregistrations with rfl | ⟨-, rfl⟩
      · exact hold hkey
      · by_cases heq : key = (hostType, subdomainPrefix (s.connections pid).lserver)
        · rw [heq]
          exact ⟨htodo hostType mem_cons_self, rfl, trivial⟩
        · exact hold (by simpa [heq] using hkey)
    · rw [State.enter_self]
      intro todo' retries' hnext
      obtain ⟨rfl, -⟩ := Phase.registering.inj hnext
      intro hostType' hmem
      exact htodo hostType' (mem_cons_of_mem hostType hmem)
    · simp
    · simp
  | registerComponents retries hphase =>
    constructor
    · intro component hmem hhandler
      rw [State.enter_self]
      rcases mem_registerComponents.1 hmem with rfl | hmem
      · exact .inl rfl
      · exact absurd hhandler (hinv.not_registered (.inr (.inr (by rw [hphase]; rfl))) hmem)
    · intro key hkey
      obtain ⟨hhost, hsubdomain, -⟩ := hinv.key key hkey
      rw [State.enter_self]
      exact ⟨hhost, hsubdomain, trivial⟩
    · simp
    · simp
    · simp
  | unregisterSubdomain hostType todo component hphase =>
    obtain ⟨howner, hnodup, hall⟩ := hinv.unregistering _ _ hphase
    obtain ⟨hnot, hnodup⟩ := nodup_cons.1 hnodup
    constructor
    · intro other hmem hhandler
      rw [State.enter_self]
      refine .inr ⟨todo, ?_⟩
      rcases hinv.component other hmem hhandler with hestablished | ⟨todo', hunregistering⟩
      · rw [hphase] at hestablished
        cases hestablished
      · rw [hphase] at hunregistering
        rw [(Phase.unregistering.inj hunregistering).2]
    · intro key hkey
      rw [State.enter_self]
      have hne : key ≠ (hostType, subdomainPrefix (s.connections pid).lserver) := by
        rintro rfl
        simp at hkey
      obtain ⟨hhost, hsubdomain, hmay⟩ := hinv.key key (by simpa [hne] using hkey)
      refine ⟨hhost, hsubdomain, ?_⟩
      rw [hphase] at hmay
      exact (mem_cons.1 hmay).resolve_left fun heq => hne (Prod.ext heq hsubdomain)
    · simp
    · rw [State.enter_self]
      intro todo' component' hnext
      obtain ⟨rfl, rfl⟩ := Phase.unregistering.inj hnext
      refine ⟨howner, hnodup, ?_⟩
      intro hostType' hmem
      obtain ⟨hhost, hkey⟩ := hall hostType' (mem_cons_of_mem hostType hmem)
      refine ⟨hhost, ?_⟩
      have hne : hostType' ≠ hostType := ne_of_mem_of_not_mem hmem hnot
      simpa [hne] using hkey
    · simp
  | element el component hphase =>
    refine { hinv with started := ?_ }
    intro routed _ _
    simp [hphase]

/-- **A step leads to what is wanted exactly when it is clean.** -/
theorem Moves.goodAt_iff (hinv : InvAt hostTypes s pid) (hgood : Good hostTypes s) :
    GoodAt hostTypes s' pid ↔ Clean hostTypes fromBinary s e := by
  have hpid := hgood pid
  cases hmoves with
  | start lserver isSubdomain hphase =>
    refine iff_of_true (.of_phase ?_ ?_ ?_) trivial
    · simp
    · simp
    · intro routed hmem hrouted
      exact absurd hphase (hinv.started routed hmem hrouted)
  | quiet _ phase exits hfrom hbusy htodo hclean =>
    refine iff_of_true (.of_phase ?_ ?_ ?_) hclean
    · rw [State.enter_self]
      rintro component rfl
      cases hbusy
    · rw [State.enter_self]
      rintro rfl
      cases hbusy
    · rw [State.enter_self]
      exact hpid.fromChecked
  | leave _ hphase hclean =>
    refine iff_of_true ((goodAt_enter_terminated hpid).2 ⟨?_, ?_⟩) hclean
    · intro component hmem
      exact hinv.not_registered (hphase.imp_right .inl) hmem
    · intro key hkey
      obtain ⟨-, -, hmay⟩ := hinv.key key hkey
      rcases hphase with hphase | hphase
      · rw [hphase] at hmay
        exact hmay
      · rw [hphase] at hmay
        exact hmay
  | disconnect hphase =>
    have hcomponents : ∀ component ∈ s.components, component.handler ≠ pid := fun component hmem =>
      hinv.not_registered (.inr (.inr (by rw [hphase]; rfl))) hmem
    rw [goodAt_enter_terminated hpid, and_iff_right hcomponents]
    constructor
    · intro hkeys _ hostType _
      exact hkeys _
    · intro hclean key hkey
      obtain ⟨hhost, hsubdomain, -⟩ := hinv.key key hkey
      exact hclean hphase key.1 hhost (hsubdomain ▸ hkey)
  | finish _ component hphase hclean =>
    refine iff_of_true (.of_phase ?_ ?_ ?_) hclean
    · simp
    · simp
    · rw [State.enter_self]
      exact hpid.fromChecked
  | registerSubdomain hostType todo retries registrations hphase hregistrations =>
    refine iff_of_true (.of_phase ?_ ?_ ?_) trivial
    · simp
    · simp
    · rw [State.enter_self]
      exact hpid.fromChecked
  | registerComponents retries hphase =>
    have hothers : ∀ component ∈ s.components, component.handler ≠ pid := fun component hmem =>
      hinv.not_registered (.inr (.inr (by rw [hphase]; rfl))) hmem
    constructor
    · intro hgood' _ _
      refine ⟨?_, ?_⟩
      · intro component hmem hdomain
        refine (unique_iff hgood _).1 ?_ component hmem hdomain (hothers component hmem)
        intro other component' hne hphase' hlserver
        refine hne (hgood'.unique _ other component' (by rw [State.enter_self]) ?_ ?_)
        · rw [State.enter_of_ne _ _ hne]
          exact hphase'
        · rw [State.enter_self, State.enter_of_ne _ _ hne]
          exact hlserver
      · obtain ⟨-, -, hall⟩ := hgood'.registered _ (by rw [State.enter_self])
        rw [State.enter_self] at hall
        exact hall
    · intro hclean
      obtain ⟨hfree, hall⟩ := hclean retries hphase
      have hunique := (unique_iff hgood pid).2
        fun component hmem hdomain _ => hfree component hmem hdomain
      constructor
      · intro _ other component' _ hphase' hlserver
        by_contra hne
        rw [State.enter_of_ne _ _ hne] at hphase' hlserver
        rw [State.enter_self] at hlserver
        exact hunique other component' hne hphase' hlserver
      · rw [State.enter_self]
        intro component hnext
        obtain rfl := Phase.streamEstablished.inj hnext
        exact ⟨mem_registerComponents.2 (.inl rfl), rfl, hall⟩
      · simp
      · rw [State.enter_self]
        exact hpid.fromChecked
  | unregisterSubdomain hostType todo component hphase =>
    refine iff_of_true (.of_phase ?_ ?_ ?_) trivial
    · simp
    · simp
    · rw [State.enter_self]
      exact hpid.fromChecked
  | unregisterComponent component hphase =>
    refine iff_of_true ⟨?_, ?_, fun _ => ⟨?_, ?_⟩, ?_⟩ trivial
    · simp
    · simp
    · intro other hmem hhandler
      obtain ⟨hmem, hne⟩ := mem_unregisterComponents.1 hmem
      rcases hinv.component other hmem hhandler with hestablished | ⟨todo, hunregistering⟩
      · rw [hphase] at hestablished
        cases hestablished
      · rw [hphase] at hunregistering
        exact hne (Phase.unregistering.inj hunregistering).2.symm
    · intro key hkey
      obtain ⟨-, -, hmay⟩ := hinv.key key hkey
      rw [hphase] at hmay
      exact not_mem_nil hmay
    · rw [State.enter_self]
      exact hpid.fromChecked
  | element el component hphase =>
    constructor
    · intro hgood' _ _ routed hrouted hcheck
      have hmem : routed ∈ (handleStreamEstablished fromBinary pid (s.connections pid) el).toList ++
          s.routed := mem_append_left _ (mem_toList.2 hrouted)
      obtain ⟨jid, hjid, -⟩ := hgood'.fromChecked routed hmem
        (handleStreamEstablished_eq_some hrouted).1 hcheck
      simp [hjid]
    · intro hclean
      refine ⟨hpid.unique, hpid.registered, ?_, ?_⟩
      · intro hgone
        simp [hphase] at hgone
      · intro routed hmem howner hcheck
        rcases mem_append.1 hmem with hmem | hmem
        · have hrouted := mem_toList.1 hmem
          obtain ⟨jid, hjid⟩ :=
            ne_none_iff_exists'.1 (hclean component hphase routed hrouted hcheck)
          exact ⟨jid, hjid, (handleStreamEstablished_eq_some hrouted).2 hcheck jid hjid⟩
        · exact hpid.fromChecked routed hmem howner hcheck

end

theorem exists_step_of_not_clean (h : ¬ Clean hostTypes fromBinary s e) :
    ∃ s', step hostTypes fromBinary s e = some s' := by
  cases e with
  | registerComponents pid =>
    simp only [Clean, not_forall] at h
    obtain ⟨retries, hphase, -⟩ := h
    exact ⟨_, by rw [step, hphase]⟩
  | disconnect pid =>
    simp only [Clean, not_forall] at h
    obtain ⟨hphase, -⟩ := h
    exact ⟨_, by rw [step, hphase]⟩
  | element pid el =>
    simp only [Clean, not_forall] at h
    obtain ⟨component, hphase, routed, hrouted, -⟩ := h
    exact ⟨_, by rw [step, hphase, hrouted]⟩
  | _ => exact absurd trivial h

section

variable (hinv : Inv hostTypes s) (hgood : Good hostTypes s)
    (hstep : Component.step hostTypes fromBinary s e = some s')

include hinv hgood hstep

theorem Inv.step (hgood' : Good hostTypes s') : Inv hostTypes s' :=
  have hmoves := moves_of_step hstep
  (hmoves.toLocal hinv).inv hinv (hmoves.invAt (hinv e.pid) (hgood e.pid) (hgood' e.pid))

/-- A step from a good state leads to a good one exactly when it is clean. -/
theorem good_iff_of_step : Good hostTypes s' ↔ Clean hostTypes fromBinary s e := by
  have hmoves := moves_of_step hstep
  rw [(hmoves.toLocal hinv).good_iff hgood, hmoves.goodAt_iff (hinv e.pid) hgood]

end

/-- **In a run through good states the invariant holds**, too. -/
theorem inv_of_good (opts : Pid → ListenerOpts) (taken : H × SubdomainPattern → Bool)
    {es : List Event}
    (hall : ∀ h t, h <+: es → run (step hostTypes fromBinary) (init opts taken) h = some t →
    Good hostTypes t)
    (hrun : run (step hostTypes fromBinary) (init opts taken) es = some s) : Inv hostTypes s := by
  induction es using reverseRecOn generalizing s with
  | nil =>
    cases hrun
    exact inv_init hostTypes opts taken
  | append_singleton es e ih =>
    have hrun' := hrun
    rw [run_concat, bind_eq_some_iff] at hrun'
    obtain ⟨t, ht, hstep⟩ := hrun'
    have hshort : es <+: es ++ [e] := prefix_append es [e]
    have hinv := ih (fun h u hinit => hall h u (hinit.trans hshort)) ht
    exact hinv.step (hall es t hshort ht) hstep (hall _ s prefix_rfl hrun)

/-- **Registrations belong to one live connection in exactly the clean runs**, and in these no step
takes away what another connection has registered. -/
theorem sound_iff (opts : Pid → ListenerOpts) (taken : H × SubdomainPattern → Bool)
    (es : List Event) :
    Guarded (step hostTypes fromBinary) (Clean hostTypes fromBinary) (init opts taken) es ↔
    ∀ h s, h <+: es → run (step hostTypes fromBinary) (init opts taken) h = some s →
      Good hostTypes s ∧ ∀ e s', h ++ [e] <+: es → step hostTypes fromBinary s e = some s' →
        KeepsOthers e.pid s s' := by
  have hiff : Guarded (step hostTypes fromBinary) (Clean hostTypes fromBinary) (init opts taken) es ↔
      ∀ h s, h <+: es → run (step hostTypes fromBinary) (init opts taken) h = some s →
        Good hostTypes s :=
    guarded_iff_holds_along_of_invariant (I := Inv hostTypes)
      (fun _ _ _ _ hbroken => exists_step_of_not_clean hbroken)
      (fun _ _ _ hinv hgood hstep hgood' => hinv.step hgood hstep hgood')
      (fun _ _ _ hinv hgood hstep => good_iff_of_step hinv hgood hstep)
      (inv_init hostTypes opts taken) (good_init hostTypes opts taken) es
  rw [hiff]
  constructor
  · intro hall h s hinit hrun
    refine ⟨hall h s hinit hrun, ?_⟩
    intro e s' _ hstep
    have hinv := inv_of_good opts taken (fun h' t hinit' => hall h' t (hinit'.trans hinit)) hrun
    exact ((moves_of_step hstep).toLocal hinv).keepsOthers
  · intro hall h s hinit hrun
    exact (hall h s hinit hrun).1

end Steps

/-! ### Two components with one subdomain -/

/-- A component for `"comp"` is connected and registered: nothing is in its way. -/
def establish (pid : Pid) : List Event :=
  [.streamStart pid "comp" true, .handshake pid true, .registerSubdomain pid,
    .hasDynamicDomains pid false, .hasDomainRoute pid false, .hasComponentRegistered pid,
    .registerComponents pid]

/-- Its stream ends. -/
def leave (pid : Pid) : List Event :=
  [.close pid, .unregisterSubdomain pid, .unregisterComponent pid]

/-- One host type, and only `check_from`. -/
def localhostRun (es : List Event) : Option (State String) :=
  run (step ⟨["localhost"], List.nodup_singleton _⟩ fun _ => none)
    (init (fun _ => ⟨.disconnect, false, true⟩) fun _ => false) es

/-- **Both connections serve the domain**, though the prefix is the first one's. When the second
ends, so does the prefix. -/
theorem served_twice : (∃ s, localhostRun (establish 0 ++ establish 1) = some s ∧
    (∃ component, (s.connections 0).phase = .streamEstablished component) ∧
    (∃ component, (s.connections 1).phase = .streamEstablished component) ∧
    (s.connections 0).lserver = (s.connections 1).lserver ∧
    s.registrations ("localhost", subdomainPrefix "comp") = some (.component 0) ∧
    ¬ Good ⟨["localhost"], nodup_singleton _⟩ s) ∧
    ∃ s, localhostRun (establish 0 ++ establish 1 ++ leave 1) = some s ∧
      (∃ component, (s.connections 0).phase = .streamEstablished component) ∧
      s.registrations ("localhost", subdomainPrefix "comp") = none := by
  refine ⟨⟨_, rfl, ⟨_, rfl⟩, ⟨_, rfl⟩, rfl, rfl, ?_⟩, ⟨_, rfl, ⟨_, rfl⟩, rfl⟩⟩
  intro hgood
  exact absurd ((hgood 0).unique _ 1 _ rfl rfl rfl) Nat.one_ne_zero

end MongooseIM.Component
