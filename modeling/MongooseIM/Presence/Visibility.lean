import Mathlib.Data.List.Induction
import MongooseIM.Presence.State

/-! # Who sees a session

A presence reaches a JID when it is addressed to it or, for a full JID, to its bare one, which the
session manager delivers to every resource. -/

namespace MongooseIM.Presence

open Xmpp

variable {P : Type*}

/-- The presence is addressed to the JID or to all its resources. -/
def Routed.reaches (routed : Routed) (jid : Jid) : Bool :=
  routed.toJid = jid ∨ routed.toJid = jid.toBare

/-- Whether the JID sees the session after one more presence. -/
def sight (jid : Jid) (seen : Bool) (routed : Routed) : Bool :=
  match routed.type with
  | .available => seen || routed.reaches jid
  | .unavailable => seen && ! routed.reaches jid
  | .probe => seen

/-- Whether the JID sees the session after these presences, if it did so before or not. -/
def seesFrom (seen : Bool) (sent : List Routed) (jid : Jid) : Bool :=
  sent.foldl (sight jid) seen

/-- The last available or unavailable presence that reached the JID was available. -/
def sees (sent : List Routed) (jid : Jid) : Bool := seesFrom false sent jid

theorem sees_append (sent routed : List Routed) (jid : Jid) :
    sees (sent ++ routed) jid = seesFrom (sees sent jid) routed jid :=
  List.foldl_append

variable {seen : Bool} {routed : List Routed} {jid : Jid}

/-- Presences other than unavailable ones show the session to those they reach. -/
theorem seesFrom_of_shown (h : ∀ r ∈ routed, r.type ≠ .unavailable) :
    seesFrom seen routed jid = true →
    seen = true ∨ ∃ r ∈ routed, r.type = .available ∧ r.reaches jid = true := by
  induction routed generalizing seen with
  | nil => exact .inl
  | cons r routed ih =>
    intro hsees
    rcases ih (fun r hr => h r (List.mem_cons_of_mem _ hr)) hsees with hseen | ⟨r', hr', hreach⟩
    · rw [sight] at hseen
      cases htype : r.type with
      | available =>
        rw [htype] at hseen
        rcases Bool.or_eq_true_iff.1 hseen with hs | hreach
        · exact .inl hs
        · exact .inr ⟨r, List.mem_cons_self, htype, hreach⟩
      | unavailable => exact absurd htype (h r List.mem_cons_self)
      | probe =>
        rw [htype] at hseen
        exact .inl hseen
    · exact .inr ⟨r', List.mem_cons_of_mem _ hr', hreach⟩

theorem seesFrom_of_hidden (h : ∀ r ∈ routed, r.type = .unavailable) :
    seesFrom seen routed jid = true → seen = true ∧ ∀ r ∈ routed, r.reaches jid = false := by
  induction routed generalizing seen with
  | nil => exact fun hseen => ⟨hseen, by simp⟩
  | cons r routed ih =>
    intro hsees
    obtain ⟨hseen, hrest⟩ := ih (fun r hr => h r (List.mem_cons_of_mem _ hr)) hsees
    rw [sight, h r List.mem_cons_self] at hseen
    obtain ⟨hs, hreach⟩ := Bool.and_eq_true_iff.1 hseen
    refine ⟨hs, List.forall_mem_cons.2 ⟨by simpa using hreach, hrest⟩⟩

/-! ## What a handler does -/

variable (set : Available)

/-- The JID, or all its resources, are among the targets. -/
def Available.Covers (jid : Jid) : Prop := jid ∈ set ∨ jid.toBare ∈ set

/-- A handler that shows the session to more. -/
structure Adds (old : Available) (result : PresencesState P × List Routed) : Prop where
  shown : ∀ r ∈ result.2, r.type ≠ .unavailable
  kept : ∀ jid ∈ old, jid ∈ result.1.available
  covers : ∀ r ∈ result.2, r.type = .available → result.1.available.Covers r.toJid

/-- A handler that hides the session, from all those it forgets. -/
structure Drops (old : Available) (result : PresencesState P × List Routed) : Prop where
  hidden : ∀ r ∈ result.2, r.type = .unavailable
  told : ∀ jid ∈ old, jid ∈ result.1.available ∨ ⟨jid, .unavailable⟩ ∈ result.2

theorem adds_of_eq {old : Available} {new : PresencesState P} (h : new.available = old) :
    Adds old (new, []) :=
  ⟨by simp, fun jid hjid => by rw [h]; exact hjid, by simp⟩

variable (presences : PresencesState P)

theorem presenceBroadcastFirst_adds :
    Adds presences.available presences.presenceBroadcastFirst := by
  refine ⟨?_, fun jid hjid => Available.mem_foldl_addElement _ _ |>.2 (.inr hjid), ?_⟩
  · intro r hr
    rcases List.mem_append.1 hr with hr | hr <;> obtain ⟨jid, -, rfl⟩ := List.mem_map.1 hr <;> simp
  · intro r hr htype
    rcases List.mem_append.1 hr with hr | hr
    · obtain ⟨jid, -, rfl⟩ := List.mem_map.1 hr
      cases htype
    · obtain ⟨jid, hjid, rfl⟩ := List.mem_map.1 hr
      exact .inl (Available.mem_foldl_addElement _ _ |>.2 (.inl hjid))

theorem presenceUpdateToAvailable_adds (me : Jid) (packet : P) (fs ts : List Jid)
    (presences : PresencesState P) :
    Adds presences.available (presenceUpdateToAvailable me packet fs ts presences) := by
  rw [presenceUpdateToAvailable]
  split
  · exact presenceBroadcastFirst_adds { presences with
      subscriptions := buildSubs me fs ts
      presLast := some packet }
  · refine ⟨?_, fun jid hjid => hjid, ?_⟩
    · intro r hr
      obtain ⟨jid, -, rfl⟩ := List.mem_map.1 hr
      simp
    · intro r hr _
      obtain ⟨jid, hjid, rfl⟩ := List.mem_map.1 hr
      exact .inl (List.mem_filter.1 hjid).1

theorem presenceUpdateToUnavailable_drops :
    Drops presences.available (presenceUpdateToUnavailable presences) := by
  refine ⟨?_, fun jid hjid => .inl hjid⟩
  intro r hr
  obtain ⟨jid, -, rfl⟩ := List.mem_map.1 hr
  rfl

theorem processPresenceTrackAvailable_adds (toJid : Jid) (presences : PresencesState P) :
    Adds presences.available (processPresenceTrackAvailable toJid presences) := by
  refine ⟨?_, fun jid hjid => Available.mem_addElement.2 (.inr hjid), ?_⟩
  · intro r hr
    rw [List.mem_singleton.1 hr]
    simp
  · intro r hr _
    rw [List.mem_singleton.1 hr]
    exact .inl (Available.mem_addElement.2 (.inl rfl))

theorem processPresenceTrackUnavailable_drops (toJid : Jid) (presences : PresencesState P) :
    Drops presences.available (processPresenceTrackUnavailable toJid presences) := by
  refine ⟨fun r hr => by rw [List.mem_singleton.1 hr], fun jid hjid => ?_⟩
  by_cases hne : jid = toJid
  · exact .inr (by rw [hne]; exact List.mem_cons_self)
  · exact .inl (Available.mem_delElement.2 ⟨hne, hjid⟩)

theorem handleSubscriptionChange_adds_or_drops (contact : Jid) (sub : Roster.Subscription)
    (presences : PresencesState P) :
    Adds presences.available (handleSubscriptionChange contact sub presences) ∨
    Drops presences.available (handleSubscriptionChange contact sub presences) := by
  simp only [handleSubscriptionChange]
  split
  · exact .inl (adds_of_eq rfl)
  · split_ifs
    · refine .inl ⟨?_, fun jid hjid => Available.mem_addElement.2 (.inr hjid), ?_⟩
      · intro r hr
        rw [List.mem_singleton.1 hr]
        simp
      · intro r hr _
        rw [List.mem_singleton.1 hr]
        exact .inl (Available.mem_addElement.2 (.inl rfl))
    · refine .inr ⟨fun r hr => by rw [List.mem_singleton.1 hr], fun jid hjid => ?_⟩
      by_cases hne : jid = contact
      · exact .inr (by rw [hne]; exact List.mem_cons_self)
      · exact .inl (Available.mem_delElement.2 ⟨hne, hjid⟩)
    · exact .inl (adds_of_eq rfl)

theorem isSubscribed_makeAvailableTo (fromJid bare : Jid) (jid : Jid) (sub : Subscription) :
    (presences.makeAvailableTo fromJid bare).isSubscribed jid sub =
    presences.isSubscribed jid sub := by
  rw [PresencesState.makeAvailableTo]
  split_ifs <;> rfl

/-- Whoever is subscribed and asks is among the targets from then on. -/
theorem handleReceivedProbe_adds (me fromJid : Jid) (presences : PresencesState P) :
    Adds presences.available (handleReceivedProbe me fromJid presences) := by
  rw [handleReceivedProbe]
  set new := if presences.amIAvailableTo fromJid fromJid.toBare then presences
    else presences.makeAvailableTo fromJid fromJid.toBare with hnew
  have hkept : ∀ jid ∈ presences.available, jid ∈ new.available := by
    intro jid hjid
    rw [hnew]
    split_ifs
    · exact hjid
    · rw [PresencesState.makeAvailableTo]
      split_ifs
      · exact Available.mem_addElement.2 (.inr hjid)
      · exact Available.mem_addElement.2 (.inr hjid)
      · exact hjid
  have hcovers : new.isSubscribedToMyPresence fromJid fromJid.toBare →
      new.available.Covers fromJid := by
    intro hsub
    rw [hnew] at hsub ⊢
    split_ifs at hsub ⊢ with hav
    · rw [PresencesState.amIAvailableTo, decide_eq_true_eq] at hav
      exact hav.imp id And.right
    · rw [PresencesState.isSubscribedToMyPresence, isSubscribed_makeAvailableTo,
        isSubscribed_makeAvailableTo, decide_eq_true_eq] at hsub
      rw [PresencesState.makeAvailableTo]
      split_ifs with hfull hbare
      · exact .inl (Available.mem_addElement.2 (.inl rfl))
      · exact .inr (Available.mem_addElement.2 (.inl rfl))
      · exact absurd hsub (by simp [hfull, hbare])
  refine ⟨?_, hkept, ?_⟩
  · intro r hr
    simp only [processPresenceProbe] at hr
    split at hr
    · cases hr
    · split_ifs at hr <;> simp at hr <;> simp [hr]
  · intro r hr _
    simp only [processPresenceProbe] at hr
    split at hr
    · cases hr
    · split_ifs at hr with hsub hme hvis
      · cases hr
      · rw [List.mem_singleton.1 hr]
        exact hcovers hsub
      · rw [List.mem_singleton.1 hr]
        rw [PresencesState.specificallyVisibleTo, decide_eq_true_eq] at hvis
        exact .inl hvis.2
      · cases hr

/-! ## Runs -/

namespace Session

/-- The targets of a session; none without a state. -/
def available (session : Session P) : Available := (session.presences.getD {}).available

/-- **Everyone who sees the session is among its targets**, by its JID or its bare one. -/
def Covered (session : Session P) : Prop :=
  ∀ jid, sees session.sent jid = true → session.available.Covers jid

variable {session : Session P} {result : PresencesState P × List Routed}

theorem Covered.adds (h : session.Covered) (hadds : Adds session.available result) :
    (session.after result).Covered := by
  intro jid hsees
  have hsees' : seesFrom (sees session.sent jid) result.2 jid = true := by
    rw [← sees_append]
    exact hsees
  rcases seesFrom_of_shown hadds.shown hsees' with hold | ⟨r, hr, htype, hreach⟩
  · exact (h jid hold).imp (hadds.kept _) (hadds.kept _)
  · have hcovers := hadds.covers r hr htype
    rw [Routed.reaches, decide_eq_true_eq] at hreach
    rcases hreach with rfl | hbare
    · exact hcovers
    · rw [Available.Covers, hbare, Jid.toBare_toBare, or_self] at hcovers
      exact .inr hcovers

theorem Covered.drops (h : session.Covered) (hdrops : Drops session.available result) :
    (session.after result).Covered := by
  intro jid hsees
  have hsees' : seesFrom (sees session.sent jid) result.2 jid = true := by
    rw [← sees_append]
    exact hsees
  obtain ⟨hold, hmissed⟩ := seesFrom_of_hidden hdrops.hidden hsees'
  -- a target that was told could not see the session any more
  have hkept : ∀ toJid ∈ session.available, toJid = jid ∨ toJid = jid.toBare →
      toJid ∈ result.1.available := by
    intro toJid hmem hreach
    refine (hdrops.told toJid hmem).resolve_right fun htold => ?_
    have hno := hmissed _ htold
    simp only [Routed.reaches, decide_eq_false_iff_not] at hno
    exact hno hreach
  exact (h jid hold).imp (fun hm => hkept _ hm (.inl rfl)) fun hm => hkept _ hm (.inr rfl)

/-- **Every event keeps everyone covered.** -/
theorem Covered.step (h : session.Covered) (me : Jid) (event : Event P) :
    (session.step me event).Covered := by
  cases event with
  | sendAvailable toJid packet fs ts =>
    rw [Session.step]
    split_ifs
    · exact h.adds (presenceUpdateToAvailable_adds _ _ _ _ _)
    · exact h.adds (processPresenceTrackAvailable_adds _ _)
  | sendUnavailable toJid =>
    rw [Session.step]
    split_ifs
    · exact h.drops (presenceUpdateToUnavailable_drops _)
    · exact h.drops (processPresenceTrackUnavailable_drops _ _)
  | item contact sub =>
    rw [Session.step]
    split
    · exact h
    · rename_i presences hp
      have hav : session.available = presences.available := by rw [available, hp]; rfl
      rcases handleSubscriptionChange_adds_or_drops contact sub presences with ha | hd
      · exact h.adds (hav ▸ ha)
      · exact h.drops (hav ▸ hd)
  | probe fromJid =>
    rw [Session.step]
    split
    · exact h
    · rename_i presences hp
      have hav : session.available = presences.available := by rw [available, hp]; rfl
      exact h.adds (hav ▸ handleReceivedProbe_adds me fromJid presences)

/-- Everyone who sees a session is covered after every run. -/
theorem run_covered (me : Jid) (events : List (Event P)) : (run me events).Covered := by
  induction events using List.reverseRecOn with
  | nil => intro jid hsees; cases hsees
  | append_singleton events event ih =>
    rw [run, List.foldl_concat]
    exact ih.step me event

end Session

/-! ## Being told -/

/-- How many unavailable presences reach the JID. -/
def toldCount (routed : List Routed) (jid : Jid) : ℕ :=
  routed.countP fun r => r.type = .unavailable ∧ r.reaches jid

/-- Every JID of another user that sees the session is told once that it is gone. -/
def ToldOnce (me : Jid) (sent routed : List Routed) : Prop :=
  ∀ jid, ¬ me.areBareEqual jid → sees sent jid = true → toldCount routed jid = 1

/-- A full JID and its bare one are both targets. -/
def Available.Doubled (jid : Jid) : Prop :=
  jid ≠ jid.toBare ∧ jid ∈ set ∧ jid.toBare ∈ set

theorem countP_pair {α : Type*} [DecidableEq α] {l : List α} (hl : l.Nodup) {a b : α}
    (hab : a ≠ b) :
    l.countP (fun t => t = a ∨ t = b) = (if a ∈ l then 1 else 0) + if b ∈ l then 1 else 0 := by
  induction l with
  | nil => rfl
  | cons t l ih =>
    obtain ⟨hnotin, hnodup⟩ := List.nodup_cons.1 hl
    rw [List.countP_cons, ih hnodup]
    by_cases ha : t = a
    · subst ha
      simp [hnotin, hab.symm, Nat.add_comm]
    · by_cases hb : t = b
      · subst hb
        simp [hnotin, Ne.symm ha]
      · simp [ha, hb, Ne.symm ha, Ne.symm hb]

/-- The targets that reach a JID. -/
def Available.reachCount (jid : Jid) : ℕ :=
  set.elements.countP fun t => t = jid ∨ t = jid.toBare

/-- **One target reaches a JID** exactly when it is covered and not doubled. -/
theorem Available.reachCount_eq_one {set : Available} :
    set.reachCount jid = 1 ↔ set.Covers jid ∧ ¬ set.Doubled jid := by
  show set.elements.countP _ = 1 ↔ (jid ∈ set.elements ∨ jid.toBare ∈ set.elements) ∧
    ¬ (jid ≠ jid.toBare ∧ jid ∈ set.elements ∧ jid.toBare ∈ set.elements)
  by_cases hbare : jid = jid.toBare
  · rw [← hbare]
    have hcount : set.elements.countP (fun t => t = jid ∨ t = jid) =
        if jid ∈ set.elements then 1 else 0 := by
      simpa [List.count, beq_eq_decide] using set.nodup.count
    rw [hcount]
    simp
  · rw [countP_pair set.nodup hbare]
    by_cases hfull : jid ∈ set.elements <;> by_cases hb : jid.toBare ∈ set.elements <;>
      simp [hfull, hb, hbare]

/-- A broadcast tells each JID through the targets that reach it. -/
theorem toldCount_presenceBroadcast (jid : Jid) :
    toldCount presences.presenceBroadcast jid = presences.available.reachCount jid := by
  rw [toldCount, PresencesState.presenceBroadcast, List.countP_map, Available.reachCount]
  simp [Function.comp_def, Routed.reaches]

variable {me : Jid}

/-- What reaches a JID of another user is no address of the user himself. -/
theorem not_reaches_own {toJid : Jid} (hother : ¬ me.areBareEqual jid)
    (hown : me.areBareEqual toJid) : ¬ (toJid = jid ∨ toJid = jid.toBare) := by
  rintro (rfl | rfl)
  · exact hother hown
  · exact hother hown

/-- **Whatever the reason of the end**, the other users are told as by a broadcast. -/
theorem toldCount_presenceBroadcastFiltered (hother : ¬ me.areBareEqual jid)
    (presences : PresencesState P) (reason : Reason) :
    toldCount (presenceBroadcastFiltered me presences reason) jid =
    presences.available.reachCount jid := by
  have hself : ∀ resource : String, ¬ (me.replaceResourceNoprep resource = jid ∨
      me.replaceResourceNoprep resource = jid.toBare) := by
    intro resource
    exact not_reaches_own hother (by simp [Jid.areBareEqual, Jid.replaceResourceNoprep])
  cases reason with
  | other => exact toldCount_presenceBroadcast presences jid
  | replaced resources =>
    have hnone : (resources.map fun resource =>
        (⟨me.replaceResourceNoprep resource, .unavailable⟩ : Routed)).countP
          (fun r => r.type = .unavailable ∧ r.reaches jid) = 0 := by
      rw [List.countP_eq_zero]
      intro r hr
      obtain ⟨resource, -, rfl⟩ := List.mem_map.1 hr
      simpa [Routed.reaches] using hself resource
    rw [toldCount, presenceBroadcastFiltered, List.countP_append, hnone, Nat.zero_add,
      List.countP_map, List.countP_filter, Available.reachCount]
    refine List.countP_congr fun toJid _ => ?_
    simp only [Function.comp_apply, Routed.reaches, decide_eq_true_eq, true_and,
      Bool.and_eq_true, Bool.not_eq_true]
    refine and_iff_left_of_imp fun hreach => ?_
    by_contra hown
    exact not_reaches_own hother (by simpa using hown) hreach
  | resumed resources =>
    rw [toldCount, presenceBroadcastFiltered, List.countP_flatMap, Available.reachCount]
    induction presences.available.elements with
    | nil => rfl
    | cons toJid elements ih =>
      rw [List.map_cons, List.sum_cons, ih, List.countP_cons, Nat.add_comm]
      congr 1
      simp only [Function.comp_apply]
      split_ifs with hown hreach hreach
      · exact absurd (by simpa using hreach) (not_reaches_own hother hown)
      · rw [List.countP_eq_zero]
        intro r hr
        obtain ⟨own, hmem, rfl⟩ := List.mem_map.1 hr
        obtain ⟨resource, -, rfl⟩ := List.mem_map.1 (List.mem_filter.1 hmem).1
        simpa [Routed.reaches] using hself resource
      · simpa [Routed.reaches, or_iff_not_imp_left] using hreach
      · simpa [Routed.reaches] using hreach

namespace Session

/-- The session has broadcast an available presence and not taken it back. -/
def Broadcasting (session : Session P) : Prop :=
  ∃ presences, session.presences = some presences ∧ presences.presLast.isSome

variable {session : Session P}

/-- An end tells all the targets, if the session is broadcasting. -/
theorem toldCount_userTerminate {me jid : Jid} (hother : ¬ me.areBareEqual jid)
    (h : session.Broadcasting) (reason : Reason) :
    toldCount (userTerminate me reason session.presences) jid =
    session.available.reachCount jid := by
  obtain ⟨presences, hp, hlast⟩ := h
  obtain ⟨packet, hpacket⟩ := Option.isSome_iff_exists.1 hlast
  rw [available, hp, userTerminate]
  simp only [hpacket]
  exact toldCount_presenceBroadcastFiltered hother presences reason

theorem userTerminate_eq_nil (h : ¬ session.Broadcasting) (me : Jid)
    (reason : Reason) : userTerminate me reason session.presences = [] := by
  cases hp : session.presences with
  | none => rfl
  | some presences =>
    cases hlast : presences.presLast with
    | none => simp [userTerminate, hlast]
    | some packet => exact absurd ⟨presences, hp, by simp [hlast]⟩ h

/-- **Who is told that the session is gone.** Its end tells each JID of another user that sees it
once, if and only if, where there is one, the session is broadcasting and the JID and its bare one
are not both targets; an unavailable broadcast, if and only if none is such a double target. -/
theorem told_once_iff (me : Jid) (events : List (Event P)) (reason : Reason) :
    (ToldOnce me (run me events).sent (userTerminate me reason (run me events).presences) ↔
    ∀ jid, ¬ me.areBareEqual jid → sees (run me events).sent jid = true →
      (run me events).Broadcasting ∧ ¬ (run me events).available.Doubled jid) ∧
    (ToldOnce me (run me events).sent
      (presenceUpdateToUnavailable ((run me events).presences.getD {})).2 ↔
    ∀ jid, ¬ me.areBareEqual jid → sees (run me events).sent jid = true →
      ¬ (run me events).available.Doubled jid) := by
  have hcovered := run_covered me events
  constructor
  · refine forall_congr' fun jid => forall_congr' fun hother => forall_congr' fun hsees => ?_
    by_cases hb : (run me events).Broadcasting
    · rw [toldCount_userTerminate hother hb, Available.reachCount_eq_one,
        and_iff_right (hcovered jid hsees), and_iff_right hb]
    · rw [userTerminate_eq_nil hb]
      simp [toldCount, hb]
  · refine forall_congr' fun jid => forall_congr' fun hother => forall_congr' fun hsees => ?_
    rw [presenceUpdateToUnavailable, toldCount_presenceBroadcast]
    show (run me events).available.reachCount jid = 1 ↔ _
    rw [Available.reachCount_eq_one, and_iff_right (hcovered jid hsees)]

/-- A user who has not broadcast a presence sends one to `bob@localhost/phone` and disconnects:
`bob` is not told. -/
theorem directed_presence_not_taken_back :
    ¬ ∀ (me : Jid) (events : List (Event Unit)) (reason : Reason),
    ToldOnce me (run me events).sent (userTerminate me reason (run me events).presences) := by
  intro h
  have htold := h ⟨"alice", "localhost", "res"⟩
    [.sendAvailable ⟨"bob", "localhost", "phone"⟩ () [] []] .other
    ⟨"bob", "localhost", "phone"⟩ (by decide) (by decide)
  exact absurd htold (by decide)

end Session

end MongooseIM.Presence
