import Mathlib.Algebra.BigOperators.Group.List.Basic
import Mathlib.Data.Int.Order.Basic
import Mathlib.Data.List.Nodup
import MongooseIM.Carbons.Forward

/-! # Delivering messages and their copies

The router gives a message to sessions of a user; each of them, on its own, sends copies to others,
which the router gives to their sessions. -/

namespace MongooseIM.Carbons

open Xmpp List

/-- `#session{}` of a resource, its process, and what `mod_carboncopy` keeps in it. -/
structure Session where
  /-- The resource of `usr`. -/
  resource : String
  /-- `priority`; `none` is `undefined`. -/
  priority : Option ℤ
  /-- The version under `?CC_KEY` in `info`. -/
  cc : Option Version
  deriving DecidableEq

/-- The sessions of a user, one for each resource: `clean_session_list/1` leaves them. -/
structure Sessions where
  list : List Session
  nodup : (list.map Session.resource).Nodup
  resource_ne : ∀ session ∈ list, session.resource ≠ ""

variable (sessions : Sessions)

/-- `get_session/1` of a full JID of the user. -/
def getSession (lresource : String) : Option Session :=
  sessions.list.find? fun session => session.resource = lresource

/-- `get_user_present_pids/2`, the processes as their sessions. -/
def getUserPresentPids : List (ℤ × Session) :=
  sessions.list.filterMap fun session => session.priority.map fun prio => (prio, session)

/-- `route_message/4`: the sessions it selects. -/
def routeMessage : List Session :=
  let prioPid := getUserPresentPids sessions
  match (prioPid.map Prod.fst).max? with
  | some priority =>
    if 0 ≤ priority then (prioPid.filter fun p => p.1 = priority).map Prod.snd else []
  | none => []

/-- `do_route/4` of a message: the sessions it is given to. `drop` is what
`sm_filter_offline_message` says of a message to a resource that is offline. -/
def doRoute (drop : Bool) (toJid : Jid) : List Session :=
  if toJid.lresource = "" then routeMessage sessions
  else
    match getSession sessions toJid.lresource with
    | none => if drop then [] else routeMessage sessions
    | some session => [session]

/-- `filter_cc_enabled_resources/1` -/
def filterCcEnabledResources : List (Version × String) :=
  sessions.list.filterMap fun session => session.cc.map fun version => (version, session.resource)

/-- `filter_priority_resources/1` -/
def filterPriorityResources : List (ℤ × String) :=
  sessions.list.filterMap fun session => session.priority.map fun prio => (prio, session.resource)

/-- `is_bare_to/3` -/
def isBareTo (direction : Direction) (toJid : Jid) : Bool :=
  direction = .received && toJid.lresource = ""

/-- `max_prio/1` -/
def maxPrio (prioRes : List (ℤ × String)) : ℤ := (prioRes.map Prod.fst).max?.getD 0

/-- `is_max_prio/2` -/
def isMaxPrio (res : String) (prioRes : List (ℤ × String)) : Bool :=
  (maxPrio prioRes, res) ∈ prioRes

/-- `jids_minus_max_priority_resource/3` -/
def jidsMinusMaxPriorityResource (jid : Jid) (ccResList : List (Version × String))
    (prioRes : List (ℤ × String)) : List (Jid × Version) :=
  (ccResList.filter fun cc => !isMaxPrio cc.2 prioRes).map fun cc =>
    (jid.replaceResourceNoprep cc.2, cc.1)

/-- `jids_minus_specific_resource/4` -/
def jidsMinusSpecificResource (jid : Jid) (r : String) (ccResList : List (Version × String)) :
    List (Jid × Version) :=
  (ccResList.filter fun cc => cc.2 ≠ r).map fun cc => (jid.replaceResourceNoprep cc.2, cc.1)

/-- A message on its way to a JID. -/
abbrev Routed := Jid × Element

variable (mamId : Option String) (jid toJid : Jid)

/-- `send_copies/5` -/
def sendCopies (packet : Element) (direction : Direction) : List Routed :=
  let prioRes := filterPriorityResources sessions
  let ccResList := filterCcEnabledResources sessions
  let targets :=
    if isBareTo direction toJid then jidsMinusMaxPriorityResource jid ccResList prioRes
    else jidsMinusSpecificResource jid jid.lresource ccResList
  targets.map fun target =>
    let sender := jid.toBare
    (target.1, buildForwardPacket mamId jid packet sender target.1 direction target.2)

/-- `check_and_forward/5` -/
def checkAndForward (packet : Element) (direction : Direction) : List Routed :=
  if shouldForward packet toJid direction then sendCopies sessions mamId jid toJid packet direction
  else []

/-- A message that a session is given. -/
structure Receipt where
  resource : String
  packet : Element

/-- A message is routed, and so are the copies that the sessions that are given it send, as often
as `depth` allows. `user` is the bare JID. -/
def cascade (mamId : Option String) (drop : Bool) (user : Jid) : ℕ → Routed → List Receipt
  | 0, _ => []
  | depth + 1, (toJid, packet) =>
    (doRoute sessions drop toJid).flatMap fun session =>
      -- `user_receive_message/3`
      let jid := user.replaceResourceNoprep session.resource
      ⟨session.resource, packet⟩ ::
        (checkAndForward sessions mamId jid toJid packet .received).flatMap
          (cascade mamId drop user depth)

/-- `user_send_message/3` of a session: what the sessions of the sender receive. -/
def sendCascade (drop : Bool) (user : Jid) (depth : ℕ) (session : Session)
    (message : Routed) : List Receipt :=
  let jid := user.replaceResourceNoprep session.resource
  (checkAndForward sessions mamId jid message.1 message.2 .sent).flatMap
    (cascade sessions mamId drop user depth)

/-- How many of the messages a session is given. -/
def countFor (session : Session) (receipts : List Receipt) : ℕ :=
  receipts.countP fun receipt => receipt.resource = session.resource

/-- **Every session has the message once.** -/
structure OncePerSession (mamId : Option String) (drop : Bool) (user toJid : Jid)
    (packet : Element) : Prop where
  /-- The sessions that are selected and those that want copies have one of it, however often copies
  are copied. -/
  received : ∀ depth, ∀ session ∈ sessions.list,
    session ∈ doRoute sessions drop toJid ∨ session.cc.isSome →
      countFor session (cascade sessions mamId drop user (depth + 2) (toJid, packet)) = 1
  /-- The other sessions of a sender that want copies have one of a message that is sent. -/
  sent : ∀ depth, ∀ sender ∈ sessions.list, ∀ message : Routed,
    shouldForward message.2 message.1 .sent → ∀ session ∈ sessions.list, session ≠ sender →
      session.cc.isSome →
        countFor session (sendCascade sessions mamId drop user (depth + 1) sender message) = 1
  copies : ∀ jid toJid direction, ∀ copy ∈ sendCopies sessions mamId jid toJid packet direction,
    ∀ jid' direction', checkAndForward sessions mamId jid' copy.1 copy.2 direction' = []

/-- A session has the greatest priority. -/
def IsTop (sessions : Sessions) (session : Session) : Prop :=
  ∃ prio ∈ session.priority, ∀ other ∈ sessions.list, ∀ prio' ∈ other.priority, prio' ≤ prio

instance : DecidablePred (IsTop sessions) := fun session =>
  match h : session.priority with
  | none => isFalse (by simp [IsTop, h])
  | some prio =>
    decidable_of_iff (∀ other ∈ sessions.list, ∀ prio' ∈ other.priority, prio' ≤ prio)
      (by simp [IsTop, h])

/-- **When sessions do not copy to each other**: the message is for a resource that is online, one
session has the greatest priority, no session wants copies, or only those of the greatest priority
do and the message is for the bare JID. -/
def Separate (toJid : Jid) : Prop :=
  (∃ session ∈ sessions.list, toJid.lresource = session.resource) ∨
    (sessions.list.filter fun session => IsTop sessions session).length = 1 ∨
      ∀ session ∈ sessions.list, session.cc.isSome →
        toJid.lresource = "" ∧ IsTop sessions session

instance (toJid : Jid) : Decidable (Separate sessions toJid) :=
  inferInstanceAs (Decidable (_ ∨ _ ∨ _))

variable {sessions} {session : Session}

theorem eq_of_resource {other : Session} (h : session ∈ sessions.list)
    (h' : other ∈ sessions.list) (heq : session.resource = other.resource) : session = other :=
  inj_on_of_nodup_map sessions.nodup h h' heq

theorem getSession_of_mem (h : session ∈ sessions.list) :
    getSession sessions session.resource = some session := by
  rcases hfind : getSession sessions session.resource with _ | other
  · have hnone := find?_eq_none.1 hfind session h
    simp at hnone
  · have hmem := mem_of_find?_eq_some hfind
    have hresource := find?_some hfind
    rw [eq_of_resource hmem h (of_decide_eq_true hresource)]

variable {toJid : Jid}

/-- A full JID whose resource is online selects its session. -/
theorem doRoute_of_mem (h : session ∈ sessions.list) (drop : Bool)
    (hto : toJid.lresource = session.resource) : doRoute sessions drop toJid = [session] := by
  have hne : toJid.lresource ≠ "" := hto ▸ sessions.resource_ne session h
  rw [doRoute, if_neg hne, hto, getSession_of_mem h]

theorem map_fst_getUserPresentPids :
    (getUserPresentPids sessions).map Prod.fst = sessions.list.filterMap Session.priority := by
  rw [getUserPresentPids, map_filterMap]
  refine filterMap_congr ?_
  intro session _
  simp [Option.map_map, Function.comp_def]

theorem map_fst_filterPriorityResources :
    (filterPriorityResources sessions).map Prod.fst = sessions.list.filterMap Session.priority := by
  rw [filterPriorityResources, map_filterMap]
  refine filterMap_congr ?_
  intro session _
  simp [Option.map_map, Function.comp_def]

theorem filter_getUserPresentPids (priority : ℤ) :
    ((getUserPresentPids sessions).filter fun p => p.1 = priority).map Prod.snd =
    sessions.list.filter fun session => session.priority = some priority := by
  rw [getUserPresentPids]
  induction sessions.list with
  | nil => rfl
  | cons session list ih =>
    rcases hprio : session.priority with _ | prio
    · simpa [hprio] using ih
    · by_cases heq : prio = priority
      · simpa [hprio, heq] using ih
      · simpa [hprio, heq] using ih

/-- **Those that are selected have the greatest priority**, which is that of `max_prio/1`. -/
theorem routeMessage_eq (h : routeMessage sessions ≠ []) :
    (routeMessage sessions = sessions.list.filter fun session => IsTop sessions session) ∧
    ∀ session ∈ sessions.list,
      session.priority = some (maxPrio (filterPriorityResources sessions)) ↔
        IsTop sessions session := by
  rw [maxPrio, map_fst_filterPriorityResources]
  simp only [routeMessage, map_fst_getUserPresentPids] at h ⊢
  rcases hmax : (sessions.list.filterMap Session.priority).max? with _ | priority
  · simp [hmax] at h
  obtain ⟨hmem, hle⟩ := max?_eq_some_iff.1 hmax
  have htop : ∀ session ∈ sessions.list,
      session.priority = some priority ↔ IsTop sessions session := by
    intro session hsession
    constructor
    · intro hprio
      refine ⟨priority, hprio, ?_⟩
      intro other hother prio' hprio'
      exact hle prio' (mem_filterMap.2 ⟨other, hother, hprio'⟩)
    · rintro ⟨prio, hprio, hall⟩
      obtain ⟨other, hother, hprio'⟩ := mem_filterMap.1 hmem
      have hge := hall other hother priority hprio'
      have hle := hle prio (mem_filterMap.2 ⟨session, hsession, hprio⟩)
      rw [le_antisymm hge hle]
      exact hprio
  simp only [hmax] at h ⊢
  refine ⟨?_, htop⟩
  split_ifs at h ⊢ with hpositive
  · rw [filter_getUserPresentPids]
    exact filter_congr fun session hsession => by simp [htop session hsession]
  · exact absurd rfl h

/-- A resource has the greatest priority if its session has. -/
theorem isMaxPrio_iff (h : session ∈ sessions.list) :
    isMaxPrio session.resource (filterPriorityResources sessions) = true ↔
    session.priority = some (maxPrio (filterPriorityResources sessions)) := by
  rw [isMaxPrio, decide_eq_true_eq]
  generalize maxPrio (filterPriorityResources sessions) = priority
  rw [filterPriorityResources, mem_filterMap]
  constructor
  · rintro ⟨other, hother, hpair⟩
    obtain ⟨prio, hprio, heq⟩ := Option.map_eq_some_iff.1 hpair
    obtain ⟨rfl, hresource⟩ := Prod.mk.inj heq
    rw [← eq_of_resource hother h hresource]
    exact hprio
  · intro hprio
    exact ⟨session, h, by rw [hprio]; rfl⟩

/-- The resources that a session may send copies to. -/
def mayCopy (sessions : Sessions) (direction : Direction) (jid toJid : Jid) (res : String) : Bool :=
  if isBareTo direction toJid then !isMaxPrio res (filterPriorityResources sessions)
  else res ≠ jid.lresource

/-- A session sends a copy to another one. -/
def Targeted (sessions : Sessions) (direction : Direction) (jid toJid : Jid) (session : Session) :
    Prop :=
  session.cc.isSome ∧ mayCopy sessions direction jid toJid session.resource

instance (direction : Direction) (jid toJid : Jid) :
    DecidablePred (Targeted sessions direction jid toJid) := fun _ =>
  inferInstanceAs (Decidable (_ ∧ _))

/-- Resources that want copies are chosen as their sessions are. -/
theorem filter_ccResources {β : Type} (may : String → Bool) (f : String → Version → β)
    (list : List Session) :
    ((list.filterMap fun session => session.cc.map fun version =>
      (version, session.resource)).filter fun cc => may cc.2).map (fun cc => f cc.2 cc.1) =
    (list.filter fun session => session.cc.isSome ∧ may session.resource).filterMap
      fun session => session.cc.map (f session.resource) := by
  induction list with
  | nil => rfl
  | cons session list ih =>
    rcases hcc : session.cc with _ | version
    · simpa [hcc] using ih
    · rcases hmay : may session.resource with _ | _
      · simpa [hcc, hmay] using ih
      · simpa [hcc, hmay] using ih

/-- The copies that are sent, one to each session that is targeted. -/
theorem sendCopies_eq (packet : Element) (direction : Direction) :
    sendCopies sessions mamId jid toJid packet direction =
    (sessions.list.filter fun session => Targeted sessions direction jid toJid session).filterMap
      fun session => session.cc.map fun version =>
        (jid.replaceResourceNoprep session.resource, buildForwardPacket mamId jid packet jid.toBare
          (jid.replaceResourceNoprep session.resource) direction version) := by
  have hchosen := filter_ccResources (mayCopy sessions direction jid toJid)
    (fun res version => (jid.replaceResourceNoprep res, buildForwardPacket mamId jid packet
      jid.toBare (jid.replaceResourceNoprep res) direction version)) sessions.list
  refine Eq.trans ?_ hchosen
  simp only [sendCopies, filterCcEnabledResources, mayCopy]
  split_ifs
  · rw [jidsMinusMaxPriorityResource, map_map]
    rfl
  · rw [jidsMinusSpecificResource, map_map]
    rfl

section

variable (mamId : Option String) (drop : Bool) (user : Jid) (depth : ℕ)

/-- **A copy is received by its session**, and that is all. -/
theorem cascade_copy {jid : Jid}
    (h : session ∈ sessions.list) (packet : Element) (sender dest : Jid)
    (direction : Direction) (version : Version) :
    cascade sessions mamId drop user (depth + 1) (jid.replaceResourceNoprep session.resource,
      buildForwardPacket mamId jid packet sender dest direction version) =
    [⟨session.resource, buildForwardPacket mamId jid packet sender dest direction version⟩] := by
  rw [cascade, doRoute_of_mem h drop rfl]
  simp [checkAndForward, shouldForward_buildForwardPacket]

theorem resources_copies (jid toJid : Jid) (packet : Element) (direction : Direction) :
    ((sendCopies sessions mamId jid toJid packet direction).flatMap
      (cascade sessions mamId drop user (depth + 1))).map Receipt.resource =
    (sessions.list.filter fun session => Targeted sessions direction jid toJid session).map
      Session.resource := by
  rw [sendCopies_eq]
  have hall : ∀ session ∈ sessions.list.filter fun session =>
      Targeted sessions direction jid toJid session,
        session ∈ sessions.list ∧ session.cc.isSome := by
    intro session hmem
    obtain ⟨hmem, htargeted⟩ := mem_filter.1 hmem
    exact ⟨hmem, (of_decide_eq_true htargeted).1⟩
  generalize (sessions.list.filter fun session =>
    Targeted sessions direction jid toJid session) = targets at hall ⊢
  induction targets with
  | nil => rfl
  | cons session targets ih =>
    rw [forall_mem_cons] at hall
    obtain ⟨⟨hmem, hcc⟩, hrest⟩ := hall
    obtain ⟨version, hversion⟩ := Option.isSome_iff_exists.1 hcc
    rw [filterMap_cons_some (b := _) (by rw [hversion]; rfl), flatMap_cons,
      cascade_copy mamId drop user depth hmem, map_append, ih hrest]
    rfl

end

/-- How often a session is among those with distinct resources. -/
theorem count_resource (h : session ∈ sessions.list) (p : Session → Bool) :
    ((sessions.list.filter p).map Session.resource).count session.resource =
    if p session then 1 else 0 := by
  have hnodup : ((sessions.list.filter p).map Session.resource).Nodup :=
    (filter_sublist.map _).nodup sessions.nodup
  split_ifs with hp
  · exact count_eq_one_of_mem hnodup (mem_map.2 ⟨session, mem_filter.2 ⟨h, hp⟩, rfl⟩)
  · refine count_eq_zero.2 ?_
    intro hmem
    obtain ⟨other, hother, heq⟩ := mem_map.1 hmem
    obtain ⟨hother, hpother⟩ := mem_filter.1 hother
    rw [eq_of_resource hother h heq] at hpother
    exact hp hpother

theorem countFor_eq (session : Session) (receipts : List Receipt) :
    countFor session receipts = (receipts.map Receipt.resource).count session.resource := by
  rw [countFor, count, countP_map]
  refine countP_congr ?_
  intro receipt _
  simp

/-- **A session has one copy from each session that sends it one.** -/
theorem countFor_copies (mamId : Option String) (drop : Bool) (user : Jid) (depth : ℕ)
    (jid toJid : Jid) (packet : Element) (direction : Direction)
    (h : session ∈ sessions.list) :
    countFor session ((sendCopies sessions mamId jid toJid packet direction).flatMap
      (cascade sessions mamId drop user (depth + 1))) =
    if Targeted sessions direction jid toJid session then 1 else 0 := by
  rw [countFor_eq, resources_copies, count_resource h]
  simp

/-- The session of the user with a JID. -/
def sessionJid (user : Jid) (session : Session) : Jid :=
  user.replaceResourceNoprep session.resource

variable {packet : Element}

/-- **A session has the original if it is selected, and a copy from each session that is selected
and sends it one.** -/
theorem countFor_cascade (mamId : Option String) (drop : Bool) (user : Jid) (depth : ℕ)
    (hforward : shouldForward packet toJid .received = true) (h : session ∈ sessions.list) :
    countFor session (cascade sessions mamId drop user (depth + 2) (toJid, packet)) =
    ((doRoute sessions drop toJid).countP fun selected => selected.resource = session.resource) +
      (doRoute sessions drop toJid).countP fun selected =>
        Targeted sessions .received (sessionJid user selected) toJid session := by
  rw [cascade]
  induction doRoute sessions drop toJid with
  | nil => rfl
  | cons selected rest ih =>
    have hcopies := countFor_copies mamId drop user depth (sessionJid user selected) toJid packet
      .received h
    rw [flatMap_cons, countP_cons, countP_cons, countFor, countP_append,
      countP_cons, ← countFor, ← countFor, ih, checkAndForward, if_pos hforward]
    have hsent : countFor session ((sendCopies sessions mamId
        (user.replaceResourceNoprep selected.resource) toJid packet .received).flatMap
          (cascade sessions mamId drop user (depth + 1))) = _ := hcopies
    rw [hsent]
    simp only [decide_eq_true_eq]
    omega

/-- What a message selects: the session of a resource that is online, or those of the greatest
priority. -/
theorem doRoute_cases {drop : Bool} (h : doRoute sessions drop toJid ≠ []) :
    (∃ selected ∈ sessions.list, toJid.lresource = selected.resource ∧
      doRoute sessions drop toJid = [selected]) ∨
    ((∀ session ∈ sessions.list, toJid.lresource ≠ session.resource) ∧
      routeMessage sessions ≠ [] ∧ doRoute sessions drop toJid = routeMessage sessions) := by
  by_cases honline : ∃ selected ∈ sessions.list, toJid.lresource = selected.resource
  · obtain ⟨selected, hmem, hto⟩ := honline
    exact Or.inl ⟨selected, hmem, hto, doRoute_of_mem hmem drop hto⟩
  · push Not at honline
    have hroute : doRoute sessions drop toJid = routeMessage sessions := by
      by_cases hbare : toJid.lresource = ""
      · rw [doRoute, if_pos hbare]
      · have hnone : getSession sessions toJid.lresource = none := by
          rw [getSession, find?_eq_none]
          intro session hmem
          have hne : session.resource ≠ toJid.lresource := fun heq => honline session hmem heq.symm
          simpa using hne
        rw [doRoute, if_neg hbare, hnone] at h ⊢
        cases drop
        · rfl
        · exact absurd rfl h
    exact Or.inr ⟨honline, hroute ▸ h, hroute⟩

theorem countP_top (h : session ∈ sessions.list) :
    ((sessions.list.filter fun other => IsTop sessions other).countP fun selected =>
    selected.resource = session.resource) = if IsTop sessions session then 1 else 0 := by
  have hcount := count_resource h fun other => decide (IsTop sessions other)
  rw [count, countP_map] at hcount
  simp only [decide_eq_true_eq] at hcount
  rw [← hcount]
  refine countP_congr ?_
  intro other _
  simp

section

variable (mamId : Option String) (drop : Bool) (user : Jid) (depth : ℕ)

/-- **How often a session has a message for the bare JID.** -/
theorem countFor_bare (hforward : shouldForward packet toJid .received = true)
    (hbare : toJid.lresource = "") (hroute : routeMessage sessions ≠ [])
    (hselected : doRoute sessions drop toJid = routeMessage sessions)
    (h : session ∈ sessions.list) :
    countFor session (cascade sessions mamId drop user (depth + 2) (toJid, packet)) =
    if IsTop sessions session then 1
    else if session.cc.isSome then (routeMessage sessions).length else 0 := by
  obtain ⟨hroutes, htop⟩ := routeMessage_eq hroute
  have htargeted (selected : Session) :
      Targeted sessions .received (sessionJid user selected) toJid session ↔
        session.cc.isSome ∧ ¬ IsTop sessions session := by
    rw [Targeted, mayCopy, if_pos (by simp [isBareTo, hbare]), Bool.not_eq_true',
      ← Bool.not_eq_true, isMaxPrio_iff h, htop session h]
  rw [countFor_cascade mamId drop user depth hforward h, hselected]
  simp only [htargeted]
  rw [hroutes, countP_top h]
  by_cases hs : IsTop sessions session
  · simp [hs]
  · by_cases hcc : session.cc.isSome
    · simp [hs, hcc]
    · simp [hs, hcc]

/-- **How often a session has a message for a resource that is offline.** -/
theorem countFor_offline (hforward : shouldForward packet toJid .received = true)
    (hfull : toJid.lresource ≠ "") (hroute : routeMessage sessions ≠ [])
    (hselected : doRoute sessions drop toJid = routeMessage sessions)
    (h : session ∈ sessions.list) :
    countFor session (cascade sessions mamId drop user (depth + 2) (toJid, packet)) =
    if session.cc.isSome then (routeMessage sessions).length
    else if IsTop sessions session then 1 else 0 := by
  obtain ⟨hroutes, _⟩ := routeMessage_eq hroute
  have htargeted (selected : Session) :
      Targeted sessions .received (sessionJid user selected) toJid session ↔
        session.cc.isSome ∧ ¬ selected.resource = session.resource := by
    rw [Targeted, mayCopy, if_neg (by simp [isBareTo, hfull]), decide_eq_true_eq]
    exact and_congr_right fun _ => ne_comm
  rw [countFor_cascade mamId drop user depth hforward h, hselected]
  simp only [htargeted]
  by_cases hcc : session.cc.isSome
  · have hlength := length_eq_countP_add_countP
      (fun selected : Session => decide (selected.resource = session.resource))
      (l := routeMessage sessions)
    simpa [hcc] using hlength.symm
  · rw [hroutes, countP_top h]
    simp [hcc]

/-- **A session that wants copies has one of what another one sends.** -/
theorem countFor_sendCascade
    {sender : Session} (hsender : sender ∈ sessions.list) (h : session ∈ sessions.list)
    (hne : session ≠ sender) (hcc : session.cc.isSome) {message : Routed}
    (hforward : shouldForward message.2 message.1 .sent = true) :
    countFor session (sendCascade sessions mamId drop user (depth + 1) sender message) = 1 := by
  have hresource : session.resource ≠ sender.resource :=
    fun heq => hne (eq_of_resource h hsender heq)
  have htargeted : Targeted sessions .sent (sessionJid user sender) message.1 session := by
    refine ⟨hcc, ?_⟩
    rw [mayCopy, if_neg (by simp [isBareTo])]
    exact decide_eq_true hresource
  have hcopies := countFor_copies mamId drop user depth (sessionJid user sender) message.1 message.2
    .sent h
  rw [if_pos htargeted] at hcopies
  rw [sendCascade, checkAndForward, if_pos hforward]
  exact hcopies

end

/-- **Copies are not copied.** -/
theorem checkAndForward_copy {mamId : Option String} {jid : Jid}
    {direction : Direction} {copy : Routed}
    (h : copy ∈ sendCopies sessions mamId jid toJid packet direction) (jid' : Jid)
    (direction' : Direction) : checkAndForward sessions mamId jid' copy.1 copy.2 direction' = [] := by
  rw [sendCopies_eq] at h
  obtain ⟨session, _, hcopy⟩ := mem_filterMap.1 h
  obtain ⟨version, _, rfl⟩ := Option.map_eq_some_iff.1 hcopy
  rw [checkAndForward, shouldForward_buildForwardPacket]
  rfl

/-- A resource that is online is the only one selected. -/
theorem countFor_online (mamId : Option String) (drop : Bool) (user : Jid) (depth : ℕ)
    (hforward : shouldForward packet toJid .received = true)
    {selected : Session} (hselected : selected ∈ sessions.list)
    (hto : toJid.lresource = selected.resource) (h : session ∈ sessions.list)
    (hwants : session = selected ∨ session.cc.isSome) :
    countFor session (cascade sessions mamId drop user (depth + 2) (toJid, packet)) = 1 := by
  have hfull : toJid.lresource ≠ "" := hto ▸ sessions.resource_ne selected hselected
  rw [countFor_cascade mamId drop user depth hforward h, doRoute_of_mem hselected drop hto]
  have htargeted : Targeted sessions .received (sessionJid user selected) toJid session ↔
      session.cc.isSome ∧ session.resource ≠ selected.resource := by
    rw [Targeted, mayCopy, if_neg (by simp [isBareTo, hfull]), decide_eq_true_eq]
    rfl
  simp only [countP_cons, countP_nil, htargeted]
  by_cases heq : session = selected
  · simp [heq]
  · have hresource : session.resource ≠ selected.resource :=
      fun hresource => heq (eq_of_resource h hselected hresource)
    simp [hresource, hresource.symm, hwants.resolve_left heq]

/-- **Every session has the message once exactly when the sessions that are selected do not copy to
each other.** -/
theorem oncePerSession_iff (mamId : Option String) (drop : Bool) (user : Jid) {toJid : Jid}
    {packet : Element} (hforward : shouldForward packet toJid .received = true)
    (hselected : doRoute sessions drop toJid ≠ []) :
    OncePerSession sessions mamId drop user toJid packet ↔ Separate sessions toJid := by
  have hrest (hreceived : ∀ depth, ∀ session ∈ sessions.list,
      session ∈ doRoute sessions drop toJid ∨ session.cc.isSome →
        countFor session (cascade sessions mamId drop user (depth + 2) (toJid, packet)) = 1) :
      OncePerSession sessions mamId drop user toJid packet :=
    { received := hreceived
      sent := fun depth sender hsender message hmessage session h hne hcc =>
        countFor_sendCascade mamId drop user depth hsender h hne hcc hmessage
      copies := fun _ _ _ _ hcopy jid' direction' => checkAndForward_copy hcopy jid' direction' }
  rcases doRoute_cases hselected with ⟨selected, hmem, hto, hone⟩ | ⟨hoffline, hroute, hsame⟩
  · refine iff_of_true (hrest ?_) (Or.inl ⟨selected, hmem, hto⟩)
    intro depth session h hwants
    rw [hone, mem_singleton] at hwants
    exact countFor_online mamId drop user depth hforward hmem hto h hwants
  · have hroutes := (routeMessage_eq hroute).1
    have hpositive : 0 < (routeMessage sessions).length := length_pos_iff.2 hroute
    have hmemTop (session : Session) (h : session ∈ sessions.list) :
        session ∈ routeMessage sessions ↔ IsTop sessions session := by
      rw [hroutes, mem_filter, decide_eq_true_eq]
      exact and_iff_right h
    have hseparate : Separate sessions toJid ↔ (routeMessage sessions).length = 1 ∨
        ∀ session ∈ sessions.list, session.cc.isSome →
          toJid.lresource = "" ∧ IsTop sessions session := by
      rw [Separate, ← hroutes]
      refine or_iff_right ?_
      rintro ⟨session, h, hto⟩
      exact hoffline session h hto
    rw [hseparate]
    constructor
    · intro honce
      by_contra hnot
      push Not at hnot
      obtain ⟨hlength, session, h, hcc, hother⟩ := hnot
      have hcount := honce.received 0 session h (Or.inr hcc)
      by_cases hbare : toJid.lresource = ""
      · rw [countFor_bare mamId drop user 0 hforward hbare hroute hsame h,
          if_neg (hother hbare), if_pos hcc] at hcount
        exact hlength hcount
      · rw [countFor_offline mamId drop user 0 hforward hbare hroute hsame h, if_pos hcc] at hcount
        exact hlength hcount
    · intro hcondition
      refine hrest ?_
      intro depth session h hwants
      rw [hsame, hmemTop session h] at hwants
      by_cases hbare : toJid.lresource = ""
      · rw [countFor_bare mamId drop user depth hforward hbare hroute hsame h]
        by_cases htop : IsTop sessions session
        · rw [if_pos htop]
        · rw [if_neg htop, if_pos (hwants.resolve_left htop)]
          exact hcondition.resolve_right fun hall =>
            htop (hall session h (hwants.resolve_left htop)).2
      · rw [countFor_offline mamId drop user depth hforward hbare hroute hsame h]
        by_cases hcc : session.cc.isSome
        · rw [if_pos hcc]
          exact hcondition.resolve_right fun hall => hbare (hall session h hcc).1
        · rw [if_neg hcc, if_pos (hwants.resolve_right hcc)]

/-- A chat message. -/
def chat : Element := .mk "message" [("type", "chat")] [.mk "body" [] [] "hello"] ""

/-- The bare JID of the user. -/
def alice : Jid := ⟨"alice", "host", ""⟩

/-- Two sessions, one above the other. -/
def phoneAndTablet : Sessions where
  list := [⟨"phone", some 5, some .cc2⟩, ⟨"tablet", none, some .cc1⟩]
  nodup := by decide
  resource_ne := by decide

/-- Two sessions of the same priority, and one below. -/
def tie : Sessions where
  list := [⟨"phone", some 5, some .cc2⟩, ⟨"laptop", some 5, none⟩, ⟨"tablet", some 0, some .cc2⟩]
  nodup := by decide
  resource_ne := by decide

/-- One session has the greatest priority; the other one has a copy. -/
theorem oncePerSession_iff_phone : OncePerSession phoneAndTablet none false alice alice chat :=
  (oncePerSession_iff none false alice (by decide) (by decide)).2 (by decide)

/-- Both sessions of the greatest priority send a copy to the third one. -/
theorem copied_twice : ((cascade tie none false alice 2 (alice, chat)).map Receipt.resource) =
      ["phone", "tablet", "laptop", "tablet"] ∧
    ¬ OncePerSession tie none false alice alice chat := by
  have hresources : ((cascade tie none false alice 2 (alice, chat)).map Receipt.resource) =
      ["phone", "tablet", "laptop", "tablet"] := by decide
  refine ⟨hresources, ?_⟩
  intro honce
  have hcount := honce.received 0 ⟨"tablet", some 0, some .cc2⟩ (by decide) (by decide)
  rw [countFor_eq, hresources] at hcount
  revert hcount
  decide

end MongooseIM.Carbons
