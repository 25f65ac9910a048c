import MongooseIM.Erlang.Maps
import MongooseIM.Roster.Item

/-! # The presence of a session

`mod_presence` keeps for a session whom it is subscribed with (`subscriptions`), to whom it has
shown itself (`available`) and the last presence it has broadcast (`pres_last`). Each handler gives
the new state and the presences it routes. -/

namespace MongooseIM.Presence

open Erlang Xmpp

/-- `subscription()` -/
inductive Subscription
  | from | to | both
  deriving DecidableEq

/-- The kinds of presence that the handlers route by themselves. -/
inductive PresenceType
  | available | unavailable | probe
  deriving DecidableEq

/-- A presence handed to `ejabberd_router`. -/
structure Routed where
  toJid : Jid
  type : PresenceType

/-- `available()`, a set of addresses. -/
structure Available where
  elements : List Jid
  nodup : elements.Nodup

namespace Available

/-- `sets:new/1` -/
def empty : Available := ⟨[], List.nodup_nil⟩

/-- `sets:add_element/2` -/
def addElement (jid : Jid) (set : Available) : Available :=
  ⟨set.elements.insert jid, set.nodup.insert⟩

/-- `sets:del_element/2` -/
def delElement (jid : Jid) (set : Available) : Available :=
  ⟨set.elements.erase jid, set.nodup.erase jid⟩

instance : Membership Jid Available := ⟨fun set jid => jid ∈ set.elements⟩

instance (jid : Jid) (set : Available) : Decidable (jid ∈ set) :=
  inferInstanceAs (Decidable (jid ∈ set.elements))

@[simp] theorem mem_addElement {jid added : Jid} {set : Available} :
    jid ∈ set.addElement added ↔ jid = added ∨ jid ∈ set := List.mem_insert_iff

@[simp] theorem mem_delElement {jid removed : Jid} {set : Available} :
    jid ∈ set.delElement removed ↔ jid ≠ removed ∧ jid ∈ set := set.nodup.mem_erase_iff

theorem mem_foldl_addElement {jid : Jid} (jids : List Jid) (set : Available) :
    jid ∈ jids.foldl (fun set added => set.addElement added) set ↔ jid ∈ jids ∨ jid ∈ set := by
  induction jids generalizing set with
  | nil => simp
  | cons added jids ih =>
    rw [List.foldl_cons, ih, mem_addElement, List.mem_cons]
    tauto

end Available

/-- `#presences_state{}`, less priority and timestamp. -/
structure PresencesState (P : Type*) where
  subscriptions : AList fun _ : Jid => Subscription := ∅
  available : Available := .empty
  presLast : Option P := none

variable {P : Type*}

namespace PresencesState

variable (s : PresencesState P)

/-- `is_subscribed/3` -/
def isSubscribed (jid : Jid) (desired : Subscription) : Bool :=
  match s.subscriptions.lookup jid with
  | some sub => sub = .both ∨ sub = desired
  | none => false

variable (fromJid bare : Jid)

/-- `am_i_available_to/3` -/
def amIAvailableTo : Bool :=
  fromJid ∈ s.available ∨ fromJid ≠ bare ∧ bare ∈ s.available

/-- `make_available_to/3` -/
def makeAvailableTo : PresencesState P :=
  if s.isSubscribed fromJid .from then { s with available := s.available.addElement fromJid }
  else if s.isSubscribed bare .from then { s with available := s.available.addElement bare }
  else s

/-- `is_subscribed_to_my_presence/3` -/
def isSubscribedToMyPresence : Bool :=
  s.isSubscribed fromJid .from ∨ fromJid ≠ bare ∧ s.isSubscribed bare .from

/-- `specifically_visible_to/2` -/
def specificallyVisibleTo (fromJid : Jid) : Bool :=
  s.isSubscribed fromJid .from ∧ fromJid ∈ s.available

/-- `presence_broadcast/2` -/
def presenceBroadcast : List Routed :=
  s.available.elements.map fun toJid => ⟨toJid, .unavailable⟩

/-- `presence_broadcast_to_trusted/4` -/
def presenceBroadcastToTrusted : List Routed :=
  (s.available.elements.filter fun jid => s.isSubscribed jid .from).map
    fun toJid => ⟨toJid, .available⟩

/-- The contacts whose subscription is one of two. -/
def contacts (sub : Subscription) : List Jid :=
  (s.subscriptions.entries.filter fun entry => entry.2 = .both ∨ entry.2 = sub).map Sigma.fst

/-- `presence_broadcast_first/5`: probes to the ones, the presence to the others. -/
def presenceBroadcastFirst : PresencesState P × List Routed :=
  ({ s with available := (s.contacts .from).foldl (fun set jid => set.addElement jid) s.available },
    ((s.contacts .to).map fun toJid => ⟨toJid, .probe⟩) ++
      (s.contacts .from).map fun toJid => ⟨toJid, .available⟩)

end PresencesState

open PresencesState

variable (me : Jid)

/-- `build_subs_and_pendings/3`, from the lists of the roster: the contacts with `from` or `both`,
and those with `to` or `both`. -/
def buildSubs (fs ts : List Jid) : AList fun _ : Jid => Subscription :=
  let subs : AList fun _ : Jid => Subscription :=
    fs.foldl (fun subs jid => subs.insert jid .from) ∅
  let subs := ts.foldl (fun subs jid =>
    match subs.lookup jid with
    | some .from | some .both => subs.insert jid .both
    | _ => subs.insert jid .to) subs
  subs.insert me.toBare .both

/-- `presence_update_to_available/6` -/
def presenceUpdateToAvailable (packet : P) (fs ts : List Jid)
    (presences : PresencesState P) : PresencesState P × List Routed :=
  let new := { presences with
    subscriptions := buildSubs me fs ts
    presLast := some packet }
  match presences.presLast with
  | none => new.presenceBroadcastFirst
  | some _ => (new, new.presenceBroadcastToTrusted)

variable (presences : PresencesState P)

/-- `presence_update_to_unavailable/6` -/
def presenceUpdateToUnavailable : PresencesState P × List Routed :=
  ({ presences with presLast := none }, presences.presenceBroadcast)

variable (toJid : Jid)

/-- `process_presence_track_available/5` -/
def processPresenceTrackAvailable (presences : PresencesState P) : PresencesState P × List Routed :=
  ({ presences with available := presences.available.addElement toJid }, [⟨toJid, .available⟩])

/-- `process_presence_track_unavailable/5` -/
def processPresenceTrackUnavailable (presences : PresencesState P) :
    PresencesState P × List Routed :=
  ({ presences with available := presences.available.delElement toJid }, [⟨toJid, .unavailable⟩])

/-- `handle_subscription_change/5` -/
def handleSubscriptionChange (subscription : Roster.Subscription)
    (presences : PresencesState P) : PresencesState P × List Routed :=
  let isSubscribedToMe : Bool := subscription = .both ∨ subscription = .from
  let amISubscribedTo : Bool := subscription = .both ∨ subscription = .to
  let wasSubscribedToMe := presences.isSubscribed toJid .from
  let subs :=
    match isSubscribedToMe, amISubscribedTo with
    | true, true => presences.subscriptions.insert toJid .both
    | true, false => presences.subscriptions.insert toJid .from
    | false, true => presences.subscriptions.insert toJid .to
    | false, false => presences.subscriptions.erase toJid
  let new := { presences with subscriptions := subs }
  match presences.presLast with
  | none => (new, [])
  | some _ =>
    if isSubscribedToMe ∧ ¬ wasSubscribedToMe then
      ({ new with available := presences.available.addElement toJid }, [⟨toJid, .available⟩])
    else if ¬ isSubscribedToMe ∧ wasSubscribedToMe ∧ toJid ∈ presences.available then
      ({ new with available := presences.available.delElement toJid }, [⟨toJid, .unavailable⟩])
    else (new, [])

/-- `process_presence_probe/5` -/
def processPresenceProbe (me fromJid bare : Jid) (presences : PresencesState P) : List Routed :=
  match presences.presLast with
  | none => []
  | some _ =>
    if presences.isSubscribedToMyPresence fromJid bare then
      if fromJid = me then [] else [⟨fromJid, .available⟩]
    else if presences.specificallyVisibleTo fromJid then [⟨fromJid, .available⟩]
    else []

/-- `handle_received_probe/2` -/
def handleReceivedProbe (me fromJid : Jid) (presences : PresencesState P) :
    PresencesState P × List Routed :=
  let new :=
    if presences.amIAvailableTo fromJid fromJid.toBare then presences
    else presences.makeAvailableTo fromJid fromJid.toBare
  (new, processPresenceProbe me fromJid fromJid.toBare new)

/-- Why a session ends, with what `ejabberd_sm` knows of the other resources of the user. -/
inductive Reason
  /-- `{shutdown, resumed}`, with `ejabberd_sm:get_user_resources/1`. -/
  | resumed (resources : List String)
  /-- `{shutdown, {replaced, Pid}}`, with the present resources other than that of `Pid`. -/
  | replaced (resources : List String)
  | other

/-- `presence_broadcast_filtered/3` -/
def presenceBroadcastFiltered : Reason → List Routed
  | .resumed resources => presences.available.elements.flatMap fun toJid =>
    if me.areBareEqual toJid then
      ((resources.map me.replaceResourceNoprep).filter fun jid => jid ≠ me).map
        fun jid => ⟨jid, .unavailable⟩
    else [⟨toJid, .unavailable⟩]
  | .replaced resources =>
    (resources.map fun resource => ⟨me.replaceResourceNoprep resource, .unavailable⟩) ++
      (presences.available.elements.filter fun toJid => ¬ me.areBareEqual toJid).map
        fun toJid => ⟨toJid, .unavailable⟩
  | .other => presences.presenceBroadcast

/-- `user_terminate/3` -/
def userTerminate (reason : Reason) : Option (PresencesState P) → List Routed
  | none => []
  | some presences =>
    match presences.presLast with
    | none => []
    | some _ => presenceBroadcastFiltered me presences reason

/-- What happens in a session. -/
inductive Event (P : Type*)
  /-- The user sends an available presence; the roster has these contacts. -/
  | sendAvailable (toJid : Jid) (packet : P) (fs ts : List Jid)
  | sendUnavailable (toJid : Jid)
  /-- The cast `{item, Contact, Subscription}` of the roster; `remove` counts as `none`. -/
  | item (contact : Jid) (subscription : Roster.Subscription)
  | probe (fromJid : Jid)

/-- The state of the module, if the session has one yet, and the presences it has sent. -/
structure Session (P : Type*) where
  presences : Option (PresencesState P) := none
  sent : List Routed := []

namespace Session

/-- What a handler gives. -/
def after (session : Session P) (result : PresencesState P × List Routed) : Session P :=
  ⟨some result.1, session.sent ++ result.2⟩

/-- `user_send_presence/3`, `foreign_event/3` and `user_receive_presence/3`: a presence to the user
himself is a broadcast, and without a state the roster and the probes are ignored. -/
def step (session : Session P) : Event P → Session P
  | .sendAvailable toJid packet fs ts =>
    let presences := session.presences.getD {}
    if me.areBareEqual toJid then session.after (presenceUpdateToAvailable me packet fs ts presences)
    else session.after (processPresenceTrackAvailable toJid presences)
  | .sendUnavailable toJid =>
    let presences := session.presences.getD {}
    if me.areBareEqual toJid then session.after (presenceUpdateToUnavailable presences)
    else session.after (processPresenceTrackUnavailable toJid presences)
  | .item contact subscription =>
    match session.presences with
    | none => session
    | some presences => session.after (handleSubscriptionChange contact subscription presences)
  | .probe fromJid =>
    match session.presences with
    | none => session
    | some presences => session.after (handleReceivedProbe me fromJid presences)

/-- The session after these events. -/
def run (events : List (Event P)) : Session P := events.foldl (step me) {}

end Session

end MongooseIM.Presence
