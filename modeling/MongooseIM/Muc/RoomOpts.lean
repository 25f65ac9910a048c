import MongooseIM.Muc.Room

/-! # The options of a stored room

What of a room is stored, as a list of options, and how it is read back into a fresh state. The
affiliations of a state may be under any JIDs here, as those of the configured default room are. -/

namespace MongooseIM.Muc

open Erlang Xmpp

/-- The fields of `#state{}` that options are made of, fresh when nothing else is given. -/
structure RoomState where
  config : Config := {}
  affiliations : AList (fun _ : Jid => StoredAffiliation) := ∅
  subject : String := ""
  subjectAuthor : String := ""
  subjectTimestamp : String := ""

/-- The names of options. -/
inductive OptName
  | title
  | description
  | allowChangeSubj
  | allowQueryUsers
  | allowPrivateMessages
  | allowVisitorStatus
  | allowVisitorNickchange
  | publicRoom
  | publicList
  | persistent
  | moderated
  | membersByDefault
  | membersOnly
  | allowUserInvites
  | allowMultipleSessions
  | passwordProtected
  | password
  | anonymous
  | logging
  | maxUsers
  | maygetmemberlist
  | affiliations
  | subject
  | subjectAuthor
  | subjectTimestamp
  deriving DecidableEq, Repr

/-- The value of an option. -/
inductive OptValue
  | term (value : Term)
  | affiliations (list : List (Jid × StoredAffiliation))

namespace OptValue

/-- A binary. -/
def text (value : String) : OptValue := .term (.scalar (.binary value))

/-- `true` or `false` -/
def bool (value : Bool) : OptValue := .term (.bool value)

/-- The text of a binary. -/
def toText : OptValue → Option String
  | .term (.scalar (.binary value)) => some value
  | _ => none

/-- The boolean. -/
def toBool : OptValue → Option Bool
  | .term value => value.toBool
  | _ => none

/-- The scalars of a list. -/
def toScalars : OptValue → Option (List Scalar)
  | .term (.list values) => some values
  | _ => none

end OptValue

/-- `max_users` as a term. -/
def maxUsersTerm : Option ℕ → Term
  | some maxUsers => .scalar (.integer maxUsers)
  | none => .scalar (.atom "none")

/-- `min/2` of the term and an integer: numbers come before all other terms. -/
def minMaxUsers (value : OptValue) (serviceMaxUsers : ℕ) : ℕ :=
  match value with
  | .term (.scalar (.integer maxUsers)) => (min maxUsers serviceMaxUsers).toNat
  | _ => serviceMaxUsers

namespace RoomState

/-- `make_opts/1` -/
def makeOpts (s : RoomState) : List (OptName × OptValue) :=
  [(.title, .text s.config.title),
    (.description, .text s.config.description),
    (.allowChangeSubj, .bool s.config.allowChangeSubj),
    (.allowQueryUsers, .bool s.config.allowQueryUsers),
    (.allowPrivateMessages, .bool s.config.allowPrivateMessages),
    (.allowVisitorStatus, .bool s.config.allowVisitorStatus),
    (.allowVisitorNickchange, .bool s.config.allowVisitorNickchange),
    (.publicRoom, .bool s.config.publicRoom),
    (.publicList, .bool s.config.publicList),
    (.persistent, .bool s.config.persistent),
    (.moderated, .bool s.config.moderated),
    (.membersByDefault, .bool s.config.membersByDefault),
    (.membersOnly, .bool s.config.membersOnly),
    (.allowUserInvites, .bool s.config.allowUserInvites),
    (.allowMultipleSessions, .bool s.config.allowMultipleSessions),
    (.passwordProtected, .bool s.config.passwordProtected),
    (.password, .text s.config.password),
    (.anonymous, .bool s.config.anonymous),
    (.logging, .bool s.config.logging),
    (.maxUsers, .term (maxUsersTerm s.config.maxUsers)),
    (.maygetmemberlist, .term (.list s.config.maygetmemberlist)),
    (.affiliations, .affiliations (toList s.affiliations)),
    (.subject, .text s.subject),
    (.subjectAuthor, .text s.subjectAuthor)]

/-- A change of the configuration. -/
def mapConfig (f : Config → Config) (s : RoomState) : RoomState := { s with config := f s.config }

variable (serviceMaxUsers : ℕ)

/-- One option in `set_opts/2`; none for a value that does not fit the type of the field. -/
def setOpt (s : RoomState) (opt : OptName × OptValue) : Option RoomState :=
  let value := opt.2
  match opt.1 with
  | .title => value.toText.map fun v => s.mapConfig fun c => { c with title := v }
  | .description => value.toText.map fun v => s.mapConfig fun c => { c with description := v }
  | .allowChangeSubj => value.toBool.map fun v => s.mapConfig fun c => { c with allowChangeSubj := v }
  | .allowQueryUsers => value.toBool.map fun v => s.mapConfig fun c => { c with allowQueryUsers := v }
  | .allowPrivateMessages =>
    value.toBool.map fun v => s.mapConfig fun c => { c with allowPrivateMessages := v }
  | .allowVisitorNickchange =>
    value.toBool.map fun v => s.mapConfig fun c => { c with allowVisitorNickchange := v }
  | .allowVisitorStatus =>
    value.toBool.map fun v => s.mapConfig fun c => { c with allowVisitorStatus := v }
  | .publicRoom => value.toBool.map fun v => s.mapConfig fun c => { c with publicRoom := v }
  | .publicList => value.toBool.map fun v => s.mapConfig fun c => { c with publicList := v }
  | .persistent => value.toBool.map fun v => s.mapConfig fun c => { c with persistent := v }
  | .moderated => value.toBool.map fun v => s.mapConfig fun c => { c with moderated := v }
  | .membersByDefault => value.toBool.map fun v => s.mapConfig fun c => { c with membersByDefault := v }
  | .membersOnly => value.toBool.map fun v => s.mapConfig fun c => { c with membersOnly := v }
  | .allowUserInvites => value.toBool.map fun v => s.mapConfig fun c => { c with allowUserInvites := v }
  | .allowMultipleSessions =>
    value.toBool.map fun v => s.mapConfig fun c => { c with allowMultipleSessions := v }
  | .passwordProtected =>
    value.toBool.map fun v => s.mapConfig fun c => { c with passwordProtected := v }
  | .password => value.toText.map fun v => s.mapConfig fun c => { c with password := v }
  | .anonymous => value.toBool.map fun v => s.mapConfig fun c => { c with anonymous := v }
  | .logging => value.toBool.map fun v => s.mapConfig fun c => { c with logging := v }
  | .maxUsers =>
    some (s.mapConfig fun c => { c with maxUsers := some (minMaxUsers value serviceMaxUsers) })
  | .maygetmemberlist =>
    value.toScalars.map fun v => s.mapConfig fun c => { c with maygetmemberlist := v }
  | .affiliations =>
    match value with
    | .affiliations list => some { s with affiliations := fromList list }
    | .term _ => none
  | .subject => value.toText.map fun v => { s with subject := v }
  | .subjectAuthor => value.toText.map fun v => { s with subjectAuthor := v }
  | .subjectTimestamp => value.toText.map fun v => { s with subjectTimestamp := v }

/-- `set_opts/2` -/
def setOpts (opts : List (OptName × OptValue)) (s : RoomState) : Option RoomState :=
  opts.foldlM (setOpt serviceMaxUsers) s

/-- `max_users` capped by the limit of the service. -/
def capMaxUsers : Option ℕ → ℕ
  | some maxUsers => min maxUsers serviceMaxUsers
  | none => serviceMaxUsers

/-- The configuration with `max_users` capped by the limit of the service. -/
def capped (config : Config) : Config :=
  { config with maxUsers := some (capMaxUsers serviceMaxUsers config.maxUsers) }

/-- The affiliation of a JID: service admins are owners, then `lookup_affiliation/2`. -/
def getAffiliation (accessAdmin : Jid → Bool) (s : RoomState) (jid : Jid) : Affiliation :=
  if accessAdmin jid then .owner
  else
    let jid2 := { jid with luser := "" }
    (([jid, jid.toBare, jid2, jid2.toBare].findSome? fun j => s.affiliations.lookup j).map
      StoredAffiliation.affiliation).getD .none

theorem getAffiliation_of_lookup {s s' : RoomState}
    (h : ∀ j, (s'.affiliations.lookup j).map StoredAffiliation.affiliation =
    (s.affiliations.lookup j).map StoredAffiliation.affiliation)
    (accessAdmin : Jid → Bool) (jid : Jid) :
    s'.getAffiliation accessAdmin jid = s.getAffiliation accessAdmin jid := by
  have hfind : ∀ (s : RoomState) (l : List Jid),
      (l.findSome? fun j => s.affiliations.lookup j).map StoredAffiliation.affiliation =
        l.findSome? fun j => (s.affiliations.lookup j).map StoredAffiliation.affiliation := by
    intro s l
    induction l with
    | nil => rfl
    | cons j l ih =>
      rw [List.findSome?_cons, List.findSome?_cons, ← ih]
      cases s.affiliations.lookup j <;> rfl
  rw [getAffiliation, getAffiliation]
  simp only [hfind, h]

end RoomState

end MongooseIM.Muc
