import MongooseIM.Xmpp.Stanza
import MongooseIM.Transition.Run

/-! # Session mapping of global distribution

`mod_global_distrib_mapping` with `mod_global_distrib_mapping_redis`: the hosts share a Redis
server, where the full and the bare JID of a session map to its host. A session is opened and
closed by its own process, and every host has a process that writes again what the host remembers;
each of them sends one Redis command after the other, and between two commands the others go on. -/

namespace MongooseIM.GlobalDistrib.Mapping

open Xmpp

/-- A host. -/
abbrev Host := String

/-- `normalize_jid/1`: the keys of a JID. -/
def normalizeJid (fullJid : Jid) : List Jid :=
  if fullJid.toBare = fullJid then [fullJid] else [fullJid, fullJid.toBare]

/-- Where the process of a session is, with the key it is at and those that come after it. -/
inductive Stage
  /-- In `insert_for_jid/1`, before `ets_cache:update/4`. -/
  | updating (key : Jid) (rest : List Jid)
  /-- In `put_session/1`, before `SET`. -/
  | setting (key : Jid) (rest : List Jid)
  | opened
  /-- In `delete_for_jid/1`, before `delete_session/1`. -/
  | deleting (key : Jid) (rest : List Jid)
  /-- In `do_delete/1`, before `GET`. -/
  | getting (key : Jid) (rest : List Jid)
  /-- In `do_delete/1`, before `DEL`. -/
  | removing (key : Jid) (rest : List Jid)
  | closed
  deriving DecidableEq

/-- `do_insert_for_jid/3` goes on with the next key. -/
def Stage.insertRest : List Jid → Stage
  | [] => .opened
  | key :: rest => .updating key rest

/-- `delete_for_jid/1` goes on with the next key. -/
def Stage.deleteRest : List Jid → Stage
  | [] => .closed
  | key :: rest => .deleting key rest

/-- A session. -/
structure Session where
  host : Host
  jid : Jid
  stage : Stage

/-- The hosts, and what they share. -/
structure System where
  redis : Jid → Option Host := fun _ => none
  jidsEts : List (Host × Jid) := []
  sessions : List Session := []
  /-- The refreshes, with the key that is to be set. -/
  refreshes : List (Host × Option Jid) := []

variable (s : System)

/-- `SET`, without the time to live. -/
def System.set (key : Jid) (host : Host) : System :=
  { s with redis := Function.update s.redis key (some host) }

/-- `DEL` -/
def System.del (key : Jid) : System :=
  { s with redis := Function.update s.redis key none }

/-- `ets:insert/2` -/
def System.remember (host : Host) (key : Jid) : System :=
  { s with jidsEts := if (host, key) ∈ s.jidsEts then s.jidsEts else (host, key) :: s.jidsEts }

/-- `ets:delete/2` -/
def System.forget (host : Host) (key : Jid) : System :=
  { s with jidsEts := s.jidsEts.filter fun entry => entry ≠ (host, key) }

/-- The process of a session goes on. -/
def System.goOn (i : ℕ) (session : Session) (stage : Stage) : System :=
  { s with sessions := s.sessions.set i { session with stage := stage } }

/-- The session is there, as long as it is not being closed. -/
def Stage.isOpen : Stage → Bool
  | .updating _ _ | .setting _ _ | .opened => true
  | .deleting _ _ | .getting _ _ | .removing _ _ | .closed => false

/-- The next action of the process of a session. -/
def proceed (i : ℕ) (session : Session) : Option System :=
  match session.stage with
  | .updating key rest => some ((s.remember session.host key).goOn i session (.setting key rest))
  | .setting key rest => some ((s.set key session.host).goOn i session (.insertRest rest))
  | .deleting key rest => some ((s.forget session.host key).goOn i session (.getting key rest))
  | .getting key rest =>
    if s.redis key = some session.host then some (s.goOn i session (.removing key rest))
    else some (s.goOn i session (.deleteRest rest))
  | .removing key rest => some ((s.del key).goOn i session (.deleteRest rest))
  | .opened | .closed => none

/-- What happens next. -/
inductive Event
  /-- `session_opened/3` starts. -/
  | «open» (host : Host) (jid : Jid)
  /-- `session_closed/3` starts. -/
  | close (i : ℕ)
  | proceed (i : ℕ)
  /-- `ets_cache:update/4` has the host of the key and does not write it. -/
  | cached (i : ℕ)
  /-- `refresh_jids/0` starts. -/
  | refresh (host : Host)
  /-- `ets:foldl/3` comes to a key. -/
  | visit (i : ℕ) (key : Jid)
  /-- `refresh_jid/1` sets it. -/
  | refreshJid (i : ℕ)
  /-- `refresh_jids/0` ends. -/
  | refreshed (i : ℕ)

/-- One step; `none` where the event is not possible. A user has sessions on one host at a time. -/
def step : Event → Option System
  | .open host jid =>
    if ∀ session ∈ s.sessions, session.stage.isOpen = true → session.jid.toBare = jid.toBare →
        session.host = host then
      some { s with sessions := s.sessions ++ [⟨host, jid, .insertRest (normalizeJid jid)⟩] }
    else none
  | .close i =>
    s.sessions[i]?.bind fun session =>
      if session.stage = .opened then
        some (s.goOn i session (.deleteRest (normalizeJid session.jid)))
      else none
  | .proceed i => s.sessions[i]?.bind fun session => proceed s i session
  | .cached i =>
    s.sessions[i]?.bind fun session =>
      match session.stage with
      | .updating _ rest => some (s.goOn i session (.insertRest rest))
      | _ => none
  | .refresh host => some { s with refreshes := s.refreshes ++ [(host, none)] }
  | .visit i key =>
    match s.refreshes[i]? with
    | some (host, none) =>
      if (host, key) ∈ s.jidsEts then
        some { s with refreshes := s.refreshes.set i (host, some key) }
      else none
    | _ => none
  | .refreshJid i =>
    match s.refreshes[i]? with
    | some (host, some key) =>
      some { s.set key host with refreshes := s.refreshes.set i (host, none) }
    | _ => none
  | .refreshed i =>
    match s.refreshes[i]? with
    | some (_, none) => some { s with refreshes := s.refreshes.eraseIdx i }
    | _ => none

end MongooseIM.GlobalDistrib.Mapping
