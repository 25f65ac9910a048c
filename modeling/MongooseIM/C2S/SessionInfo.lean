import Mathlib.Data.List.Induction
import MongooseIM.C2S.Data

/-! # The info of a session that is opened

The part of opening a session that `C2S.HandleEvent` leaves out: the map `info` of the data. The
handlers of `user_open_session` in `mod_contact_sync` and `mod_email_sync` put a number or an
address into a copy of the data, which they leave in the accumulator; `open_session/1` puts the
address of the socket into the data itself, and registers that. -/

namespace MongooseIM.C2S.SessionInfo

open Erlang Xmpp StreamManagement List

variable {V : Type*}

/-- `info()`, from atoms to terms. -/
abbrev InfoMap (V : Type*) := AList fun _ : String => V

/-- What opening a session reads of `#c2s_data{}`. -/
structure Data (V : Type*) where
  sid : Sid
  jid : Jid
  /-- `mongoose_xmpp_socket:get_ip/1` of the socket. -/
  ip : V
  /-- `mongoose_xmpp_socket:get_conn_type/1` of the socket. -/
  conn : V
  info : InfoMap V
  stateMod : AList (fun _ : String => V) := ∅

/-- `mongoose_c2s_acc:t()`, less the actions and the elements to send. -/
structure C2SAcc (V : Type*) where
  stateMod : AList (fun _ : String => V) := ∅
  c2sState : Option State := none
  c2sData : Option (Data V) := none
  hardStop : Option Reason := none

/-- The modules with a handler. -/
inductive SyncModule
  | modContactSync
  | modEmailSync
  deriving DecidableEq

namespace SyncModule

/-- The key under which a module stores its value. -/
def key : SyncModule → String
  | modContactSync => "phone_number"
  | modEmailSync => "email_address"

end SyncModule

/-- The tables `mod_contact_sync_phone_cache` and `mod_email_sync_email_cache`, by user and
server. -/
abbrev Caches (V : Type*) := SyncModule → AList fun _ : String × String => V

/-- The value that a table has for the user of a session. -/
def Caches.cached (caches : Caches V) (data : Data V) (m : SyncModule) : Option V :=
  (caches m).lookup (data.jid.luser, data.jid.lserver)

/-- `user_open_session/3` of a module: what it takes from its table goes into a copy of the data of
the hook's parameters. -/
def userOpenSession (data : Data V) (s : Caches V × C2SAcc V) (m : SyncModule) :
    Caches V × C2SAcc V :=
  match s.1.cached data m with
  | some value =>
    (Function.update s.1 m ((s.1 m).erase (data.jid.luser, data.jid.lserver)),
      { s.2 with c2sData := some { data with info := data.info.insert m.key value } })
  | none => s

/-- The sessions that `ejabberd_sm` has registered, with their info. -/
abbrev Sessions (V : Type*) := AList fun _ : Jid × Sid => InfoMap V

/-- `open_session/1` -/
def openSession1 (data : Data V) (sessions : Sessions V) : Data V × Sessions V :=
  let info2 := (data.info.insert "ip" data.ip).insert "conn" data.conn
  ({ data with info := info2 }, sessions.insert (data.jid, data.sid) info2)

/-- `merge_mod_state/2` -/
def mergeModState (data : Data V) (modStates : AList fun _ : String => V) : Data V :=
  { data with stateMod := modStates ∪ data.stateMod }

/-- `handle_state_result/4`, as far as the data go -/
def handleStateResult (data : Data V) (acc : C2SAcc V) : Data V :=
  let data1 := acc.c2sData.getD data
  match acc.hardStop with
  | some _ => data1
  | none => mergeModState data1 acc.stateMod

/-- What is left when a session has been opened: the data in effect, the sessions, the tables. -/
structure Opened (V : Type*) where
  data : Data V
  sessions : Sessions V
  caches : Caches V

/-- `verify_user/4` with the handlers in their order, `maybe_open_session/3` and
`finish_open_session/4` -/
def openSession (handlers : List SyncModule) (data : Data V) (acc : C2SAcc V) (caches : Caches V)
    (sessions : Sessions V) : Opened V :=
  let (caches, acc) := handlers.foldl (userOpenSession data) (caches, acc)
  let (data2, sessions) := openSession1 data sessions
  ⟨handleStateResult data2 acc, sessions, caches⟩

/-! ## What is kept -/

/-- **Nothing is lost** of what was in the info, what the socket gives and what was cached. -/
structure Kept (handlers : List SyncModule) (data : Data V) (caches : Caches V)
    (info : InfoMap V) : Prop where
  before : ∀ key, key ∉ ["ip", "conn"] →
    (∀ m ∈ handlers, caches.cached data m ≠ none → key ≠ m.key) →
      ∀ v, data.info.lookup key = some v → info.lookup key = some v
  ip : info.lookup "ip" = some data.ip
  conn : info.lookup "conn" = some data.conn
  cached : ∀ m ∈ handlers, ∀ v, caches.cached data m = some v → info.lookup m.key = some v

/-- The data in effect have all of the info, and the registered session the same. -/
structure NothingLost (handlers : List SyncModule) (data : Data V) (caches : Caches V)
    (opened : Opened V) : Prop where
  kept : Kept handlers data caches opened.data.info
  registered : ∃ info, opened.sessions.lookup (data.jid, data.sid) = some info ∧
    ∀ key, info.lookup key = opened.data.info.lookup key

variable {handlers : List SyncModule} {data : Data V} {acc : C2SAcc V} {caches : Caches V}

/-- The keys of the modules are not those of the socket. -/
theorem SyncModule.key_notMem (m : SyncModule) : m.key ∉ ["ip", "conn"] := by
  cases m <;> decide

theorem cached_foldl {m : SyncModule} (hm : m ∉ handlers) (s : Caches V × C2SAcc V) :
    (handlers.foldl (userOpenSession data) s).1.cached data m = s.1.cached data m := by
  induction handlers generalizing s with
  | nil => rfl
  | cons m' handlers ih =>
    rw [mem_cons, not_or] at hm
    rw [foldl_cons, ih hm.2, userOpenSession]
    split
    · show (Function.update s.1 m' _ m).lookup _ = _
      rw [Function.update_of_ne hm.1]
      rfl
    · rfl

theorem foldl_userOpenSession_of_none (h : ∀ m ∈ handlers, caches.cached data m = none) :
    handlers.foldl (userOpenSession data) (caches, acc) = (caches, acc) := by
  induction handlers with
  | nil => rfl
  | cons m handlers ih =>
    have hone : userOpenSession data (caches, acc) m = (caches, acc) := by
      simp [userOpenSession, h m mem_cons_self]
    rw [foldl_cons, hone]
    exact ih fun m' hm' => h m' (mem_cons_of_mem _ hm')

/-- **The copy of one handler is left**, whatever the others put into theirs. -/
theorem foldl_userOpenSession_of_some (hnodup : handlers.Nodup)
    (h : ∃ m ∈ handlers, caches.cached data m ≠ none) (acc : C2SAcc V) :
    ∃ m ∈ handlers, ∃ value, caches.cached data m = some value ∧
    (handlers.foldl (userOpenSession data) (caches, acc)).2.c2sData =
      some { data with info := data.info.insert m.key value } := by
  induction handlers using reverseRecOn with
  | nil =>
    obtain ⟨m, hm, -⟩ := h
    cases hm
  | append_singleton handlers m ih =>
    obtain ⟨hnodup', -, hdisjoint⟩ := nodup_append.1 hnodup
    have hm : m ∉ handlers := fun hm => hdisjoint m hm m mem_cons_self rfl
    have hcached : (handlers.foldl (userOpenSession data) (caches, acc)).1.cached data m =
        caches.cached data m := cached_foldl hm _
    rw [foldl_append, foldl_cons, foldl_nil]
    cases hvalue : caches.cached data m with
    | some value =>
      refine ⟨m, by simp, value, hvalue, ?_⟩
      rw [userOpenSession, hcached, hvalue]
    | none =>
      obtain ⟨m', hm', value, hvalue', hdata⟩ := ih hnodup' (by
        obtain ⟨m', hm', hne⟩ := h
        rcases mem_append.1 hm' with hin | hin
        · exact ⟨m', hin, hne⟩
        · rw [mem_singleton.1 hin] at hne
          exact absurd hvalue hne)
      refine ⟨m', mem_append_left _ hm', value, hvalue', ?_⟩
      rw [userOpenSession, hcached, hvalue]
      exact hdata

theorem info_handleStateResult (data : Data V) (acc : C2SAcc V) :
    (handleStateResult data acc).info = (acc.c2sData.getD data).info := by
  unfold handleStateResult
  split <;> rfl

/-- The info that `open_session/1` registers. -/
theorem lookup_openSession1 (data : Data V) (sessions : Sessions V) (key : String) :
    (openSession1 data sessions).1.info.lookup key =
    if key = "conn" then some data.conn else if key = "ip" then some data.ip
    else data.info.lookup key := by
  show ((data.info.insert "ip" data.ip).insert "conn" data.conn).lookup key = _
  rw [lookup_insert, lookup_insert]

theorem lookup_sessions_openSession (handlers : List SyncModule) (data : Data V) (acc : C2SAcc V)
    (caches : Caches V) (sessions : Sessions V) :
    (openSession handlers data acc caches sessions).sessions.lookup (data.jid, data.sid) =
    some (openSession1 data sessions).1.info :=
  AList.lookup_insert sessions

/-- **Nothing is lost exactly if** no handler has a value for the user, or the info has had all of
it before. -/
theorem nothingLost_openSession_iff (hnodup : handlers.Nodup) (hacc : acc.c2sData = none)
    (sessions : Sessions V) :
    NothingLost handlers data caches (openSession handlers data acc caches sessions) ↔
    (∀ m ∈ handlers, caches.cached data m = none) ∨
      (data.info.lookup "ip" = some data.ip ∧ data.info.lookup "conn" = some data.conn ∧
        ∀ m ∈ handlers, ∀ value, caches.cached data m = some value →
          data.info.lookup m.key = some value) := by
  by_cases hnone : ∀ m ∈ handlers, caches.cached data m = none
  · -- the data of `open_session/1` are in effect
    refine iff_of_true ?_ (Or.inl hnone)
    have hinfo : (openSession handlers data acc caches sessions).data.info =
        (openSession1 data sessions).1.info := by
      rw [openSession, foldl_userOpenSession_of_none hnone]
      exact (info_handleStateResult _ _).trans (by rw [hacc]; rfl)
    refine ⟨⟨fun key hkey _ value hvalue => ?_, ?_, ?_, fun m hm value hvalue => ?_⟩,
      ⟨_, lookup_sessions_openSession .., fun key => by rw [hinfo]⟩⟩
    · rw [hinfo, lookup_openSession1]
      simp only [mem_cons, not_or] at hkey
      rw [if_neg hkey.2.1, if_neg hkey.1, hvalue]
    · rw [hinfo, lookup_openSession1]
      rfl
    · rw [hinfo, lookup_openSession1]
      rfl
    · rw [hnone m hm] at hvalue
      cases hvalue
  · -- the copy of one handler is in effect
    push Not at hnone
    obtain ⟨m, hm, value, hvalue, hdata⟩ := foldl_userOpenSession_of_some hnodup hnone acc
    have hinfo : (openSession handlers data acc caches sessions).data.info =
        data.info.insert m.key value := by
      rw [openSession]
      exact (info_handleStateResult _ _).trans (by rw [hdata]; rfl)
    rw [or_iff_right (fun h => by
      rw [h m hm] at hvalue
      cases hvalue)]
    have hkey : m.key ≠ "ip" ∧ m.key ≠ "conn" := by
      simpa [not_or] using m.key_notMem
    constructor
    · rintro ⟨hkept, info, hregistered, hsame⟩
      cases ((lookup_sessions_openSession ..).symm.trans hregistered)
      have hold : ∀ key, key ≠ m.key → data.info.lookup key =
          (openSession handlers data acc caches sessions).data.info.lookup key := by
        intro key hne
        rw [hinfo, lookup_insert, if_neg hne]
      refine ⟨(hold "ip" hkey.1.symm).trans hkept.ip, (hold "conn" hkey.2.symm).trans hkept.conn,
        fun m' hm' value' hvalue' => ?_⟩
      -- what is registered has the key only if it was there before
      have hin := (hsame m'.key).trans (hkept.cached m' hm' value' hvalue')
      have hkey' : m'.key ≠ "ip" ∧ m'.key ≠ "conn" := by
        simpa [not_or] using m'.key_notMem
      rwa [lookup_openSession1, if_neg hkey'.2, if_neg hkey'.1] at hin
    · rintro ⟨hip, hconn, hcached⟩
      have hsame : ∀ key, (openSession handlers data acc caches sessions).data.info.lookup key =
          data.info.lookup key := by
        intro key
        rw [hinfo, lookup_insert]
        split
        · next heq => rw [heq, hcached m hm value hvalue]
        · rfl
      refine ⟨⟨fun key _ _ value' hvalue' => (hsame key).trans hvalue', (hsame _).trans hip,
        (hsame _).trans hconn, fun m' hm' value' hvalue' =>
          (hsame _).trans (hcached m' hm' value' hvalue')⟩,
        ⟨_, lookup_sessions_openSession .., fun key => ?_⟩⟩
      rw [hsame, lookup_openSession1]
      split
      · next heq => rw [heq, hconn]
      · split
        · next heq => rw [heq, hip]
        · rfl

/-! ### Two sessions -/

/-- A user of the domain, whose data have an entry of the authentication. -/
def exampleData (luser : String) : Data String where
  sid := ⟨1, 1⟩
  jid := ⟨luser, "localhost", "phone"⟩
  ip := "127.0.0.1"
  conn := "c2s_tls"
  info := AList.singleton "auth_module" "ejabberd_auth_jwt"

/-- A number and an address of `alice`. -/
def exampleCaches : Caches String
  | .modContactSync => AList.singleton ("alice", "localhost") "+48 111 222 001"
  | .modEmailSync => AList.singleton ("alice", "localhost") "alice@example.com"

theorem nothingLost_openSession_iff_example :
    NothingLost [.modContactSync, .modEmailSync] (exampleData "bob") exampleCaches
    (openSession [.modContactSync, .modEmailSync] (exampleData "bob")
      { c2sState := some .sessionEstablished } exampleCaches ∅) :=
  (nothingLost_openSession_iff (by decide) rfl ∅).2 (Or.inl (by decide))

/-- **The session of `alice` loses** the entries of the socket and the number; and what is
registered has neither the number nor the address. -/
theorem openSession_loses :
    let opened := openSession [.modContactSync, .modEmailSync] (exampleData "alice")
      { c2sState := some .sessionEstablished } exampleCaches ∅
    (opened.data.info.lookup "auth_module" = some "ejabberd_auth_jwt" ∧
        opened.data.info.lookup "email_address" = some "alice@example.com" ∧
        opened.data.info.lookup "phone_number" = none ∧ opened.data.info.lookup "ip" = none ∧
        opened.data.info.lookup "conn" = none) ∧
      ∃ info ∈ opened.sessions.lookup (⟨"alice", "localhost", "phone"⟩, ⟨1, 1⟩),
        info.lookup "ip" = some "127.0.0.1" ∧ info.lookup "phone_number" = none ∧
          info.lookup "email_address" = none := by
  decide +kernel

end MongooseIM.C2S.SessionInfo
