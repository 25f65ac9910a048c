import MongooseIM.AuthToken.Authenticate
import MongooseIM.Transition.Run

/-! # Runs of logins with tokens

Tokens are issued, withdrawn and used on streams of all the domains of a host type. Nobody makes a
MAC without the key: a token whose MAC is valid has the body of one that was issued. -/

namespace MongooseIM.AuthToken

open Erlang Transition Xmpp

/-- A login that succeeded. -/
structure Login where
  token : Token
  time : ℕ
  jid : Option Jid
  withdrawn : List Token

/-- The tokens of a host type. -/
structure State where
  /-- `utc_now_as_seconds/0` -/
  now : ℕ
  table : Table := ∅
  issued : List Token := []
  /-- The refresh tokens that were issued before a revocation or a removal of their user. -/
  withdrawn : List Token := []
  logins : List Login := []

/-- What happens on a host type. -/
inductive Event
  | tick (seconds : ℕ)
  | createTokens (user : Jid)
  /-- A provision token is made elsewhere, with the key for these. -/
  | provision (user : Jid) (expiry : ℕ) (vcard : Element)
  | revoke (user : Jid)
  /-- The hook `remove_user`. -/
  | removeUser (user : Jid)
  | register (user : Jid)
  /-- X-OAUTH on a stream of the domain `lserver`. -/
  | login (lserver serialized : String)

variable (settings : Settings)

/-- A refresh token of a user. -/
def IsRefreshOf (user : Jid) (t : Token) : Prop :=
  t.type = .refresh ∧ toBareBinary t.userJid = toBareBinary user

instance (user : Jid) (t : Token) : Decidable (IsRefreshOf user t) :=
  inferInstanceAs (Decidable (_ ∧ _))

/-- The MAC is valid, and nobody made it who has the key. -/
def Forged (issued : List Token) (serialized : String) : Prop :=
  match settings.deserialize serialized with
  | none => False
  | some t => settings.isMacValid t = some true ∧ ∀ t' ∈ issued, t'.tokenBody ≠ t.tokenBody

instance (issued : List Token) (serialized : String) :
    Decidable (Forged settings issued serialized) := by
  unfold Forged
  split <;> infer_instance

namespace State

/-- The refresh tokens of a user are withdrawn. -/
def withdraw (user : Jid) (table : Table) (s : State) : State :=
  { s with table, withdrawn := s.issued.filter (IsRefreshOf user ·) ++ s.withdrawn }

/-- One event, `none` where it is not possible. -/
def step (s : State) : Event → Option State
  | .tick seconds => some { s with now := s.now + seconds }
  | .createTokens user =>
    if ValidJid settings.lib user then
      match settings.createTokens s.now user s.table with
      | (some (access, refresh), table) =>
        some { s with table, issued := access :: refresh :: s.issued }
      | (none, table) => some { s with table }
    else none
  | .provision user expiry vcard =>
    if ValidJid settings.lib user then
      (settings.tokenWithMac
        { type := .provision, expiryDatetime := expiry, userJid := user, vcard := some vcard }).map
        fun t => { s with issued := t :: s.issued }
    else none
  | .revoke user => some (s.withdraw user (AuthToken.revoke user s.table).2)
  | .removeUser user => some (s.withdraw user (cleanTokens user s.table))
  | .register _ => some s
  | .login lserver serialized =>
    if Forged settings s.issued serialized then none
    else
      let (result, authenticated) := settings.login lserver serialized s.now s.table
      let s' := { s with
        table := authenticated.table
        issued := authenticated.made.toList ++ s.issued }
      match result, settings.deserialize serialized with
      | .success _ jid, some token =>
        some { s' with logins := ⟨token, s.now, jid, s.withdrawn⟩ :: s.logins }
      | _, _ => some s'

end State

/-- **The events that do no harm.** A user is removed when no refresh token issued to them is still
to expire, and a valid token comes on a stream of the domain of its owner. -/
def StepOk (s : State) : Event → Prop
  | .removeUser user => ∀ t ∈ s.issued, IsRefreshOf user t → t.expiryDatetime ≤ s.now
  | .login lserver serialized =>
    match settings.deserialize serialized with
    | none => True
    | some t => settings.Validated s.now t s.table → t.userJid.lserver = lserver
  | _ => True

instance (s : State) (e : Event) : Decidable (StepOk settings s e) := by
  cases e with
  | login lserver serialized =>
    unfold StepOk
    dsimp only
    split <;> infer_instance
  | _ =>
    unfold StepOk
    infer_instance

/-- **What a login should be**: with a token that was issued, to the bare address of its owner,
before it expires, and not with one that was withdrawn. -/
structure Login.Proper (tokens : List Token) (l : Login) : Prop where
  issued : ∃ t ∈ tokens, t.tokenBody = l.token.tokenBody
  owner : ∀ t ∈ tokens, t.tokenBody = l.token.tokenBody →
    l.jid = some t.userJid.toBare ∧ l.time < t.expiryDatetime
  notWithdrawn : ∀ t ∈ l.withdrawn, t.tokenBody ≠ l.token.tokenBody

instance (tokens : List Token) (l : Login) : Decidable (l.Proper tokens) :=
  decidable_of_iff ((∃ t ∈ tokens, t.tokenBody = l.token.tokenBody) ∧
      (∀ t ∈ tokens, t.tokenBody = l.token.tokenBody →
        l.jid = some t.userJid.toBare ∧ l.time < t.expiryDatetime) ∧
      ∀ t ∈ l.withdrawn, t.tokenBody ≠ l.token.tokenBody)
    ⟨fun h => ⟨h.1, h.2.1, h.2.2⟩, fun h => ⟨h.1, h.2, h.3⟩⟩

variable {settings}

/-- A token of a valid address, whose body is made of its fields. -/
structure Made (settings : Settings) (t : Token) : Prop where
  valid : ValidJid settings.lib t.userJid
  body : settings.joinFields t = t.tokenBody
  isSome : t.tokenBody.isSome

theorem made_of_tokenWithMac {t made : Token} (hvalid : ValidJid settings.lib t.userJid)
    (h : settings.tokenWithMac t = some made) : Made settings made := by
  obtain ⟨body, mac, hbody, -, rfl⟩ := Settings.tokenWithMac_eq_some h
  exact ⟨hvalid, hbody, rfl⟩

theorem Made.same {t t' : Token} (h : Made settings t) (h' : Made settings t')
    (hbody : t'.tokenBody = t.tokenBody) :
    t'.type = t.type ∧ t'.userJid = t.userJid ∧ t'.expiryDatetime = t.expiryDatetime ∧
    t'.sequenceNo = t.sequenceNo := by
  obtain ⟨body, hsome⟩ := Option.isSome_iff_exists.1 h.isSome
  refine Settings.joinFields_inj h.valid h'.valid (h.body.trans hsome) ?_
  rw [h'.body, hbody, hsome]

theorem Login.Proper.mono {issued issued' : List Token} {l : Login}
    (hmade : ∀ t ∈ issued', Made settings t) (hsub : ∀ t ∈ issued, t ∈ issued')
    (h : l.Proper issued) : l.Proper issued' := by
  obtain ⟨t, ht, hbody⟩ := h.issued
  refine ⟨⟨t, hsub t ht, hbody⟩, fun t' ht' hbody' => ?_, h.notWithdrawn⟩
  obtain ⟨-, howner, hexpiry, -⟩ :=
    (hmade t (hsub t ht)).same (hmade t' ht') (hbody'.trans hbody.symm)
  rw [howner, hexpiry]
  exact h.owner t ht hbody

namespace State

/-- **What such runs keep.** A refresh token that is to expire has a row, with a number that is not
lower than its own, and higher when it was withdrawn. -/
structure Invariant (settings : Settings) (s : State) : Prop where
  made : ∀ t ∈ s.issued, Made settings t
  withdrawn : ∀ t ∈ s.withdrawn, t ∈ s.issued ∧ t.type = .refresh
  row : ∀ t ∈ s.issued, t.type = .refresh → s.now < t.expiryDatetime →
    ∃ n v, t.sequenceNo = some n ∧ s.table.lookup (toBareBinary t.userJid) = some v ∧ n ≤ v ∧
      (t ∈ s.withdrawn → n < v)
  proper : ∀ l ∈ s.logins, l.Proper s.issued

theorem invariant_init (now : ℕ) : Invariant settings { now } where
  made := by simp
  withdrawn := by simp
  row := by simp
  proper := by simp

variable {s : State}

/-- Rows that stay and tokens that are new leave the others as they are. -/
theorem Invariant.extend {table : Table} {added : List Token} (h : Invariant settings s)
    (htable : Extends s.table table) (hmade : ∀ t ∈ added, Made settings t)
    (hrow : ∀ t ∈ added, t.type = .refresh → ∃ n, t.sequenceNo = some n ∧
    table.lookup (toBareBinary t.userJid) = some n) :
    Invariant settings { s with table, issued := added ++ s.issued } := by
  have hall : ∀ t ∈ added ++ s.issued, Made settings t := by
    intro t ht
    rcases List.mem_append.1 ht with ht | ht
    · exact hmade t ht
    · exact h.made t ht
  have hold : ∀ t ∈ s.issued, t.type = .refresh → s.now < t.expiryDatetime →
      ∃ n v, t.sequenceNo = some n ∧ table.lookup (toBareBinary t.userJid) = some v ∧ n ≤ v ∧
        (t ∈ s.withdrawn → n < v) := by
    intro t ht htype hlive
    obtain ⟨n, v, hn, hv, hle, hlt⟩ := h.row t ht htype hlive
    exact ⟨n, v, hn, htable _ _ hv, hle, hlt⟩
  refine ⟨hall, fun t ht => ?_, fun t ht htype hlive => ?_, fun l hl => ?_⟩
  · obtain ⟨hissued, htype⟩ := h.withdrawn t ht
    exact ⟨List.mem_append_right _ hissued, htype⟩
  · rcases List.mem_append.1 ht with ht | ht
    · obtain ⟨n, hn, hv⟩ := hrow t ht htype
      refine ⟨n, n, hn, hv, Int.le_refl n, fun hwithdrawn => ?_⟩
      -- a new token has the number of the row, which no withdrawn one has
      obtain ⟨n', v, hn', hv', -, hlt⟩ := hold t (h.withdrawn t hwithdrawn).1 htype hlive
      have hlt := hlt hwithdrawn
      rw [hn, Option.some_inj] at hn'
      rw [hv, Option.some_inj] at hv'
      omega
    · exact hold t ht htype hlive
  · exact (h.proper l hl).mono hall fun t ht => List.mem_append_right _ ht

/-- Tokens are withdrawn, when the numbers of their rows are higher. -/
theorem Invariant.withdraw {user : Jid} {table : Table} (h : Invariant settings s)
    (hrow : ∀ t ∈ s.issued, t.type = .refresh → s.now < t.expiryDatetime →
    ∀ v, s.table.lookup (toBareBinary t.userJid) = some v →
      ∃ v', table.lookup (toBareBinary t.userJid) = some v' ∧ v ≤ v' ∧
        (IsRefreshOf user t → v < v')) :
    Invariant settings (s.withdraw user table) := by
  refine ⟨h.made, fun t ht => ?_, fun t ht htype hlive => ?_, h.proper⟩
  · rcases List.mem_append.1 ht with ht | ht
    · rw [List.mem_filter, decide_eq_true_iff] at ht
      exact ⟨ht.1, ht.2.1⟩
    · exact h.withdrawn t ht
  · obtain ⟨n, v, hn, hv, hle, hlt⟩ := h.row t ht htype hlive
    obtain ⟨v', hv', hle', hlt'⟩ := hrow t ht htype hlive v hv
    refine ⟨n, v', hn, hv', by omega, fun hwithdrawn => ?_⟩
    rcases List.mem_append.1 hwithdrawn with hwithdrawn | hwithdrawn
    · rw [List.mem_filter, decide_eq_true_iff] at hwithdrawn
      have := hlt' hwithdrawn.2
      omega
    · have := hlt hwithdrawn
      omega

/-- The number of a token that is not revoked is the one of its row. -/
theorem not_lt_of_isRevoked {t : Token} {table : Table} {n v : ℤ} (htype : t.type = .refresh)
    (hn : t.sequenceNo = some n) (hv : table.lookup (toBareBinary t.userJid) = some v)
    (h : (Settings.isRevoked t table).1 = false) : ¬ n < v := by
  have hvalid : getValidSequenceNumber t.userJid table = (v, table) := by
    rw [getValidSequenceNumber, hv]
  simpa [Settings.isRevoked, htype, hn, hvalid] using h

/-- **A login with a valid token is proper**, on a stream of the domain of its owner. -/
theorem Invariant.proper_login {lserver serialized : String} {t : Token}
    (hlib : NormalisesJids settings.lib) (h : Invariant settings s)
    (hforged : ¬ Forged settings s.issued serialized)
    (hread : settings.deserialize serialized = some t)
    (hvalid : settings.Validated s.now t s.table) (hserver : t.userJid.lserver = lserver) :
    Login.Proper s.issued
    ⟨t, s.now, settings.lib.makeBare t.userJid.luser lserver, s.withdrawn⟩ := by
  obtain ⟨howner, hbody⟩ := Settings.of_deserialize hlib hread
  have hissued : ∃ t' ∈ s.issued, t'.tokenBody = t.tokenBody := by
    by_contra hnone
    push Not at hnone
    exact hforged (by simpa [Forged, hread] using ⟨hvalid.1, hnone⟩)
  have hmade : Made settings t := by
    obtain ⟨t', ht', hsame⟩ := hissued
    refine ⟨howner, hbody, ?_⟩
    rw [← hsame]
    exact (h.made t' ht').isSome
  refine ⟨hissued, fun t' ht' hsame => ?_, fun t' ht' hsame => ?_⟩
  · obtain ⟨-, howner', hexpiry, -⟩ := hmade.same (h.made t' ht') hsame
    refine ⟨?_, ?_⟩
    · rw [howner', ← hserver]
      simp [Library.makeBare, howner.nodeprep, howner.nameprep, Jid.toBare]
    · rw [hexpiry]
      simpa [Settings.isNotExpired] using hvalid.2.1
  · -- a withdrawn token has a number that is lower than the one of its row
    obtain ⟨hin, htype'⟩ := h.withdrawn t' ht'
    obtain ⟨htype, howner', hexpiry, hseq⟩ := hmade.same (h.made t' hin) hsame
    have hlive : s.now < t'.expiryDatetime := by
      rw [hexpiry]
      simpa [Settings.isNotExpired] using hvalid.2.1
    obtain ⟨n, v, hn, hv, -, hlt⟩ := h.row t' hin htype' hlive
    rw [howner'] at hv
    exact not_lt_of_isRevoked (htype ▸ htype') (hseq.symm.trans hn) hv hvalid.2.2 (hlt ht')

theorem Invariant.step {s' : State} {e : Event} (hlib : NormalisesJids settings.lib)
    (h : Invariant settings s) (hok : StepOk settings s e) (hstep : s.step settings e = some s') :
    Invariant settings s' := by
  cases e with
  | tick seconds =>
    cases hstep
    refine { h with row := fun t ht htype hlive => h.row t ht htype ?_ }
    have hlive : s.now + seconds < t.expiryDatetime := hlive
    omega
  | createTokens user =>
    rw [State.step] at hstep
    split at hstep
    · next huser =>
      split at hstep
      · next access refresh table hcreate =>
        cases hstep
        obtain ⟨hextends, hmade⟩ := Settings.createTokens_spec hcreate
        obtain ⟨⟨_, haccess⟩, _, n, hrefresh, hrow⟩ := hmade access refresh rfl
        refine @Invariant.extend _ _ _ [access, refresh] h hextends ?_ ?_
        · simpa using ⟨made_of_tokenWithMac huser haccess, made_of_tokenWithMac huser hrefresh⟩
        · obtain ⟨_, _, -, -, rfl⟩ := Settings.tokenWithMac_eq_some haccess
          obtain ⟨_, _, -, -, rfl⟩ := Settings.tokenWithMac_eq_some hrefresh
          simpa using hrow
      · next table hcreate =>
        cases hstep
        exact @Invariant.extend _ _ _ [] h (Settings.createTokens_spec hcreate).1 (by simp)
          (by simp)
    · cases hstep
  | provision user expiry vcard =>
    rw [State.step] at hstep
    split at hstep
    · next huser =>
      obtain ⟨t, hmade, rfl⟩ := Option.map_eq_some_iff.1 hstep
      refine @Invariant.extend _ _ _ [t] h (Extends.refl _) ?_ ?_
      · simpa using made_of_tokenWithMac huser hmade
      · obtain ⟨body, mac, -, -, rfl⟩ := Settings.tokenWithMac_eq_some hmade
        simp
    · cases hstep
  | revoke user =>
    cases hstep
    refine h.withdraw fun t ht htype hlive v hv => ?_
    rw [lookup_revoke, hv]
    split
    · exact ⟨v + 1, rfl, by omega, fun _ => by omega⟩
    · next hne => exact ⟨v, rfl, Int.le_refl v, fun huser => absurd huser.2 hne⟩
  | removeUser user =>
    cases hstep
    refine h.withdraw fun t ht htype hlive v hv => ?_
    -- the row of another user stays, and none of this user matters any more
    have hne : toBareBinary t.userJid ≠ toBareBinary user := by
      intro heq
      have := hok t ht ⟨htype, heq⟩
      omega
    refine ⟨v, ?_, Int.le_refl v, fun huser => absurd huser.2 hne⟩
    rw [cleanTokens, lookup_erase, if_neg hne, hv]
  | register user =>
    cases hstep
    exact h
  | login lserver serialized =>
    rw [State.step] at hstep
    split at hstep
    · cases hstep
    · next hforged =>
      have hchecked : settings.Checked s.now serialized s.table
          (settings.authenticate s.now serialized s.table) := Settings.checked_authenticate
      -- the table grows, and a token may be made
      have hnext : Invariant settings { s with
          table := (settings.authenticate s.now serialized s.table).table
          issued := (settings.authenticate s.now serialized s.table).made.toList ++ s.issued } := by
        refine h.extend hchecked.extends_table (fun made hin => ?_) (fun made hin htype => ?_)
        · obtain ⟨t, expiry, hread, hmade⟩ := hchecked.made made (Option.mem_toList.1 hin)
          refine made_of_tokenWithMac ?_ hmade
          exact (Settings.of_deserialize hlib hread).1
        · obtain ⟨t, expiry, hread, hmade⟩ := hchecked.made made (Option.mem_toList.1 hin)
          obtain ⟨_, _, -, -, rfl⟩ := Settings.tokenWithMac_eq_some hmade
          cases htype
      split at hstep
      next result authenticated hlogin =>
      obtain rfl : settings.authenticate s.now serialized s.table = authenticated :=
        congrArg Prod.snd hlogin
      dsimp only at hstep
      split at hstep
      · next serverOut jid token hread =>
        cases hstep
        obtain ⟨t, hread', hvalid, rfl⟩ := Settings.login_success (congrArg Prod.fst hlogin)
        cases (hread.symm.trans hread')
        have hserver : token.userJid.lserver = lserver := by
          simp only [StepOk, hread] at hok
          exact hok hvalid
        refine { hnext with proper := fun l hl => ?_ }
        rcases List.mem_cons.1 hl with rfl | hl
        · exact (h.proper_login hlib hforged hread hvalid hserver).mono hnext.made
            fun t ht => List.mem_append_right _ ht
        · exact hnext.proper l hl
      · cases hstep
        exact hnext

end State

/-! ## The result -/

variable (settings) in
/-- **Tokens authenticate their owners**: as long as the events do no harm, every login is proper,
and a token that was made with a MAC is read back. -/
theorem logins_proper (hlib : NormalisesJids settings.lib) :
    (∀ (now : ℕ) (es : List Event) (s : State),
    Guarded (State.step settings) (StepOk settings) { now } es →
    run (State.step settings) { now } es = some s → ∀ l ∈ s.logins, l.Proper s.issued) ∧
    ∀ t made, ValidJid settings.lib t.userJid →
    (t.type = .provision → ∀ vcard, t.vcard = some vcard → Readable settings vcard) →
    settings.tokenWithMac t = some made →
    ∃ serialized copy, Settings.serialize made = some serialized ∧
      settings.deserialize serialized = some copy ∧ Settings.SameToken made copy := by
  refine ⟨fun now es s hg hrun => ?_, fun t made howner hvcard hmade =>
    Settings.deserialize_serialize howner hvcard hmade⟩
  have hinvariant : State.Invariant settings s :=
    run_invariant (fun s e s' hs hok hstep => State.Invariant.step hlib hs hok hstep)
      (State.invariant_init now) hg hrun
  exact hinvariant.proper

/-! ### Runs -/

/-- Names are prepared as they are. -/
def plainLib : Library where
  nodeprep := some
  nameprep := some
  resourceprep := some
  fromBinary text :=
    match split '@' text with
    | [luser, lserver] => if luser = "" then none else some ⟨luser, lserver, ""⟩
    | [lserver] => some ⟨"", lserver, ""⟩
    | _ => none
  rfc3339 _ := ""

theorem toBinary_of_fromBinary {text : String} {j : Jid}
    (h : plainLib.fromBinary text = some j) : j.toBinary = text := by
  have htext := joinWith_split (c := '@') text
  simp only [plainLib] at h
  split at h
  · next luser lserver hsplit =>
    rw [hsplit] at htext
    split at h
    · cases h
    · next hne =>
      cases h
      have hjoin := @joinWith_concat '@' [luser] (by simp) lserver
      rw [joinWith_singleton] at hjoin
      rw [← htext, show [luser, lserver] = [luser] ++ [lserver] from rfl, hjoin]
      simp [Jid.toBinary, hne]
  · next lserver hsplit =>
    rw [hsplit, joinWith_singleton] at htext
    cases h
    simp [Jid.toBinary, htext]
  · cases h

theorem normalisesJids_plainLib : NormalisesJids plainLib := by
  intro text j hseparator h
  have htext := toBinary_of_fromBinary h
  exact ⟨by rw [htext, h], by rwa [htext], rfl, rfl⟩

/-- A code that is the key and the data, short periods, and vCards of one element. -/
def exampleSettings : Settings where
  lib := plainLib
  parse text := some (.mk text [] [] "")
  toBinary := Element.name
  mac key data := (key ++ data).toList.map fun c => UInt8.ofNat c.toNat
  getKeyForHostType
    | .tokenSecret => some "secret"
    | .provisionPreShared => none
  accessPeriod := ⟨1, .minutes⟩
  refreshPeriod := ⟨1, .hours⟩

/-- A user of one of the domains. -/
def alice : Jid := ⟨"alice", "a.example", ""⟩

/-- The tokens that the user gets at the start. -/
def aliceAccess : Token := { type := .access, expiryDatetime := 60, userJid := alice }

@[inherit_doc aliceAccess]
def aliceRefresh : Token :=
  { type := .refresh, expiryDatetime := 3600, userJid := alice, sequenceNo := some 1 }

/-- A token as it is sent. -/
def sent (t : Token) : String :=
  ((exampleSettings.tokenWithMac t).bind Settings.serialize).getD ""

/-- A token of one domain is taken for a user of another one; and a refresh token is good again
after its user was removed, also one that was revoked. -/
theorem logins_improper : (∃ s ∈ run (State.step exampleSettings) { now := 0 }
      [.createTokens alice, .login "b.example" (sent aliceAccess)],
    ∃ l ∈ s.logins, l.jid = some ⟨"alice", "b.example", ""⟩ ∧ ¬ l.Proper s.issued) ∧
    ∃ s ∈ run (State.step exampleSettings) { now := 0 }
      [.createTokens alice, .revoke alice, .removeUser alice, .register alice,
        .login "a.example" (sent aliceRefresh)],
    ∃ l ∈ s.logins, ¬ l.Proper s.issued := by
  decide +kernel

/-- A user logs in with both tokens, one after the other, and no more with the revoked one; when it
has expired the user is removed. -/
def exampleEvents : List Event :=
  [.createTokens alice, .login "a.example" (sent aliceRefresh), .revoke alice,
    .login "a.example" (sent aliceRefresh), .login "a.example" (sent aliceAccess), .tick 3600,
    .removeUser alice, .register alice, .login "a.example" (sent aliceRefresh)]

theorem logins_proper_example :
    (∀ s, run (State.step exampleSettings) { now := 0 } exampleEvents = some s →
    ∀ l ∈ s.logins, l.Proper s.issued) ∧
    (∃ s ∈ run (State.step exampleSettings) { now := 0 } exampleEvents, s.logins.length = 2) ∧
    ∃ made serialized copy, exampleSettings.tokenWithMac aliceRefresh = some made ∧
    Settings.serialize made = some serialized ∧
    exampleSettings.deserialize serialized = some copy ∧ Settings.SameToken made copy := by
  obtain ⟨hproper, hread⟩ := logins_proper exampleSettings normalisesJids_plainLib
  refine ⟨fun s hrun => hproper 0 exampleEvents s (by decide +kernel) hrun, by decide +kernel, ?_⟩
  obtain ⟨serialized, copy, hserialize, hcopy⟩ := hread aliceRefresh _ (by decide +kernel) nofun rfl
  exact ⟨_, serialized, copy, rfl, hserialize, hcopy⟩

end MongooseIM.AuthToken
