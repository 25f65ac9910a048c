import MongooseIM.ContactSync.Sync

/-! # The subscriptions of contact sync

Two users who both synced the number of the other are subscribed to each other. But a request that
comes in is an item as well: one who syncs a number twice is subscribed without being synced. And a
mutual subscription gives each user the other under his own name. -/

namespace MongooseIM.ContactSync

open Erlang Roster Transition Xmpp List

variable {m : SyncModule} {d : Directory} {users : List String} {T : Type*}
  {b : Backend (String × String) T} {ok : String × String → Prop} {rosters rosters' : T}

/-! ## One match -/

theorem nodup_groups : (namedGroups groups).Nodup := by decide

section Match

variable {u v : String} (hb : b.Reliable ok) (huv : ok (u, v)) (hvu : ok (v, u))

include hb huv

/-- What is read of a contact: whether it is there, and whether it has the subscription `both`. -/
theorem read_of_contact {own : Option Contact} (h : b.contact rosters (u, v) = own) :
    hasRosterEntry b u v rosters = some own.isSome ∧
    hasBothSubscription b u v rosters = some (own.any (·.subscription = .both)) := by
  obtain ⟨entry, hentry, hcontact⟩ := hb.read .short rosters huv
  rw [hasRosterEntry, hasBothSubscription, getRosterEntry, hentry, ← h, ← hcontact]
  cases entry <;> exact ⟨rfl, rfl⟩

include hvu

/-- The first match of two users is a request. -/
theorem asked_syncRosterEntry (hne : u ≠ v) (hu : u ∈ users) (hv : v ∈ users)
    (h : Items b rosters u v none none) (callerNick contactNick : String) :
    ∃ rosters', syncRosterEntry b users u callerNick v contactNick rosters = some rosters' ∧
    Asked b rosters' u v contactNick := by
  obtain ⟨rosters₁, hadd, h₁, _⟩ := h.addContact hb huv nodup_groups hne hu hv contactNick
  refine ⟨_, ?_, asked_subscription hb huv hvu hne hv h₁⟩
  rw [syncRosterEntry, (read_of_contact hb huv h.own).2, Option.bind_some, if_neg (by simp),
    (read_of_contact hb hvu h.other).1, Option.map_some, if_neg (by simp), addOneWay, hadd]

/-- **One who asked is taken for one who has the number.** -/
theorem mutual_syncRosterEntry {name : String} (hne : u ≠ v) (hu : u ∈ users) (hv : v ∈ users)
    (h : Asked b rosters u v name ∨ Asked b rosters v u name) (callerNick contactNick : String) :
    ∃ rosters', syncRosterEntry b users u callerNick v contactNick rosters = some rosters' ∧
    Mutual b rosters' u v callerNick contactNick := by
  refine ⟨_, ?_, mutual_subscribeBoth hb huv hvu nodup_groups hne hu hv h⟩
  rcases h with h | h
  · rw [syncRosterEntry, (read_of_contact hb huv h.own).2, Option.bind_some, if_neg (by simp),
      (read_of_contact hb hvu h.other).1, Option.map_some, if_pos (by simp)]
    rfl
  · rw [syncRosterEntry, (read_of_contact hb huv h.other).2, Option.bind_some, if_neg (by simp),
      (read_of_contact hb hvu h.own).1, Option.map_some, if_pos (by simp)]
    rfl

omit hvu in
/-- A mutual subscription is left as it is. -/
theorem syncRosterEntry_of_mutual {nameOfV nameOfU : String}
    (h : Mutual b rosters u v nameOfV nameOfU ∨ Mutual b rosters v u nameOfU nameOfV)
    (callerNick contactNick : String) :
    syncRosterEntry b users u callerNick v contactNick rosters = some rosters := by
  have hown : b.contact rosters (u, v) = some { name := nameOfV, subscription := .both } :=
    h.elim Items.own Items.other
  rw [syncRosterEntry, (read_of_contact hb huv hown).2, Option.bind_some, if_pos (by simp)]

/-- A match concerns the items of the two users only. -/
theorem contact_syncRosterEntry_ne (hne : u ≠ v) (hu : u ∈ users) (hv : v ∈ users)
    {key : String × String} (hkey : key ≠ (u, v)) (hkey' : key ≠ (v, u))
    {callerNick contactNick : String}
    (hsync : syncRosterEntry b users u callerNick v contactNick rosters = some rosters') :
    b.contact rosters' key = b.contact rosters key := by
  rw [syncRosterEntry, (read_of_contact hb huv rfl).2, Option.bind_some] at hsync
  split_ifs at hsync
  · rw [Option.some.inj hsync]
  · rw [(read_of_contact hb hvu rfl).1, Option.map_some] at hsync
    split_ifs at hsync
    · rw [← Option.some.inj hsync]
      exact contact_subscribeBoth_ne hb huv hvu nodup_groups hkey hkey' hne hu hv _ _
    · have hitems : Items b rosters u v (b.contact rosters (u, v)) (b.contact rosters (v, u)) :=
        ⟨rfl, rfl⟩
      obtain ⟨rosters₁, hadd, h₁, hkeep⟩ :=
        hitems.addContact hb huv nodup_groups hne hu hv contactNick
      rw [← Option.some.inj hsync, addOneWay, hadd]
      simp only
      rw [contact_subscription_ne hb huv hvu hkey hkey', hkeep key hkey]

end Match

/-! ## The matches of two users -/

variable {u v : String} {ms : List Match}

/-- The match is one of the two users. -/
def Match.Concerns (u v : String) (x : Match) : Prop :=
  x.caller = u ∧ x.contact = v ∨ x.caller = v ∧ x.contact = u

instance (u v : String) : DecidablePred (Match.Concerns u v) := fun _ =>
  inferInstanceAs (Decidable (_ ∨ _))

/-- The matches of two users. -/
def concern (u v : String) (ms : List Match) : List Match := ms.filter (Match.Concerns u v ·)

/-- **The items of two users** by their matches: the second one decides on the names. -/
def PairState (b : Backend (String × String) T) (rosters : T) (u v : String) : List Match → Prop
  | [] => Items b rosters u v none none
  | [x] => Asked b rosters x.caller x.contact x.contactNick
  | _ :: x :: _ => Mutual b rosters x.caller x.contact x.callerNick x.contactNick

/-- Two matches of the same users are of one direction or of opposite ones. -/
theorem Match.Concerns.or {x y : Match} (hx : x.Concerns u v) (hy : y.Concerns u v) :
    (x.caller = y.caller ∧ x.contact = y.contact) ∨
    (x.caller = y.contact ∧ x.contact = y.caller) := by
  rcases hx with ⟨rfl, rfl⟩ | ⟨rfl, rfl⟩
  · rcases hy with ⟨hcaller, hcontact⟩ | ⟨hcaller, hcontact⟩
    · exact Or.inl ⟨hcaller.symm, hcontact.symm⟩
    · exact Or.inr ⟨hcontact.symm, hcaller.symm⟩
  · rcases hy with ⟨hcaller, hcontact⟩ | ⟨hcaller, hcontact⟩
    · exact Or.inr ⟨hcontact.symm, hcaller.symm⟩
    · exact Or.inl ⟨hcaller.symm, hcontact.symm⟩

/-- The match is one of two users that exist, whose items can be read and written. -/
structure Match.Proper (users : List String) (ok : String × String → Prop) (x : Match) : Prop where
  ne : x.caller ≠ x.contact
  caller : x.caller ∈ users
  contact : x.contact ∈ users
  readable : ok (x.caller, x.contact)
  readable' : ok (x.contact, x.caller)

section

variable {l : List Match} {y : Match} (hb : b.Reliable ok) (hy : y.Proper users ok)
  (h : PairState b rosters u v l) (hl : ∀ x ∈ l, x.Concerns u v)

include hb hy h hl

/-- **One more match of the two.** -/
theorem PairState.snoc (hconcerns : y.Concerns u v) : ∃ rosters',
    syncMatch b users rosters y = some rosters' ∧ PairState b rosters' u v (l ++ [y]) := by
  match l, h, hl with
  | [], h, _ =>
    have hitems : Items b rosters y.caller y.contact none none := by
      rcases hconcerns with ⟨hcaller, hcontact⟩ | ⟨hcaller, hcontact⟩
      · rw [hcaller, hcontact]
        exact h
      · rw [hcaller, hcontact]
        exact Items.symm h
    exact asked_syncRosterEntry hb hy.readable hy.readable' hy.ne hy.caller hy.contact hitems y.callerNick
      y.contactNick
  | [x], h, hl =>
    have hasked : Asked b rosters y.caller y.contact x.contactNick ∨
        Asked b rosters y.contact y.caller x.contactNick := by
      rcases (hl x mem_cons_self).or hconcerns with ⟨hcaller, hcontact⟩ | ⟨hcaller, hcontact⟩
      · left
        rw [← hcaller, ← hcontact]
        exact h
      · right
        rw [← hcaller, ← hcontact]
        exact h
    exact mutual_syncRosterEntry hb hy.readable hy.readable' hy.ne hy.caller hy.contact hasked y.callerNick
      y.contactNick
  | w :: x :: l, h, hl =>
    refine ⟨rosters, ?_, h⟩
    have hx : x.Concerns u v := hl x (mem_cons_of_mem _ mem_cons_self)
    rcases hx.or hconcerns with ⟨hcaller, hcontact⟩ | ⟨hcaller, hcontact⟩
    · have hmutual : Mutual b rosters y.caller y.contact x.callerNick x.contactNick := by
        rw [← hcaller, ← hcontact]
        exact h
      exact syncRosterEntry_of_mutual hb hy.readable (Or.inl hmutual) y.callerNick y.contactNick
    · have hmutual : Mutual b rosters y.contact y.caller x.callerNick x.contactNick := by
        rw [← hcaller, ← hcontact]
        exact h
      exact syncRosterEntry_of_mutual hb hy.readable (Or.inr hmutual) y.callerNick y.contactNick

/-- A match of others leaves the two. -/
theorem PairState.frame (hconcerns : ¬ y.Concerns u v)
    (hsync : syncMatch b users rosters y = some rosters') : PairState b rosters' u v l := by
  have hcontact : ∀ key, key = (u, v) ∨ key = (v, u) →
      b.contact rosters' key = b.contact rosters key := by
    rintro key hkey
    refine contact_syncRosterEntry_ne hb hy.readable hy.readable' hy.ne hy.caller hy.contact ?_ ?_ hsync
    · rintro rfl
      simp only [Prod.mk.injEq] at hkey
      exact hconcerns hkey
    · rintro rfl
      simp only [Prod.mk.injEq] at hkey
      exact hconcerns (hkey.symm.imp And.symm And.symm)
  have hitems : ∀ x ∈ l, ∀ own other, Items b rosters x.caller x.contact own other →
      Items b rosters' x.caller x.contact own other := by
    intro x hx own other h
    rcases hl x hx with ⟨hcaller, hcontact'⟩ | ⟨hcaller, hcontact'⟩
    · rw [hcaller, hcontact'] at h ⊢
      exact ⟨(hcontact _ (Or.inl rfl)).trans h.own, (hcontact _ (Or.inr rfl)).trans h.other⟩
    · rw [hcaller, hcontact'] at h ⊢
      exact ⟨(hcontact _ (Or.inr rfl)).trans h.own, (hcontact _ (Or.inl rfl)).trans h.other⟩
  match l, h, hitems with
  | [], h, _ => exact ⟨(hcontact _ (Or.inl rfl)).trans h.own, (hcontact _ (Or.inr rfl)).trans h.other⟩
  | [x], h, hitems => exact hitems x mem_cons_self _ _ h
  | _ :: x :: l, h, hitems => exact hitems x (mem_cons_of_mem _ mem_cons_self) _ _ h

end

theorem concerns_of_mem_concern {x : Match} (h : x ∈ concern u v ms) : x.Concerns u v := by
  simpa using (mem_filter.1 h).2

/-- **What matches leave of the items of any two users**, after those that were `done`. -/
theorem pairState_addMatchesToRoster (hb : b.Reliable ok) (hms : ∀ x ∈ ms, x.Proper users ok)
    {done : List Match} (h : ∀ u v, PairState b rosters u v (concern u v done)) (u v : String) :
    PairState b (addMatchesToRoster b users ms rosters) u v (concern u v (done ++ ms)) := by
  induction ms generalizing rosters done with
  | nil =>
    rw [append_nil]
    exact h u v
  | cons y ms ih =>
    have hy := hms y mem_cons_self
    obtain ⟨rosters', hsync, _⟩ := (h y.caller y.contact).snoc hb hy
      (fun _ => concerns_of_mem_concern) (Or.inl ⟨rfl, rfl⟩)
    have hafter (u v : String) : PairState b rosters' u v (concern u v (done ++ [y])) := by
      rw [concern, filter_append]
      by_cases hconcerns : y.Concerns u v
      · rw [filter_cons_of_pos (by simpa using hconcerns), filter_nil]
        obtain ⟨rosters₁, hsync₁, hpair⟩ := (h u v).snoc hb hy
          (fun _ => concerns_of_mem_concern) hconcerns
        cases hsync.symm.trans hsync₁
        exact hpair
      · rw [filter_cons_of_neg (by simpa using hconcerns), filter_nil, append_nil]
        exact (h u v).frame hb hy (fun _ => concerns_of_mem_concern) hconcerns hsync
    rw [addMatchesToRoster, hsync, append_cons]
    exact ih (fun x hx => hms x (mem_cons_of_mem _ hx)) hafter

/-! ## Runs -/

/-- All matches of the requests. -/
def matchesOf (es : List Request) : List Match := es.flatMap Request.matchesOf

theorem matchesOf_cons (e : Request) (es : List Request) :
    matchesOf (e :: es) = e.matchesOf ++ matchesOf es := rfl

/-- The request asks for a number that a user registered. -/
def Request.Names (m : SyncModule) (d : Directory) (v : String) (e : Request) : Prop :=
  ∃ row ∈ d.rows, row.2 = v ∧ m.selects (m.extract e.subEl) row

/-- A user has synced a list with a number of another one. -/
def Synced (m : SyncModule) (d : Directory) (es : List Request) (u v : String) : Prop :=
  ∃ e ∈ es, e.caller = u ∧ e.Names m d v

theorem matchesOf_eq_nil {e : Request} (hrows : e.rows.Perm (d.rows.filter (m.selects [])) ) :
    e.matchesOf = [] := by
  have hnone : d.rows.filter (m.selects []) = [] := by
    rw [filter_eq_nil_iff]
    simp [SyncModule.selects]
  rw [hnone, perm_nil] at hrows
  rw [Request.matchesOf, hrows]
  rfl

/-- A request that was taken. -/
structure Request.Taken (m : SyncModule) (d : Directory) (e : Request) : Prop where
  caller : e.caller ∈ d.users
  number : e.callerNumber = "" ∨ (e.callerNumber, e.caller) ∈ d.rows
  rows : e.rows.Perm (d.rows.filter (m.selects (m.extract e.subEl)))

variable {r : RosterBackend}

theorem step_eq_some {e : Request} {rosters rosters' : r.Tables}
    (hquotes : m.Quotes (m.extract e.subEl)) (hstep : step r m d rosters e = some rosters') :
    e.Taken m d ∧ rosters' = addMatchesToRoster r.backend d.users e.matchesOf rosters := by
  rw [step, Option.ite_none_right_eq_some] at hstep
  obtain ⟨⟨hcaller, hnumber, hrows⟩, hsome⟩ := hstep
  have htaken : e.Taken m d := ⟨hcaller, hnumber, hrows hquotes⟩
  refine ⟨htaken, ?_⟩
  split at hsome
  · next hnil =>
    have hrows := htaken.rows
    rw [hnil] at hrows
    rw [matchesOf_eq_nil hrows]
    exact (Option.some.inj hsome).symm
  · exact (Option.some.inj hsome).symm

/-- The items of the matches of a request can be read and written. -/
def Request.Readable (r : RosterBackend) (e : Request) : Prop :=
  ∀ x ∈ e.matchesOf, r.Readable (x.caller, x.contact) ∧ r.Readable (x.contact, x.caller)

/-- The matches of a request are of users that exist. -/
theorem Request.Taken.proper {e : Request} (h : e.Taken m d) (hreadable : e.Readable r) :
    ∀ x ∈ e.matchesOf, x.Proper d.users r.Readable := by
  intro x hx
  obtain ⟨hok, hok'⟩ := hreadable x hx
  obtain ⟨row, hrow, rfl⟩ := mem_map.1 hx
  obtain ⟨hrow, hne⟩ := mem_filter.1 hrow
  have hrow := (mem_filter.1 (h.rows.mem_iff.1 hrow)).1
  exact ⟨(of_decide_eq_true hne).symm, h.caller, d.registered row hrow, hok, hok'⟩

/-- **A run passes the matches of its requests.** -/
theorem run_step {es : List Request} {rosters rosters' : r.Tables}
    (hquotes : ∀ e ∈ es, m.Quotes (m.extract e.subEl)) (hreadable : ∀ e ∈ es, e.Readable r)
    (hrun : run (step r m d) rosters es = some rosters') {done : List Match}
    (h : ∀ u v, PairState r.backend rosters u v (concern u v done)) :
    (∀ u v, PairState r.backend rosters' u v (concern u v (done ++ matchesOf es))) ∧
    ∀ e ∈ es, e.Taken m d := by
  induction es generalizing rosters done with
  | nil =>
    cases hrun
    refine ⟨fun u v => ?_, by simp⟩
    rw [matchesOf, flatMap_nil, append_nil]
    exact h u v
  | cons e es ih =>
    obtain ⟨rosters₁, hstep, hrest⟩ := run_cons_eq_some.1 hrun
    obtain ⟨htaken, rfl⟩ := step_eq_some (hquotes e mem_cons_self) hstep
    have hproper := htaken.proper (hreadable e mem_cons_self)
    obtain ⟨hpair, hall⟩ := ih (fun e' he' => hquotes e' (mem_cons_of_mem _ he'))
      (fun e' he' => hreadable e' (mem_cons_of_mem _ he')) hrest
      (pairState_addMatchesToRoster r.reliable hproper h)
    refine ⟨fun u v => ?_, forall_mem_cons.2 ⟨htaken, hall⟩⟩
    rw [matchesOf_cons, ← append_assoc]
    exact hpair u v

section Run

variable {es : List Request} (htaken : ∀ e ∈ es, e.Taken m d)
include htaken

theorem mem_matchesOf {x : Match} :
    x ∈ matchesOf es ↔ ∃ e ∈ es, ∃ row ∈ d.rows, m.selects (m.extract e.subEl) row ∧
    row.2 ≠ e.caller ∧ x =
      { caller := e.caller
        callerNick := if e.callerNumber = "" then e.caller else e.callerNumber
        contact := row.2
        contactNick := if row.1 = "" then row.2 else row.1 } := by
  rw [matchesOf, mem_flatMap]
  refine exists_congr fun e => and_congr_right fun he => ?_
  rw [Request.matchesOf, mem_map]
  refine exists_congr fun row => ?_
  rw [mem_filter, (htaken e he).rows.mem_iff, mem_filter, decide_eq_true_iff]
  constructor
  · rintro ⟨⟨⟨hrow, hselects⟩, hne⟩, rfl⟩
    exact ⟨hrow, hselects, hne, rfl⟩
  · rintro ⟨hrow, hselects, hne, rfl⟩
    exact ⟨⟨⟨hrow, hselects⟩, hne⟩, rfl⟩

theorem synced_iff (huv : u ≠ v) :
    Synced m d es u v ↔ ∃ x ∈ matchesOf es, x.caller = u ∧ x.contact = v := by
  constructor
  · rintro ⟨e, he, rfl, row, hrow, rfl, hselects⟩
    exact ⟨_, (mem_matchesOf htaken).2 ⟨e, he, row, hrow, hselects, huv.symm, rfl⟩, rfl, rfl⟩
  · rintro ⟨x, hx, rfl, rfl⟩
    obtain ⟨e, he, row, hrow, hselects, -, rfl⟩ := (mem_matchesOf htaken).1 hx
    exact ⟨e, he, rfl, row, hrow, rfl, hselects⟩

end Run

/-! ## What is agreed -/

/-- The numbers of a user, and the user name. -/
def Directory.namesOf (d : Directory) (v : String) : List String :=
  v :: (d.rows.filter fun row => row.2 = v).map Prod.fst

/-- Both users have the other with the subscription `both`. -/
def BothSubscribed (b : Backend (String × String) T) (rosters : T) (u v : String) : Prop :=
  (∃ contact ∈ b.contact rosters (u, v), contact.subscription = .both) ∧
    ∃ contact ∈ b.contact rosters (v, u), contact.subscription = .both

/-- **Consent**: the contact gets no presence of a user, and the user none of the contact, whose
number the contact did not sync. -/
structure NoSubscription (b : Backend (String × String) T) (rosters : T) (u v : String) : Prop where
  own : ∀ contact ∈ b.contact rosters (u, v),
    contact.subscription ≠ .both ∧ contact.subscription ≠ .from
  other : ∀ contact ∈ b.contact rosters (v, u),
    contact.subscription ≠ .both ∧ contact.subscription ≠ .to

/-- **Names**: a contact of the user, which is more than a request that came in, is called by one of
its numbers or by its name. -/
def Named (d : Directory) (b : Backend (String × String) T) (rosters : T) (u v : String) : Prop :=
  ∀ contact ∈ b.contact rosters (u, v),
    ¬ (contact.subscription = .none ∧ contact.ask = .in) → contact.name ∈ d.namesOf v

/-- What two users want of their items: consent and names in both directions. -/
structure Agreed (m : SyncModule) (d : Directory) (es : List Request)
    (b : Backend (String × String) T) (rosters : T) (u v : String) : Prop where
  consent : ¬ Synced m d es v u → NoSubscription b rosters u v
  consent' : ¬ Synced m d es u v → NoSubscription b rosters v u
  named : Named d b rosters u v
  named' : Named d b rosters v u

/-- The matches that are as agreed: at most one of the two users; or more, where both synced the
number of the other and the names of the second match may be exchanged. -/
def Harmless (m : SyncModule) (d : Directory) (es : List Request) (u v : String) : List Match → Prop
  | [] | [_] => True
  | _ :: x :: _ => Synced m d es u v ∧ Synced m d es v u ∧
      x.callerNick ∈ d.namesOf x.contact ∧ x.contactNick ∈ d.namesOf x.caller

section Run

variable {es : List Request} (htaken : ∀ e ∈ es, e.Taken m d)
include htaken

/-- The contact of a match is called by one of its names. -/
theorem contactNick_mem {x : Match} (hx : x ∈ matchesOf es) :
    x.contactNick ∈ d.namesOf x.contact := by
  obtain ⟨e, he, row, hrow, -, -, rfl⟩ := (mem_matchesOf htaken).1 hx
  show (if row.1 = "" then row.2 else row.1) ∈ d.namesOf row.2
  rw [Directory.namesOf]
  split
  · exact mem_cons_self
  · refine mem_cons_of_mem _ (mem_map.2 ⟨row, mem_filter.2 ⟨hrow, ?_⟩, rfl⟩)
    simp

end Run

/-- Where both users synced, there are two matches of theirs. -/
theorem two_matches {es : List Request} (htaken : ∀ e ∈ es, e.Taken m d) (huv : u ≠ v)
    (h : Synced m d es u v) (h' : Synced m d es v u) :
    ∃ w x l, concern u v (matchesOf es) = w :: x :: l := by
  obtain ⟨x, hx, hcaller, hcontact⟩ := (synced_iff htaken huv).1 h
  obtain ⟨y, hy, hcaller', hcontact'⟩ := (synced_iff htaken huv.symm).1 h'
  have hx' : x ∈ concern u v (matchesOf es) :=
    mem_filter.2 ⟨hx, by simp [Match.Concerns, hcaller, hcontact]⟩
  have hy' : y ∈ concern u v (matchesOf es) :=
    mem_filter.2 ⟨hy, by simp [Match.Concerns, hcaller', hcontact']⟩
  match hl : concern u v (matchesOf es), hx', hy' with
  | [z], hx', hy' =>
    rw [mem_singleton] at hx' hy'
    rw [hx', ← hy', hcaller'] at hcaller
    exact absurd hcaller.symm huv
  | w :: x :: l, _, _ => exact ⟨w, x, l, rfl⟩

section Pair

variable {a c name nameOfA nameOfC : String}

/-- A request alone gives nobody a subscription, and the contact its name. -/
theorem agreed_of_asked (h : Asked b rosters a c name) (hname : name ∈ d.namesOf c) :
    NoSubscription b rosters a c ∧ NoSubscription b rosters c a ∧ Named d b rosters a c ∧
    Named d b rosters c a := by
  have hown := h.own
  have hother := h.other
  refine ⟨⟨?_, ?_⟩, ⟨?_, ?_⟩, ?_, ?_⟩ <;> intro contact hcontact
  · rw [hown, Option.mem_some] at hcontact
    simp [← hcontact]
  · rw [hother, Option.mem_some] at hcontact
    simp [← hcontact]
  · rw [hother, Option.mem_some] at hcontact
    simp [← hcontact]
  · rw [hown, Option.mem_some] at hcontact
    simp [← hcontact]
  · rw [hown, Option.mem_some] at hcontact
    rw [← hcontact]
    exact fun _ => hname
  · rw [hother, Option.mem_some] at hcontact
    rw [← hcontact]
    exact fun hshown => absurd ⟨rfl, rfl⟩ hshown

theorem bothSubscribed_of_mutual (h : Mutual b rosters a c nameOfC nameOfA) :
    BothSubscribed b rosters a c :=
  ⟨⟨_, h.own, rfl⟩, ⟨_, h.other, rfl⟩⟩

/-- With a mutual subscription both must have synced, and the names are those of the items. -/
theorem agreed_iff_of_mutual (h : Mutual b rosters a c nameOfC nameOfA) (es : List Request) :
    Agreed m d es b rosters a c ↔
    Synced m d es a c ∧ Synced m d es c a ∧ nameOfC ∈ d.namesOf c ∧ nameOfA ∈ d.namesOf a := by
  constructor
  · rintro ⟨hconsent, hconsent', hnamed, hnamed'⟩
    refine ⟨?_, ?_, ?_, ?_⟩
    · by_contra hsynced
      exact ((hconsent' hsynced).own _ h.other).1 rfl
    · by_contra hsynced
      exact ((hconsent hsynced).own _ h.own).1 rfl
    · exact hnamed _ h.own (by simp)
    · exact hnamed' _ h.other (by simp)
  · rintro ⟨hac, hca, hnamed, hnamed'⟩
    refine ⟨fun hsynced => absurd hca hsynced, fun hsynced => absurd hac hsynced, ?_, ?_⟩
    · intro contact hcontact _
      rw [h.own, Option.mem_some] at hcontact
      rwa [← hcontact]
    · intro contact hcontact _
      rw [h.other, Option.mem_some] at hcontact
      rwa [← hcontact]

end Pair

theorem Agreed.symm {es : List Request} (h : Agreed m d es b rosters u v) :
    Agreed m d es b rosters v u :=
  ⟨h.consent', h.consent, h.named', h.named⟩

/-- The digits of a number can stand in a literal. -/
theorem quotes_modContactSync (texts : List String) : modContactSync.Quotes texts := by
  intro text _
  have hdigit {c : Char} (hc : c ∈ (modContactSync.listKey text).toList) : c.isDigit :=
    (mem_filter.1 (mem_of_mem_drop (by simpa [modContactSync, last7] using hc))).2
  exact ⟨fun hmark => absurd (hdigit hmark) (by decide),
    fun hslash => absurd (hdigit hslash) (by decide)⟩

/-! ### Runs on an example -/

/-- Two users with a number each, and one without. -/
def exampleDirectory : Directory where
  users := ["alice", "bob", "carol"]
  rows := [("+48 111 222 001", "alice"), ("+48 111 222 002", "bob")]
  registered := by decide

/-- The rosters in the same database. -/
def exampleRosters (d : Directory) : RosterBackend := .rdbms
  { owner := fun key => ("localhost", key.1)
    phones := fun key => (d.rows.filter fun row => row.2 = key.2).map Prod.fst }

/-- A list with one number. -/
def exampleQuery (number : String) : Element :=
  .mk "query" [("xmlns", "wingtrill:contact:sync")] [.mk "phone" [] [] number] ""

def aliceSyncsBob : Request :=
  ⟨"alice", "+48 111 222 001", exampleQuery "111222002", [("+48 111 222 002", "bob")]⟩

def bobSyncsAlice : Request :=
  ⟨"bob", "+48 111 222 002", exampleQuery "0048111222001", [("+48 111 222 001", "alice")]⟩

def carolSyncsBob : Request :=
  ⟨"carol", "", exampleQuery "111222002", [("+48 111 222 002", "bob")]⟩

/-- Two users, the second with two numbers. -/
def twoNumbers : Directory where
  users := ["alice", "bob"]
  rows := [("+48 111 222 001", "alice"), ("+48 111 222 002", "bob"), ("+48 111 222 003", "bob")]
  registered := by decide

end MongooseIM.ContactSync
