import MongooseIM.Bosh.Sending

/-! # Handling one request

A client has a body for every request id. `At c conns A near r F D data s` says of a state that `r`
is the last request taken, that the elements `F` have been forwarded to the c2s process, that the
requests in `D` are deferred and the elements in `data` are in hand. Sending keeps it (`At.kept`),
and a request that is taken leads from one to the next (`processAcked_ends`). -/

namespace MongooseIM.Bosh

open Transition List

/-- A client of a session: its first request id and the body it sends with each. -/
structure Client (sid : String) where
  first : ℕ
  first_pos : 0 < first
  body : ℕ → Body
  rid_body : ∀ r, (body r).rid = r
  /-- The first body asks for a session and has an acceptable `hold`. -/
  starts : toEventType (body first) = .streamstart ∧ (setMaxHold (body first)).isSome
  addressed : ∀ r, first < r → (body r).sid = some sid ∧ (body r).xmlns = some nsHttpbind

namespace Client

variable {sid : String} (c : Client sid)

/-- What the c2s process is to receive for a request. -/
def payload (rid : ℕ) : List StreamEl :=
  match toEventType (c.body rid) with
  | .streamstart => streamStart (c.body c.first).fromAttr (c.body c.first).toAttr ::
      (c.body rid).elements
  | .restart => streamStart (c.body c.first).fromAttr (c.body c.first).toAttr ::
      (c.body rid).elements
  | .streamend => (c.body rid).elements ++ [.xmlstreamend]
  | .normal => (c.body rid).elements
  | .pause => (c.body rid).elements

/-- What the c2s process is to receive for the requests up to one. -/
def payloads : Option ℕ → List StreamEl
  | none => []
  | some r => (List.range' c.first (r + 1 - c.first)).flatMap c.payload

theorem payloads_succ {r : ℕ} (h : c.first ≤ r) :
    c.payloads (some (r + 1)) = c.payloads (some r) ++ c.payload (r + 1) := by
  have hlength : r + 1 + 1 - c.first = (r + 1 - c.first) + 1 := by omega
  have hlast : c.first + (r + 1 - c.first) = r + 1 := by omega
  simp only [payloads, hlength, range'_concat, flatMap_append, Nat.one_mul, hlast,
    flatMap_cons, flatMap_nil, append_nil]

theorem payloads_first : c.payloads (some c.first) = c.payload c.first := by
  have hlength : c.first + 1 - c.first = 1 := by omega
  simp [payloads, hlength]

/-- The bodies after the first one are no stream starts. -/
theorem toEventType_ne_streamstart {r : ℕ} (h : c.first < r) :
    toEventType (c.body r) ≠ .streamstart := by
  unfold toEventType
  rw [(c.addressed r h).1]
  split_ifs <;> simp_all

end Client

/-- The request is known to have been answered or taken: its id is not above the last id taken, or
not above the last id answered. -/
def State.Reached (s : State) (rid : ℕ) : Prop :=
  (∃ r, s.rid = some r ∧ rid ≤ r) ∨ ∃ l, s.lastProcessed = some l ∧ rid ≤ l

variable {sid : String} {c : Client sid} {conns : List (ℕ × ℕ)} {A near near' : ℕ → Prop}
  {r : Option ℕ} {F : List StreamEl} {D : List StreamEvent} {data : List StreamEl} {s s' : State}

/-- The last request taken is `r`, the elements `F` are forwarded and the requests in `D` wait;
handlers and cached responses are for ids that are `near`, and the client knows of the answers in
`A`. -/
structure At (c : Client sid) (conns : List (ℕ × ℕ)) (A near : ℕ → Prop) (r : Option ℕ)
    (F : List StreamEl) (D : List StreamEvent) (data : List StreamEl) (s : State) : Prop where
  sid : s.sid = sid
  jids : F ≠ [] →
    s.fromAttr = (c.body c.first).fromAttr ∧ s.toAttr = (c.body c.first).toAttr
  rid : s.rid = r
  deferred : s.deferred = D
  c2s : s.world.c2s = F
  wrappable : Wrappable (s.pending ++ data)
  handlers : ∀ h ∈ s.handlers, near h.rid ∧ (h.rid, h.pid) ∈ conns
  cached : ∀ c ∈ s.sent, near c.rid
  started : s.lastProcessed ≠ none → r ≠ none
  answered : ∀ rid pid w, (rid, pid) ∈ conns → (pid, .boshReply w) ∈ s.world.replies →
    s.Reached rid
  known : ∀ rid, A rid → s.Reached rid

/-- The connections of a client are told apart by their processes. -/
def Distinct (conns : List (ℕ × ℕ)) : Prop :=
  ∀ rid rid' pid, (rid, pid) ∈ conns → (rid', pid) ∈ conns → rid = rid'

variable {h : Handler} {rest : List Handler}

/-- What is reached stays reached when a response is made. -/
theorem Answered.reached {w : Response}
    (ha : Answered s h rest data w s') {rid : ℕ} (hreached : s.Reached rid) : s'.Reached rid := by
  rcases hreached with ⟨r, hr, hle⟩ | ⟨l, hl, hle⟩
  · exact .inl ⟨r, ha.rid.trans hr, hle⟩
  · refine .inr ⟨_, ha.lastProcessed, hle.trans ?_⟩
    rw [hl]
    exact le_max_right _ _

theorem Answered.reached_self {w : Response}
    (ha : Answered s h rest data w s') : s'.Reached h.rid := by
  refine .inr ⟨_, ha.lastProcessed, ?_⟩
  cases s.lastProcessed with
  | none => exact le_rfl
  | some l => exact le_max_left _ _

/-- Answering a handler, of those there are, keeps what is forwarded and deferred. -/
theorem At.answer (hconns : Distinct conns) (hnear : ∀ q, near q → r ≠ none) {w : Response}
    (hs : At c conns A near r F D data s) (hh : h ∈ s.handlers)
    (hrest : ∀ h' ∈ rest, h' ∈ s.handlers) (ha : Answered s h rest data w s') :
    At c conns A near r F D [] s' where
  sid := ha.sid.trans hs.sid
  jids hF := ⟨ha.fromAttr.trans (hs.jids hF).1, ha.toAttr.trans (hs.jids hF).2⟩
  rid := ha.rid.trans hs.rid
  deferred := ha.deferred.trans hs.deferred
  c2s := ha.c2s.trans hs.c2s
  wrappable := by
    rw [ha.pending, append_nil]
    exact hs.wrappable.heldBack
  handlers h' hh' := hs.handlers h' (hrest h' (ha.handlers ▸ hh'))
  cached x hx := by
    rw [ha.sent] at hx
    rcases mem_cacheUpTo hx with rfl | hx
    · exact (hs.handlers h hh).1
    · exact hs.cached x hx
  started _ := hnear h.rid (hs.handlers h hh).1
  answered rid pid w' hconn hreply := by
    rw [ha.replies, mem_append, mem_singleton] at hreply
    rcases hreply with hreply | heq
    · exact ha.reached (hs.answered rid pid w' hconn hreply)
    · obtain ⟨rfl, -⟩ := Prod.mk.inj heq
      rw [hconns rid h.rid h.pid hconn (hs.handlers h hh).2]
      exact ha.reached_self
  known rid hrid := ha.reached (hs.known rid hrid)

/-- **Sending keeps what is forwarded and deferred.** -/
theorem At.kept (hconns : Distinct conns) (hnear : ∀ q, near q → r ≠ none) :
    Kept (At c conns A near r F D) where
  answer {data s h rest w ns} hs hsort _ hwrap := by
    have hperm := hsort ▸ sortHandlers_perm s.handlers
    exact hs.answer hconns hnear (hperm.subset (by simp))
      (fun h' hh' => hperm.subset (mem_cons_of_mem h hh')) (answered_spec hwrap)
  store {data s} hs _ :=
    { sid := hs.sid, jids := hs.jids, rid := hs.rid, deferred := hs.deferred, c2s := hs.c2s
      wrappable := by
        rw [append_nil]
        exact hs.wrappable
      handlers := hs.handlers, cached := hs.cached, started := hs.started, answered := hs.answered
      known := hs.known }
  take {s} hs :=
    { sid := hs.sid, jids := hs.jids, rid := hs.rid, deferred := hs.deferred, c2s := hs.c2s
      wrappable := by
        rw [nil_append]
        simpa using hs.wrappable
      handlers := hs.handlers, cached := hs.cached, started := hs.started, answered := hs.answered
      known := hs.known }

theorem At.not_stuck (hnear : ∀ q, near q → r ≠ none) (e : Halt) :
    ¬ Stuck (At c conns A near r F D) e := by
  refine Bosh.not_stuck (fun data s hs hne => ⟨hs.wrappable.of_append_right, ?_⟩) e
  obtain ⟨h, hh⟩ := exists_mem_of_ne_nil _ hne
  rw [hs.rid]
  exact hnear h.rid (hs.handlers h hh).1

/-! ## Taking a request -/

/-- The event of a request of the client. -/
def Client.event (c : Client sid) (rid : ℕ) : StreamEvent := ⟨toEventType (c.body rid), c.body rid⟩

/-- The bodies that start, restart or pause the stream carry no elements. -/
def Client.Bare (c : Client sid) (rid : ℕ) : Prop :=
  toEventType (c.body rid) ∈ [EventTag.streamstart, .restart, .pause] → (c.body rid).elements = []

/-- A response that the client reports missing is still in the cache. -/
def Reportable (body : Body) (s : State) : Prop :=
  ∀ ack ∈ body.ack, ∀ last ∈ s.lastProcessed, ack < last → ∃ x ∈ s.sent, x.rid = ack + 1

variable {q : ℕ}

/-- **Processing a body of the client.** -/
theorem processStreamEvent_ends {take : State → Except Halt State} {P : State → Prop}
    {Q : Halt → Prop} (hconns : Distinct conns) (hq : c.first < q) (hbare : c.Bare q)
    (hF : F ≠ []) (hs : At c conns A near (some q) F D [] s)
    (hpause : toEventType (c.body q) = .pause → ∀ h ∈ s.handlers, h.rid ≤ q)
    (htake : ∀ s', At c conns A near (some q) (F ++ c.payload q) D [] s' →
    (toEventType (c.body q) ≠ .pause → s'.sent = s.sent ∧ s'.lastProcessed = s.lastProcessed) →
    Ends (take s') P Q)
    (hrefused : ∀ ts, ts.rid = some q → ts.world.c2s = F ++ c.payload q → Q (.invalidPause ts)) :
    Ends (processStreamEvent take (toEventType (c.body q)) (c.body q) s) P Q := by
  obtain ⟨hsid, hxmlns⟩ := c.addressed q hq
  obtain ⟨hfrom, hto⟩ := hs.jids hF
  -- the elements that are forwarded are the payload
  have hforward (els : List StreamEl) (hels : els = c.payload q)
      (htag : toEventType (c.body q) ≠ .pause) :
      Ends (take (els.foldl State.forwardToC2s s)) P Q := by
    rw [foldl_forwardToC2s]
    refine htake _ ?_ fun _ => ⟨rfl, rfl⟩
    exact { hs with jids := fun _ => ⟨hfrom, hto⟩, c2s := by rw [hs.c2s, hels] }
  unfold processStreamEvent
  cases htag : toEventType (c.body q) with
  | streamstart => exact absurd htag (c.toEventType_ne_streamstart hq)
  | restart =>
    have hbare' := hbare (by simp [htag])
    refine hforward _ ?_ (by simp [htag])
    rw [Client.payload, htag, hbare', hfrom, hto]
  | streamend =>
    simp only [boshUnwrap, hsid, hxmlns, hs.sid, and_self, if_true]
    refine hforward _ ?_ (by simp [htag])
    rw [Client.payload, htag]
  | normal =>
    simp only [boshUnwrap, hsid, hxmlns, hs.sid, and_self, if_true]
    refine hforward _ ?_ (by simp [htag])
    rw [Client.payload, htag]
  | pause =>
    have hempty : c.payload q = [] := by
      rw [Client.payload, htag]
      exact hbare (by simp [htag])
    rw [hempty, append_nil] at htake hrefused
    have hsome : (c.body q).pause.isSome := by
      unfold toEventType at htag
      split_ifs at htag
      assumption
    obtain ⟨seconds, hseconds⟩ := Option.isSome_iff_exists.1 hsome
    rw [hseconds, ends_bind]
    have hnear : ∀ p, near p → some q ≠ none := fun _ _ => by simp
    have hkept : Kept (At c conns A near (some q) F D) := At.kept hconns hnear
    refine (hkept.processPauseEvent { hs with }).mono
        (fun s' hs' => htake s' hs'.1 fun hne => absurd htag hne) ?_
    rintro e (hstuck | ⟨-, h, hh, hle⟩ | rfl)
    · exact absurd hstuck (At.not_stuck hnear e)
    · rw [hs.rid] at hle
      have := hpause htag h hh
      simp only [ridLe, decide_eq_false_iff_not] at hle
      exact absurd this hle
    · obtain ⟨replies, htold⟩ := foldl_tell_eq Handler.pid .policyViolation s.handlers s
      rw [htold]
      exact hrefused _ hs.rid hs.c2s

theorem mem_dropWhile_of_neg {α : Type*} {p : α → Bool} {x : α} {l : List α} (hx : x ∈ l)
    (hp : p x = false) : x ∈ l.dropWhile p := by
  induction l with
  | nil => cases hx
  | cons y l ih =>
    rw [dropWhile_cons]
    split
    · rename_i hy
      rcases mem_cons.1 hx with rfl | hx
      · rw [hp] at hy
        cases hy
      · exact ih hx
    · exact hx

theorem scheduleReport_ok {body : Body} {ack last : ℕ} (h : Reportable body s)
    (hack : body.ack = some ack) (hlast : s.lastProcessed = some last) (hlt : ack < last) :
    ∃ report, scheduleReport ack (maybeTrimCache (some ack) s) =
    .ok { maybeTrimCache (some ack) s with report := report } := by
  obtain ⟨x, hx, hrid⟩ := h ack hack last hlast hlt
  have hin : x ∈ (maybeTrimCache (some ack) s).sent := mem_dropWhile_of_neg hx (by simp [hrid])
  unfold scheduleReport
  cases hfind : (maybeTrimCache (some ack) s).sent.find? (·.rid = ack + 1) with
  | none =>
    have := find?_eq_none.1 hfind x hin
    simp [hrid] at this
  | some y =>
    dsimp only
    split
    · exact ⟨_, rfl⟩
    · exact ⟨_, rfl⟩

/-- The state in which a request is processed: it is the last one taken. -/
theorem At.taken (hs : At c conns A near r F D [] s) (hle : ∀ r', r = some r' → r' ≤ q)
    {sent : List CachedResponse} (hsent : ∀ x ∈ sent, x ∈ s.sent) (report : Option (ℕ × ℤ)) :
    At c conns A near (some q) F D [] { s with sent := sent, report := report, rid := some q } where
  sid := hs.sid
  jids := hs.jids
  rid := rfl
  deferred := hs.deferred
  c2s := hs.c2s
  wrappable := hs.wrappable
  handlers := hs.handlers
  cached x hx := hs.cached x (hsent x hx)
  started _ := by simp
  answered rid pid w hconn hreply := by
    rcases hs.answered rid pid w hconn hreply with ⟨r', hr', hrid⟩ | hlast
    · exact .inl ⟨q, rfl, hrid.trans (hle r' (hs.rid.symm.trans hr'))⟩
    · exact .inr hlast
  known rid hA := by
    rcases hs.known rid hA with ⟨r', hr', hrid⟩ | hlast
    · exact .inl ⟨q, rfl, hrid.trans (hle r' (hs.rid.symm.trans hr'))⟩
    · exact .inr hlast

/-- **Taking the request that comes next.** -/
theorem processAcked_ends {take : State → Except Halt State} {P : State → Prop}
    {Q : Halt → Prop} (hconns : Distinct conns) (hq : c.first < q) (hbare : c.Bare q)
    (hF : F ≠ []) (hs : At c conns A near r F D [] s) (hle : ∀ r', r = some r' → r' ≤ q)
    (hpause : toEventType (c.body q) = .pause → ∀ h ∈ s.handlers, h.rid ≤ q)
    (hreport : Reportable (c.body q) s)
    (htake : ∀ s', At c conns A near (some q) (F ++ c.payload q) D [] s' →
    (toEventType (c.body q) ≠ .pause →
      s'.sent = (maybeTrimCache (c.body q).ack s).sent ∧ s'.lastProcessed = s.lastProcessed) →
    Ends (take s') P Q)
    (hsend : ∀ s', P s' → Ends (maybeSendReport s') P Q)
    (hrefused : ∀ ts, ts.rid = some q → ts.world.c2s = F ++ c.payload q → Q (.invalidPause ts)) :
    Ends (processAckedStreamEvent take (c.event q) s) P Q := by
  have hrid : (c.event q).rid = q := c.rid_body q
  have hpos : 0 < q := Nat.zero_lt_of_lt hq
  have hset (s : State) : setRid s q = .ok { s with rid := some q } := if_pos hpos
  -- the part of the work that does not depend on a report
  have hprocess (ack : Option ℕ) (hack : ack = (c.body q).ack) (report : Option (ℕ × ℤ)) :
      Ends (processStreamEvent take (toEventType (c.body q)) (c.body q)
        { maybeTrimCache ack s with report := report, rid := some q }) P Q := by
    obtain ⟨sent, htrim, hsub⟩ := maybeTrimCache_eq ack s
    rw [htrim]
    refine processStreamEvent_ends hconns hq hbare hF (hs.taken hle hsub report) hpause
      (fun s' hs' hsame => htake s' hs' fun htag => ?_) hrefused
    rw [← hack, htrim]
    exact hsame htag
  unfold processAckedStreamEvent determineReportAction
  rw [hrid]
  cases hack : (c.body q).ack with
  | none =>
    have hbody : (c.event q).body.ack = none := hack
    rw [hbody]
    simp only [hset, bind, Except.bind]
    exact hprocess none hack.symm _
  | some ack =>
    have hbody : (c.event q).body.ack = some ack := hack
    rw [hbody]
    cases hlast : s.lastProcessed with
    | none =>
      simp only [hset, bind, Except.bind]
      exact hprocess (some ack) hack.symm _
    | some last =>
      by_cases hlt : ack < last
      · obtain ⟨report, hok⟩ := scheduleReport_ok hreport hack hlast hlt
        simp only [hlt, decide_true, hok, ends_bind, hset, ends_ok]
        exact (hprocess (some ack) hack.symm report).mono (fun s' hs' => hsend s' hs')
          fun e he => he
      · simp only [hlt, decide_false, hset, bind, Except.bind]
        exact hprocess (some ack) hack.symm _

/-! ## A request after the first -/

theorem At.mono (hs : At c conns A near r F D data s) (h : ∀ p, near p → near' p) :
    At c conns A near' r F D data s :=
  { hs with
      handlers := fun x hx => ⟨h _ (hs.handlers x hx).1, (hs.handlers x hx).2⟩
      cached := fun x hx => h _ (hs.cached x hx) }

variable {pid : ℕ}

theorem At.addHandler (hs : At c conns A near r F D data s) (tref : ℕ) (hq : near q)
    (hconn : (q, pid) ∈ conns) :
    At c conns A near r F D data (maybeAddHandler (some (pid, tref)) q s) where
  sid := hs.sid
  jids := hs.jids
  rid := hs.rid
  deferred := hs.deferred
  c2s := hs.c2s
  wrappable := hs.wrappable
  handlers h hh := by
    rcases mem_cons.1 hh with rfl | hh
    · exact ⟨hq, hconn⟩
    · exact hs.handlers h hh
  cached := hs.cached
  started := hs.started
  answered := hs.answered
  known := hs.known

theorem At.withDeferred (hs : At c conns A near r F D data s) (D' : List StreamEvent) :
    At c conns A near r F D' data { s with deferred := D' } :=
  { hs with deferred := rfl }

/-- A handler of a processed request gets a response from the cache. -/
theorem At.resend (hconns : Distinct conns) (hs : At c conns A near (some q) F D [] s)
    (w : Response) (hsort : sortHandlers s.handlers = h :: rest)
    (hle : ridLe h.rid s.rid) :
    At c conns A near (some q) F D [] (sendWrappedToHandler h.pid w { s with handlers := rest }) := by
  have hperm := hsort ▸ sortHandlers_perm s.handlers
  obtain ⟨tref, running, nextRef, hsend⟩ :=
    sendWrappedToHandler_eq h.pid w { s with handlers := rest }
  rw [hsend]
  refine { hs with
      handlers := fun h' hh' => hs.handlers h' (hperm.subset (mem_cons_of_mem h hh'))
      answered := fun rid pid w' hconn hreply => ?_ }
  rcases mem_append.1 hreply with hreply | heq
  · exact hs.answered rid pid w' hconn hreply
  · obtain ⟨rfl, -⟩ := Prod.mk.inj (mem_singleton.1 heq)
    rw [hconns rid h.rid h.pid hconn (hs.handlers h (hperm.subset (by simp))).2]
    rw [hs.rid] at hle
    exact .inl ⟨q, hs.rid, by simpa [ridLe] using hle⟩

/-- Between events: the bodies up to `r` have been forwarded, and copies of the body after the next
one may be deferred. -/
structure Settled (c : Client sid) (conns : List (ℕ × ℕ)) (A : ℕ → Prop) (r : ℕ)
    (D : List StreamEvent) (s : State) : Prop where
  first_le : c.first ≤ r
  state : At c conns A (Near r D) (some r) (c.payloads (some r)) D [] s
  deferred : ∀ e ∈ D, e = c.event (r + 2)

/-- The conditions on a request that comes next. -/
structure TakeOk (c : Client sid) (s : State) (q : ℕ) : Prop where
  /-- It has been deferred no more than once which request follows. -/
  once : s.deferred.length ≤ 1
  bare : c.Bare q ∧ ∀ e ∈ s.deferred, c.Bare e.rid
  /-- A pause is not taken while another request is deferred. -/
  alone : toEventType (c.body q) = .pause → s.deferred = []
  reportable : Reportable (c.body q) s ∧
    ∀ e ∈ s.deferred, Reportable e.body (maybeTrimCache (c.body q).ack s)

/-- The conditions on a request that reaches the session. -/
structure RequestOk (c : Client sid) (s : State) (q : ℕ) : Prop where
  resendable : (∃ x ∈ s.sent, x.rid = q) → ridLe q s.rid ∨ ∃ h ∈ s.handlers, ridLe h.rid s.rid
  /-- A request repeated after others have been taken is still in the cache. -/
  remembered : ∀ r ∈ s.rid, q < r → ∃ x ∈ s.sent, x.rid = q
  /-- When a deferred request has been answered before it is taken, none is sent past it. -/
  notAhead : ∀ r ∈ s.rid, ∀ last ∈ s.lastProcessed, r < last → q ≤ r + 2
  taken : isExpectedRid q (maybeAdd 1 s.rid) → TakeOk c s q

instance (body : Body) (s : State) : Decidable (Reportable body s) :=
  inferInstanceAs (Decidable (∀ ack ∈ body.ack, ∀ last ∈ s.lastProcessed, _ → _))

instance (c : Client sid) (rid : ℕ) : Decidable (c.Bare rid) :=
  inferInstanceAs (Decidable (_ → _))

instance (c : Client sid) (s : State) (q : ℕ) : Decidable (TakeOk c s q) :=
  decidable_of_iff (s.deferred.length ≤ 1 ∧ (c.Bare q ∧ ∀ e ∈ s.deferred, c.Bare e.rid) ∧
      (toEventType (c.body q) = .pause → s.deferred = []) ∧ Reportable (c.body q) s ∧
      ∀ e ∈ s.deferred, Reportable e.body (maybeTrimCache (c.body q).ack s))
    ⟨fun ⟨hlength, hbare, halone, hreport⟩ => ⟨hlength, hbare, halone, hreport⟩,
      fun h => ⟨h.once, h.bare, h.alone, h.reportable⟩⟩

instance (c : Client sid) (s : State) (q : ℕ) : Decidable (RequestOk c s q) :=
  decidable_of_iff (((∃ x ∈ s.sent, x.rid = q) → ridLe q s.rid ∨ ∃ h ∈ s.handlers, ridLe h.rid s.rid) ∧
      (∀ r ∈ s.rid, q < r → ∃ x ∈ s.sent, x.rid = q) ∧
      (∀ r ∈ s.rid, ∀ last ∈ s.lastProcessed, r < last → q ≤ r + 2) ∧
      (isExpectedRid q (maybeAdd 1 s.rid) → TakeOk c s q))
    ⟨fun ⟨hresend, hremembered, hahead, htaken⟩ => ⟨hresend, hremembered, hahead, htaken⟩,
      fun h => ⟨h.resendable, h.remembered, h.notAhead, h.taken⟩⟩

/-- What ends a session here: a pause that is too long. -/
def Refused (c : Client sid) (e : Halt) : Prop :=
  ∃ ts, e = .invalidPause ts ∧ ts.world.c2s = c.payloads ts.rid

theorem payloads_ne_nil (c : Client sid) (hq : c.first ≤ q) : c.payloads (some q) ≠ [] := by
  have hlength : q + 1 - c.first = (q - c.first) + 1 := by omega
  have hfirst : c.payload c.first ≠ [] := by
    rw [Client.payload, c.starts.1]
    exact cons_ne_nil _ _
  simp only [Client.payloads, hlength, range'_succ, flatMap_cons]
  exact append_ne_nil_of_left_ne_nil hfirst _

theorem At.returnSurplus (hconns : Distinct conns) (name : StateName)
    (hs : At c conns A near (some q) F D [] s) :
    Ends (returnSurplusHandlers name s) (At c conns A near (some q) F D []) (Refused c) := by
  have hnear : ∀ p, near p → some q ≠ none := fun _ _ => by simp
  exact ((At.kept hconns hnear).returnSurplusHandlers name hs).mono (fun _ h => h)
    fun e he => absurd he (At.not_stuck hnear e)

section

variable {name : StateName} (order : StreamEvent → StreamEvent → Bool) (hconns : Distinct conns)

include hconns

theorem takeOne_ends (hq : c.first ≤ q) (hbare : c.Bare (q + 1))
    (hreport : Reportable (c.body (q + 1)) s)
    (hs : At c conns A (· ≤ q + 1) (some q) (c.payloads (some q)) [] [] s) :
    Ends (handleStreamEvent order 1 (c.event (q + 1)) none name s)
    (At c conns A (· ≤ q + 1) (some (q + 1)) (c.payloads (some (q + 1))) [] []) (Refused c) := by
  have hlt : c.first < q + 1 := Nat.lt_succ_of_le hq
  have hnear : ∀ p, p ≤ q + 1 → some (q + 1) ≠ none := fun _ _ => by simp
  rw [handleStreamEvent_succ]
  unfold handleStreamEventWith
  rw [ends_bind]
  refine Ends.mono ?_ (fun s' hs' => At.returnSurplus hconns name hs') fun e he => he
  have hexpected : isExpectedRid (c.event (q + 1)).rid (maybeAdd 1 s.rid) := by
    rw [hs.rid]
    simp [isExpectedRid, maybeAdd, StreamEvent.rid, Client.event, c.rid_body, Nat.add_comm]
  rw [handleStreamEventClauses_expected _ hexpected (.inr rfl), maybeAddHandler]
  refine processAcked_ends hconns hlt hbare (payloads_ne_nil c hq) hs
    (by simp) (fun _ h hh => (hs.handlers h hh).1) hreport (fun s' hs' _ => ?_) (fun s' hs' => ?_)
    (fun ts hrid hc2s => ⟨ts, rfl, ?_⟩)
  · rw [processDeferredEvents, hs'.deferred]
    rw [← c.payloads_succ hq] at hs'
    exact hs'.withDeferred []
  · exact ((At.kept hconns hnear).maybeSendReport hs').mono (fun _ h => h)
      fun e he => absurd he (At.not_stuck hnear e)
  · rw [hrid, hc2s, c.payloads_succ hq]

/-- The deferred request, if there is one, is taken after the request `q`. -/
theorem takeDeferred_ends (hq : c.first ≤ q) (hD : D.length ≤ 1)
    (hevent : ∀ e ∈ D, e = c.event (q + 1)) (hbare : ∀ e ∈ D, c.Bare e.rid)
    (hreport : ∀ e ∈ D, Reportable e.body s)
    (hs : At c conns A (· ≤ q + D.length) (some q) (c.payloads (some q)) D [] s) :
    Ends (processDeferredEvents order D.length name s)
    (At c conns A (· ≤ q + D.length) (some (q + D.length)) (c.payloads (some (q + D.length))) [] [])
    (Refused c) := by
  unfold processDeferredEvents
  rw [hs.deferred]
  rcases D with _ | ⟨e, _ | ⟨_, _⟩⟩
  · exact hs.withDeferred []
  · obtain rfl := hevent e (by simp)
    have hbare' := hbare _ (mem_singleton.2 rfl)
    rw [StreamEvent.rid, Client.event, c.rid_body] at hbare'
    rw [insertionSort_cons, insertionSort_nil, orderedInsert_nil, foldlM_cons, ends_bind]
    refine (takeOne_ends (s := { s with deferred := [] }) order hconns hq hbare'
      (hreport _ (mem_singleton.2 rfl)) (hs.withDeferred [])).mono (fun s' hs' => hs')
      fun e he => he
  · simp at hD

/-- **The next request is taken**, and the one that was waiting for it. -/
theorem takeNext_ends
    {r tref : ℕ} (hconn : (r + 1, pid) ∈ conns)
    (hs : Settled c conns A r D s) (hok : TakeOk c s (r + 1)) :
    Ends (processAckedStreamEvent (processDeferredEvents order D.length name) (c.event (r + 1))
      (maybeAddHandler (some (pid, tref)) (r + 1) s))
    (At c conns A (· ≤ r + 1 + D.length) (some (r + 1 + D.length))
      (c.payloads (some (r + 1 + D.length))) [] []) (Refused c) := by
  have hlt : c.first < r + 1 := Nat.lt_succ_of_le hs.first_le
  have hD := hs.state.deferred
  have hwide : ∀ p, Near r D p → p ≤ r + 1 + D.length := by
    rintro p (hle | ⟨rfl, hne⟩)
    · omega
    · have := length_pos_iff.2 hne
      omega
  have hheld : At c conns A (· ≤ r + 1 + D.length) (some r) (c.payloads (some r)) D []
      (maybeAddHandler (some (pid, tref)) (r + 1) s) :=
    (hs.state.mono hwide).addHandler tref (by omega) hconn
  have hnear : ∀ p, p ≤ r + 1 + D.length → some (r + 1 + D.length) ≠ none := fun _ _ => by simp
  refine processAcked_ends hconns hlt hok.bare.1 (payloads_ne_nil c hs.first_le) hheld
    (by simp) (fun hpause h hh => ?_) hok.reportable.1 (fun s' hs' hsame => ?_)
    (fun s' hs' => ?_) (fun ts hrid hc2s => ⟨ts, rfl, ?_⟩)
  · have hnil : D = [] := hD.symm.trans (hok.alone hpause)
    have hle := (hheld.handlers h hh).1
    rw [hnil] at hle
    exact hle
  · rw [← c.payloads_succ hs.first_le] at hs'
    refine takeDeferred_ends order hconns (Nat.le_of_lt hlt) (hD ▸ hok.once) hs.deferred
      (fun e he => hok.bare.2 e (hD ▸ he)) (fun e he => ?_) hs'
    -- a request is deferred, so this one is no pause and has changed nothing but the cache
    have htag : toEventType (c.body (r + 1)) ≠ .pause := fun hpause => by
      rw [← hD, hok.alone hpause] at he
      cases he
    obtain ⟨hsent, hlast⟩ := hsame htag
    have hreport := hok.reportable.2 e (hD ▸ he)
    have htrim : (maybeTrimCache (c.body (r + 1)).ack s).lastProcessed = s.lastProcessed := by
      obtain ⟨sent, htrim, -⟩ := maybeTrimCache_eq (c.body (r + 1)).ack s
      rw [htrim]
    intro ack hack last hlast' hlt'
    have hsent' : s'.sent = (maybeTrimCache (c.body (r + 1)).ack s).sent := by
      rw [hsent]
      cases (c.body (r + 1)).ack <;> rfl
    rw [hsent']
    exact hreport ack hack last (htrim.trans (hlast.symm.trans hlast')) hlt'
  · exact ((At.kept hconns hnear).maybeSendReport hs').mono (fun _ h => h)
      fun e he => absurd he (At.not_stuck hnear e)
  · rw [hrid, hc2s, c.payloads_succ hs.first_le]

end

section

variable (order : StreamEvent → StreamEvent → Bool) (name : StateName) (hconns : Distinct conns)

include hconns

/-- **A request after the first one** is forwarded, with the one that waited for it, deferred or
answered again, unless the session ends at a pause that is too long. -/
theorem handleRequest_ends
    {r tref : ℕ} (hconn : (q, pid) ∈ conns) (hq : c.first < q)
    (hahead : q ≤ r + 2) (hs : Settled c conns A r D s) (hok : RequestOk c s q) :
    Ends (handleStreamEvent order (s.deferred.length + 1) (c.event q) (some (pid, tref)) name s)
    (fun s' => ∃ r' D', Settled c conns A r' D' s' ∧ ∀ a, Near r D a ∨ a = q → Near r' D' a)
    (Refused c) := by
  have hD := hs.state.deferred
  have hrid := hs.state.rid
  have hqrid : (c.event q).rid = q := c.rid_body q
  rw [handleStreamEvent_succ, hD]
  unfold handleStreamEventWith
  rw [ends_bind]
  -- what is left to do after the clauses is to return the surplus handlers
  have hsettle (r' : ℕ) (D' : List StreamEvent) {s' : State} (hfirst : c.first ≤ r')
      (hdeferred : ∀ e ∈ D', e = c.event (r' + 2))
      (hprogress : ∀ a, Near r D a ∨ a = q → Near r' D' a)
      (hs' : At c conns A (Near r' D') (some r') (c.payloads (some r')) D' [] s') :
      Ends (returnSurplusHandlers name s')
        (fun s' => ∃ r' D', Settled c conns A r' D' s' ∧ ∀ a, Near r D a ∨ a = q → Near r' D' a)
        (Refused c) :=
    (At.returnSurplus hconns name hs').mono
      (fun s'' hs'' => ⟨r', D', ⟨hfirst, hs'', hdeferred⟩, hprogress⟩) fun _ he => he
  have hretr := maybeIsRetransmission_spec q s.rid s.sent
  unfold handleStreamEventClauses
  rw [hqrid]
  have hprogress (hnear : Near r D q) : ∀ a, Near r D a ∨ a = q → Near r D a := by
    rintro a (ha | rfl)
    · exact ha
    · exact hnear
  match hcase : maybeIsRetransmission q s.rid s.sent with
  | some (some x) =>
    rw [hcase] at hretr
    obtain ⟨hmem, hxq⟩ := hretr
    have hnear : Near r D q := hxq ▸ hs.state.cached x hmem
    have hheld := hs.state.addHandler tref hnear hconn
    dsimp only
    cases hresend : resendCached x (maybeAddHandler (some (pid, tref)) q s) with
    | some nns =>
      obtain ⟨h, rest, hsort, hle, rfl⟩ := resendCached_eq_some.1 hresend
      exact hsettle r D hs.first_le hs.deferred (hprogress hnear) (hheld.resend hconns _ hsort hle)
    | none =>
      have hnone := resendCached_eq_none.1 hresend
      rcases hok.resendable ⟨x, hmem, hxq⟩ with hle | ⟨h, hh, hle⟩
      · have := hnone ⟨q, tref, pid⟩ (by simp [maybeAddHandler])
        exact absurd (hle.symm.trans this) (by simp)
      · have := hnone h (mem_cons_of_mem _ hh)
        exact absurd (hle.symm.trans this) (by simp)
  | some none =>
    rw [hcase, hrid] at hretr
    have hnear : Near r D q := .inl (Option.some.inj hretr.2).le
    exact hsettle r D hs.first_le hs.deferred (hprogress hnear) (hs.state.addHandler tref hnear hconn)
  | none =>
    rw [hcase, hrid] at hretr
    have hne : q ≠ r := fun heq => hretr.2 (by rw [heq])
    have hge : r < q := by
      by_contra hlt
      obtain ⟨x, hx, hxq⟩ := hok.remembered r hrid (by omega)
      exact hretr.1 x hx hxq
    have htag : (c.event q).tag ≠ .streamstart := c.toEventType_ne_streamstart hq
    dsimp only
    rw [if_neg htag, hrid]
    by_cases hnext : q = r + 1
    · subst hnext
      have hexpected : isExpectedRid (r + 1) (maybeAdd 1 (some r)) := by
        simp [isExpectedRid, maybeAdd, Nat.add_comm]
      rw [if_pos hexpected]
      refine (takeNext_ends order hconns hconn hs
        (hok.taken (by rw [hrid]; exact hexpected))).mono (fun s' hs' => ?_) fun _ he => he
      refine hsettle (r + 1 + D.length) [] ?_ ?_ ?_ (hs'.mono fun p hp => .inl hp)
      · have := hs.first_le
        omega
      · simp
      · rintro a ((ha | ⟨rfl, hDne⟩) | rfl)
        · exact .inl (by omega)
        · have := length_pos_iff.2 hDne
          exact .inl (by omega)
        · exact .inl (by omega)
    · obtain rfl : q = r + 2 := by omega
      have hexpected : ¬ isExpectedRid (r + 2) (maybeAdd 1 (some r)) := by
        simp [isExpectedRid, maybeAdd]
        omega
      have hacceptable : isAcceptableRid (r + 2) (maybeAdd 1 (some r)) := by
        simp [isAcceptableRid, maybeAdd, concurrentRequests]
        omega
      rw [if_neg hexpected, if_pos hacceptable]
      refine hsettle r (c.event (r + 2) :: D) hs.first_le ?_ ?_ ?_
      · rintro e he
        rcases mem_cons.1 he with rfl | he
        · rfl
        · exact hs.deferred e he
      · rintro a ((ha | ⟨rfl, -⟩) | rfl)
        · exact .inl ha
        · exact .inr ⟨rfl, by simp⟩
        · exact .inr ⟨rfl, by simp⟩
      · have hwide : ∀ p, Near r D p → Near r (c.event (r + 2) :: D) p := by
          rintro p (hp | ⟨rfl, -⟩)
          · exact .inl hp
          · exact .inr ⟨rfl, by simp⟩
        have hheld := (hs.state.mono hwide).addHandler tref (.inr ⟨rfl, by simp⟩) hconn
        have hdeferred : (maybeAddHandler (some (pid, tref)) (r + 2) s).deferred = D := hD
        rw [hdeferred]
        exact hheld.withDeferred _

/-! ## The first request -/

/-- **The request that makes the session** is forwarded as the start of a stream. -/
theorem handleStart_ends
    {tref : ℕ} {body : Body} (hconn : (c.first, pid) ∈ conns)
    (hbare : c.Bare c.first) (hbody : setMaxHold (c.body c.first) = some body)
    (hs : At c conns A (fun _ => False) none [] [] [] s) :
    Ends (handleStreamEvent order (s.deferred.length + 1) ⟨.streamstart, body⟩ (some (pid, tref))
      name s)
    (Settled c conns A c.first []) (Refused c) := by
  -- the hold of the body is the only thing that differs
  have hsame : body.rid = c.first ∧ body.fromAttr = (c.body c.first).fromAttr ∧
      body.toAttr = (c.body c.first).toAttr := by
    have hrid := c.rid_body c.first
    unfold setMaxHold at hbody
    split at hbody
    · cases hbody
    · cases hbody
      exact ⟨hrid, rfl, rfl⟩
    · cases hbody
      exact ⟨hrid, rfl, rfl⟩
    · cases hbody
  obtain ⟨hrid, hfrom, hto⟩ := hsame
  have hlast : s.lastProcessed = none := by
    by_contra hne
    exact hs.started hne rfl
  have hpayload : c.payload c.first = [streamStart body.fromAttr body.toAttr] := by
    rw [Client.payload, c.starts.1, hbare (by simp [c.starts.1]), hfrom, hto]
  have hevent : (StreamEvent.mk .streamstart body).rid = c.first := hrid
  rw [handleStreamEvent_succ]
  unfold handleStreamEventWith
  rw [ends_bind, hs.deferred]
  have hclauses (take : State → Except Halt State) :
      handleStreamEventClauses take ⟨.streamstart, body⟩ (some (pid, tref)) s =
        processAckedStreamEvent take ⟨.streamstart, body⟩
          (maybeAddHandler (some (pid, tref)) c.first s) := by
    have hretr := maybeIsRetransmission_spec c.first s.rid s.sent
    unfold handleStreamEventClauses
    dsimp only
    rw [if_pos rfl, hevent]
    match hcase : maybeIsRetransmission c.first s.rid s.sent with
    | some (some x) =>
      rw [hcase] at hretr
      exact (hs.cached x hretr.1).elim
    | some none =>
      rw [hcase, hs.rid] at hretr
      cases hretr.2
    | none => rfl
  rw [hclauses]
  have hset (s : State) : setRid s c.first = .ok { s with rid := some c.first } :=
    if_pos c.first_pos
  obtain ⟨sent, htrim, hsub⟩ := maybeTrimCache_eq body.ack
    (maybeAddHandler (some (pid, tref)) c.first s)
  have hheld : At c conns A (· ≤ c.first) none [] [] []
      (maybeAddHandler (some (pid, tref)) c.first s) :=
    (hs.mono fun p hp => hp.elim).addHandler tref (Nat.le_refl c.first) hconn
  have htaken : At c conns A (· ≤ c.first) (some c.first) [] [] []
      { maybeAddHandler (some (pid, tref)) c.first s with
        sent := sent, report := s.report, rid := some c.first } :=
    hheld.taken (by simp) hsub _
  have hreport : determineReportAction body.ack
      (maybeAddHandler (some (pid, tref)) c.first s).lastProcessed = (false, body.ack) := by
    have hnone : (maybeAddHandler (some (pid, tref)) c.first s).lastProcessed = none := hlast
    rw [hnone]
    cases body.ack <;> rfl
  unfold processAckedStreamEvent
  simp only [hreport, htrim, hevent, hset, bind, Except.bind, processStreamEvent, boshUnwrap,
    foldl_forwardToC2s]
  rw [processDeferredEvents]
  have hdeferred : (maybeAddHandler (some (pid, tref)) c.first s).deferred = [] := hs.deferred
  rw [hdeferred]
  have hstarted : c.payloads (some c.first) = [streamStart body.fromAttr body.toAttr] := by
    rw [c.payloads_first, hpayload]
  have hsettle (s' : State)
      (hs' : At c conns A (Near c.first []) (some c.first) (c.payloads (some c.first)) [] [] s') :
      Ends (returnSurplusHandlers name s') (Settled c conns A c.first []) (Refused c) :=
    (At.returnSurplus hconns name hs').mono (fun s'' hs'' => ⟨le_refl _, hs'', by simp⟩)
      fun e he => he
  refine hsettle _ ?_
  exact
    { sid := hs.sid
      jids := fun _ => ⟨hfrom, hto⟩
      rid := rfl
      deferred := rfl
      c2s := by
        rw [hstarted]
        exact congrArg (· ++ _) htaken.c2s
      wrappable := htaken.wrappable
      handlers := fun h hh => ⟨.inl (htaken.handlers h hh).1, (htaken.handlers h hh).2⟩
      cached := fun x hx => .inl (htaken.cached x hx)
      started := fun _ => by simp
      answered := htaken.answered
      known := htaken.known }

end

end MongooseIM.Bosh
