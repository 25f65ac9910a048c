import MongooseIM.Bosh.Responses

/-! # Answering requests in order

`Stage S n strict near r D data s` says of a session that handles a request how far it is: the
request `r` is the last one taken, those in `D` are deferred, the open requests are `near`, and no
more than `n` of them can be answered. Sending keeps it (`Stage.kept`), taking a request makes one
more request answerable (`Stage.advance`), and returning the surplus handlers makes room again
(`Stage.returnSurplus`). `Between` is the session between two events; `Between.request` and
`Between.start` are what a request does to it. -/

namespace MongooseIM.Bosh

open Transition List

variable {S data : List StreamEl} {n : ℕ} {strict : Bool} {near : ℕ → Prop} {r : Option ℕ}
  {D : List StreamEvent} {s s' : State}

/-- The failures of a request: a crash, or a session that ends with its responses in order. -/
def Halted (S : List StreamEl) (e : Halt) : Prop :=
  ∀ ts, e = .invalidRid ts ∨ e = .invalidPause ts → Carrying S [] ts

/-- The request `r` is the last one taken and those in `D` are deferred; the open requests are
`near`, and there is room. -/
structure Stage (S : List StreamEl) (n : ℕ) (strict : Bool) (near : ℕ → Prop) (r : Option ℕ)
    (D : List StreamEvent) (data : List StreamEl) (s : State) : Prop where
  carrying : Carrying S data s
  room : Room n strict data s
  near : ∀ h ∈ s.handlers, near h.rid
  rid : s.rid = r
  deferred : s.deferred = D

theorem Stage.kept : Kept (Stage S n strict near r D) where
  answer h hsort hle hwrap := have ha := answered_spec hwrap
    ⟨Carrying.kept.answer h.carrying hsort hle hwrap, (Room.kept n strict).answer h.room hsort hle hwrap,
      (Kept.handlers fun h => near h.rid).answer h.near hsort hle hwrap, ha.rid.trans h.rid,
      ha.deferred.trans h.deferred⟩
  store h hnone :=
    ⟨Carrying.kept.store h.carrying hnone, (Room.kept n strict).store h.room hnone, h.near, h.rid,
      h.deferred⟩
  take h := ⟨Carrying.kept.take h.carrying, (Room.kept n strict).take h.room, h.near, h.rid,
    h.deferred⟩

/-- What handlers are told that is no response does not count. -/
theorem Carrying.tell (h : Carrying S data s) {pid : Handler → ℕ} {info : Info}
    {l : List Handler} (hinfo : ∀ w, info ≠ .boshReply w) :
    Carrying S data (l.foldl (fun s h => s.tell (pid h) info) s) := by
  have hreply {p : ℕ} {w : Response}
      (hw : (p, .boshReply w) ∈ (l.foldl (fun s h => s.tell (pid h) info) s).world.replies) :
      (p, .boshReply w) ∈ s.world.replies := boshReply_mem_foldl_tell hinfo hw
  obtain ⟨replies, hfold⟩ := foldl_tell_eq pid info l s
  rw [hfold] at hreply ⊢
  exact { h with genuine := fun pid w hw => h.genuine pid w (hreply hw) }

theorem Carrying.drop (h : Carrying S data s) : Carrying S data { s with handlers := [] } :=
  { h with
      above := (fun _ _ _ hh => nomatch hh)
      distinct := nodup_nil
      opened := fun hne => absurd rfl hne }

/-- Handlers that are told something and dropped leave the responses as they are. -/
theorem Carrying.told (h : Carrying S data { s with handlers := [] }) {pid : Handler → ℕ}
    {info : Info} {l : List Handler} (hinfo : ∀ w, info ≠ .boshReply w) :
    Carrying S data { l.foldl (fun s h => s.tell (pid h) info) s with handlers := [] } := by
  have hreply {p : ℕ} {w : Response}
      (hw : (p, .boshReply w) ∈ (l.foldl (fun s h => s.tell (pid h) info) s).world.replies) :
      (p, .boshReply w) ∈ s.world.replies := boshReply_mem_foldl_tell hinfo hw
  obtain ⟨replies, hfold⟩ := foldl_tell_eq pid info l s
  rw [hfold] at hreply ⊢
  exact { h with genuine := fun pid w hw => h.genuine pid w (hreply hw) }

theorem halted_crash : Halted S .crash := by
  rintro ts (h | h) <;> cases h

theorem halted_stuck {I : List StreamEl → State → Prop} {e : Halt} (h : Stuck I e) :
    Halted S e := by
  obtain ⟨rfl, -⟩ := h
  exact halted_crash

/-- **Processing a request** sends no elements but those in hand. -/
theorem Stage.processStreamEvent {take : State → Except Halt State} {P : State → Prop}
    (hs : Stage S n strict near r D [] s)
    (htake : ∀ s', Stage S n strict near r D [] s' → Ends (take s') P (Halted S)) (tag : EventTag)
    (body : Body) : Ends (processStreamEvent take tag body s) P (Halted S) := by
  have hc := hs.carrying
  refine processStreamEvent_forward halted_crash (fun seconds _ _ => ?_) fun _ _ _ _ _ _ _ => ?_
  · rw [ends_bind]
    refine (Stage.kept.processPauseEvent (I := Stage S n strict near r D) ⟨{ hc with },
      hs.room, hs.near, hs.rid, hs.deferred⟩).mono (fun s' hs' => htake s' hs'.1) ?_
    rintro e (hstuck | ⟨rfl, -⟩ | rfl)
    · exact halted_stuck hstuck
    · exact halted_crash
    · rintro ts (h | h)
      · cases h
      · obtain rfl := Halt.invalidPause.inj h
        exact hc.drop.told (by simp)
  · exact htake _ ⟨{ hc with }, hs.room, hs.near, hs.rid, hs.deferred⟩

/-- Elements with one of two properties are no more than those with the one and with the other. -/
theorem countP_le_add {α : Type*} {l : List α} {p : α → Bool} (p' p'' : α → Bool)
    (h : ∀ a, p a → p' a ∨ p'' a) : l.countP p ≤ l.countP p' + l.countP p'' := by
  induction l with
  | nil => exact Nat.le_refl 0
  | cons a l ih =>
    have ha := h a
    simp only [countP_cons]
    split_ifs <;> first | omega | simp_all

variable {q : ℕ}

/-- Taking the request that comes next makes one more open request answerable. -/
theorem Stage.advance (hs : Stage S n strict near r D [] s) (hle : ∀ r' ∈ r, r' < q)
    (hnext : ∀ p, p ≤ q → p ≠ q → ridLe p r) {sent : List CachedResponse}
    (hsent : ∀ x ∈ sent, x ∈ s.sent) (report : Option (ℕ × ℤ)) :
    Stage S (n + 1) strict near (some q) D []
    { s with sent := sent, report := report, rid := some q } := by
  have hc := hs.carrying
  refine ⟨{ hc with
      taken := ?_
      opened := fun _ => by simp
      cached := fun x hx => hc.cached x (hsent x hx) }, ?_,
    hs.near, rfl, hs.deferred⟩
  · intro p hp
    obtain ⟨r', hr', hpr⟩ := hc.taken p hp
    exact ⟨q, rfl, hpr.trans (hle r' (hs.rid ▸ hr')).le⟩
  · -- no more than one handler has the id that is taken
    have hready : ready { s with sent := sent, report := report, rid := some q } ≤ ready s + 1 := by
      show (s.handlers.filter fun h => ridLe h.rid (some q)).length ≤
        (s.handlers.filter fun h => ridLe h.rid s.rid).length + 1
      rw [← countP_eq_length_filter, ← countP_eq_length_filter]
      refine (countP_le_add (fun h => ridLe h.rid s.rid) (fun h => h.rid == q)
        fun h hle' => ?_).trans (Nat.add_le_add_left ?_ _)
      · by_cases heq : h.rid = q
        · exact .inr (by simpa using heq)
        · exact .inl (hs.rid ▸ hnext h.rid (by simpa [ridLe] using hle') heq)
      · have hcount := nodup_iff_count_le_one.1 hc.distinct q
        rwa [count, countP_map] at hcount
    have hroom := hs.room
    refine ⟨hready.trans (Nat.succ_le_succ hroom.1), fun hstrict hn => ?_⟩
    exact hroom.2 hstrict (Nat.le_of_succ_le_succ (hn.trans hready))

variable {event : StreamEvent}

/-- **Taking a request**, from a state that is in order once its id is the last one taken. -/
theorem processAcked_stage {take : State → Except Halt State} {P : State → Prop}
    (hs : ∀ sent report, (∀ x ∈ sent, x ∈ s.sent) → Stage S n strict near (some event.rid) D []
      { s with sent := sent, report := report, rid := some event.rid })
    (htake : ∀ s', Stage S n strict near (some event.rid) D [] s' → Ends (take s') P (Halted S))
    (hsend : ∀ s', P s' → Ends (maybeSendReport s') P (Halted S)) :
    Ends (processAckedStreamEvent take event s) P (Halted S) :=
  processAckedStreamEvent_ends halted_crash (fun sent report hsub =>
    (hs sent report hsub).processStreamEvent htake event.tag event.body) hsend

theorem Stage.returnSurplus (name : StateName) (hn : 1 ≤ n)
    (hs : Stage S (n + 1) (name = .normal) near r D [] s) :
    Ends (returnSurplusHandlers name s) (Stage S n (name = .normal) near r D []) (Halted S) := by
  refine ((Stage.kept.returnSurplusHandlers name hs).and
    (returnSurplusHandlers_room name hn hs.room)).mono (fun s' hs' => ?_) fun e he =>
      halted_stuck he.1
  exact { hs'.1 with room := hs'.2 }

theorem Stage.report (hs : Stage S n strict near r D [] s) :
    Ends (maybeSendReport s) (Stage S n strict near r D []) (Halted S) :=
  (Stage.kept.maybeSendReport hs).mono (fun _ h => h) fun _ he => halted_stuck he

theorem Stage.withDeferred (hs : Stage S n strict near r D data s) (D' : List StreamEvent) :
    Stage S n strict near r D' data { s with deferred := D' } := by
  have hc := hs.carrying
  exact ⟨{ hc with }, hs.room, hs.near, hs.rid, rfl⟩

theorem ridLe_of_lt_succ {p : ℕ} (hle : p ≤ q + 1) (hne : p ≠ q + 1) : ridLe p (some q) := by
  have : p ≤ q := by omega
  simpa [ridLe] using this

variable {name : StateName}

theorem Stage.takeOne (order : StreamEvent → StreamEvent → Bool)
    {e : StreamEvent} (hs : Stage S 2 (name = .normal) near (some q) [] [] s)
    (hrid : e.rid = q + 1) :
    Ends (handleStreamEvent order 1 e none name s)
    (Stage S 2 (name = .normal) near (some (q + 1)) [] []) (Halted S) := by
  rw [handleStreamEvent_succ]
  unfold handleStreamEventWith
  rw [ends_bind]
  refine Ends.mono ?_ (fun s' hs' => Stage.returnSurplus name (by omega) hs') fun e he => he
  have hexpected : isExpectedRid e.rid (maybeAdd 1 s.rid) := by
    rw [hs.rid, hrid]
    simp [isExpectedRid, maybeAdd, Nat.add_comm]
  rw [handleStreamEventClauses_expected _ hexpected (.inr rfl), maybeAddHandler]
  have hadvance : ∀ sent report, (∀ x ∈ sent, x ∈ s.sent) →
      Stage S 3 (name = .normal) near (some e.rid) [] []
        { s with sent := sent, report := report, rid := some e.rid } := fun sent report hsent =>
    hrid ▸ hs.advance (by simp) (fun p => ridLe_of_lt_succ) hsent report
  refine processAcked_stage hadvance (fun s' hs' => ?_) fun s' hs' => hs'.report
  rw [processDeferredEvents, hs'.deferred]
  exact hrid ▸ hs'.withDeferred []

/-- The deferred request, if there is one, is taken after the request `q`. -/
theorem Stage.takeDeferred (order : StreamEvent → StreamEvent → Bool)
    (hs : Stage S 2 (name = .normal) near (some q) D [] s) (hD : D.length ≤ 1)
    (hevent : ∀ e ∈ D, e.rid = q + 1) :
    Ends (processDeferredEvents order D.length name s)
    (Stage S 2 (name = .normal) near (some (q + D.length)) [] []) (Halted S) := by
  unfold processDeferredEvents
  rw [hs.deferred]
  rcases D with _ | ⟨e, _ | ⟨_, _⟩⟩
  · exact hs.withDeferred []
  · have hrid := hevent e (mem_singleton.2 rfl)
    rw [insertionSort_cons, insertionSort_nil, orderedInsert_nil, foldlM_cons, ends_bind]
    exact (Stage.takeOne order (hs.withDeferred []) hrid).mono (fun s' hs' => hs') fun e he => he
  · simp at hD

/-- A session between events. The open requests are no later than the last one taken, or that of
the deferred request, of which there is one at most. -/
structure Between (S : List StreamEl) (strict : Bool) (r : Option ℕ) (D : List StreamEvent)
    (s : State) : Prop where
  stage : Stage S 1 strict (fun p => ∃ q ∈ r, Near q D p) r D [] s
  alone : D.length ≤ 1
  deferred : ∀ e ∈ D, ∃ q ∈ r, e.rid = q + 2

/-- The condition on a request: it is sent again only when its response is in the cache. -/
def RepeatOk (s : State) (rid : ℕ) : Prop :=
  some rid = s.rid ∨ (∃ e ∈ s.deferred, e.rid = rid) → ∃ x ∈ s.sent, x.rid = rid

instance (s : State) (rid : ℕ) : Decidable (RepeatOk s rid) :=
  inferInstanceAs (Decidable (_ → _))

variable {pid tref : ℕ} {near' : ℕ → Prop}

/-- A request whose id no response or open request has is held. -/
theorem Stage.hold (hs : Stage S n strict near (some q) D [] s)
    (hmono : ∀ p, near p → near' p) {rid : ℕ} (hlt : q < rid) (hnear : near' rid)
    (hnew : ∀ h ∈ s.handlers, h.rid ≠ rid) :
    Stage S n strict near' (some q) D [] (maybeAddHandler (some (pid, tref)) rid s) := by
  have hc := hs.carrying
  refine ⟨{ hc with
      above := ?_
      distinct := ?_
      opened := fun _ => by rw [maybeAddHandler, hs.rid]; simp }, ?_, ?_, hs.rid, hs.deferred⟩
  · intro p hp h hh
    rcases mem_cons.1 hh with rfl | hh
    · obtain ⟨r', hr', hle⟩ := hc.taken p hp
      cases (hs.rid.symm.trans hr')
      exact hle.trans_lt hlt
    · exact hc.above p hp h hh
  · refine nodup_cons.2 ⟨fun hmem => ?_, hc.distinct⟩
    obtain ⟨h, hh, heq⟩ := mem_map.1 hmem
    exact hnew h hh heq
  · -- the request has not been taken
    have hready : ready (maybeAddHandler (some (pid, tref)) rid s) = ready s := by
      have hle : ridLe rid s.rid = false := by
        rw [hs.rid]
        simpa [ridLe] using hlt
      show ((Handler.mk rid tref pid :: s.handlers).filter fun h => ridLe h.rid s.rid).length = _
      rw [filter_cons_of_neg (by simp [hle])]
      rfl
    have hroom := hs.room
    unfold Room at hroom ⊢
    rw [hready]
    exact hroom
  · intro h hh
    rcases mem_cons.1 hh with rfl | hh
    · exact hnear
    · exact hmono _ (hs.near h hh)

/-- **A cached response** goes to the request that is repeated, since it is the earliest one. -/
theorem Stage.resend (hs : Stage S n strict near (some q) D [] s) {x : CachedResponse}
    (hx : x ∈ s.sent) (pid tref : ℕ) :
    ∃ s', resendCached x (maybeAddHandler (some (pid, tref)) x.rid s) = some s' ∧
    Stage S n strict near (some q) D [] s' := by
  have hc := hs.carrying
  have hproduced := hc.cached x hx
  have habove := hc.above _ hproduced
  obtain ⟨r', hr', hle⟩ := hc.taken _ hproduced
  have hrid : ridLe x.rid s.rid := by simpa [hr', ridLe] using hle
  have hperm := sortHandlers_perm (maybeAddHandler (some (pid, tref)) x.rid s).handlers
  cases hresend : resendCached x (maybeAddHandler (some (pid, tref)) x.rid s) with
  | none =>
    have hnone := resendCached_eq_none.1 hresend ⟨x.rid, tref, pid⟩ mem_cons_self
    exact absurd (hrid.symm.trans hnone) (by simp)
  | some s' =>
    obtain ⟨h, rest, hsort, -, rfl⟩ := resendCached_eq_some.1 hresend
    rw [hsort] at hperm
    have hfirst : h = ⟨x.rid, tref, pid⟩ := by
      have hmem : h ∈ Handler.mk x.rid tref pid :: s.handlers := hperm.subset mem_cons_self
      rcases mem_cons.1 hmem with heq | hmem
      · exact heq
      · -- the repeated request would come later than an open one
        have hin : Handler.mk x.rid tref pid ∈ h :: rest := hperm.symm.subset mem_cons_self
        rcases mem_cons.1 hin with heq | hin
        · exact heq.symm
        · exact absurd (rid_le_of_sorted hsort hin) (Nat.not_le_of_lt (habove h hmem))
    subst hfirst
    have hrest : rest.Perm s.handlers := hperm.cons_inv
    obtain ⟨tref', running, nextRef, hsend⟩ := sendWrappedToHandler_eq pid x.body
      { maybeAddHandler (some (pid, tref)) x.rid s with handlers := rest }
    refine ⟨_, rfl, ?_⟩
    rw [hsend]
    refine ⟨{ hc with
        above := fun p hp h hh => hc.above p hp h (hrest.subset hh)
        distinct := (hrest.map Handler.rid).nodup_iff.2 hc.distinct
        opened := fun _ => ?_
        genuine := ?_ }, ?_, fun h hh => hs.near h (hrest.subset hh), hs.rid,
      hs.deferred⟩
    · show s.rid ≠ none
      simp [hr']
    · intro pid' w hw
      rcases mem_append.1 hw with hw | hw
      · exact hc.genuine pid' w hw
      · obtain ⟨-, hinfo⟩ := Prod.mk.inj (mem_singleton.1 hw)
        obtain rfl := Info.boshReply.inj hinfo
        exact ⟨x.rid, hproduced⟩
    · have hready := (hrest.filter fun h => ridLe h.rid s.rid).length_eq
      have hroom := hs.room
      unfold Room ready at hroom ⊢
      dsimp only [maybeAddHandler]
      rw [hready]
      exact hroom

theorem Stage.mono (hs : Stage S n strict near r D data s)
    (h : ∀ p, near p → near' p) : Stage S n strict near' r D data s :=
  { hs with near := fun h' hh' => h _ (hs.near h' hh') }

theorem Stage.succ (hs : Stage S n strict near r D data s) :
    Stage S (n + 1) strict near r D data s :=
  { hs with room := hs.room.succ }

theorem Carrying.unanswered (h : Carrying S data s) (hrid : s.rid = none) :
    s.world.produced = [] ∧ s.sent = [] := by
  have hproduced : s.world.produced = [] := by
    refine eq_nil_iff_forall_not_mem.2 fun p hp => ?_
    obtain ⟨r', hr', -⟩ := h.taken p hp
    exact absurd (hrid.symm.trans hr') (by simp)
  refine ⟨hproduced, eq_nil_iff_forall_not_mem.2 fun x hx => ?_⟩
  have := h.cached x hx
  rw [hproduced] at this
  cases this

/-- Before the first request no request is open or deferred. -/
theorem Between.fresh (hs : Between S strict none D s) : s.handlers = [] ∧ D = [] := by
  constructor
  · refine eq_nil_iff_forall_not_mem.2 fun h hh => ?_
    obtain ⟨q, hq, -⟩ := hs.stage.near h hh
    cases hq
  · refine eq_nil_iff_forall_not_mem.2 fun e he => ?_
    obtain ⟨q, hq, -⟩ := hs.deferred e he
    cases hq

/-- The clauses of a request leave one request too many at most, and the surplus is returned. -/
theorem Stage.settle
    (hs : Stage S 2 (name = .normal) (Near q D) (some q) D [] s) (halone : D.length ≤ 1)
    (hdeferred : ∀ e ∈ D, e.rid = q + 2) :
    Ends (returnSurplusHandlers name s) (fun s' => ∃ r D, Between S (name = .normal) r D s')
    (Halted S) := by
  refine (Stage.returnSurplus name (Nat.le_refl 1) hs).mono (fun s' hs' => ?_) fun e he => he
  exact ⟨some q, D, ⟨hs'.mono fun p hp => ⟨q, rfl, hp⟩, halone, fun e he => ⟨q, rfl, hdeferred e he⟩⟩⟩

section

variable (order : StreamEvent → StreamEvent → Bool)

/-- **The next request is taken**, and the one that was waiting for it. -/
theorem Stage.takeNext (hs : Stage S 1 (name = .normal) (Near q D) (some q) D [] s)
    (hrid : event.rid = q + 1) (halone : D.length ≤ 1) (hdeferred : ∀ e ∈ D, e.rid = q + 2) :
    Ends (processAckedStreamEvent (processDeferredEvents order D.length name) event
      (maybeAddHandler (some (pid, tref)) event.rid s))
    (Stage S 2 (name = .normal) (· ≤ q + 1 + D.length) (some (q + 1 + D.length)) [] [])
    (Halted S) := by
  have hwide : ∀ p, Near q D p → p ≤ q + 1 + D.length := by
    rintro p (hle | ⟨rfl, hne⟩)
    · omega
    · have := length_pos_iff.2 hne
      omega
  have hnew : ∀ h ∈ s.handlers, h.rid ≠ event.rid := by
    intro h hh
    rcases hs.near h hh with hle | ⟨heq, -⟩ <;> omega
  have hheld : Stage S 1 (name = .normal) (· ≤ q + 1 + D.length) (some q) D []
      (maybeAddHandler (some (pid, tref)) event.rid s) :=
    hs.hold hwide (by omega) (by omega) hnew
  have hadvance : ∀ sent report,
      (∀ x ∈ sent, x ∈ (maybeAddHandler (some (pid, tref)) event.rid s).sent) →
      Stage S 2 (name = .normal) (· ≤ q + 1 + D.length) (some event.rid) D []
        { maybeAddHandler (some (pid, tref)) event.rid s with
          sent := sent, report := report, rid := some event.rid } := fun sent report hsent =>
    hrid ▸ hheld.advance (by simp) (fun p => ridLe_of_lt_succ) hsent report
  refine processAcked_stage hadvance (fun s' hs' => ?_) fun s' hs' => hs'.report
  rw [hrid] at hs'
  exact hs'.takeDeferred order halone fun e he => hdeferred e he

/-- **A request after the first one.** -/
theorem Between.request (hs : Between S (name = .normal) r D s)
    (hok : RepeatOk s event.rid) (htag : event.tag ≠ .streamstart) :
    Ends (handleStreamEvent order (s.deferred.length + 1) event (some (pid, tref)) name s)
    (fun s' => ∃ r D, Between S (name = .normal) r D s') (Halted S) := by
  have hc := hs.stage.carrying
  have hD := hs.stage.deferred
  rw [handleStreamEvent_succ, hD]
  unfold handleStreamEventWith
  rw [ends_bind]
  refine Ends.mono (P := fun s' => Ends (returnSurplusHandlers name s')
    (fun s' => ∃ r D, Between S (name = .normal) r D s') (Halted S)) ?_ (fun s' hs' => hs')
    fun e he => he
  -- a request that is out of order ends the session
  have hinvalid : Halted S (.invalidRid { (sortHandlers (maybeAddHandler (some (pid, tref)) event.rid
      s).handlers).foldl (fun s h => s.tell h.pid .itemNotFound)
      (maybeAddHandler (some (pid, tref)) event.rid s) with handlers := [] }) := by
    rintro ts (h | h)
    · obtain rfl := Halt.invalidRid.inj h
      have hinfo : ∀ w, Info.itemNotFound ≠ .boshReply w := by simp
      have hdrop : Carrying S []
          { maybeAddHandler (some (pid, tref)) event.rid s with handlers := [] } := hc.drop
      exact hdrop.told hinfo
    · cases h
  cases r with
  | none =>
    have hrid := hs.stage.rid
    refine handleStreamEventClauses_ends (fun _ x hx _ => ?_) (fun _ _ heq => ?_)
      (fun hexpected => ?_) (fun q hq => ?_) hinvalid
    · rw [(hc.unanswered hrid).2] at hx
      cases hx
    · rw [hrid] at heq
      cases heq
    · rcases hexpected with hstart | ⟨q, hq, -⟩
      · exact absurd hstart htag
      · rw [hrid] at hq
        cases hq
    · rw [hrid] at hq
      cases hq
  | some q =>
    have hstage : Stage S 1 (name = .normal) (Near q D) (some q) D [] s := by
      refine hs.stage.mono fun p hp => ?_
      obtain ⟨q', hq', hp⟩ := hp
      exact Option.some.inj hq' ▸ hp
    have hdeferred : ∀ e ∈ D, e.rid = q + 2 := by
      intro e he
      obtain ⟨q', hq', he⟩ := hs.deferred e he
      exact Option.some.inj hq' ▸ he
    have hrid : s.rid = some q := hstage.rid
    refine handleStreamEventClauses_ends (fun _ x hx heq => ?_) (fun _ hsent heq => ?_)
      (fun hexpected => ?_) (fun q' hq' hearly hsent => ?_) hinvalid
    · obtain ⟨s', hresend, hs'⟩ := hstage.resend hx pid tref
      rw [← heq, hresend]
      exact hs'.succ.settle hs.alone hdeferred
    · obtain ⟨x, hx, hxrid⟩ := hok (.inl heq)
      exact absurd hxrid (hsent x hx)
    · have hnext : event.rid = q + 1 := by
        rcases hexpected with hstart | ⟨q', hq', hnext⟩
        · exact absurd hstart htag
        · cases (hrid.symm.trans hq')
          exact hnext
      refine (hstage.takeNext order hnext hs.alone hdeferred).mono (fun s' hs' => ?_) fun e he => he
      exact (hs'.mono fun p hp => .inl hp).settle (by simp) (by simp)
    · cases (hrid.symm.trans hq')
      -- no copy of the request is deferred, since it is not in the cache
      have hnil : D = [] := by
        refine eq_nil_iff_forall_not_mem.2 fun e he => ?_
        obtain ⟨x, hx, heq⟩ := hok (.inr ⟨e, hD ▸ he, (hdeferred e he).trans hearly.symm⟩)
        exact hsent (by simp) x hx heq
      subst hnil
      have hnew : ∀ h ∈ s.handlers, h.rid ≠ event.rid := by
        intro h hh
        rcases hstage.near h hh with hle | ⟨-, hne⟩
        · omega
        · exact absurd rfl hne
      have hheld : Stage S 1 (name = .normal) (Near q [event]) (some q) [] []
          (maybeAddHandler (some (pid, tref)) event.rid s) := by
        refine hstage.hold (fun p hp => ?_) (by omega) (.inr ⟨hearly, by simp⟩) hnew
        rcases hp with hle | ⟨-, hne⟩
        · exact .inl hle
        · exact absurd rfl hne
      have hadded : (maybeAddHandler (some (pid, tref)) event.rid s).deferred = [] := hD
      rw [hadded]
      exact (hheld.withDeferred [event]).succ.settle (by simp) (by simpa using hearly)

/-- **The first request** is taken at once. -/
theorem Between.start (hs : Between S (name = .normal) none D s) (htag : event.tag = .streamstart) :
    Ends (handleStreamEvent order (s.deferred.length + 1) event (some (pid, tref)) name s)
    (fun s' => ∃ r D, Between S (name = .normal) r D s') (Halted S) := by
  have hc := hs.stage.carrying
  obtain ⟨hproduced, hsent⟩ := hc.unanswered hs.stage.rid
  obtain ⟨hhandlers, rfl⟩ := hs.fresh
  have hclauses (take : State → Except Halt State) :
      handleStreamEventClauses take event (some (pid, tref)) s =
        processAckedStreamEvent take event (maybeAddHandler (some (pid, tref)) event.rid s) := by
    have hnew : maybeIsRetransmission event.rid s.rid s.sent = none := by
      rw [hs.stage.rid, hsent]
      rfl
    unfold handleStreamEventClauses
    rw [hnew]
    exact if_pos htag
  rw [handleStreamEvent_succ]
  unfold handleStreamEventWith
  rw [ends_bind, hclauses, hs.stage.deferred]
  have htaken : ∀ sent report,
      (∀ x ∈ sent, x ∈ (maybeAddHandler (some (pid, tref)) event.rid s).sent) →
      Stage S 2 (name = .normal) (Near event.rid []) (some event.rid) [] []
        { maybeAddHandler (some (pid, tref)) event.rid s with
          sent := sent, report := report, rid := some event.rid } := by
    intro sent report hsub
    have hnone {p : ℕ × Response} (hp : p ∈ s.world.produced) : False := by
      rw [hproduced] at hp
      cases hp
    have honly : (maybeAddHandler (some (pid, tref)) event.rid s).handlers =
        [⟨event.rid, tref, pid⟩] := by rw [maybeAddHandler, hhandlers]
    refine ⟨⟨hc.increasing, fun p hp => (hnone hp).elim, ?_, fun p hp => (hnone hp).elim,
      fun _ => by simp, fun x hx => hc.cached x (hsub x hx), hc.genuine, hc.carried, hc.line,
      hc.inHand⟩, ?_, ?_, rfl, hs.stage.deferred⟩
    · simp [honly]
    · have hready : ready { maybeAddHandler (some (pid, tref)) event.rid s with
          sent := sent, report := report, rid := some event.rid } ≤ 1 := by
        refine (length_filter_le _ _).trans ?_
        simp [honly]
      exact ⟨by omega, fun _ hle => by omega⟩
    · intro h hh
      rw [honly, mem_singleton] at hh
      exact hh ▸ .inl (Nat.le_refl _)
  refine (processAcked_stage (P := Stage S 2 (name = .normal) (Near event.rid []) (some event.rid)
    [] []) htaken (fun s' hs' => ?_) fun s' hs' => hs'.report).mono
      (fun s' hs' => hs'.settle (by simp) (by simp)) fun e he => he
  rw [processDeferredEvents, hs'.deferred]
  exact hs'.withDeferred []

end

end MongooseIM.Bosh
