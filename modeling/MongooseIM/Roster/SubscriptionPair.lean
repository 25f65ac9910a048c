import MongooseIM.Roster.Item
import MongooseIM.Transition.Run

/-! # Two users and the presences between them

Both users run `mod_roster`; what one sends reaches the other in order. A user may send any
subscription presence, which `mod_presence` routes whatever `out_state_change/3` says, and may
remove the other from his roster. -/

namespace MongooseIM.Roster

open Transition List

/-- The two users. -/
inductive Side
  | a | b
  deriving DecidableEq

namespace Side

/-- The other user. -/
def other : Side → Side
  | a => b
  | b => a

@[simp] theorem other_other (x : Side) : x.other.other = x := by
  cases x <;> rfl

@[simp] theorem other_ne (x : Side) : x.other ≠ x := by
  cases x <;> simp [other]

theorem eq_or_eq_other (x y : Side) : x = y ∨ x = y.other := by
  cases x <;> cases y <;> simp [other]

end Side

/-- A subscription presence with its `status`. -/
structure Stanza where
  type : SubPresence
  status : String := ""

/-- The entries of the users for each other, and the stanzas that each has sent and the other has
not received. -/
structure Pair where
  entry : Side → Option Item
  flight : Side → List Stanza

/-- What happens. -/
inductive Event
  | send (user : Side) (stanza : Stanza)
  | remove (user : Side)
  /-- The first stanza that the user sent reaches the other. -/
  | deliver (user : Side)

namespace Pair

/-- Empty rosters and nothing in flight. -/
def empty : Pair := ⟨fun _ => none, fun _ => []⟩

variable (s : Pair)

/-- Nothing is in flight. -/
def Quiet : Prop := ∀ x, s.flight x = []

variable (user : Side)

/-- The user's entry is replaced and he sends more. -/
def act (entry : Option Item) (sent : List Stanza) : Pair :=
  ⟨Function.update s.entry user entry,
    Function.update s.flight user (s.flight user ++ sent)⟩

/-- `process_presence_track_subscription_and_route/5`: the stanza is routed whatever the hook
`roster_out_subscription` gives. -/
def send (stanza : Stanza) : Pair :=
  match processSubscriptionT .out (s.entry user) stanza.type "" with
  | some p => s.act user (p.write.apply (s.entry user)) [stanza]
  | none => s.act user (s.entry user) [stanza]

/-- `set_roster_item/5` with `subscription='remove'`. -/
def remove : Pair :=
  match s.entry user with
  | none => s
  | some item => s.act user none ((sendUnsubscribingPresence item).map fun type => ⟨type, ""⟩)

/-- `process_subscription/6` on what arrives. -/
def receive (stanza : Stanza) : Pair :=
  match processSubscriptionT .in (s.entry user) stanza.type stanza.status with
  | some p => s.act user (p.write.apply (s.entry user))
      (p.autoReply.toList.map fun type => ⟨type, ""⟩)
  | none => s

/-- One step. -/
def step : Event → Option Pair
  | .send user stanza => some (s.send user stanza)
  | .remove user => some (s.remove user)
  | .deliver user =>
    match s.flight user with
    | [] => none
    | stanza :: rest =>
      some (receive ⟨s.entry, Function.update s.flight user rest⟩ user.other stanza)

/-- The kinds of the stanzas in flight. -/
def sent : List SubPresence := (s.flight user).map Stanza.type

/-- What the stage of the user's subscription will be for the other once all that the user has
sent is received. -/
def expected : Stage :=
  (s.sent user).foldl (fun stage type => Stage.request type stage) (inbound (s.entry user.other))

end Pair

/-! ## One direction -/

/-- The stage at the peer once these stanzas are received. -/
def expectedAt (peer : Stage) (sent : List SubPresence) : Stage :=
  sent.foldl (fun stage type => Stage.request type stage) peer

/-- Whether the last answer among these stanzas grants the subscription; `own` without one. -/
def confirmed (own : Bool) (back : List SubPresence) : Bool :=
  back.foldl (fun granted type =>
    match type with
    | .subscribed => true
    | .unsubscribed => false
    | _ => granted) own

theorem expectedAt_append (peer : Stage) (l₁ l₂ : List SubPresence) :
    expectedAt peer (l₁ ++ l₂) = expectedAt (expectedAt peer l₁) l₂ :=
  foldl_append

theorem confirmed_append (own : Bool) (l₁ l₂ : List SubPresence) :
    confirmed own (l₁ ++ l₂) = confirmed (confirmed own l₁) l₂ :=
  foldl_append

variable {sent : List SubPresence}

/-- Where one peer comes to hold nothing, so does one who holds no more at the start. -/
theorem expectedAt_idle_mono {peer peer' : Stage} (h : peer = .idle → peer' = .idle)
    (hs : expectedAt peer sent = .idle) :
    expectedAt peer' sent = .idle := by
  induction sent generalizing peer peer' with
  | nil => exact h hs
  | cons type l ih =>
    refine ih ?_ hs
    cases type with
    | subscribe => cases peer <;> cases peer' <;> simp_all [Stage.request]
    | unsubscribe => exact fun _ => rfl
    | subscribed => exact h
    | unsubscribed => exact h

/-- Without a withdrawal in flight the peer keeps what he holds. -/
theorem expectedAt_ne_idle {peer : Stage} (hpeer : peer ≠ .idle)
    (hsent : .unsubscribe ∉ sent) : expectedAt peer sent ≠ .idle := by
  induction sent generalizing peer with
  | nil => exact hpeer
  | cons type l ih =>
    rw [mem_cons, not_or] at hsent
    refine ih ?_ hsent.2
    cases type with
    | unsubscribe => exact absurd rfl hsent.1
    | subscribe => cases peer <;> simp [Stage.request]
    | subscribed => exact hpeer
    | unsubscribed => exact hpeer

/-- The last answer decides; without one, what was known before. -/
theorem confirmed_mono {own own' : Bool} (h : own = true → own' = true) {back : List SubPresence}
    (hc : confirmed own back = true) : confirmed own' back = true := by
  induction back generalizing own own' with
  | nil => exact h hc
  | cons type l ih => cases type <;> exact ih (by simp_all) hc

/-- One direction of a subscription: the stage at the subscriber, the stage at the peer, and what
is in flight to the peer and back. -/
structure Half (own peer : Stage) (sent back : List SubPresence) : Prop where
  /-- The peer never holds, or is about to hold, a request that the subscriber has lost. -/
  known : own = .idle → expectedAt peer sent = .idle
  /-- What the subscriber is told last is granted by the peer. -/
  granted : confirmed (own = .granted) back = true → peer = .granted
  /-- What the peer grants the subscriber is told, unless he has withdrawn. -/
  told : peer = .granted → .unsubscribe ∉ sent → confirmed (own = .granted) back = true

namespace Half

variable {own peer : Stage} {sent back : List SubPresence}

theorem idle : Half .idle .idle [] [] := ⟨fun _ => rfl, by simp [confirmed], by simp⟩

/-- **The subscriber sends a presence.** -/
theorem request (h : Half own peer sent back) (type : SubPresence) :
    Half (Stage.request type own) peer (sent ++ [type]) back := by
  obtain ⟨known, granted, told⟩ := h
  cases type with
  | subscribe =>
    refine ⟨?_, ?_, ?_⟩
    · cases own <;> simp [Stage.request]
    · intro hc
      refine granted (confirmed_mono ?_ hc)
      cases own <;> simp [Stage.request]
    · intro hpeer hsent
      refine confirmed_mono ?_ (told hpeer fun hmem => hsent (by simp [hmem]))
      cases own <;> simp [Stage.request]
  | unsubscribe =>
    refine ⟨fun _ => by rw [expectedAt_append]; rfl, ?_, by simp⟩
    intro hc
    exact granted (confirmed_mono (by simp [Stage.request]) hc)
  | subscribed | unsubscribed =>
    refine ⟨fun ho => by rw [expectedAt_append]; exact known ho, granted, ?_⟩
    intro hpeer hsent
    exact told hpeer fun hmem => hsent (by simp [hmem])

variable {type : SubPresence}

/-- **The peer sends a presence**; one that grants the subscription answers a request or repeats
an earlier answer. -/
theorem answer (h : Half own peer sent back) (reverse : Stage)
    (hok : type = .subscribed → peer ≠ .idle) :
    Half own (Stage.answer reverse type peer) sent (back ++ [type]) := by
  obtain ⟨known, granted, told⟩ := h
  cases type with
  | subscribe | unsubscribe =>
    refine ⟨known, fun hc => granted ?_, fun hp hs => ?_⟩
    · rw [confirmed_append] at hc
      exact hc
    · rw [confirmed_append]
      exact told hp hs
  | subscribed =>
    have hpeer := hok rfl
    have hanswer : Stage.answer reverse .subscribed peer = .granted := by
      cases peer with
      | idle => exact absurd rfl hpeer
      | pending => rfl
      | granted => rfl
    rw [hanswer]
    refine ⟨fun ho => ?_, fun _ => rfl, fun _ _ => by rw [confirmed_append]; rfl⟩
    -- a subscriber who lost his request has withdrawn it, which the peer is yet to hear
    exact expectedAt_idle_mono (fun hp => absurd hp hpeer) (known ho)
  | unsubscribed =>
    have hanswer : Stage.answer reverse .unsubscribed peer = .idle := by
      cases peer <;> rfl
    rw [hanswer]
    refine ⟨fun ho => expectedAt_idle_mono (fun _ => rfl) (known ho), ?_, by simp⟩
    intro hc
    rw [confirmed_append] at hc
    cases hc

variable {rest : List SubPresence}

/-- **The peer receives a presence** and answers as the server does. -/
theorem receiveRequest (h : Half own peer (type :: rest) back) :
    Half own (Stage.request type peer) rest (back ++ (Stage.autoReply type peer).toList) := by
  obtain ⟨known, granted, told⟩ := h
  refine ⟨known, ?_, ?_⟩
  · intro hc
    rw [confirmed_append] at hc
    cases type with
    | subscribe =>
      cases peer with
      | granted => rfl
      | idle | pending => exact absurd (granted hc) (by simp)
    | unsubscribe =>
      -- the peer is idle now: either he says so, or nothing said otherwise
      cases peer with
      | idle => exact granted hc
      | pending | granted => cases hc
    | subscribed | unsubscribed => exact granted hc
  · intro hpeer hsent
    rw [confirmed_append]
    cases type with
    | subscribe =>
      cases peer with
      | granted => rfl
      | idle | pending => cases hpeer
    | unsubscribe => cases peer <;> cases hpeer
    | subscribed | unsubscribed => exact told hpeer (by simpa using hsent)

/-- **The subscriber receives a presence.** One that ends his request or subscription comes only
when the peer holds neither, nor is about to. -/
theorem receiveAnswer (reverse : Stage) (h : Half own peer sent (type :: rest))
    (hok : type = .unsubscribed → own ≠ .idle → expectedAt peer sent = .idle) :
    Half (Stage.answer reverse type own) peer sent rest := by
  obtain ⟨known, granted, told⟩ := h
  cases type with
  | subscribe | unsubscribe => exact ⟨known, granted, told⟩
  | subscribed =>
    refine ⟨fun ho => known ?_, fun hc => granted ?_, ?_⟩
    · cases own <;> simp [Stage.answer] at ho ⊢
    · have htrue : confirmed true rest = true := confirmed_mono (fun _ => rfl) hc
      exact htrue
    · intro hpeer hsent
      -- the subscriber has not withdrawn, so he still knows of his request
      have hown : own ≠ .idle := by
        intro ho
        exact expectedAt_ne_idle (by simp [hpeer]) hsent (known ho)
      have hanswer : Stage.answer reverse .subscribed own = .granted := by
        cases own with
        | idle => exact absurd rfl hown
        | pending => rfl
        | granted => rfl
      rw [hanswer]
      exact told hpeer hsent
  | unsubscribed =>
    have hanswer : Stage.answer reverse .unsubscribed own = .idle := by
      cases own <;> rfl
    rw [hanswer]
    refine ⟨fun _ => ?_, fun hc => granted hc, fun hpeer hsent => told hpeer hsent⟩
    by_cases ho : own = .idle
    · exact known ho
    · exact hok rfl ho

/-- **The subscriber removes the peer.** He withdraws a granted subscription; a request must have
left no trace. -/
theorem forget (h : Half own peer sent back) (hok : own = .pending → expectedAt peer sent = .idle) :
    Half .idle peer (sent ++ if own = .granted then [.unsubscribe] else []) back := by
  obtain ⟨known, granted, told⟩ := h
  have hmono : confirmed false back = true → confirmed (own = .granted) back = true :=
    confirmed_mono (by simp)
  cases own with
  | granted =>
    refine ⟨fun _ => ?_, fun hc => granted (hmono hc), by simp⟩
    rw [if_pos rfl, expectedAt_append]
    rfl
  | pending =>
    simp only [reduceCtorEq, if_false, append_nil]
    exact ⟨fun _ => hok rfl, fun hc => granted (hmono hc), told⟩
  | idle =>
    simp only [reduceCtorEq, if_false, append_nil]
    exact ⟨known, granted, told⟩

/-- **The peer removes the subscriber**, and says so where he has granted the subscription. -/
theorem revoke (h : Half own peer sent back) :
    Half own .idle sent (back ++ if peer = .granted then [.unsubscribed] else []) := by
  obtain ⟨known, granted, told⟩ := h
  refine ⟨fun ho => expectedAt_idle_mono (fun _ => rfl) (known ho), ?_, by simp⟩
  intro hc
  cases peer with
  | granted =>
    rw [confirmed_append] at hc
    cases hc
  | idle | pending =>
    rw [if_neg (by simp), append_nil] at hc
    exact absurd (granted hc) (by simp)

variable {l : List SubPresence}

/-- What the subscriber sends about the other direction is no request. -/
theorem append_sent (h : Half own peer sent back)
    (hl : ∀ type ∈ l, type = .subscribed ∨ type = .unsubscribed) :
    Half own peer (sent ++ l) back := by
  induction l using reverseRecOn with
  | nil => simpa using h
  | append_singleton l type ih =>
    rw [← append_assoc]
    have hrest : Half own peer (sent ++ l) back := ih fun t ht => hl t (by simp [ht])
    have hown : Stage.request type own = own := by
      rcases hl type (by simp) with rfl | rfl <;> cases own <;> rfl
    simpa only [hown] using hrest.request type

/-- What the peer sends about the other direction is no answer. -/
theorem append_back (h : Half own peer sent back)
    (hl : ∀ type ∈ l, type = .subscribe ∨ type = .unsubscribe) :
    Half own peer sent (back ++ l) := by
  induction l using reverseRecOn with
  | nil => simpa using h
  | append_singleton l type ih =>
    rw [← append_assoc]
    have hrest : Half own peer sent (back ++ l) := ih fun t ht => hl t (by simp [ht])
    have hpeer : Stage.answer .idle type peer = peer := by
      rcases hl type (by simp) with rfl | rfl <;> cases peer <;> rfl
    have hok : type = .subscribed → peer ≠ .idle := by
      rcases hl type (by simp) with rfl | rfl <;> simp
    simpa only [hpeer] using hrest.answer .idle hok

/-- **Both ends agree** when nothing is in flight. -/
theorem agree (h : Half own peer [] []) : own = .granted ↔ peer = .granted := by
  have hgranted := h.granted
  have htold := h.told
  simp only [confirmed, foldl_nil, decide_eq_true_eq] at hgranted htold
  exact ⟨hgranted, fun hp => htold hp (by simp)⟩

end Half

/-! ## Both directions -/

namespace Pair

/-- The entries are in states of the tables, and each direction is as it has to be. -/
structure Sound (s : Pair) : Prop where
  regular : ∀ x, Regular (s.entry x)
  half : ∀ x, Half (outbound (s.entry x)) (inbound (s.entry x.other)) (s.sent x) (s.sent x.other)

theorem empty_sound : empty.Sound := ⟨fun _ => trivial, fun _ => Half.idle⟩

/-- The steps in which nobody answers without a request and nobody loses a request that the other
still holds or is about to receive. -/
def Orderly (s : Pair) : Event → Prop
  | .send user stanza => stanza.type = .subscribed → inbound (s.entry user) ≠ .idle
  | .remove user => outbound (s.entry user) = .pending → s.expected user = .idle
  | .deliver user =>
    match s.flight user with
    | [] => True
    | stanza :: _ => stanza.type = .unsubscribed → outbound (s.entry user.other) ≠ .idle →
        s.expected user.other = .idle

theorem expected_eq (s : Pair) (user : Side) :
    s.expected user = expectedAt (inbound (s.entry user.other)) (s.sent user) := rfl

variable {s : Pair} {user : Side}

/-- What one user's action has to keep, one direction at a time. -/
theorem Sound.act {entry : Option Item} {stanzas : List Stanza}
    (hregular : Regular entry) (hother : Regular (s.entry user.other))
    (hown : Half (outbound entry) (inbound (s.entry user.other))
    (s.sent user ++ stanzas.map Stanza.type) (s.sent user.other))
    (hpeer : Half (outbound (s.entry user.other)) (inbound entry) (s.sent user.other)
    (s.sent user ++ stanzas.map Stanza.type)) :
    (s.act user entry stanzas).Sound := by
  constructor
  · intro x
    rcases Side.eq_or_eq_other x user with rfl | rfl
    · simpa [Pair.act] using hregular
    · simpa [Pair.act] using hother
  · intro x
    rcases Side.eq_or_eq_other x user with rfl | rfl
    · simpa [Pair.act, sent] using hown
    · simpa [Pair.act, sent] using hpeer

variable {stanza : Stanza}

/-- **Sending** keeps both directions. -/
theorem Sound.send (h : s.Sound)
    (hok : s.Orderly (.send user stanza)) : (s.send user stanza).Sound := by
  obtain ⟨p, hp, -, hregular, hout, hin⟩ := processSubscriptionT_out (h.regular user) stanza.type ""
  rw [Pair.send, hp]
  refine Sound.act hregular (h.regular _) ?_ ?_
  · rw [hout]
    exact (h.half user).request stanza.type
  · rw [hin]
    have hhalf := h.half user.other
    rw [Side.other_other] at hhalf
    exact hhalf.answer _ hok

/-- The presences sent on a removal, by the stages of the item. -/
theorem sendUnsubscribingPresence_eq (item : Item) : sendUnsubscribingPresence item =
    (if outbound (some item) = .granted then [.unsubscribe] else []) ++
      if inbound (some item) = .granted then [.unsubscribed] else [] := by
  simp only [sendUnsubscribingPresence, outbound_eq_granted, inbound_eq_granted, Option.getD_some,
    or_comm]

/-- **Removing** keeps both directions. -/
theorem Sound.remove (h : s.Sound) (hok : s.Orderly (.remove user)) : (s.remove user).Sound := by
  rw [Pair.remove]
  cases hentry : s.entry user with
  | none => exact h
  | some item =>
    have hown := h.half user
    have hpeer := h.half user.other
    rw [Side.other_other] at hpeer
    rw [hentry] at hown hpeer
    have hlost : outbound (some item) = .pending →
        expectedAt (inbound (s.entry user.other)) (s.sent user) = .idle := by
      intro ho
      rw [← expected_eq]
      exact hok (by rw [hentry, ho])
    refine Sound.act regular_none (h.regular _) ?_ ?_
    · rw [map_map, show Stanza.type ∘ (fun type => (⟨type, ""⟩ : Stanza)) = id from rfl,
        map_id, sendUnsubscribingPresence_eq, ← append_assoc]
      refine (hown.forget hlost).append_sent ?_
      intro type hmem
      split_ifs at hmem <;> simp_all
    · rw [map_map, show Stanza.type ∘ (fun type => (⟨type, ""⟩ : Stanza)) = id from rfl,
        map_id, sendUnsubscribingPresence_eq, ← append_assoc]
      have hsubscribes : ∀ type ∈ (if outbound (some item) = .granted then
          [SubPresence.unsubscribe] else []), type = .subscribe ∨ type = .unsubscribe := by
        intro type hmem
        split_ifs at hmem <;> simp_all
      exact (hpeer.append_back hsubscribes).revoke

/-- **Receiving** keeps both directions. -/
theorem Sound.receive (h : s.Sound) {rest : List Stanza} (hflight : s.flight user = stanza :: rest)
    (hok : s.Orderly (.deliver user)) :
    (receive ⟨s.entry, Function.update s.flight user rest⟩ user.other stanza).Sound := by
  obtain ⟨p, hp, hauto, hregular, hin, hout⟩ :=
    processSubscriptionT_in (h.regular user.other) stanza.type stanza.status
  have hsent : s.sent user = stanza.type :: rest.map Stanza.type := by
    rw [sent, hflight, map_cons]
  have hlost : stanza.type = .unsubscribed → outbound (s.entry user.other) ≠ .idle →
      expectedAt (inbound (s.entry user)) (s.sent user.other) = .idle := by
    rw [Orderly, hflight] at hok
    simpa [expected_eq] using hok
  have hanswers : ∀ type ∈ p.autoReply.toList, type = .subscribed ∨ type = .unsubscribed := by
    intro type hmem
    rw [hauto] at hmem
    revert hmem
    cases stanza.type <;> cases inbound (s.entry user.other) <;> simp [Stage.autoReply] <;>
      intro ht <;> simp [ht]
  simp only [Pair.receive, hp]
  refine Sound.act hregular (by simpa using h.regular user) ?_ ?_
  · have hown := h.half user.other
    rw [Side.other_other, hsent] at hown
    have hrest := (hown.receiveAnswer (inbound (s.entry user.other)) hlost).append_sent hanswers
    rw [← hout] at hrest
    simpa [sent, Function.comp_def] using hrest
  · have hpeer := h.half user
    rw [hsent] at hpeer
    have hrest := hpeer.receiveRequest
    rw [← hin, ← hauto] at hrest
    simpa [sent, Function.comp_def] using hrest

/-- **Every orderly step keeps both directions.** -/
theorem step_sound (s : Pair) (e : Event) (s' : Pair) (h : s.Sound) (hok : s.Orderly e)
    (hstep : s.step e = some s') : s'.Sound := by
  cases e with
  | send user stanza =>
    cases hstep
    exact h.send hok
  | remove user =>
    cases hstep
    exact h.remove hok
  | deliver user =>
    rw [step] at hstep
    split at hstep
    · cases hstep
    · rename_i stanza rest hflight
      cases hstep
      exact h.receive hflight hok

instance (s : Pair) : DecidablePred s.Orderly
  | .send user stanza =>
    inferInstanceAs (Decidable (stanza.type = .subscribed → inbound (s.entry user) ≠ .idle))
  | .remove user =>
    inferInstanceAs (Decidable (outbound (s.entry user) = .pending → s.expected user = .idle))
  | .deliver user =>
    match hf : s.flight user with
    | [] => isTrue (by simp [Orderly, hf])
    | stanza :: _ =>
      decidable_of_iff (stanza.type = .unsubscribed → outbound (s.entry user.other) ≠ .idle →
        s.expected user.other = .idle) (by simp [Orderly, hf])

/-- Each user has a subscription `to` or `both` exactly when the other has `from` or `both`; a
missing item counts as `none`. -/
def Agree (s : Pair) : Prop :=
  ∀ x, ((s.entry x).getD {}).subscription ∈ [.to, .both] ↔
    ((s.entry x.other).getD {}).subscription ∈ [.from, .both]

/-- **Both ends of a subscription agree** after every orderly run that leaves nothing in flight. -/
theorem subscriptions_agree (es : List Event) (t : Pair) (hg : Guarded step Orderly empty es)
    (hrun : run step empty es = some t) (hquiet : t.Quiet) : t.Agree := by
  have hsound : t.Sound := run_invariant step_sound empty_sound hg hrun
  intro x
  have hhalf := hsound.half x
  rw [sent, sent, hquiet, hquiet] at hhalf
  have hagree := hhalf.agree
  rw [outbound_eq_granted, inbound_eq_granted] at hagree
  simpa using hagree

/-- `a` asks for `b`'s presence and `b` allows it. -/
theorem subscriptions_agree_granted :
    Agree (((run step empty [.send .a ⟨.subscribe, "hi"⟩, .deliver .a, .send .b ⟨.subscribed, ""⟩,
    .deliver .b])).getD empty) := by
  refine subscriptions_agree [.send .a ⟨.subscribe, "hi"⟩, .deliver .a, .send .b ⟨.subscribed, ""⟩,
    .deliver .b] _ (by decide) rfl ?_
  intro x
  cases x <;> rfl

/-- `a` asks for `b`'s presence and removes `b` before the answer. No `unsubscribe` is sent, so
that `b` allows a request that `a` no longer knows of. -/
theorem removed_request_is_granted :
    ¬ ∀ (es : List Event) (t : Pair), run step empty es = some t → t.Quiet → t.Agree := by
  intro h
  have hagree := h [.send .a ⟨.subscribe, "hi"⟩, .remove .a, .deliver .a,
    .send .b ⟨.subscribed, ""⟩, .deliver .b] _ rfl (by intro x; cases x <;> rfl)
  exact absurd ((hagree .a).2 (by decide)) (by decide)

end Pair

end MongooseIM.Roster
