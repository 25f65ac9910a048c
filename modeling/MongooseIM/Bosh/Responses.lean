import MongooseIM.Bosh.Sending

/-! # What the responses of a BOSH session carry

A response carries the start of a stream in its attributes, stanzas as its children, or the end of
the stream; `Response.items` reads this back, and `boshWrap_items` says that wrapping loses
nothing of elements that are `InLine`. `Carrying S data s` is the property of the session that
sending keeps: its responses, the elements in hand and those pending are, in this order, the
elements `S` that the c2s process has sent, and the request ids of the responses increase. -/

namespace MongooseIM.Bosh

open Transition Erlang List

/-! ## Items -/

/-- A part of the stream as the client sees it. -/
inductive Item
  | start (fromAttr : Option String)
  | stop
  | stanza (child : Child)

/-- The part of the stream that an element becomes. -/
def StreamEl.item : StreamEl → Item
  | .xmlstreamstart attrs => .start (attrs.attr "from")
  | .xmlstreamend => .stop
  | .child c => .stanza (maybeAddDefaultNs c)

/-- The parts of the stream that a response carries. -/
def Response.items (w : Response) : List Item :=
  if w.attrs.attr "type" = some "terminate" then [.stop]
  else if (w.attrs.attr "xmpp:version").isSome then
    .start (w.attrs.attr "from") :: w.children.map .stanza
  else w.children.map .stanza

/-- Elements that go out in their order: a stream start comes first, a stream end last, and there
is no more than one of them. -/
def InLine (data : List StreamEl) : Bool :=
  match data.filter StreamEl.isStreamEvent with
  | [] => true
  | [.xmlstreamstart _] => data.head?.any StreamEl.isStreamEvent
  | [.xmlstreamend] => data.getLast?.any StreamEl.isStreamEvent
  | _ => false

variable {data : List StreamEl}

theorem InLine.wrappable (h : InLine data) : Wrappable data := by
  unfold InLine at h
  unfold Wrappable
  split at h
  · rename_i hevents
    simp [hevents]
  · rename_i hevents
    simp [hevents]
  · rename_i hevents
    simp [hevents]
  · cases h

theorem eq_map_child (h : data.filter StreamEl.isStreamEvent = []) :
    data = (data.filterMap StreamEl.stanza?).map .child := by
  induction data with
  | nil => rfl
  | cons el data ih =>
    rw [filter_cons] at h
    cases el with
    | xmlstreamstart attrs => simp [StreamEl.isStreamEvent] at h
    | xmlstreamend => simp [StreamEl.isStreamEvent] at h
    | child c =>
      have hrest := ih (by simpa [StreamEl.isStreamEvent] using h)
      exact congrArg (StreamEl.child c :: ·) hrest

theorem InLine.cases (h : InLine data) : ∃ cs : List Child, data = cs.map .child ∨
    (∃ attrs, data = .xmlstreamstart attrs :: cs.map .child) ∨
    data = cs.map .child ++ [.xmlstreamend] := by
  unfold InLine at h
  split at h
  · rename_i hevents
    exact ⟨_, .inl (eq_map_child hevents)⟩
  · rename_i attrs hevents
    cases data with
    | nil => cases hevents
    | cons el data =>
      have hel : el.isStreamEvent := by simpa using h
      rw [filter_cons_of_pos hel] at hevents
      obtain ⟨rfl, hrest⟩ := cons.inj hevents
      exact ⟨_, .inr (.inl ⟨attrs, by rw [← eq_map_child hrest]⟩)⟩
  · rename_i hevents
    rcases eq_nil_or_concat data with rfl | ⟨init, el, rfl⟩
    · cases hevents
    · have hel : el.isStreamEvent := by simpa using h
      rw [concat_eq_append, filter_append, filter_cons_of_pos hel, filter_nil] at hevents
      have hsplit : init.filter StreamEl.isStreamEvent ++ [el] = [] ++ [.xmlstreamend] := hevents
      obtain ⟨hinit, hlast⟩ := append_inj' hsplit rfl
      obtain ⟨rfl, -⟩ := cons.inj hlast
      exact ⟨_, .inr (.inr (by rw [concat_eq_append, ← eq_map_child hinit]))⟩
  · cases h

variable (cs : List Child)

theorem filter_map_child : (cs.map StreamEl.child).filter StreamEl.isStreamEvent = [] := by
  induction cs with
  | nil => rfl
  | cons c cs ih => exact ih

variable (attrs : Attrs)

theorem filter_start (cs : List Child) :
    (StreamEl.xmlstreamstart attrs :: cs.map .child).filter StreamEl.isStreamEvent =
    [.xmlstreamstart attrs] :=
  congrArg (StreamEl.xmlstreamstart attrs :: ·) (filter_map_child cs)

theorem filter_stop :
    (cs.map StreamEl.child ++ [StreamEl.xmlstreamend]).filter StreamEl.isStreamEvent =
    [.xmlstreamend] := by
  rw [filter_append, filter_map_child]
  rfl

theorem filterMap_map_child : (cs.map StreamEl.child).filterMap StreamEl.stanza? = cs := by
  induction cs with
  | nil => rfl
  | cons c cs ih => exact congrArg (c :: ·) ih

theorem inLine_stanzas : InLine (cs.map .child) := by
  unfold InLine
  rw [filter_map_child]

theorem inLine_start (cs : List Child) : InLine (.xmlstreamstart attrs :: cs.map .child) := by
  unfold InLine
  rw [filter_start]
  rfl

theorem inLine_stop : InLine (cs.map .child ++ [.xmlstreamend]) := by
  unfold InLine
  rw [filter_stop]
  simp [StreamEl.isStreamEvent]

/-- The end of a stream. -/
def StreamEl.isEnd : StreamEl → Bool
  | .xmlstreamend => true
  | _ => false

/-- The start of a stream goes in line when nothing is pending, its end when no stream event is, and
a stanza when the end is not. -/
def StreamEl.Follows (el : StreamEl) (pending : List StreamEl) : Prop :=
  match el with
  | .xmlstreamstart _ => pending.isEmpty
  | .xmlstreamend => ∀ x ∈ pending, ¬ x.isStreamEvent
  | .child _ => ∀ x ∈ pending, ¬ x.isEnd

instance (el : StreamEl) (pending : List StreamEl) : Decidable (el.Follows pending) := by
  unfold StreamEl.Follows
  split <;> infer_instance

theorem InLine.concat {pending : List StreamEl} {el : StreamEl} (h : InLine pending)
    (hel : el.Follows pending) : InLine (pending ++ [el]) := by
  cases el with
  | xmlstreamstart attrs =>
    obtain rfl : pending = [] := isEmpty_iff.1 hel
    exact inLine_start attrs []
  | xmlstreamend =>
    have hnone : pending.filter StreamEl.isStreamEvent = [] := filter_eq_nil_iff.2 hel
    rw [eq_map_child hnone]
    exact inLine_stop _
  | child c =>
    obtain ⟨cs, rfl | ⟨attrs, rfl⟩ | rfl⟩ := InLine.cases h
    · rw [← map_singleton, ← map_append]
      exact inLine_stanzas (cs ++ [c])
    · rw [cons_append, ← map_singleton, ← map_append]
      exact inLine_start attrs (cs ++ [c])
    · exact absurd rfl (hel .xmlstreamend (by simp))

/-! ## Wrapping loses nothing -/

/-- The attributes that tell what a response carries. -/
def Attrs.tells : Option String × Option String × Option String :=
  (attrs.attr "type", attrs.attr "xmpp:version", attrs.attr "from")

theorem tells_insert {key : String} (hkey : key ∉ ["type", "xmpp:version", "from"])
    (value : Option String) (attrs : Attrs) :
    Attrs.tells (attrs.insert key value) = attrs.tells := by
  simp only [mem_cons, not_mem_nil, or_false, not_or] at hkey
  have hne {key' : String} (h : key ≠ key') :
      Attrs.attr key' (attrs.insert key value) = Attrs.attr key' attrs := by
    unfold Attrs.attr
    rw [lookup_insert, if_neg h.symm]
  rw [Attrs.tells, hne hkey.1, hne hkey.2.1, hne hkey.2.2, Attrs.tells]

theorem tells_serverAck {acks : Bool} {rid : Option ℕ} {attrs attrs' : Attrs}
    (h : serverAck acks rid attrs = .ok attrs') : attrs'.tells = attrs.tells := by
  unfold serverAck at h
  split at h
  · cases h
    exact tells_insert (by decide) _ _
  · cases h
  · cases h
    rfl

variable {w : Response}

/-- Nor does anything that `bosh_wrap/3` adds to the body it starts from. -/
theorem tells_boshWrap {rid : ℕ} {s ns : State} (h : boshWrap data rid s = .ok (w, ns)) :
    ∃ body children ns', boshWrapBody data s = .ok (body, children, ns') ∧
    w.attrs.tells = body.tells ∧ w.children = children.map maybeAddDefaultNs := by
  unfold boshWrap at h
  cases hbody : boshWrapBody data s with
  | error e =>
    rw [hbody] at h
    cases h
  | ok b =>
    obtain ⟨body, children, ns'⟩ := b
    simp only [hbody, bind, Except.bind] at h
    cases hack : maybeAddAck rid ns' body with
    | error e =>
      rw [hack] at h
      cases h
    | ok attrs =>
      rw [hack] at h
      have htells : attrs.tells = body.tells := by
        unfold maybeAddAck at hack
        split at hack
        · exact tells_serverAck hack
        · cases hack
          rfl
      obtain ⟨rfl, -⟩ := Prod.mk.inj (Except.ok.inj h)
      refine ⟨body, children, ns', rfl, ?_, rfl⟩
      unfold maybeAddStreamPrefix maybeAddReport
      dsimp only
      rw [← htells]
      cases ns'.report with
      | none =>
        split_ifs
        · rfl
        · exact tells_insert (by decide) _ _
        · rfl
      | some report =>
        have hreport : Attrs.tells ((attrs.insert "report" (natAttr report.1)).insert "time"
            (some (integerToBinary report.2))) = attrs.tells :=
          (tells_insert (by decide) _ _).trans (tells_insert (by decide) _ _)
        split_ifs
        · exact hreport
        · exact (tells_insert (by decide) _ _).trans hreport
        · exact hreport

theorem tells_boshBody (s : State) : (boshBody s).tells = (none, none, none) := rfl

theorem tells_boshStreamEndBody : boshStreamEndBody.tells = (some "terminate", none, none) := rfl

theorem tells_boshStreamStartBody {start : Attrs} {s : State} {attrs : Attrs}
    (h : boshStreamStartBody start s = .ok attrs) :
    attrs.tells = (none, some "1.0", start.attr "from") := by
  unfold boshStreamStartBody at h
  rw [tells_serverAck h]
  have hmax (maxPause : Option ℕ) (attrs : Attrs) :
      (maxpauseAttr maxPause attrs).tells = attrs.tells := by
    cases maxPause with
    | none => rfl
    | some n => exact tells_insert (by decide) _ _
  have hinactivity (inactivity : Option ℕ) (attrs : Attrs) :
      (inactivityAttr inactivity attrs).tells = attrs.tells := by
    cases inactivity with
    | none => rfl
    | some n => exact tells_insert (by decide) _ _
  rw [hmax, hinactivity]
  rfl

theorem items_of_tells {type version fromAttr : Option String}
    (h : w.attrs.tells = (type, version, fromAttr)) :
    w.items = if type = some "terminate" then [.stop]
    else if version.isSome then .start fromAttr :: w.children.map .stanza
    else w.children.map .stanza := by
  obtain ⟨rfl, hrest⟩ := Prod.mk.inj h
  cases hrest
  rfl

/-- **Wrapping loses nothing.** A response carries the elements it is made from, in their order, up
to what is held back. -/
theorem boshWrap_items {rid : ℕ} {s ns : State}
    (hline : InLine data) (h : boshWrap data rid s = .ok (w, ns)) :
    w.items ++ (heldBack data).map StreamEl.item = data.map StreamEl.item := by
  obtain ⟨body, children, ns', hbody, htells, hchildren⟩ := tells_boshWrap h
  have hitem (cs : List Child) : (cs.map maybeAddDefaultNs).map Item.stanza =
      (cs.map StreamEl.child).map StreamEl.item := by
    rw [map_map, map_map]
    rfl
  obtain ⟨cs, rfl | ⟨attrs, rfl⟩ | rfl⟩ := InLine.cases hline
  · -- stanzas
    have hevents := filter_map_child cs
    have hstanzas := filterMap_map_child cs
    have hheld : heldBack (cs.map StreamEl.child) = [] := by
      unfold heldBack
      rw [hevents]
    unfold boshWrapBody at hbody
    rw [hevents, hstanzas] at hbody
    obtain ⟨rfl, hrest⟩ := Prod.mk.inj (Except.ok.inj hbody)
    obtain ⟨rfl, -⟩ := Prod.mk.inj hrest
    rw [hheld, items_of_tells (htells.trans (tells_boshBody s)), hchildren, map_nil, append_nil]
    exact hitem cs
  · -- the start of the stream, and stanzas
    have hevents := filter_start attrs cs
    have hstanzas : (StreamEl.xmlstreamstart attrs :: cs.map .child).filterMap StreamEl.stanza? =
        cs := filterMap_map_child cs
    have hheld : heldBack (.xmlstreamstart attrs :: cs.map .child) = [] := by
      unfold heldBack
      rw [hevents]
    unfold boshWrapBody at hbody
    rw [hevents, hstanzas] at hbody
    cases hstart : boshStreamStartBody attrs s with
    | error e =>
      simp only [hstart, bind, Except.bind] at hbody
      cases hbody
    | ok body' =>
      simp only [hstart, bind, Except.bind] at hbody
      obtain ⟨rfl, hrest⟩ := Prod.mk.inj (Except.ok.inj hbody)
      obtain ⟨rfl, -⟩ := Prod.mk.inj hrest
      rw [hheld, items_of_tells (htells.trans (tells_boshStreamStartBody hstart)), hchildren,
        map_nil, append_nil]
      exact congrArg (Item.start (attrs.attr "from") :: ·) (hitem cs)
  · have hevents := filter_stop cs
    have hstanzas : (cs.map StreamEl.child ++ [StreamEl.xmlstreamend]).filterMap StreamEl.stanza? = cs := by
      rw [filterMap_append, filterMap_map_child]
      exact append_nil cs
    unfold boshWrapBody at hbody
    rw [hevents, hstanzas] at hbody
    cases cs with
    | nil =>
      -- the end of the stream alone
      obtain ⟨rfl, hrest⟩ := Prod.mk.inj (Except.ok.inj hbody)
      rw [items_of_tells (htells.trans tells_boshStreamEndBody)]
      rfl
    | cons c cs =>
      -- the stanzas go out and the end is held back
      obtain ⟨rfl, hrest⟩ := Prod.mk.inj (Except.ok.inj hbody)
      obtain ⟨rfl, -⟩ := Prod.mk.inj hrest
      have hheld : heldBack ((c :: cs).map StreamEl.child ++ [.xmlstreamend]) =
          [.xmlstreamend] := by
        unfold heldBack
        rw [hevents, hstanzas]
      rw [hheld, items_of_tells (htells.trans (tells_boshBody s)), hchildren, map_append,
        ← hitem (c :: cs)]
      rfl

/-! ## What sending keeps -/

variable {S data : List StreamEl} {s s' : State}

/-- The responses, the elements in hand and those pending are the elements `S`, and the request ids
of the responses increase. -/
structure Carrying (S data : List StreamEl) (s : State) : Prop where
  increasing : (s.world.produced.map Prod.fst).Pairwise (· < ·)
  above : ∀ p ∈ s.world.produced, ∀ h ∈ s.handlers, p.1 < h.rid
  distinct : (s.handlers.map Handler.rid).Nodup
  taken : ∀ p ∈ s.world.produced, ∃ r, s.rid = some r ∧ p.1 ≤ r
  opened : s.handlers ≠ [] → s.rid ≠ none
  cached : ∀ x ∈ s.sent, (x.rid, x.body) ∈ s.world.produced
  genuine : ∀ pid w, (pid, .boshReply w) ∈ s.world.replies → ∃ q, (q, w) ∈ s.world.produced
  carried : s.world.produced.flatMap (fun p => p.2.items) ++
    (data ++ s.pending).map StreamEl.item = S.map StreamEl.item
  line : InLine (data ++ s.pending)
  inHand : data = [] ∨ s.pending = []

theorem inLine_heldBack (data : List StreamEl) : InLine (heldBack data) := by
  rcases heldBack_cases data with h | h <;> rw [h] <;> rfl

variable {h : Handler}

/-- **Answering the earliest open request** keeps the order. -/
theorem Carrying.answer {rest : List Handler} {ns : State}
    (hs : Carrying S data s) (hperm : (h :: rest).Perm s.handlers) (hle : ridLe h.rid s.rid)
    (hleast : ∀ h' ∈ rest, h.rid < h'.rid)
    (hwrap : boshWrap data h.rid { s with handlers := rest } = .ok (w, ns)) :
    Carrying S [] (answered h w ns) := by
  have ha := answered_spec hwrap
  have hmem : h ∈ s.handlers := hperm.subset mem_cons_self
  have hrest {h' : Handler} (hh' : h' ∈ rest) : h' ∈ s.handlers :=
    hperm.subset (mem_cons_of_mem h hh')
  have hne : s.handlers ≠ [] := ne_nil_of_mem hmem
  have hdata : InLine data := by
    rcases hs.inHand with rfl | hpending
    · rfl
    · have := hs.line
      rwa [hpending, append_nil] at this
  have hitems := boshWrap_items hdata hwrap
  have hheld : data ++ s.pending = data ∨ heldBack data = [] := by
    rcases hs.inHand with rfl | hpending
    · exact .inr rfl
    · exact .inl (by rw [hpending, append_nil])
  refine ⟨?_, ?_, ?_, ?_, ?_, ?_, ?_, ?_, ?_, .inl rfl⟩
  · rw [ha.produced, map_append, pairwise_append]
    refine ⟨hs.increasing, pairwise_singleton _ _, fun a hin b hb => ?_⟩
    obtain ⟨p, hp, rfl⟩ := mem_map.1 hin
    obtain rfl := mem_singleton.1 hb
    exact hs.above p hp h hmem
  · intro p hp h' hh'
    rw [ha.handlers] at hh'
    rw [ha.produced, mem_append, mem_singleton] at hp
    rcases hp with hp | rfl
    · exact hs.above p hp h' (hrest hh')
    · exact hleast h' hh'
  · rw [ha.handlers]
    have hnodup := (hperm.map Handler.rid).nodup_iff.2 hs.distinct
    exact (nodup_cons.1 hnodup).2
  · intro p hp
    rw [ha.rid]
    rw [ha.produced, mem_append, mem_singleton] at hp
    rcases hp with hp | rfl
    · exact hs.taken p hp
    · obtain ⟨r, hr⟩ := Option.ne_none_iff_exists'.1 (hs.opened hne)
      rw [hr] at hle
      exact ⟨r, hr, by simpa [ridLe] using hle⟩
  · intro _
    rw [ha.rid]
    exact hs.opened hne
  · intro x hx
    rw [ha.sent] at hx
    rw [ha.produced, mem_append, mem_singleton]
    rcases mem_cacheUpTo hx with rfl | hx
    · exact .inr rfl
    · exact .inl (hs.cached x hx)
  · intro pid w' hreply
    rw [ha.replies, mem_append, mem_singleton] at hreply
    rw [ha.produced]
    rcases hreply with hreply | heq
    · obtain ⟨q, hq⟩ := hs.genuine pid w' hreply
      exact ⟨q, mem_append_left _ hq⟩
    · obtain ⟨-, hinfo⟩ := Prod.mk.inj heq
      obtain rfl := Info.boshReply.inj hinfo
      exact ⟨h.rid, by simp⟩
  · rw [ha.produced, ha.pending, ← hs.carried, nil_append, flatMap_append, append_assoc]
    congr 1
    rw [map_append, map_append, ← hitems]
    rcases hs.inHand with rfl | hpending
    · simp [heldBack]
    · simp [hpending]
  · rw [ha.pending, nil_append]
    rcases hs.inHand with rfl | hpending
    · simpa [heldBack] using hs.line
    · rw [hpending, nil_append]
      exact inLine_heldBack data

theorem lt_of_sorted {handlers rest : List Handler}
    (hsort : sortHandlers handlers = h :: rest) (hdistinct : (handlers.map Handler.rid).Nodup) :
    (h :: rest).Perm handlers ∧ ∀ h' ∈ rest, h.rid < h'.rid := by
  have hperm := hsort ▸ sortHandlers_perm handlers
  refine ⟨hperm, fun h' hh' => ?_⟩
  have hnodup := (hperm.map Handler.rid).nodup_iff.2 hdistinct
  rw [map_cons, nodup_cons] at hnodup
  have hne : h.rid ≠ h'.rid := fun heq => hnodup.1 (heq ▸ mem_map_of_mem hh')
  exact lt_of_le_of_ne (rid_le_of_sorted hsort hh') hne

/-- **Sending keeps what the responses carry.** -/
theorem Carrying.kept : Kept (Carrying S) where
  answer hs hsort hle hwrap := have hsorted := lt_of_sorted hsort hs.distinct
    hs.answer hsorted.1 hle hsorted.2 hwrap
  store {data s} hs _ := by
    have hswap : s.pending ++ data = data ++ s.pending := by
      rcases hs.inHand with rfl | hpending
      · simp
      · simp [hpending]
    refine { hs with carried := ?_, line := ?_, inHand := .inl rfl }
    · have := hs.carried
      rwa [← hswap] at this
    · have := hs.line
      rwa [← hswap] at this
  take {s} hs := by
    refine { hs with carried := ?_, line := ?_, inHand := .inr rfl }
    · have := hs.carried
      rwa [nil_append, ← append_nil s.pending] at this
    · have := hs.line
      rwa [nil_append, ← append_nil s.pending] at this

/-! ## How many requests can be answered -/

/-- The number of open requests that can be answered. -/
def ready (s : State) : ℕ := (s.handlers.filter fun h => ridLe h.rid s.rid).length

theorem ready_eq_zero : ready s = 0 ↔ ∀ h ∈ s.handlers, ridLe h.rid s.rid = false := by
  rw [ready, length_eq_zero_iff, filter_eq_nil_iff]
  simp

/-- No more than `n` requests can be answered, and where `strict`, that many only if no element
waits. -/
def Room (n : ℕ) (strict : Bool) (data : List StreamEl) (s : State) : Prop :=
  ready s ≤ n ∧ (strict → n ≤ ready s → s.pending = [] ∧ data = [])

theorem Room.succ {n : ℕ} {strict : Bool} (h : Room n strict data s) :
    Room (n + 1) strict data s := by
  refine ⟨Nat.le_succ_of_le h.1, fun _ hle => ?_⟩
  have := h.1
  omega

theorem Answered.ready {rest : List Handler}
    (ha : Answered s h rest data w s') (hperm : (h :: rest).Perm s.handlers)
    (hle : ridLe h.rid s.rid) : ready s = ready s' + 1 := by
  have hfilter := (hperm.filter fun h => ridLe h.rid s.rid).length_eq
  rw [filter_cons, if_pos hle, length_cons] at hfilter
  unfold Bosh.ready
  rw [ha.handlers, ha.rid, ← hfilter]

/-- After an answer there is room, since one request less can be answered. -/
theorem Room.answer {n : ℕ} {strict : Bool} {h : Handler} {rest : List Handler} {w : Response}
    (hs : ready s ≤ n + 1) (hpending : strict → n + 1 ≤ ready s → s.pending = [] ∧ data = [])
    (ha : Answered s h rest data w s') (hperm : (h :: rest).Perm s.handlers)
    (hle : ridLe h.rid s.rid) : Room n strict [] s' := by
  have hready := ha.ready hperm hle
  refine ⟨by omega, fun hstrict hn => ?_⟩
  obtain ⟨hempty, rfl⟩ := hpending hstrict (by omega)
  rw [ha.pending, hempty]
  exact ⟨rfl, rfl⟩

theorem Room.kept (n : ℕ) (strict : Bool) : Kept (Room n strict) where
  answer {data s h rest w ns} hs hsort hle hwrap := by
    have hperm := hsort ▸ sortHandlers_perm s.handlers
    exact Room.answer (Nat.le_succ_of_le hs.1) (fun _ hn => by have := hs.1; omega)
      (answered_spec hwrap) hperm hle
  store {data s} hs _ := by
    refine ⟨hs.1, fun hstrict hn => ?_⟩
    obtain ⟨hpending, rfl⟩ := hs.2 hstrict hn
    exact ⟨by simp [Bosh.store, hpending], rfl⟩
  take {s} hs := ⟨hs.1, fun hstrict hn => ⟨rfl, (hs.2 hstrict hn).1⟩⟩

/-- Elements that are sent or stored when nothing else is pending. -/
theorem Room.sendOrStore {n : ℕ} {strict : Bool} (hs : ready s ≤ n + 1)
    (hpending : strict → n + 1 ≤ ready s → s.pending = [] ∧ data = []) (hn : 1 ≤ n) :
    Ends (Bosh.sendOrStore data s) (Room n strict []) fun _ => True := by
  unfold Bosh.sendOrStore
  rw [ends_bind]
  refine (sendToHandler_ends data s).mono (fun r hr => ?_) fun _ _ => trivial
  cases r with
  | some s' =>
    obtain ⟨h, rest, w, ns, hsort, hle, hwrap, rfl⟩ := hr
    have hperm := hsort ▸ sortHandlers_perm s.handlers
    exact Room.answer hs hpending (answered_spec hwrap) hperm hle
  | none =>
    have hzero : ready (Bosh.store data s) = 0 := ready_eq_zero.2 hr
    exact ⟨by omega, fun _ hle => by omega⟩

/-- Answering all handlers but one leaves one request at most that can be answered. -/
theorem returnAccumulated_ready (n : ℕ) (hn : s.handlers.length ≤ n) :
    Ends (returnAccumulated n s) (fun s' => ready s' ≤ 1) fun _ => True := by
  induction n generalizing s with
  | zero =>
    have hnil : s.handlers = [] := length_eq_zero_iff.1 (Nat.le_zero.1 hn)
    show (s.handlers.filter _).length ≤ 1
    simp [hnil]
  | succ n ih =>
    unfold returnAccumulated
    refine ends_ite (fun hle => (length_filter_le _ _).trans hle) fun _ => ?_
    rw [ends_bind]
    refine (sendToHandler_ends [] s).mono (fun r hr => ?_) fun _ _ => trivial
    cases r with
    | some s' =>
      obtain ⟨h, rest, w, ns, hsort, -, hwrap, rfl⟩ := hr
      refine ih ?_
      have hlength := (hsort ▸ sortHandlers_perm s.handlers).length_eq
      rw [length_cons] at hlength
      rw [(answered_spec hwrap).handlers]
      omega
    | none =>
      have hzero : ready s = 0 := ready_eq_zero.2 hr
      show ready s ≤ 1
      omega

/-- **Returning the surplus handlers makes room.** -/
theorem returnSurplusHandlers_room (name : StateName) {n : ℕ} (hn : 1 ≤ n)
    (hs : Room (n + 1) (name = .normal) [] s) :
    Ends (returnSurplusHandlers name s) (Room n (name = .normal) []) fun _ => True := by
  unfold returnSurplusHandlers
  refine ends_ite (fun hname => ?_) fun hname => ?_
  · subst hname
    exact (returnAccumulated_ready _ (Nat.le_refl _)).mono
      (fun s' hs' => ⟨hs'.trans hn, fun h => by cases h⟩) fun _ _ => trivial
  · refine ends_ite (fun hnil => ?_) fun _ => ends_ite (fun hone => ?_) fun _ => ?_
    · have hzero : ready s = 0 := ready_eq_zero.2 (by simp [hnil])
      exact ⟨by omega, fun _ hle => by omega⟩
    · have hle : ready s ≤ 1 := (length_filter_le _ _).trans hone.1.le
      exact ⟨hle.trans hn, fun _ _ => ⟨isEmpty_iff.1 hone.2, rfl⟩⟩
    · refine Room.sendOrStore (s := { s with pending := [] }) hs.1 (fun hstrict hle => ?_) hn
      exact ⟨rfl, (hs.2 hstrict hle).1⟩

end MongooseIM.Bosh
