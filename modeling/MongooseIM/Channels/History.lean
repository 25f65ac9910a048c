import MongooseIM.Channels.Changes

/-! # Reading the history of a channel

A user asks for the messages of a channel page by page, each time for those before the smallest
number received, while other requests go on. -/

namespace MongooseIM.Channels

open Erlang Xmpp Transition List

/-- The tables, and the messages that the user has received, the first one first. -/
structure Reading where
  db : Db
  received : List Message := []

/-- The element `<history/>`, with a limit or without one. -/
def historyRequest (chId before : ℤ) (limit : Option String) : Element :=
  .mk "history" ([("id", integerToBinary chId), ("before", integerToBinary before)] ++
    (limit.map fun text => ("limit", text)).toList) [] ""

/-- What happens: a request, or the next page for a user. -/
inductive ReadingEvent
  | request (e : Event)
  | ask (now : ℕ) (user : Jid) (limit : Option String)

namespace Reading

/-- The smallest number received, 0 before the first page. -/
def before (s : Reading) : ℤ := (s.received.map Message.id).min?.getD 0

/-- The request for the next page. -/
def next (chId : ℤ) (s : Reading) (now : ℕ) (user : Jid) (limit : Option String) : Event :=
  ⟨now, user, .iq (some .get) (historyRequest chId s.before limit)⟩

/-- A request, or the next page if there is one. -/
def step (site : Site) (chId : ℤ) (s : Reading) : ReadingEvent → Option Reading
  | .request e => some { s with db := (handle site s.db e).1 }
  | .ask now user limit =>
    match (handle site s.db (s.next chId now user limit)).2 with
    | .history _ msgs => some { s with received := s.received ++ msgs }
    | _ => some s

end Reading

variable {site : Site} {chId before : ℤ} {db db' : Db} {s s' t : Reading} {user : Jid} {now : ℕ}
  {limit : Option String} {n : ℕ} {m : Message} {e : Event} {es : List ReadingEvent}

/-! ## A page -/

/-- The messages that a page is cut from. -/
def messagesBefore (chId before : ℤ) (db : Db) : List Message :=
  Keyset.descending Message.id (db.messages.filter fun m =>
    m.channelId = chId ∧ m.id < if before = 0 then 9223372036854775807 else before)

theorem fetchHistory_eq : db.fetchHistory chId before n = (messagesBefore chId before db).take n :=
  rfl

theorem mem_messagesBefore :
    m ∈ messagesBefore chId before db ↔ m ∈ db.messages ∧ m.channelId = chId ∧
    m.id < if before = 0 then 9223372036854775807 else before := by
  rw [messagesBefore, (Keyset.descending_perm _ _).mem_iff, mem_filter, decide_eq_true_eq]

theorem Sound.pairwise_messagesBefore (hdb : Sound db) :
    (messagesBefore chId before db).Pairwise fun m m' => m'.id < m.id := by
  have hnodup : ((db.messages.filter fun m => m.channelId = chId ∧
      m.id < if before = 0 then 9223372036854775807 else before).map Message.id).Nodup := by
    have hids : (db.messages.map Message.id).Nodup := by
      rw [List.Nodup, pairwise_map]
      exact hdb.messageUnique.imp fun h => h.ne
    exact hids.sublist (filter_sublist.map _)
  rw [messagesBefore, Keyset.descending_eq_reverse hnodup, pairwise_reverse]
  exact Keyset.increasing_ascending hnodup

theorem handle_historyRequest :
    (handle site db ⟨now, user, .iq (some .get) (historyRequest chId before limit)⟩).2 =
    match loadChannelForMember user chId db with
    | .ok _ => .history chId ((messagesBefore chId before db).take
        (bound ((limit.bind binaryToInteger).getD 50) 1 200).toNat)
    | .error reason => .error reason := by
  have hid : parseId (historyRequest chId before limit) = .ok chId := by
    have hattr : (historyRequest chId before limit).attr? "id" = some (integerToBinary chId) := rfl
    rw [parseId, hattr, Option.bind_some, binaryToInteger_integerToBinary]
  have hbefore : parseIntAttr (historyRequest chId before limit) "before" 0 = before := by
    rw [parseIntAttr]
    show ((some (integerToBinary before)).bind binaryToInteger).getD 0 = before
    rw [Option.bind_some, binaryToInteger_integerToBinary, Option.getD_some]
  have hlimit : parseIntAttr (historyRequest chId before limit) "limit" 50 =
      (limit.bind binaryToInteger).getD 50 := by
    cases limit <;> rfl
  have hiq : handleIq site now (some .get) user (historyRequest chId before limit) db =
      handleHistory user (historyRequest chId before limit) db := rfl
  rw [handle]
  simp only [hiq, handleHistory, hid, hbefore, hlimit, bind, Except.bind, fetchHistory_eq]
  cases loadChannelForMember user chId db <;> rfl

theorem bound_pos (n : ℤ) {hi : ℤ} (h : 0 < hi) : 0 < bound n 1 hi := by
  rw [bound]
  split
  · exact Int.one_pos
  · split
    · exact h
    · omega

/-! ## Pages one after another -/

theorem Change.messages (h : Change site e db db') : db.nextMessage ≤ db'.nextMessage ∧
    ∀ m ∈ db'.messages, m ∈ db.messages ∨ m.id = db.nextMessage := by
  have hsame : db.nextMessage ≤ db.nextMessage ∧
      ∀ m ∈ db.messages, m ∈ db.messages ∨ m.id = db.nextMessage := ⟨le_rfl, fun _ => .inl⟩
  cases h with
  | nothing => exact hsame
  | create hcreate =>
    obtain ⟨-, -, rfl⟩ := Db.createChannel_eq_some hcreate
    exact hsame
  | update _ =>
    obtain ⟨f, -, heq⟩ := Db.updateChannel_eq _ _ db
    rw [heq]
    exact hsame
  | delete _ => exact ⟨le_rfl, fun m hm => .inl (mem_filter.1 hm).1⟩
  | subscribe =>
    rw [Db.subscribe]
    split <;> exact hsame
  | unsubscribe => exact hsame
  | promote _ _ =>
    rw [Db.addAdmin, Db.adminInsert]
    split <;> exact hsame
  | demote _ => exact hsame
  | post _ _ hstore =>
    obtain ⟨-, rfl, -⟩ := Db.storeMessage_eq_some.1 hstore
    refine ⟨(Int.lt_add_one_of_le le_rfl).le, fun m hm => ?_⟩
    refine (mem_append.1 hm).imp_right fun hm => ?_
    rw [mem_singleton.1 hm]

/-- Where the user is: the messages received go down, and of those that were stored at the start
and still are, none is passed over. -/
structure ReadsBack (chId : ℤ) (db₀ : Db) (s : Reading) : Prop where
  sound : Sound s.db
  next_le : db₀.nextMessage ≤ s.db.nextMessage
  descending : s.received.Pairwise fun m m' => m'.id < m.id
  numbered : ∀ m ∈ s.received, 0 < m.id ∧ m.id < s.db.nextMessage
  complete : s.db.nextMessage ≤ 9223372036854775807 → ∀ m ∈ db₀.messages, m.channelId = chId →
    m ∈ s.db.messages → m ∈ s.received ∨ ∀ m' ∈ s.received, m.id < m'.id

/-- The next page is asked for behind all that has been received. -/
theorem Reading.lt_before (h : s.received ≠ []) : (∃ m ∈ s.received, m.id = s.before) ∧
    ∀ m ∈ s.received, s.before ≤ m.id := by
  have hne : s.received.map Message.id ≠ [] := by simpa using h
  obtain ⟨k, hk⟩ := Option.isSome_iff_exists.1 (isSome_min?_of_ne_nil hne)
  have hbefore : s.before = k := by rw [Reading.before, hk, Option.getD_some]
  obtain ⟨hmem, hle⟩ := min?_eq_some_iff.1 hk
  rw [hbefore]
  refine ⟨by simpa using hmem, fun m hm => hle m.id (mem_map_of_mem hm)⟩

section

variable {db₀ : Db} (h : ReadsBack chId db₀ s)

include h

theorem ReadsBack.lt_of_mem_messagesBefore
    (hm : m ∈ messagesBefore chId s.before s.db) : ∀ m' ∈ s.received, m.id < m'.id := by
  intro m' hm'
  obtain ⟨⟨m'', hm'', heq⟩, hle⟩ := Reading.lt_before (ne_nil_of_mem hm')
  have hpositive := (h.numbered m'' hm'').1
  rw [heq] at hpositive
  have hlt := (mem_messagesBefore.1 hm).2.2
  rw [if_neg hpositive.ne'] at hlt
  exact hlt.trans_le (hle m' hm')

/-- What is below all that has been received is still to come. -/
theorem ReadsBack.mem_messagesBefore
    (hlimit : s.db.nextMessage ≤ 9223372036854775807) (hm : m ∈ s.db.messages)
    (hid : m.channelId = chId) (hall : ∀ m' ∈ s.received, m.id < m'.id) :
    m ∈ messagesBefore chId s.before s.db := by
  rw [Channels.mem_messagesBefore]
  refine ⟨hm, hid, ?_⟩
  by_cases hnil : s.received = []
  · have hbefore : s.before = 0 := by rw [Reading.before, hnil]; rfl
    rw [hbefore, if_pos rfl]
    exact (h.sound.messageNumbered m hm).trans_le hlimit
  · obtain ⟨⟨m', hm', heq⟩, -⟩ := Reading.lt_before hnil
    have hpositive := (h.numbered m' hm').1
    rw [heq] at hpositive
    rw [if_neg hpositive.ne', ← heq]
    exact hall m' hm'

/-- The next page goes on below, and passes over nothing. -/
theorem ReadsBack.page (n : ℕ) : ReadsBack chId db₀
    { s with received := s.received ++ (messagesBefore chId s.before s.db).take n } := by
  have hpage : (messagesBefore chId s.before s.db).Pairwise fun m m' => m'.id < m.id :=
    h.sound.pairwise_messagesBefore
  refine ⟨h.sound, h.next_le, ?_, ?_, ?_⟩
  · refine pairwise_append.2 ⟨h.descending, hpage.sublist (take_sublist _ _), ?_⟩
    exact fun m hm m' hm' => h.lt_of_mem_messagesBefore (mem_of_mem_take hm') m hm
  · intro m hm
    rcases mem_append.1 hm with hm | hm
    · exact h.numbered m hm
    · have hm := (Channels.mem_messagesBefore.1 (mem_of_mem_take hm)).1
      exact ⟨h.sound.messagePositive.2 m hm, h.sound.messageNumbered m hm⟩
  · intro hlimit m hm₀ hid hm
    rcases h.complete hlimit m hm₀ hid hm with hreceived | hall
    · exact .inl (mem_append_left _ hreceived)
    have hmem := h.mem_messagesBefore hlimit hm hid hall
    rw [← take_append_drop n (messagesBefore _ _ _)] at hmem hpage
    rcases mem_append.1 hmem with htake | hdrop
    · exact .inl (mem_append_right _ htake)
    · right
      intro m' hm'
      rcases mem_append.1 hm' with hm' | hm'
      · exact hall m' hm'
      · exact (pairwise_append.1 hpage).2.2 m' hm' m hdrop

/-- Other requests leave what has been received, and do not bring anything below it. -/
theorem ReadsBack.request (hdb₀ : Sound db₀) (e : Event) :
    ReadsBack chId db₀ { s with db := (handle site s.db e).1 } := by
  have hchange : Change site e s.db (handle site s.db e).1 := (handle_lawful h.sound e).change
  obtain ⟨hnext, hnew⟩ := hchange.messages
  refine ⟨h.sound.change hchange, h.next_le.trans hnext, h.descending, ?_, ?_⟩
  · exact fun m hm => ⟨(h.numbered m hm).1, (h.numbered m hm).2.trans_le hnext⟩
  · intro hlimit m hm₀ hid hm
    refine h.complete (hnext.trans hlimit) m hm₀ hid ((hnew m hm).resolve_right fun heq => ?_)
    have hlt := (hdb₀.messageNumbered m hm₀).trans_le h.next_le
    rw [heq] at hlt
    exact lt_irrefl _ hlt

end

theorem step_ask_eq_some (hstep : s.step site chId (.ask now user limit) = some s') :
    s' = s ∨ ∃ n, s' =
    { s with received := s.received ++ (messagesBefore chId s.before s.db).take n } := by
  rw [Reading.step, Reading.next, handle_historyRequest] at hstep
  cases hload : loadChannelForMember user chId s.db with
  | error reason =>
    rw [hload] at hstep
    exact .inl (Option.some.inj hstep).symm
  | ok ch =>
    rw [hload] at hstep
    exact .inr ⟨_, (Option.some.inj hstep).symm⟩

theorem ReadsBack.step {db₀ : Db} (h : ReadsBack chId db₀ s) (hdb₀ : Sound db₀)
    {e : ReadingEvent} (hstep : s.step site chId e = some s') : ReadsBack chId db₀ s' := by
  cases e with
  | request e =>
    cases hstep
    exact h.request hdb₀ e
  | ask now user limit =>
    rcases step_ask_eq_some hstep with rfl | ⟨n, rfl⟩
    · exact h
    · exact h.page n

/-- Positive numbers that go down are no more than the first one. -/
theorem length_lt_of_descending {l : List Message} {bound : ℤ} (hbound : 0 < bound)
    (hl : l.Pairwise fun m m' => m'.id < m.id) (h : ∀ m ∈ l, 0 < m.id ∧ m.id < bound) :
    (l.length : ℤ) < bound := by
  induction l generalizing bound with
  | nil => exact hbound
  | cons m l ih =>
    obtain ⟨hfirst, hrest⟩ := pairwise_cons.1 hl
    obtain ⟨hpositive, hlt⟩ := h m mem_cons_self
    have hlength := ih hpositive hrest fun m' hm' =>
      ⟨(h m' (mem_cons_of_mem _ hm')).1, hfirst m' hm'⟩
    rw [length_cons]
    omega

/-- What a reading of the history is for. -/
structure HistoryRead (site : Site) (chId : ℤ) (db : Db) (es : List ReadingEvent) (t : Reading) :
    Prop where
  descending : t.received.Pairwise fun m m' => m'.id < m.id
  stored : ∀ m ∈ t.received, m.channelId = chId ∧
    ∃ h u, h <+: es ∧ run (Reading.step site chId) { db := db } h = some u ∧ m ∈ u.db.messages
  length_lt : (t.received.length : ℤ) < t.db.nextMessage
  /-- At an empty answer nothing is missing, unless the numbers have run out. -/
  everything : t.db.nextMessage ≤ 9223372036854775807 → ∀ now user limit,
    (handle site t.db (t.next chId now user limit)).2 = .history chId [] →
      ∀ m ∈ db.messages, m.channelId = chId → m ∈ t.db.messages → t.received.count m = 1

/-- **The history is read completely**, every message once, the newest one first. -/
theorem historyRead_of_run (hdb : Sound db)
    (hrun : run (Reading.step site chId) { db := db } es = some t) :
    HistoryRead site chId db es t := by
  let P (h : List ReadingEvent) (s : Reading) : Prop :=
    run (Reading.step site chId) { db := db } h = some s ∧ ReadsBack chId db s ∧
      ∀ m ∈ s.received, m.channelId = chId ∧ ∃ h' u, h' <+: h ∧
        run (Reading.step site chId) { db := db } h' = some u ∧ m ∈ u.db.messages
  have hstart : P [] { db := db } :=
    ⟨rfl, ⟨hdb, le_rfl, .nil, nofun, fun _ _ _ _ _ => .inr nofun⟩, nofun⟩
  have hstep : ∀ h s e s', P h s → s.step site chId e = some s' → P (h ++ [e]) s' := by
    rintro h s e s' ⟨hrun, hreads, hstored⟩ hse
    refine ⟨by rw [run_concat, hrun]; exact hse, hreads.step hdb hse, ?_⟩
    have hold : ∀ m ∈ s.received, m.channelId = chId ∧ ∃ h' u, h' <+: h ++ [e] ∧
        run (Reading.step site chId) { db := db } h' = some u ∧ m ∈ u.db.messages := by
      intro m hm
      obtain ⟨hid, h', u, hinit, hu, hmem⟩ := hstored m hm
      exact ⟨hid, h', u, hinit.trans (prefix_append h [e]), hu, hmem⟩
    cases e with
    | request e =>
      cases hse
      exact hold
    | ask now user limit =>
      rcases step_ask_eq_some hse with rfl | ⟨n, rfl⟩
      · exact hold
      · intro m hm
        rcases mem_append.1 hm with hm | hm
        · exact hold m hm
        · obtain ⟨hmem, hid, -⟩ := mem_messagesBefore.1 (mem_of_mem_take hm)
          exact ⟨hid, h, s, prefix_append h _, hrun, hmem⟩
  obtain ⟨-, hreads, hstored⟩ := run_induction hstep hstart hrun
  have hnodup : t.received.Nodup := hreads.descending.imp fun hlt heq => by
    rw [heq] at hlt
    exact lt_irrefl _ hlt
  refine ⟨hreads.descending, hstored,
    length_lt_of_descending hreads.sound.messagePositive.1 hreads.descending hreads.numbered, ?_⟩
  intro hlimit now user limit hanswer m hm hid hstill
  refine count_eq_one_of_mem hnodup ?_
  refine (hreads.complete hlimit m hm hid hstill).resolve_right fun hall => ?_
  have hmem := hreads.mem_messagesBefore hlimit hstill hid hall
  rw [Reading.next, handle_historyRequest] at hanswer
  cases hload : loadChannelForMember user chId t.db with
  | error reason =>
    rw [hload] at hanswer
    cases hanswer
  | ok ch =>
    rw [hload] at hanswer
    -- a page has room for one message at least
    have hpositive : 0 < bound ((limit.bind binaryToInteger).getD 50) 1 200 :=
      bound_pos _ (by decide)
    rcases take_eq_nil_iff.1 (Reply.history.inj hanswer).2 with hzero | hnil
    · omega
    · rw [hnil] at hmem
      cases hmem

end MongooseIM.Channels
