import MongooseIM.Channels.History
import MongooseIM.Relational.Offset

/-! # The fan-out of a post

A process of its own sends a post to the subscribers of its channel, page by page, with requests of
users between the pages. A page is cut by an offset, and rows with one time of joining come in any
order at each read. -/

namespace MongooseIM.Channels

open Xmpp Transition List

/-- `?FANOUT_CHUNK` -/
def fanoutChunk : ℕ := 500

/-- Where the process is. -/
inductive Phase
  /-- Before `fanout_to_subscribers/5` has looked the channel up. -/
  | spawned
  | loop (offset : ℕ)
  | done

/-- The tables and the process, with the users that it has routed the post to, the first one
first. -/
structure FanOut where
  db : Db
  phase : Phase := .spawned
  routed : List Jid := []

/-- The rows of a channel. -/
def rowsOf (chId : ℤ) (db : Db) : List Subscriber := db.subscribers.filter (·.channelId = chId)

/-- The rows of a channel in an order that a read may find them in. -/
def InOrder (chId : ℤ) (db : Db) (rows : List Subscriber) : Prop :=
  rows.Perm (rowsOf chId db) ∧ rows.Pairwise fun a b => a.joinedAt ≤ b.joinedAt

instance (chId : ℤ) (db : Db) (rows : List Subscriber) : Decidable (InOrder chId db rows) :=
  inferInstanceAs (Decidable (_ ∧ _))

/-- What happens: a request of a user, `get_channel/2` of the process, or `list_subscribers/4` with
the rows in the order of that read. -/
inductive FanOutEvent
  | request (e : Event)
  | lookUp
  | read (rows : List Subscriber)

/-- The users on a page. -/
def page (rows : List Subscriber) (offset : ℕ) : List Jid :=
  ((rows.map Subscriber.subscriberJid).drop offset).take fanoutChunk

/-- `fanout_loop/7`, with what `list_subscribers/4` has given. -/
def fanoutLoop (offset : ℕ) (routed : List Jid) : List Jid → Phase × List Jid
  | [] => (.done, routed)
  | subs =>
    (if subs.length < fanoutChunk then .done else .loop (offset + fanoutChunk), routed ++ subs)

namespace FanOut

/-- A request, or a step of the process; `none` where the process is not there. -/
def step (site : Site) (chId : ℤ) (s : FanOut) : FanOutEvent → Option FanOut
  | .request e => some { s with db := (handle site s.db e).1 }
  | .lookUp =>
    match s.phase with
    | .spawned => some { s with phase := if (s.db.getChannel chId).isSome then .loop 0 else .done }
    | _ => none
  | .read rows =>
    match s.phase with
    | .loop offset =>
      if InOrder chId s.db rows then
        let (phase, routed) := fanoutLoop offset s.routed (page rows offset)
        some { s with phase := phase, routed := routed }
      else none
    | _ => none

end FanOut

variable {site : Site} {chId : ℤ} {db : Db} {s s' t : FanOut} {e : FanOutEvent} {offset : ℕ}
  {rows : List Subscriber} {es : List FanOutEvent} {user : Jid}

/-! ## Reads -/

/-- Without a page that is full the process is at its end. -/
theorem fanoutLoop_eq (offset : ℕ) (routed subs : List Jid) : fanoutLoop offset routed subs =
    (if subs.length < fanoutChunk then .done else .loop (offset + fanoutChunk),
      routed ++ subs) := by
  cases subs with
  | nil => rw [fanoutLoop, append_nil, if_pos (by decide)]
  | cons user subs => rfl

theorem step_read_eq_some : s.step site chId (.read rows) = some s' ↔
    ∃ offset, s.phase = .loop offset ∧ InOrder chId s.db rows ∧
      { s with
        phase := if (page rows offset).length < fanoutChunk then .done
          else .loop (offset + fanoutChunk)
        routed := s.routed ++ page rows offset } = s' := by
  rw [FanOut.step]
  cases hphase : s.phase with
  | spawned => simp
  | done => simp
  | loop offset => simp [fanoutLoop_eq]

theorem InOrder.nodup (hdb : Sound db) (h : InOrder chId db rows) :
    (rows.map Subscriber.subscriberJid).Nodup := by
  have hkeys : ((rowsOf chId db).map fun row => (row.channelId, row.subscriberJid)).Nodup :=
    hdb.subscriberUnique.sublist (filter_sublist.map _)
  have hmap : (rowsOf chId db).map ((fun user => (chId, user)) ∘ Subscriber.subscriberJid) =
      (rowsOf chId db).map fun row => (row.channelId, row.subscriberJid) := by
    refine map_congr_left fun row hrow => ?_
    have hid : row.channelId = chId := by simpa using (mem_filter.1 hrow).2
    rw [hid]
    rfl
  rw [(h.1.map _).nodup_iff]
  refine List.Nodup.of_map (fun user => (chId, user)) ?_
  rwa [map_map, hmap]

theorem InOrder.mem_iff (h : InOrder chId db rows) :
    user ∈ rows.map Subscriber.subscriberJid ↔ db.isSubscriber chId user = true := by
  rw [Db.isSubscriber_iff, mem_map]
  refine exists_congr fun row => ?_
  rw [h.1.mem_iff, rowsOf, mem_filter, decide_eq_true_eq, and_assoc]

/-! ## What a read has to find -/

/-- The rows that the offset of a read passes over are of users who have the post. -/
def Aligned (chId : ℤ) (s : FanOut) : FanOutEvent → Prop
  | .read rows => ∀ offset, s.phase = .loop offset → InOrder chId s.db rows →
      (rows.map Subscriber.subscriberJid).take offset ⊆ s.routed
  | _ => True

/-- The offset is the number of users who have the post. -/
structure Placed (s : FanOut) : Prop where
  sound : Sound s.db
  spawned : s.phase = .spawned → s.routed = []
  loop : ∀ offset, s.phase = .loop offset → s.routed.length = offset

theorem placed_start (hdb : Sound db) : Placed { db := db } := ⟨hdb, fun _ => rfl, nofun⟩

theorem length_page : (page rows offset).length ≤ fanoutChunk := (length_take_le _ _)

theorem Placed.step (h : Placed s) (hstep : s.step site chId e = some s') : Placed s' := by
  cases e with
  | request e =>
    cases hstep
    exact ⟨h.sound.change (handle_lawful h.sound e).change, h.spawned, h.loop⟩
  | lookUp =>
    rw [FanOut.step] at hstep
    split at hstep
    · next hphase =>
      cases hstep
      refine ⟨h.sound, fun _ => h.spawned hphase, ?_⟩
      intro offset hoffset
      show s.routed.length = offset
      rw [h.spawned hphase]
      split at hoffset
      · exact Phase.loop.inj hoffset
      · cases hoffset
    · cases hstep
  | read rows =>
    obtain ⟨offset, hphase, -, rfl⟩ := step_read_eq_some.1 hstep
    refine ⟨h.sound, fun hspawned => ?_, fun offset' hoffset => ?_⟩
    · split at hspawned <;> cases hspawned
    · split at hoffset
      · cases hoffset
      · next hfull =>
        obtain rfl := Phase.loop.inj hoffset
        have : (page rows offset).length ≤ fanoutChunk := length_page
        rw [length_append, h.loop offset hphase]
        omega

/-! ## Everybody gets the post once -/

/-- Subscribed all along a run. -/
def Throughout (site : Site) (chId : ℤ) (s : FanOut) (es : List FanOutEvent) (user : Jid) : Prop :=
  ∀ h t, h <+: es → run (FanOut.step site chId) s h = some t →
    t.db.isSubscriber chId user = true

/-- What a fan-out is for. -/
structure Reaches (site : Site) (chId : ℤ) (s : FanOut) (es : List FanOutEvent) (t : FanOut) :
    Prop where
  everybody : t.phase = .done → ∀ user, Throughout site chId s es user → t.routed.count user = 1
  nobodyTwice : t.routed.Nodup

theorem Throughout.of_concat (h : Throughout site chId s (es ++ [e]) user) :
    Throughout site chId s es user :=
  fun h' t hinit => h h' t (hinit.trans (prefix_append es [e]))

theorem Sound.getChannel_of_isSubscriber (hdb : Sound db)
    (h : db.isSubscriber chId user = true) : ∃ ch, db.getChannel chId = some ch := by
  obtain ⟨row, hrow, rfl, -⟩ := Db.isSubscriber_iff.1 h
  exact Db.exists_getChannel (hdb.subscribers row hrow)

/-- **A read that finds its place** routes the post to nobody again, and if it is the last one, to
all who are left. -/
theorem Placed.read (h : Placed s) (hnodup : s.routed.Nodup) (hphase : s.phase = .loop offset)
    (hrows : InOrder chId s.db rows) (haligned : Aligned chId s (.read rows)) :
    (s.routed ++ page rows offset).Nodup ∧ ((page rows offset).length < fanoutChunk →
      ∀ user, s.db.isSubscriber chId user = true → user ∈ s.routed ++ page rows offset) := by
  have hjids := hrows.nodup h.sound
  have hpassed := haligned offset hphase hrows
  have hlength := h.loop offset hphase
  constructor
  · rw [nodup_append]
    refine ⟨hnodup, hjids.sublist ((take_sublist _ _).trans (drop_sublist _ _)), ?_⟩
    rintro user hrouted user' hpage rfl
    rw [← hlength] at hpassed hpage
    exact Offset.notMem_of_mem_drop hjids hpassed (mem_of_mem_take hpage) hrouted
  · intro hshort user hsubscriber
    rw [← hrows.mem_iff] at hsubscriber
    rw [mem_append]
    exact (Offset.mem_of_short_page hshort hsubscriber).imp_left fun hmem => hpassed hmem

/-- **A fan-out whose reads find their places reaches everybody once.** -/
theorem reaches_of_guarded (hdb : Sound db)
    (hguard : Guarded (FanOut.step site chId) (Aligned chId) { db := db } es)
    (hrun : run (FanOut.step site chId) { db := db } es = some t) :
    Reaches site chId { db := db } es t := by
  let P (h : List FanOutEvent) (s : FanOut) : Prop :=
    run (FanOut.step site chId) { db := db } h = some s ∧ Placed s ∧ s.routed.Nodup ∧
      (s.phase = .done → ∀ user, Throughout site chId { db := db } h user → user ∈ s.routed)
  have hstart : P [] { db := db } := ⟨rfl, placed_start hdb, nodup_nil, nofun⟩
  have hstep : ∀ h s e s', P h s → Aligned chId s e → s.step site chId e = some s' →
      P (h ++ [e]) s' := by
    rintro h s e s' ⟨hrun, hplaced, hnodup, hdone⟩ haligned hse
    have hrun' : run (FanOut.step site chId) { db := db } (h ++ [e]) = some s' := by
      rw [run_concat, hrun]
      exact hse
    refine ⟨hrun', hplaced.step hse, ?_⟩
    cases e with
    | request e =>
      cases hse
      exact ⟨hnodup, fun hphase user huser => hdone hphase user huser.of_concat⟩
    | lookUp =>
      rw [FanOut.step] at hse
      split at hse
      · cases hse
        refine ⟨hnodup, fun hphase user huser => ?_⟩
        -- without a channel there was no subscriber
        obtain ⟨ch, hch⟩ := hplaced.sound.getChannel_of_isSubscriber
          (huser.of_concat h s prefix_rfl hrun)
        rw [hch] at hphase
        cases hphase
      · cases hse
    | read rows =>
      obtain ⟨offset, hphase, hrows, rfl⟩ := step_read_eq_some.1 hse
      obtain ⟨hnodup', hlast⟩ := hplaced.read hnodup hphase hrows haligned
      refine ⟨hnodup', fun hphase' user huser => ?_⟩
      refine hlast ?_ user (huser.of_concat h s prefix_rfl hrun)
      by_contra hfull
      rw [if_neg hfull] at hphase'
      cases hphase'
  have hP := run_history_induction (h := []) hstep hstart hguard hrun
  obtain ⟨-, -, hnodup, hdone⟩ := hP
  exact ⟨fun hphase user huser => count_eq_one_of_mem hnodup (hdone hphase user huser), hnodup⟩

/-! ## Who is passed over -/

/-- Reading on in one order of the rows, with nothing in between. -/
theorem run_replicate_read (hphase : s.phase = .loop offset) (hrows : InOrder chId s.db rows) :
    ∃ n, run (FanOut.step site chId) s (replicate n (.read rows)) = some { s with
      phase := .done
      routed := s.routed ++ (rows.map Subscriber.subscriberJid).drop offset } := by
  induction hleft : rows.length - offset using Nat.strong_induction_on generalizing s offset with
  | _ left ih =>
    have hlength : ((rows.map Subscriber.subscriberJid).drop offset).length = left := by
      rw [length_drop, length_map, hleft]
    have hread : s.step site chId (.read rows) = some _ :=
      step_read_eq_some.2 ⟨offset, hphase, hrows, rfl⟩
    by_cases hshort : (page rows offset).length < fanoutChunk
    · refine ⟨1, ?_⟩
      rw [if_pos hshort] at hread
      rw [page, length_take] at hshort
      rw [page, take_of_length_le (by omega)] at hread
      exact run_cons_eq_some.2 ⟨_, hread, rfl⟩
    · rw [if_neg hshort] at hread
      rw [page, length_take] at hshort
      have hpositive : 0 < fanoutChunk := by decide
      let next : FanOut :=
        { s with phase := .loop (offset + fanoutChunk), routed := s.routed ++ page rows offset }
      have hnext : next.phase = .loop (offset + fanoutChunk) := rfl
      obtain ⟨n, hn⟩ := ih (rows.length - (offset + fanoutChunk)) (by omega) hnext hrows rfl
      refine ⟨n + 1, run_cons_eq_some.2 ⟨_, hread, ?_⟩⟩
      show run _ next _ = _
      rw [hn]
      show some { s with phase := Phase.done, routed := (s.routed ++ page rows offset) ++ _ } = _
      rw [append_assoc, page, ← drop_drop, take_append_drop]

theorem db_of_step (hstep : s.step site chId e = some s') (he : ∀ request, e ≠ .request request) :
    s'.db = s.db := by
  cases e with
  | request e => exact absurd rfl (he e)
  | lookUp =>
    rw [FanOut.step] at hstep
    split at hstep
    · cases hstep
      rfl
    · cases hstep
  | read rows =>
    obtain ⟨offset, -, -, rfl⟩ := step_read_eq_some.1 hstep
    rfl

theorem db_of_run_replicate_read {n : ℕ}
    (hrun : run (FanOut.step site chId) s (replicate n (.read rows)) = some t) :
    t.db = s.db := by
  induction n generalizing s with
  | zero =>
    cases hrun
    rfl
  | succ n ih =>
    obtain ⟨s', hse, hrest⟩ := run_cons_eq_some.1 hrun
    exact (ih hrest).trans (db_of_step hse nofun)

/-- **Who is passed over without the post does not get it**, if the process reads on in the same
order and nothing else happens. -/
theorem lost_of_passed_over {s₀ : FanOut} (hs : Placed s)
    (hrun : run (FanOut.step site chId) s₀ es = some s) (hphase : s.phase = .loop offset)
    (hrows : InOrder chId s.db rows)
    (hpassed : user ∈ (rows.map Subscriber.subscriberJid).take offset) (hnew : user ∉ s.routed)
    (huser : Throughout site chId s₀ es user) :
    ∃ n t, run (FanOut.step site chId) s₀ (es ++ replicate n (.read rows)) = some t ∧
    t.phase = .done ∧ ¬ Reaches site chId s₀ (es ++ replicate n (.read rows)) t := by
  obtain ⟨n, hn⟩ := run_replicate_read hphase hrows
  refine ⟨n, _, by rw [run_append, hrun, Option.bind_some, hn], rfl, fun hreaches => ?_⟩
  have hthroughout : Throughout site chId s₀ (es ++ replicate n (.read rows)) user := by
    intro h t hinit ht
    rcases prefix_or_prefix_of_prefix hinit (prefix_append es _) with hshort | ⟨h', rfl⟩
    · exact huser h t hshort ht
    · -- nothing happens to the tables behind `es`
      rw [prefix_append_right_inj, prefix_replicate_iff] at hinit
      rw [run_append, hrun, Option.bind_some, hinit.2] at ht
      rw [db_of_run_replicate_read ht]
      exact huser es s prefix_rfl hrun
  have hcount := hreaches.everybody rfl user hthroughout
  have hmem := count_pos_iff.1 (by rw [hcount]; exact Nat.one_pos)
  rcases mem_append.1 hmem with hmem | hmem
  · exact hnew hmem
  · exact disjoint_take_drop (hrows.nodup hs.sound) le_rfl hpassed hmem

/-! ## When reads find their places -/

/-- Until the end nobody who has the post leaves the channel, unless it is deleted, nobody joins
before them, and rows of one time are read in one order. -/
def Steady (site : Site) (chId : ℤ) (s : FanOut) : FanOutEvent → Prop
  | .request e =>
    s.phase = .done ∨
      (∀ a ∈ rowsOf chId s.db, a.subscriberJid ∈ s.routed →
        (a ∈ (handle site s.db e).1.subscribers ∨ (handle site s.db e).1.getChannel chId = none) ∧
          ∀ b ∈ rowsOf chId (handle site s.db e).1, b ∉ s.db.subscribers →
            a.joinedAt ≤ b.joinedAt)
  | .lookUp => True
  | .read rows => rows.Pairwise fun a b =>
    b.subscriberJid ∈ s.routed → a.subscriberJid ∉ s.routed → a.joinedAt ≠ b.joinedAt

/-- Who has the post is subscribed, and has been for longer than the others. -/
structure Settled (chId : ℤ) (db : Db) (routed : List Jid) : Prop where
  subscribed : ∀ user ∈ routed, ∃ row ∈ rowsOf chId db, row.subscriberJid = user
  first : ∀ a ∈ rowsOf chId db, ∀ b ∈ rowsOf chId db, a.subscriberJid ∈ routed →
    b.subscriberJid ∉ routed → a.joinedAt ≤ b.joinedAt

theorem settled_nil : Settled chId db [] :=
  ⟨fun _ h => absurd h not_mem_nil, fun _ _ _ _ h _ => absurd h not_mem_nil⟩

theorem Retired.rowsOf_eq_nil (h : Retired chId db) (hdb : Sound db) : rowsOf chId db = [] := by
  rw [rowsOf, filter_eq_nil_iff]
  intro row hrow hid
  obtain ⟨ch, hch, hid'⟩ := hdb.subscribers row hrow
  rw [decide_eq_true_eq] at hid
  exact h.channels ch hch (hid'.trans hid)

theorem Sound.eq_of_subscriberJid (hdb : Sound db) {a b : Subscriber} (ha : a ∈ rowsOf chId db)
    (hb : b ∈ rowsOf chId db) (h : a.subscriberJid = b.subscriberJid) : a = b := by
  obtain ⟨ha, hida⟩ := mem_filter.1 ha
  obtain ⟨hb, hidb⟩ := mem_filter.1 hb
  rw [decide_eq_true_eq] at hida hidb
  exact inj_on_of_nodup_map hdb.subscriberUnique ha hb (by rw [hida, hidb, h])

section

variable (h : Settled chId s.db s.routed)

include h

theorem Settled.aligned (hs : Placed s) (hnodup : s.routed.Nodup)
    (hsteady : Steady site chId s (.read rows)) : Aligned chId s (.read rows) := by
  intro offset hphase hrows
  rw [← hs.loop offset hphase]
  refine Offset.take_subset_of_pairwise hnodup ?_ ?_
  · intro user huser
    obtain ⟨row, hrow, rfl⟩ := h.subscribed user huser
    exact mem_map_of_mem (hrows.1.mem_iff.2 hrow)
  · rw [pairwise_map]
    have hall := (List.Pairwise.and_mem.1 hrows.2).and hsteady
    refine hall.imp ?_
    rintro a b ⟨⟨ha, hb, hle⟩, htie⟩ hrouted
    by_contra hnew
    have hfirst := h.first b (hrows.1.mem_iff.1 hb) a (hrows.1.mem_iff.1 ha) hrouted hnew
    exact htie hrouted hnew (Nat.le_antisymm hle hfirst)

/-- A request that is steady keeps them in front, or deletes the channel. -/
theorem Settled.request (hdb : Sound s.db)
    {e : Event} (hsteady : Steady site chId s (.request e)) (hphase : s.phase ≠ .done) :
    Settled chId (handle site s.db e).1 s.routed ∨ Retired chId (handle site s.db e).1 := by
  have hchange : Change site e s.db (handle site s.db e).1 := (handle_lawful hdb e).change
  have hdb' := hdb.change hchange
  have hsteady := Or.resolve_left hsteady hphase
  rcases s.routed.eq_nil_or_concat with hnil | ⟨_, user, hconcat⟩
  · left
    rw [hnil]
    exact settled_nil
  by_cases hgone : (handle site s.db e).1.getChannel chId = none
  · right
    -- who has the post was subscribed, so the number is an old one
    obtain ⟨row, hrow, -⟩ := h.subscribed user (by rw [hconcat]; simp)
    obtain ⟨hrow, hid⟩ := mem_filter.1 hrow
    rw [decide_eq_true_eq] at hid
    obtain ⟨ch, hch, hch'⟩ := hdb.subscribers row hrow
    have hlt := hdb.numbered ch hch
    rw [hch', hid] at hlt
    refine ⟨hlt.trans_le hchange.nextChannel_le, fun ch' hmem heq => ?_⟩
    obtain ⟨ch'', hch''⟩ := Db.exists_getChannel ⟨ch', hmem, heq⟩
    rw [hgone] at hch''
    cases hch''
  · left
    have hstays : ∀ a ∈ rowsOf chId s.db, a.subscriberJid ∈ s.routed →
        a ∈ rowsOf chId (handle site s.db e).1 := by
      intro a ha hrouted
      have hmem := (hsteady a ha hrouted).1.resolve_right hgone
      exact mem_filter.2 ⟨hmem, (mem_filter.1 ha).2⟩
    refine ⟨fun user huser => ?_, fun a ha b hb hrouted hnew => ?_⟩
    · obtain ⟨row, hrow, rfl⟩ := h.subscribed user huser
      exact ⟨row, hstays row hrow huser, rfl⟩
    · obtain ⟨row, hrow, hjid⟩ := h.subscribed a.subscriberJid hrouted
      obtain rfl := hdb'.eq_of_subscriberJid (hstays row hrow (by rw [hjid]; exact hrouted)) ha hjid
      by_cases hold : b ∈ s.db.subscribers
      · exact h.first row hrow b (mem_filter.2 ⟨hold, (mem_filter.1 hb).2⟩) hrouted hnew
      · exact (hsteady row hrow hrouted).2 b hb hold

theorem Settled.read (hs : Placed s)
    (hphase : s.phase = .loop offset) (hrows : InOrder chId s.db rows)
    (haligned : Aligned chId s (.read rows)) :
    Settled chId s.db (s.routed ++ page rows offset) := by
  have hjids := hrows.nodup hs.sound
  have hlength := hs.loop offset hphase
  have hpassed := haligned offset hphase hrows
  have htake : ∀ n, (rows.map Subscriber.subscriberJid).take n =
      (rows.take n).map Subscriber.subscriberJid := fun n => map_take.symm
  have hpage : page rows offset ⊆ rows.map Subscriber.subscriberJid := fun user huser =>
    mem_of_mem_drop (mem_of_mem_take huser)
  refine ⟨fun user huser => ?_, fun a ha b hb hrouted hnew => ?_⟩
  · rcases mem_append.1 huser with huser | huser
    · exact h.subscribed user huser
    · obtain ⟨row, hrow, rfl⟩ := mem_map.1 (hpage huser)
      exact ⟨row, hrows.1.mem_iff.1 hrow, rfl⟩
  · -- `a` is among the rows up to the end of the page, `b` behind them
    have hrest : b ∉ rows.take (offset + fanoutChunk) := by
      intro hmem
      refine hnew (Offset.take_add_subset hpassed ?_)
      rw [htake]
      exact mem_map_of_mem hmem
    have hfront : a ∈ rows.take (offset + fanoutChunk) := by
      have hjid : a.subscriberJid ∈
          (rows.map Subscriber.subscriberJid).take (offset + fanoutChunk) := by
        rw [take_add, mem_append]
        rcases mem_append.1 hrouted with hrouted | hrouted
        · left
          have hmem := mem_map_of_mem (f := Subscriber.subscriberJid) (hrows.1.mem_iff.2 ha)
          rw [← take_append_drop offset (rows.map _), mem_append] at hmem
          refine hmem.resolve_right fun hdrop => ?_
          rw [← hlength] at hdrop hpassed
          exact Offset.notMem_of_mem_drop hjids hpassed hdrop hrouted
        · exact .inr hrouted
      rw [htake] at hjid
      obtain ⟨row, hrow, hjid⟩ := mem_map.1 hjid
      have heq := hs.sound.eq_of_subscriberJid (hrows.1.mem_iff.1 (mem_of_mem_take hrow)) ha hjid
      rwa [← heq]
    have hsorted := hrows.2
    have hmem := hrows.1.mem_iff.2 hb
    rw [← take_append_drop (offset + fanoutChunk) rows] at hsorted hmem
    have hbehind := (mem_append.1 hmem).resolve_left hrest
    exact (pairwise_append.1 hsorted).2.2 a hfront b hbehind

end

/-- **Reads find their places** as long as a run is steady. -/
theorem aligned_of_steady (hdb : Sound db)
    (hguard : Guarded (FanOut.step site chId) (Steady site chId) { db := db } es) :
    Guarded (FanOut.step site chId) (Aligned chId) { db := db } es := by
  let I (s : FanOut) : Prop := Placed s ∧ s.routed.Nodup ∧
    (s.phase ≠ .done → Settled chId s.db s.routed ∨ Retired chId s.db)
  have haligned : ∀ s e, I s → Steady site chId s e → Aligned chId s e := by
    rintro s e ⟨hplaced, hnodup, hfront⟩ hsteady
    cases e with
    | read rows =>
      intro offset hphase hrows
      rcases hfront (by rw [hphase]; nofun) with hsettled | hretired
      · exact hsettled.aligned hplaced hnodup hsteady offset hphase hrows
      · have hperm := hrows.1
        rw [hretired.rowsOf_eq_nil hplaced.sound, perm_nil] at hperm
        rw [hperm, map_nil, take_nil]
        exact nil_subset _
    | request e => trivial
    | lookUp => trivial
  have hstart : I { db := db } := ⟨placed_start hdb, nodup_nil, fun _ => .inl settled_nil⟩
  refine Guarded.of_invariant haligned ?_ hstart hguard
  rintro s e s' ⟨hplaced, hnodup, hfront⟩ hsteady hse
  have hplace := haligned s e ⟨hplaced, hnodup, hfront⟩ hsteady
  refine ⟨hplaced.step hse, ?_⟩
  cases e with
  | request e =>
    cases hse
    refine ⟨hnodup, fun hphase => ?_⟩
    rcases hfront hphase with hsettled | hretired
    · exact hsettled.request hplaced.sound hsteady hphase
    · exact .inr (hretired.change (handle_lawful hplaced.sound e).change)
  | lookUp =>
    rw [FanOut.step] at hse
    split at hse
    · next hphase =>
      cases hse
      exact ⟨hnodup, fun _ => hfront (by rw [hphase]; nofun)⟩
    · cases hse
  | read rows =>
    obtain ⟨offset, hphase, hrows, rfl⟩ := step_read_eq_some.1 hse
    refine ⟨(hplaced.read hnodup hphase hrows hplace).1, fun _ => ?_⟩
    exact (hfront (by rw [hphase]; nofun)).imp_left fun hsettled =>
      hsettled.read hplaced hphase hrows hplace

/-! ## How many pages there are -/

/-- Whether a page is read. -/
def FanOutEvent.isRead : FanOutEvent → Bool
  | .read _ => true
  | _ => false

/-- What the pages so far say of the users there are. -/
structure Counted (users : List Jid) (es : List FanOutEvent) (s : FanOut) : Prop where
  spawned : s.phase = .spawned → es.countP FanOutEvent.isRead = 0
  loop : ∀ offset, s.phase = .loop offset →
    fanoutChunk * es.countP FanOutEvent.isRead = offset ∧ offset ≤ users.length
  done : s.phase = .done →
    fanoutChunk * es.countP FanOutEvent.isRead ≤ users.length + fanoutChunk

/-- A step of the process whose tables have subscribers only who are counted. -/
theorem Counted.step {users : List Jid} (h : Counted users es s) (hs : Placed s)
    (husers : ∀ user, s.db.isSubscriber chId user = true → user ∈ users)
    (hstep : s.step site chId e = some s') : Counted users (es ++ [e]) s' := by
  cases e with
  | request e =>
    cases hstep
    have hcount : (es ++ [FanOutEvent.request e]).countP FanOutEvent.isRead =
        es.countP FanOutEvent.isRead := by simp [FanOutEvent.isRead]
    exact ⟨by rw [hcount]; exact h.spawned, by rw [hcount]; exact h.loop,
      by rw [hcount]; exact h.done⟩
  | lookUp =>
    have hcount : (es ++ [FanOutEvent.lookUp]).countP FanOutEvent.isRead =
        es.countP FanOutEvent.isRead := by simp [FanOutEvent.isRead]
    rw [FanOut.step] at hstep
    split at hstep
    · next hphase =>
      cases hstep
      have hzero := h.spawned hphase
      refine ⟨fun _ => by rw [hcount, hzero], fun offset hoffset => ?_, fun _ => ?_⟩
      · split at hoffset
        · obtain rfl := Phase.loop.inj hoffset
          rw [hcount, hzero]
          omega
        · cases hoffset
      · rw [hcount, hzero]
        omega
    · cases hstep
  | read rows =>
    have hcount : (es ++ [FanOutEvent.read rows]).countP FanOutEvent.isRead =
        es.countP FanOutEvent.isRead + 1 := by simp [FanOutEvent.isRead]
    obtain ⟨offset, hphase, hrows, rfl⟩ := step_read_eq_some.1 hstep
    obtain ⟨hoffset, hle⟩ := h.loop offset hphase
    refine ⟨fun hspawned => ?_, fun offset' hoffset' => ?_, fun _ => ?_⟩
    · split at hspawned <;> cases hspawned
    · split at hoffset'
      · cases hoffset'
      · next hfull =>
        obtain rfl := Phase.loop.inj hoffset'
        -- as many rows as a full page needs are of different users
        have hsub : rows.map Subscriber.subscriberJid ⊆ users :=
          fun user huser => husers user (hrows.mem_iff.1 huser)
        have hrooms := ((hrows.nodup hs.sound).subperm hsub).length_le
        have hpositive : 0 < fanoutChunk := by decide
        rw [page, length_take, length_drop] at hfull
        rw [hcount, Nat.mul_add, hoffset]
        omega
    · rw [hcount, Nat.mul_add, hoffset]
      omega

/-- **The loop ends**: with finitely many subscribers there are finitely many pages. -/
theorem length_reads_le {users : List Jid} (hdb : Sound db)
    (husers : ∀ h t, h <+: es → run (FanOut.step site chId) { db := db } h = some t →
    ∀ user, t.db.isSubscriber chId user = true → user ∈ users)
    (hrun : run (FanOut.step site chId) { db := db } es = some t) :
    fanoutChunk * es.countP FanOutEvent.isRead ≤ users.length + fanoutChunk := by
  let P (h : List FanOutEvent) (s : FanOut) : Prop :=
    run (FanOut.step site chId) { db := db } h = some s ∧ Placed s ∧ (h <+: es → Counted users h s)
  have hstart : P [] { db := db } := ⟨rfl, placed_start hdb, fun _ => ⟨fun _ => rfl, nofun, nofun⟩⟩
  have hstep : ∀ h s e s', P h s → s.step site chId e = some s' → P (h ++ [e]) s' := by
    rintro h s e s' ⟨hrun, hplaced, hcounted⟩ hse
    refine ⟨by rw [run_concat, hrun]; exact hse, hplaced.step hse, fun hinit => ?_⟩
    have hinit : h <+: es := (prefix_append h [e]).trans hinit
    exact (hcounted hinit).step hplaced (husers h s hinit hrun) hse
  obtain ⟨-, -, hcounted⟩ := run_induction hstep hstart hrun
  have hcounted := hcounted prefix_rfl
  cases hphase : t.phase with
  | spawned =>
    rw [hcounted.spawned hphase]
    omega
  | loop offset =>
    have := hcounted.loop offset hphase
    omega
  | done => exact hcounted.done hphase

theorem exists_read (site : Site) (hphase : s.phase = .loop offset) :
    ∃ rows s', s.step site chId (.read rows) = some s' := by
  have hrows : InOrder chId s.db (Db.subscribersOf chId s.db) :=
    ⟨Keyset.ascending_perm _ _, pairwise_insertionSort _ _⟩
  exact ⟨_, _, step_read_eq_some.2 ⟨offset, hphase, hrows, rfl⟩⟩

/-! ## The fan-out and the history -/

theorem placed_of_run (hdb : Sound db)
    (hrun : run (FanOut.step site chId) { db := db } es = some t) : Placed t :=
  run_induction (P := fun _ s => Placed s) (fun _ _ _ _ hs hse => hs.step hse)
    (placed_start hdb) hrun

/-- **The fan-out of a post, and the history behind it.** Every steady subscriber gets the post
once, and nobody twice, where the reads pass over those only who have it; the loop ends, and the
history is complete. -/
theorem fanOut_correct (site : Site) (chId : ℤ) (hdb : Sound db) :
    (∀ es t, Guarded (FanOut.step site chId) (Aligned chId) { db := db } es →
    run (FanOut.step site chId) { db := db } es = some t → Reaches site chId { db := db } es t) ∧
    (∀ es, Guarded (FanOut.step site chId) (Steady site chId) { db := db } es →
    Guarded (FanOut.step site chId) (Aligned chId) { db := db } es) ∧
    (∀ es s offset rows user, run (FanOut.step site chId) { db := db } es = some s →
    s.phase = .loop offset → InOrder chId s.db rows →
      user ∈ (rows.map Subscriber.subscriberJid).take offset → user ∉ s.routed →
        Throughout site chId { db := db } es user →
          ∃ n t, run (FanOut.step site chId) { db := db } (es ++ replicate n (.read rows)) =
              some t ∧ t.phase = .done ∧
            ¬ Reaches site chId { db := db } (es ++ replicate n (.read rows)) t) ∧
    (∀ es t, run (FanOut.step site chId) { db := db } es = some t →
    (∀ users : List Jid, (∀ h s, h <+: es → run (FanOut.step site chId) { db := db } h = some s →
        ∀ user, s.db.isSubscriber chId user = true → user ∈ users) →
          fanoutChunk * es.countP FanOutEvent.isRead ≤ users.length + fanoutChunk) ∧
    ∀ offset, t.phase = .loop offset → ∃ rows t', t.step site chId (.read rows) = some t') ∧
    (∀ es t, run (Reading.step site chId) { db := db } es = some t →
    HistoryRead site chId db es t) := by
  refine ⟨fun es t => reaches_of_guarded hdb, fun es => aligned_of_steady hdb, ?_, ?_,
    fun es t => historyRead_of_run hdb⟩
  · intro es s offset rows user hrun hphase hrows hpassed hnew huser
    exact lost_of_passed_over (placed_of_run hdb hrun) hrun hphase hrows hpassed hnew huser
  · intro es t hrun
    exact ⟨fun users husers => length_reads_le hdb husers hrun,
      fun offset hphase => exists_read site hphase⟩

/-! ### A crowd that joins in one second -/

def crowdSite : Site where
  fromBinary _ := none
  lowercase := id
  like _ _ := false

def founder : Jid := ⟨"founder", "here", ""⟩

def crowdMember (i : ℕ) : Jid := ⟨Erlang.integerToBinary i, "here", ""⟩

variable (n : ℕ)

/-- The rows of the crowd. -/
def crowdRows : List Subscriber := (List.range n).map fun i => ⟨1, crowdMember i, 5⟩

/-- A channel without subscribers. -/
def founded : Db where
  channels := [⟨1, "here", founder, "news", "News", "", .publicChannel, 1⟩]
  admins := [⟨1, founder, .owner, 1⟩]
  nextChannel := 2

/-- The channel with so many subscribers. -/
def crowd : Db := { founded with subscribers := crowdRows n }

theorem crowdMember_inj {i j : ℕ} (h : crowdMember i = crowdMember j) : i = j := by
  have hluser : Erlang.integerToBinary i = Erlang.integerToBinary j := congrArg Jid.luser h
  exact Int.ofNat_inj.1 (Erlang.integerToBinary_inj hluser)

variable (n : ℕ)

theorem subscriberJid_crowdRows :
    (crowdRows n).map Subscriber.subscriberJid = (range n).map crowdMember := by
  rw [crowdRows, map_map]
  rfl

theorem rowsOf_crowd : rowsOf 1 (crowd n) = crowdRows n := by
  show (crowdRows n).filter _ = crowdRows n
  rw [filter_eq_self]
  intro row hrow
  obtain ⟨i, -, rfl⟩ := mem_map.1 hrow
  rfl

theorem sound_founded : Sound founded where
  numbered := by decide
  unique := by decide
  admins := by decide
  subscribers := nofun
  messages := nofun
  adminFits := by decide
  adminBare := by decide
  ownerRow := by decide
  ownerLocal := by decide
  messageNumbered := nofun
  messageUnique := .nil
  messagePositive := ⟨by decide, nofun⟩
  subscriberUnique := nodup_nil

theorem sound_crowd : Sound (crowd n) := by
  refine { sound_founded with subscribers := ?_, subscriberUnique := ?_ }
  · intro row hrow
    obtain ⟨i, -, rfl⟩ := mem_map.1 hrow
    exact ⟨_, mem_cons_self, rfl⟩
  · show ((crowdRows n).map _).Nodup
    rw [crowdRows, map_map]
    refine nodup_range.map fun i j h => ?_
    exact crowdMember_inj (Prod.mk.inj h).2

/-- The crowd in its order, and in the other one. -/
theorem inOrder_crowd {n : ℕ} {rows : List Subscriber} (h : rows.Perm (crowdRows n)) :
    InOrder 1 (crowd n) rows := by
  refine ⟨by rwa [rowsOf_crowd], ?_⟩
  have hall : ∀ row ∈ rows, row.joinedAt = 5 := by
    intro row hrow
    obtain ⟨i, -, rfl⟩ := mem_map.1 (h.mem_iff.1 hrow)
    rfl
  exact pairwise_of_forall_mem_list fun a ha b hb => by rw [hall a ha, hall b hb]

theorem page_crowdRows :
    page (crowdRows (fanoutChunk + n)) 0 = (range fanoutChunk).map crowdMember := by
  rw [page, subscriberJid_crowdRows, range_add, map_append, drop_zero]
  exact take_left' (by rw [length_map, length_range])

theorem run_first_page : run (FanOut.step crowdSite 1) { db := crowd (fanoutChunk + n) }
      [.lookUp, .read (crowdRows (fanoutChunk + n))] =
    some ⟨crowd (fanoutChunk + n), .loop fanoutChunk, (range fanoutChunk).map crowdMember⟩ := by
  have hread : FanOut.step crowdSite 1 { db := crowd (fanoutChunk + n), phase := .loop 0 }
      (.read (crowdRows (fanoutChunk + n))) = some _ :=
    step_read_eq_some.2 ⟨0, rfl, inOrder_crowd .rfl, rfl⟩
  have hfull : ¬ (page (crowdRows (fanoutChunk + n)) 0).length < fanoutChunk := by
    rw [page_crowdRows, length_map, length_range]
    exact lt_irrefl _
  rw [if_neg hfull, page_crowdRows, nil_append, Nat.zero_add] at hread
  exact run_cons_eq_some.2 ⟨_, rfl, run_cons_eq_some.2 ⟨_, hread, rfl⟩⟩

/-- One of the crowd leaves. -/
def leaveRequest (i : ℕ) : Event :=
  ⟨6, crowdMember i, .iq (some .set) (.mk "leave" [("id", "1")] [] "")⟩

theorem handle_leaveRequest (i : ℕ) :
    (handle crowdSite (crowd (n + 1)) (leaveRequest i)).1 =
    (crowd (n + 1)).unsubscribe 1 (crowdMember i) := rfl

theorem handle_leaveRequest_last :
    (handle crowdSite (crowd (n + 1)) (leaveRequest n)).1 = crowd n := by
  have hothers : ∀ row ∈ crowdRows n,
      decide (¬ (row.channelId = 1 ∧ row.subscriberJid = crowdMember n)) = true := by
    intro row hrow
    obtain ⟨i, hi, rfl⟩ := mem_map.1 hrow
    exact decide_eq_true fun h => (mem_range.1 hi).ne (crowdMember_inj h.2)
  have hrows : crowdRows (n + 1) = crowdRows n ++ [⟨1, crowdMember n, 5⟩] := by
    rw [crowdRows, range_succ, map_append]
    rfl
  rw [handle_leaveRequest, Db.unsubscribe, crowd, hrows, filter_append, filter_eq_self.2 hothers,
    filter_cons_of_neg (by simp)]
  simp [crowd]

theorem page_crowdRows_last : page (crowdRows (n + 1)) n = [crowdMember n] := by
  have hdrop : ((range (n + 1)).map crowdMember).drop n = [crowdMember n] := by
    rw [range_succ, map_append]
    exact drop_left' (by rw [length_map, length_range])
  rw [page, subscriberJid_crowdRows, hdrop]
  rfl

/-- Two pages, between which the last one leaves. -/
def leaveBetween : List FanOutEvent :=
  [.lookUp, .read (crowdRows (fanoutChunk + 2))] ++
    [.request (leaveRequest (fanoutChunk + 1)), .read (crowdRows (fanoutChunk + 1))]

/-- Everybody who stays gets the post, in two pages. -/
theorem fanOut_correct_example :
    ∃ t ∈ run (FanOut.step crowdSite 1) { db := crowd (fanoutChunk + 2) } leaveBetween,
    t.phase = .done ∧ t.routed = (range (fanoutChunk + 1)).map crowdMember ∧
      Reaches crowdSite 1 { db := crowd (fanoutChunk + 2) } leaveBetween t := by
  have hfirst := run_first_page 2
  have hmap : (range (fanoutChunk + 1)).map crowdMember =
      (range fanoutChunk).map crowdMember ++ [crowdMember fanoutChunk] := by
    rw [range_succ, map_append, map_singleton]
  have hlength : ((range fanoutChunk).map crowdMember).length = fanoutChunk := by
    rw [length_map, length_range]
  have hrows := subscriberJid_crowdRows (fanoutChunk + 1)
  rw [hmap] at hrows ⊢
  generalize (range fanoutChunk).map crowdMember = routed at hfirst hlength hrows ⊢
  have hleave : FanOut.step crowdSite 1 ⟨crowd (fanoutChunk + 2), .loop fanoutChunk, routed⟩
      (.request (leaveRequest (fanoutChunk + 1))) =
      some ⟨crowd (fanoutChunk + 1), .loop fanoutChunk, routed⟩ := by
    rw [FanOut.step, handle_leaveRequest_last]
  have hread : FanOut.step crowdSite 1 ⟨crowd (fanoutChunk + 1), .loop fanoutChunk, routed⟩
      (.read (crowdRows (fanoutChunk + 1))) = some _ :=
    step_read_eq_some.2 ⟨fanoutChunk, rfl, inOrder_crowd .rfl, rfl⟩
  rw [page_crowdRows_last, if_pos (by decide)] at hread
  have hrun : run (FanOut.step crowdSite 1) { db := crowd (fanoutChunk + 2) } leaveBetween =
      some ⟨crowd (fanoutChunk + 1), .done, routed ++ [crowdMember fanoutChunk]⟩ := by
    rw [leaveBetween, run_append, hfirst, Option.bind_some]
    exact run_cons_eq_some.2 ⟨_, hleave, run_cons_eq_some.2 ⟨_, hread, rfl⟩⟩
  refine ⟨_, hrun, rfl, rfl, (fanOut_correct crowdSite 1 (sound_crowd _)).1 _ _ ?_ hrun⟩
  refine guarded_append ?_ hfirst ?_
  · refine (guarded_cons _ _ _).2 ⟨trivial, fun s hs => ?_⟩
    refine (guarded_cons _ _ _).2 ⟨?_, fun _ _ => trivial⟩
    cases hs
    intro offset hphase _
    obtain rfl := Phase.loop.inj hphase
    exact nil_subset _
  · -- the rows of the first page are still the first ones when the second page is read
    refine (guarded_cons _ _ _).2 ⟨trivial, fun s hs => ?_⟩
    refine (guarded_cons _ _ _).2 ⟨?_, fun _ _ => trivial⟩
    obtain rfl := Option.some.inj (hleave.symm.trans hs)
    intro offset hphase _
    obtain rfl := Phase.loop.inj hphase
    rw [hrows, take_left' hlength]
    exact Subset.refl _

/-- The rows behind the first one. -/
def crowdTail : List Subscriber := (List.range n).map fun i => ⟨1, crowdMember (i + 1), 5⟩

theorem crowdRows_succ : crowdRows (n + 1) = ⟨1, crowdMember 0, 5⟩ :: crowdTail n := by
  rw [crowdRows, range_succ_eq_map, map_cons, map_map]
  rfl

theorem length_crowdTail : (crowdTail n).length = n := by
  rw [crowdTail, length_map, length_range]

/-- Behind a page of the rows in the other order is the first one. -/
theorem page_reverse : page (crowdRows (n + 1)).reverse n = [crowdMember 0] := by
  have hdrop : ((crowdRows (n + 1)).reverse.map Subscriber.subscriberJid).drop n =
      [crowdMember 0] := by
    rw [crowdRows_succ, reverse_cons, map_append]
    refine drop_left' ?_
    rw [length_map, length_reverse, length_crowdTail]
  rw [page, hdrop]
  rfl


/-- What the first one leaves behind. -/
def crowdLeft : Db := { founded with subscribers := crowdTail n }

theorem handle_leaveRequest_first :
    (handle crowdSite (crowd (n + 1)) (leaveRequest 0)).1 = crowdLeft n := by
  have hothers : ∀ row ∈ crowdTail n,
      decide (¬ (row.channelId = 1 ∧ row.subscriberJid = crowdMember 0)) = true := by
    intro row hrow
    obtain ⟨i, -, rfl⟩ := mem_map.1 hrow
    exact decide_eq_true fun h => absurd (crowdMember_inj h.2) (Nat.succ_ne_zero i)
  rw [handle_leaveRequest, Db.unsubscribe, crowd, crowdRows_succ, filter_cons_of_neg (by decide),
    filter_eq_self.2 hothers]
  rfl

theorem inOrder_crowdLeft : InOrder 1 (crowdLeft n) (crowdTail n) := by
  constructor
  · show (crowdTail n).Perm ((crowdTail n).filter _)
    rw [filter_eq_self.2]
    intro row hrow
    obtain ⟨i, -, rfl⟩ := mem_map.1 hrow
    rfl
  · rw [crowdTail, pairwise_map]
    exact pairwise_of_forall fun _ _ => le_rfl

/-- The last one is a subscriber, with the first one or without. -/
theorem isSubscriber_last {n : ℕ} {db : Db} (hdb : db = crowd (n + 2) ∨ db = crowdLeft (n + 1)) :
    db.isSubscriber 1 (crowdMember (n + 1)) = true := by
  rw [Db.isSubscriber_iff]
  rcases hdb with rfl | rfl
  · exact ⟨_, mem_map_of_mem (mem_range.2 (Nat.lt_succ_self (n + 1))), rfl, rfl⟩
  · exact ⟨_, mem_map_of_mem (mem_range.2 (Nat.lt_succ_self n)), rfl, rfl⟩

/-- **A fan-out in pages misses somebody**: a crowd joined in one second is read in another order
the second time, or the first one leaves after the first page. -/
theorem fanOut_misses : (∃ t ∈ run (FanOut.step crowdSite 1) { db := crowd (fanoutChunk + 1) }
      [.lookUp, .read (crowdRows (fanoutChunk + 1)), .read (crowdRows (fanoutChunk + 1)).reverse],
    t.phase = .done ∧ ¬ Reaches crowdSite 1 { db := crowd (fanoutChunk + 1) }
      [.lookUp, .read (crowdRows (fanoutChunk + 1)), .read (crowdRows (fanoutChunk + 1)).reverse]
        t) ∧
    ∃ t ∈ run (FanOut.step crowdSite 1) { db := crowd (fanoutChunk + 1) }
      [.lookUp, .read (crowdRows (fanoutChunk + 1)), .request (leaveRequest 0),
        .read (crowdTail fanoutChunk)],
    t.phase = .done ∧ ¬ Reaches crowdSite 1 { db := crowd (fanoutChunk + 1) }
      [.lookUp, .read (crowdRows (fanoutChunk + 1)), .request (leaveRequest 0),
        .read (crowdTail fanoutChunk)] t := by
  have hfirst := run_first_page 1
  have hmem (i : ℕ) : crowdMember i ∈ (range fanoutChunk).map crowdMember ↔ i < fanoutChunk := by
    rw [mem_map_of_injective fun i j => crowdMember_inj, mem_range]
  generalize (range fanoutChunk).map crowdMember = routed at hfirst hmem
  constructor
  · have hread : FanOut.step crowdSite 1 ⟨crowd (fanoutChunk + 1), .loop fanoutChunk, routed⟩
        (.read (crowdRows (fanoutChunk + 1)).reverse) = some _ :=
      step_read_eq_some.2 ⟨fanoutChunk, rfl, inOrder_crowd (reverse_perm _), rfl⟩
    rw [page_reverse, if_pos (by decide)] at hread
    have hrun : run (FanOut.step crowdSite 1) { db := crowd (fanoutChunk + 1) }
        ([.lookUp, .read (crowdRows (fanoutChunk + 1))] ++
          [.read (crowdRows (fanoutChunk + 1)).reverse]) =
        some ⟨crowd (fanoutChunk + 1), .done, routed ++ [crowdMember 0]⟩ := by
      rw [run_append, hfirst, Option.bind_some]
      exact run_cons_eq_some.2 ⟨_, hread, rfl⟩
    refine ⟨_, hrun, rfl, fun hreaches => ?_⟩
    exact disjoint_of_nodup_append hreaches.nobodyTwice ((hmem 0).2 (by decide)) mem_cons_self
  · have hpage : page (crowdTail fanoutChunk) fanoutChunk = [] := by
      rw [page, drop_eq_nil_of_le, take_nil]
      rw [length_map, length_crowdTail]
    have hleave : FanOut.step crowdSite 1 ⟨crowd (fanoutChunk + 1), .loop fanoutChunk, routed⟩
        (.request (leaveRequest 0)) = some ⟨crowdLeft fanoutChunk, .loop fanoutChunk, routed⟩ := by
      rw [FanOut.step, handle_leaveRequest_first]
    have hread : FanOut.step crowdSite 1 ⟨crowdLeft fanoutChunk, .loop fanoutChunk, routed⟩
        (.read (crowdTail fanoutChunk)) = some _ :=
      step_read_eq_some.2 ⟨fanoutChunk, rfl, inOrder_crowdLeft fanoutChunk, rfl⟩
    rw [hpage, if_pos (by decide), append_nil] at hread
    have hrun : run (FanOut.step crowdSite 1) { db := crowd (fanoutChunk + 1) }
        ([.lookUp, .read (crowdRows (fanoutChunk + 1))] ++
          [.request (leaveRequest 0), .read (crowdTail fanoutChunk)]) =
        some ⟨crowdLeft fanoutChunk, .done, routed⟩ := by
      rw [run_append, hfirst, Option.bind_some]
      exact run_cons_eq_some.2 ⟨_, hleave, run_cons_eq_some.2 ⟨_, hread, rfl⟩⟩
    refine ⟨_, hrun, rfl, fun hreaches => ?_⟩
    have hthroughout : Throughout crowdSite 1 { db := crowd (fanoutChunk + 1) }
        [.lookUp, .read (crowdRows (fanoutChunk + 1)), .request (leaveRequest 0),
          .read (crowdTail fanoutChunk)] (crowdMember fanoutChunk) := by
      intro h t hinit ht
      refine isSubscriber_last ?_
      rcases prefix_cons_iff.1 hinit with rfl | ⟨h₁, rfl, hinit₁⟩
      · cases ht
        exact .inl rfl
      obtain ⟨s, hs, ht⟩ := run_cons_eq_some.1 ht
      have hdb : s.db = crowd (fanoutChunk + 1) := db_of_step hs nofun
      rcases prefix_cons_iff.1 hinit₁ with rfl | ⟨h₂, rfl, hinit₂⟩
      · cases ht
        exact .inl hdb
      obtain ⟨s', hs', ht⟩ := run_cons_eq_some.1 ht
      replace hdb : s'.db = crowd (fanoutChunk + 1) := (db_of_step hs' nofun).trans hdb
      rcases prefix_cons_iff.1 hinit₂ with rfl | ⟨h₃, rfl, hinit₃⟩
      · cases ht
        exact .inl hdb
      obtain ⟨u, hu, ht⟩ := run_cons_eq_some.1 ht
      replace hdb : u.db = crowdLeft fanoutChunk := by
        cases hu
        show (handle crowdSite s'.db (leaveRequest 0)).1 = _
        rw [hdb, handle_leaveRequest_first]
      rcases prefix_cons_iff.1 hinit₃ with rfl | ⟨h₄, rfl, hinit₄⟩
      · cases ht
        exact .inr hdb
      obtain ⟨u', hu', ht⟩ := run_cons_eq_some.1 ht
      obtain rfl := prefix_nil.1 hinit₄
      cases ht
      exact .inr ((db_of_step hu' nofun).trans hdb)
    have hcount := hreaches.everybody rfl _ hthroughout
    rw [count_eq_zero_of_not_mem fun h => lt_irrefl _ ((hmem fanoutChunk).1 h)] at hcount
    cases hcount

end MongooseIM.Channels
