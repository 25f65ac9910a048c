import Mathlib.Data.List.Sort
import MongooseIM.Transition.Run

/-! # Hooks

The server of `gen_hook`, with the instrumentation that it sets up for the keys with handlers. -/

namespace MongooseIM.Hooks

open Transition List

inductive Tag
  | global
  | hostType (name : String)
  deriving DecidableEq

/-- The name of a hook and its tag. -/
abbrev Key := String × Tag

/-- A handler, whose function is an external one of arity 3. -/
structure Handler (Extra : Type) where
  prio : ℕ
  module : String
  name : String
  extra : Extra
  deriving DecidableEq

variable {Extra Acc : Type}

/-- The server, the persistent terms and the events of `mongoose_instrument`. -/
structure System (Extra : Type) where
  state : Key → Option (List (Handler Extra)) := fun _ => none
  /-- The term that `run_fold/4` reads. -/
  persisted : Key → Option (List (Handler Extra)) := fun _ => none
  /-- The hooks whose event name is in a persistent term. -/
  named : String → Bool := fun _ => false
  events : String → List Tag := fun _ => []

/-- `maps:get(Key, State, [])` -/
def System.list (s : System Extra) (key : Key) : List (Handler Extra) := (s.state key).getD []

def System.put (s : System Extra) (key : Key) (ls : List (Handler Extra)) : System Extra :=
  { s with state := Function.update s.state key (some ls) }

/-- `is_instrumented/1` -/
def isInstrumented (hook : String) : Bool :=
  hook ∉ ["sm_register_connection", "sm_remove_connection", "auth_failed", "user_send_packet",
    "user_send_message", "user_send_presence", "user_send_iq", "user_receive_packet",
    "user_receive_message", "user_receive_presence", "user_receive_iq", "xmpp_send_element",
    "roster_get", "roster_set", "roster_push", "register_user", "remove_user", "anonymous_purge",
    "privacy_iq_get", "privacy_iq_set", "privacy_check_packet", "mam_get_prefs", "mam_set_prefs",
    "mam_remove_archive", "mam_archive_message", "mam_muc_get_prefs", "mam_muc_set_prefs",
    "mam_muc_remove_archive", "mam_muc_lookup_messages", "mam_muc_archive_message",
    "c2s_debug_traffic"]

/-- Whether the labels of two tags have the same keys. -/
def Tag.sameKeys : Tag → Tag → Bool
  | global, global => true
  | hostType _, hostType _ => true
  | _, _ => false

/-- `mongoose_instrument_hooks:set_up/2` -/
def System.setUp (s : System Extra) (key : Key) : Option (System Extra) :=
  if isInstrumented key.1 then
    let s := { s with named := Function.update s.named key.1 true }
    let register := some { s with
      events := Function.update s.events key.1 (key.2 :: s.events key.1) }
    if key.2 ∈ s.events key.1 then none
    else
      match s.events key.1 with
      | [] => register
      -- labels with other keys are refused, and the error is only logged
      | tag :: _ => if tag.sameKeys key.2 then register else some s
  else some s

/-- `mongoose_instrument_hooks:tear_down/2` -/
def System.tearDown (s : System Extra) (key : Key) : System Extra :=
  if isInstrumented key.1 then
    { s with
      named := Function.update s.named key.1 false
      events := Function.update s.events key.1 ((s.events key.1).filter (· ≠ key.2)) }
  else s

/-- `mongoose_instrument_hooks:execute/2`, which fails when the event is not registered. -/
def System.executes (s : System Extra) (key : Key) : Bool :=
  !(isInstrumented key.1 && s.named key.1) || key.2 ∈ s.events key.1

inductive HookFnRet (Acc : Type)
  | ok (acc : Acc)
  | stop (acc : Acc)

/-- What `apply_hook_function/3` returns, with `none` for an exception. -/
abbrev Apply (Extra Acc : Type) := Handler Extra → Acc → Option (HookFnRet Acc)

/-- `run_hook/4` -/
def runHook (apply : Apply Extra Acc) : List (Handler Extra) → Acc → HookFnRet Acc
  | [], acc => .ok acc
  | h :: ls, acc =>
    match apply h acc with
    | some (.ok newAcc) => runHook apply ls newAcc
    | some (.stop newAcc) => .stop newAcc
    | none => runHook apply ls acc

/-- `run_fold/4` -/
def System.runFold (s : System Extra) (apply : Apply Extra Acc) (key : Key) (acc : Acc) :
    Option (HookFnRet Acc) :=
  match s.persisted key with
  | some ls => if s.executes key then some (runHook apply ls acc) else none
  | none => some (.ok acc)

/-- One handler in a left fold: what has stopped stays, and a crash leaves the accumulator. -/
def foldStep (apply : Apply Extra Acc) : HookFnRet Acc → Handler Extra → HookFnRet Acc
  | .stop acc, _ => .stop acc
  | .ok acc, h => (apply h acc).getD (.ok acc)

theorem foldl_stop (apply : Apply Extra Acc) (ls : List (Handler Extra)) (acc : Acc) :
    ls.foldl (foldStep apply) (.stop acc) = .stop acc := by
  induction ls with
  | nil => rfl
  | cons h ls ih => exact ih

theorem runHook_eq (apply : Apply Extra Acc) (ls : List (Handler Extra)) (acc : Acc) :
    runHook apply ls acc = ls.foldl (foldStep apply) (.ok acc) := by
  induction ls generalizing acc with
  | nil => rfl
  | cons h ls ih =>
    rw [runHook, foldl_cons, foldStep]
    cases apply h acc with
    | none => exact ih acc
    | some ret =>
      cases ret with
      | ok newAcc => exact ih newAcc
      | stop newAcc => exact (foldl_stop apply ls newAcc).symm

/-- The list holds the handlers, sorted; those of one priority are in the same order. -/
structure Ordered (ls l : List (Handler Extra)) : Prop where
  nodup : ls.Nodup
  sorted : ls.Pairwise fun a b => a.prio ≤ b.prio
  order : ∀ p, ls.filter (fun h => h.prio = p) = l.filter fun h => h.prio = p

variable {ls l : List (Handler Extra)} {h : Handler Extra}

theorem Ordered.mem_iff (hl : Ordered ls l) (h : Handler Extra) : h ∈ ls ↔ h ∈ l := by
  have hmem := congrArg (h ∈ ·) (hl.order h.prio)
  simpa using hmem

theorem filter_merge (hsorted : ls.Pairwise fun a b => a.prio ≤ b.prio) (h : Handler Extra)
    (p : ℕ) :
    (ls.merge [h] fun a b => a.prio ≤ b.prio).filter (fun h => h.prio = p) =
    (ls ++ [h]).filter fun h => h.prio = p := by
  induction ls with
  | nil => rw [nil_merge, nil_append]
  | cons a ls ih =>
    obtain ⟨hfirst, hsorted⟩ := pairwise_cons.1 hsorted
    rw [cons_merge_cons]
    split
    · rw [cons_append, filter_cons, filter_cons, ih hsorted]
    · next hlt =>
      have hlt : h.prio < a.prio := by simpa using hlt
      -- all that follows has a greater priority
      have hrest : ∀ b ∈ a :: ls, h.prio < b.prio := by
        intro b hb
        rcases mem_cons.1 hb with rfl | hb
        · exact hlt
        · exact hlt.trans_le (hfirst b hb)
      rw [filter_append, merge_right, filter_cons]
      by_cases hp : h.prio = p
      · have hnil : (a :: ls).filter (fun b => b.prio = p) = [] := by
          rw [filter_eq_nil_iff]
          intro b hb heq
          exact absurd (hp.trans (of_decide_eq_true heq).symm) (hrest b hb).ne
        rw [hnil]
        simp [hp]
      · simp [hp]

theorem filter_ne_merge [DecidableEq Extra] (hnew : h ∉ ls) :
    (ls.merge [h] fun a b => a.prio ≤ b.prio).filter (· ≠ h) = ls := by
  induction ls with
  | nil => simp
  | cons a ls ih =>
    rw [cons_merge_cons]
    split
    · rw [mem_cons, not_or] at hnew
      rw [filter_cons_of_pos (by simpa using Ne.symm hnew.1), ih hnew.2]
    · rw [merge_right, filter_cons_of_neg (by simp), filter_eq_self]
      exact fun b hb => decide_eq_true fun heq => hnew (heq ▸ hb)

theorem Ordered.insert (hl : Ordered ls l) (hnew : h ∉ ls) :
    Ordered (ls.merge [h] fun a b => a.prio ≤ b.prio) (l ++ [h]) := by
  constructor
  · rw [(merge_perm_append _).nodup_iff]
    exact hl.nodup.append (nodup_singleton h) (by simpa using hnew)
  · have hmerged := @List.pairwise_merge _ (fun a b : Handler Extra => a.prio ≤ b.prio)
      (fun _ _ _ => by simpa using le_trans) (fun a b => by simpa using le_total a.prio b.prio)
      ls [h] (hl.sorted.imp (by simp)) (pairwise_singleton _ h)
    exact hmerged.imp (by simp)
  · intro p
    rw [filter_merge hl.sorted, filter_append, filter_append, hl.order p]

variable [DecidableEq Extra] {key : Key}

/-- `fun_is_handler_equal_to/1` -/
def isHandlerEqualTo (h₀ h₁ : Handler Extra) : Bool :=
  h₀.prio = h₁.prio && h₀.extra = h₁.extra && h₀.module = h₁.module && h₀.name = h₁.name

/-- The call `add_handler`, with `lists:keymerge/3` on the priority. -/
def System.addHandler (s : System Extra) (key : Key) (h : Handler Extra) :
    Option (System Extra) :=
  match s.list key with
  | [] => (s.setUp key).map (·.put key [h])
  | ls =>
    if ls.any (isHandlerEqualTo h) then some s
    else some (s.put key (ls.merge [h] fun a b => a.prio ≤ b.prio))

/-- The call `delete_handler`. -/
def System.deleteHandler (s : System Extra) (key : Key) (h : Handler Extra) : System Extra :=
  match s.list key with
  | [] => s
  | ls =>
    let newLs := ls.filter fun h' => !isHandlerEqualTo h h'
    (if newLs = [] then s.tearDown key else s).put key newLs

/-- The call `reload_hooks`. -/
def System.reloadHooks (s : System Extra) : System Extra := { s with persisted := s.state }

inductive Call (Extra : Type)
  | add (key : Key) (h : Handler Extra)
  | delete (key : Key) (h : Handler Extra)
  | reload

/-- `handle_call/3` -/
def handleCall (s : System Extra) : Call Extra → Option (System Extra)
  | .add key h => s.addHandler key h
  | .delete key h => some (s.deleteHandler key h)
  | .reload => some s.reloadHooks

/-- A handler goes behind those of its priority. -/
def insertHandler (ls : List (Handler Extra)) (h : Handler Extra) : List (Handler Extra) :=
  if h ∈ ls then ls else ls.merge [h] fun a b => a.prio ≤ b.prio

/-- One call, for the list of a key. -/
def listStep (key : Key) (ls : List (Handler Extra)) : Call Extra → List (Handler Extra)
  | .add key' h => if key' = key then insertHandler ls h else ls
  | .delete key' h => if key' = key then ls.filter (· ≠ h) else ls
  | .reload => ls

/-- One call, for the handlers of a key in order of addition. -/
def keepStep (key : Key) (l : List (Handler Extra)) : Call Extra → List (Handler Extra)
  | .add key' h => if key' = key ∧ h ∉ l then l ++ [h] else l
  | .delete key' h => if key' = key then l.filter (· ≠ h) else l
  | .reload => l

/-- The handlers of a key that were added and not deleted since, in order of addition. -/
def kept (key : Key) (calls : List (Call Extra)) : List (Handler Extra) :=
  calls.foldl (keepStep key) []

/-- **One call keeps the list and the handlers together.** -/
theorem Ordered.step (hl : Ordered ls l) (call : Call Extra) :
    Ordered (listStep key ls call) (keepStep key l call) := by
  cases call with
  | add key' h =>
    simp only [listStep, keepStep, insertHandler, ← hl.mem_iff h]
    by_cases hkey : key' = key
    · by_cases hmem : h ∈ ls
      · simpa [hkey, hmem] using hl
      · simpa [hkey, hmem] using hl.insert hmem
    · simpa [hkey] using hl
  | delete key' h =>
    simp only [listStep, keepStep]
    split
    · refine ⟨hl.nodup.filter _, hl.sorted.filter _, fun p => ?_⟩
      rw [filter_comm, hl.order p, filter_comm]
    · exact hl
  | reload => exact hl

theorem ordered_kept (key : Key) (calls : List (Call Extra)) :
    Ordered (calls.foldl (listStep key) []) (kept key calls) := by
  induction calls using reverseRecOn with
  | nil => exact ⟨nodup_nil, List.Pairwise.nil, fun _ => rfl⟩
  | append_singleton calls call ih =>
    rw [kept, foldl_concat, foldl_concat]
    exact ih.step call

theorem exists_concat_iff {α : Type} {x y a : α} {l : List α} :
    (∃ before after, l ++ [a] = before ++ x :: after ∧ y ∉ after) ↔
    a = x ∨ a ≠ y ∧ ∃ before after, l = before ++ x :: after ∧ y ∉ after := by
  constructor
  · rintro ⟨before, after, heq, hy⟩
    rcases eq_nil_or_concat after with rfl | ⟨after, b, rfl⟩
    · exact .inl (append_inj_right' heq rfl |> head_eq_of_cons_eq)
    · rw [concat_eq_append, ← cons_append, ← append_assoc] at heq
      obtain ⟨rfl, hb⟩ := append_inj' heq rfl
      cases hb
      rw [concat_eq_append, mem_append, not_or, mem_singleton] at hy
      exact .inr ⟨Ne.symm hy.2, before, after, rfl, hy.1⟩
  · rintro (rfl | ⟨hne, before, after, rfl, hy⟩)
    · exact ⟨l, [], rfl, not_mem_nil⟩
    · exact ⟨before, after ++ [a], by simp, by simp [hy, Ne.symm hne]⟩

/-- **The handlers that are kept** are those added and not deleted since. -/
theorem mem_kept_iff {calls : List (Call Extra)} :
    h ∈ kept key calls ↔ ∃ before after, calls = before ++ .add key h :: after ∧
    .delete key h ∉ after := by
  induction calls using reverseRecOn with
  | nil => simp [kept]
  | append_singleton calls call ih =>
    rw [kept, foldl_concat, ← kept, exists_concat_iff, ← ih]
    cases call with
    | add key' h' =>
      simp only [keepStep, Call.add.injEq, ne_eq, reduceCtorEq, not_false_eq_true, true_and]
      split
      · next hnew => simp [hnew.1, or_comm, eq_comm]
      · next hold =>
        constructor
        · exact .inr
        · rintro (⟨rfl, rfl⟩ | hmem)
          · simpa using hold
          · exact hmem
    | delete key' h' =>
      simp only [keepStep, Call.delete.injEq, ne_eq, reduceCtorEq, false_or]
      split
      · next hkey =>
        simp only [mem_filter, decide_eq_true_eq, hkey, true_and]
        rw [and_comm, eq_comm]
      · next hkey => simp [hkey]
    | reload => simp [keepStep]

variable {s : System Extra}

theorem isHandlerEqualTo_iff {h₀ h₁ : Handler Extra} : isHandlerEqualTo h₀ h₁ = true ↔ h₁ = h₀ := by
  obtain ⟨prio₀, module₀, name₀, extra₀⟩ := h₀
  obtain ⟨prio₁, module₁, name₁, extra₁⟩ := h₁
  simp only [isHandlerEqualTo, Bool.and_eq_true, decide_eq_true_eq, Handler.mk.injEq]
  constructor
  · rintro ⟨⟨⟨rfl, rfl⟩, rfl⟩, rfl⟩
    exact ⟨rfl, rfl, rfl, rfl⟩
  · rintro ⟨rfl, rfl, rfl, rfl⟩
    exact ⟨⟨⟨rfl, rfl⟩, rfl⟩, rfl⟩

/-- Events are registered for keys with handlers only, so none is set up twice. -/
def System.Registered (s : System Extra) : Prop :=
  ∀ key : Key, key.2 ∈ s.events key.1 → isInstrumented key.1 = true ∧ s.list key ≠ []

omit [DecidableEq Extra] in
theorem list_put (s : System Extra) (key key' : Key) (ls : List (Handler Extra)) :
    (s.put key ls).list key' = if key' = key then ls else s.list key' := by
  simp only [System.list, System.put, Function.update_apply]
  split <;> rfl

omit [DecidableEq Extra] in
theorem list_tearDown (s : System Extra) (key key' : Key) :
    (s.tearDown key).list key' = s.list key' := by
  rw [System.tearDown]
  split <;> rfl

omit [DecidableEq Extra] in
theorem setUp_spec (h : key.2 ∉ s.events key.1) :
    ∃ s', s.setUp key = some s' ∧ s'.state = s.state ∧ ∀ key' : Key, key'.2 ∈ s'.events key'.1 →
    isInstrumented key.1 = true ∧ key' = key ∨ key'.2 ∈ s.events key'.1 := by
  rw [System.setUp]
  split
  · next hinstrumented =>
    have hregister (key' : Key) (hmem : key'.2 ∈
        Function.update s.events key.1 (key.2 :: s.events key.1) key'.1) :
        isInstrumented key.1 = true ∧ key' = key ∨ key'.2 ∈ s.events key'.1 := by
      rw [Function.update_apply] at hmem
      split at hmem
      · next hname =>
        rcases mem_cons.1 hmem with htag | hmem
        · exact .inl ⟨hinstrumented, Prod.ext hname htag⟩
        · exact .inr (hname ▸ hmem)
      · exact .inr hmem
    rw [if_neg h]
    split
    · exact ⟨_, rfl, rfl, hregister⟩
    · split
      · exact ⟨_, rfl, rfl, hregister⟩
      · exact ⟨_, rfl, rfl, fun _ => .inr⟩
  · exact ⟨s, rfl, rfl, fun _ => .inr⟩

omit [DecidableEq Extra] in
theorem mem_events_tearDown {key' : Key} (hs : s.Registered)
    (h : key'.2 ∈ (s.tearDown key).events key'.1) : key' ≠ key ∧ key'.2 ∈ s.events key'.1 := by
  rw [System.tearDown] at h
  split at h
  · simp only [Function.update_apply] at h
    split at h
    · next hname =>
      obtain ⟨hmem, hne⟩ := mem_filter.1 h
      exact ⟨fun heq => of_decide_eq_true hne (congrArg Prod.snd heq), hname ▸ hmem⟩
    · next hname => exact ⟨fun heq => hname (congrArg Prod.fst heq), h⟩
  · next hnot =>
    refine ⟨?_, h⟩
    rintro rfl
    exact hnot (hs _ h).1

theorem addHandler_spec (hs : s.Registered) (key : Key) (h : Handler Extra) :
    ∃ s', s.addHandler key h = some s' ∧ s'.Registered ∧
    ∀ key', s'.list key' = listStep key' (s.list key') (.add key h) := by
  rw [System.addHandler]
  split
  · next hnil =>
    obtain ⟨s', hset, hstate, hevents⟩ := setUp_spec fun hmem => (hs key hmem).2 hnil
    have hlist (key' : Key) : s'.list key' = s.list key' := by rw [System.list, hstate, System.list]
    refine ⟨s'.put key [h], by rw [hset, Option.map_some], fun key' hmem => ?_, fun key' => ?_⟩
    · rw [list_put]
      rcases hevents key' hmem with ⟨hinstrumented, rfl⟩ | hold
      · exact ⟨hinstrumented, by simp⟩
      · refine ⟨(hs key' hold).1, ?_⟩
        split
        · exact cons_ne_nil _ _
        · rw [hlist]
          exact (hs key' hold).2
    · rw [list_put, listStep, hlist]
      by_cases hkey : key' = key
      · simp [hkey, hnil, insertHandler]
      · simp [hkey, Ne.symm hkey]
  · next hcons =>
    have hany : (s.list key).any (isHandlerEqualTo h) = true ↔ h ∈ s.list key := by
      simp [any_eq_true, isHandlerEqualTo_iff]
    split
    · next hmem =>
      refine ⟨s, rfl, hs, fun key' => ?_⟩
      rw [listStep, insertHandler]
      split
      · next hkey => rw [if_pos (hkey ▸ hany.1 hmem)]
      · rfl
    · next hmem =>
      refine ⟨_, rfl, fun key' hkey' => ⟨(hs key' hkey').1, ?_⟩, fun key' => ?_⟩
      · rw [list_put]
        split
        · exact ne_nil_of_mem (mem_merge.2 (.inr (mem_singleton_self h)))
        · exact (hs key' hkey').2
      · rw [list_put, listStep, insertHandler]
        by_cases hkey : key' = key
        · subst hkey
          rw [if_pos rfl, if_pos rfl, if_neg (mt hany.2 hmem)]
        · rw [if_neg hkey, if_neg (Ne.symm hkey)]

theorem deleteHandler_spec (hs : s.Registered) (key : Key) (h : Handler Extra) :
    (s.deleteHandler key h).Registered ∧
    ∀ key', (s.deleteHandler key h).list key' = listStep key' (s.list key') (.delete key h) := by
  rw [System.deleteHandler]
  have hfilter : (s.list key).filter (fun h' => !isHandlerEqualTo h h') =
      (s.list key).filter (· ≠ h) := by
    refine filter_congr fun h' _ => ?_
    rw [Bool.eq_iff_iff, Bool.not_eq_true', ← Bool.not_eq_true, isHandlerEqualTo_iff,
      decide_eq_true_eq]
  split
  · next hnil =>
    refine ⟨hs, fun key' => ?_⟩
    rw [listStep]
    split
    · next hkey => rw [← hkey, hnil, filter_nil]
    · rfl
  · dsimp only
    rw [hfilter]
    split
    · next hempty =>
      refine ⟨fun key' hmem => ?_, fun key' => ?_⟩
      · obtain ⟨hkey, hmem⟩ := mem_events_tearDown hs hmem
        rw [list_put, if_neg hkey, list_tearDown]
        exact hs key' hmem
      · rw [list_put, list_tearDown, listStep]
        simp only [eq_comm]
        split
        · next hkey => rw [hkey]
        · rfl
    · next hleft =>
      refine ⟨fun key' hmem => ⟨(hs key' hmem).1, ?_⟩, fun key' => ?_⟩
      · rw [list_put]
        split
        · exact hleft
        · exact (hs key' hmem).2
      · rw [list_put, listStep]
        simp only [eq_comm]
        split
        · next hkey => rw [hkey]
        · rfl

/-- **Spec of a call**: it does not crash, and each list changes as it should. -/
theorem handleCall_spec (hs : s.Registered) (call : Call Extra) :
    ∃ s', handleCall s call = some s' ∧ s'.Registered ∧
    ∀ key, s'.list key = listStep key (s.list key) call := by
  cases call with
  | add key h => exact addHandler_spec hs key h
  | delete key h => exact ⟨_, rfl, deleteHandler_spec hs key h⟩
  | reload => exact ⟨s.reloadHooks, rfl, hs, fun _ => rfl⟩

theorem run_spec (calls : List (Call Extra)) :
    ∃ s, run handleCall ({} : System Extra) calls = some s ∧ s.Registered ∧
    ∀ key, s.list key = calls.foldl (listStep key) [] := by
  induction calls using reverseRecOn with
  | nil => exact ⟨{}, rfl, fun _ hmem => absurd hmem not_mem_nil, fun _ => rfl⟩
  | append_singleton calls call ih =>
    obtain ⟨s, hrun, hs, hlist⟩ := ih
    obtain ⟨s', hcall, hs', hlist'⟩ := handleCall_spec hs call
    refine ⟨s', by rw [run_concat, hrun, Option.bind_some, hcall], hs', fun key => ?_⟩
    rw [hlist', hlist, foldl_concat]

/-- A hook that is run for a key whose event is unknown, while the name of its event is known. -/
def System.Unregistered (s : System Extra) (key : Key) : Prop :=
  (s.persisted key).isSome ∧ isInstrumented key.1 = true ∧ s.named key.1 = true ∧
    key.2 ∉ s.events key.1

/-- The list that `run_fold/4` reads. -/
def System.reloaded (s : System Extra) (key : Key) : List (Handler Extra) :=
  (s.persisted key).getD []

omit [DecidableEq Extra] in
theorem runFold_iff (s : System Extra) (apply : Apply Extra Acc) (key : Key) (acc : Acc) :
    s.runFold apply key acc = some ((s.reloaded key).foldl (foldStep apply) (.ok acc)) ↔
    ¬ s.Unregistered key := by
  rw [System.runFold, System.reloaded, System.Unregistered]
  cases s.persisted key with
  | none => simp
  | some ls =>
    rw [Option.getD_some, ← runHook_eq]
    by_cases hmem : key.2 ∈ s.events key.1 <;>
      cases hinstrumented : isInstrumented key.1 <;> cases hnamed : s.named key.1 <;>
        simp [System.executes, hmem, hinstrumented, hnamed]

/-- **Hooks are run in order of priority**, but for the crash of the instrumentation. -/
theorem handlers_exact (calls : List (Call Extra)) :
    ∃ s, run handleCall ({} : System Extra) calls = some s ∧ ∀ key,
    (s.list key).Nodup ∧ (s.list key).Pairwise (fun a b => a.prio ≤ b.prio) ∧
    (∀ p, (s.list key).filter (fun h => h.prio = p) =
      (kept key calls).filter fun h => h.prio = p) ∧
    (∀ h, h ∈ s.list key ↔ ∃ before after, calls = before ++ .add key h :: after ∧
      .delete key h ∉ after) ∧
    (∀ h, h ∉ s.list key → ∃ s', run handleCall s [.add key h, .delete key h] = some s' ∧
      s'.list key = s.list key) ∧
    ∀ (apply : Apply Extra Acc) acc,
      s.runFold apply key acc = some ((s.reloaded key).foldl (foldStep apply) (.ok acc)) ↔
        ¬ s.Unregistered key := by
  obtain ⟨s, hrun, hs, hlist⟩ := run_spec calls
  refine ⟨s, hrun, fun key => ?_⟩
  have hordered : Ordered (s.list key) (kept key calls) := hlist key ▸ ordered_kept key calls
  refine ⟨hordered.nodup, hordered.sorted, hordered.order,
    fun h => (hordered.mem_iff h).trans mem_kept_iff, fun h hnew => ?_, fun _ _ => runFold_iff ..⟩
  obtain ⟨s₁, hadd, hs₁, hlist₁⟩ := handleCall_spec hs (.add key h)
  obtain ⟨s₂, hdelete, -, hlist₂⟩ := handleCall_spec hs₁ (.delete key h)
  refine ⟨s₂, by simp [run_cons, hadd, hdelete], ?_⟩
  rw [hlist₂, hlist₁]
  simp only [listStep, if_pos, insertHandler, if_neg hnew]
  exact filter_ne_merge hnew

/-- A hook whose handlers were all deleted cannot be run while another host type has some. -/
theorem runFold_crashes : ∃ s, run handleCall ({} : System Unit)
      [.add ("set_vcard", .hostType "a") ⟨1, "mod_a", "set_vcard", ()⟩,
        .delete ("set_vcard", .hostType "a") ⟨1, "mod_a", "set_vcard", ()⟩,
        .add ("set_vcard", .hostType "b") ⟨1, "mod_a", "set_vcard", ()⟩, .reload] = some s ∧
    s.list ("set_vcard", .hostType "a") = [] ∧
    s.runFold (fun _ acc => some (.ok (acc + 1))) ("set_vcard", .hostType "a") 0 = none :=
  ⟨_, rfl, rfl, rfl⟩

end MongooseIM.Hooks
