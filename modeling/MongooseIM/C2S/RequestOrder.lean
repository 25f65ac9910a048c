import MongooseIM.C2S.Data

/-! # The order of requests to a session

What `mongoose_c2s_acc` makes of the parameters of `new/1` and of the requests that follow, with
every action as what it was requested as. -/

namespace MongooseIM.C2S

open Xmpp List

/-- An action, by the request that it comes from. -/
inductive Entry
  | action (action : Action)
  | stop (reason : Reason)
  | route (acc : Acc)
  | flush (acc : Acc)

/-- What is in the list of actions. -/
inductive Item
  | single (entry : Entry)
  | list (entries : List Entry)

/-- `mongoose_c2s_acc:t()`, with the lists that requests are added to. -/
structure RawAcc where
  actions : List Item := []
  socketSend : List Element := []

/-- `mongoose_c2s_acc:params()` -/
structure Params where
  actions : Option (List Action) := none
  stop : Option Reason := none
  route : Option (List Acc) := none
  flush : Option (List Acc) := none
  socketSend : Option (List Element) := none

variable (params : Params)

/-- `extract_stop/1`: the actions after it. -/
def Params.extractStop : Option (List Item) :=
  let actions := params.actions.map (·.map fun action => .single (.action action))
  match params.stop with
  | none => actions
  | some reason =>
    match actions with
    | some actions => some (.list [.stop reason] :: actions)
    | none => some [.single (.stop reason)]

/-- `new/1`, with `extract_routes/1` and `extract_flushes/1` -/
def Params.new : RawAcc where
  actions :=
    (params.flush.getD []).map (fun acc => .single (.flush acc)) ++
      ((params.route.getD []).map (fun acc => .single (.route acc)) ++
        params.extractStop.getD [])
  socketSend := params.socketSend.getD []

/-- The actions of a request, in the order given. -/
def Request.entries : Request → List Entry
  | .actions list => list.map .action
  | .stop reason => [.stop reason]
  | .route accs => accs.map .route
  | .flush accs => accs.map .flush
  | _ => []

variable (acc : RawAcc)

/-- `to_c2s_acc/2` -/
def toRawAcc : Request → RawAcc
  | .socketSend els => { acc with socketSend := els.reverse ++ acc.socketSend }
  | .socketSendFirst els => { acc with socketSend := acc.socketSend ++ els.reverse }
  | request => { acc with actions := (request.entries.map .single).reverse ++ acc.actions }

/-- `get_statem_result/1` -/
def RawAcc.result : RawAcc := ⟨acc.actions.reverse, acc.socketSend.reverse⟩

/-! ## The order -/

/-- What a kind of request asked for in `new/1`. -/
def Entry.action? : Entry → Option Action
  | .action a => some a
  | _ => none

def Entry.stop? : Entry → Option Reason
  | .stop reason => some reason
  | _ => none

def Entry.route? : Entry → Option Acc
  | .route acc => some acc
  | _ => none

def Entry.flush? : Entry → Option Acc
  | .flush acc => some acc
  | _ => none

/-- The stanzas to send first, of one request. -/
def Request.first : Request → List Element
  | .socketSendFirst els => els
  | _ => []

/-- The other stanzas to send, of one request. -/
def Request.send : Request → List Element
  | .socketSend els => els
  | _ => []

variable (requests : List Request)

/-- **The requests are acted on in order**, those of `new/1` before the others. -/
def RequestOrder (result : RawAcc) : Prop :=
  (∃ entries, result.actions = (entries ++ requests.flatMap Request.entries).map .single ∧
    entries.filterMap Entry.action? = params.actions.getD [] ∧
    entries.filterMap Entry.stop? = params.stop.toList ∧
    entries.filterMap Entry.route? = params.route.getD [] ∧
    entries.filterMap Entry.flush? = params.flush.getD []) ∧
  result.socketSend = (requests.map Request.first).reverse.flatten ++
    (params.socketSend.getD [] ++ requests.flatMap Request.send)

/-- The lists read the same backwards, and a stop does not come with actions. -/
structure Params.Symmetric (params : Params) : Prop where
  actions : (params.actions.getD []).reverse = params.actions.getD []
  route : (params.route.getD []).reverse = params.route.getD []
  flush : (params.flush.getD []).reverse = params.flush.getD []
  socketSend : (params.socketSend.getD []).reverse = params.socketSend.getD []
  stop : params.stop = none ∨ params.actions = none

/-- **Requests after `new/1`** are added in front of what there is, in reverse order. -/
theorem foldl_toRawAcc : requests.foldl toRawAcc acc =
    ⟨((requests.flatMap Request.entries).map .single).reverse ++ acc.actions,
      (requests.flatMap Request.send).reverse ++ acc.socketSend ++
        ((requests.map Request.first).reverse.flatten).reverse⟩ := by
  induction requests generalizing acc with
  | nil => simp
  | cons request requests ih =>
    rw [foldl_cons, ih]
    cases request <;> simp [toRawAcc, Request.entries, Request.send, Request.first]

/-- The actions of `new/1` are flat, unless a stop comes with actions. -/
theorem new_actions : (params.stop = none ∨ params.actions = none) ∧
    (∃ entries : List Entry, params.new.actions = entries.map .single ∧
      entries.filterMap Entry.action? = params.actions.getD [] ∧
      entries.filterMap Entry.stop? = params.stop.toList ∧
      entries.filterMap Entry.route? = params.route.getD [] ∧
      entries.filterMap Entry.flush? = params.flush.getD []) ∨
    ¬ (params.stop = none ∨ params.actions = none) ∧
    ∃ entries, .list entries ∈ params.new.actions := by
  obtain ⟨actions, stop, route, flush, socketSend⟩ := params
  have hmade (stop : Option Reason) (actions : List Action) : ∃ entries : List Entry,
        (flush.getD []).map (fun acc => Item.single (.flush acc)) ++
          ((route.getD []).map (fun acc => Item.single (.route acc)) ++
            (stop.toList.map (fun reason => Item.single (.stop reason)) ++
              actions.map fun action => Item.single (.action action))) = entries.map .single ∧
        entries.filterMap Entry.action? = actions ∧ entries.filterMap Entry.stop? = stop.toList ∧
        entries.filterMap Entry.route? = route.getD [] ∧
        entries.filterMap Entry.flush? = flush.getD [] := by
    refine ⟨(flush.getD []).map .flush ++ ((route.getD []).map .route ++
      (stop.toList.map .stop ++ actions.map .action)), by simp [Function.comp_def], ?_⟩
    simp [filterMap_append, filterMap_map, Function.comp_def, Entry.action?,
      Entry.stop?, Entry.route?, Entry.flush?]
  cases stop with
  | none =>
    refine .inl ⟨.inl rfl, ?_⟩
    cases actions with
    | none => exact hmade none []
    | some actions => exact hmade none actions
  | some reason =>
    cases actions with
    | none => exact .inl ⟨.inr rfl, hmade (some reason) []⟩
    | some actions =>
      exact .inr ⟨by simp, [.stop reason], by simp [Params.new, Params.extractStop]⟩

/-- **Requests are acted on in order where the parameters of `new/1` are symmetric.** -/
theorem requestOrder_iff (params : Params) (requests : List Request) :
    RequestOrder params requests (requests.foldl toRawAcc params.new).result ↔
    params.Symmetric := by
  have hsend : params.new.socketSend = params.socketSend.getD [] := rfl
  rw [foldl_toRawAcc, RequestOrder, RawAcc.result]
  simp only [reverse_append, reverse_reverse, hsend, append_cancel_left_eq,
    append_cancel_right_eq, map_append]
  rcases new_actions params with ⟨hstop, entries, hnew, hactions, hstops, hroute, hflush⟩ |
    ⟨hboth, nested, hnested⟩
  · constructor
    · rintro ⟨⟨given, hgiven, hactions', -, hroute', hflush'⟩, hsocket⟩
      rw [hnew, ← map_reverse] at hgiven
      obtain rfl := map_injective_iff.2 (fun _ _ => Item.single.inj) hgiven
      rw [filterMap_reverse] at hactions' hroute' hflush'
      exact ⟨by rwa [hactions] at hactions', by rwa [hroute] at hroute',
        by rwa [hflush] at hflush', hsocket, hstop⟩
    · intro h
      refine ⟨⟨entries.reverse, by rw [hnew, map_reverse], ?_⟩, h.socketSend⟩
      simp only [filterMap_reverse, hactions, hstops, hroute, hflush]
      exact ⟨h.actions, by cases params.stop <;> rfl, h.route, h.flush⟩
  · constructor
    · rintro ⟨⟨given, hgiven, -⟩, -⟩
      rw [← mem_reverse, hgiven] at hnested
      obtain ⟨entry, -, hentry⟩ := mem_map.1 hnested
      cases hentry
    · exact fun h => absurd h.stop hboth

/-- Two stanzas for one socket. -/
def twoStanzas : Params :=
  { socketSend := some [.mk "message" [] [] "", .mk "presence" [] [] ""] }

/-- They are sent the other way round. -/
theorem twoStanzas_reversed :
    twoStanzas.new.result.socketSend = [.mk "presence" [] [] "", .mk "message" [] [] ""] ∧
    ¬ RequestOrder twoStanzas [] twoStanzas.new.result :=
  ⟨rfl, fun h => absurd h.2 (by decide)⟩

end MongooseIM.C2S
