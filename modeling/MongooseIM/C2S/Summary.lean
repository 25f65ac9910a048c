import MongooseIM.C2S.Process

/-! # Summaries of results

A `Summary` of what a callback returned leaves out the events it puts in the queue, the timeouts of
other modules and all output but the number of stanzas that were written. What the handlers of other
modules may request is invisible in it: **`strip_run`** for one run of them, and
**`summary_finishHook`** for a hook as a whole. -/

namespace MongooseIM.C2S

open Xmpp StreamManagement List

/-- Whether an action concerns the timeout of stream management or the callback modules. -/
def Action.concernsSm : Action → Bool
  | .timeout .modStreamManagement _ _ => true
  | .cancelTimeout .modStreamManagement => true
  | .pushCallbackModule _ => true
  | .popCallbackModule => true
  | _ => false

/-- Whether a stanza was written to the socket. -/
def Output.isStanza : Output → Bool
  | .element el => isStanzaName el.name
  | _ => false

/-- The number of stanzas that were written to the socket. -/
def stanzasWritten (outputs : List Output) : ℕ := outputs.countP Output.isStanza

@[simp] theorem stanzasWritten_nil : stanzasWritten [] = 0 := rfl

@[simp] theorem stanzasWritten_append (outputs outputs' : List Output) :
    stanzasWritten (outputs ++ outputs') = stanzasWritten outputs + stanzasWritten outputs' :=
  countP_append

/-- What a result means for stream management and for the identity of the session. -/
inductive Summary
  | stop (data : Data)
  | next (state : State) (data : Data) (written : ℕ) (actions : List Action)

/-- The summary of a result of the callback in a state. -/
def FsmRes.summary (state : State) (res : FsmRes) : Summary :=
  match res.next with
  | .nextState newState data actions =>
    .next newState data (stanzasWritten res.outputs) (actions.filter Action.concernsSm)
  | .keepState data actions =>
    .next state data (stanzasWritten res.outputs) (actions.filter Action.concernsSm)
  | .stop _ data => .stop data

variable (c2sAcc : C2SAcc)

/-- The requests without the actions that a summary leaves out. -/
def C2SAcc.strip : C2SAcc :=
  { c2sAcc with actions := c2sAcc.actions.filter Action.concernsSm }

/-- The summary of `handle_state_after_packet/3` after so many stanzas were written. -/
def C2SAcc.summary (data : Data) (state : State) (written : ℕ) (c2sAcc : C2SAcc) : Summary :=
  match c2sAcc.hardStop with
  | some _ => .stop (c2sAcc.c2sData.getD data)
  | none =>
    .next (c2sAcc.c2sState.getD state)
      (match c2sAcc.stateMod with
        | none => c2sAcc.c2sData.getD data
        | some smState => (c2sAcc.c2sData.getD data).mergeModState smState)
      (written + c2sAcc.socketSend.countP fun el => isStanzaName el.name)
      c2sAcc.actions.reverse

@[simp] theorem strip_empty : ({} : C2SAcc).strip = {} := rfl

/-- What another module requests is left out of the summary. -/
@[simp] theorem strip_toC2SAcc (request : ModuleRequest) :
    (toC2SAcc c2sAcc request.toRequest).strip = c2sAcc.strip := by
  have hnext {α : Type} (f : α → Event) (accs : List α) :
      (accs.map fun acc => Action.nextEvent (f acc)).reverse.filter Action.concernsSm = [] := by
    rw [filter_eq_nil_iff]
    intro action haction
    obtain ⟨acc, -, rfl⟩ := mem_map.1 (mem_reverse.1 haction)
    simp [Action.concernsSm]
  cases request with
  | route accs =>
    simp only [ModuleRequest.toRequest, toC2SAcc, C2SAcc.strip, filter_append]
    rw [hnext fun acc => Event.info (.route acc), nil_append]
  | flush accs =>
    simp only [ModuleRequest.toRequest, toC2SAcc, C2SAcc.strip, filter_append]
    rw [hnext Event.flush, nil_append]
  | stop reason => rfl
  | timeout name time payload => rfl
  | cancelTimeout name => rfl
  | reply sender => rfl

@[simp] theorem strip_toAccMany (requests : List ModuleRequest) :
    (toAccMany c2sAcc (requests.map ModuleRequest.toRequest)).strip = c2sAcc.strip := by
  induction requests generalizing c2sAcc with
  | nil => rfl
  | cons request requests ih =>
    rw [map_cons, toAccMany, foldl_cons]
    exact (ih _).trans (strip_toC2SAcc c2sAcc request)

section

variable (reaction : Reaction) (hookAcc : HookAcc)

@[simp] theorem strip_run :
    (reaction.run hookAcc).hookAcc.statemAcc.strip = hookAcc.statemAcc.strip :=
  strip_toAccMany hookAcc.statemAcc reaction.requests

@[simp] theorem verdict_run : (reaction.run hookAcc).verdict = reaction.verdict := rfl

@[simp] theorem outputs_run : (reaction.run hookAcc).outputs = [] := rfl

@[simp] theorem acc_run : (reaction.run hookAcc).hookAcc.acc = reaction.change hookAcc.acc := rfl

end

attribute [simp] Reaction.stanzaName_change

variable (data : Data) (state oldState : State)

/-- The summary of what a hook led to depends on the stripped requests only. -/
theorem summary_handleStateResult (outputs : List Output) (c2sAcc : C2SAcc) :
    ((handleStateResult data state (getStatemResult c2sAcc)).after outputs).summary oldState =
    c2sAcc.strip.summary data state (stanzasWritten outputs) := by
  simp only [handleStateResult, getStatemResult, C2SAcc.summary, C2SAcc.strip, FsmRes.after,
    FsmRes.summary]
  cases c2sAcc.hardStop with
  | some reason => rfl
  | none =>
    simp only [stanzasWritten_append, filter_reverse]
    congr 2
    rw [stanzasWritten, map_reverse, countP_reverse, countP_map]
    rfl

variable (res : HookResult)

theorem summary_finishHook : (finishHook data state res).summary oldState =
    res.hookAcc.statemAcc.strip.summary data state (stanzasWritten res.outputs) :=
  summary_handleStateResult data state oldState res.outputs res.hookAcc.statemAcc

variable (reaction : Reaction)

/-- Handlers of other modules at the end of a hook add nothing to the summary. -/
@[simp] theorem strip_andThen_run :
    (res.andThen reaction.run).hookAcc.statemAcc.strip = res.hookAcc.statemAcc.strip := by
  rw [HookResult.andThen]
  split
  · rfl
  · exact strip_run reaction res.hookAcc

@[simp] theorem outputs_andThen_run : (res.andThen reaction.run).outputs = res.outputs := by
  rw [HookResult.andThen]
  split
  · rfl
  · exact append_nil res.outputs

/-- What a hook leads to. -/
def HookResult.summary (data : Data) (state : State) (res : HookResult) : Summary :=
  res.hookAcc.statemAcc.strip.summary data state (stanzasWritten res.outputs)

/-- Requests act alike on accumulators that differ in what the summary leaves out. -/
theorem strip_toC2SAcc_congr {c c' : C2SAcc} (h : c.strip = c'.strip) (request : Request) :
    (toC2SAcc c request).strip = (toC2SAcc c' request).strip := by
  obtain ⟨stateMod, actions, c2sState, c2sData, hardStop, socketSend⟩ := c
  obtain ⟨stateMod', actions', c2sState', c2sData', hardStop', socketSend'⟩ := c'
  simp only [C2SAcc.strip, C2SAcc.mk.injEq] at h
  obtain ⟨rfl, hactions, rfl, rfl, rfl, rfl⟩ := h
  cases request <;> simp only [toC2SAcc, C2SAcc.strip, filter_append, filter_cons, hactions]

theorem strip_toAccMany_congr {c c' : C2SAcc} (h : c.strip = c'.strip) (requests : List Request) :
    (toAccMany c requests).strip = (toAccMany c' requests).strip := by
  induction requests generalizing c c' with
  | nil => exact h
  | cons request requests ih => exact ih (strip_toC2SAcc_congr h request)

/-- What a handler leads to that comes after handlers of other modules only. -/
theorem summary_toAcc {hookAcc : HookAcc} (hstrip : hookAcc.statemAcc.strip = {}) (data : Data)
    (state : State) (verdict : Verdict) (requests : List Request) (outputs : List Output) :
    HookResult.summary data state ⟨verdict, hookAcc.toAcc requests, outputs⟩ =
    (toAccMany {} requests).strip.summary data state (stanzasWritten outputs) := by
  rw [HookResult.summary, HookAcc.toAcc, strip_toAccMany_congr (hstrip.trans strip_empty.symm)]

@[simp] theorem summary_andThen_run (state : State) (res : HookResult) (reaction : Reaction) :
    (res.andThen reaction.run).summary data state = res.summary data state := by
  rw [HookResult.summary, strip_andThen_run, outputs_andThen_run, HookResult.summary]

/-- Handlers of other modules at the start of a hook. -/
theorem run_andThen (hookAcc : HookAcc) (handler : HookAcc → HookResult) :
    (reaction.run hookAcc).andThen handler = match reaction.verdict with
    | .stop => reaction.run hookAcc
    | .ok => handler (reaction.run hookAcc).hookAcc := by
  rw [HookResult.andThen, verdict_run]
  cases reaction.verdict <;> rfl

end MongooseIM.C2S
