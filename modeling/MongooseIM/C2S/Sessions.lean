import MongooseIM.C2S.Outcome

/-! # The sessions of a server

A session starts with nothing and takes its steps alone, but for one: when it resumes another, it
takes the data that this other hands over. `Reachable` are the states of a session in such a system,
and **`Reachable.invariant`** is the induction over it: what holds of a new session, and is kept by
steps whose peers have it, holds of every reachable session. -/

namespace MongooseIM.C2S

open Xmpp StreamManagement Transition

variable {server : Server} {ok : Process → Input → Prop}

/-- A running session replies to a call with data for the session that resumes it. -/
def HandsOver (peer : Process) (old : Data) : Prop :=
  peer.stopped = none ∧ ∃ sender h mailbox smState outputs,
    handleResumeCall peer.data sender h mailbox = (.ok smState, outputs) ∧
      Output.replyData sender old ∈ outputs

/-- The data that is handed over differs in the state of stream management only. -/
theorem HandsOver.eq_mergeModState {peer : Process} {old : Data} (h : HandsOver peer old) :
    peer.stopped = none ∧ peer.data.stateMod.isSome ∧
    ∃ smState, old = peer.data.mergeModState smState := by
  obtain ⟨hrunning, sender, n, mailbox, smState, outputs, hcall, hmem⟩ := h
  obtain ⟨smState0, smState1, hsm, -, -, rfl⟩ := handleResumeCall_ok hcall
  refine ⟨hrunning, Option.isSome_iff_exists.2 ⟨smState0, hsm⟩,
    pipelineFutureSmState peer.data smState1 mailbox, ?_⟩
  simpa [streamErrorOutputs] using hmem

/-- The states that a session of a server can be in, by steps that meet a condition. -/
inductive Reachable (server : Server) (ok : Process → Input → Prop) : Process → Prop
  | init (isBlacklisted : Bool) (lserver : String) (sid : Sid) (listenerOpts : ListenerOpts) :
      Reachable server ok (Process.init isBlacklisted lserver sid listenerOpts)
  | step {p q : Process} {input : Input} (hp : Reachable server ok p) (hok : ok p input)
      (hpeer : input.oracle.peer.isOk = false) (h : step server p input = some q) :
      Reachable server ok q
  | resume {p q peer : Process} {input : Input} {old : Data} (hp : Reachable server ok p)
      (hreachable : Reachable server ok peer) (hok : ok p input)
      (hpeer : input.oracle.peer = .ok old) (hands : HandsOver peer old)
      (h : step server p input = some q) : Reachable server ok q

/-- **Invariants of reachable sessions.** -/
theorem Reachable.invariant {P : Process → Prop} (hinit : ∀ isBlacklisted lserver sid listenerOpts,
    P (Process.init isBlacklisted lserver sid listenerOpts))
    (hstep : ∀ p input q, P p → ok p input →
    (∀ old, input.oracle.peer = .ok old → ∃ peer, P peer ∧ HandsOver peer old) →
      C2S.step server p input = some q → P q)
    {p : Process} (h : Reachable server ok p) : P p := by
  induction h with
  | init isBlacklisted lserver sid listenerOpts => exact hinit _ _ _ _
  | step _ hok hpeer h ih =>
    refine hstep _ _ _ ih hok (fun old hold => ?_) h
    rw [hold] at hpeer
    cases hpeer
  | @resume _ _ peer _ _ _ _ hok hpeer hands h ih ihpeer =>
    refine hstep _ _ _ ih hok (fun old hold => ⟨peer, ihpeer, ?_⟩) h
    obtain rfl := PeerReply.ok.inj (hpeer.symm.trans hold)
    exact hands

theorem reachable_of_run {p q : Process} {inputs : List Input} (hp : Reachable server ok p)
    (hpeer : ∀ input ∈ inputs, input.oracle.peer.isOk = false)
    (hg : Guarded (step server) ok p inputs) (hrun : run (step server) p inputs = some q) :
    Reachable server ok q := by
  induction inputs generalizing p with
  | nil =>
    cases hrun
    exact hp
  | cons input inputs ih =>
    obtain ⟨p', hp', hrest⟩ := run_cons_eq_some.1 hrun
    obtain ⟨hok, hg'⟩ := (guarded_cons p input inputs).1 hg
    exact ih (hp.step hok (hpeer input (by simp)) hp')
      (fun input' hinput' => hpeer input' (List.mem_cons_of_mem _ hinput')) (hg' p' hp') hrest

end MongooseIM.C2S
