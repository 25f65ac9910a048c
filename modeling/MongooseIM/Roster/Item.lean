import MongooseIM.Xmpp.Stanza

/-! # Roster items and their subscription state

The record `#roster{}` of `mod_roster` and the tables by which a subscription presence, sent or
received, changes it. -/

namespace MongooseIM.Roster

open Xmpp

/-- `subscription_state()` of a stored item. -/
inductive Subscription
  | none | to | from | both
  deriving DecidableEq

/-- The field `ask` of an item. -/
inductive Ask
  | none | out | in | both | subscribe | unsubscribe
  deriving DecidableEq

/-- `sub_presence()` -/
inductive SubPresence
  | subscribe | subscribed | unsubscribe | unsubscribed
  deriving DecidableEq

/-- `#roster{}`, less the owner and the contact, under which it is stored. -/
structure Item where
  name : String := ""
  subscription : Subscription := .none
  ask : Ask := .none
  groups : List String := []
  askmessage : String := ""
  xs : List Element := []

/-- What a row of the tables says: nothing changes, or the item has a new state. -/
inductive NewState
  | none
  | state (subscription : Subscription) (pending : Ask)

/-- `in_state_change/3`; no row stands for `function_clause`. -/
def inStateChange : Subscription → Ask → SubPresence → Option NewState
  | .none, .none, .subscribe => some (.state .none .in)
  | .none, .none, .subscribed => some .none
  | .none, .none, .unsubscribe => some .none
  | .none, .none, .unsubscribed => some .none
  | .none, .out, .subscribe => some (.state .none .both)
  | .none, .out, .subscribed => some (.state .to .none)
  | .none, .out, .unsubscribe => some .none
  | .none, .out, .unsubscribed => some (.state .none .none)
  | .none, .in, .subscribe => some .none
  | .none, .in, .subscribed => some .none
  | .none, .in, .unsubscribe => some (.state .none .none)
  | .none, .in, .unsubscribed => some .none
  | .none, .both, .subscribe => some .none
  | .none, .both, .subscribed => some (.state .to .in)
  | .none, .both, .unsubscribe => some (.state .none .out)
  | .none, .both, .unsubscribed => some (.state .none .in)
  | .to, .none, .subscribe => some (.state .to .in)
  | .to, .none, .subscribed => some .none
  | .to, .none, .unsubscribe => some .none
  | .to, .none, .unsubscribed => some (.state .none .none)
  | .to, .in, .subscribe => some .none
  | .to, .in, .subscribed => some .none
  | .to, .in, .unsubscribe => some (.state .to .none)
  | .to, .in, .unsubscribed => some (.state .none .in)
  | .from, .none, .subscribe => some .none
  | .from, .none, .subscribed => some (.state .both .none)
  | .from, .none, .unsubscribe => some (.state .none .none)
  | .from, .none, .unsubscribed => some .none
  | .from, .out, .subscribe => some .none
  | .from, .out, .subscribed => some (.state .both .none)
  | .from, .out, .unsubscribe => some (.state .none .out)
  | .from, .out, .unsubscribed => some (.state .from .none)
  | .both, .none, .subscribe => some .none
  | .both, .none, .subscribed => some .none
  | .both, .none, .unsubscribe => some (.state .to .none)
  | .both, .none, .unsubscribed => some (.state .from .none)
  | _, _, _ => none

/-- `out_state_change/3` -/
def outStateChange : Subscription → Ask → SubPresence → Option NewState
  | .none, .none, .subscribe => some (.state .none .out)
  | .none, .none, .subscribed => some .none
  | .none, .none, .unsubscribe => some .none
  | .none, .none, .unsubscribed => some .none
  | .none, .out, .subscribe => some (.state .none .out)
  | .none, .out, .subscribed => some .none
  | .none, .out, .unsubscribe => some (.state .none .none)
  | .none, .out, .unsubscribed => some .none
  | .none, .in, .subscribe => some (.state .none .both)
  | .none, .in, .subscribed => some (.state .from .none)
  | .none, .in, .unsubscribe => some .none
  | .none, .in, .unsubscribed => some (.state .none .none)
  | .none, .both, .subscribe => some .none
  | .none, .both, .subscribed => some (.state .from .out)
  | .none, .both, .unsubscribe => some (.state .none .in)
  | .none, .both, .unsubscribed => some (.state .none .out)
  | .to, .none, .subscribe => some .none
  | .to, .none, .subscribed => some (.state .both .none)
  | .to, .none, .unsubscribe => some (.state .none .none)
  | .to, .none, .unsubscribed => some .none
  | .to, .in, .subscribe => some .none
  | .to, .in, .subscribed => some (.state .both .none)
  | .to, .in, .unsubscribe => some (.state .none .in)
  | .to, .in, .unsubscribed => some (.state .to .none)
  | .from, .none, .subscribe => some (.state .from .out)
  | .from, .none, .subscribed => some .none
  | .from, .none, .unsubscribe => some .none
  | .from, .none, .unsubscribed => some (.state .none .none)
  | .from, .out, .subscribe => some .none
  | .from, .out, .subscribed => some .none
  | .from, .out, .unsubscribe => some (.state .from .none)
  | .from, .out, .unsubscribed => some (.state .none .out)
  | .both, .none, .subscribe => some .none
  | .both, .none, .subscribed => some .none
  | .both, .none, .unsubscribe => some (.state .from .none)
  | .both, .none, .unsubscribed => some (.state .to .none)
  | _, _, _ => none

/-- `in_auto_reply/3` -/
def inAutoReply : Subscription → Ask → SubPresence → Option SubPresence
  | .from, .none, .subscribe => some .subscribed
  | .from, .out, .subscribe => some .subscribed
  | .both, .none, .subscribe => some .subscribed
  | .none, .in, .unsubscribe => some .unsubscribed
  | .none, .both, .unsubscribe => some .unsubscribed
  | .to, .in, .unsubscribe => some .unsubscribed
  | .from, .none, .unsubscribe => some .unsubscribed
  | .from, .out, .unsubscribe => some .unsubscribed
  | .both, .none, .unsubscribe => some .unsubscribed
  | _, _, _ => none

/-- Whether the owner of the item sends the presence or receives it. -/
inductive Direction
  | in | out

/-- What a transaction on one item asks the backend to write. -/
inductive Write
  | keep
  /-- `del_roster_t/3` -/
  | delete
  /-- `roster_subscribe_t/2` -/
  | subscribe (item : Item)

/-- What `process_subscription_t/6` does and returns. -/
structure Processed where
  write : Write
  push : Option Item
  autoReply : Option SubPresence

/-- The row for a presence in one direction. -/
def stateChange : Direction → Subscription → Ask → SubPresence → Option NewState
  | .in => inStateChange
  | .out => outStateChange

/-- `process_subscription_t/6`, from the entry it reads; `none` when it aborts. -/
def processSubscriptionT (direction : Direction) (entry : Option Item) (type : SubPresence)
    (reason : String) : Option Processed :=
  let item := entry.getD {}
  let autoReply :=
    match direction with
    | .out => none
    | .in => inAutoReply item.subscription item.ask type
  match stateChange direction item.subscription item.ask type with
  | none => none
  | some .none => some ⟨.keep, none, autoReply⟩
  | some (.state subscription pending) =>
    if subscription = .none ∧ pending = .none ∧ item.subscription = .none ∧ item.ask = .in then
      some ⟨.delete, none, autoReply⟩
    else
      let askMessage :=
        match pending with
        | .both | .in => reason
        | _ => ""
      let newItem := { item with
        subscription := subscription
        ask := pending
        askmessage := askMessage }
      some ⟨.subscribe newItem, some newItem, autoReply⟩

/-- The presences of `send_unsubscribing_presence/2`, in order. -/
def sendUnsubscribingPresence (item : Item) : List SubPresence :=
  let isTo := item.subscription = .both ∨ item.subscription = .to
  let isFrom := item.subscription = .both ∨ item.subscription = .from
  (if isTo then [.unsubscribe] else []) ++ if isFrom then [.unsubscribed] else []

variable (entry : Option Item)

/-- The entry after the write. -/
def Write.apply : Write → Option Item
  | .keep => entry
  | .delete => none
  | .subscribe item => some item

/-- How far a subscription in one direction has come. -/
inductive Stage
  | idle | pending | granted
  deriving DecidableEq

/-- The subscription of the owner to the contact; a missing item counts as `none`. -/
def outbound : Stage :=
  match (entry.getD {}).subscription, (entry.getD {}).ask with
  | .to, _ | .both, _ => .granted
  | _, .out | _, .both => .pending
  | _, _ => .idle

/-- The subscription of the contact to the owner. -/
def inbound : Stage :=
  match (entry.getD {}).subscription, (entry.getD {}).ask with
  | .from, _ | .both, _ => .granted
  | _, .in | _, .both => .pending
  | _, _ => .idle

/-- The nine states the tables have rows for. -/
def Regular : Prop :=
  match (entry.getD {}).subscription, (entry.getD {}).ask with
  | .none, .none | .none, .out | .none, .in | .none, .both => True
  | .to, .none | .to, .in | .from, .none | .from, .out | .both, .none => True
  | _, _ => False

@[simp] theorem regular_none : Regular none := trivial

/-- The subscription is granted exactly in the states `to` and `both`. -/
theorem outbound_eq_granted {entry : Option Item} : outbound entry = .granted ↔
    (entry.getD {}).subscription = .to ∨ (entry.getD {}).subscription = .both := by
  rw [outbound]
  cases (entry.getD {}).subscription <;> cases (entry.getD {}).ask <;> simp

/-- The subscription of the contact is granted exactly in the states `from` and `both`. -/
theorem inbound_eq_granted {entry : Option Item} : inbound entry = .granted ↔
    (entry.getD {}).subscription = .from ∨ (entry.getD {}).subscription = .both := by
  rw [inbound]
  cases (entry.getD {}).subscription <;> cases (entry.getD {}).ask <;> simp

/-- What a request, or its withdrawal, makes of the subscription it is about. -/
def Stage.request : SubPresence → Stage → Stage
  | .subscribe, .idle => .pending
  | .unsubscribe, _ => .idle
  | _, stage => stage

/-- What an answer makes of the subscription it is about. Nobody asked where the stage is `idle`:
then it counts only beside a granted subscription in the `reverse` direction. -/
def Stage.answer (reverse : Stage) : SubPresence → Stage → Stage
  | .subscribed, .pending => .granted
  | .subscribed, .idle => if reverse = .granted then .granted else .idle
  | .unsubscribed, _ => .idle
  | _, stage => stage

/-- The answer that the server gives in the name of the user. -/
def Stage.autoReply : SubPresence → Stage → Option SubPresence
  | .subscribe, .granted => some .subscribed
  | .unsubscribe, .pending | .unsubscribe, .granted => some .unsubscribed
  | _, _ => none

section

variable {entry : Option Item} (h : Regular entry) (type : SubPresence) (reason : String)

include h

/-- **A presence that the owner sends** requests in his own direction and answers in the other. -/
theorem processSubscriptionT_out :
    ∃ p, processSubscriptionT .out entry type reason = some p ∧ p.autoReply = none ∧
    Regular (p.write.apply entry) ∧
    outbound (p.write.apply entry) = Stage.request type (outbound entry) ∧
    inbound (p.write.apply entry) = Stage.answer (outbound entry) type (inbound entry) := by
  revert h
  rw [Regular, outbound, inbound, processSubscriptionT]
  -- one case for each row of `out_state_change`
  cases hs : (entry.getD {}).subscription <;> cases ha : (entry.getD {}).ask <;> cases type <;>
      simp [stateChange, outStateChange, Stage.request, Stage.answer, Write.apply, Regular,
        outbound, inbound, hs, ha]

/-- **A presence that the owner receives** requests in the direction of the contact and answers in
his own. -/
theorem processSubscriptionT_in : ∃ p, processSubscriptionT .in entry type reason = some p ∧
    p.autoReply = Stage.autoReply type (inbound entry) ∧
    Regular (p.write.apply entry) ∧
    inbound (p.write.apply entry) = Stage.request type (inbound entry) ∧
    outbound (p.write.apply entry) = Stage.answer (inbound entry) type (outbound entry) := by
  revert h
  rw [Regular, outbound, inbound, processSubscriptionT]
  -- one case for each row of `in_state_change`
  cases hs : (entry.getD {}).subscription <;> cases ha : (entry.getD {}).ask <;> cases type <;>
      simp [stateChange, inStateChange, inAutoReply, Stage.request, Stage.answer, Stage.autoReply,
        Write.apply, Regular, outbound, inbound, hs, ha]

end

end MongooseIM.Roster
