import MongooseIM.Xmpp.Stanza

/-! # PubSub states and items

The records `#pubsub_state{}` and `#pubsub_item{}`, without the keys under which they are stored. -/

namespace MongooseIM.Pubsub

open Xmpp

/-- `mod_pubsub:affiliation()` -/
inductive Affiliation
  | none
  | owner
  | publisher
  | publishOnly
  | member
  | outcast
  deriving DecidableEq

/-- `mod_pubsub:subscription()` -/
inductive Subscription
  | none
  | pending
  | unconfigured
  | subscribed

/-- `mod_pubsub:itemId()` -/
abbrev ItemId := String

/-- `mod_pubsub:subId()` -/
abbrev SubId := String

/-- The value of an option. -/
inductive OptionValue
  | atom (name : String)
  | binary (value : String)
  | boolean (value : Bool)
  | integer (value : Int)
  | list (values : List String)

/-- `mod_pubsub:subOptions()` -/
abbrev SubOptions := List (String × OptionValue)

/-- `#pubsub_state{}` under its `stateid`. -/
structure PubsubState where
  items : List ItemId := []
  affiliation : Affiliation := .none
  subscriptions : List (Subscription × SubId) := []

/-- `#pubsub_item{}` under its `itemid`. -/
structure PubsubItem where
  creation : ℕ × Jid
  modification : ℕ × Jid
  publisher : Option Jid
  payload : List Element

end MongooseIM.Pubsub
