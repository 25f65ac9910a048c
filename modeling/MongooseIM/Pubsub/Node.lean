import MongooseIM.Xmpp.Stanza

/-! # PubSub nodes

The record `#pubsub_node{}`, its options and the errors of the node trees. -/

namespace MongooseIM.Pubsub

open Xmpp

/-- `mod_pubsub:host()` -/
inductive Host
  | service (name : String)
  | pep (luser lserver : String)
  deriving DecidableEq

/-- A node option: those that the node trees read, and any other. -/
inductive NodeOption
  | collection (names : List String)
  | nodeType (atom : String)
  /-- `{Key, Value}` of another key. -/
  | other (key value : String)
  deriving DecidableEq

/-- `#pubsub_node{}` -/
structure PubsubNode where
  nodeid : Host × String
  /-- `id`, `none` for `undefined`. -/
  id : Option ℕ
  parents : List String
  type : String
  owners : List Jid
  options : List NodeOption
  deriving DecidableEq

/-- `find_opt(collection, ?DEFAULT_PARENTS, Options)` -/
def findCollection : List NodeOption → List String
  | [] => []
  | .collection names :: _ => names
  | _ :: options => findCollection options

/-- `find_opt(node_type, ?DEFAULT_NODETYPE, Options)` -/
def findNodeType : List NodeOption → String
  | [] => "leaf"
  | .nodeType atom :: _ => atom
  | _ :: options => findNodeType options

variable (node : String) (options : List NodeOption)

/-- `remove_config_parent/2` -/
def removeConfigParent : List NodeOption :=
  options.map fun
    | .collection names => .collection (names.erase node)
    | option => option

@[simp] theorem findNodeType_removeConfigParent :
    findNodeType (removeConfigParent node options) = findNodeType options := by
  induction options with
  | nil => rfl
  | cons option options ih => cases option <;> first | exact ih | rfl

/-- The first occurrence of the name is removed from the collections. -/
@[simp] theorem findCollection_removeConfigParent :
    findCollection (removeConfigParent node options) = (findCollection options).erase node := by
  induction options with
  | nil => rfl
  | cons option options ih => cases option <;> first | exact ih | rfl

/-- `mongoose_xmpp_errors` of the node trees. -/
inductive NodeError
  | itemNotFound
  | conflict
  | forbidden
  | notAllowed

end MongooseIM.Pubsub
