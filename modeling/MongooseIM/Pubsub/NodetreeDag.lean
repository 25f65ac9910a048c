import MongooseIM.Pubsub.DbMnesia

/-! # The node tree of collections

`nodetree_dag` over the Mnesia backend: nodes are created, configured and deleted, and a node names
the collections that it belongs to in its option `collection`. -/

namespace MongooseIM.Pubsub.NodetreeDag

open Xmpp Pubsub.Mnesia

/-- `validate_parentage/3`; the empty name stands for the root and is not looked up. -/
def validateParentage (db : Db) (key : Host) (owners : List Jid) :
    List String → Except NodeError Unit
  | [] => .ok ()
  | parentId :: rest =>
    if parentId = "" then validateParentage db key owners rest
    else
      match db.findNodeByName key parentId with
      | none => .error .itemNotFound
      | some parent =>
        let mutualOwners := owners.filter fun owner => owner ∈ parent.owners
        if mutualOwners = [] then .error .forbidden
        else if findNodeType parent.options = "collection" then
          validateParentage db key owners rest
        else .error .notAllowed

/-- `set_node/1` -/
def setNode (db : Db) (node : PubsubNode) : Except NodeError (ℕ × Db) := do
  let parents := findCollection node.options
  validateParentage db node.nodeid.1 node.owners parents
  return db.setNode { node with parents := parents }

/-- `create_node/6` -/
def createNode (db : Db) (key : Host) (node type : String) (owner : Jid)
    (options : List NodeOption) (parents : List String) : Except NodeError (ℕ × Db) :=
  let ownerJid := owner.toBare
  match db.findNodeByName key node with
  | none => setNode db ⟨(key, node), none, parents, type, [ownerJid], options⟩
  | some _ => .error .conflict

/-- A node without the parent `node`, as `delete_node/2` writes it. -/
def withoutParent (node : String) (child : PubsubNode) : PubsubNode :=
  let newOpts := removeConfigParent node child.options
  { child with parents := findCollection newOpts, options := newOpts }

/-- `delete_node/2` -/
def deleteNode (db : Db) (key : Host) (node : String) :
    Except NodeError (List PubsubNode × Db) :=
  match db.findNodeByName key node with
  | none => .error .itemNotFound
  | some record =>
    let db1 := (db.getSubnodes key node).foldl
      (fun db child => (db.setNode (withoutParent node child)).2) db
    .ok ([record], db1.deleteNode record)

/-- A request on a host. -/
inductive Request
  | create (node type : String) (owner : Jid) (options : List NodeOption) (parents : List String)
  /-- `set_node` of a stored node with new owners and options. -/
  | configure (node : String) (owners : List Jid) (options : List NodeOption)
  | delete (node : String)

/-- The tables after a request; one that is refused leaves them unchanged. -/
def step (key : Host) (db : Db) : Request → Db
  | .create node type owner options parents =>
    match createNode db key node type owner options parents with
    | .ok (_, db') => db'
    | .error _ => db
  | .configure node owners options =>
    match db.findNodeByName key node with
    | none => db
    | some record =>
      match setNode db { record with owners := owners, options := options } with
      | .ok (_, db') => db'
      | .error _ => db
  | .delete node =>
    match deleteNode db key node with
    | .ok (_, db') => db'
    | .error _ => db

end MongooseIM.Pubsub.NodetreeDag
