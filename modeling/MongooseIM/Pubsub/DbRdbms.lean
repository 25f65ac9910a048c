import MongooseIM.Erlang.Lists
import MongooseIM.Erlang.Maps
import MongooseIM.Pubsub.Node
import MongooseIM.Pubsub.State

/-! # The nodes of the RDBMS backend

`mod_pubsub_db_rdbms`. Columns that have encoded values are taken for the values. -/

namespace MongooseIM.Pubsub.Rdbms

open Erlang Xmpp

/-- A row of `pubsub_nodes` under its `p_key` and `name`. -/
structure NodeRow where
  nidx : ℕ
  type : String
  owners : List Jid
  options : List NodeOption

/-- The tables of nodes. -/
structure Db where
  /-- `pubsub_nodes`, with the unique index of `p_key` and `name`. -/
  nodes : AList fun _ : Host × String => NodeRow := ∅
  /-- `pubsub_node_collections`: `name` and `parent_name`. -/
  collections : List (String × String) := []
  /-- The last `nidx`. -/
  last : ℕ := 0

/-- `decode_pubsub_node_row/1` -/
def decodePubsubNodeRow (nodeid : Host × String) (row : NodeRow) : PubsubNode where
  nodeid := nodeid
  id := some row.nidx
  parents := []
  type := row.type
  owners := row.owners
  options := row.options

namespace Db

variable (db : Db) (key : Host)

/-- `find_node_by_name/2` -/
def findNodeByName (node : String) : Option PubsubNode :=
  (db.nodes.lookup (key, node)).map (decodePubsubNodeRow (key, node))

end Db

end MongooseIM.Pubsub.Rdbms
