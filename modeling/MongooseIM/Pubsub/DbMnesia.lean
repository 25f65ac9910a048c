import MongooseIM.Erlang.Maps
import MongooseIM.Pubsub.Node

/-! # The node tables of the Mnesia backend

`pubsub_node` and `pubsub_subnode` of `mod_pubsub_db_mnesia`. The second table is a bag of pairs and
lists, for every node, the nodes below it. -/

namespace MongooseIM.Pubsub.Mnesia

open Erlang

/-- The tables `pubsub_node` and `pubsub_subnode`, and the counter of `pubsub_index`. -/
structure Db where
  nodes : AList fun _ : Host × String => PubsubNode := ∅
  /-- `pubsub_subnode`: a parent with its key, and the node below it. -/
  subnodes : List ((Host × String) × String) := []
  last : ℕ := 0

namespace Db

variable (db : Db)

/-- `pubsub_index:new(node)` -/
def newIndex : ℕ × Db := (db.last + 1, { db with last := db.last + 1 })

variable (key : Host)

/-- `names_to_subnode_records/3` -/
def namesToSubnodeRecords (node : String) (parents : List String) :
    List ((Host × String) × String) :=
  parents.map fun parent => ((key, parent), node)

/-- `set_subnodes/3`; in a bag an object is at most once. -/
def setSubnodes (nodeid : Host × String) (newParents oldParents : List String) : Db :=
  let deleted := oldParents.filter fun parent => parent ∉ newParents
  let added := newParents.filter fun parent => parent ∉ oldParents
  let deletedObjects := namesToSubnodeRecords nodeid.1 nodeid.2 deleted
  let addedObjects := namesToSubnodeRecords nodeid.1 nodeid.2 added
  let kept := db.subnodes.filter fun object => object ∉ deletedObjects
  { db with subnodes := addedObjects.foldl (fun bag object => bag.insert object) kept }

variable (node : PubsubNode)

/-- `get_parentnodes_names/1` -/
def getParentnodesNames : List String :=
  ((db.nodes.lookup node.nodeid).map PubsubNode.parents).getD []

/-- `set_node/2` -/
def writeNode (oldParents : List String) : Db :=
  let db1 := { db with nodes := db.nodes.insert node.nodeid node }
  if node.parents = oldParents then db1 else db1.setSubnodes node.nodeid node.parents oldParents

/-- `set_node/1` -/
def setNode : ℕ × Db :=
  match node.id with
  | none =>
    let (nidx, db1) := db.newIndex
    (nidx, db1.writeNode { node with id := some nidx } [])
  | some nidx => (nidx, db.writeNode node (db.getParentnodesNames node))

/-- `find_node_by_name/2` -/
def findNodeByName (node : String) : Option PubsubNode :=
  db.nodes.lookup (key, node)

/-- `delete_node/1` -/
def deleteNode : Db :=
  let db1 := db.setSubnodes node.nodeid [] node.parents
  { db1 with nodes := db1.nodes.erase node.nodeid }

/-- `get_subnodes_names/2` -/
def getSubnodesNames (node : String) : List String :=
  (db.subnodes.filter fun object => object.1 = (key, node)).map Prod.snd

/-- `find_nodes_by_names/2` -/
def findNodesByNames (nodes : List String) : List PubsubNode :=
  nodes.filterMap (db.findNodeByName key)

/-- `get_nodes_without_parents/1` -/
def getNodesWithoutParents : List PubsubNode :=
  (db.nodes.entries.map fun e => e.2).filter fun node => node.nodeid.1 = key ∧ node.parents = []

/-- `get_subnodes/2` -/
def getSubnodes (node : String) : List PubsubNode :=
  if node = "" then db.getNodesWithoutParents key
  else db.findNodesByNames key (db.getSubnodesNames key node)

variable {key : Host}

@[simp] theorem mem_namesToSubnodeRecords {key' : Host} {node node' parent : String}
    {parents : List String} :
    ((key', parent), node') ∈ namesToSubnodeRecords key node parents ↔
    (key', node') = (key, node) ∧ parent ∈ parents := by
  simp only [namesToSubnodeRecords, List.mem_map, Prod.mk.injEq]
  constructor
  · rintro ⟨p, hp, ⟨rfl, rfl⟩, rfl⟩
    exact ⟨⟨rfl, rfl⟩, hp⟩
  · rintro ⟨⟨rfl, rfl⟩, hp⟩
    exact ⟨parent, hp, ⟨rfl, rfl⟩, rfl⟩

theorem mem_foldl_insert {objects bag : List ((Host × String) × String)}
    {object : (Host × String) × String} :
    object ∈ objects.foldl (fun bag object => bag.insert object) bag ↔
    object ∈ bag ∨ object ∈ objects := by
  induction objects generalizing bag with
  | nil => simp
  | cons other objects ih =>
    rw [List.foldl_cons, ih, List.mem_insert_iff, List.mem_cons]
    tauto

variable {db : Db} {oldParents : List String}

/-- **What `set_subnodes/3` leaves in the bag**: the entries of the other nodes, and for the node
itself the new parents, if the old parents were right. -/
theorem mem_setSubnodes {nodeid : Host × String} {newParents : List String}
    (hold : ∀ parent, ((nodeid.1, parent), nodeid.2) ∈ db.subnodes ↔ parent ∈ oldParents)
    (key : Host) (parent node : String) :
    ((key, parent), node) ∈ (db.setSubnodes nodeid newParents oldParents).subnodes ↔
    if (key, node) = nodeid then parent ∈ newParents
    else ((key, parent), node) ∈ db.subnodes := by
  simp only [setSubnodes, mem_foldl_insert, List.mem_filter, mem_namesToSubnodeRecords,
    decide_not, Bool.not_eq_true', decide_eq_false_iff_not]
  by_cases heq : (key, node) = nodeid
  · subst heq
    rw [if_pos rfl, hold parent]
    tauto
  · simp only [heq, if_false, false_and, not_false_eq_true, and_true, or_false]

/-- **The tables agree**: a node is stored under its key with an index, its parents are those of its
options, and it is listed below exactly these. -/
structure Sound (db : Db) : Prop where
  keyed : ∀ k node, db.nodes.lookup k = some node → node.nodeid = k
  identified : ∀ k node, db.nodes.lookup k = some node → node.id ≠ none
  subnodes : ∀ key parent name, ((key, parent), name) ∈ db.subnodes ↔
    ∃ node, db.nodes.lookup (key, name) = some node ∧ parent ∈ node.parents

/-- The parents that a node is listed below are those that it names. -/
theorem Sound.mem_subnodes_iff (hdb : db.Sound) (k : Host × String) (parent : String) :
    ((k.1, parent), k.2) ∈ db.subnodes ↔
    parent ∈ ((db.nodes.lookup k).map PubsubNode.parents).getD [] := by
  rw [hdb.subnodes]
  cases db.nodes.lookup k with
  | none => simp
  | some node => simp

/-- **What a write does**: one node is stored, and the tables agree as before. -/
theorem Sound.writeNode (hdb : db.Sound) (node : PubsubNode) (hid : node.id ≠ none)
    (hold : oldParents = ((db.nodes.lookup node.nodeid).map PubsubNode.parents).getD []) :
    (db.writeNode node oldParents).Sound ∧ ∀ k, (db.writeNode node oldParents).nodes.lookup k =
      if k = node.nodeid then some node else db.nodes.lookup k := by
  have hlookup : ∀ k, (db.writeNode node oldParents).nodes.lookup k =
      if k = node.nodeid then some node else db.nodes.lookup k := by
    intro k
    unfold Db.writeNode
    split <;> exact lookup_insert _ _ _ _
  have hlisted : ∀ parent, ((node.nodeid.1, parent), node.nodeid.2) ∈ db.subnodes ↔
      parent ∈ oldParents := by
    intro parent
    rw [hold]
    exact hdb.mem_subnodes_iff node.nodeid parent
  refine ⟨⟨?_, ?_, ?_⟩, hlookup⟩
  · intro k node' hk
    rw [hlookup] at hk
    split at hk
    · rename_i heq
      cases hk
      exact heq.symm
    · exact hdb.keyed k node' hk
  · intro k node' hk
    rw [hlookup] at hk
    split at hk
    · cases hk
      exact hid
    · exact hdb.identified k node' hk
  · intro key parent name
    have hsub : ((key, parent), name) ∈ (db.writeNode node oldParents).subnodes ↔
        if (key, name) = node.nodeid then parent ∈ node.parents
        else ((key, parent), name) ∈ db.subnodes := by
      unfold Db.writeNode
      split
      · rename_i hsame
        split
        · rename_i heq
          rw [hsame, ← hlisted parent, ← heq]
        · exact Iff.rfl
      · exact mem_setSubnodes hlisted key parent name
    rw [hsub, hlookup]
    split
    · simp
    · exact hdb.subnodes key parent name

/-- **`set_node/1`** stores the node, with a new index if it has none. A node without an index must
not be stored yet. -/
theorem Sound.setNode (hdb : db.Sound) (node : PubsubNode)
    (hfresh : node.id = none → db.nodes.lookup node.nodeid = none) :
    (db.setNode node).2.Sound ∧ ∀ k, (db.setNode node).2.nodes.lookup k =
      if k = node.nodeid then some { node with id := some (db.setNode node).1 }
      else db.nodes.lookup k := by
  unfold Db.setNode
  cases hid : node.id with
  | none =>
    have hdb' : ({ db with last := db.last + 1 } : Db).Sound :=
      ⟨hdb.keyed, hdb.identified, hdb.subnodes⟩
    refine hdb'.writeNode { node with id := some (db.last + 1) } (by simp) ?_
    show [] = ((db.nodes.lookup node.nodeid).map PubsubNode.parents).getD []
    rw [hfresh hid]
    rfl
  | some nidx =>
    have h := hdb.writeNode node (by simp [hid]) rfl
    have hsame : { node with id := some nidx } = node := by rw [← hid]
    rw [hsame]
    exact h

variable {node : PubsubNode}

/-- **`delete_node/1`** of a stored node removes it. -/
theorem Sound.deleteNode (hdb : db.Sound)
    (hparents : ∀ parent, parent ∈ ((db.nodes.lookup node.nodeid).map PubsubNode.parents).getD [] →
    parent ∈ node.parents) :
    (db.deleteNode node).Sound ∧ ∀ k, (db.deleteNode node).nodes.lookup k =
      if k = node.nodeid then none else db.nodes.lookup k := by
  have hlookup : ∀ k, (db.deleteNode node).nodes.lookup k =
      if k = node.nodeid then none else db.nodes.lookup k := fun k => lookup_erase _ _ _
  refine ⟨⟨?_, ?_, ?_⟩, hlookup⟩
  · intro k node' hk
    rw [hlookup] at hk
    split at hk
    · cases hk
    · exact hdb.keyed k node' hk
  · intro k node' hk
    rw [hlookup] at hk
    split at hk
    · cases hk
    · exact hdb.identified k node' hk
  · intro key parent name
    have hsub : ((key, parent), name) ∈ (db.deleteNode node).subnodes ↔
        ((key, parent), name) ∈ db.subnodes ∧
          ¬((key, name) = node.nodeid ∧ parent ∈ node.parents) := by
      show ((key, parent), name) ∈ (db.setSubnodes node.nodeid [] node.parents).subnodes ↔ _
      simp only [setSubnodes, mem_foldl_insert, List.mem_filter, mem_namesToSubnodeRecords,
        decide_not, Bool.not_eq_true', decide_eq_false_iff_not]
      simp [Prod.ext_iff]
    rw [hsub, hlookup]
    split
    · rename_i heq
      constructor
      · rintro ⟨hmem, hnot⟩
        refine absurd ⟨heq, hparents parent ?_⟩ hnot
        rw [← heq]
        exact (hdb.mem_subnodes_iff (key, name) parent).1 hmem
      · rintro ⟨node', hnode', -⟩
        cases hnode'
    · rename_i hne
      rw [hdb.subnodes]
      exact and_iff_left fun h => hne h.1

/-- **`get_subnodes/2`** returns the nodes that name the given node as a parent. -/
theorem Sound.mem_getSubnodes (hdb : db.Sound) {name : String} (hname : name ≠ "") :
    node ∈ db.getSubnodes key name ↔
    ∃ child, db.nodes.lookup (key, child) = some node ∧ name ∈ node.parents := by
  rw [getSubnodes, if_neg hname]
  simp only [findNodesByNames, List.mem_filterMap, getSubnodesNames, List.mem_map, List.mem_filter,
    decide_eq_true_eq]
  constructor
  · rintro ⟨child, ⟨⟨⟨key', parent⟩, child'⟩, ⟨hmem, heq⟩, rfl⟩, hnode⟩
    cases heq
    obtain ⟨node', hnode', hparent⟩ := (hdb.subnodes _ _ _).1 hmem
    cases (hnode.symm.trans hnode')
    exact ⟨child', hnode, hparent⟩
  · rintro ⟨child, hnode, hparent⟩
    exact ⟨child, ⟨((key, name), child), ⟨(hdb.subnodes _ _ _).2 ⟨node, hnode, hparent⟩, rfl⟩, rfl⟩,
      hnode⟩

theorem mem_getSubnodes_top : node ∈ db.getSubnodes key "" ↔
    (∃ k, db.nodes.lookup k = some node) ∧ node.nodeid.1 = key ∧ node.parents = [] := by
  rw [getSubnodes, if_pos rfl]
  simp only [getNodesWithoutParents, List.mem_filter, List.mem_map, decide_eq_true_eq]
  refine and_congr_left fun _ => ?_
  constructor
  · rintro ⟨⟨k, node'⟩, hmem, rfl⟩
    exact ⟨k, AList.mem_lookup_iff.2 hmem⟩
  · rintro ⟨k, hk⟩
    exact ⟨⟨k, node⟩, AList.mem_lookup_iff.1 hk, rfl⟩

end Db

end MongooseIM.Pubsub.Mnesia
