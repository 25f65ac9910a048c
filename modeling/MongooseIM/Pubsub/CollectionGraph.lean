import MongooseIM.Graph.Acyclic
import MongooseIM.Pubsub.NodetreeDag
import MongooseIM.Transition.Run

/-! # The graph of collections

A node points to the collections that it names. `nodetree_dag` looks at one edge at a time: it
neither looks for a cycle, nor at the nodes below a node whose type changes. -/

namespace MongooseIM.Pubsub.NodetreeDag

open Erlang Graph Pubsub.Mnesia Transition Relation Option

/-- Node `child` of a host names `parent` as a parent. -/
def ParentOf (db : Db) (key : Host) (child parent : String) : Prop :=
  ∃ node, db.findNodeByName key child = some node ∧ parent ∈ node.parents

/-- A node of this name exists on the host, and it is a collection. -/
def IsCollection (db : Db) (key : Host) (name : String) : Prop :=
  ∃ node, db.findNodeByName key name = some node ∧ findNodeType node.options = "collection"

/-- **The nodes of a host form a DAG of collections.** -/
structure IsDag (db : Db) (key : Host) : Prop where
  acyclic : Acyclic (ParentOf db key)
  /-- Every parent exists on the host and is a collection. -/
  collections : ∀ child parent, ParentOf db key child parent → IsCollection db key parent

/-- A node may be written with these options: none of its parents is below it, the root is named
only if a collection has the empty name, and a node with nodes below it is a collection. -/
def WriteOk (db : Db) (key : Host) (node : String) (options : List NodeOption) : Prop :=
  (∀ parent ∈ findCollection options, ¬ ReflTransGen (ParentOf db key) parent node) ∧
    ("" ∈ findCollection options → IsCollection db key "") ∧
    ((∃ child, child ≠ node ∧ ParentOf db key child node) →
      findNodeType options = "collection")

/-- The parents that the nodes below a deleted node keep. -/
def remaining (node : String) (parents : List String) : List String :=
  if node = "" then parents else parents.erase node

/-- **What a request must not do**: name the root, make a parent of a node that is below it, turn a
parent into a leaf, or delete a node that another one still names afterwards. -/
def RequestOk (key : Host) (db : Db) : Request → Prop
  | .create node _ owner options _ =>
    db.findNodeByName key node = none →
      validateParentage db key [owner.toBare] (findCollection options) = .ok () →
        "" ∈ findCollection options → IsCollection db key ""
  | .configure node owners options =>
    db.findNodeByName key node ≠ none →
      validateParentage db key owners (findCollection options) = .ok () →
        WriteOk db key node options
  | .delete node =>
    db.findNodeByName key node ≠ none →
      ∀ child record, child ≠ node → db.findNodeByName key child = some record →
        node ∉ remaining node record.parents

/-- The tables agree, and the parents of a node are those of its options. -/
structure Shaped (db : Db) : Prop where
  sound : db.Sound
  named : ∀ k node, db.nodes.lookup k = some node → node.parents = findCollection node.options

variable {db db' : Db} {key : Host}

theorem isCollection_of_validateParentage {owners : List Xmpp.Jid} {parents : List String}
    (h : validateParentage db key owners parents = .ok ()) :
    ∀ parent ∈ parents, parent ≠ "" → IsCollection db key parent := by
  induction parents with
  | nil => simp
  | cons first rest ih =>
    intro parent hmem hne
    unfold validateParentage at h
    split at h
    · rename_i hempty
      rcases List.mem_cons.1 hmem with rfl | hmem
      · exact absurd hempty hne
      · exact ih h parent hmem hne
    · cases hfind : db.findNodeByName key first with
      | none => simp [hfind] at h
      | some record =>
        simp only [hfind] at h
        split at h
        · cases h
        · split at h
          · rename_i htype
            rcases List.mem_cons.1 hmem with rfl | hmem
            · exact ⟨record, hfind, htype⟩
            · exact ih h parent hmem hne
          · cases h

/-- **Writing one node** keeps the DAG exactly if the node may be written. -/
theorem isDag_write (hdag : IsDag db key) {name : String} {node : PubsubNode}
    (hlookup : ∀ other, db'.findNodeByName key other =
    if other = name then some node else db.findNodeByName key other)
    (hparents : node.parents = findCollection node.options)
    (hvalid : ∀ parent ∈ node.parents, parent ≠ "" → IsCollection db key parent) :
    IsDag db' key ↔ WriteOk db key name node.options := by
  have hself : ∀ parent, ParentOf db' key name parent ↔ parent ∈ node.parents := by
    intro parent
    simp [ParentOf, hlookup]
  have hother : ∀ child parent, child ≠ name →
      (ParentOf db' key child parent ↔ ParentOf db key child parent) := by
    intro child parent hne
    simp [ParentOf, hlookup, hne]
  have hcollection : ∀ parent, parent ≠ name →
      (IsCollection db' key parent ↔ IsCollection db key parent) := by
    intro parent hne
    simp [IsCollection, hlookup, hne]
  have hagree : AgreeOff name (ParentOf db key) (ParentOf db' key) :=
    fun child parent hne => (hother child parent hne).symm
  have hacyclic := acyclic_iff_of_agreeOff hagree hdag.acyclic
  simp only [hself] at hacyclic
  unfold WriteOk
  rw [← hparents]
  constructor
  · intro hdag'
    have hcycle := hacyclic.1 hdag'.acyclic
    refine ⟨hcycle, ?_, ?_⟩
    · intro hroot
      have hne : "" ≠ name := by
        rintro rfl
        exact hcycle "" hroot .refl
      exact (hcollection "" hne).1 (hdag'.collections name "" ((hself "").2 hroot))
    · rintro ⟨child, hne, hchild⟩
      obtain ⟨node', hfind, htype⟩ :=
        hdag'.collections child name ((hother child name hne).2 hchild)
      rw [hlookup, if_pos rfl] at hfind
      cases hfind
      exact htype
  · rintro ⟨hcycle, hroot, htype⟩
    refine ⟨hacyclic.2 hcycle, ?_⟩
    intro child parent hchild
    by_cases hc : child = name
    · subst hc
      have hmem := (hself parent).1 hchild
      have hne : parent ≠ child := by
        rintro rfl
        exact hcycle parent hmem .refl
      rw [hcollection parent hne]
      by_cases hempty : parent = ""
      · subst hempty
        exact hroot hmem
      · exact hvalid parent hmem hempty
    · have hchild := (hother child parent hc).1 hchild
      by_cases hp : parent = name
      · subst hp
        exact ⟨node, by rw [hlookup, if_pos rfl], htype ⟨child, hc, hchild⟩⟩
      · rw [hcollection parent hp]
        exact hdag.collections child parent hchild

/-- **`set_node/1`** either refuses the parents, or stores the node with the parents that its
options name. -/
theorem Shaped.setNode (hdb : Shaped db) (node : PubsubNode)
    (hfresh : node.id = none → db.nodes.lookup node.nodeid = none) :
    (validateParentage db node.nodeid.1 node.owners (findCollection node.options) ≠ .ok () ∧
    ∃ e, setNode db node = .error e) ∨
    (validateParentage db node.nodeid.1 node.owners (findCollection node.options) = .ok () ∧
    ∃ nidx db', setNode db node = .ok (nidx, db') ∧ Shaped db' ∧ ∀ k, db'.nodes.lookup k =
        if k = node.nodeid then
          some { node with parents := findCollection node.options, id := some nidx }
        else db.nodes.lookup k) := by
  unfold NodetreeDag.setNode
  cases hvalid : validateParentage db node.nodeid.1 node.owners (findCollection node.options) with
  | error e =>
    refine .inl ⟨by simp, e, ?_⟩
    simp only [hvalid]
    rfl
  | ok _ =>
    obtain ⟨hsound, hlookup⟩ := hdb.sound.setNode
      { node with parents := findCollection node.options } hfresh
    refine .inr ⟨rfl, _, _, by simp only [hvalid]; rfl, ⟨hsound, ?_⟩, hlookup⟩
    intro k node' hk
    rw [hlookup] at hk
    split at hk
    · cases hk
      rfl
    · exact hdb.named k node' hk

section

variable {name : String} (hdag : IsDag db key) (habsent : db.findNodeByName key name = none)

include hdag habsent

/-- A parent exists and is a collection, so a node that does not exist is no parent. -/
theorem IsDag.not_parent {child : String} : ¬ ParentOf db key child name := by
  intro hchild
  obtain ⟨node, hnode, -⟩ := hdag.collections child name hchild
  rw [habsent] at hnode
  cases hnode

/-- A new node may be written unless it names the root. -/
theorem IsDag.writeOk_new {options : List NodeOption}
    (hvalid : ∀ parent ∈ findCollection options, parent ≠ "" → IsCollection db key parent) :
    WriteOk db key name options ↔ ("" ∈ findCollection options → IsCollection db key "") := by
  refine ⟨fun h => h.2.1, fun hroot => ⟨?_, hroot, ?_⟩⟩
  · intro parent hmem hreach
    have hcollection : IsCollection db key parent := by
      by_cases hempty : parent = ""
      · subst hempty
        exact hroot hmem
      · exact hvalid parent hmem hempty
    rcases ReflTransGen.cases_tail hreach with rfl | ⟨child, -, hchild⟩
    · obtain ⟨node, hnode, -⟩ := hcollection
      rw [habsent] at hnode
      cases hnode
    · exact hdag.not_parent habsent hchild
  · rintro ⟨child, -, hchild⟩
    exact absurd hchild (hdag.not_parent habsent)

end

/-- **Creating a node.** -/
theorem Shaped.create (hdb : Shaped db) (node type : String) (owner : Xmpp.Jid)
    (options : List NodeOption) (parents : List String) :
    let db' := step key db (.create node type owner options parents)
    Shaped db' ∧ (IsDag db key →
      (IsDag db' key ↔ RequestOk key db (.create node type owner options parents))) := by
  simp only [step, createNode, RequestOk]
  cases habsent : db.findNodeByName key node with
  | some record => exact ⟨hdb, fun hdag => iff_of_true hdag fun h => by cases h⟩
  | none =>
    have habsent' : db.nodes.lookup (key, node) = none := habsent
    rcases hdb.setNode ⟨(key, node), none, parents, type, [owner.toBare], options⟩
        (fun _ => habsent') with ⟨hinvalid, e, hres⟩ | ⟨hvalid, nidx, db', hres, hdb', hlookup⟩
    · simp only [hres]
      exact ⟨hdb, fun hdag => iff_of_true hdag fun _ hvalid => absurd hvalid hinvalid⟩
    · simp only [hres]
      refine ⟨hdb', fun hdag => ?_⟩
      have hparents := isCollection_of_validateParentage hvalid
      have hfound : ∀ other, db'.findNodeByName key other = if other = node then
          some ⟨(key, node), some nidx, findCollection options, type, [owner.toBare], options⟩
          else db.findNodeByName key other := by
        intro other
        rw [Db.findNodeByName, hlookup]
        simp [Db.findNodeByName]
      have hwrite := isDag_write hdag hfound rfl hparents
      rw [hwrite, hdag.writeOk_new habsent hparents]
      exact ⟨fun h _ _ => h, fun h => h trivial hvalid⟩

/-- **Configuring a node.** -/
theorem Shaped.configure (hdb : Shaped db) (node : String) (owners : List Xmpp.Jid)
    (options : List NodeOption) :
    let db' := step key db (.configure node owners options)
    Shaped db' ∧ (IsDag db key →
      (IsDag db' key ↔ RequestOk key db (.configure node owners options))) := by
  simp only [step, RequestOk]
  cases hfind : db.findNodeByName key node with
  | none => exact ⟨hdb, fun hdag => iff_of_true hdag fun h => absurd rfl h⟩
  | some record =>
    have hkeyed : record.nodeid = (key, node) := hdb.sound.keyed _ _ hfind
    have hid : record.id ≠ none := hdb.sound.identified _ _ hfind
    rcases hdb.setNode { record with owners := owners, options := options }
        (fun h => absurd h hid) with
      ⟨hinvalid, e, hres⟩ | ⟨hvalid, nidx, db', hres, hdb', hlookup⟩
    · simp only [hkeyed] at hinvalid
      simp only [hres]
      exact ⟨hdb, fun hdag => iff_of_true hdag fun _ hvalid => absurd hvalid hinvalid⟩
    · simp only [hkeyed] at hvalid hlookup
      simp only [hres]
      refine ⟨hdb', fun hdag => ?_⟩
      have hfound : ∀ other, db'.findNodeByName key other = if other = node then
          some ⟨(key, node), some nidx, findCollection options, record.type, owners, options⟩
          else db.findNodeByName key other := by
        intro other
        rw [Db.findNodeByName, hlookup]
        simp [Db.findNodeByName]
      have hwrite := isDag_write hdag hfound rfl (isCollection_of_validateParentage hvalid)
      rw [hwrite]
      exact ⟨fun h _ _ => h, fun h => h (by simp) hvalid⟩

/-- **The nodes below** lose a parent, one after another. -/
theorem Shaped.foldl_withoutParent {db₀ : Db} (hdb₀ : Shaped db₀) (name : String)
    (children : List PubsubNode)
    (hstored : ∀ child ∈ children, db₀.nodes.lookup child.nodeid = some child)
    (hdb : Shaped db) :
    let db' := children.foldl (fun db child => (db.setNode (withoutParent name child)).2) db
    Shaped db' ∧ ∀ k, db'.nodes.lookup k = match db₀.nodes.lookup k with
      | some node => if node ∈ children then some (withoutParent name node) else db.nodes.lookup k
      | none => db.nodes.lookup k := by
  induction children generalizing db with
  | nil =>
    refine ⟨hdb, fun k => ?_⟩
    cases db₀.nodes.lookup k with
    | none => rfl
    | some node => simp
  | cons child children ih =>
    have hchild := hstored child List.mem_cons_self
    obtain ⟨nidx, hid⟩ := ne_none_iff_exists'.1 (hdb₀.sound.identified _ _ hchild)
    obtain ⟨hsound, hlookup⟩ := hdb.sound.setNode (withoutParent name child)
      (fun h => by simp [withoutParent, hid] at h)
    have hsame : { withoutParent name child with
        id := some (db.setNode (withoutParent name child)).1 } = withoutParent name child := by
      simp [Db.setNode, withoutParent, hid]
    rw [hsame] at hlookup
    have hdb' : Shaped (db.setNode (withoutParent name child)).2 := by
      refine ⟨hsound, fun k node hk => ?_⟩
      rw [hlookup] at hk
      split at hk
      · cases hk
        rfl
      · exact hdb.named k node hk
    obtain ⟨hshaped, hrest⟩ := ih (fun c hc => hstored c (List.mem_cons_of_mem child hc)) hdb'
    refine ⟨hshaped, fun k => ?_⟩
    rw [List.foldl_cons, hrest, hlookup]
    cases hk : db₀.nodes.lookup k with
    | none =>
      have hne : k ≠ child.nodeid := by
        rintro rfl
        rw [hchild] at hk
        cases hk
      simp [withoutParent, hne]
    | some node =>
      have hiff : k = child.nodeid ↔ node = child := by
        constructor
        · rintro rfl
          exact some.inj (hk.symm.trans hchild)
        · rintro rfl
          exact (hdb₀.sound.keyed _ _ hk).symm
      by_cases hmem : node ∈ children
      · simp [hmem]
      · by_cases heq : node = child
        · simp [heq, hiff.2 heq, withoutParent]
        · have hne : k ≠ child.nodeid := fun h => heq (hiff.1 h)
          simp [hmem, heq, withoutParent, hne]

/-- **Deleting a node**: it is gone, and the others keep their remaining parents and their type. -/
theorem Shaped.delete_found (hdb : Shaped db) {name : String} {record : PubsubNode}
    (hfind : db.findNodeByName key name = some record) :
    let db' := step key db (.delete name)
    Shaped db' ∧ db'.findNodeByName key name = none ∧ ∀ other, other ≠ name →
        (db'.findNodeByName key other).map (fun node => (node.parents, findNodeType node.options)) =
          (db.findNodeByName key other).map fun node =>
            (remaining name node.parents, findNodeType node.options) := by
  have hkeyed : record.nodeid = (key, name) := hdb.sound.keyed _ _ hfind
  have hfind' : db.nodes.lookup (key, name) = some record := hfind
  simp only [step, deleteNode, hfind]
  generalize hchildren : db.getSubnodes key name = children
  have hstored : ∀ child ∈ children, db.nodes.lookup child.nodeid = some child := by
    intro child hmem
    rw [← hchildren] at hmem
    by_cases hname : name = ""
    · subst hname
      obtain ⟨⟨k, hk⟩, -⟩ := Db.mem_getSubnodes_top.1 hmem
      rw [hdb.sound.keyed _ _ hk]
      exact hk
    · obtain ⟨other, hother, -⟩ := (hdb.sound.mem_getSubnodes hname).1 hmem
      rw [hdb.sound.keyed _ _ hother]
      exact hother
  have hbelow : ∀ other node, db.nodes.lookup (key, other) = some node →
      remaining name node.parents =
        if node ∈ children then (withoutParent name node).parents else node.parents := by
    intro other node hnode
    have hparents : (withoutParent name node).parents = node.parents.erase name := by
      simp [withoutParent, hdb.named _ _ hnode]
    rw [hparents, ← hchildren, remaining]
    by_cases hname : name = ""
    · subst hname
      rw [if_pos rfl]
      split
      · rename_i hmem
        rw [(Db.mem_getSubnodes_top.1 hmem).2.2]
        rfl
      · rfl
    · rw [if_neg hname]
      split
      · rfl
      · rename_i hmem
        refine List.erase_of_not_mem fun hparent => hmem ?_
        exact (hdb.sound.mem_getSubnodes hname).2 ⟨other, hnode, hparent⟩
  obtain ⟨hshaped, hlookup⟩ := hdb.foldl_withoutParent name children hstored hdb
  generalize children.foldl (fun db child => (db.setNode (withoutParent name child)).2) db = db₁
    at hshaped hlookup
  have hrecord : ∀ parent,
      parent ∈ ((db₁.nodes.lookup record.nodeid).map PubsubNode.parents).getD [] →
        parent ∈ record.parents := by
    intro parent
    rw [hkeyed, hlookup, hfind']
    dsimp only
    split
    · intro hmem
      have hmem : parent ∈ (record.parents).erase name := by
        simpa [withoutParent, hdb.named _ _ hfind'] using hmem
      exact List.mem_of_mem_erase hmem
    · exact id
  obtain ⟨hsound, hdeleted⟩ := hshaped.sound.deleteNode hrecord
  rw [hkeyed] at hdeleted
  refine ⟨⟨hsound, ?_⟩, ?_, ?_⟩
  · intro k node hk
    rw [hdeleted] at hk
    split at hk
    · cases hk
    · exact hshaped.named k node hk
  · rw [Db.findNodeByName, hdeleted, if_pos rfl]
  · intro other hne
    have hne' : (key, other) ≠ (key, name) := fun h => hne (Prod.mk.inj h).2
    rw [Db.findNodeByName, hdeleted, if_neg hne', hlookup, Db.findNodeByName]
    cases hother : db.nodes.lookup (key, other) with
    | none => rfl
    | some node =>
      simp only [map_some, hbelow other node hother]
      split
      · simp [withoutParent]
      · rfl

/-- **Deleting a node** keeps the DAG exactly if no other node still names it. -/
theorem Shaped.delete (hdb : Shaped db) (name : String) : let db' := step key db (.delete name)
    Shaped db' ∧ (IsDag db key → (IsDag db' key ↔ RequestOk key db (.delete name))) := by
  cases hfind : db.findNodeByName key name with
  | none =>
    simp only [step, deleteNode, hfind, RequestOk]
    exact ⟨hdb, fun hdag => iff_of_true hdag fun h => absurd rfl h⟩
  | some record =>
    obtain ⟨hshaped, hgone, hothers⟩ := hdb.delete_found hfind
    refine ⟨hshaped, fun hdag => ?_⟩
    generalize step key db (.delete name) = db' at hgone hothers
    have hparent : ∀ child parent, ParentOf db' key child parent ↔
        child ≠ name ∧ ∃ node, db.findNodeByName key child = some node ∧
          parent ∈ remaining name node.parents := by
      intro child parent
      unfold ParentOf
      by_cases hc : child = name
      · subst hc
        simp [hgone]
      · have h := hothers child hc
        cases hd : db.findNodeByName key child with
        | none =>
          rw [hd, map_none, map_eq_none_iff] at h
          simp [h]
        | some node =>
          rw [hd, map_some, map_eq_some_iff] at h
          obtain ⟨node', hnode', heq⟩ := h
          have hsame : node'.parents = remaining name node.parents := congrArg Prod.fst heq
          simp [hnode', hsame, hc]
    have hcollection : ∀ parent, parent ≠ name →
        (IsCollection db' key parent ↔ IsCollection db key parent) := by
      intro parent hp
      unfold IsCollection
      have h := hothers parent hp
      cases hd : db.findNodeByName key parent with
      | none =>
        rw [hd, map_none, map_eq_none_iff] at h
        simp [h]
      | some node =>
        rw [hd, map_some, map_eq_some_iff] at h
        obtain ⟨node', hnode', heq⟩ := h
        have hsame : findNodeType node'.options = findNodeType node.options := congrArg Prod.snd heq
        simp [hnode', hsame]
    have hfewer : ∀ child parent, ParentOf db' key child parent → ParentOf db key child parent := by
      intro child parent hchild
      obtain ⟨-, node, hnode, hmem⟩ := (hparent child parent).1 hchild
      refine ⟨node, hnode, ?_⟩
      unfold remaining at hmem
      split at hmem
      · exact hmem
      · exact List.mem_of_mem_erase hmem
    simp only [RequestOk, hfind]
    constructor
    · intro hdag' _ child node hne hnode hmem
      obtain ⟨node', hnode', -⟩ :=
        hdag'.collections child name ((hparent child name).2 ⟨hne, node, hnode, hmem⟩)
      rw [hgone] at hnode'
      cases hnode'
    · intro hok
      refine ⟨hdag.acyclic.mono hfewer, fun child parent hchild => ?_⟩
      obtain ⟨hne, node, hnode, hmem⟩ := (hparent child parent).1 hchild
      have hp : parent ≠ name := by
        rintro rfl
        exact hok (by simp) child node hne hnode hmem
      rw [hcollection parent hp]
      exact hdag.collections child parent (hfewer child parent hchild)

/-- **A request** keeps the tables in shape, and the DAG exactly if it meets `RequestOk`. -/
theorem Shaped.step (hdb : Shaped db) (request : Request) :
    let db' := NodetreeDag.step key db request
    Shaped db' ∧ (IsDag db key → (IsDag db' key ↔ RequestOk key db request)) := by
  cases request with
  | create node type owner options parents => exact hdb.create node type owner options parents
  | configure node owners options => exact hdb.configure node owners options
  | delete node => exact hdb.delete node

theorem Shaped.empty : Shaped {} :=
  ⟨⟨(fun _ _ h => nomatch h), (fun _ _ h => nomatch h), by simp⟩, fun _ _ h => nomatch h⟩

theorem isDag_empty (key : Host) : IsDag {} key := by
  have hnone : ∀ child parent, ¬ ParentOf {} key child parent := by
    rintro child parent ⟨node, hnode, -⟩
    cases hnode
  exact ⟨acyclic_of_empty hnone, fun child parent h => absurd h (hnone child parent)⟩

/-- **The collections of a host form a DAG** in every state of a run of requests, exactly if every
request meets `RequestOk`. -/
theorem collection_graph_is_dag (key : Host) (requests : List Request) :
    Guarded (fun db request => some (step key db request)) (RequestOk key) {} requests ↔
    ∀ taken db, taken <+: requests →
      run (fun db request => some (step key db request)) {} taken = some db → IsDag db key := by
  rw [guarded_iff_holds_along (P := fun _ db => Shaped db ∧ IsDag db key)
    (fun db request => ⟨_, rfl⟩)
    (fun _ db request db' hP hstep => by
      cases hstep
      obtain ⟨hshaped, hdag⟩ := hP.1.step request
      rw [← hdag hP.2]
      exact ⟨And.right, fun h => ⟨hshaped, h⟩⟩)
    ⟨Shaped.empty, isDag_empty key⟩ requests]
  have hshaped : ∀ taken db,
      run (fun db request => some (step key db request)) {} taken = some db → Shaped db := by
    intro taken db hrun
    refine run_induction (P := fun _ db => Shaped db) ?_ Shaped.empty hrun
    intro _ db request db' hdb hstep
    cases hstep
    exact (hdb.step request).1
  constructor
  · intro hall taken db hinit hrun
    exact (hall taken db hinit hrun).2
  · intro hall taken db hinit hrun
    exact ⟨hshaped taken db hrun, hall taken db hinit hrun⟩

/-- The host and the owner of the runs below. -/
def pubsubHost : Host := .service "pubsub.localhost"

/-- The owner of the nodes. -/
def juliet : Xmpp.Jid := ⟨"juliet", "localhost", ""⟩

/-- The options of a node of this type in these collections. -/
def nodeOptions (type : String) (names : List String) : List NodeOption :=
  [.nodeType type, .collection names]

/-- Two collections, each put into the other. -/
def cycleRun : List Request :=
  [.create "a" "flat" juliet (nodeOptions "collection" []) [],
    .create "b" "flat" juliet (nodeOptions "collection" ["a"]) [],
    .configure "a" [juliet] (nodeOptions "collection" ["b"])]

/-- A collection with a node in it becomes a leaf. -/
def retypeRun : List Request :=
  [.create "a" "flat" juliet (nodeOptions "collection" []) [],
    .create "b" "flat" juliet (nodeOptions "leaf" ["a"]) [],
    .configure "a" [juliet] (nodeOptions "leaf" [])]

/-- A collection is deleted that a node names twice. -/
def namedTwiceRun : List Request :=
  [.create "a" "flat" juliet (nodeOptions "collection" []) [],
    .create "b" "flat" juliet (nodeOptions "leaf" ["a", "a"]) [],
    .delete "a"]

/-- **The graph gets a cycle, a parent that is a leaf, and a parent that does not exist.** -/
theorem collection_graph_cycle :
    (∃ db, run (fun db request => some (step pubsubHost db request)) {} cycleRun = some db ∧
    ¬ Acyclic (ParentOf db pubsubHost)) ∧
    (∃ db, run (fun db request => some (step pubsubHost db request)) {} retypeRun = some db ∧
    ParentOf db pubsubHost "b" "a" ∧ ¬ IsCollection db pubsubHost "a") ∧
    (∃ db, run (fun db request => some (step pubsubHost db request)) {} namedTwiceRun = some db ∧
    ParentOf db pubsubHost "b" "a" ∧ db.findNodeByName pubsubHost "a" = none) := by
  refine ⟨⟨cycleRun.foldl (step pubsubHost) {}, rfl, fun hacyclic => hacyclic "a" ?_⟩,
    ⟨retypeRun.foldl (step pubsubHost) {}, rfl, ⟨_, rfl, ?_⟩, ?_⟩,
    ⟨namedTwiceRun.foldl (step pubsubHost) {}, rfl, ⟨_, rfl, ?_⟩, ?_⟩⟩
  · have hab : ParentOf (cycleRun.foldl (step pubsubHost) {}) pubsubHost "a" "b" :=
      ⟨_, rfl, by decide⟩
    have hba : ParentOf (cycleRun.foldl (step pubsubHost) {}) pubsubHost "b" "a" :=
      ⟨_, rfl, by decide⟩
    exact .tail (.single hab) hba
  · decide
  · rintro ⟨node, hnode, htype⟩
    cases hnode
    revert htype
    decide
  · decide
  · decide

end MongooseIM.Pubsub.NodetreeDag
