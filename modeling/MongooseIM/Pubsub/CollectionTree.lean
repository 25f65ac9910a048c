import MongooseIM.Graph.DepthFirst
import MongooseIM.Graph.Distance
import MongooseIM.Pubsub.CollectionGraph
import MongooseIM.Pubsub.DbRdbms
import Mathlib.Data.String.Basic

/-! # The trees above and below a node

`get_parentnodes_tree/2` and `get_subnodes_tree/2` of both backends. Mnesia goes level by level and
leaves out the names that it has met; RDBMS follows every edge again, up to 100 levels. -/

namespace MongooseIM.Pubsub

open Erlang Graph List

/-- An element `{Depth, Nodes}` of a tree; `none` is the `false` of a start that is not found. -/
abbrev Level := ℕ × List (Option PubsubNode)

namespace Mnesia.Db

variable (nextNames known : List String)

/-- `PPNamesToGet` and `SSNamesToGet` -/
def namesToGet : List String :=
  let sorted := usort nextNames
  let cyclicNames := sorted.filter (· ∈ known)
  sorted.diff cyclicNames

theorem nodup_namesToGet : (namesToGet nextNames known).Nodup :=
  (nodup_usort _).diff

@[simp] theorem mem_namesToGet {nextNames known : List String} {name : String} :
    name ∈ namesToGet nextNames known ↔ name ∈ nextNames ∧ name ∉ known := by
  rw [namesToGet, (nodup_usort _).mem_sdiff_iff, mem_filter, mem_usort, decide_eq_true_eq]
  tauto

theorem length_left_lt {vertices nextNames known : List String} (hsub : nextNames ⊆ vertices)
    (hne : namesToGet nextNames known ≠ []) :
    (vertices.filter (· ∉ known ∪ namesToGet nextNames known)).length <
    (vertices.filter (· ∉ known)).length := by
  obtain ⟨name, hname⟩ := exists_mem_of_ne_nil _ hne
  have hnew := mem_namesToGet.1 hname
  exact length_filter_notMem_lt (fun _ h => mem_union_iff.2 (Or.inl h)) (hsub hnew.1) hnew.2
    (mem_union_iff.2 (Or.inr hname))

/-- `extract_parents/5` and `extract_subnodes/5`, which differ in the names next to a level and in
what stands above the last one. -/
def extractLevels (db : Db) (key : Host) (nextNames : List String → List String)
    (closing : ℕ → List Level) {vertices : List String}
    (hnext : ∀ names, nextNames names ⊆ vertices)
    (names : List String) (depth : ℕ) (known : List String) : List Level :=
  let records := db.findNodesByNames key names
  let known1 := known ∪ names
  let toGet := namesToGet (nextNames names) known1
  (if _hget : toGet = [] then closing depth
   else db.extractLevels key nextNames closing hnext toGet (depth + 1) known1) ++
    [(depth, records.map some)]
  termination_by (vertices.filter (· ∉ known ∪ names)).length
  decreasing_by exact length_left_lt (hnext names) _hget

variable (db : Db) (key : Host) (names : List String)

/-- The parents of the nodes of these names. -/
def parentNames : List String :=
  (db.findNodesByNames key names).flatMap PubsubNode.parents

theorem parentNames_subset :
    db.parentNames key names ⊆ db.nodes.entries.flatMap fun e => e.2.parents := by
  intro parent hparent
  obtain ⟨node, hnode, hparent⟩ := mem_flatMap.1 hparent
  obtain ⟨name, -, hfind⟩ := mem_filterMap.1 hnode
  exact mem_flatMap.2 ⟨⟨(key, name), node⟩, AList.mem_lookup_iff.1 hfind, hparent⟩

/-- `extract_parents/5` -/
def extractParents (parents : List String) (depth : ℕ) (known : List String) : List Level :=
  db.extractLevels key (db.parentNames key) (fun _ => []) (db.parentNames_subset key) parents depth
    known

/-- `get_parentnodes_tree/2` -/
def getParentnodesTree (node : String) : List Level :=
  match db.findNodeByName key node with
  | none => [(0, [])]
  | some record =>
    if record.parents = [] then [(0, [some record])]
    else db.extractParents key record.parents 1 [node] ++ [(0, [some record])]

/-- The nodes below those of these names. -/
def subnodeNames : List String :=
  names.flatMap (db.getSubnodesNames key)

theorem subnodeNames_subset : db.subnodeNames key names ⊆ db.subnodes.map Prod.snd := by
  intro name hname
  obtain ⟨parent, -, hname⟩ := mem_flatMap.1 hname
  exact ((filter_sublist.map Prod.snd).subset hname)

/-- `extract_subnodes/5` -/
def extractSubnodes (subnodes : List String) (depth : ℕ) (known : List String) : List Level :=
  db.extractLevels key (db.subnodeNames key) (fun depth => [(depth + 1, [])])
    (db.subnodeNames_subset key) subnodes depth known

/-- `get_subnodes_tree/2` -/
def getSubnodesTree (node : String) : List Level :=
  match db.findNodeByName key node with
  | none => [(1, []), (0, [none])]
  | some record =>
    db.extractSubnodes key (db.getSubnodesNames key node) 1 [node] ++ [(0, [some record])]

end Mnesia.Db

namespace Rdbms.Db

/-- A row of `nidx`, `name` and the name joined to it. -/
abbrev JoinedRow := ℕ × String × Option String

variable (db : Db) (key : Host) (name : String)

/-- The `LEFT JOIN` of the row of a node with these names. -/
def leftJoin (joined : List String) : List JoinedRow :=
  match db.nodes.lookup (key, name) with
  | none => []
  | some row =>
    if joined = [] then [(row.nidx, name, none)]
    else joined.map fun other => (row.nidx, name, some other)

/-- The names joined by `pubsub_select_node_with_parents`. -/
def joinedParents : List String :=
  (db.collections.filter fun row => row.1 = name).map Prod.snd

/-- The names joined by `pubsub_select_node_with_children`. -/
def joinedChildren : List String :=
  (db.collections.filter fun row => row.2 = name).map Prod.fst

/-- `maybe_add_parent_to_list/2` -/
def maybeAddParentToList : Option String → List String → List String
  | none, list => list
  | some parentName, list => parentName :: list

/-- `update_nodes_map/2` -/
def updateNodesMap (map : AList fun _ : ℕ => String × List String) (row : JoinedRow) :
    AList fun _ : ℕ => String × List String :=
  match map.lookup row.1 with
  | none => map.insert row.1 (row.2.1, maybeAddParentToList row.2.2 [])
  | some (name, nextLevel) => map.insert row.1 (name, maybeAddParentToList row.2.2 nextLevel)

/-- The map of the nodes of a level, by `nidx`: their names and those of the next level. -/
def levelMap (joined : String → List String) (names : List String) :
    AList fun _ : ℕ => String × List String :=
  (names.flatMap fun name => db.leftJoin key name (joined name)).foldl updateNodesMap ∅

/-- The record that `MapTransformer` makes of an entry. -/
def toNode (parents : List String → List String)
    (e : Σ _ : ℕ, String × List String) : PubsubNode where
  nodeid := (key, e.2.1)
  id := some e.1
  parents := parents e.2.2
  type := "flat"
  owners := []
  options := []

/-- `find_nodes_with_parents/4` and `find_subnodes/4`: `left` are the depths up to the limit of 100,
and a level is in the order its nodes are met in. -/
def findLevels (db : Db) (key : Host) (joined : String → List String)
    (parents : List String → List String) : ℕ → List String → ℕ → List Level → List Level
  | _, [], _, acc => acc
  | 0, _ :: _, _, acc => acc
  | left + 1, name :: names, depth, acc =>
    let entries := (db.levelMap key joined (name :: names)).entries.reverse
    let newNodes := entries.map fun e => some (toNode key parents e)
    db.findLevels key joined parents left (entries.flatMap fun e => e.2.2) (depth + 1)
      ((depth, newNodes) :: acc)

/-- `get_parentnodes_tree/2` -/
def getParentnodesTree (node : String) : List Level :=
  db.findLevels key db.joinedParents id 100 [node] 0 []

/-- `get_subnodes_tree/2` -/
def getSubnodesTree (node : String) : List Level :=
  db.findLevels key db.joinedChildren (fun _ => []) 100 [node] 0 []

end Rdbms.Db

/-! ## Exact trees -/

/-- The names that a tree returns, with their depths. -/
def placed (tree : List Level) : List (ℕ × String) :=
  tree.flatMap fun level => level.2.filterMap fun entry =>
    entry.map fun node => (level.1, node.nodeid.2)

@[simp] theorem placed_nil : placed [] = [] := rfl

@[simp] theorem placed_cons (level : Level) (tree : List Level) :
    placed (level :: tree) = placed [level] ++ placed tree := by
  simp [placed]

@[simp] theorem placed_append (tree tree' : List Level) :
    placed (tree ++ tree') = placed tree ++ placed tree' := flatMap_append

/-- **Every node that is reached is returned once, at its distance.** -/
structure Exact (m : Mnesia.Db) (key : Host) (next : String → String → Prop) (start : String)
    (returned : List (ℕ × String)) : Prop where
  once : (returned.map Prod.snd).Nodup
  mem_iff : ∀ depth name, (depth, name) ∈ returned ↔
    (m.findNodeByName key name).isSome ∧ Distance next start name depth

section Mnesia

open Mnesia

variable {m : Mnesia.Db} {key : Host} {next : String → String → Prop} {start : String}
  {nextNames : List String → List String} {closing : ℕ → List Level} {vertices names : List String}
  {depth : ℕ} {known : List String} (hnext : ∀ names, nextNames names ⊆ vertices)

/-- The records of a level have the names that are found. -/
theorem placed_records (hm : m.Sound) (names : List String) (depth : ℕ) :
    placed [(depth, (m.findNodesByNames key names).map some)] =
    (names.filter fun name => (m.findNodeByName key name).isSome).map (Prod.mk depth) := by
  simp only [placed, flatMap_cons, flatMap_nil, append_nil, filterMap_map, Db.findNodesByNames]
  induction names with
  | nil => rfl
  | cons name names ih =>
    cases hfind : m.findNodeByName key name with
    | none => simpa [hfind] using ih
    | some node => simpa [hfind, hm.keyed (key, name) node hfind] using ih

section

variable (hm : m.Sound)
    (hedge : ∀ names name, name ∈ nextNames names ↔ ∃ other ∈ names, next other name)
    (hclosing : ∀ depth, placed (closing depth) = [])
    (hnodup : (names.filter fun name => (m.findNodeByName key name).isSome).Nodup)

include hm hedge hclosing hnodup

/-- **From a level on**, every node of its distance or a greater one is returned once. -/
theorem placed_extractLevels (hnames : ∀ name, name ∈ names ↔ Distance next start name depth)
    (hknown : ∀ name, name ∈ known ↔ ∃ d < depth, Distance next start name d) :
    ((placed (m.extractLevels key nextNames closing hnext names depth known)).map Prod.snd).Nodup ∧
    ∀ d name, (d, name) ∈ placed (m.extractLevels key nextNames closing hnext names depth known) ↔
      ((m.findNodeByName key name).isSome ∧ Distance next start name d) ∧ depth ≤ d := by
  induction hleft : (vertices.filter (· ∉ known ∪ names)).length using Nat.strong_induction_on
    generalizing names depth known with
  | _ left ih =>
    -- the known names are those of smaller distance, and the level makes them one more
    have hknown1 : ∀ name, name ∈ known ∪ names ↔ ∃ d < depth + 1, Distance next start name d := by
      intro name
      simp only [mem_union_iff, hknown, hnames, Nat.lt_succ_iff_lt_or_eq, or_and_right,
        exists_or, exists_eq_left]
    have hget : ∀ name, name ∈ Db.namesToGet (nextNames names) (known ∪ names) ↔
        Distance next start name (depth + 1) := by
      intro name
      simp only [Db.mem_namesToGet, hedge, hknown1, distance_succ_iff, hnames, not_exists, not_and]
    rw [Db.extractLevels, placed_append, placed_records hm]
    split_ifs with hlast
    · -- the last level: no node is further away
      have hend : ∀ name, ¬ Distance next start name (depth + 1) := by
        intro name hd
        simpa [hlast] using (hget name).2 hd
      rw [hclosing, nil_append, map_map]
      refine ⟨by simpa using hnodup, fun d name => ?_⟩
      simp only [mem_map, mem_filter, hnames, Prod.mk.injEq, exists_eq_right_right]
      constructor
      · rintro ⟨⟨hd, hsome⟩, rfl⟩
        exact ⟨⟨hsome, hd⟩, le_rfl⟩
      · rintro ⟨⟨hsome, hd⟩, hle⟩
        obtain rfl : depth = d :=
          le_antisymm hle (not_lt.1 fun hlt => not_distance_of_le hend hlt name hd)
        exact ⟨⟨hd, hsome⟩, rfl⟩
    · obtain ⟨hrest, hmem⟩ := ih _ (hleft ▸ Db.length_left_lt (hnext names) hlast)
        ((Db.nodup_namesToGet _ _).filter _) hget hknown1 rfl
      rw [map_append, map_map]
      refine ⟨nodup_append.2 ⟨hrest, by simpa using hnodup, ?_⟩, fun d name => ?_⟩
      · -- a name of a later level is at a greater distance
        rintro name hname _ hlevel rfl
        obtain ⟨⟨d, _⟩, hd, rfl⟩ := mem_map.1 hname
        obtain ⟨⟨-, hd⟩, hle⟩ := (hmem _ _).1 hd
        simp only [Function.comp_def, mem_map, mem_filter, hnames, exists_eq_right] at hlevel
        exact absurd (hd.eq hlevel.1) (Nat.ne_of_gt hle)
      · simp only [mem_append, hmem, mem_map, mem_filter, hnames, Prod.mk.injEq,
          exists_eq_right_right]
        constructor
        · rintro (⟨hd, hle⟩ | ⟨⟨hd, hsome⟩, rfl⟩)
          · exact ⟨hd, Nat.le_of_succ_le hle⟩
          · exact ⟨⟨hsome, hd⟩, le_rfl⟩
        · rintro ⟨hd, hle⟩
          rcases Nat.lt_or_eq_of_le hle with hlt | rfl
          · exact Or.inl ⟨hd, hlt⟩
          · exact Or.inr ⟨⟨hd.2, hd.1⟩, rfl⟩

/-- **With Mnesia the tree is exact** where the start is not next to itself, and no node is named
twice next to it. -/
theorem exact_extractLevels
    (hnames : ∀ name, name ∈ names ↔ next start name) (hself : ¬ next start start)
    {record : PubsubNode} (hfind : m.findNodeByName key start = some record) :
    Exact m key next start (placed
    (m.extractLevels key nextNames closing hnext names 1 [start] ++ [(0, [some record])])) := by
  -- the names of the first level are not tested, so the start must not be among them
  have hone : ∀ name, name ∈ names ↔ Distance next start name 1 := by
    intro name
    rw [hnames, distance_succ_iff (n := 0)]
    simp only [distance_zero_iff, exists_eq_left', zero_add, Nat.lt_one_iff, forall_eq]
    exact ⟨fun h => ⟨h, fun heq => hself (heq ▸ h)⟩, And.left⟩
  have hzero : ∀ name, name ∈ [start] ↔ ∃ d < 1, Distance next start name d := by
    intro name
    simp only [mem_singleton, Nat.lt_one_iff, exists_eq_left, distance_zero_iff, eq_comm]
  obtain ⟨hrest, hmem⟩ := placed_extractLevels hnext hm hedge hclosing hnodup hone hzero
  have hstart : placed [(0, [some record])] = [(0, start)] := by
    simp [placed, hm.keyed (key, start) record hfind]
  constructor
  · rw [placed_append, hstart, map_append, map_singleton]
    refine nodup_append.2 ⟨hrest, nodup_singleton _, ?_⟩
    rintro name hname _ hlevel rfl
    obtain ⟨⟨d, _⟩, hd, rfl⟩ := mem_map.1 hname
    obtain ⟨⟨-, hd⟩, hle⟩ := (hmem _ _).1 hd
    have := hd.eq (distance_zero_iff.2 (mem_singleton.1 hlevel).symm)
    omega
  · intro d name
    rw [placed_append, hstart, mem_append, hmem, mem_singleton, Prod.mk.injEq]
    constructor
    · rintro (⟨hd, -⟩ | ⟨rfl, rfl⟩)
      · exact hd
      · exact ⟨by simp [hfind], distance_zero_iff.2 rfl⟩
    · rintro ⟨hsome, hd⟩
      rcases Nat.eq_zero_or_pos d with rfl | hpos
      · exact Or.inr ⟨rfl, (distance_zero_iff.1 hd).symm⟩
      · exact Or.inl ⟨⟨hsome, hd⟩, hpos⟩

end

end Mnesia

section Rdbms

open Rdbms Rdbms.Db

variable {m : Mnesia.Db} {db : Rdbms.Db} {key : Host} {next : String → String → Prop}
  {start : String} {joined : String → List String} {parents : List String → List String}
  {names : List String} {rows : List JoinedRow}

/-- The rows of an index are put together under the name of the first. -/
theorem lookup_foldl_updateNodesMap (rows : List JoinedRow) (i : ℕ) :
    (rows.foldl updateNodesMap ∅).lookup i = (rows.filter (·.1 = i)).head?.map fun row =>
      (row.2.1, ((rows.filter (·.1 = i)).filterMap (·.2.2)).reverse) := by
  have hadd : ∀ (other : Option String) (list : List String),
      maybeAddParentToList other list = other.toList ++ list := by
    rintro (_ | other) list <;> rfl
  -- the map is a fold from the left, so the last row comes last
  induction rows using reverseRecOn with
  | nil => rfl
  | append_singleton rows row ih =>
    rw [foldl_concat, filter_append, filter_singleton, updateNodesMap]
    by_cases hi : row.1 = i
    · subst hi
      rw [ih]
      cases rows.filter (·.1 = row.1) with
      | nil => cases hother : row.2.2 <;> simp [hadd, hother]
      | cons first rest =>
        cases hother : row.2.2 <;> cases hfirst : first.2.2 <;> simp [hadd, hother, hfirst]
    · have hne : i ≠ row.1 := Ne.symm hi
      split <;> simp [hne, hi, ih]

variable {e : Σ _ : ℕ, String × List String}

theorem mem_entries_foldl (he : e ∈ (rows.foldl updateNodesMap ∅).entries) :
    (∃ row ∈ rows, row.1 = e.1 ∧ row.2.1 = e.2.1) ∧
    ∀ name, name ∈ e.2.2 ↔ ∃ row ∈ rows, row.1 = e.1 ∧ row.2.2 = some name := by
  have hlookup := AList.mem_lookup_iff.2 he
  rw [lookup_foldl_updateNodesMap, Option.mem_def, Option.map_eq_some_iff] at hlookup
  obtain ⟨row, hrow, heq⟩ := hlookup
  have hmem := mem_filter.1 (mem_of_mem_head? hrow)
  refine ⟨⟨row, hmem.1, by simpa using hmem.2, by rw [← heq]⟩, fun name => ?_⟩
  rw [← heq]
  simp [mem_filterMap, and_assoc]

variable {row : JoinedRow}

theorem exists_entry_foldl (hrow : row ∈ rows) :
    ∃ e ∈ (rows.foldl updateNodesMap ∅).entries, e.1 = row.1 := by
  have hmem : row ∈ rows.filter (·.1 = row.1) := mem_filter.2 ⟨hrow, by simp⟩
  obtain ⟨first, rest, hfilter⟩ := exists_cons_of_ne_nil (ne_nil_of_mem hmem)
  have hlookup := lookup_foldl_updateNodesMap rows row.1
  rw [hfilter, head?_cons, Option.map_some] at hlookup
  exact ⟨⟨row.1, _⟩, AList.mem_lookup_iff.1 hlookup, rfl⟩

variable {name : String}

theorem mem_leftJoin {list : List String} : row ∈ db.leftJoin key name list ↔
    (∃ r, db.nodes.lookup (key, name) = some r ∧ row.1 = r.nidx) ∧ row.2.1 = name ∧
      ((row.2.2 = none ∧ list = []) ∨ ∃ other ∈ list, row.2.2 = some other) := by
  obtain ⟨i, n, o⟩ := row
  unfold leftJoin
  cases db.nodes.lookup (key, name) with
  | none => simp
  | some r =>
    by_cases hlist : list = []
    · simp [hlist]
    · simp only [hlist, if_false, mem_map, Prod.mk.injEq, and_false, false_or,
        Option.some.injEq, exists_eq_left']
      constructor
      · rintro ⟨other, hother, rfl, rfl, rfl⟩
        exact ⟨rfl, rfl, other, hother, rfl⟩
      · rintro ⟨rfl, rfl, other, hother, rfl⟩
        exact ⟨other, hother, rfl, rfl, rfl⟩

/-- The index of a row is that of one node. -/
def Indexed (db : Rdbms.Db) : Prop :=
  ∀ k k' row row', db.nodes.lookup k = some row → db.nodes.lookup k' = some row' →
    row.nidx = row'.nidx → k = k'

/-- An entry of the map of a level is a node of it, and lists the names joined to that node. -/
theorem mem_levelMap (hdb : Indexed db) (he : e ∈ (db.levelMap key joined names).entries) :
    (e.2.1 ∈ names ∧ ∃ r, db.nodes.lookup (key, e.2.1) = some r ∧ e.1 = r.nidx) ∧
    ∀ name, name ∈ e.2.2 ↔ name ∈ joined e.2.1 := by
  obtain ⟨⟨row, hrow, hidx, hname⟩, hnext⟩ := mem_entries_foldl he
  obtain ⟨name, hmem, hjoin⟩ := mem_flatMap.1 hrow
  obtain ⟨⟨r, hr, hi⟩, hn, -⟩ := mem_leftJoin.1 hjoin
  obtain rfl : name = e.2.1 := hn.symm.trans hname
  refine ⟨⟨hmem, r, hr, hidx ▸ hi⟩, fun other => (hnext other).trans ⟨?_, fun hother => ?_⟩⟩
  · rintro ⟨row', hrow', hidx', hother⟩
    obtain ⟨name', -, hjoin'⟩ := mem_flatMap.1 hrow'
    obtain ⟨⟨r', hr', hi'⟩, -, hlist⟩ := mem_leftJoin.1 hjoin'
    -- rows of one index are of one node
    have hsame := hdb _ _ r r' hr hr' (by rw [← hi, ← hi', hidx, hidx'])
    obtain rfl := (Prod.mk.inj hsame).2
    simpa [hother] using hlist
  · exact ⟨(r.nidx, e.2.1, some other), mem_flatMap.2 ⟨_, hmem, mem_leftJoin.2
      ⟨⟨r, hr, rfl⟩, rfl, Or.inr ⟨other, hother, rfl⟩⟩⟩, by rw [← hidx, hi], rfl⟩

theorem exists_levelMap (joined : String → List String) (hdb : Indexed db) (hname : name ∈ names)
    (hsome : (db.findNodeByName key name).isSome) :
    ∃ e ∈ (db.levelMap key joined names).entries, e.2.1 = name := by
  obtain ⟨r, hr⟩ := Option.isSome_iff_exists.1 (Option.isSome_map ▸ hsome)
  have hrow : ∃ row ∈ db.leftJoin key name (joined name), row.1 = r.nidx := by
    cases hlist : joined name with
    | nil => exact ⟨(r.nidx, name, none), mem_leftJoin.2 (by simp [hr]), rfl⟩
    | cons other rest => exact ⟨(r.nidx, name, some other), mem_leftJoin.2 (by simp [hr]), rfl⟩
  obtain ⟨row, hrow, hidx⟩ := hrow
  have hrows : row ∈ names.flatMap fun name => db.leftJoin key name (joined name) :=
    mem_flatMap.2 ⟨name, hname, hrow⟩
  obtain ⟨e, he, hei⟩ := exists_entry_foldl hrows
  obtain ⟨⟨-, r', hr', hi⟩, -⟩ := mem_levelMap hdb he
  have hsame := hdb _ _ r' r hr' hr (by rw [← hi, hei, hidx])
  exact ⟨e, he, (Prod.mk.inj hsame).2⟩

/-- The names of a level are those of its nodes. -/
theorem mem_names_levelMap (hdb : Indexed db) :
    name ∈ (db.levelMap key joined names).entries.map (·.2.1) ↔
    name ∈ names ∧ (db.findNodeByName key name).isSome := by
  constructor
  · intro hname
    obtain ⟨e, he, rfl⟩ := mem_map.1 hname
    obtain ⟨⟨hmem, r, hr, -⟩, -⟩ := mem_levelMap hdb he
    exact ⟨hmem, by simp [Db.findNodeByName, hr]⟩
  · rintro ⟨hname, hsome⟩
    obtain ⟨e, he, rfl⟩ := exists_levelMap joined hdb hname hsome
    exact mem_map_of_mem he

theorem nodup_names_levelMap (hdb : Indexed db) :
    ((db.levelMap key joined names).entries.map (·.2.1)).Nodup := by
  refine List.Nodup.map_on (fun e he e' he' heq => ?_) (AList.nodupKeys _).nodup
  obtain ⟨⟨-, r, hr, hi⟩, -⟩ := mem_levelMap hdb he
  obtain ⟨⟨-, r', hr', hi'⟩, -⟩ := mem_levelMap hdb he'
  rw [heq, hr'] at hr
  cases hr
  exact (AList.nodupKeys _).eq_of_fst_eq he he' (hi.trans hi'.symm)

/-- The names of the next level are those joined to the nodes of this one. -/
theorem mem_next_levelMap (hdb : Indexed db) {other : String} :
    other ∈ (db.levelMap key joined names).entries.reverse.flatMap (·.2.2) ↔
    ∃ name ∈ names, (db.findNodeByName key name).isSome ∧ other ∈ joined name := by
  simp only [mem_flatMap, mem_reverse]
  constructor
  · rintro ⟨e, he, hother⟩
    have hlevel := (mem_names_levelMap hdb).1 (mem_map_of_mem he)
    exact ⟨e.2.1, hlevel.1, hlevel.2, ((mem_levelMap hdb he).2 other).1 hother⟩
  · rintro ⟨name, hname, hsome, hother⟩
    obtain ⟨e, he, rfl⟩ := exists_levelMap joined hdb hname hsome
    exact ⟨e, he, ((mem_levelMap hdb he).2 other).2 hother⟩

/-- The nodes of a level are placed at its depth. -/
theorem placed_level (key : Host) (parents : List String → List String) (depth : ℕ)
    (entries : List (Σ _ : ℕ, String × List String)) :
    placed [(depth, entries.map fun e => some (toNode key parents e))] =
    entries.map fun e => (depth, e.2.1) := by
  simp [placed, toNode]

/-- **From a level on**, a node is returned at the length of every walk to it, up to the limit; at
each depth it is returned once. -/
theorem placed_findLevels (parents : List String → List String) (names : List String)
    (hdb : Indexed db)
    (hedge : ∀ d name other, Steps next d start name →
    (next name other ↔ (db.findNodeByName key name).isSome ∧ other ∈ joined name))
    (left depth : ℕ) (hnames : ∀ name, name ∈ names ↔ Steps next depth start name)
    (acc : List Level) (hacc : (placed acc).Nodup) (hlt : ∀ p ∈ placed acc, p.1 < depth) :
    (placed (db.findLevels key joined parents left names depth acc)).Nodup ∧
    ∀ d name, (d, name) ∈ placed (db.findLevels key joined parents left names depth acc) ↔
      (d, name) ∈ placed acc ∨ (depth ≤ d ∧ d < depth + left) ∧
        (db.findNodeByName key name).isSome ∧ Steps next d start name := by
  induction left generalizing names depth acc with
  | zero =>
    have hnone : ∀ d, ¬ (depth ≤ d ∧ d < depth + 0) := fun d h => by omega
    cases names <;> exact ⟨hacc, fun d name => by simp only [hnone, false_and, or_false]; rfl⟩
  | succ left ih =>
    rcases names with _ | ⟨first, rest⟩
    · -- no walk is as long
      refine ⟨hacc, fun d name => (or_iff_left ?_).symm⟩
      rintro ⟨⟨hle, -⟩, -, hsteps⟩
      exact not_steps_of_le (fun name h => by simpa using (hnames name).2 h) hle name hsteps
    · rw [findLevels]
      set entries := (db.levelMap key joined (first :: rest)).entries with hentries
      have hplaced := placed_level key parents depth entries.reverse
      have hlevel : ∀ d name, (d, name) ∈ entries.reverse.map (fun e => (depth, e.2.1)) ↔
          d = depth ∧ (db.findNodeByName key name).isSome ∧ Steps next d start name := by
        intro d name
        have hname : name ∈ entries.map (·.2.1) ↔ _ := mem_names_levelMap hdb
        rw [hnames, mem_map] at hname
        simp only [mem_map, mem_reverse, Prod.mk.injEq]
        constructor
        · rintro ⟨e, he, rfl, heq⟩
          exact ⟨rfl, (hname.1 ⟨e, he, heq⟩).symm⟩
        · rintro ⟨rfl, hsome, hsteps⟩
          obtain ⟨e, he, heq⟩ := hname.2 ⟨hsteps, hsome⟩
          exact ⟨e, he, rfl, heq⟩
      have hnodup : (entries.reverse.map fun e => (depth, e.2.1)).Nodup := by
        rw [map_reverse, nodup_reverse]
        refine List.Nodup.of_map Prod.snd ?_
        rw [map_map]
        exact nodup_names_levelMap hdb
      have hnext : ∀ other, other ∈ entries.reverse.flatMap (·.2.2) ↔
          Steps next (depth + 1) start other := by
        intro other
        rw [mem_next_levelMap hdb]
        constructor
        · rintro ⟨name, hname, hother⟩
          have hsteps := (hnames name).1 hname
          exact ⟨name, hsteps, (hedge depth name other hsteps).2 hother⟩
        · rintro ⟨name, hsteps, hother⟩
          exact ⟨name, (hnames name).2 hsteps, (hedge depth name other hsteps).1 hother⟩
      obtain ⟨hnodup', hmem⟩ := ih _ (depth + 1) hnext
        ((depth, entries.reverse.map fun e => some (toNode key parents e)) :: acc)
        (by
          rw [placed_cons, hplaced]
          refine nodup_append.2 ⟨hnodup, hacc, ?_⟩
          rintro ⟨d, name⟩ hd _ hold rfl
          exact absurd (hlt _ hold) (Nat.not_lt.2 ((hlevel d name).1 hd).1.ge))
        (by
          rw [placed_cons, hplaced]
          rintro ⟨d, name⟩ hd
          rcases mem_append.1 hd with hd | hd
          · exact Nat.lt_succ_of_le ((hlevel d name).1 hd).1.le
          · exact Nat.lt_succ_of_lt (hlt _ hd))
      refine ⟨hnodup', fun d name => (hmem d name).trans ?_⟩
      rw [placed_cons, hplaced, mem_append, hlevel]
      have hrange : (depth ≤ d ∧ d < depth + (left + 1)) ↔
          d = depth ∨ (depth + 1 ≤ d ∧ d < depth + 1 + left) := by omega
      rw [hrange, or_and_right, or_assoc, or_left_comm]

/-- **The walks over the rows have the right length**: one below the limit leads to a node at its
distance, and every node that is reached is reached by one. -/
structure Graded (m : Mnesia.Db) (key : Host) (next rows : String → String → Prop)
    (start : String) : Prop where
  shortest : ∀ d < 100, ∀ name, (m.findNodeByName key name).isSome → Steps rows d start name →
    Distance next start name d
  reached : ∀ n name, (m.findNodeByName key name).isSome → Steps next n start name →
    ∃ d < 100, Steps rows d start name

/-- Edges from each rank to the next one, and rows with the same walks: all walks to a node have the
same length. -/
theorem graded_of_rank {rows : String → String → Prop}
    (hrows : ∀ n name, (m.findNodeByName key name).isSome →
    (Steps rows n start name ↔ Steps next n start name))
    (rank : String → ℕ) (hstep : ∀ a b, next a b → rank b = rank a + 1)
    (hlt : ∀ name, rank name < 100) : Graded m key next rows start := by
  have hrank {n : ℕ} {name : String} (hsteps : Steps next n start name) :
      rank name = rank start + n := by
    induction n generalizing name with
    | zero => rw [← hsteps, Nat.add_zero]
    | succ n ih =>
      obtain ⟨other, hother, hedge⟩ := hsteps
      rw [hstep other name hedge, ih hother, Nat.add_assoc]
  constructor
  · intro d _ name hsome hsteps
    have hwalk := (hrows d name hsome).1 hsteps
    refine ⟨hwalk, fun k hk hshort => ?_⟩
    have := (hrank hwalk).symm.trans (hrank hshort)
    omega
  · intro n name hsome hsteps
    have := hlt name
    rw [hrank hsteps] at this
    exact ⟨n, by omega, (hrows n name hsome).2 hsteps⟩

/-- **With RDBMS a node is returned once for each length of a walk to it**, below the limit. -/
theorem mem_placed_findLevels (parents : List String → List String) (hdb : Indexed db)
    {rowNext : String → String → Prop}
    (hedge : ∀ name other,
    rowNext name other ↔ (db.findNodeByName key name).isSome ∧ other ∈ joined name) :
    (placed (db.findLevels key joined parents 100 [start] 0 [])).Nodup ∧
    ∀ d name, (d, name) ∈ placed (db.findLevels key joined parents 100 [start] 0 []) ↔
      d < 100 ∧ (db.findNodeByName key name).isSome ∧ Steps rowNext d start name := by
  have hzero : ∀ name, name ∈ [start] ↔ Steps rowNext 0 start name := by
    simp [Steps, eq_comm]
  obtain ⟨hnodup, hmem⟩ := placed_findLevels parents [start] hdb
    (fun _ name other _ => hedge name other) 100 0 hzero [] (by simp) (by simp)
  simp only [placed_nil, not_mem_nil, false_or, Nat.zero_le, true_and, zero_add] at hmem
  exact ⟨hnodup, hmem⟩

/-- **With RDBMS the tree is exact** exactly where the walks over the rows have the right length. -/
theorem exact_findLevels_iff (hdb : Indexed db) {rowNext : String → String → Prop}
    (hnodes : ∀ name, (db.findNodeByName key name).isSome = (m.findNodeByName key name).isSome)
    (hedge : ∀ name other,
    rowNext name other ↔ (db.findNodeByName key name).isSome ∧ other ∈ joined name) :
    Exact m key next start (placed (db.findLevels key joined parents 100 [start] 0 [])) ↔
    Graded m key next rowNext start := by
  obtain ⟨hnodup, hmem⟩ := mem_placed_findLevels parents hdb hedge
  simp only [hnodes] at hmem
  constructor
  · intro hexact
    constructor
    · exact fun d hd name hsome hsteps =>
        ((hexact.mem_iff d name).1 ((hmem d name).2 ⟨hd, hsome, hsteps⟩)).2
    · intro n name hsome hsteps
      obtain ⟨d, -, hd⟩ := hsteps.exists_distance
      obtain ⟨hlt, -, hwalk⟩ := (hmem d name).1 ((hexact.mem_iff d name).2 ⟨hsome, hd⟩)
      exact ⟨d, hlt, hwalk⟩
  · intro hgraded
    have hlength : ∀ d name,
        (d, name) ∈ placed (db.findLevels key joined parents 100 [start] 0 []) →
          Distance next start name d := by
      intro d name hd
      obtain ⟨hlt, hsome, hsteps⟩ := (hmem d name).1 hd
      exact hgraded.shortest d hlt name hsome hsteps
    constructor
    · refine List.Nodup.map_on ?_ hnodup
      rintro ⟨d, name⟩ hd ⟨d', _⟩ hd' rfl
      rw [(hlength d name hd).eq (hlength d' name hd')]
    · refine fun d name => ⟨fun hd => ⟨((hmem d name).1 hd).2.1, hlength d name hd⟩, ?_⟩
      rintro ⟨hsome, hd⟩
      obtain ⟨n, hn, hsteps⟩ := hgraded.reached d name hsome hd.1
      obtain rfl := (hgraded.shortest n hn name hsome hsteps).eq hd
      exact (hmem n name).2 ⟨hn, hsome, hsteps⟩

end Rdbms

/-! ## Both backends -/

section Backends

open NodetreeDag

variable {m : Mnesia.Db} {db : Rdbms.Db} {key : Host} {next : String → String → Prop}
  {start : String}

/-- The tables of both backends hold the same nodes of a host. -/
structure Holds (m : Mnesia.Db) (db : Rdbms.Db) (key : Host) : Prop where
  sound : m.Sound
  bag : m.subnodes.Nodup
  indexed : Indexed db
  nodes : ∀ name, (db.findNodeByName key name).isSome = (m.findNodeByName key name).isSome

/-- A row leads from a node of the host to the name of a parent; rows are without the host. -/
def RowParent (db : Rdbms.Db) (key : Host) (child parent : String) : Prop :=
  (db.findNodeByName key child).isSome ∧ (child, parent) ∈ db.collections

theorem rowParent_iff (child parent : String) : RowParent db key child parent ↔
    (db.findNodeByName key child).isSome ∧ parent ∈ db.joinedParents child := by
  simp [RowParent, Rdbms.Db.joinedParents]

/-- A row leads from a node of the host to the name of a child. -/
def RowChild (db : Rdbms.Db) (key : Host) (name child : String) : Prop :=
  (db.findNodeByName key name).isSome ∧ (child, name) ∈ db.collections

/-- **Both trees are exact and the same.** -/
structure Faithful (m : Mnesia.Db) (key : Host) (next : String → String → Prop) (start : String)
    (mnesia rdbms : List Level) : Prop where
  exact_mnesia : Exact m key next start (placed mnesia)
  exact_rdbms : Exact m key next start (placed rdbms)
  same : (placed mnesia).Perm (placed rdbms)

/-- No node is named twice among the parents of the start. -/
def NamedOnce (m : Mnesia.Db) (key : Host) (start : String) : Prop :=
  ∀ record, m.findNodeByName key start = some record →
    (record.parents.filter fun name => (m.findNodeByName key name).isSome).Nodup

theorem Faithful.of_exact {mnesia rdbms : List Level} (hm : Exact m key next start (placed mnesia))
    (hr : Exact m key next start (placed rdbms)) : Faithful m key next start mnesia rdbms :=
  ⟨hm, hr, (perm_ext_iff_of_nodup hm.once.of_map hr.once.of_map).2 fun p =>
    (hm.mem_iff p.1 p.2).trans (hr.mem_iff p.1 p.2).symm⟩

variable {parent : String}

variable {name : String}

/-- The names below a node are those of the nodes that name it. -/
theorem mem_getSubnodesNames (hm : m.Sound) :
    name ∈ m.getSubnodesNames key parent ↔ ParentOf m key name parent := by
  rw [ParentOf, Mnesia.Db.findNodeByName, ← hm.subnodes key parent name]
  simp [Mnesia.Db.getSubnodesNames]

theorem nodup_getSubnodesNames (hbag : m.subnodes.Nodup) (parent : String) :
    (m.getSubnodesNames key parent).Nodup := by
  refine List.Nodup.map_on (fun a ha b hb heq => ?_) (hbag.filter _)
  have ha := of_decide_eq_true (mem_filter.1 ha).2
  have hb := of_decide_eq_true (mem_filter.1 hb).2
  exact Prod.ext (ha.trans hb.symm) heq

/-- The names that `get_parentnodes_tree/2` goes through are those of the start without a test. -/
theorem placed_getParentnodesTree {record : PubsubNode}
    (hfind : m.findNodeByName key start = some record) :
    placed (m.getParentnodesTree key start) =
    placed (m.extractParents key record.parents 1 [start] ++ [(0, [some record])]) := by
  simp only [Mnesia.Db.getParentnodesTree, hfind]
  split_ifs with hnone
  · rw [hnone, Mnesia.Db.extractParents, Mnesia.Db.extractLevels]
    have hempty : ∀ known, Mnesia.Db.namesToGet (m.parentNames key []) known = [] := fun _ => rfl
    simp [hempty, placed, Mnesia.Db.findNodesByNames]
  · rfl

/-- A tree that returns no node twice does not meet the start again, and is told each name next to
the start once. -/
theorem of_once_extractLevels {nextNames : List String → List String} {closing : ℕ → List Level}
    {vertices names : List String} (hnext : ∀ names, nextNames names ⊆ vertices) (hm : m.Sound)
    {record : PubsubNode} (hfind : m.findNodeByName key start = some record)
    (honce : ((placed (m.extractLevels key nextNames closing hnext names 1 [start] ++
    [(0, [some record])])).map Prod.snd).Nodup) :
    start ∉ names ∧ (names.filter fun name => (m.findNodeByName key name).isSome).Nodup := by
  rw [Mnesia.Db.extractLevels] at honce
  simp only [placed_append, placed_records hm, map_append, map_map] at honce
  obtain ⟨hlevels, -, hapart⟩ := nodup_append.1 honce
  refine ⟨fun hstart => ?_, by simpa using (nodup_append.1 hlevels).2.1⟩
  have hnamed : start ∈ (names.filter fun name => (m.findNodeByName key name).isSome).map
      (Prod.snd ∘ Prod.mk 1) := by
    simp [hstart, hfind]
  have hzero : start ∈ (placed [(0, [some record])]).map Prod.snd := by
    simp [placed, hm.keyed (key, start) record hfind]
  exact hapart start (mem_append_right _ hnamed) start hzero rfl

/-- **The trees of both backends are exact and the same** exactly where the walks over the rows have
the right length, the start is not next to itself and, upwards, no parent is named twice. -/
theorem traversals_exact_iff (h : Holds m db key) (hstart : (m.findNodeByName key start).isSome) :
    (Faithful m key (ParentOf m key) start
      (m.getParentnodesTree key start) (db.getParentnodesTree key start) ↔
    Graded m key (ParentOf m key) (RowParent db key) start ∧ ¬ ParentOf m key start start ∧
      NamedOnce m key start) ∧
    (Faithful m key (fun name child => ParentOf m key child name) start
      (m.getSubnodesTree key start) (db.getSubnodesTree key start) ↔
    Graded m key (fun name child => ParentOf m key child name) (RowChild db key) start ∧
      ¬ ParentOf m key start start) := by
  obtain ⟨record, hfind⟩ := Option.isSome_iff_exists.1 hstart
  have hup : Exact m key (ParentOf m key) start (placed (db.getParentnodesTree key start)) ↔
      Graded m key (ParentOf m key) (RowParent db key) start :=
    exact_findLevels_iff h.indexed h.nodes rowParent_iff
  have hdown : Exact m key (fun name child => ParentOf m key child name) start
      (placed (db.getSubnodesTree key start)) ↔
        Graded m key (fun name child => ParentOf m key child name) (RowChild db key) start :=
    exact_findLevels_iff h.indexed h.nodes fun name other => by
      simp [RowChild, Rdbms.Db.joinedChildren]
  have hself : start ∈ record.parents ↔ ParentOf m key start start := by simp [ParentOf, hfind]
  refine ⟨⟨fun hfaithful => ⟨hup.1 hfaithful.exact_rdbms, ?_⟩, ?_⟩,
    fun hfaithful => ⟨hdown.1 hfaithful.exact_rdbms, ?_⟩, ?_⟩
  · -- the first level is returned as it is named
    have honce := hfaithful.exact_mnesia.once
    rw [placed_getParentnodesTree hfind] at honce
    obtain ⟨hnot, hnodup⟩ := of_once_extractLevels _ h.sound hfind honce
    refine ⟨fun hloop => hnot (hself.2 hloop), fun record' hfind' => ?_⟩
    cases hfind.symm.trans hfind'
    exact hnodup
  · rintro ⟨hgraded, hnot, honce⟩
    refine Faithful.of_exact ?_ (hup.2 hgraded)
    rw [placed_getParentnodesTree hfind]
    apply exact_extractLevels _ h.sound
    · intro names name
      simp only [Mnesia.Db.parentNames, Mnesia.Db.findNodesByNames, mem_flatMap,
        mem_filterMap, ParentOf]
      tauto
    · exact fun _ => rfl
    · exact honce record hfind
    · intro name
      simp [ParentOf, hfind]
    · exact hnot
    · exact hfind
  · have honce := hfaithful.exact_mnesia.once
    simp only [Mnesia.Db.getSubnodesTree, hfind] at honce
    have hnot := (of_once_extractLevels _ h.sound hfind honce).1
    exact fun hloop => hnot ((mem_getSubnodesNames h.sound).2 hloop)
  · rintro ⟨hgraded, hnot⟩
    refine Faithful.of_exact ?_ (hdown.2 hgraded)
    simp only [Mnesia.Db.getSubnodesTree, hfind, Mnesia.Db.extractSubnodes]
    apply exact_extractLevels _ h.sound
    · intro names name
      simp only [Mnesia.Db.subnodeNames, mem_flatMap, mem_getSubnodesNames h.sound]
    · exact fun _ => rfl
    · exact (nodup_getSubnodesNames h.bag start).filter _
    · exact fun name => mem_getSubnodesNames h.sound
    · exact hnot
    · exact hfind

/-! ## The tables of a graph -/

/-- The names of the nodes of a host, with those of their parents. -/
structure NodeGraph where
  nodes : List (String × List String)
  nodup : (nodes.map Prod.fst).Nodup
  nodup_parents : ∀ e ∈ nodes, e.2.Nodup

namespace NodeGraph

variable (g : NodeGraph) (left : List (String × String))

/-- The index of a node. -/
def nidx (name : String) : ℕ := (g.nodes.map Prod.fst).idxOf name

/-- A table with a row for each node. -/
def table {α : Type} (row : String × List String → α) : AList fun _ : Host × String => α where
  entries := g.nodes.map fun e => ⟨(pubsubHost, e.1), row e⟩
  nodupKeys := by
    have hkeys : keys (g.nodes.map fun e => (⟨(pubsubHost, e.1), row e⟩ : Σ _ : Host × String, α)) =
        (g.nodes.map Prod.fst).map (Prod.mk pubsubHost) := by
      simp [keys]
    rw [NodupKeys, hkeys]
    exact g.nodup.map (Prod.mk_right_injective _)

/-- The tables of Mnesia with these nodes. -/
def mnesia : Mnesia.Db where
  nodes := g.table fun e =>
    ⟨(pubsubHost, e.1), some (g.nidx e.1), e.2, "flat", [], [.collection e.2]⟩
  subnodes := g.nodes.flatMap fun e => e.2.map fun parent => ((pubsubHost, parent), e.1)
  last := g.nodes.length

/-- The tables of RDBMS with these nodes, and with the rows `left` of deleted nodes. -/
def rdbms : Rdbms.Db where
  nodes := g.table fun e => ⟨g.nidx e.1, "flat", [], [.collection e.2]⟩
  collections := left ++ g.nodes.flatMap fun e => e.2.map fun parent => (e.1, parent)
  last := g.nodes.length

variable {g left}

theorem lookup_table {α : Type} {row : String × List String → α} {k : Host × String} {r : α} :
    (g.table row).lookup k = some r ↔ ∃ e ∈ g.nodes, (pubsubHost, e.1) = k ∧ row e = r := by
  rw [← Option.mem_def, AList.mem_lookup_iff, table, mem_map]
  simp

/-- A name stands in each table with one row for each node. -/
theorem isSome_lookup_table {α : Type} {row : String × List String → α} :
    ((g.table row).lookup (pubsubHost, name)).isSome ↔ name ∈ g.nodes.map Prod.fst := by
  simp [Option.isSome_iff_exists, lookup_table]

theorem isSome_mnesia :
    (g.mnesia.findNodeByName pubsubHost name).isSome ↔ name ∈ g.nodes.map Prod.fst :=
  isSome_lookup_table

theorem isSome_rdbms :
    ((g.rdbms left).findNodeByName pubsubHost name).isSome ↔ name ∈ g.nodes.map Prod.fst := by
  rw [Rdbms.Db.findNodeByName, Option.isSome_map]
  exact isSome_lookup_table

theorem parentOf_iff :
    ParentOf g.mnesia pubsubHost name parent ↔ ∃ e ∈ g.nodes, e.1 = name ∧ parent ∈ e.2 := by
  simp only [ParentOf, Mnesia.Db.findNodeByName, mnesia, lookup_table, Prod.mk.injEq, true_and]
  constructor
  · rintro ⟨_, ⟨e, he, hname, rfl⟩, hparent⟩
    exact ⟨e, he, hname, hparent⟩
  · rintro ⟨e, he, hname, hparent⟩
    exact ⟨_, ⟨e, he, hname, rfl⟩, hparent⟩

/-- A row is left, or it is that of a parent. -/
theorem mem_collections : (name, parent) ∈ (g.rdbms left).collections ↔
    (name, parent) ∈ left ∨ ParentOf g.mnesia pubsubHost name parent := by
  simp [rdbms, parentOf_iff]

/-- **Both backends hold the graph**, whatever rows are left. -/
theorem holds : Holds g.mnesia (g.rdbms left) pubsubHost where
  sound := by
    constructor
    · intro k node hfind
      obtain ⟨e, -, rfl, rfl⟩ := lookup_table.1 hfind
      rfl
    · intro k node hfind
      obtain ⟨e, -, -, rfl⟩ := lookup_table.1 hfind
      exact Option.some_ne_none _
    · intro key parent name
      simp only [mnesia, mem_flatMap, mem_map, Prod.mk.injEq, lookup_table]
      constructor
      · rintro ⟨e, he, _, hparent, ⟨rfl, rfl⟩, rfl⟩
        exact ⟨_, ⟨e, he, ⟨rfl, rfl⟩, rfl⟩, hparent⟩
      · rintro ⟨_, ⟨e, he, ⟨rfl, rfl⟩, rfl⟩, hparent⟩
        exact ⟨e, he, parent, hparent, ⟨rfl, rfl⟩, rfl⟩
  bag := by
    refine nodup_flatMap.2 ⟨fun e he => ?_, ?_⟩
    · exact (g.nodup_parents e he).map fun a b heq => congrArg (fun object => object.1.2) heq
    · refine (pairwise_map.1 g.nodup).imp fun {e e'} hne object hobject hobject' => ?_
      obtain ⟨_, -, rfl⟩ := mem_map.1 hobject
      obtain ⟨_, -, heq⟩ := mem_map.1 hobject'
      exact hne (congrArg Prod.snd heq).symm
  indexed := by
    intro k k' row row' hrow hrow' hidx
    obtain ⟨e, he, rfl, rfl⟩ := lookup_table.1 hrow
    obtain ⟨e', he', rfl, rfl⟩ := lookup_table.1 hrow'
    rw [(idxOf_inj (mem_map_of_mem he)).1 hidx]
  nodes _ := by rw [Bool.eq_iff_iff, isSome_rdbms, isSome_mnesia]

/-- Rows that are left lead to no node, so the walks to a node are those over its own parents. -/
theorem steps_iff {rows next : String → String → Prop} {start : String}
    (hnext : ∀ a b, next a b → a ∈ g.nodes.map Prod.fst)
    (hrows : ∀ a b, rows a b → a ∈ g.nodes.map Prod.fst)
    (hsame : ∀ a b, a ∈ g.nodes.map Prod.fst → b ∈ g.nodes.map Prod.fst → (rows a b ↔ next a b))
    (n : ℕ) (name : String) (hsome : (g.mnesia.findNodeByName pubsubHost name).isSome) :
    Steps rows n start name ↔ Steps next n start name := by
  induction n generalizing name with
  | zero => rfl
  | succ n ih =>
    have hname := isSome_mnesia.1 hsome
    constructor
    · rintro ⟨other, hsteps, hedge⟩
      have hother := hrows other name hedge
      exact ⟨other, (ih other (isSome_mnesia.2 hother)).1 hsteps,
        (hsame other name hother hname).1 hedge⟩
    · rintro ⟨other, hsteps, hedge⟩
      have hother := hnext other name hedge
      exact ⟨other, (ih other (isSome_mnesia.2 hother)).2 hsteps,
        (hsame other name hother hname).2 hedge⟩

/-- A node that is its own parent. -/
def sole : NodeGraph := ⟨[("sole", ["sole"])], by decide, by decide⟩

/-- Two diamonds, one above the node `mid` and one below it. -/
def diamonds : NodeGraph where
  nodes := [("root", []), ("left", ["root"]), ("right", ["root"]), ("mid", ["left", "right"]),
    ("a", ["mid"]), ("b", ["mid"]), ("leaf", ["a", "b"])]
  nodup := by decide
  nodup_parents := by decide

/-- The levels of the diamonds, from above. -/
def levels : List (List String) := [["root"], ["left", "right"], ["mid"], ["a", "b"], ["leaf"]]

/-- The level that a name stands in. -/
def levelOf (levels : List (List String)) (name : String) : ℕ := levels.findIdx (name ∈ ·)

theorem levelOf_lt {levels : List (List String)} (hlevels : levels.length < 100) (name : String) :
    levelOf levels name < 100 :=
  Nat.lt_of_le_of_lt findIdx_le_length hlevels

end NodeGraph

open NodeGraph

/-- **Several levels with shared parents**: with the sides of the diamonds of one length the trees of
`mid` are exact, also when rows of a deleted node are left. -/
theorem traversals_diamonds :
    let m := diamonds.mnesia
    let db := diamonds.rdbms [("gone", "mid"), ("gone", "root")]
    Faithful m pubsubHost (ParentOf m pubsubHost) "mid"
        (m.getParentnodesTree pubsubHost "mid") (db.getParentnodesTree pubsubHost "mid") ∧
      Faithful m pubsubHost (fun name child => ParentOf m pubsubHost child name) "mid"
        (m.getSubnodesTree pubsubHost "mid") (db.getSubnodesTree pubsubHost "mid") := by
  intro m db
  have hstart : (m.findNodeByName pubsubHost "mid").isSome := rfl
  have hiff := traversals_exact_iff (holds : Holds m db pubsubHost) hstart
  have hcollections : ∀ name parent, name ∈ diamonds.nodes.map Prod.fst →
      ((name, parent) ∈ db.collections ↔ ParentOf m pubsubHost name parent) := by
    intro name parent hname
    refine mem_collections.trans (or_iff_right fun hleft => ?_)
    have hgone : ∀ row ∈ [("gone", "mid"), ("gone", "root")], row.1 ∉ diamonds.nodes.map Prod.fst := by
      decide
    exact hgone _ hleft hname
  have hedges : ∀ name parent, ParentOf m pubsubHost name parent →
      (name ∈ diamonds.nodes.map Prod.fst ∧ parent ∈ diamonds.nodes.map Prod.fst) ∧
        levelOf levels.reverse parent = levelOf levels.reverse name + 1 ∧
        levelOf levels name = levelOf levels parent + 1 := by
    have hall : ∀ e ∈ diamonds.nodes, ∀ parent ∈ e.2,
        (e.1 ∈ diamonds.nodes.map Prod.fst ∧ parent ∈ diamonds.nodes.map Prod.fst) ∧
        levelOf levels.reverse parent = levelOf levels.reverse e.1 + 1 ∧
        levelOf levels e.1 = levelOf levels parent + 1 := by
      decide
    intro name parent hparent
    obtain ⟨e, he, rfl, hmem⟩ := parentOf_iff.1 hparent
    exact hall e he parent hmem
  have hself : ¬ ParentOf m pubsubHost "mid" "mid" := by
    intro hloop
    have := (hedges "mid" "mid" hloop).2.2
    omega
  refine ⟨hiff.1.2 ⟨?_, hself, fun record hfind => ?_⟩, hiff.2.2 ⟨?_, hself⟩⟩
  · refine graded_of_rank (steps_iff (fun a b h => (hedges a b h).1.1)
      (fun a b h => isSome_rdbms.1 h.1) fun a b ha _ => ?_) (levelOf levels.reverse)
      (fun a b h => (hedges a b h).2.1) (levelOf_lt (by decide))
    exact (and_iff_right (isSome_rdbms.2 ha)).trans (hcollections a b ha)
  · cases hfind
    decide
  · refine graded_of_rank (steps_iff (fun a b h => (hedges b a h).1.2)
      (fun a b h => isSome_rdbms.1 h.1) fun a b ha hb => ?_) (levelOf levels)
      (fun a b h => (hedges b a h).2.2) (levelOf_lt (by decide))
    exact (and_iff_right (isSome_rdbms.2 ha)).trans (hcollections b a hb)

/-- **A node that is its own parent** is returned at depth 0 and again at depth 1 by Mnesia, and at
each depth below the limit by RDBMS. -/
theorem loop_not_exact :
    (placed (sole.mnesia.getParentnodesTree pubsubHost "sole") = [(1, "sole"), (0, "sole")] ∧
    ∀ d, (d, "sole") ∈ placed ((sole.rdbms []).getParentnodesTree pubsubHost "sole") ↔ d < 100) ∧
    ¬ ∀ (m : Mnesia.Db) (db : Rdbms.Db) (key : Host) (start : String), Holds m db key →
    (m.findNodeByName key start).isSome →
    Faithful m key (ParentOf m key) start
        (m.getParentnodesTree key start) (db.getParentnodesTree key start) ∧
      Faithful m key (fun name child => ParentOf m key child name) start
        (m.getSubnodesTree key start) (db.getSubnodesTree key start) := by
  have hholds : Holds sole.mnesia (sole.rdbms []) pubsubHost := holds
  have hmnesia : placed (sole.mnesia.getParentnodesTree pubsubHost "sole") =
      [(1, "sole"), (0, "sole")] := by
    rw [placed_getParentnodesTree rfl, Mnesia.Db.extractParents, Mnesia.Db.extractLevels]
    rfl
  refine ⟨⟨hmnesia, fun d => ?_⟩, fun hall => ?_⟩
  · have hsome : ((sole.rdbms []).findNodeByName pubsubHost "sole").isSome := rfl
    have hloop : RowParent (sole.rdbms []) pubsubHost "sole" "sole" := ⟨hsome, mem_singleton_self _⟩
    have hsteps : Steps (RowParent (sole.rdbms []) pubsubHost) d "sole" "sole" := by
      induction d with
      | zero => rfl
      | succ d ih => exact ⟨"sole", ih, hloop⟩
    refine ((mem_placed_findLevels id hholds.indexed rowParent_iff).2 d "sole").trans ?_
    exact and_iff_left ⟨hsome, hsteps⟩
  · have honce := (hall _ _ pubsubHost "sole" hholds rfl).1.exact_mnesia.once
    rw [hmnesia] at honce
    exact absurd honce (by decide)

end Backends

end MongooseIM.Pubsub
