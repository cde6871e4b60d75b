import PivotQuery.Proofs.Pivot.SortJoins
import PivotQuery.Proofs.Rows.Cells

namespace PivotQuery

namespace TypedQuery

-- What an operator has made of the columns of its inputs, if it has accepted them.

theorem ids_of_project {query result : TypedQuery} {ids : List String}
    (h : query.project ids = .ok result) : result.schema.ids = ids :=
  Schema.project_ids (ofResult_eq_ok.mp h).2

theorem ids_of_groupBy {query result : TypedQuery} {keys : List String} {aggs : List Aggregate}
    (h : query.groupBy keys aggs = .ok result) :
    result.schema.ids = keys ++ aggs.map Aggregate.column :=
  Schema.ids_grouped (ofResult_eq_ok.mp h).2

theorem ids_of_concatAll {first result : TypedQuery} {rest : List TypedQuery}
    (h : concatAll (first :: rest) = .ok result) : result.schema.ids = first.schema.ids := by
  rw [Schema.ids, Column.ids, Schema.columns_concatenated (ofResult_eq_ok.mp h).2, List.map_map]
  rfl

end TypedQuery

namespace PivotTree

variable {tree : PivotTree} {opened : PathTree}

-- Whatever it is made of, a branch has the columns of the tree at last.

theorem ids_of_rootQuery {root : TypedQuery} (h : tree.rootQuery = .ok root) :
    root.schema.ids = tree.columns := by
  simp only [rootQuery, bind_eq_ok] at h
  obtain ⟨_, -, _, -, h⟩ := h
  exact TypedQuery.ids_of_project h

theorem ids_of_childrenOf {path : Path} {children : TypedQuery}
    (h : tree.childrenOf path = .ok children) : children.schema.ids = tree.columns := by
  simp only [childrenOf] at h
  split at h
  · simp at h
  · have hrows := mapError_eq_ok.mp h
    split at hrows
    all_goals
      obtain ⟨_, -, hnodes⟩ := bind_eq_ok.mp hrows
      split at hnodes
      · obtain ⟨_, -, hgroups⟩ := bind_eq_ok.mp hnodes
        obtain ⟨_, -, hextended⟩ := bind_eq_ok.mp hgroups
        obtain ⟨_, -, hproject⟩ := bind_eq_ok.mp hextended
        exact TypedQuery.ids_of_project hproject
      · obtain ⟨_, -, hextended⟩ := bind_eq_ok.mp hnodes
        obtain ⟨_, -, hproject⟩ := bind_eq_ok.mp hextended
        exact TypedQuery.ids_of_project hproject

theorem ids_of_union (hformed : tree.WellFormed) {union : TypedQuery}
    (h : tree.union opened = .ok union) : union.schema.ids = tree.columns := by
  obtain ⟨branches, hbranches, h⟩ := bind_eq_ok.mp h
  have hunion := mapError_eq_ok.mp h
  simp only [PivotTree.branches, List.mapM_cons, bind_eq_ok, pure_eq_ok] at hbranches
  obtain ⟨_, ⟨first, hfirst, rest, -, rfl⟩, rfl⟩ := hbranches
  cases hroot : tree.root with
  | none =>
    rw [hroot] at hunion
    exact (TypedQuery.ids_of_concatAll hunion).trans (ids_of_childrenOf hfirst)
  | some root =>
    rw [hroot] at hunion
    exact (TypedQuery.ids_of_concatAll hunion).trans (ids_of_rootQuery (hformed.root root hroot))

private theorem ids_of_sortQuery {level : Nat} {keys : TypedQuery}
    (h : tree.sortQuery (level + 1) = .ok keys) :
    keys.schema.ids = (List.range (level + 1)).map pathColumn ++ tree.sortKeyIds level := by
  simp only [sortQuery] at h
  split at h
  · simp at h
  · have hkeys := mapError_eq_ok.mp h
    obtain ⟨_, -, hkeys⟩ := bind_eq_ok.mp hkeys
    obtain ⟨_, -, hkeys⟩ := bind_eq_ok.mp hkeys
    rw [TypedQuery.ids_of_groupBy hkeys, List.map_map]
    rfl

private theorem ids_of_joinSortQueries {query joined : TypedQuery} {levels : List Nat}
    (h : tree.joinSortQueries query (levels.map (· + 1)) = .ok joined) :
    joined.schema.ids = query.schema.ids ++ levels.flatMap tree.sortKeyIds := by
  induction levels generalizing query with
  | nil =>
    obtain rfl : query = joined := by simpa [joinSortQueries] using h
    simp
  | cons level rest ih =>
    rw [List.map_cons, joinSortQueries] at h
    obtain ⟨keys, hkeys, h⟩ := bind_eq_ok.mp h
    obtain ⟨next, hnext, h⟩ := bind_eq_ok.mp h
    have hids := ids_of_sortQuery hkeys
    have hdistinct : ((List.range (level + 1)).map pathColumn ++ tree.sortKeyIds level).Nodup :=
      hids ▸ keys.schema.distinct
    rw [ih h, Schema.ids_joined (TypedQuery.ofResult_eq_ok.mp (mapError_eq_ok.mp hnext)).2, hids,
      filter_added hdistinct, List.flatMap_cons, List.append_assoc]

-- If a sorted tree can be built at all, no column of it has the name of another.
theorem nodup_of_sortedTreeQuery (hformed : tree.WellFormed) {sorted : TypedQuery}
    (h : tree.sortedTreeQuery opened = .ok sorted) : tree.displayColumns.Nodup := by
  obtain ⟨union, hunion, h⟩ := bind_eq_ok.mp h
  obtain ⟨joined, hjoined, -⟩ := bind_eq_ok.mp h
  have hids : joined.schema.ids = tree.displayColumns := by
    by_cases hkey : tree.sortKey = []
    · rw [if_pos (List.isEmpty_iff.mpr hkey), joinSortQueries] at hjoined
      have hnone : ∀ level ∈ List.range tree.pivots.length, tree.sortKeyIds level = [] := by
        simp [sortKeyIds, hkey]
      rw [← Except.ok.inj hjoined, ids_of_union hformed hunion, displayColumns,
        List.flatMap_eq_nil_iff.mpr hnone, List.append_nil]
    · rw [if_neg (fun hempty => hkey (List.isEmpty_iff.mp hempty))] at hjoined
      rw [ids_of_joinSortQueries hjoined, ids_of_union hformed hunion, displayColumns]
  exact hids ▸ joined.schema.distinct

end PivotTree

-- If the sorted tree can be built for some open paths, it can for all that are not too long, and
-- the tree as well. Then the rows of the tree are those of the visible nodes, each as often as it
-- is visible, and those of the sorted tree are the same with further columns.
theorem visible_nodes_appear_once {V : Type} [DecidableEq V] (engine : Engine V)
    (texts : engine.Texts) (db : Database V) (base : TypedQuery) (config : PivotConfig)
    (tree : PivotTree) (htree : PivotTree.ofConfig base config = .ok tree) (shown : PathTree)
    (display : TypedQuery) (hdisplay : tree.sortedTreeQuery shown = .ok display)
    (opened : PathTree)
    (hopened : ∀ path, opened.isOpen path = true → path.length ≤ tree.pivots.length) :
    ∃ (query sorted : TypedQuery) (nodes : Multiset (TreeNode V)),
      tree.treeQuery opened = .ok query ∧ tree.sortedTreeQuery opened = .ok sorted ∧
      (∀ node, nodes.count node =
        tree.visibleCount texts (tree.base.query.bag engine db) opened node) ∧
      query.query.bag engine db =
        nodes.map (tree.nodeRow texts (tree.base.query.bag engine db) opened) ∧
      (sorted.query.bag engine db).map (Row.project engine tree.columns) =
        query.query.bag engine db := by
  have hformed := PivotTree.wellFormed_of_ofConfig htree
  have hnodup := PivotTree.nodup_of_sortedTreeQuery hformed hdisplay
  have hlengths : ∀ path ∈ opened.paths, path.length ≤ tree.pivots.length :=
    fun path hpath => hopened path (PathTree.mem_paths.mp hpath).2
  obtain ⟨query, hquery, hbag⟩ := PivotTree.exists_treeQuery texts db hformed
    (List.nodup_append'.mp hnodup).1 hlengths
  obtain ⟨sorted, hsorted, hsortedBag⟩ :=
    PivotTree.exists_sortedTreeQuery texts db hformed hnodup hlengths
  refine ⟨query, sorted, tree.nodes texts (tree.base.query.bag engine db) opened, hquery, hsorted,
    PivotTree.count_nodes, hbag, ?_⟩
  rw [hsortedBag, hbag, Multiset.map_map]
  refine Multiset.map_congr rfl fun node _ => ?_
  have hnames : (tree.nodeRow texts (tree.base.query.bag engine db) opened node).names =
      tree.columns := PivotTree.names_nodeRow node
  rw [Function.comp_apply, ← hnames]
  refine Row.project_of_subset ?_ fun entry hentry => List.mem_append_left _ hentry
  rw [PivotTree.displayRow, PivotTree.names_joinedRow]
  exact hnodup

def payColumns : Schema := ⟨[.ofType "family" .string, .ofType "pay" .integer], by decide⟩

-- Two engineers and somebody of no family.
def payroll : Database Cell where
  table _ := [(Cell.text "Engineers", 9), (.text "Engineers", 10), (.null, 4)].map
    fun (family, pay) id => if id = "family" then family else .int pay
  sql _ := []

def payrollTable : TypedQuery := .table "payroll" payColumns

def payByFamily : PivotConfig :=
  { pivots := ["family"], showRoot := true, sortKey := [⟨"pay", true⟩] }

def payTree : PivotTree := (PivotTree.ofConfig payrollTable payByFamily).toOption.get rfl

theorem ofConfig_payByFamily : PivotTree.ofConfig payrollTable payByFamily = .ok payTree := rfl

def engineersOpen : PathTree := .ofPaths [[some "Engineers"]]

theorem length_engineersOpen {path : Path} (h : engineersOpen.isOpen path = true) :
    path.length ≤ payTree.pivots.length :=
  (by decide : ∀ path ∈ [] :: engineersOpen.paths, path.length ≤ payTree.pivots.length) path
    (PivotTree.mem_open.mpr h)

def payRows : Multiset (Row Cell) := payTree.base.query.bag .cells payroll

def engineer (pay : Int) : Row Cell := [("family", .text "Engineers"), ("pay", .int pay)]

def visiblePay (node : TreeNode Cell) : Nat :=
  payTree.visibleCount Engine.cellTexts payRows engineersOpen node

theorem mem_of_visiblePay {nodes : Multiset (TreeNode Cell)}
    (h : ∀ node, nodes.count node = visiblePay node) {node : TreeNode Cell}
    (hnode : visiblePay node = 1) : node ∈ nodes :=
  Multiset.count_pos.mp ((h node).trans hnode ▸ Nat.one_pos)

theorem visible_nodes_appear_once_payTree :
    ∃ (display query sorted : TypedQuery) (nodes : Multiset (TreeNode Cell)),
      PivotTree.ofConfig payrollTable payByFamily = .ok payTree ∧
      payTree.sortedTreeQuery .empty = .ok display ∧
      (∀ path, engineersOpen.isOpen path = true → path.length ≤ payTree.pivots.length) ∧
      payTree.treeQuery engineersOpen = .ok query ∧
      payTree.sortedTreeQuery engineersOpen = .ok sorted ∧
      query.query.bag .cells payroll = nodes.map
        (payTree.nodeRow Engine.cellTexts payRows engineersOpen) ∧
      nodes.count .root = 1 ∧ nodes.count (.group [none]) = 1 ∧
      nodes.count (.leaf [some "Engineers"] (engineer 9)) = 1 ∧
      nodes.count (.leaf [none] [("family", .null), ("pay", .int 4)]) = 0 := by
  obtain ⟨display, hdisplay⟩ : ∃ display, payTree.sortedTreeQuery .empty = .ok display := ⟨_, rfl⟩
  have hopened : ∀ path, engineersOpen.isOpen path = true → path.length ≤ payTree.pivots.length :=
    fun _ => length_engineersOpen
  obtain ⟨query, sorted, nodes, hquery, hsorted, hcount, hbag, -⟩ :=
    visible_nodes_appear_once .cells Engine.cellTexts payroll payrollTable payByFamily payTree
      ofConfig_payByFamily .empty display hdisplay engineersOpen hopened
  have hroot : visiblePay .root = 1 := by decide
  have hgroup : visiblePay (.group [none]) = 1 := by decide
  have hopen : visiblePay (.leaf [some "Engineers"] (engineer 9)) = 1 := by decide
  have hclosed : visiblePay (.leaf [none] [("family", .null), ("pay", .int 4)]) = 0 := by decide
  exact ⟨display, query, sorted, nodes, ofConfig_payByFamily, hdisplay, hopened, hquery, hsorted,
    hbag, (hcount _).trans hroot, (hcount _).trans hgroup, (hcount _).trans hopen,
    (hcount _).trans hclosed⟩

end PivotQuery
