import PivotQuery.Proofs.Pivot.Construction

namespace PivotQuery

-- What is sorted by a key falls into the parts of its values.
private theorem bind_filter_dedup {α β : Type} [DecidableEq α] [DecidableEq β] (s : Multiset α)
    (key : α → β) :
    ((s.map key).dedup.bind fun value => s.filter fun x => key x = value) = s := by
  refine Multiset.ext.mpr fun x => ?_
  have hcount : (s.filter fun other => key other = key x).count x = s.count x :=
    Multiset.count_filter_of_pos rfl
  rw [PivotTree.count_bind_of_unique (key x) (Multiset.nodup_dedup _)
    fun value hx => (Multiset.mem_filter.mp hx).2.symm, hcount]
  split
  case isTrue => rfl
  case isFalse hnone =>
    refine (Multiset.count_eq_zero_of_notMem fun hx => hnone ?_).symm
    exact Multiset.mem_dedup.mpr (Multiset.mem_map_of_mem key hx)

namespace PivotTree

variable {V : Type} {engine : Engine V} {texts : engine.Texts} {tree : PivotTree}
variable {rows : Multiset (Row V)} {path : Path}

variable (engine) in
-- What the row of a child has in front of the columns of the base: its depth, its own value, that
-- it is not the root, its path as far as it goes, and a mark for each level down to its parent.
def childFrame (levels : Nat) (parent own : Path) (label : V) : Row V :=
  [(depthColumn, Sql.countValue engine (parent.length + 1)), (pivotColumn, label),
      (isRootColumn, engine.constant (.bool false))] ++
    (List.range levels).map (fun level =>
      (pathColumn level, engine.component own[level]?.join)) ++
    (List.range (levels + 1)).map fun level =>
      (sortValColumn level, Sql.countValue engine (if level ≤ parent.length then 1 else 0))

private theorem frame_eq_childFrame {node : TreeNode V} (hroot : node.isRoot = false)
    (hdepth : node.depth = path.length + 1) :
    tree.frame engine node =
      childFrame engine tree.pivots.length path node.path (tree.label engine node) := by
  simp only [frame, childFrame, pathRow, hroot, hdepth, Nat.lt_succ_iff]

private theorem branchRow_group (component : PathComponent) :
    tree.branchRow texts rows (.group (path ++ [component])) =
      childFrame engine tree.pivots.length path (path ++ [component])
          (engine.component component) ++
        tree.outColumns.map fun id => (id, engine.aggregate (tree.aggFn id)
          ((tree.members texts rows (path ++ [component])).map fun row => row.get engine id)) := by
  have hdepth : (TreeNode.group (path ++ [component]) : TreeNode V).depth = path.length + 1 :=
    List.length_append
  rw [branchRow, frame_eq_childFrame rfl hdepth, label, List.getLast?_concat]
  rfl

private theorem branchRow_leaf {row : Row V} (hnames : row.names = tree.outColumns) :
    tree.branchRow texts rows (.leaf path row) =
      childFrame engine tree.pivots.length path path (tree.leaf.elim (engine.constant (.text ""))
        fun leaf => engine.cast .string (row.get engine leaf)) ++ row := by
  have hself : (tree.outColumns.map fun id => (id, tree.value texts rows (.leaf path row) id)) =
      row := by
    have hnodup : row.names.Nodup := hnames ▸ tree.base.schema.distinct
    exact hnames ▸ Row.project_of_subset hnodup fun _ hentry => hentry
  have hlabel : tree.label engine (.leaf path row) =
      tree.leaf.elim (engine.constant (.text "")) fun leaf =>
        engine.cast .string (row.get engine leaf) := by
    cases h : tree.leaf <;> simp only [label, h, Option.elim]
  rw [branchRow, frame_eq_childFrame rfl rfl, hself, hlabel]
  rfl

end PivotTree

-- The children of a path that ends above the bottom are the values of the next pivot column as
-- texts, each with the aggregates over the rows below its own path, and these are parts of the rows
-- below the path. At the bottom the children are the rows themselves. The rows below a path are
-- those of the base that its components are the first texts of, and these are what its filter
-- selects.
theorem children_partition_rows {V : Type} [DecidableEq V] (engine : Engine V)
    (texts : engine.Texts) (db : Database V) (base : TypedQuery) (config : PivotConfig)
    (tree : PivotTree) (htree : PivotTree.ofConfig base config = .ok tree) (path : Path)
    (hlength : path.length ≤ tree.pivots.length) :
    let rows := tree.members texts (base.query.bag engine db)
    rows [] = base.query.bag engine db ∧
    (∀ below : Path, below.length ≤ tree.pivots.length →
      tree.matching engine db below = rows below) ∧
    ((∃ children, tree.childrenOf path = .ok children) ↔
      ∀ id ∈ PivotTree.reservedColumns tree.pivots.length, id ∉ tree.outColumns) ∧
    ∀ children, tree.childrenOf path = .ok children →
      (∀ pivot, tree.pivots[path.length]? = some pivot →
        let valueOf (row : Row V) := texts.asText (row.get engine pivot)
        let values := ((rows path).map valueOf).dedup
        children.query.bag engine db = values.map (fun value =>
          PivotTree.childFrame engine tree.pivots.length path (path ++ [value])
              (engine.component value) ++
            tree.outColumns.map fun id => (id, engine.aggregate (tree.aggFn id)
              ((rows (path ++ [value])).map fun row => row.get engine id))) ∧
        (∀ value, rows (path ++ [value]) = (rows path).filter fun row => valueOf row = value) ∧
        (values.bind fun value => rows (path ++ [value])) = rows path ∧
        ∀ value ∈ values, rows (path ++ [value]) ≠ 0) ∧
      (path.length = tree.pivots.length →
        children.query.bag engine db = (rows path).map fun row =>
          PivotTree.childFrame engine tree.pivots.length path path
            (tree.leaf.elim (engine.constant (.text "")) fun leaf =>
              engine.cast .string (row.get engine leaf)) ++ row) := by
  obtain rfl := PivotTree.base_of_ofConfig htree
  intro rows
  have hformed := PivotTree.wellFormed_of_ofConfig htree
  have hexists : (∃ children, tree.childrenOf path = .ok children) ↔ tree.columns.Nodup :=
    (PivotTree.exists_childrenOf_iff hformed).trans (and_iff_right hlength)
  refine ⟨PivotTree.members_nil, fun _ => PivotTree.matching_eq,
    hexists.trans PivotTree.nodup_columns_iff, fun children hchildren => ?_⟩
  obtain ⟨_, hsame, hbranch⟩ := PivotTree.exists_childrenOf texts db hformed
    (hexists.mp ⟨children, hchildren⟩) hlength
  obtain rfl := Except.ok.inj (hchildren.symm.trans hsame)
  refine ⟨fun pivot hpivot => ?_, fun hbottom => ?_⟩
  · intro valueOf values
    have hparts : ∀ value, rows (path ++ [value]) =
        (rows path).filter fun row => valueOf row = value :=
      PivotTree.members_concat hpivot
    refine ⟨?_, hparts, ?_, fun value hvalue hnone => ?_⟩
    · rw [hbranch.bag, PivotTree.childNodes_eq hpivot, Multiset.map_map]
      exact Multiset.map_congr rfl fun value _ => PivotTree.branchRow_group value
    · simp only [hparts]
      exact bind_filter_dedup (rows path) valueOf
    · obtain ⟨row, hrow, rfl⟩ := Multiset.mem_map.mp (Multiset.mem_dedup.mp hvalue)
      have hmem : row ∈ rows (path ++ [valueOf row]) :=
        hparts _ ▸ Multiset.mem_filter.mpr ⟨hrow, rfl⟩
      simp [hnone] at hmem
  · rw [hbranch.bag, PivotTree.childNodes, if_neg hbottom.not_lt, Multiset.map_map]
    refine Multiset.map_congr rfl fun row hrow => PivotTree.branchRow_leaf ?_
    exact TypedQuery.names_of_mem_bag (PivotTree.mem_members.mp hrow).1

-- The payroll has two families, one of them without a name, and the rows of both are its rows.
theorem children_partition_rows_payTree :
    ∃ children, PivotTree.ofConfig payrollTable payByFamily = .ok payTree ∧
      payTree.childrenOf [] = .ok children ∧ (children.query.bag .cells payroll).card = 2 ∧
      payTree.matching .cells payroll [some "Engineers"] = {engineer 9, engineer 10} ∧
      payTree.matching .cells payroll [none] = {[("family", .null), ("pay", .int 4)]} := by
  have hlength : ([] : Path).length ≤ payTree.pivots.length := Nat.zero_le _
  obtain ⟨-, hselects, hexists, hparts⟩ := children_partition_rows .cells Engine.cellTexts payroll
    payrollTable payByFamily payTree ofConfig_payByFamily [] hlength
  obtain ⟨children, hchildren⟩ := hexists.mpr (by decide)
  obtain ⟨hbag, hbelow, -⟩ := (hparts children hchildren).1 "family" rfl
  refine ⟨children, ofConfig_payByFamily, hchildren, ?_, ?_, ?_⟩
  · rw [hbag, Multiset.card_map]
    decide
  · refine (hselects [some "Engineers"] (by decide)).trans ((hbelow (some "Engineers")).trans ?_)
    decide
  · refine (hselects [none] (by decide)).trans ((hbelow none).trans ?_)
    decide

end PivotQuery
