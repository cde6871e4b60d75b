import PivotQuery.Proofs.Pivot.Located
import PivotQuery.Proofs.Rows.Keys

namespace PivotQuery

namespace PivotTree

variable {V : Type} {engine : Engine V} {texts : engine.Texts} {tree : PivotTree}
variable {rows : Multiset (Row V)}

section Children

variable {path : Path} {pivot : String}

theorem take_pathOf (hpivot : tree.pivots[path.length]? = some pivot) {row : Row V}
    (h : path <+: tree.pathOf texts row) :
    (tree.pathOf texts row).take (path.length + 1) =
      path ++ [texts.asText (row.get engine pivot)] := by
  have hnext : (tree.pathOf texts row)[path.length]? =
      some (texts.asText (row.get engine pivot)) := by
    rw [pathOf, List.getElem?_map, hpivot]
    rfl
  rw [List.take_add_one, hnext, ← List.prefix_iff_eq_take.mp h]
  rfl

-- The rows of a group are those of its parent that have its value in the next pivot column.
theorem members_concat (hpivot : tree.pivots[path.length]? = some pivot)
    (component : PathComponent) :
    tree.members texts rows (path ++ [component]) =
      (tree.members texts rows path).filter fun row =>
        texts.asText (row.get engine pivot) = component := by
  rw [members, members, Multiset.filter_filter]
  refine Multiset.filter_congr fun row _ => ?_
  constructor
  · intro h
    have hparent := (List.prefix_append path [component]).trans h
    have htake := List.prefix_iff_eq_take.mp h
    rw [List.length_append, List.length_singleton, take_pathOf hpivot hparent] at htake
    exact ⟨(List.singleton_injective (List.append_cancel_left htake)).symm, hparent⟩
  · rintro ⟨rfl, hparent⟩
    exact take_pathOf hpivot hparent ▸ List.take_prefix _ _

theorem childNodes_eq (hpivot : tree.pivots[path.length]? = some pivot) :
    tree.childNodes texts rows path =
      ((tree.members texts rows path).map fun row => texts.asText (row.get engine pivot)).dedup.map
        fun component => .group (path ++ [component]) := by
  have hdeeper : path.length < tree.pivots.length := (List.getElem?_eq_some_iff.mp hpivot).1
  have hpaths : (tree.members texts rows path).map
        (fun row => (tree.pathOf texts row).take (path.length + 1)) =
      ((tree.members texts rows path).map fun row => texts.asText (row.get engine pivot)).map
        fun component => path ++ [component] := by
    rw [Multiset.map_map]
    exact Multiset.map_congr rfl fun row hrow => take_pathOf hpivot (mem_members.mp hrow).2
  have hinj : Function.Injective fun component => path ++ [component] :=
    fun _ _ h => List.singleton_injective (List.append_cancel_left h)
  rw [childNodes, if_pos hdeeper, hpaths, Multiset.dedup_map_of_injective hinj, Multiset.map_map]
  rfl

end Children

-- The new columns that tell about a node's place in the tree.
def framing (tree : PivotTree) (depth : Nat) (isRoot : Bool) (component : Nat → ValueExpr)
    (mark : Nat → Nat) : List NewColumn :=
  [.int depthColumn depth, .bool isRootColumn isRoot] ++
    (List.range tree.pivots.length).map
      (fun level => .string (pathColumn level) (component level)) ++
    (List.range (tree.pivots.length + 1)).map fun level => .int (sortValColumn level) (mark level)

section Framing

variable {depth : Nat} {isRoot : Bool} {component : Nat → ValueExpr} {mark : Nat → Nat}

theorem ids_framing :
    (tree.framing depth isRoot component mark).map NewColumn.id =
      [depthColumn, isRootColumn] ++ (List.range tree.pivots.length).map pathColumn ++
        (List.range (tree.pivots.length + 1)).map sortValColumn := by
  simp [framing, NewColumn.int, NewColumn.bool, NewColumn.string, Function.comp_def]

variable (depth isRoot component mark) in
private theorem perm_columns :
    (pivotColumn :: tree.outColumns ++
      (tree.framing depth isRoot component mark).map NewColumn.id).Perm tree.columns := by
  refine List.perm_iff_count.mpr fun id => ?_
  rw [ids_framing]
  simp only [columns, List.count_append, List.count_cons, List.count_nil]
  omega

theorem framing_columns (href : ∀ level, ∀ id ∈ (component level).columns, id = pivotColumn) :
    ∀ new ∈ tree.framing depth isRoot component mark, ∀ id ∈ new.exp.columns, id = pivotColumn := by
  simp only [framing, List.forall_mem_append, List.forall_mem_cons, List.forall_mem_map]
  exact ⟨⟨⟨by simp [NewColumn.int, ValueExpr.columns], by simp [NewColumn.bool, ValueExpr.columns],
    by simp⟩, fun level _ => href level⟩, by simp [NewColumn.int, ValueExpr.columns]⟩

-- The columns of a branch are in any list of columns that has these of them.
theorem branchColumns_subset {isLeaf : Bool} {all : List Column}
    (hpivot : .ofType pivotColumn .string ∈ all)
    (hvalues : ∀ column ∈ tree.base.schema.columns,
      { column with type := tree.valueType isLeaf column } ∈ all)
    (hframing : ∀ new ∈ tree.framing depth isRoot component mark, new.column ∈ all) :
    ∀ column ∈ tree.branchColumns isLeaf, column ∈ all := by
  simp only [framing, List.forall_mem_append, List.forall_mem_cons, List.forall_mem_map] at hframing
  obtain ⟨⟨⟨hdepth, hroot, -⟩, hpaths⟩, hmarks⟩ := hframing
  simp only [branchColumns, frameColumns, List.forall_mem_append, List.forall_mem_cons,
    List.forall_mem_map]
  exact ⟨⟨⟨⟨hdepth, hpivot, hroot, by simp⟩, hpaths⟩, hmarks⟩, hvalues⟩

variable (component) in
theorem branchRow_subset {node : TreeNode V} (row : Row V) {all : Row V}
    (hpivot : (pivotColumn, tree.label engine node) ∈ all)
    (hvalues : ∀ id ∈ tree.outColumns, (id, tree.value texts rows node id) ∈ all)
    (hframing : ∀ new ∈ tree.framing node.depth node.isRoot component
      (fun level => if level < node.depth then 1 else 0), new.entry engine row ∈ all)
    (hpath : ∀ level < tree.pivots.length, (component level).eval engine (row.get engine) =
      engine.component node.path[level]?.join) :
    ∀ entry ∈ tree.branchRow texts rows node, entry ∈ all := by
  simp only [framing, List.forall_mem_append, List.forall_mem_cons, List.forall_mem_map] at hframing
  obtain ⟨⟨⟨hdepth, hroot, -⟩, hpaths⟩, hmarks⟩ := hframing
  simp only [branchRow, frame, pathRow, List.forall_mem_append, List.forall_mem_cons,
    List.forall_mem_map]
  refine ⟨⟨⟨⟨hdepth, hpivot, hroot, by simp⟩, fun level hlevel => ?_⟩, hmarks⟩, hvalues⟩
  rw [← hpath level (List.mem_range.mp hlevel)]
  exact hpaths level hlevel

end Framing

variable [DecidableEq V] {db : Database V}

-- A branch with a row for each of some nodes.
structure Branch (engine : Engine V) (texts : engine.Texts) (db : Database V) (tree : PivotTree)
    (isLeaf : Bool) (nodes : Multiset (TreeNode V)) (branch : TypedQuery) : Prop where
  columns : branch.schema.columns = tree.branchColumns isLeaf
  bag : branch.query.bag engine db =
    nodes.map (tree.branchRow texts (tree.base.query.bag engine db))

-- A query with a row for each of some nodes that has their values and what they are called.
structure Labelled {β : Type} (engine : Engine V) (texts : engine.Texts) (db : Database V)
    (tree : PivotTree) (isLeaf : Bool) (source : Multiset β) (node : β → TreeNode V)
    (row : β → Row V) (query : TypedQuery) : Prop where
  ids : query.schema.ids.Perm (pivotColumn :: tree.outColumns)
  pivot : .ofType pivotColumn .string ∈ query.schema.columns
  columns : ∀ column ∈ tree.base.schema.columns,
    { column with type := tree.valueType isLeaf column } ∈ query.schema.columns
  bag : query.query.bag engine db = source.map row
  label : ∀ x ∈ source, (pivotColumn, tree.label engine (node x)) ∈ row x
  values : ∀ x ∈ source, ∀ id ∈ tree.outColumns,
    (id, tree.value texts (tree.base.query.bag engine db) (node x) id) ∈ row x

-- It is made into a branch by what is new for all of them.
theorem exists_branch {β : Type} {query : TypedQuery} {source : Multiset β}
    {node : β → TreeNode V} {row : β → Row V} {isLeaf : Bool} (depth : Nat) (isRoot : Bool)
    (component : Nat → ValueExpr) (hnodup : tree.columns.Nodup)
    (hquery : Labelled engine texts db tree isLeaf source node row query)
    (href : ∀ level, ∀ id ∈ (component level).columns, id = pivotColumn)
    (hplace : ∀ x ∈ source, (node x).depth = depth ∧ (node x).isRoot = isRoot)
    (hpath : ∀ x ∈ source, ∀ level < tree.pivots.length,
      (component level).eval engine ((row x).get engine) =
        engine.component (node x).path[level]?.join) :
    ∃ extended branch, query.extendAll (tree.framing depth isRoot component
          fun level => if level < depth then 1 else 0) = .ok extended ∧
      extended.project tree.columns = .ok branch ∧
      Branch engine texts db tree isLeaf (source.map node) branch := by
  have hdistinct : (query.schema.ids ++ (tree.framing depth isRoot component
      fun level => if level < depth then 1 else 0).map NewColumn.id).Nodup :=
    ((hquery.ids.append_right _).trans (perm_columns depth isRoot component _)).nodup_iff.mpr hnodup
  have hcolumns : ∀ column ∈ tree.branchColumns isLeaf, column ∈ query.schema.columns ++
      (tree.framing depth isRoot component
        fun level => if level < depth then 1 else 0).map NewColumn.column :=
    branchColumns_subset (List.mem_append_left _ hquery.pivot)
      (fun column hcolumn => List.mem_append_left _ (hquery.columns column hcolumn))
      fun new hnew => List.mem_append_right _ (List.mem_map_of_mem hnew)
  obtain ⟨extended, branch, hextended, hbranch, hbranchColumns, hbranchBag⟩ :=
    TypedQuery.exists_framed engine db (fun new hnew id hid =>
      framing_columns href new hnew id hid ▸ hquery.ids.mem_iff.mpr List.mem_cons_self)
      hdistinct hcolumns (ids_branchColumns isLeaf ▸ hnodup)
  rw [ids_branchColumns] at hbranch hbranchBag
  refine ⟨extended, branch, hextended, hbranch, hbranchColumns, ?_⟩
  rw [hbranchBag, hquery.bag, Multiset.map_map, Multiset.map_map]
  refine Multiset.map_congr rfl fun x hx => ?_
  obtain ⟨hdepth, hroot⟩ := hplace x hx
  have hnames : ((row x).names ++ (tree.framing depth isRoot component
      fun level => if level < depth then 1 else 0).map NewColumn.id).Nodup := by
    rw [TypedQuery.names_of_mem_bag (hquery.bag ▸ Multiset.mem_map_of_mem row hx)]
    exact hdistinct
  rw [Function.comp_apply, Function.comp_apply, ← names_branchRow (node x)]
  refine Row.project_of_subset ?_ (branchRow_subset component (row x)
    (List.mem_append_left _ (hquery.label x hx))
    (fun id hid => List.mem_append_left _ (hquery.values x hx id hid))
    (fun new hnew => List.mem_append_right _ (List.mem_map_of_mem ?_)) (hpath x hx))
  · rw [Row.names_append]
    simpa [Row.names, NewColumn.entry, Function.comp_def] using hnames
  · rw [← hdepth, ← hroot]
    exact hnew

theorem columns_outAggregates : tree.outAggregates.map Aggregate.column = tree.outColumns := by
  simp [outAggregates, Function.comp_def]

theorem nodup_pivot_outColumns (h : tree.columns.Nodup) : (pivotColumn :: tree.outColumns).Nodup :=
  (List.nodup_append'.mp ((perm_columns 0 false (fun _ => .constant .null)
    fun _ => 0).nodup_iff.mpr h)).1

omit [DecidableEq V] in
-- The aggregates over some rows that lie below a node are its values.
theorem aggregateRow_eq {node : TreeNode V} {members : Multiset (Row V)}
    (h : ∀ id ∈ tree.outColumns, tree.value texts rows node id =
      engine.aggregate (tree.aggFn id) (members.map fun row => row.get engine id)) :
    aggregateRow engine tree.outAggregates members =
      tree.outColumns.map fun id => (id, tree.value texts rows node id) := by
  rw [aggregateRow, outAggregates, List.map_map]
  exact List.map_congr_left fun id hid => Prod.ext rfl (h id hid).symm

theorem mem_grouped {keys : List String} {input result : Schema}
    (h : input.grouped keys tree.outAggregates = .ok result)
    (hinput : ∀ column ∈ tree.base.schema.columns, column ∈ input.columns) :
    ∀ column ∈ tree.base.schema.columns,
      { column with type := tree.valueType false column } ∈ result.columns := by
  intro column hcolumn
  have hid : column.id ∈ tree.outColumns := List.mem_map_of_mem hcolumn
  exact Schema.mem_grouped_of_aggregate h (hinput column hcolumn) (List.mem_map_of_mem hid)

variable (engine db) in
-- A query with the columns of the base gets one more for what its rows are called.
private theorem exists_called {query : TypedQuery} (exp : ValueExpr) (hnodup : tree.columns.Nodup)
    (hids : query.schema.ids = tree.outColumns) (href : ∀ id ∈ exp.columns, id ∈ tree.outColumns) :
    ∃ called, query.extendAll [.string pivotColumn exp] = .ok called ∧
      called.schema.columns = query.schema.columns ++ [.ofType pivotColumn .string] ∧
      called.schema.ids.Perm (pivotColumn :: tree.outColumns) ∧
      called.query.bag engine db = (query.query.bag engine db).map fun row : Row V =>
        row ++ [(pivotColumn, exp.eval engine (row.get engine))] := by
  have hperm := List.perm_append_singleton pivotColumn tree.outColumns
  obtain ⟨called, hcalled, hcolumns, hbag⟩ := TypedQuery.exists_extendAll engine db query
    [.string pivotColumn exp]
    (List.forall_mem_singleton.mpr fun id hid => hids ▸ href id hid)
    (by
      rw [hids]
      exact hperm.nodup_iff.mpr (nodup_pivot_outColumns hnodup))
  refine ⟨called, hcalled, hcolumns, ?_, hbag⟩
  rw [Schema.ids, Column.ids, hcolumns, List.map_append, ← Column.ids, ← Schema.ids, hids]
  exact hperm

-- What the row of the root has beside the aggregates.
def rootColumns (tree : PivotTree) : List NewColumn :=
  [.string pivotColumn (.constant .null), .int depthColumn 0, .bool isRootColumn true] ++
    (List.range tree.pivots.length).map
      (fun level => .string (pathColumn level) (.constant .null)) ++
    (List.range (tree.pivots.length + 1)).map fun level => .int (sortValColumn level) 0

theorem rootColumns_eq : tree.rootColumns = [.string pivotColumn (.constant .null)] ++
    tree.framing 0 true (fun _ => .constant .null) fun level => if level < 0 then 1 else 0 := by
  simp [rootColumns, framing]

theorem rootQuery_eq : tree.rootQuery =
    tree.base.groupBy [] tree.outAggregates >>= fun total =>
      total.extendAll tree.rootColumns >>= fun extended => extended.project tree.columns :=
  rfl

variable (texts db) in
theorem exists_rootQuery (hnodup : tree.columns.Nodup) :
    ∃ root, tree.rootQuery = .ok root ∧ Branch engine texts db tree false {.root} root := by
  have hdistinct := (List.nodup_cons.mp (nodup_pivot_outColumns hnodup)).2
  have hkeys : ([] : List String) ++ tree.outAggregates.map Aggregate.column = tree.outColumns :=
    columns_outAggregates
  obtain ⟨total, htotal, hquery, hschema⟩ := TypedQuery.exists_groupBy tree.base []
    tree.outAggregates
    (fun id hid => show id ∈ tree.outColumns from hkeys ▸ hid) (hkeys ▸ hdistinct)
  have hids : total.schema.ids = tree.outColumns := (Schema.ids_grouped hschema).trans hkeys
  obtain ⟨called, hcalled, hcolumns, hperm, hbag⟩ := exists_called engine db
    (.constant .null) hnodup hids (by simp [ValueExpr.columns])
  have hvalues : aggregateRow engine tree.outAggregates (tree.base.query.bag engine db) =
      tree.outColumns.map fun id =>
        (id, tree.value texts (tree.base.query.bag engine db) .root id) :=
    aggregateRow_eq fun id _ => by rw [value, TreeNode.path, members_nil]
  rw [hquery, Query.bag, groupRows_nil, Multiset.map_singleton, hvalues] at hbag
  have hlabelled : Labelled engine texts db tree false ({()} : Multiset Unit) (fun _ => .root)
      (fun _ => tree.outColumns.map (fun id =>
        (id, tree.value texts (tree.base.query.bag engine db) .root id)) ++
          [(pivotColumn, engine.null)]) called :=
    { ids := hperm
      pivot := by simp [hcolumns]
      columns := fun column hcolumn => hcolumns ▸
        List.mem_append_left _ (mem_grouped hschema (fun _ h => h) column hcolumn)
      bag := hbag
      label := by simp [label]
      values := fun _ _ id hid => List.mem_append_left _ (List.mem_map_of_mem hid) }
  obtain ⟨extended, root, hextended, hroot, hbranch⟩ := exists_branch 0 true
    (fun _ => .constant .null) hnodup hlabelled (by simp [ValueExpr.columns])
    (by simp [TreeNode.depth, TreeNode.isRoot])
    (by simp [ValueExpr.eval, TreeNode.path, Engine.component, Engine.null])
  have hall : total.extendAll tree.rootColumns = .ok extended := by
    rw [rootColumns_eq, TypedQuery.extendAll_append]
    exact bind_eq_ok.mpr ⟨called, hcalled, hextended⟩
  refine ⟨root, ?_, by simpa using hbranch⟩
  rw [rootQuery_eq]
  exact bind_eq_ok.mpr ⟨total, htotal, bind_eq_ok.mpr ⟨extended, hall, hroot⟩⟩

section Children

variable {path : Path}

theorem columns_pathValue (path : Path) (level : Nat) :
    ∀ id ∈ (pathValue path level).columns, id = pivotColumn := by
  unfold pathValue
  split
  · simp [ValueExpr.columns]
  · simp [ValueExpr.columns]
  · split <;> simp [ValueExpr.columns]

-- Grouped by what comes next in the path, the rows below it give the values of its groups.
theorem groupRows_called {pivot : String} (hnodup : tree.columns.Nodup)
    (hpivot : tree.pivots[path.length]? = some pivot) :
    groupRows engine [pivotColumn] tree.outAggregates
        ((tree.members texts (tree.base.query.bag engine db) path).map fun row : Row V =>
          row ++ [(pivotColumn, engine.cast .string (row.get engine pivot))]) =
      ((tree.members texts (tree.base.query.bag engine db) path).map fun row =>
        texts.asText (row.get engine pivot)).dedup.map fun component =>
          [(pivotColumn, engine.component component)] ++ tree.outColumns.map fun id =>
            (id, tree.value texts (tree.base.query.bag engine db)
              (.group (path ++ [component])) id) := by
  have hnames : ∀ row ∈ tree.members texts (tree.base.query.bag engine db) path,
      row.names = tree.outColumns := fun row hrow =>
    TypedQuery.names_of_mem_bag (mem_members.mp hrow).1
  refine (groupRows_map (fun component => [(pivotColumn, engine.component component)])
    (by simp) (fun row hrow => ?_) (fun _ _ _ _ heq => ?_)).trans
      (Multiset.map_congr rfl fun component _ => congrArg _ (aggregateRow_eq fun id hid => ?_))
  · have hnew : pivotColumn ∉ row.names :=
      hnames row hrow ▸ (List.nodup_cons.mp (nodup_pivot_outColumns hnodup)).1
    simp only [Row.project, List.map_cons, List.map_nil]
    rw [Row.get_append_right hnew, texts.component_asText]
    simp [Row.get]
  · exact texts.component_injective (by simpa using heq)
  · rw [value, TreeNode.path, members_concat hpivot, Multiset.map_map]
    refine congrArg _ (Multiset.map_congr rfl fun row hrow => (Row.get_append_left ?_).symm)
    exact hnames row (Multiset.mem_filter.mp hrow).1 ▸ hid

private theorem exists_groups {located : TypedQuery} {pivot : String} (hformed : tree.WellFormed)
    (hnodup : tree.columns.Nodup) (hpivot : tree.pivots[path.length]? = some pivot)
    (hschema : located.schema = tree.base.schema)
    (hbag : located.query.bag engine db =
      tree.members texts (tree.base.query.bag engine db) path) :
    ∃ called groups, located.extendAll [.string pivotColumn (.asString (.column pivot))] =
        .ok called ∧
      called.groupBy [pivotColumn] tree.outAggregates = .ok groups ∧
      ∃ extended branch, groups.extendAll (tree.framing (path.length + 1) false (pathValue path)
            fun level => if level < path.length + 1 then 1 else 0) = .ok extended ∧
        extended.project tree.columns = .ok branch ∧
        Branch engine texts db tree false
          (tree.childNodes texts (tree.base.query.bag engine db) path) branch := by
  have hids : located.schema.ids = tree.outColumns := congrArg Schema.ids hschema
  obtain ⟨called, hcalled, hcolumns, hperm, hcalledBag⟩ := exists_called engine db
    (.asString (.column pivot)) hnodup hids
    (List.forall_mem_singleton.mpr (hformed.pivots pivot (List.mem_of_getElem? hpivot)))
  have hkeys : [pivotColumn] ++ tree.outAggregates.map Aggregate.column =
      pivotColumn :: tree.outColumns := by
    rw [columns_outAggregates, List.singleton_append]
  obtain ⟨groups, hgroups, hquery, hgrouped⟩ := TypedQuery.exists_groupBy called
    [pivotColumn] tree.outAggregates (fun id hid => hperm.mem_iff.mpr (hkeys ▸ hid))
    (hkeys ▸ nodup_pivot_outColumns hnodup)
  have hgroupsBag := congrArg (Query.bag engine db) hquery
  rw [Query.bag, hcalledBag, hbag] at hgroupsBag
  have hlabelled : Labelled engine texts db tree false _
      (fun component => .group (path ++ [component])) _ groups :=
    { ids := by rw [Schema.ids_grouped hgrouped, hkeys]
      pivot := Schema.mem_grouped_of_key hgrouped
        (hcolumns ▸ List.mem_append_right _ (by simp)) List.mem_cons_self
      columns := mem_grouped hgrouped fun column hcolumn =>
        hcolumns ▸ List.mem_append_left _ (hschema ▸ hcolumn)
      bag := hgroupsBag.trans (groupRows_called hnodup hpivot)
      label := fun component _ => List.mem_append_left _ (by simp [label])
      values := fun component _ id hid => List.mem_append_right _ (List.mem_map_of_mem hid) }
  obtain ⟨extended, branch, hextended, hbranch, hresult⟩ := exists_branch (path.length + 1) false
    (pathValue path) hnodup hlabelled (columns_pathValue path)
    (fun component _ => ⟨by simp [TreeNode.depth], rfl⟩)
    (fun component _ level _ => eval_pathValue (by simp [Row.get]))
  refine ⟨called, groups, hcalled, hgroups, extended, branch, hextended, hbranch, ?_⟩
  rwa [childNodes_eq hpivot]

-- At the bottom: the rows below the path themselves.
private theorem exists_leaves {located : TypedQuery} (hformed : tree.WellFormed)
    (hnodup : tree.columns.Nodup) (hbottom : path.length = tree.pivots.length)
    (hschema : located.schema = tree.base.schema)
    (hbag : located.query.bag engine db =
      tree.members texts (tree.base.query.bag engine db) path) :
    ∃ called, located.extendAll [.string pivotColumn (match tree.leaf with
          | some leaf => .asString (.column leaf)
          | none => .constant (.text ""))] = .ok called ∧
      ∃ extended branch, called.extendAll (tree.framing (path.length + 1) false (pathValue path)
            fun level => if level < path.length + 1 then 1 else 0) = .ok extended ∧
        extended.project tree.columns = .ok branch ∧
        Branch engine texts db tree true
          (tree.childNodes texts (tree.base.query.bag engine db) path) branch := by
  have hids : located.schema.ids = tree.outColumns := congrArg Schema.ids hschema
  have href : ∀ id ∈ ValueExpr.columns (match tree.leaf with
      | some leaf => .asString (.column leaf)
      | none => .constant (.text "")), id ∈ tree.outColumns := by
    cases hleaf : tree.leaf with
    | some leaf => exact List.forall_mem_singleton.mpr (hformed.leaf leaf hleaf)
    | none => simp [ValueExpr.columns]
  obtain ⟨called, hcalled, hcolumns, hperm, hcalledBag⟩ := exists_called engine db
    _ hnodup hids href
  rw [hbag] at hcalledBag
  have hnames : ∀ row ∈ tree.members texts (tree.base.query.bag engine db) path,
      row.names = tree.outColumns := fun row hrow =>
    TypedQuery.names_of_mem_bag (mem_members.mp hrow).1
  have hlabelled : Labelled engine texts db tree true _ (.leaf path) _ called :=
    { ids := hperm
      pivot := by simp [hcolumns]
      columns := fun column hcolumn => hcolumns ▸ List.mem_append_left _ (hschema ▸ hcolumn)
      bag := hcalledBag
      label := fun row _ => List.mem_append_right _
        (by cases h : tree.leaf <;> simp [label, h, ValueExpr.eval])
      values := fun row hrow id hid =>
        List.mem_append_left _ (Row.mem_get (hnames row hrow ▸ hid)) }
  obtain ⟨extended, branch, hextended, hbranch, hresult⟩ := exists_branch (path.length + 1) false
    (pathValue path) hnodup hlabelled (columns_pathValue path) (fun _ _ => ⟨rfl, rfl⟩)
    (fun row _ level hlevel => eval_pathValue_of_lt (hbottom ▸ hlevel) _)
  refine ⟨called, hcalled, extended, branch, hextended, hbranch, ?_⟩
  rwa [childNodes, if_neg hbottom.not_lt]

variable (texts db) in
theorem exists_childrenOf (hformed : tree.WellFormed) (hnodup : tree.columns.Nodup)
    (h : path.length ≤ tree.pivots.length) :
    ∃ children, tree.childrenOf path = .ok children ∧
      Branch engine texts db tree (path.length = tree.pivots.length)
        (tree.childNodes texts (tree.base.query.bag engine db) path) children := by
  obtain ⟨located, hlocated, hschema, hbag⟩ :=
    exists_located texts db hformed h
  have hnews : [.int depthColumn (path.length + 1), .bool isRootColumn false] ++
        (List.range tree.pivots.length).map
          (fun level => .string (pathColumn level) (pathValue path level)) ++
        (List.range (tree.pivots.length + 1)).map
          (fun level => .int (sortValColumn level) (if level ≤ path.length then 1 else 0)) =
      tree.framing (path.length + 1) false (pathValue path)
        fun level => if level < path.length + 1 then 1 else 0 := by
    simp only [framing, Nat.lt_succ_iff]
  have hstart : ∀ rest : TypedQuery → Except QueryError TypedQuery,
      (if (pathCondition tree.pivots path).isEmpty then pure tree.base >>= rest
        else tree.base.filter (pathCondition tree.pivots path) >>= rest) = rest located := by
    intro rest
    rw [← apply_ite (fun start => start >>= rest), hlocated]
    rfl
  simp only [childrenOf, if_neg h.not_gt, hnews, hstart, mapError_eq_ok]
  cases hpivot : tree.pivots[path.length]? with
  | some pivot =>
    obtain ⟨called, groups, hcalled, hgroups, extended, branch, hextended, hbranch, hresult⟩ :=
      exists_groups hformed hnodup hpivot hschema hbag
    have hdeeper := (List.getElem?_eq_some_iff.mp hpivot).1
    exact ⟨branch, bind_eq_ok.mpr ⟨called, hcalled, bind_eq_ok.mpr ⟨groups, hgroups,
      bind_eq_ok.mpr ⟨extended, hextended, hbranch⟩⟩⟩, by simpa [hdeeper.ne] using hresult⟩
  | none =>
    have hbottom := h.antisymm (List.getElem?_eq_none_iff.mp hpivot)
    obtain ⟨called, hcalled, extended, branch, hextended, hbranch, hresult⟩ :=
      exists_leaves hformed hnodup hbottom hschema hbag
    exact ⟨branch, bind_eq_ok.mpr ⟨called, hcalled, bind_eq_ok.mpr ⟨extended, hextended, hbranch⟩⟩,
      by simpa [hbottom] using hresult⟩

end Children

end PivotTree

end PivotQuery
