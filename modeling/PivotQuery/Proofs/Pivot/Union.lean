import PivotQuery.Proofs.Pivot.Branches

namespace PivotQuery

theorem exists_mapM {ε α β : Type} {f : α → Except ε β} {R : α → β → Prop} {xs : List α}
    (h : ∀ x ∈ xs, ∃ y, f x = .ok y ∧ R x y) :
    ∃ ys, xs.mapM f = .ok ys ∧ List.Forall₂ R xs ys := by
  induction xs with
  | nil => exact ⟨[], rfl, .nil⟩
  | cons x rest ih =>
    obtain ⟨⟨y, hy, hR⟩, hrest⟩ := List.forall_mem_cons.mp h
    obtain ⟨ys, hys, hall⟩ := ih hrest
    refine ⟨y :: ys, ?_, .cons hR hall⟩
    rw [List.mapM_cons]
    exact bind_eq_ok.mpr ⟨y, hy, bind_eq_ok.mpr ⟨ys, hys, rfl⟩⟩

namespace PivotTree

section Stacks

variable {tree : PivotTree} {opened : PathTree} {column : Column}

-- Whether the branches of a tree have rows of the base or aggregates.
def branchKinds (tree : PivotTree) (opened : PathTree) : List Bool :=
  tree.root.toList.map (fun _ => false) ++
    ([] :: opened.paths).map fun path => decide (path.length = tree.pivots.length)

private theorem mixes_iff (h : ∀ path ∈ opened.paths, path.length ≤ tree.pivots.length) :
    tree.mixes opened = true ↔
      false ∈ tree.branchKinds opened ∧ true ∈ tree.branchKinds opened := by
  have hgroups : false ∈ tree.branchKinds opened ↔
      (tree.showsRoot || 0 < tree.pivots.length) = true := by
    simp only [branchKinds, List.mem_append, List.mem_map, decide_eq_false_iff_not, Bool.or_eq_true,
      decide_eq_true_eq, and_true, Option.mem_toList]
    refine or_congr Option.isSome_iff_exists.symm ⟨?_, fun hpos => ?_⟩
    · rintro ⟨path, hpath, hne⟩
      rcases List.mem_cons.mp hpath with rfl | hpath
      · exact Nat.pos_of_ne_zero (Ne.symm hne)
      · exact (Nat.zero_le _).trans_lt (lt_of_le_of_ne (h path hpath) hne)
    · exact ⟨[], List.mem_cons_self, hpos.ne⟩
  have hrows : true ∈ tree.branchKinds opened ↔
      (([] :: opened.paths).any fun path => path.length = tree.pivots.length) = true := by
    simp [branchKinds]
  rw [mixes, Bool.and_eq_true, hgroups, hrows]

theorem valueType_sameAs {isLeaf isLeaf' : Bool}
    (h : ∀ path ∈ opened.paths, path.length ≤ tree.pivots.length)
    (hleaf : isLeaf ∈ tree.branchKinds opened) (hleaf' : isLeaf' ∈ tree.branchKinds opened)
    (hstacks : tree.stacksAsText opened column = false) :
    (tree.valueType isLeaf column).sameAs (tree.valueType isLeaf' column) = true := by
  have hsame : false ∈ tree.branchKinds opened ∧ true ∈ tree.branchKinds opened →
      ((tree.aggFn column.id).resultType column.type).sameAs column.type = true := by
    intro hboth
    simpa [stacksAsText, (mixes_iff h).mpr hboth] using hstacks
  cases isLeaf <;> cases isLeaf'
  · exact ColumnType.sameAs_refl _
  · exact hsame ⟨hleaf, hleaf'⟩
  · exact ColumnType.sameAs_symm (hsame ⟨hleaf', hleaf⟩)
  · exact ColumnType.sameAs_refl _

-- If the union holds a column as text, it has both types in it.
private theorem exists_not_sameAs (isLeaf : Bool)
    (h : ∀ path ∈ opened.paths, path.length ≤ tree.pivots.length)
    (hstacks : tree.stacksAsText opened column = true) :
    ∃ other ∈ tree.branchKinds opened,
      (tree.valueType isLeaf column).sameAs (tree.valueType other column) = false := by
  simp only [stacksAsText, Bool.and_eq_true, Bool.not_eq_true'] at hstacks
  obtain ⟨hmixes, hdiffer⟩ := hstacks
  obtain ⟨hgroups, hrows⟩ := (mixes_iff h).mp hmixes
  cases isLeaf with
  | false => exact ⟨true, hrows, hdiffer⟩
  | true =>
    refine ⟨false, hgroups, Bool.eq_false_iff.mpr fun hsame => ?_⟩
    exact Bool.eq_false_iff.mp hdiffer (ColumnType.sameAs_symm hsame)

-- The columns of the union, whose first branch tells the types that the branches agree on.
def unionColumns (tree : PivotTree) (opened : PathTree) (isLeaf : Bool) : List Column :=
  tree.frameColumns ++ tree.base.schema.columns.map fun column =>
    { column with
      type := if tree.stacksAsText opened column then .string
        else tree.valueType isLeaf column }

theorem type?_branch {branch : Schema} {isLeaf : Bool}
    (hbranch : branch.columns = tree.branchColumns isLeaf)
    (hcolumn : column ∈ tree.branchColumns isLeaf) :
    branch.type? column.id = some column.type :=
  Schema.type?_of_mem (hbranch ▸ hcolumn)

theorem mem_branchColumns (isLeaf : Bool) (hcolumn : column ∈ tree.base.schema.columns) :
    { column with type := tree.valueType isLeaf column } ∈ tree.branchColumns isLeaf :=
  List.mem_append_right _ (List.mem_map_of_mem hcolumn)

-- The other branches have the type that the first one has for a column, unless the column is held
-- as text.
theorem sameAs_rest_iff {isLeaf : Bool} {kinds : List Bool} {rest : List Schema}
    (h : ∀ path ∈ opened.paths, path.length ≤ tree.pivots.length)
    (hkinds : isLeaf :: kinds = tree.branchKinds opened)
    (hrest : List.Forall₂ (fun kind branch => branch.columns = tree.branchColumns kind) kinds rest)
    (hcolumn : column ∈ tree.base.schema.columns) :
    (∀ type ∈ rest.filterMap fun other => other.type? column.id,
        (tree.valueType isLeaf column).sameAs type = true) ↔
      tree.stacksAsText opened column = false := by
  constructor
  · intro hall
    by_contra hstacks
    obtain ⟨kind, hkind, hdiffer⟩ :=
      exists_not_sameAs isLeaf h (Bool.not_eq_false _ ▸ hstacks)
    rcases List.mem_cons.mp (hkinds ▸ hkind) with rfl | hkind
    · simp at hdiffer
    · obtain ⟨other, hother, hcolumns⟩ := exists_mem_right hrest hkind
      have htype := type?_branch hcolumns (mem_branchColumns kind hcolumn)
      exact Bool.eq_false_iff.mp hdiffer (hall _ (List.mem_filterMap.mpr ⟨other, hother, htype⟩))
  · intro hstacks type htype
    obtain ⟨other, hother, htype⟩ := List.mem_filterMap.mp htype
    obtain ⟨kind, hkind, hcolumns⟩ := exists_mem_left hrest hother
    rw [type?_branch hcolumns (mem_branchColumns kind hcolumn), Option.some.injEq] at htype
    rw [← htype]
    exact valueType_sameAs h (hkinds ▸ List.mem_cons_self) (hkinds ▸ List.mem_cons_of_mem _ hkind)
      hstacks

theorem columns_union {first result : Schema} {rest : List Schema}
    (h : ∀ path ∈ opened.paths, path.length ≤ tree.pivots.length)
    (hall : List.Forall₂ (fun kind branch => branch.columns = tree.branchColumns kind)
      (tree.branchKinds opened) (first :: rest))
    (hresult : Schema.concatenated (first :: rest) = .ok result) :
    ∃ isLeaf ∈ tree.branchKinds opened, result.columns = tree.unionColumns opened isLeaf := by
  obtain ⟨isLeaf, kinds, hfirst, hrest, hkinds⟩ := List.forall₂_cons_right_iff.mp hall
  refine ⟨isLeaf, hkinds ▸ List.mem_cons_self, ?_⟩
  rw [Schema.columns_concatenated hresult, hfirst, branchColumns, unionColumns, List.map_append]
  congr 1
  · refine (List.map_congr_left fun column hcolumn => ?_).trans (List.map_id _)
    have htypes : ∀ type ∈ rest.filterMap fun other => other.type? column.id,
        column.type.sameAs type = true := by
      intro type htype
      obtain ⟨other, hother, htype⟩ := List.mem_filterMap.mp htype
      obtain ⟨kind, -, hcolumns⟩ := exists_mem_left hrest hother
      rw [type?_branch hcolumns (List.mem_append_left _ hcolumn), Option.some.injEq] at htype
      rw [← htype, ColumnType.sameAs_refl]
    rw [ColumnType.foldl_unify, if_pos htypes]
    rfl
  · rw [List.map_map]
    refine List.map_congr_left fun column hcolumn => ?_
    simp only [Function.comp_apply, ColumnType.foldl_unify,
      sameAs_rest_iff h hkinds.symm hrest hcolumn]
    cases tree.stacksAsText opened column <;> rfl

end Stacks

variable {V : Type} [DecidableEq V] {engine : Engine V} {texts : engine.Texts}
variable {tree : PivotTree} {rows : Multiset (Row V)} {opened : PathTree}

omit [DecidableEq V] in
-- In the union a row has its columns as they are, but what is held as text there becomes text.
theorem align_branchRow {branch target : Schema} {isLeaf first : Bool} {node : TreeNode V}
    (hnodup : tree.columns.Nodup)
    (h : ∀ path ∈ opened.paths, path.length ≤ tree.pivots.length)
    (hkind : isLeaf ∈ tree.branchKinds opened) (hfirst : first ∈ tree.branchKinds opened)
    (hbranch : branch.columns = tree.branchColumns isLeaf)
    (htarget : target.columns = tree.unionColumns opened first) (hnode : node.isLeaf = isLeaf) :
    (tree.branchRow texts rows node).align engine branch target =
      tree.nodeRow texts rows opened node := by
  have hnames : (tree.branchRow texts rows node).names.Nodup := names_branchRow node ▸ hnodup
  have hframeNames : (tree.frame engine node).names = Column.ids tree.frameColumns :=
    names_frame node
  have hframe : (tree.branchRow texts rows node).project engine (Column.ids tree.frameColumns) =
      tree.frame engine node :=
    hframeNames ▸ Row.project_of_subset hnames fun entry hentry => List.mem_append_left _ hentry
  rw [Row.align, htarget, unionColumns, List.map_append, nodeRow]
  congr 1
  · rw [← hframe, Row.project, Column.ids, List.map_map]
    refine List.map_congr_left fun column hcolumn => ?_
    have htype := type?_branch hbranch (List.mem_append_left _ hcolumn)
    simp [htype]
  · rw [List.map_map]
    refine List.map_congr_left fun column hcolumn => ?_
    have htype : branch.type? column.id = some (tree.valueType isLeaf column) :=
      type?_branch hbranch (mem_branchColumns isLeaf hcolumn)
    have hid : column.id ∈ tree.outColumns := List.mem_map_of_mem hcolumn
    have hvalue : (tree.branchRow texts rows node).get engine column.id =
        tree.value texts rows node column.id :=
      Row.get_of_mem hnames (List.mem_append_right _ (List.mem_map_of_mem hid))
    simp only [Function.comp_apply, htype, hvalue, castsValue, hnode, Option.any_some]
    cases hstacks : tree.stacksAsText opened column with
    | false => simp [valueType_sameAs h hkind hfirst hstacks]
    | true => cases htext : (tree.valueType isLeaf column).sameAs .string <;> simp [htext]

-- The branches of a tree, with what is in them.
def parts (texts : engine.Texts) (tree : PivotTree) (rows : Multiset (Row V))
    (opened : PathTree) : List (Bool × Multiset (TreeNode V)) :=
  tree.root.toList.map (fun _ => (false, {.root})) ++ ([] :: opened.paths).map fun path =>
    (decide (path.length = tree.pivots.length), tree.childNodes texts rows path)

variable (texts rows) in
omit [DecidableEq V] in
private theorem kinds_parts :
    (tree.parts texts rows opened).map Prod.fst = tree.branchKinds opened := by
  simp [parts, branchKinds, Function.comp_def]

omit [DecidableEq V] in
private theorem bind_parts :
    (tree.parts texts rows opened : Multiset (Bool × Multiset (TreeNode V))).bind Prod.snd =
      tree.nodes texts rows opened := by
  have hroot : ((tree.root.toList.map fun _ => (false, {TreeNode.root}) :
      List (Bool × Multiset (TreeNode V))) :
        Multiset (Bool × Multiset (TreeNode V))).bind Prod.snd =
          if tree.showsRoot then {TreeNode.root} else 0 := by
    cases h : tree.root <;> simp [showsRoot, h]
  rw [parts, ← Multiset.coe_add, Multiset.add_bind, hroot, ← Multiset.map_coe, Multiset.bind_map,
    nodes]

omit [DecidableEq V] in
theorem isLeaf_of_mem_childNodes {path : Path} (h : path.length ≤ tree.pivots.length)
    {node : TreeNode V} (hnode : node ∈ tree.childNodes texts rows path) :
    node.isLeaf = decide (path.length = tree.pivots.length) := by
  cases node with
  | root => exact absurd hnode root_notMem_childNodes
  | group _ =>
    obtain ⟨rfl, hne, hlength, -⟩ := group_mem_childNodes.mp hnode
    have hpos := List.length_pos_of_ne_nil hne
    rw [List.length_dropLast]
    simp only [TreeNode.isLeaf, false_eq_decide_iff]
    omega
  | leaf _ _ =>
    obtain ⟨rfl, hlength, -⟩ := leaf_mem_childNodes.mp hnode
    simp [TreeNode.isLeaf, hlength]

omit [DecidableEq V] in
theorem isLeaf_of_mem_parts (h : ∀ path ∈ opened.paths, path.length ≤ tree.pivots.length)
    {part : Bool × Multiset (TreeNode V)} (hpart : part ∈ tree.parts texts rows opened)
    {node : TreeNode V} (hnode : node ∈ part.2) : node.isLeaf = part.1 := by
  rcases List.mem_append.mp hpart with hpart | hpart
  · obtain ⟨_, -, rfl⟩ := List.mem_map.mp hpart
    obtain rfl := Multiset.mem_singleton.mp hnode
    rfl
  · obtain ⟨path, hpath, rfl⟩ := List.mem_map.mp hpart
    have hlength : path.length ≤ tree.pivots.length := by
      rcases List.mem_cons.mp hpath with rfl | hpath
      · exact Nat.zero_le _
      · exact h path hpath
    exact isLeaf_of_mem_childNodes hlength hnode

variable {db : Database V}

variable (texts db) in
theorem exists_branches (hformed : tree.WellFormed) (hnodup : tree.columns.Nodup)
    (h : ∀ path ∈ opened.paths, path.length ≤ tree.pivots.length) :
    ∃ branches, tree.branches opened = .ok branches ∧
      List.Forall₂ (fun part branch => Branch engine texts db tree part.1 part.2 branch)
        (tree.parts texts (tree.base.query.bag engine db) opened) branches := by
  have hchildren : ∀ path ∈ [] :: opened.paths, ∃ children, tree.childrenOf path = .ok children ∧
      Branch engine texts db tree (path.length = tree.pivots.length)
        (tree.childNodes texts (tree.base.query.bag engine db) path) children :=
    List.forall_mem_cons.mpr ⟨exists_childrenOf texts db hformed hnodup (Nat.zero_le _),
      fun path hpath => exists_childrenOf texts db hformed hnodup (h path hpath)⟩
  obtain ⟨children, hmap, hall⟩ := exists_mapM hchildren
  have hroot : List.Forall₂ (fun part branch => Branch engine texts db tree part.1 part.2 branch)
      (tree.root.toList.map fun _ => (false, {TreeNode.root})) tree.root.toList := by
    rw [List.forall₂_map_left_iff, List.forall₂_same]
    intro root hroot
    obtain ⟨root', hroot', hbranch⟩ := exists_rootQuery texts db hnodup
    obtain rfl := Except.ok.inj ((hformed.root root (Option.mem_toList.mp hroot)).symm.trans hroot')
    exact hbranch
  refine ⟨tree.root.toList ++ children, bind_eq_ok.mpr ⟨children, hmap, rfl⟩, ?_⟩
  exact List.rel_append hroot (List.forall₂_map_left_iff.mpr hall)

-- The rows of the union are those of its branches.
theorem bagOfAll_eq {target : Schema} {parts : List (Bool × Multiset (TreeNode V))}
    {branches : List TypedQuery}
    (hall : List.Forall₂ (fun part branch => Branch engine texts db tree part.1 part.2 branch)
      parts branches)
    (halign : ∀ part ∈ parts, ∀ node ∈ part.2, ∀ branch : Schema,
      branch.columns = tree.branchColumns part.1 →
        (tree.branchRow texts (tree.base.query.bag engine db) node).align engine branch target =
          tree.nodeRow texts (tree.base.query.bag engine db) opened node) :
    Query.bagOfAll engine db target (branches.map TypedQuery.query) =
      ((parts : Multiset (Bool × Multiset (TreeNode V))).bind Prod.snd).map
        (tree.nodeRow texts (tree.base.query.bag engine db) opened) := by
  induction hall with
  | nil => rfl
  | cons hbranch _ ih =>
    obtain ⟨hfirst, hrest⟩ := List.forall_mem_cons.mp halign
    rw [List.map_cons, Query.bagOfAll, ih hrest, hbranch.bag, Multiset.map_map,
      ← Multiset.cons_coe, Multiset.cons_bind, Multiset.map_add,
      Query.schema_of_infer (TypedQuery.typed _)]
    congr 1
    exact Multiset.map_congr rfl fun node hnode => hfirst node hnode _ hbranch.columns

variable (texts db) in
theorem exists_union (hformed : tree.WellFormed) (hnodup : tree.columns.Nodup)
    (h : ∀ path ∈ opened.paths, path.length ≤ tree.pivots.length) :
    ∃ union isLeaf, tree.union opened = .ok union ∧
      union.schema.columns = tree.unionColumns opened isLeaf ∧
      union.query.bag engine db =
        (tree.nodes texts (tree.base.query.bag engine db) opened).map
          (tree.nodeRow texts (tree.base.query.bag engine db) opened) := by
  obtain ⟨branches, hbranches, hall⟩ :=
    exists_branches texts db hformed hnodup h
  have hids : ∀ branch ∈ branches, branch.schema.ids = tree.columns := by
    intro branch hbranch
    obtain ⟨part, -, hpart⟩ := exists_mem_left hall hbranch
    rw [Schema.ids, hpart.columns, ids_branchColumns]
  have hcolumns : List.Forall₂ (fun kind branch => branch.columns = tree.branchColumns kind)
      (tree.branchKinds opened) (branches.map TypedQuery.schema) := by
    rw [← kinds_parts texts (tree.base.query.bag engine db),
      List.forall₂_map_left_iff, List.forall₂_map_right_iff]
    exact hall.imp fun _ _ hbranch => hbranch.columns
  cases branches with
  | nil => simp [branchKinds] at hcolumns
  | cons first rest =>
    obtain ⟨hfirstIds, hrestIds⟩ := List.forall_mem_cons.mp hids
    obtain ⟨union, hunion, hquery, hschema⟩ := TypedQuery.exists_concatAll fun other hother =>
      List.Perm.of_eq ((hrestIds other hother).trans hfirstIds.symm)
    obtain ⟨isLeaf, hkind, hunionColumns⟩ := columns_union h hcolumns hschema
    refine ⟨union, isLeaf, bind_eq_ok.mpr ⟨_, hbranches, mapError_eq_ok.mpr hunion⟩,
      hunionColumns, ?_⟩
    have htyped : (Query.concat ((first :: rest).map TypedQuery.query)).infer = .ok union.schema :=
      hquery ▸ union.typed
    rw [hquery, Query.bag, Query.schema_of_infer htyped, bagOfAll_eq hall, bind_parts]
    intro part hpart node hnode branch hbranch
    have hpartKind : part.1 ∈ tree.branchKinds opened :=
      kinds_parts texts _ ▸ List.mem_map_of_mem hpart
    exact align_branchRow hnodup h hpartKind hkind hbranch hunionColumns
      (isLeaf_of_mem_parts h hpart hnode)

end PivotTree

end PivotQuery
