import PivotQuery.Proofs.Pivot.VisibleNodes
import PivotQuery.Proofs.Rows.Precedence

namespace PivotQuery

namespace PivotTree

variable {tree : PivotTree} {level : Nat}

theorem orderAbove_succ (level : Nat) :
    tree.orderAbove (level + 1) = tree.orderAbove level ++ tree.levelOrder level := by
  rw [orderAbove, orderAbove, List.range_succ, List.flatMap_append, List.flatMap_singleton,
    List.append_assoc]

theorem orderAbove_le {deeper : Nat} (h : level ≤ deeper) :
    tree.orderAbove level <+: tree.orderAbove deeper := by
  induction deeper, h using Nat.le_induction with
  | base => exact List.prefix_rfl
  | succ deeper _ ih =>
    rw [orderAbove_succ]
    exact ih.trans (List.prefix_append _ _)

theorem orderAbove_prefix_displayOrder (h : level ≤ tree.pivots.length) :
    tree.orderAbove level <+: tree.displayOrder := by
  rw [displayOrder_eq, List.append_assoc]
  exact (orderAbove_le h).trans (List.prefix_append _ _)

-- Behind the levels above comes the mark that tells a node from what lies below it.
theorem mark_prefix_displayOrder (h : level ≤ tree.pivots.length) :
    tree.orderAbove level ++ [⟨sortValColumn level, true⟩] <+: tree.displayOrder := by
  rcases h.lt_or_eq with hlt | rfl
  · refine List.IsPrefix.trans ?_ (orderAbove_prefix_displayOrder (Nat.succ_le_of_lt hlt))
    rw [orderAbove_succ, levelOrder, List.append_assoc [_], ← List.append_assoc]
    exact List.prefix_append _ _
  · rw [displayOrder_eq]
    exact List.prefix_append _ _

section Reads

variable {V : Type} [DecidableEq V] {engine : Engine V} {texts : engine.Texts}
variable {rows : Multiset (Row V)} {opened : PathTree}

-- What the columns of the display order hold for a node.

section

variable (hnodup : tree.displayColumns.Nodup) (node : TreeNode V)
include hnodup

theorem nodup_displayRow : (tree.displayRow texts rows opened node).names.Nodup := by
  rw [displayRow, names_joinedRow]
  exact hnodup

theorem get_displayRow_isRoot :
    (tree.displayRow texts rows opened node).get engine isRootColumn =
      engine.constant (.bool node.isRoot) := by
  refine Row.get_of_mem (nodup_displayRow hnodup node) ?_
  exact List.mem_append_left _ (List.mem_append_left _ (List.mem_append_left _
    (List.mem_append_left _ (by simp))))

theorem get_displayRow_mark {level : Nat} (h : level ≤ tree.pivots.length) :
    (tree.displayRow texts rows opened node).get engine (sortValColumn level) =
      Sql.countValue engine (if level < node.depth then 1 else 0) := by
  refine Row.get_of_mem (nodup_displayRow hnodup node) ?_
  exact List.mem_append_left _ (List.mem_append_left _ (List.mem_append_right _
    (List.mem_map_of_mem (List.mem_range.mpr (Nat.lt_succ_of_le h)))))

theorem get_displayRow_path {level : Nat} (h : level < tree.pivots.length) :
    (tree.displayRow texts rows opened node).get engine (pathColumn level) =
      engine.component node.path[level]?.join :=
  get_joinedRow_path hnodup le_rfl node h

theorem get_displayRow_key {level : Nat} (h : level < tree.pivots.length)
    {entry : SortKey × Nat} (hentry : entry ∈ tree.sortKey.zipIdx) :
    (tree.displayRow texts rows opened node).get engine (sortKeyColumn level entry.2) =
      tree.sortValue texts rows (levelPath node.path (level + 1)) entry.1.column := by
  refine Row.get_of_mem (nodup_displayRow hnodup node) ?_
  exact List.mem_append_right _ (List.mem_flatMap.mpr
    ⟨level, List.mem_range.mpr h, List.mem_map_of_mem hentry⟩)

theorem get_displayRow_column {column : Column} (hcolumn : column ∈ tree.base.schema.columns) :
    (tree.displayRow texts rows opened node).get engine column.id =
      if tree.castsValue opened node.isLeaf column then
        engine.cast .string (tree.value texts rows node column.id)
      else tree.value texts rows node column.id := by
  refine Row.get_of_mem (nodup_displayRow hnodup node) ?_
  exact List.mem_append_left _ (List.mem_append_right _ (List.mem_map_of_mem hcolumn))

end

private theorem levelPath_congr {path other : Path} {length : Nat}
    (h : ∀ i < length, path[i]? = other[i]?) : levelPath path length = levelPath other length :=
  List.map_congr_left fun i hi => congrArg Option.join (h i (List.mem_range.mp hi))

-- Nodes below the same group have the same in all columns that are about its level and those
-- above it, whatever their own levels hold.
theorem levelOrder_eq (hnodup : tree.displayColumns.Nodup) {a b : TreeNode V} {level : Nat}
    (hlevel : level < tree.pivots.length) (hpath : ∀ i < level + 1, a.path[i]? = b.path[i]?)
    (ha : level < a.depth) (hb : level < b.depth) : ∀ key ∈ tree.levelOrder level,
      (tree.displayRow texts rows opened a).get engine key.column =
        (tree.displayRow texts rows opened b).get engine key.column := by
  intro key hkey
  rcases mem_levelOrder.mp hkey with rfl | ⟨entry, hentry, rfl⟩ | rfl
  · rw [get_displayRow_mark hnodup a hlevel.le, get_displayRow_mark hnodup b hlevel.le, if_pos ha,
      if_pos hb]
  · rw [get_displayRow_key hnodup a hlevel hentry, get_displayRow_key hnodup b hlevel hentry,
      levelPath_congr hpath]
  · rw [get_displayRow_path hnodup a hlevel, get_displayRow_path hnodup b hlevel,
      hpath level (Nat.lt_succ_self level)]

variable (texts rows opened) in
-- Nodes that both lie below a level or both do not have the same mark for it.
theorem mark_eq (hnodup : tree.displayColumns.Nodup) {a b : TreeNode V} {level : Nat}
    (hlevel : level ≤ tree.pivots.length) (h : level < a.depth ↔ level < b.depth) :
    ∀ key ∈ [(⟨sortValColumn level, true⟩ : SortKey)],
      (tree.displayRow texts rows opened a).get engine key.column =
        (tree.displayRow texts rows opened b).get engine key.column := by
  refine List.forall_mem_singleton.mpr ?_
  rw [get_displayRow_mark hnodup a hlevel, get_displayRow_mark hnodup b hlevel, if_congr h rfl rfl]

variable (texts rows opened) in
theorem orderAbove_eq (hnodup : tree.displayColumns.Nodup) (a b : TreeNode V) {level : Nat}
    (hlevel : level ≤ tree.pivots.length) (hroot : a.isRoot = b.isRoot)
    (hpath : ∀ i < level, a.path[i]? = b.path[i]?) (ha : level ≤ a.depth) (hb : level ≤ b.depth) :
    ∀ key ∈ tree.orderAbove level,
      (tree.displayRow texts rows opened a).get engine key.column =
        (tree.displayRow texts rows opened b).get engine key.column := by
  refine List.forall_mem_append.mpr ⟨fun key hkey => ?_, fun key hkey => ?_⟩
  · split at hkey
    · obtain rfl := List.mem_singleton.mp hkey
      rw [get_displayRow_isRoot hnodup, get_displayRow_isRoot hnodup, hroot]
    · simp at hkey
  · obtain ⟨i, hi, hkey⟩ := List.mem_flatMap.mp hkey
    have hlt := List.mem_range.mp hi
    exact levelOrder_eq hnodup (by omega) (fun j hj => hpath j (by omega)) (by omega) (by omega) key
      hkey

end Reads

end PivotTree

-- What the order of an engine has to be for a tree to be displayed: different values are told
-- apart, 0 comes before 1, and in descending order true comes before false.
structure Engine.OrdersMarks {V : Type} (engine : Engine V) : Prop where
  antisymm : ∀ a b, engine.before true a b = true → engine.before true b a = true → a = b
  zero_first : engine.before true (Sql.countValue engine 1) (Sql.countValue engine 0) = false
  true_first :
    engine.before false (engine.constant (.bool false)) (engine.constant (.bool true)) = false

namespace PivotTree

-- The rows of some nodes, compared by the display order, are displayed as a tree.
structure Displays {V : Type} [DecidableEq V] (engine : Engine V) (tree : PivotTree)
    (nodes : Multiset (TreeNode V)) (read value : TreeNode V → String → V) : Prop where
  above : ∀ a ∈ nodes, ∀ b ∈ nodes, a.IsAbove b →
    Sql.ComesFirst engine tree.displayOrder (read a) (read b)
  together : ∀ a ∈ nodes, ∀ c ∈ nodes, a.isLeaf = false → c ≠ a → ¬ a.IsAbove c →
    (∀ b ∈ nodes, b = a ∨ a.IsAbove b → Sql.ComesFirst engine tree.displayOrder (read c) (read b)) ∨
      ∀ b ∈ nodes, b = a ∨ a.IsAbove b → Sql.ComesFirst engine tree.displayOrder (read b) (read c)
  siblings : ∀ path x y, x ≠ y → .group (path ++ [x]) ∈ nodes → .group (path ++ [y]) ∈ nodes →
    Sql.precedes engine tree.displayOrder (read (.group (path ++ [x])))
        (read (.group (path ++ [y]))) =
      (Sql.precedes engine tree.sortKey (value (.group (path ++ [x])))
          (value (.group (path ++ [y]))) &&
        (!Sql.precedes engine tree.sortKey (value (.group (path ++ [y])))
            (value (.group (path ++ [x]))) ||
          engine.before true (engine.component x) (engine.component y)))

variable {V : Type} [DecidableEq V] {engine : Engine V} {texts : engine.Texts}
variable {tree : PivotTree} {rows : Multiset (Row V)} {opened : PathTree}

private theorem above_comesFirst (order : engine.OrdersMarks) (hnodup : tree.displayColumns.Nodup)
    {a b : TreeNode V} (ha : a ∈ tree.nodes texts rows opened)
    (h : a.IsAbove b) :
    Sql.ComesFirst engine tree.displayOrder ((tree.displayRow texts rows opened a).get engine)
      ((tree.displayRow texts rows opened b).get engine) := by
  cases a with
  | root =>
    have hfirst : [⟨isRootColumn, false⟩] <+: tree.displayOrder := by
      rw [displayOrder_eq, orderAbove, if_pos (showsRoot_of_mem_nodes ha), List.append_assoc,
        List.append_assoc]
      exact List.prefix_append _ _
    have hroot : b.isRoot = false := by
      cases b with
      | root => exact absurd rfl h
      | group _ => rfl
      | leaf _ _ => rfl
    refine (Sql.ComesFirst.of_not_precedes ?_).of_start hfirst
    rw [Sql.precedes, get_displayRow_isRoot hnodup, get_displayRow_isRoot hnodup, hroot]
    simp only [TreeNode.isRoot, order.true_first, Bool.false_and]
  | group path =>
    obtain ⟨-, hlength, -⟩ := group_mem_nodes ha
    obtain ⟨hstart, hdepth⟩ := h
    have hroot : b.isRoot = false := TreeNode.isRoot_of_depth_pos ((Nat.zero_le _).trans_lt hdepth)
    have hpath : ∀ i < path.length, path[i]? = b.path[i]? := by
      intro i hi
      rw [List.prefix_iff_getElem?.mp hstart i hi, List.getElem?_eq_getElem hi]
    have hsame := orderAbove_eq texts rows opened hnodup (.group path) b hlength hroot.symm hpath
      le_rfl hdepth.le
    refine (Sql.ComesFirst.append_of_eq hsame (Sql.ComesFirst.of_not_precedes ?_)).of_start
      (mark_prefix_displayOrder hlength)
    rw [Sql.precedes, get_displayRow_mark hnodup _ hlength, get_displayRow_mark hnodup _ hlength,
      if_pos hdepth, if_neg (by simp [TreeNode.depth]), order.zero_first, Bool.false_and]
  | leaf _ _ => exact h.elim

variable (texts rows opened) in
-- Nodes whose paths part at a level are told apart by what is about that level and those above it.
private theorem comesFirst_of_parted (order : engine.OrdersMarks)
    (hnodup : tree.displayColumns.Nodup)
    (a b : TreeNode V) {level : Nat} (hlevel : level < tree.pivots.length)
    (h : a.path[level]?.join ≠ b.path[level]?.join) :
    Sql.ComesFirst engine (tree.orderAbove (level + 1))
        ((tree.displayRow texts rows opened a).get engine)
        ((tree.displayRow texts rows opened b).get engine) ∨
      Sql.ComesFirst engine (tree.orderAbove (level + 1))
        ((tree.displayRow texts rows opened b).get engine)
        ((tree.displayRow texts rows opened a).get engine) := by
  have hkey : ⟨pathColumn level, true⟩ ∈ tree.orderAbove (level + 1) := by
    rw [orderAbove_succ]
    exact List.mem_append_right _ (mem_levelOrder.mpr (Or.inr (Or.inr rfl)))
  refine Sql.comesFirst_or_of_key hkey fun hforth => ?_
  simp only [get_displayRow_path hnodup _ hlevel] at hforth ⊢
  refine Bool.eq_false_iff.mpr fun hback => h ?_
  exact texts.component_injective (order.antisymm _ _ hforth hback)

-- Of two paths that do not continue each other, one parts from the other somewhere.
private theorem exists_parted {path other : Path} (h : ¬ path <+: other) (h' : ¬ other <+: path) :
    ∃ level < path.length, path[level]?.join ≠ other[level]?.join := by
  by_contra hnone
  push Not at hnone
  have hsame : ∀ i, i < path.length → i < other.length → path[i]? = other[i]? := by
    intro i hi hi'
    have hjoin := hnone i hi
    rwa [List.getElem?_eq_getElem hi, List.getElem?_eq_getElem hi', Option.join_some,
      Option.join_some, ← Option.some_inj, ← List.getElem?_eq_getElem hi,
      ← List.getElem?_eq_getElem hi'] at hjoin
  rcases Nat.le_total path.length other.length with hle | hle
  · exact h (List.prefix_iff_getElem?.mpr fun i hi => by
      rw [← hsame i hi (hi.trans_le hle), List.getElem?_eq_getElem hi])
  · exact h' (List.prefix_iff_getElem?.mpr fun i hi => by
      rw [hsame i (hi.trans_le hle) hi, List.getElem?_eq_getElem hi])

-- A visible node that is neither a group, nor above it, nor below it has another path.
private theorem not_prefix_of_outside {path : Path} {c : TreeNode V}
    (hgroup : .group path ∈ tree.nodes texts rows opened)
    (hc : c ∈ tree.nodes texts rows opened) (hne : c ≠ .group path)
    (hbelow : ¬ (TreeNode.group path).IsAbove c) (habove : ¬ c.IsAbove (.group path)) :
    ¬ path <+: c.path ∧ ¬ c.path <+: path := by
  obtain ⟨hnil, hlength, -⟩ := group_mem_nodes hgroup
  cases c with
  | root => exact absurd (by simp [TreeNode.IsAbove]) habove
  | group other =>
    constructor
    · intro hstart
      refine hbelow ⟨hstart, lt_of_le_of_ne hstart.length_le fun heq => hne ?_⟩
      exact congrArg TreeNode.group (hstart.eq_of_length heq).symm
    · intro hstart
      refine habove ⟨hstart, lt_of_le_of_ne hstart.length_le fun heq => hne ?_⟩
      exact congrArg TreeNode.group (hstart.eq_of_length heq)
  | leaf other row =>
    have hbottom := (leaf_mem_nodes hc).1
    constructor
    · exact fun hstart => hbelow ⟨hstart, Nat.lt_succ_of_le hstart.length_le⟩
    · intro hstart
      have hsame : other = path :=
        hstart.eq_of_length (hstart.length_le.antisymm (hlength.trans_eq hbottom.symm))
      exact hbelow ⟨hsame ▸ List.prefix_rfl, hsame ▸ Nat.lt_succ_self _⟩

-- All rows of a group's subtree have the same in the columns about its level and those above it.
theorem orderAbove_eq_of_below (hnodup : tree.displayColumns.Nodup) {path : Path}
    (hgroup : .group path ∈ tree.nodes texts rows opened) {b : TreeNode V}
    (h : b = .group path ∨ (TreeNode.group path).IsAbove b) {level : Nat}
    (hlevel : level ≤ path.length) : ∀ key ∈ tree.orderAbove level,
      (tree.displayRow texts rows opened (.group path)).get engine key.column =
        (tree.displayRow texts rows opened b).get engine key.column := by
  obtain ⟨hnil, hlength, -⟩ := group_mem_nodes hgroup
  obtain ⟨hstart, hdepth⟩ : path <+: b.path ∧ path.length ≤ b.depth := by
    rcases h with rfl | habove
    · exact ⟨List.prefix_rfl, le_rfl⟩
    · exact ⟨habove.1, habove.2.le⟩
  have hroot : b.isRoot = false :=
    TreeNode.isRoot_of_depth_pos ((List.length_pos_of_ne_nil hnil).trans_le hdepth)
  refine orderAbove_eq texts rows opened hnodup _ b (hlevel.trans hlength) hroot.symm
    (fun i hi => ?_) hlevel (hlevel.trans hdepth)
  have hlt : i < path.length := hi.trans_le hlevel
  rw [List.prefix_iff_getElem?.mp hstart i hlt]
  exact List.getElem?_eq_getElem hlt

theorem subtree_together (order : engine.OrdersMarks) (hnodup : tree.displayColumns.Nodup)
    {a c : TreeNode V} (ha : a ∈ tree.nodes texts rows opened)
    (hc : c ∈ tree.nodes texts rows opened) (hleaf : a.isLeaf = false) (hne : c ≠ a)
    (hbelow : ¬ a.IsAbove c) :
    (∀ b ∈ tree.nodes texts rows opened, b = a ∨ a.IsAbove b →
        Sql.ComesFirst engine tree.displayOrder ((tree.displayRow texts rows opened c).get engine)
          ((tree.displayRow texts rows opened b).get engine)) ∨
      ∀ b ∈ tree.nodes texts rows opened, b = a ∨ a.IsAbove b →
        Sql.ComesFirst engine tree.displayOrder ((tree.displayRow texts rows opened b).get engine)
          ((tree.displayRow texts rows opened c).get engine) := by
  cases a with
  | root => exact absurd hne hbelow
  | leaf _ _ => cases hleaf
  | group path =>
    by_cases habove : c.IsAbove (.group path)
    · refine Or.inl fun b _ hb => above_comesFirst order hnodup hc ?_
      rcases hb with rfl | hb
      · exact habove
      · exact habove.trans hb
    · obtain ⟨hnot, hnot'⟩ := not_prefix_of_outside ha hc hne hbelow habove
      obtain ⟨level, hlevel, hparted⟩ := exists_parted hnot hnot'
      have hlength := (group_mem_nodes ha).2.1
      have hstart : tree.orderAbove (level + 1) <+: tree.displayOrder :=
        orderAbove_prefix_displayOrder (hlevel.trans_le hlength)
      rcases comesFirst_of_parted texts rows opened order hnodup (.group path) c
        (hlevel.trans_le hlength) hparted with hfirst | hfirst
      · refine Or.inr fun b _ hb => (hfirst.congr ?_ fun _ _ => rfl).of_start hstart
        exact orderAbove_eq_of_below hnodup ha hb hlevel
      · refine Or.inl fun b _ hb => (hfirst.congr (fun _ _ => rfl) ?_).of_start hstart
        exact orderAbove_eq_of_below hnodup ha hb hlevel

-- The sort key of a level means, for a group of that level, its own aggregates.
theorem get_displayRow_own (hnodup : tree.displayColumns.Nodup) {path : Path}
    {component : PathComponent}
    (hgroup : .group (path ++ [component]) ∈ tree.nodes texts rows opened)
    {entry : SortKey × Nat} (hentry : entry ∈ tree.sortKey.zipIdx) :
    (tree.displayRow texts rows opened (.group (path ++ [component]))).get engine
        (sortKeyColumn path.length entry.2) =
      tree.value texts rows (.group (path ++ [component])) entry.1.column := by
  obtain ⟨-, hlength, hmembers⟩ := group_mem_nodes hgroup
  rw [List.length_append, List.length_singleton] at hlength
  have hpath : levelPath (path ++ [component]) (path.length + 1) = path ++ [component] := by
    rw [levelPath_eq_take (by simp)]
    exact List.take_of_length_le (by simp)
  rw [get_displayRow_key hnodup _ hlength hentry, TreeNode.path, hpath, sortValue, if_neg hmembers]

theorem precedes_sortKeys (hnodup : tree.displayColumns.Nodup) {path : Path} {x y : PathComponent}
    (hx : .group (path ++ [x]) ∈ tree.nodes texts rows opened)
    (hy : .group (path ++ [y]) ∈ tree.nodes texts rows opened) :
    Sql.precedes engine (tree.sortKey.zipIdx.map fun (key, index) =>
          ⟨sortKeyColumn path.length index, key.ascending⟩)
        ((tree.displayRow texts rows opened (.group (path ++ [x]))).get engine)
        ((tree.displayRow texts rows opened (.group (path ++ [y]))).get engine) =
      Sql.precedes engine tree.sortKey (tree.value texts rows (.group (path ++ [x])))
        (tree.value texts rows (.group (path ++ [y]))) := by
  refine Sql.precedes_congr (List.forall₂_map_left_iff.mpr ?_)
  nth_rewrite 2 [← List.zipIdx_map_fst 0 tree.sortKey]
  refine List.forall₂_map_right_iff.mpr (List.forall₂_same.mpr fun entry hentry => ?_)
  exact ⟨rfl, get_displayRow_own hnodup hx hentry, get_displayRow_own hnodup hy hentry⟩

theorem precedes_siblings (order : engine.OrdersMarks) (hnodup : tree.displayColumns.Nodup)
    {path : Path} {x y : PathComponent} (hne : x ≠ y)
    (hx : .group (path ++ [x]) ∈ tree.nodes texts rows opened)
    (hy : .group (path ++ [y]) ∈ tree.nodes texts rows opened) :
    Sql.precedes engine tree.displayOrder
        ((tree.displayRow texts rows opened (.group (path ++ [x]))).get engine)
        ((tree.displayRow texts rows opened (.group (path ++ [y]))).get engine) =
      (Sql.precedes engine tree.sortKey (tree.value texts rows (.group (path ++ [x])))
          (tree.value texts rows (.group (path ++ [y]))) &&
        (!Sql.precedes engine tree.sortKey (tree.value texts rows (.group (path ++ [y])))
            (tree.value texts rows (.group (path ++ [x]))) ||
          engine.before true (engine.component x) (engine.component y))) := by
  have hlevel : path.length < tree.pivots.length := by
    have hlength := (group_mem_nodes hx).2.1
    rwa [List.length_append, List.length_singleton] at hlength
  have hown : ∀ component, (path ++ [component])[path.length]?.join = component := by simp
  have hparted := comesFirst_of_parted texts rows opened order hnodup
    (.group (path ++ [x])) (.group (path ++ [y])) hlevel
    (by rwa [TreeNode.path, TreeNode.path, hown, hown])
  have habove := orderAbove_eq texts rows opened hnodup (.group (path ++ [x]))
    (.group (path ++ [y])) hlevel.le rfl (fun i hi => by
      rw [TreeNode.path, TreeNode.path, List.getElem?_append_left hi, List.getElem?_append_left hi])
    (by simp [TreeNode.depth]) (by simp [TreeNode.depth])
  have hmark := mark_eq texts rows opened hnodup (a := .group (path ++ [x]))
    (b := .group (path ++ [y])) hlevel.le (by simp [TreeNode.depth])
  obtain ⟨rest, hrest⟩ : tree.orderAbove (path.length + 1) <+: tree.displayOrder :=
    orderAbove_prefix_displayOrder (Nat.succ_le_of_lt hlevel)
  rw [← hrest, Sql.ComesFirst.precedes_append_of_or hparted, orderAbove_succ,
    Sql.precedes_append_of_eq habove, levelOrder, List.append_assoc,
    Sql.precedes_append_of_eq hmark, Sql.precedes_append, precedes_sortKeys hnodup hx hy,
    precedes_sortKeys hnodup hy hx]
  simp only [Sql.precedes, get_displayRow_path hnodup _ hlevel, TreeNode.path, hown, Bool.or_true,
    Bool.and_true]

variable (texts) in
-- Any sorted tree that is built has the rows of the visible nodes, and sorts them for display.
theorem rows_of_sortedTreeQuery (db : Database V) (hformed : tree.WellFormed)
    {sorted : TypedQuery}
    (hopened : ∀ path, opened.isOpen path = true → path.length ≤ tree.pivots.length)
    (hsorted : tree.sortedTreeQuery opened = .ok sorted) :
    (∃ input, sorted.query = .sort input tree.displayOrder) ∧
      sorted.query.bag engine db =
        (tree.nodes texts (tree.base.query.bag engine db) opened).map
          (tree.displayRow texts (tree.base.query.bag engine db) opened) := by
  obtain ⟨sorted', hsorted', hbag⟩ := exists_sortedTreeQuery texts db hformed
    (nodup_of_sortedTreeQuery hformed hsorted)
    fun path hpath => hopened path (PathTree.mem_paths.mp hpath).2
  obtain rfl := Except.ok.inj (hsorted.symm.trans hsorted')
  obtain ⟨_, -, hsort⟩ := bind_eq_ok.mp hsorted
  obtain ⟨joined, -, hsort⟩ := bind_eq_ok.mp hsort
  exact ⟨⟨joined.query, (TypedQuery.ofResult_eq_ok.mp (mapError_eq_ok.mp hsort)).1⟩, hbag⟩

end PivotTree

-- By its sort keys the sorted tree shows a tree. Each visible node has a row; it comes before the
-- rows of everything below it, which stay together; and siblings are in the order of their
-- aggregates, or of their values where that does not tell.
theorem sorted_tree_displays_tree {V : Type} [DecidableEq V] (engine : Engine V)
    (order : engine.OrdersMarks) (texts : engine.Texts) (db : Database V) (base : TypedQuery)
    (config : PivotConfig) (tree : PivotTree)
    (htree : PivotTree.ofConfig base config = .ok tree) (opened : PathTree)
    (hopened : ∀ path, opened.isOpen path = true → path.length ≤ tree.pivots.length)
    (sorted : TypedQuery) (hsorted : tree.sortedTreeQuery opened = .ok sorted) :
    ∃ (input : Query) (nodes : Multiset (TreeNode V)),
      sorted.query = .sort input tree.displayOrder ∧
      (∀ node, nodes.count node =
        tree.visibleCount texts (tree.base.query.bag engine db) opened node) ∧
      sorted.query.bag engine db =
        nodes.map (tree.displayRow texts (tree.base.query.bag engine db) opened) ∧
      tree.Displays engine nodes
        (fun node =>
          (tree.displayRow texts (tree.base.query.bag engine db) opened node).get engine)
        (tree.value texts (tree.base.query.bag engine db)) := by
  have hformed := PivotTree.wellFormed_of_ofConfig htree
  have hnodup := PivotTree.nodup_of_sortedTreeQuery hformed hsorted
  obtain ⟨⟨input, hquery⟩, hbag⟩ :=
    PivotTree.rows_of_sortedTreeQuery texts db hformed hopened hsorted
  refine ⟨input, tree.nodes texts (tree.base.query.bag engine db) opened, hquery,
    PivotTree.count_nodes, hbag, ?_⟩
  exact
    { above := fun a ha b _ h => PivotTree.above_comesFirst order hnodup ha h
      together := fun a ha c hc hleaf hne hbelow =>
        PivotTree.subtree_together order hnodup ha hc hleaf hne hbelow
      siblings := fun path x y hne hx hy => PivotTree.precedes_siblings order hnodup hne hx hy }

theorem Engine.cells_ordersMarks : Engine.cells.OrdersMarks where
  antisymm _ _ := Cell.le_antisymm
  zero_first := by decide
  true_first := by decide

def readPay (node : TreeNode Cell) : String → Cell :=
  (payTree.displayRow Engine.cellTexts payRows engineersOpen node).get .cells

-- Who is of no family earns less than the engineers together, so that group comes first, and the
-- root before both.
theorem sorted_tree_displays_tree_payTree :
    ∃ (sorted : TypedQuery) (nodes : Multiset (TreeNode Cell)),
      Engine.cells.OrdersMarks ∧ PivotTree.ofConfig payrollTable payByFamily = .ok payTree ∧
      (∀ path, engineersOpen.isOpen path = true → path.length ≤ payTree.pivots.length) ∧
      payTree.sortedTreeQuery engineersOpen = .ok sorted ∧
      sorted.query.bag .cells payroll = nodes.map
        (payTree.displayRow Engine.cellTexts payRows engineersOpen) ∧
      Sql.precedes .cells payTree.displayOrder (readPay (.group [none]))
        (readPay (.group [some "Engineers"])) = true ∧
      Sql.ComesFirst .cells payTree.displayOrder (readPay .root) (readPay (.group [none])) := by
  obtain ⟨sorted, hsorted⟩ : ∃ sorted, payTree.sortedTreeQuery engineersOpen = .ok sorted :=
    ⟨_, rfl⟩
  have hopened : ∀ path, engineersOpen.isOpen path = true → path.length ≤ payTree.pivots.length :=
    fun _ => length_engineersOpen
  obtain ⟨input, nodes, -, hcount, hbag, hdisplays⟩ := sorted_tree_displays_tree .cells
    Engine.cells_ordersMarks Engine.cellTexts payroll payrollTable payByFamily payTree
    ofConfig_payByFamily engineersOpen hopened sorted hsorted
  have hroot : TreeNode.root ∈ nodes := mem_of_visiblePay hcount (by decide)
  have hnobody : TreeNode.group [none] ∈ nodes := mem_of_visiblePay hcount (by decide)
  have hengineers : TreeNode.group [some "Engineers"] ∈ nodes :=
    mem_of_visiblePay hcount (by decide)
  have hsiblings := hdisplays.siblings [] none (some "Engineers") (by simp) hnobody hengineers
  exact ⟨sorted, nodes, Engine.cells_ordersMarks, ofConfig_payByFamily, hopened, hsorted, hbag,
    hsiblings.trans (by decide), hdisplays.above _ hroot _ hnobody (by simp [TreeNode.IsAbove])⟩

end PivotQuery
