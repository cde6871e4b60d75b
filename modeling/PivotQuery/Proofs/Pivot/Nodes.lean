import PivotQuery.Pivot.Tree
import PivotQuery.Proofs.Pivot.OpenPaths
import PivotQuery.Proofs.Rows.Texts
import PivotQuery.Proofs.Rows.Query

namespace PivotQuery

-- What a row of a tree stands for: everything, a group, or a row of the base that lies in a
-- group at the bottom.
inductive TreeNode (V : Type)
  | root
  | group (path : Path)
  | leaf (path : Path) (row : Row V)
deriving DecidableEq

namespace TreeNode

variable {V : Type}

def path : TreeNode V → Path
  | root => []
  | group path | leaf path _ => path

def depth : TreeNode V → Nat
  | root => 0
  | group path => path.length
  | leaf path _ => path.length + 1

def isRoot : TreeNode V → Bool
  | root => true
  | _ => false

def isLeaf : TreeNode V → Bool
  | leaf _ _ => true
  | _ => false

-- Everything else lies below the root, and below a group whatever continues its path.
def IsAbove : TreeNode V → TreeNode V → Prop
  | root, node => node ≠ root
  | group path, node => path <+: node.path ∧ path.length < node.depth
  | leaf _ _, _ => False

theorem isRoot_of_depth_pos {node : TreeNode V} (h : 0 < node.depth) : node.isRoot = false := by
  cases node with
  | root => exact absurd h (Nat.lt_irrefl 0)
  | group _ => rfl
  | leaf _ _ => rfl

theorem IsAbove.trans {a b c : TreeNode V} (hab : a.IsAbove b) (hbc : b.IsAbove c) :
    a.IsAbove c := by
  cases b with
  | root =>
    cases a with
    | root => exact absurd rfl hab
    | group _ => exact absurd hab.2 (Nat.not_lt_zero _)
    | leaf _ _ => exact hab.elim
  | group path =>
    cases a with
    | root =>
      rintro rfl
      exact absurd hbc.2 (Nat.not_lt_zero _)
    | group _ => exact ⟨hab.1.trans hbc.1, hab.2.trans hbc.2⟩
    | leaf _ _ => exact hab.elim
  | leaf _ _ => exact hbc.elim

end TreeNode

namespace PivotTree

section Visible

variable {V : Type} {engine : Engine V}
variable (texts : engine.Texts) (tree : PivotTree) (rows : Multiset (Row V)) (opened : PathTree)

-- Where a row of the base lies, down to the bottom.
def pathOf (row : Row V) : Path := tree.pivots.map fun pivot => texts.asText (row.get engine pivot)

-- The rows of the base that lie below a path.
def members (path : Path) : Multiset (Row V) :=
  rows.filter fun row => path <+: tree.pathOf texts row

-- How often a node is visible: the root if it is shown, once every group that has rows and
-- lies in an open one, and the rows of the base in the open groups at the bottom, each as often
-- as the base has it.
def visibleCount [DecidableEq V] : TreeNode V → Nat
  | .root => if tree.showsRoot then 1 else 0
  | .group path =>
    if path ≠ [] ∧ path.length ≤ tree.pivots.length ∧ opened.isOpen path.dropLast = true ∧
      tree.members texts rows path ≠ 0 then 1 else 0
  | .leaf path row =>
    if path.length = tree.pivots.length ∧ opened.isOpen path = true then
      (tree.members texts rows path).count row
    else 0

def childNodes (path : Path) : Multiset (TreeNode V) :=
  let located := tree.members texts rows path
  if path.length < tree.pivots.length then
    (located.map fun row => (tree.pathOf texts row).take (path.length + 1)).dedup.map .group
  else located.map (.leaf path)

def nodes : Multiset (TreeNode V) :=
  (if tree.showsRoot then {.root} else 0) +
    (([] :: opened.paths : List Path) : Multiset Path).bind (tree.childNodes texts rows)

end Visible

variable {V : Type} {engine : Engine V} {texts : engine.Texts} {tree : PivotTree}
variable {rows : Multiset (Row V)} {opened : PathTree}

theorem length_pathOf (row : Row V) : (tree.pathOf texts row).length = tree.pivots.length :=
  List.length_map _

theorem mem_members {path : Path} {row : Row V} :
    row ∈ tree.members texts rows path ↔ row ∈ rows ∧ path <+: tree.pathOf texts row :=
  Multiset.mem_filter

theorem members_nil : tree.members texts rows [] = rows :=
  Multiset.filter_eq_self.mpr fun _ _ => List.nil_prefix

theorem length_le_of_mem_members {path : Path} {row : Row V}
    (h : row ∈ tree.members texts rows path) : path.length ≤ tree.pivots.length :=
  (mem_members.mp h).2.length_le.trans_eq (length_pathOf row)

-- The groups in a group continue its path by one component and have rows.
theorem group_mem_childNodes {parent path : Path} :
    .group path ∈ tree.childNodes texts rows parent ↔
      path.dropLast = parent ∧ path ≠ [] ∧ path.length ≤ tree.pivots.length ∧
        tree.members texts rows path ≠ 0 := by
  unfold childNodes
  split
  case isFalse hbottom =>
    refine iff_of_false (by simp) ?_
    rintro ⟨rfl, hne, hlength, -⟩
    rw [List.length_dropLast] at hbottom
    have hpos := List.length_pos_of_ne_nil hne
    omega
  case isTrue hdeeper =>
    simp only [Multiset.mem_map, Multiset.mem_dedup, TreeNode.group.injEq, exists_eq_right]
    constructor
    · rintro ⟨row, hrow, rfl⟩
      obtain ⟨hmem, hstart⟩ := mem_members.mp hrow
      have hlength : ((tree.pathOf texts row).take (parent.length + 1)).length =
          parent.length + 1 := by
        rw [List.length_take, length_pathOf]
        exact Nat.min_eq_left hdeeper
      refine ⟨?_, List.ne_nil_of_length_eq_add_one hlength, hlength.trans_le hdeeper, ?_⟩
      · rw [List.dropLast_eq_take, hlength, List.take_take, Nat.add_sub_cancel,
          Nat.min_eq_left (Nat.le_succ _)]
        exact (List.prefix_iff_eq_take.mp hstart).symm
      · intro hnone
        have hself : row ∈ tree.members texts rows ((tree.pathOf texts row).take _) :=
          mem_members.mpr ⟨hmem, List.take_prefix (parent.length + 1) _⟩
        simp [hnone] at hself
    · rintro ⟨rfl, hne, -, hmembers⟩
      obtain ⟨row, hrow⟩ := Multiset.exists_mem_of_ne_zero hmembers
      obtain ⟨hmem, hstart⟩ := mem_members.mp hrow
      have hlength : path.dropLast.length + 1 = path.length := by
        rw [List.length_dropLast]
        exact Nat.sub_add_cancel (List.length_pos_of_ne_nil hne)
      exact ⟨row, mem_members.mpr ⟨hmem, (List.dropLast_prefix path).trans hstart⟩,
        hlength ▸ (List.prefix_iff_eq_take.mp hstart).symm⟩

theorem leaf_mem_childNodes {parent path : Path} {row : Row V} :
    .leaf path row ∈ tree.childNodes texts rows parent ↔
      path = parent ∧ path.length = tree.pivots.length ∧ row ∈ tree.members texts rows path := by
  unfold childNodes
  split
  case isTrue hdeeper =>
    refine iff_of_false (by simp) ?_
    rintro ⟨rfl, hlength, -⟩
    omega
  case isFalse hbottom =>
    simp only [Multiset.mem_map, TreeNode.leaf.injEq]
    constructor
    · rintro ⟨other, hother, rfl, rfl⟩
      exact ⟨rfl, (length_le_of_mem_members hother).antisymm (not_lt.mp hbottom), hother⟩
    · rintro ⟨rfl, -, hrow⟩
      exact ⟨row, hrow, rfl, rfl⟩

theorem root_notMem_childNodes {parent : Path} : .root ∉ tree.childNodes texts rows parent := by
  unfold childNodes
  split <;> simp

-- The empty path is open but not among the paths of the set.

theorem mem_open {path : Path} : path ∈ [] :: opened.paths ↔ opened.isOpen path = true := by
  rw [List.mem_cons, PathTree.mem_paths]
  by_cases hnil : path = []
  · simp [hnil, PathTree.isOpen_nil]
  · simp [hnil]

theorem nodup_open : ([] :: opened.paths).Nodup :=
  List.nodup_cons.mpr ⟨fun hmem => (PathTree.mem_paths.mp hmem).1 rfl, opened.nodup_paths⟩

variable [DecidableEq V]

-- A member that can come from one place only occurs as often as it does there.
theorem count_bind_of_unique {α β : Type} [DecidableEq α] [DecidableEq β] {places : Multiset β}
    {f : β → Multiset α} {a : α} (place : β) (hplaces : places.Nodup)
    (h : ∀ other, a ∈ f other → other = place) :
    (places.bind f).count a = if place ∈ places then (f place).count a else 0 := by
  split
  case isTrue hmem =>
    obtain ⟨others, rfl⟩ := Multiset.exists_cons_of_mem hmem
    have hothers : a ∉ others.bind f := by
      intro ha
      obtain ⟨other, hother, ha⟩ := Multiset.mem_bind.mp ha
      exact (Multiset.nodup_cons.mp hplaces).1 (h other ha ▸ hother)
    rw [Multiset.cons_bind, Multiset.count_add, Multiset.count_eq_zero_of_notMem hothers,
      Nat.add_zero]
  case isFalse hnot =>
    refine Multiset.count_eq_zero_of_notMem fun ha => ?_
    obtain ⟨other, hother, ha⟩ := Multiset.mem_bind.mp ha
    exact hnot (h other ha ▸ hother)

private theorem count_group_childNodes {parent path : Path} :
    (tree.childNodes texts rows parent).count (.group path) =
      if .group path ∈ tree.childNodes texts rows parent then 1 else 0 := by
  by_cases hdeeper : parent.length < tree.pivots.length
  · refine Multiset.count_eq_of_nodup ?_
    rw [childNodes, if_pos hdeeper]
    exact (Multiset.nodup_dedup _).map fun _ _ => TreeNode.group.inj
  · have hnone : TreeNode.group path ∉ tree.childNodes texts rows parent := by
      rw [childNodes, if_neg hdeeper]
      simp
    rw [if_neg hnone, Multiset.count_eq_zero_of_notMem hnone]

private theorem count_leaf_childNodes {path : Path} {row : Row V} :
    (tree.childNodes texts rows path).count (.leaf path row) =
      if path.length = tree.pivots.length then (tree.members texts rows path).count row else 0 := by
  split
  case isTrue hbottom =>
    rw [childNodes, if_neg hbottom.not_lt]
    exact Multiset.count_map_eq_count' _ _ (fun _ _ h => (TreeNode.leaf.inj h).2) row
  case isFalse hdeeper =>
    exact Multiset.count_eq_zero_of_notMem fun hmem => hdeeper (leaf_mem_childNodes.mp hmem).2.1

theorem count_nodes (node : TreeNode V) :
    (tree.nodes texts rows opened).count node = tree.visibleCount texts rows opened node := by
  have hopen : (([] :: opened.paths : List Path) : Multiset Path).Nodup :=
    Multiset.coe_nodup.mpr nodup_open
  rw [nodes, Multiset.count_add]
  cases node with
  | root =>
    have hnone : TreeNode.root ∉ (([] :: opened.paths : List Path) : Multiset Path).bind
        (tree.childNodes texts rows) := by
      simp [Multiset.mem_bind, root_notMem_childNodes]
    rw [Multiset.count_eq_zero_of_notMem hnone, visibleCount]
    split <;> simp
  | group path =>
    rw [count_bind_of_unique path.dropLast hopen
      (fun _ hmem => (group_mem_childNodes.mp hmem).1.symm), count_group_childNodes, visibleCount]
    simp only [Multiset.mem_coe, mem_open, group_mem_childNodes, true_and]
    split <;> split <;> simp_all
  | leaf path row =>
    rw [count_bind_of_unique path hopen (fun _ hmem => (leaf_mem_childNodes.mp hmem).1.symm),
      count_leaf_childNodes, visibleCount]
    simp only [Multiset.mem_coe, mem_open]
    split <;> split <;> simp_all

theorem visibleCount_ne_zero {node : TreeNode V} (h : node ∈ tree.nodes texts rows opened) :
    tree.visibleCount texts rows opened node ≠ 0 := by
  rw [← count_nodes]
  exact (Multiset.count_pos.mpr h).ne'

theorem showsRoot_of_mem_nodes (h : .root ∈ tree.nodes texts rows opened) :
    tree.showsRoot = true := by
  simpa [visibleCount] using visibleCount_ne_zero h

theorem group_mem_nodes {path : Path} (h : .group path ∈ tree.nodes texts rows opened) :
    path ≠ [] ∧ path.length ≤ tree.pivots.length ∧ tree.members texts rows path ≠ 0 := by
  have hvisible := visibleCount_ne_zero h
  rw [visibleCount, ite_ne_right_iff] at hvisible
  exact ⟨hvisible.1.1, hvisible.1.2.1, hvisible.1.2.2.2⟩

theorem leaf_mem_nodes {path : Path} {row : Row V}
    (h : .leaf path row ∈ tree.nodes texts rows opened) :
    path.length = tree.pivots.length ∧ opened.isOpen path = true := by
  have hvisible := visibleCount_ne_zero h
  rw [visibleCount, ite_ne_right_iff] at hvisible
  exact hvisible.1

end PivotTree

end PivotQuery
