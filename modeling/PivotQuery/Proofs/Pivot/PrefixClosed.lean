import PivotQuery.Interchange.Pivot
import PivotQuery.Proofs.Pivot.OpenPaths

namespace PivotQuery

namespace PathNode

variable {children : List (String × PathNode)}

private theorem child?_insertSorted (key other : String) (child : PathNode) :
    child? other (NameMap.insertSorted key child children) =
      if key = other then some child else child? other children := by
  rw [child?, NameMap.find?_insertSorted]
  split <;> rfl

private theorem child?_filter (key other : String) :
    child? other (children.filter fun entry => entry.1 != key) =
      if key = other then none else child? other children := by
  rw [child?, List.find?_filter]
  split
  · rename_i h
    subst h
    simp
  · rename_i h
    rw [child?]
    congr 2
    funext entry
    by_cases hentry : entry.1 = other
    · simp [hentry, Ne.symm h]
    · simp [hentry]

private theorem child?_map (change : String → PathNode → PathNode) (key : String) :
    child? key (children.map fun entry => (entry.1, change entry.1 entry.2)) =
      (child? key children).map (change key) := by
  induction children with
  | nil => rfl
  | cons entry rest ih =>
    simp only [child?, List.map_cons, List.find?_cons] at ih ⊢
    by_cases h : entry.1 = key
    · simp [h]
    · have hne : (entry.1 == key) = false := by simpa using h
      simp only [hne, ih]

theorem contains_cons {component : PathComponent} {rest : Path} :
    contains (component :: rest) (.node children) = true ↔
      ∃ child, child? component.key children = some child ∧ child.contains rest = true := by
  rw [contains, Option.any_eq_true]

@[simp] theorem contains_empty {path : Path} : empty.contains path = true ↔ path = [] := by
  cases path <;> simp [empty, contains, child?]

-- Inserting a path makes its prefixes members and leaves everything else as it was.
theorem contains_insert {path other : Path} {tree : PathNode} :
    (insert path tree).contains other = true ↔ tree.contains other = true ∨ other <+: path := by
  induction path generalizing tree other with
  | nil =>
    cases other with
    | nil => simp [contains]
    | cons => simp [insert]
  | cons component rest ih =>
    obtain ⟨children⟩ := tree
    cases other with
    | nil => simp [contains]
    | cons first others =>
      simp only [insert, contains_cons, child?_insertSorted, PathComponent.key_inj,
        List.cons_prefix_cons]
      by_cases h : component = first
      · subst h
        simp only [if_true, Option.some.injEq, exists_eq_left', ih, true_and]
        -- a child that was missing starts out empty, and the empty path is a prefix anyway
        cases child? component.key children with
        | none => simp +contextual
        | some child => simp
      · simp [h, Ne.symm h]

-- Erasing a path takes away exactly what it is a prefix of, and the empty path never leaves.
theorem contains_erase {path other : Path} {tree : PathNode} :
    (erase path tree).contains other = true ↔
      other = [] ∨ tree.contains other = true ∧ ¬path <+: other := by
  induction path generalizing tree other with
  | nil => simp [erase]
  | cons component rest ih =>
    obtain ⟨children⟩ := tree
    cases other with
    | nil => cases rest <;> simp [contains]
    | cons first others =>
      cases rest with
      | nil =>
        simp only [erase, contains_cons, child?_filter, PathComponent.key_inj,
          List.cons_prefix_cons, List.nil_prefix, and_true]
        by_cases h : component = first <;> simp [h]
      | cons next rest =>
        have hmap : (children.map fun entry => if entry.1 = component.key then
            (entry.1, erase (next :: rest) entry.2) else entry) =
            children.map fun entry => (entry.1, if entry.1 = component.key then
              erase (next :: rest) entry.2 else entry.2) := by
          refine List.map_congr_left fun entry _ => ?_
          split <;> rfl
        simp only [erase, hmap, contains_cons, List.cons_prefix_cons]
        rw [child?_map fun key child => if key = component.key then
          erase (next :: rest) child else child]
        by_cases h : component = first
        · subst h
          cases child? component.key children with
          | none => simp
          | some child =>
            simp only [Option.map_some, if_true, Option.some.injEq, exists_eq_left', ih]
            cases others with
            | nil => simp [contains]
            | cons => simp
        · cases hchild : child? first.key children <;>
            simp [h, PathComponent.key_inj, Ne.symm h]

theorem contains_trim {depth : Nat} {path : Path} {tree : PathNode} :
    (trim depth tree).contains path = true ↔ tree.contains path = true ∧ path.length ≤ depth := by
  induction depth generalizing path tree with
  | zero => cases path <;> simp [trim, contains]
  | succ depth ih =>
    obtain ⟨children⟩ := tree
    cases path with
    | nil => simp [contains]
    | cons component rest =>
      simp only [trim, contains_cons, child?_map fun _ child => trim depth child,
        List.length_cons, Nat.add_le_add_iff_right]
      cases child? component.key children <;> simp [ih]

theorem contains_of_prefix {path other : Path} {tree : PathNode} (hstart : other <+: path)
    (h : tree.contains path = true) : tree.contains other = true := by
  induction other generalizing path tree with
  | nil => simp [contains]
  | cons component rest ih =>
    obtain ⟨children⟩ := tree
    obtain ⟨behind, rfl⟩ := hstart
    obtain ⟨child, hchild, hrest⟩ := contains_cons.mp h
    exact contains_cons.mpr ⟨child, hchild, ih (List.prefix_append rest behind) hrest⟩

end PathNode

namespace PathTree

variable {tree : PathTree} {path other : Path}

theorem isOpen_empty : empty.isOpen path = true ↔ path = [] := PathNode.contains_empty

theorem isOpen_openPath :
    (tree.openPath path).isOpen other = true ↔ tree.isOpen other = true ∨ other <+: path :=
  PathNode.contains_insert

theorem isOpen_closePath :
    (tree.closePath path).isOpen other = true ↔
      other = [] ∨ tree.isOpen other = true ∧ ¬path <+: other :=
  PathNode.contains_erase

theorem isOpen_trimToDepth {depth : Nat} :
    (tree.trimToDepth depth).isOpen path = true ↔
      tree.isOpen path = true ∧ path.length ≤ depth :=
  PathNode.contains_trim

theorem isOpen_foldl_openPath {paths : List Path} :
    (paths.foldl openPath tree).isOpen path = true ↔
      tree.isOpen path = true ∨ ∃ opened ∈ paths, path <+: opened := by
  induction paths generalizing tree with
  | nil => simp
  | cons first rest ih => simp [ih, isOpen_openPath, or_assoc]

theorem isOpen_ofPaths {paths : List Path} :
    (ofPaths paths).isOpen path = true ↔ path = [] ∨ ∃ opened ∈ paths, path <+: opened := by
  rw [ofPaths, isOpen_foldl_openPath, isOpen_empty]

-- What can become of a set of open paths. A reset makes it anew from a list of paths, none of
-- them for an empty set; what is revived is the list of paths in a JSON value, and a value that
-- is no such list changes nothing.
inductive Change
  | reset (paths : List Path)
  | openPath (path : Path)
  | closePath (path : Path)
  | trim (depth : Nat)
  | revive (json : Json)

namespace Change

def apply (tree : PathTree) : Change → PathTree
  | .reset paths => .ofPaths paths
  | .openPath path => tree.openPath path
  | .closePath path => tree.closePath path
  | .trim depth => tree.trimToDepth depth
  | .revive json => (PathTree.ofJson json).toOption.getD tree

-- The same for a set of paths.
def applyToSet (opened : Set Path) : Change → Set Path
  | .reset paths => {path | path = [] ∨ ∃ whole ∈ paths, path <+: whole}
  | .openPath path => opened ∪ {other | other <+: path}
  | .closePath path => {other | other = [] ∨ other ∈ opened ∧ ¬path <+: other}
  | .trim depth => {path ∈ opened | path.length ≤ depth}
  | .revive json =>
    match Json.toList Path.ofJson json with
    | .ok paths => {path | path = [] ∨ ∃ whole ∈ paths, path <+: whole}
    | .error _ => opened

theorem isOpen_apply (tree : PathTree) (change : Change) :
    {path | (change.apply tree).isOpen path = true} =
      change.applyToSet {path | tree.isOpen path = true} := by
  ext path
  cases change with
  | reset paths => exact isOpen_ofPaths
  | openPath path => exact isOpen_openPath
  | closePath path => exact isOpen_closePath
  | trim depth => exact isOpen_trimToDepth
  | revive json =>
    simp only [apply, applyToSet, ofJson]
    cases Json.toList Path.ofJson json with
    | error => rfl
    | ok paths => exact isOpen_ofPaths

end Change

-- The set of open paths after some changes of an empty one.
def reached (changes : List Change) : PathTree := changes.foldl Change.apply .empty

theorem isOpen_foldl_apply (tree : PathTree) (changes : List Change) :
    {path | (changes.foldl Change.apply tree).isOpen path = true} =
      changes.foldl Change.applyToSet {path | tree.isOpen path = true} := by
  induction changes generalizing tree with
  | nil => rfl
  | cons change rest ih => rw [List.foldl_cons, List.foldl_cons, ih, Change.isOpen_apply]

-- Whatever has been done to it, a tree holds the paths that the changes leave in a set of paths
-- and always their prefixes, and each operation does to it what it does to such a set. Paths
-- that differ in a component are different, whether it is NULL, an empty text or any other one.
theorem reached_trees_are_prefix_closed_sets (changes : List Change) :
    {path | (reached changes).isOpen path = true} = changes.foldl Change.applyToSet {[]} ∧
    (∀ path other, ((reached changes).openPath path).isOpen other = true ↔
      (reached changes).isOpen other = true ∨ other <+: path) ∧
    (∀ path other, ((reached changes).closePath path).isOpen other = true ↔
      other = [] ∨ (reached changes).isOpen other = true ∧ ¬path <+: other) ∧
    (∀ depth path, ((reached changes).trimToDepth depth).isOpen path = true ↔
      (reached changes).isOpen path = true ∧ path.length ≤ depth) ∧
    (∀ paths path, (ofPaths paths).isOpen path = true ↔
      path = [] ∨ ∃ opened ∈ paths, path <+: opened) ∧
    (∀ path other, other <+: path → (reached changes).isOpen path = true →
      (reached changes).isOpen other = true) ∧
    ∀ path component other,
      (ofPaths [path ++ [component]]).isOpen (path ++ [other]) = true ↔ other = component := by
  refine ⟨?_, fun _ _ => isOpen_openPath, fun _ _ => isOpen_closePath,
    fun _ _ => isOpen_trimToDepth, fun _ _ => isOpen_ofPaths,
    fun _ _ hstart hopen => PathNode.contains_of_prefix hstart hopen,
    fun path component other => ?_⟩
  · rw [reached, isOpen_foldl_apply]
    congr 1
    ext path
    exact isOpen_empty
  · simp [isOpen_ofPaths, List.prefix_append_right_inj, List.cons_prefix_cons]

theorem reached_trees_are_prefix_closed_sets_nullCity :
    [some "US"] <+: [some "US", none] ∧
      (reached [.reset [[some "US", none]], .closePath [some "US", some "0"],
        .trim 2]).isOpen [some "US", none] = true ∧
      (reached [.reset [[some "US", none]], .closePath [some "US", some "0"],
        .trim 2]).isOpen [some "US"] = true := by
  have hstart : [some "US"] <+: [some "US", none] := by decide
  have hopen : (reached [.reset [[some "US", none]], .closePath [some "US", some "0"],
      .trim 2]).isOpen [some "US", none] = true := by decide
  obtain ⟨-, -, -, -, -, hclosed, -⟩ := reached_trees_are_prefix_closed_sets
    [.reset [[some "US", none]], .closePath [some "US", some "0"], .trim 2]
  exact ⟨hstart, hopen, hclosed _ _ hstart hopen⟩

end PathTree

end PivotQuery
