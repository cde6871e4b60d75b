import PivotQuery.Pivot.PathNode

namespace PivotQuery

-- The open nodes of a tree, as a set of paths. A path is open only if the paths that
-- it continues are, and the empty path always is. Equal sets are equal trees.
structure PathTree where
  root : PathNode := .empty
  canonical : root.Canonical := by exact PathNode.canonical_empty

namespace PathTree

def empty : PathTree := {}

def openPath (tree : PathTree) (path : Path) : PathTree :=
  ⟨tree.root.insert path, PathNode.canonical_insert path tree.canonical⟩

def closePath (tree : PathTree) (path : Path) : PathTree :=
  ⟨tree.root.erase path, PathNode.canonical_erase path tree.canonical⟩

def trimToDepth (tree : PathTree) (depth : Nat) : PathTree :=
  ⟨tree.root.trim depth, PathNode.canonical_trim depth tree.canonical⟩

def ofPaths (paths : List Path) : PathTree := paths.foldl openPath empty

def isOpen (tree : PathTree) (path : Path) : Bool := tree.root.contains path

def size (tree : PathTree) : Nat := tree.root.size

def isEmpty (tree : PathTree) : Bool := tree.root.children.isEmpty

def paths (tree : PathTree) : List Path := tree.root.paths

instance : BEq PathTree := ⟨fun a b => a.root == b.root⟩

-- A walk over the paths, one at a time. Each level holds the siblings that are still to come, the
-- innermost level first, and the trail holds the keys that lead to it, the last one first.
structure Walk where
  levels : List (List (String × PathNode))
  trail : List String

def walk (tree : PathTree) : Walk := ⟨[tree.root.children], []⟩

namespace Walk

-- The next path, and the walk behind it: down to the children of the last path, or
-- up to the nearest level that is not used up.
def next? : List (List (String × PathNode)) → List String → Option (Path × Walk)
  | [], _ => none
  | [] :: outer, trail => next? outer trail.tail
  | ((key, child) :: siblings) :: outer, trail =>
    let trail := key :: trail
    some (trail.reverse.map PathComponent.ofKey, ⟨child.children :: siblings :: outer, trail⟩)

def take (walk : Walk) : Nat → List Path
  | 0 => []
  | count + 1 =>
    match next? walk.levels walk.trail with
    | none => []
    | some (path, walk) => path :: walk.take count

end Walk

end PathTree

end PivotQuery
