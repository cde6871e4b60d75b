import PivotQuery.NameMap

namespace PivotQuery

-- A group value of a pivot column; `none` is NULL, which is no text and comes
-- before every text.
abbrev PathComponent := Option String

abbrev Path := List PathComponent

namespace PathComponent

-- The key under which a component is kept. NULL has a key that is shared with no text, and
-- the order of keys is that of components.
def key : PathComponent → String
  | none => "0"
  | some text => "1" ++ text

def ofKey (key : String) : PathComponent :=
  match key.toList with
  | '1' :: rest => some (String.ofList rest)
  | _ => none

theorem ofKey_key (component : PathComponent) : ofKey component.key = component := by
  cases component with
  | none => rfl
  | some text => simp [key, ofKey]

theorem key_inj {a b : PathComponent} : a.key = b.key ↔ a = b :=
  ⟨fun h => by rw [← ofKey_key a, h, ofKey_key], fun h => h ▸ rfl⟩

end PathComponent

-- A set of paths that holds every path it continues, as a tree: the keys of the components
-- that may come first, in ascending order, each with what may follow it.
inductive PathNode
  | node (children : List (String × PathNode))

namespace PathNode

mutual

def Canonical : PathNode → Prop
  | .node children => children.Pairwise (fun a b => a.1 < b.1) ∧ AllCanonical children

def AllCanonical : List (String × PathNode) → Prop
  | [] => True
  | (key, child) :: rest =>
    (∃ component, PathComponent.key component = key) ∧ child.Canonical ∧ AllCanonical rest

end

theorem allCanonical_iff {children : List (String × PathNode)} :
    AllCanonical children ↔ ∀ entry ∈ children,
      (∃ component, PathComponent.key component = entry.1) ∧ entry.2.Canonical := by
  induction children with
  | nil => simp [AllCanonical]
  | cons entry rest ih => simp [AllCanonical, ih, and_assoc]

def children : PathNode → List (String × PathNode)
  | .node children => children

def empty : PathNode := .node []

theorem canonical_empty : empty.Canonical := ⟨List.Pairwise.nil, trivial⟩

def child? (key : String) (children : List (String × PathNode)) : Option PathNode :=
  (children.find? fun entry => entry.1 == key).map Prod.snd

theorem mem_of_child? {key : String} {children : List (String × PathNode)} {child : PathNode}
    (h : child? key children = some child) : (key, child) ∈ children := by
  obtain ⟨entry, hentry, rfl⟩ := Option.map_eq_some_iff.mp h
  obtain rfl : entry.1 = key := by simpa using List.find?_some hentry
  exact List.mem_of_find?_eq_some hentry

-- With a path, all paths that it continues. What is missing on the way starts out empty.
def insert : Path → PathNode → PathNode
  | [], tree => tree
  | component :: rest, .node children =>
    let child := (child? component.key children).getD empty
    .node (NameMap.insertSorted component.key (insert rest child) children)

theorem canonical_insert (path : Path) {tree : PathNode} (h : tree.Canonical) :
    (insert path tree).Canonical := by
  induction path generalizing tree with
  | nil => exact h
  | cons component rest ih =>
    obtain ⟨children⟩ := tree
    have hall := allCanonical_iff.mp h.2
    have hchild : ((child? component.key children).getD empty).Canonical := by
      cases hfound : child? component.key children with
      | none => exact canonical_empty
      | some child => exact (hall _ (mem_of_child? hfound)).2
    refine ⟨NameMap.sorted_insertSorted _ _ h.1, allCanonical_iff.mpr fun entry hmem => ?_⟩
    rcases NameMap.mem_insertSorted hmem with rfl | hmem
    · exact ⟨⟨component, rfl⟩, ih hchild⟩
    · exact hall entry hmem

-- Without a path and all that continues it. The empty path is continued by every path.
def erase : Path → PathNode → PathNode
  | [], _ => empty
  | [component], .node children => .node (children.filter fun entry => entry.1 != component.key)
  | component :: next :: rest, .node children =>
    .node (children.map fun entry =>
      if entry.1 = component.key then (entry.1, erase (next :: rest) entry.2) else entry)

theorem canonical_erase (path : Path) {tree : PathNode} (h : tree.Canonical) :
    (erase path tree).Canonical := by
  induction path generalizing tree with
  | nil => exact canonical_empty
  | cons component rest ih =>
    obtain ⟨children⟩ := tree
    have hall := allCanonical_iff.mp h.2
    cases rest with
    | nil =>
      refine ⟨h.1.filter _, allCanonical_iff.mpr fun entry hmem => ?_⟩
      exact hall entry (List.mem_filter.mp hmem).1
    | cons next rest =>
      refine ⟨List.pairwise_map.mpr (h.1.imp ?_), allCanonical_iff.mpr fun entry hmem => ?_⟩
      · intro a b hab
        split <;> split <;> exact hab
      · obtain ⟨old, hold, rfl⟩ := List.mem_map.mp hmem
        split
        · exact ⟨(hall old hold).1, ih (hall old hold).2⟩
        · exact hall old hold

-- Without the paths that are longer than a depth.
def trim : Nat → PathNode → PathNode
  | 0, _ => empty
  | depth + 1, .node children => .node (children.map fun entry => (entry.1, trim depth entry.2))

theorem canonical_trim (depth : Nat) {tree : PathNode} (h : tree.Canonical) :
    (trim depth tree).Canonical := by
  induction depth generalizing tree with
  | zero => exact canonical_empty
  | succ depth ih =>
    obtain ⟨children⟩ := tree
    refine ⟨List.pairwise_map.mpr h.1, allCanonical_iff.mpr fun entry hmem => ?_⟩
    obtain ⟨old, hold, rfl⟩ := List.mem_map.mp hmem
    have hchild := allCanonical_iff.mp h.2 old hold
    exact ⟨hchild.1, ih hchild.2⟩

def contains : Path → PathNode → Bool
  | [], _ => true
  | component :: rest, .node children => (child? component.key children).any (contains rest)

mutual

-- How many paths there are, without the empty one.
def size : PathNode → Nat
  | .node children => sizeOfAll children

def sizeOfAll : List (String × PathNode) → Nat
  | [] => 0
  | (_, child) :: rest => 1 + child.size + sizeOfAll rest

end

mutual

-- The paths without the empty one, each before those that continue it.
def paths : PathNode → List Path
  | .node children => pathsOfAll children

def pathsOfAll : List (String × PathNode) → List Path
  | [] => []
  | (key, child) :: rest =>
    [PathComponent.ofKey key] :: child.paths.map (PathComponent.ofKey key :: ·) ++ pathsOfAll rest

end

mutual

def beq : PathNode → PathNode → Bool
  | .node children, .node children' => beqAll children children'

def beqAll : List (String × PathNode) → List (String × PathNode) → Bool
  | [], [] => true
  | (a, t) :: as, (b, u) :: bs => a == b && t.beq u && beqAll as bs
  | _, _ => false

end

instance : BEq PathNode := ⟨beq⟩

end PathNode

end PivotQuery
