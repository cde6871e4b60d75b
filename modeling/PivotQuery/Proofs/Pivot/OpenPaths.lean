import PivotQuery.Pivot.PathTree
import PivotQuery.Proofs.Lists

namespace PivotQuery

namespace PathNode

variable {children : List (String × PathNode)}

theorem nodup_keys (h : children.Pairwise fun a b => a.1 < b.1) :
    (children.map Prod.fst).Nodup := by
  refine List.pairwise_map.mpr (h.imp fun {a b} hlt heq => ?_)
  rw [heq] at hlt
  exact String.lt_irrefl b.1 hlt

-- A key leads to one child at most.
theorem child?_eq_some (h : children.Pairwise fun a b => a.1 < b.1) {key : String}
    {child : PathNode} : child? key children = some child ↔ (key, child) ∈ children := by
  refine ⟨mem_of_child?, fun hmem => ?_⟩
  obtain ⟨entry, hentry⟩ := Option.isSome_iff_exists.mp
    (List.find?_isSome.mpr ⟨_, hmem, by simp⟩ :
      (children.find? fun entry => entry.1 == key).isSome)
  have hfirst : entry.1 = key := by simpa using List.find?_some hentry
  have hsame := List.inj_on_of_nodup_map (nodup_keys h)
    (List.mem_of_find?_eq_some hentry) hmem hfirst
  exact Option.map_eq_some_iff.mpr ⟨entry, hentry, congrArg Prod.snd hsame⟩

theorem mem_pathsOfAll {path : Path} :
    path ∈ pathsOfAll children ↔ ∃ key child rest, (key, child) ∈ children ∧
      path = PathComponent.ofKey key :: rest ∧ (rest = [] ∨ rest ∈ child.paths) := by
  induction children with
  | nil => simp [pathsOfAll]
  | cons entry others ih =>
    obtain ⟨first, child⟩ := entry
    rw [pathsOfAll, List.mem_append, ih]
    constructor
    · rintro (hfirst | ⟨key, child', rest, hmem, hpath⟩)
      · rcases List.mem_cons.mp hfirst with rfl | hrest
        · exact ⟨first, child, [], List.mem_cons_self, rfl, Or.inl rfl⟩
        · obtain ⟨rest, hchild, rfl⟩ := List.mem_map.mp hrest
          exact ⟨first, child, rest, List.mem_cons_self, rfl, Or.inr hchild⟩
      · exact ⟨key, child', rest, List.mem_cons_of_mem _ hmem, hpath⟩
    · rintro ⟨key, child', rest, hmem, rfl, hrest⟩
      rcases List.mem_cons.mp hmem with heq | hmem
      · obtain ⟨rfl, rfl⟩ := Prod.mk.inj heq
        refine Or.inl (List.mem_cons.mpr (hrest.imp ?_ fun h => List.mem_map_of_mem h))
        rintro rfl
        rfl
      · exact Or.inr ⟨key, child', rest, hmem, rfl, hrest⟩

-- Keys are those of components, so the component that is read from one leads back to it.
theorem mem_paths {tree : PathNode} (hcanonical : tree.Canonical) {path : Path} :
    path ∈ tree.paths ↔ path ≠ [] ∧ tree.contains path = true := by
  induction path generalizing tree with
  | nil =>
    obtain ⟨children⟩ := tree
    simp [paths, mem_pathsOfAll]
  | cons component rest ih =>
    obtain ⟨children⟩ := tree
    have hall := allCanonical_iff.mp hcanonical.2
    simp only [paths, mem_pathsOfAll, contains, Option.any_eq_true, child?_eq_some hcanonical.1]
    constructor
    · rintro ⟨key, child, _, hmem, hpath, hrest⟩
      obtain ⟨rfl, rfl⟩ := List.cons.inj hpath
      obtain ⟨⟨component, hkey⟩, hchild⟩ := hall _ hmem
      obtain rfl : component.key = key := hkey
      rw [PathComponent.ofKey_key]
      refine ⟨List.cons_ne_nil _ _, child, hmem, ?_⟩
      rcases hrest with rfl | hrest
      · rfl
      · exact ((ih hchild).mp hrest).2
    · rintro ⟨-, child, hmem, hopen⟩
      refine ⟨component.key, child, rest, hmem, by rw [PathComponent.ofKey_key], ?_⟩
      by_cases hnil : rest = []
      · exact Or.inl hnil
      · exact Or.inr ((ih (hall _ hmem).2).mpr ⟨hnil, hopen⟩)

mutual

theorem nodup_paths : ∀ {tree : PathNode}, tree.Canonical → tree.paths.Nodup
  | .node _, h => nodup_pathsOfAll h.1 h.2

-- The paths through a child start with its component, and those through others do not.
theorem nodup_pathsOfAll : ∀ {children : List (String × PathNode)},
    (children.Pairwise fun a b => a.1 < b.1) → AllCanonical children → (pathsOfAll children).Nodup
  | [], _, _ => List.nodup_nil
  | (key, child) :: rest, hpairwise, ⟨⟨component, hkey⟩, hchild, hcanonical⟩ => by
    obtain ⟨hlt, hrest⟩ := List.pairwise_cons.mp hpairwise
    have hfirst : ([PathComponent.ofKey key] ::
        child.paths.map (PathComponent.ofKey key :: ·)).Nodup := by
      refine List.nodup_cons.mpr ⟨fun hmem => ?_,
        (nodup_paths hchild).map (List.cons_injective)⟩
      obtain ⟨path, hpath, heq⟩ := List.mem_map.mp hmem
      exact ((mem_paths hchild).mp hpath).1 (List.cons.inj heq).2
    refine hfirst.append (nodup_pathsOfAll hrest hcanonical) fun path hpath hother => ?_
    obtain ⟨otherKey, _, _, hmem, rfl, -⟩ := mem_pathsOfAll.mp hother
    obtain ⟨⟨other, hotherKey⟩, -⟩ := allCanonical_iff.mp hcanonical _ hmem
    have hsame : PathComponent.ofKey otherKey = PathComponent.ofKey key := by
      rcases List.mem_cons.mp hpath with heq | hmap
      · exact (List.cons.inj heq).1
      · obtain ⟨_, -, heq⟩ := List.mem_map.mp hmap
        exact (List.cons.inj heq).1.symm
    obtain rfl : other.key = otherKey := hotherKey
    rw [← hkey, PathComponent.ofKey_key, PathComponent.ofKey_key] at hsame
    exact String.lt_irrefl key (by simpa [hsame, hkey] using hlt _ hmem)

end

end PathNode

namespace PathTree

-- The paths of a set are the open ones but the empty one, each of them once.

theorem mem_paths {tree : PathTree} {path : Path} :
    path ∈ tree.paths ↔ path ≠ [] ∧ tree.isOpen path = true :=
  PathNode.mem_paths tree.canonical

theorem nodup_paths (tree : PathTree) : tree.paths.Nodup := PathNode.nodup_paths tree.canonical

theorem isOpen_nil (tree : PathTree) : tree.isOpen [] = true := rfl

end PathTree

end PivotQuery
