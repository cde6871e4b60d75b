import PivotQuery.Proofs.ByteOrder
import PivotQuery.Proofs.Pivot.OpenPaths

namespace PivotQuery

namespace PathComponent

-- NULL comes before every text, and texts are in the order of their bytes.
inductive Before : PathComponent → PathComponent → Prop
  | null (text : String) : Before none (some text)
  | text {a b : String} (h : Text.utf8 a < Text.utf8 b) : Before (some a) (some b)

private theorem toList_key_some (text : String) :
    (key (some text)).toList = '1' :: text.toList := by
  simp [key]

private theorem before_of_key_lt {a b : PathComponent} (h : a.key < b.key) : a.Before b := by
  have hchars : a.key.toList < b.key.toList := h
  cases a with
  | none =>
    cases b with
    | none => exact absurd h (String.lt_irrefl _)
    | some text => exact .null text
  | some text =>
    rw [toList_key_some] at hchars
    cases b with
    | none =>
      have hnull : (key none).toList = ['0'] := rfl
      rw [hnull, List.cons_lt_cons_iff] at hchars
      simp at hchars
    | some other =>
      rw [toList_key_some, List.cons_lt_cons_iff] at hchars
      exact .text (Text.utf8_lt (hchars.resolve_left (by decide)).2)

end PathComponent

-- Paths in the order of their first different components, each before those that continue it.
def Path.Before : Path → Path → Prop := List.Lex PathComponent.Before

namespace PathNode

mutual

theorem pairwise_paths : ∀ {tree : PathNode}, tree.Canonical → tree.paths.Pairwise Path.Before
  | .node _, h => pairwise_pathsOfAll h.1 h.2

-- What comes through a child comes before all that comes through a later one.
theorem pairwise_pathsOfAll : ∀ {children : List (String × PathNode)},
    (children.Pairwise fun a b => a.1 < b.1) → AllCanonical children →
      (pathsOfAll children).Pairwise Path.Before
  | [], _, _ => List.Pairwise.nil
  | (key, child) :: rest, hpairwise, ⟨⟨component, hkey⟩, hchild, hcanonical⟩ => by
    obtain ⟨hlt, hrest⟩ := List.pairwise_cons.mp hpairwise
    refine List.pairwise_append.mpr ⟨?_, pairwise_pathsOfAll hrest hcanonical, ?_⟩
    · refine List.pairwise_cons.mpr ⟨fun path hpath => ?_, ?_⟩
      · obtain ⟨behind, hbehind, rfl⟩ := List.mem_map.mp hpath
        obtain ⟨first, others, rfl⟩ :=
          List.exists_cons_of_ne_nil ((mem_paths hchild).mp hbehind).1
        exact .cons .nil
      · exact List.pairwise_map.mpr ((pairwise_paths hchild).imp .cons)
    · intro path hpath later hlater
      obtain ⟨otherKey, otherChild, behind', hmem, rfl, -⟩ := mem_pathsOfAll.mp hlater
      obtain ⟨⟨other, hother⟩, -⟩ := allCanonical_iff.mp hcanonical _ hmem
      obtain rfl : other.key = otherKey := hother
      have hfirst : ∃ behind, path = component :: behind := by
        rw [← hkey, PathComponent.ofKey_key] at hpath
        rcases List.mem_cons.mp hpath with rfl | hmap
        · exact ⟨[], rfl⟩
        · obtain ⟨behind, -, rfl⟩ := List.mem_map.mp hmap
          exact ⟨behind, rfl⟩
      obtain ⟨behind, rfl⟩ := hfirst
      rw [PathComponent.ofKey_key]
      exact .rel (PathComponent.before_of_key_lt (hkey ▸ hlt _ hmem))

end

mutual

theorem length_paths : ∀ tree : PathNode, tree.paths.length = tree.size
  | .node children => length_pathsOfAll children

theorem length_pathsOfAll : ∀ children : List (String × PathNode),
    (pathsOfAll children).length = sizeOfAll children
  | [] => rfl
  | (key, child) :: rest => by
    have hchild := length_paths child
    have hrest := length_pathsOfAll rest
    simp only [pathsOfAll, sizeOfAll, List.length_append, List.length_cons, List.length_map]
    omega

end

theorem paths_eq_nil {tree : PathNode} : tree.paths = [] ↔ tree.children = [] := by
  obtain ⟨children⟩ := tree
  cases children with
  | nil => simp [paths, pathsOfAll, children]
  | cons entry rest => simp [paths, pathsOfAll, children]

end PathNode

namespace PathTree

namespace Walk

open PathNode (pathsOfAll)

-- What is still to come at each level, behind the trail that leads to it.
def remaining : List (List (String × PathNode)) → List String → List Path
  | [], _ => []
  | siblings :: outer, trail =>
    (pathsOfAll siblings).map (trail.reverse.map PathComponent.ofKey ++ ·) ++
      remaining outer trail.tail

-- A step takes away the first path of what is still to come.
theorem remaining_next? (levels : List (List (String × PathNode))) (trail : List String) :
    match next? levels trail with
    | none => remaining levels trail = []
    | some (path, walk) => remaining levels trail = path :: remaining walk.levels walk.trail := by
  fun_induction next? levels trail with
  | case1 => rfl
  | case2 trail outer ih => simpa [remaining, pathsOfAll] using ih
  | case3 key child siblings outer trail extended =>
    obtain ⟨children⟩ := child
    simp [remaining, pathsOfAll, PathNode.paths, PathNode.children, extended]

-- What a walk yields until it comes to its end.
inductive Yields : Walk → List Path → Prop
  | done {walk : Walk} (h : next? walk.levels walk.trail = none) : Yields walk []
  | step {walk next : Walk} {path : Path} {rest : List Path}
    (h : next? walk.levels walk.trail = some (path, next)) (hrest : Yields next rest) :
    Yields walk (path :: rest)

theorem yields_remaining (walk : Walk) : walk.Yields (remaining walk.levels walk.trail) := by
  generalize hpaths : remaining walk.levels walk.trail = paths
  induction paths generalizing walk with
  | nil =>
    have hstep := remaining_next? walk.levels walk.trail
    cases hnext : next? walk.levels walk.trail with
    | none => exact .done hnext
    | some found => simp [hnext, hpaths] at hstep
  | cons path rest ih =>
    have hstep := remaining_next? walk.levels walk.trail
    cases hnext : next? walk.levels walk.trail with
    | none => simp [hnext, hpaths] at hstep
    | some found =>
      rw [hnext, hpaths] at hstep
      obtain ⟨rfl, hrest⟩ := List.cons.inj hstep
      exact .step hnext (ih found.2 hrest.symm)

variable {walk : Walk} {paths others : List Path}

theorem Yields.unique (h : walk.Yields paths) (hothers : walk.Yields others) : others = paths := by
  induction h generalizing others with
  | done hnone =>
    cases hothers with
    | done => rfl
    | step hsome => simp [hnone] at hsome
  | step hsome _ ih =>
    cases hothers with
    | done hnone => simp [hsome] at hnone
    | step hsome' hrest =>
      obtain ⟨rfl, rfl⟩ := Prod.mk.inj (Option.some.inj (hsome.symm.trans hsome'))
      rw [ih hrest]

theorem Yields.take (h : walk.Yields paths) (count : Nat) : walk.take count = paths.take count := by
  induction h generalizing count with
  | done hnone => cases count <;> simp [Walk.take, hnone]
  | step hsome _ ih => cases count <;> simp [Walk.take, hsome, ih]

end Walk

theorem yields_paths (tree : PathTree) : tree.walk.Yields tree.paths := by
  have hpaths : Walk.remaining tree.walk.levels tree.walk.trail = tree.paths := by
    obtain ⟨⟨children⟩, -⟩ := tree
    simp [walk, Walk.remaining, paths, PathNode.paths, PathNode.children]
  exact hpaths ▸ Walk.yields_remaining tree.walk

-- A walk over a set of open paths comes to an end. It yields each of them but the empty one once,
-- and in their order.
theorem walk_enumerates_open_paths (tree : PathTree) :
    ∃ yielded, (∀ others, tree.walk.Yields others ↔ others = yielded) ∧
      (∀ count, tree.walk.take count = yielded.take count) ∧
      (∀ path, path ∈ yielded ↔ path ≠ [] ∧ tree.isOpen path = true) ∧
      yielded.Nodup ∧ yielded.Pairwise Path.Before ∧
      yielded.length = tree.size ∧ (tree.isEmpty = true ↔ yielded = []) := by
  have hyields := tree.yields_paths
  refine ⟨tree.paths, fun others => ⟨hyields.unique, fun h => h ▸ hyields⟩, hyields.take,
    fun path => mem_paths, tree.nodup_paths, PathNode.pairwise_paths tree.canonical,
    PathNode.length_paths tree.root, ?_⟩
  rw [isEmpty, List.isEmpty_iff, paths, PathNode.paths_eq_nil]

example : (ofPaths [[some "b", some "x"], [some ""], [none]]).walk.take 5 =
    [[none], [some ""], [some "b"], [some "b", some "x"]] := by decide

end PathTree

end PivotQuery
