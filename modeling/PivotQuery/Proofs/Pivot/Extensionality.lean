import PivotQuery.Proofs.Interchange.Records
import PivotQuery.Proofs.Pivot.Enumeration
import PivotQuery.Proofs.Pivot.PrefixClosed
import Mathlib.Data.List.Infix

namespace PivotQuery

namespace PathNode

mutual

theorem beq_iff : ∀ {tree other : PathNode}, tree.beq other = true ↔ tree = other
  | .node children, .node others => by rw [beq, beqAll_iff, node.injEq]

theorem beqAll_iff : ∀ {children others : List (String × PathNode)},
    beqAll children others = true ↔ children = others
  | [], [] => by simp [beqAll]
  | [], _ :: _ => by simp [beqAll]
  | _ :: _, [] => by simp [beqAll]
  | (key, child) :: rest, (otherKey, otherChild) :: others => by
    rw [beqAll, Bool.and_eq_true, Bool.and_eq_true, beq_iff, beqAll_iff, beq_iff_eq,
      List.cons.injEq, Prod.mk.injEq]

end

section Siblings

variable {children others : List (String × PathNode)}

-- A child that is there without children of its own is told from one that is missing by the path
-- that ends there.
private theorem exists_child?_of_contains (hall : AllCanonical children)
    (h : ∀ path, (node children).contains path = (node others).contains path) {key : String}
    {child : PathNode} (hchild : child? key children = some child) :
    ∃ other, child? key others = some other ∧
      ∀ path, child.contains path = other.contains path := by
  obtain ⟨⟨component, hkey⟩, -⟩ := allCanonical_iff.mp hall _ (mem_of_child? hchild)
  obtain rfl : component.key = key := hkey
  have hthrough : ∀ path, child.contains path = (child? component.key others).any (contains path) :=
    fun path => by rw [← contains, ← h, contains, hchild, Option.any_some]
  cases hother : child? component.key others with
  | none =>
    have hend := hthrough []
    simp [hother, contains] at hend
  | some other => exact ⟨other, rfl, fun path => by rw [hthrough, hother, Option.any_some]⟩

-- Siblings are in the order of their keys, so the children behind the keys are all that there is.
private theorem siblings_eq (h : children.Pairwise fun a b => a.1 < b.1)
    (hothers : others.Pairwise fun a b => a.1 < b.1)
    (hsame : ∀ key, child? key children = child? key others) : children = others := by
  have hmem : ∀ entry, entry ∈ children ↔ entry ∈ others := fun (key, child) => by
    rw [← child?_eq_some h, ← child?_eq_some hothers, hsame]
  have hperm : children.Perm others :=
    (List.perm_ext_iff_of_nodup (nodup_keys h).of_map (nodup_keys hothers).of_map).mpr hmem
  exact hperm.eq_of_pairwise
    (fun _ _ _ _ hab hba => absurd (String.lt_trans hab hba) (String.lt_irrefl _)) h hothers

end Siblings

theorem eq_of_contains : ∀ {tree other : PathNode}, tree.Canonical → other.Canonical →
    (∀ path, tree.contains path = other.contains path) → tree = other
  | .node children, .node others, htree, hother, h => by
    refine congrArg node (siblings_eq htree.1 hother.1 fun key => ?_)
    cases hchild : child? key children with
    | none =>
      cases hfound : child? key others with
      | none => rfl
      | some found =>
        obtain ⟨child, hsome, -⟩ :=
          exists_child?_of_contains hother.2 (fun path => (h path).symm) hfound
        simp [hchild] at hsome
    | some child =>
      obtain ⟨found, hfound, hsame⟩ := exists_child?_of_contains htree.2 h hchild
      have hmem := mem_of_child? hchild
      have hcanonical := (allCanonical_iff.mp htree.2 _ hmem).2
      have hfoundCanonical := (allCanonical_iff.mp hother.2 _ (mem_of_child? hfound)).2
      have hsmaller : sizeOf child < sizeOf children := by
        have hentry := List.sizeOf_lt_of_mem hmem
        simp only [Prod.mk.sizeOf_spec] at hentry
        omega
      exact hfound ▸ congrArg some (eq_of_contains hcanonical hfoundCanonical hsame)
termination_by tree => sizeOf tree
decreasing_by
  simp only [node.sizeOf_spec]
  omega

end PathNode

namespace PathTree

instance : LawfulBEq PathTree where
  rfl := PathNode.beq_iff.mpr rfl
  eq_of_beq {a b} h := by
    obtain ⟨root, hroot⟩ := a
    obtain ⟨other, hother⟩ := b
    obtain rfl : root = other := PathNode.beq_iff.mp h
    rfl

variable {tree other : PathTree} {paths : List Path}

theorem ext_isOpen (h : ∀ path, tree.isOpen path = true ↔ other.isOpen path = true) :
    tree = other := by
  obtain ⟨root, hroot⟩ := tree
  obtain ⟨root', hroot'⟩ := other
  obtain rfl : root = root' :=
    PathNode.eq_of_contains hroot hroot' fun path => Bool.eq_iff_iff.mpr (h path)
  rfl

theorem ofPaths_congr {others : List Path} (h : ∀ path, path ∈ paths ↔ path ∈ others) :
    ofPaths paths = ofPaths others :=
  ext_isOpen fun path => by simp only [isOpen_ofPaths, h]

-- A set holds with every path all that it continues, so it loses nothing when it is listed.
theorem ofPaths_paths (tree : PathTree) : ofPaths tree.paths = tree := by
  refine ext_isOpen fun path => isOpen_ofPaths.trans ⟨?_, fun hopen => ?_⟩
  · rintro (rfl | ⟨opened, hopened, hstart⟩)
    · exact tree.isOpen_nil
    · exact PathNode.contains_of_prefix hstart (mem_paths.mp hopened).2
  · by_cases hnil : path = []
    · exact Or.inl hnil
    · exact Or.inr ⟨path, mem_paths.mpr ⟨hnil, hopen⟩, List.prefix_rfl⟩

-- Beside its proper prefixes, opening a path adds the path alone.
theorem closePath_openPath {path : Path}
    (h : ∀ start, start <+: path → start ≠ path → tree.isOpen start = true) :
    (tree.openPath path).closePath path = tree.closePath path := by
  refine ext_isOpen fun other => ?_
  rw [isOpen_closePath, isOpen_closePath, isOpen_openPath]
  refine or_congr_right (and_congr_left fun hoff => ⟨?_, Or.inl⟩)
  rintro (hopen | hstart)
  · exact hopen
  · exact h other hstart fun heq => hoff (heq ▸ List.prefix_rfl)

open Json (Gives)

theorem component_gives (component : PathComponent) :
    Gives (Json.toOption Json.toText : Json → Revived PathComponent)
      (Json.ofOption .text component) component := by
  cases component with
  | none =>
    intro other hother
    cases hother
    rfl
  | some text =>
    have htext : Json.text text ≠ .null := by simp
    exact Json.Fields.toOption_gives htext (Json.gives_text rfl)

theorem ofJson_toJson (tree : PathTree) : ofJson tree.toJson = .ok tree := by
  have hintact : tree.toJson.isIntact = true := by
    have hcomponent : ∀ component : PathComponent,
        (Json.ofOption .text component).isIntact = true := by
      rintro (- | text) <;> rfl
    simp [toJson, Path.toJson, hcomponent]
  have hpaths : Json.toList Path.ofJson tree.toJson = .ok tree.paths :=
    Json.toList_gives (fun _ _ => Json.toList_gives fun component _ => component_gives component) _
      (Json.Reordered.refl hintact)
  rw [ofJson, hpaths, Except.map, ofPaths_paths]

-- A set is equal to whatever holds the same paths, and no history of changes leaves a trace in it
-- beside them. It is made again from the paths that a walk over it yields or that are written for
-- it; their order and repetitions do not matter. Opening a path before it is closed makes no
-- difference if nothing else had to be opened for it.
theorem equal_when_the_same_paths_are_open (tree other : PathTree) :
    (∃ changes, reached changes = tree) ∧
    ((tree == other) = true ↔ ∀ path, tree.isOpen path = other.isOpen path) ∧
    (∀ yielded, tree.walk.Yields yielded → (ofPaths yielded == tree) = true) ∧
    (∃ revived, ofJson tree.toJson = .ok revived ∧ (revived == tree) = true) ∧
    (∀ paths others : List Path, (∀ path, path ∈ paths ↔ path ∈ others) →
      (ofPaths paths == ofPaths others) = true) ∧
    ∀ path, path ≠ [] → (∀ start, start <+: path → start ≠ path → tree.isOpen start = true) →
      ((tree.openPath path).closePath path == tree.closePath path) = true := by
  have hpaths : ofPaths tree.paths = tree := tree.ofPaths_paths
  simp only [beq_iff_eq]
  refine ⟨⟨[.reset tree.paths], hpaths⟩, ⟨?_, ?_⟩, fun yielded hyields => ?_,
    ⟨tree, tree.ofJson_toJson, rfl⟩, fun _ _ => ofPaths_congr, fun _ _ => closePath_openPath⟩
  · rintro rfl path
    rfl
  · exact fun h => ext_isOpen fun path => by rw [h]
  · rw [tree.yields_paths.unique hyields, hpaths]

theorem equal_when_the_same_paths_are_open_nullCity :
    (ofPaths [[some "US", none], [some "US"]] == ofPaths [[some "US"], [some "US", none]]) = true ∧
      (ofPaths (ofPaths [[some "US", none]]).paths == ofPaths [[some "US", none]]) = true ∧
      (((ofPaths [[some "US", none]]).openPath [some "US", some "0"]).closePath
        [some "US", some "0"] ==
          (ofPaths [[some "US", none]]).closePath [some "US", some "0"]) = true := by
  obtain ⟨-, -, hyields, -, hreordered, hclosed⟩ :=
    equal_when_the_same_paths_are_open (ofPaths [[some "US", none]]) empty
  have hstarts : ∀ start ∈ [some "US", some "0"].inits, start ≠ [some "US", some "0"] →
      (ofPaths [[some "US", none]]).isOpen start = true := by decide
  refine ⟨hreordered _ _ fun path => ?_, hyields _ (yields_paths _), hclosed _ (by decide) ?_⟩
  · simp [or_comm]
  · exact fun start hstart => hstarts start ((List.mem_inits _ _).mpr hstart)

end PathTree

end PivotQuery
