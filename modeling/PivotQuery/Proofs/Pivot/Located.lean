import PivotQuery.Proofs.Pivot.Extension
import PivotQuery.Proofs.Pivot.NodeRows

namespace PivotQuery

section Conjunctions

variable {V : Type} [DecidableEq V] {engine : Engine V} {read : String → V}

omit [DecidableEq V] in
theorem BoolOp.combine_and_eq_true {truths : List (Option Bool)} :
    BoolOp.and.combine truths = some true ↔ ∀ truth ∈ truths, truth = some true := by
  cases truths with
  | nil => simp [combine]
  | cons first rest =>
    simp only [combine, List.isEmpty_cons, Bool.false_eq_true, if_false]
    split
    case isTrue hfalse => exact iff_of_false (by simp) fun hall => by simpa using hall _ hfalse
    case isFalse hfalse =>
      split
      case isTrue hnone => exact iff_of_false (by simp) fun hall => by simpa using hall _ hnone
      case isFalse hnone =>
        refine iff_of_true (by simp) fun truth htruth => ?_
        match truth, htruth with
        | none, hmem => exact absurd hmem hnone
        | some false, hmem => exact absurd hmem hfalse
        | some true, _ => rfl

theorem Clause.truths_eq_map (clauses : List Clause) :
    Clause.truths engine read clauses = clauses.map (Clause.truth engine read) := by
  induction clauses with
  | nil => rfl
  | cons clause rest ih => simp [Clause.truths, ih]

theorem Filter.holds_and {clauses : List Clause} :
    (Filter.mk .and clauses).holds engine read = true ↔
      ∀ clause ∈ clauses, clause.truth engine read = some true := by
  rw [Filter.holds, Filter.toClause, Clause.truth, Clause.truths_eq_map, beq_iff_eq,
    BoolOp.combine_and_eq_true, List.forall_mem_map]

omit [DecidableEq V] in
theorem Clause.mem_columnsOfAll {clauses : List Clause} {id : String} :
    id ∈ Clause.columnsOfAll clauses ↔ ∃ clause ∈ clauses, id ∈ clause.columns := by
  induction clauses with
  | nil => simp [Clause.columnsOfAll]
  | cons clause rest ih => simp [Clause.columnsOfAll, ih]

end Conjunctions

namespace PivotTree

-- What a path says of one pivot column.
def componentClause (pivot : String) : PathComponent → Clause
  | none => .relation (.unary .isNull (.column pivot))
  | some value =>
    .relation (.binary (.compare .eq) (.asString (.column pivot)) (.constant (.text value)))

theorem pathCondition_eq (pivots : List String) (path : Path) :
    pathCondition pivots path =
      ⟨.and, (pivots.zip path).map fun entry => componentClause entry.1 entry.2⟩ := by
  refine congrArg (Filter.mk .and) (List.map_congr_left fun entry _ => ?_)
  obtain ⟨pivot, component⟩ := entry
  cases component <;> rfl

private theorem columns_pathCondition {pivots : List String} {path : Path} {id : String}
    (h : id ∈ (pathCondition pivots path).columns) : id ∈ pivots := by
  rw [pathCondition_eq] at h
  obtain ⟨clause, hclause, hid⟩ := Clause.mem_columnsOfAll.mp h
  obtain ⟨⟨pivot, component⟩, hpair, rfl⟩ := List.mem_map.mp hclause
  have hpivot : id = pivot := by
    cases component <;>
      simpa [componentClause, Clause.columns, RelExp.columns, RelExp.operands,
        ValueExpr.columns] using hid
  exact hpivot ▸ (List.of_mem_zip hpair).1

variable {V : Type} [DecidableEq V] {engine : Engine V} {texts : engine.Texts}

variable (texts) in
private theorem truth_componentClause (pivot : String) (component : PathComponent)
    (read : String → V) :
    (componentClause pivot component).truth engine read = some true ↔
      component = texts.asText (read pivot) := by
  cases component with
  | none =>
    simp [componentClause, Clause.truth, RelExp.truth, ValueExpr.eval, ← texts.asText_eq_none,
      eq_comm]
  | some text =>
    simp only [componentClause, Clause.truth, RelExp.truth, ValueExpr.eval]
    rw [← texts.component_asText, texts.eq_component, eq_comm]

-- The condition of a path holds where the pivot columns, as texts, start with it.
theorem holds_pathCondition {pivots : List String} {path : Path}
    (h : path.length ≤ pivots.length) (read : String → V) :
    (pathCondition pivots path).holds engine read = true ↔
      path <+: pivots.map fun pivot => texts.asText (read pivot) := by
  rw [pathCondition_eq, Filter.holds_and, List.forall_mem_map]
  simp only [truth_componentClause texts]
  induction pivots generalizing path with
  | nil =>
    obtain rfl := List.eq_nil_of_length_eq_zero (Nat.le_zero.mp h)
    simp
  | cons pivot rest ih =>
    cases path with
    | nil => simp
    | cons component others =>
      rw [List.map_cons, List.cons_prefix_cons, ← ih (Nat.le_of_succ_le_succ h),
        List.zip_cons_cons, List.forall_mem_cons]

omit [DecidableEq V] in
theorem eval_pathValue_of_lt {path : Path} {level : Nat} (h : level < path.length)
    (read : String → V) :
    (pathValue path level).eval engine read = engine.component path[level]?.join := by
  rw [pathValue, List.getElem?_eq_getElem h]
  cases path[level] <;> rfl

omit [DecidableEq V] in
-- The path of a child, as its parent's branch computes it from the child's own value.
theorem eval_pathValue {path : Path} {level : Nat} {read : String → V} {own : PathComponent}
    (h : read pivotColumn = engine.component own) :
    (pathValue path level).eval engine read = engine.component (path ++ [own])[level]?.join := by
  rcases Nat.lt_trichotomy level path.length with hlt | rfl | hgt
  · rw [List.getElem?_append_left hlt, eval_pathValue_of_lt hlt]
  · simp [pathValue, ValueExpr.eval, h]
  · have hend : path.length + 1 ≤ level := hgt
    rw [pathValue, List.getElem?_eq_none hgt.le, List.getElem?_eq_none (by simpa using hend)]
    simp only [if_neg hgt.ne']
    rfl

-- What is known of a tree that is made for a query: it refers to columns of the query, and its
-- root, if it has one, is the one that it describes.
structure WellFormed (tree : PivotTree) : Prop where
  pivots : ∀ pivot ∈ tree.pivots, pivot ∈ tree.outColumns
  leaf : ∀ leaf ∈ tree.leaf, leaf ∈ tree.outColumns
  sortKey : ∀ key ∈ tree.sortKey, key.column ∈ tree.outColumns
  root : ∀ root ∈ tree.root, tree.rootQuery = .ok root

theorem wellFormed_of_ofConfig {base : TypedQuery} {config : PivotConfig} {tree : PivotTree}
    (h : ofConfig base config = .ok tree) : tree.WellFormed := by
  simp only [ofConfig, bind_eq_ok] at h
  obtain ⟨_, hrefs, h⟩ := h
  have hknown := Schema.requireAll_eq_ok.mp hrefs
  simp only [List.forall_mem_append, List.forall_mem_map] at hknown
  obtain ⟨⟨⟨hpivots, hleaf⟩, hsort⟩, -⟩ := hknown
  have hleaf' : ∀ leaf ∈ config.leaf, leaf ∈ base.schema.ids :=
    fun leaf hmem => hleaf leaf (Option.mem_toList.mpr hmem)
  split at h
  case isTrue =>
    obtain ⟨root, hroot, h⟩ := bind_eq_ok.mp h
    obtain rfl := pure_eq_ok.mp h
    exact ⟨hpivots, hleaf', hsort, fun _ hsome => Option.some.inj hsome ▸ hroot⟩
  case isFalse =>
    obtain rfl := pure_eq_ok.mp h
    exact ⟨hpivots, hleaf', hsort, fun _ hnone => by cases hnone⟩

theorem base_of_ofConfig {base : TypedQuery} {config : PivotConfig} {tree : PivotTree}
    (h : ofConfig base config = .ok tree) : tree.base = base := by
  obtain ⟨_, -, h⟩ := bind_eq_ok.mp h
  split at h
  case isTrue =>
    obtain ⟨root, -, h⟩ := bind_eq_ok.mp h
    obtain rfl := pure_eq_ok.mp h
    rfl
  case isFalse =>
    obtain rfl := pure_eq_ok.mp h
    rfl

variable {tree : PivotTree} {db : Database V}

-- The rows of the base that a path selects, as its condition does.
variable (engine db tree) in
def matching (path : Path) : Multiset (Row V) :=
  (Query.filter tree.base.query (pathCondition tree.pivots path)).bag engine db

theorem matching_eq {path : Path} (h : path.length ≤ tree.pivots.length) :
    tree.matching engine db path = tree.members texts (tree.base.query.bag engine db) path := by
  rw [matching, Query.bag]
  exact Multiset.filter_congr fun row _ => holds_pathCondition h (row.get engine)

variable (texts db) in
-- The query that has the rows below a path.
theorem exists_located (hformed : tree.WellFormed) {path : Path}
    (h : path.length ≤ tree.pivots.length) :
    ∃ located, (if (pathCondition tree.pivots path).isEmpty then pure tree.base
        else tree.base.filter (pathCondition tree.pivots path)) = .ok located ∧
      located.schema = tree.base.schema ∧
      located.query.bag engine db =
        tree.members texts (tree.base.query.bag engine db) path := by
  split
  case isTrue hempty =>
    refine ⟨tree.base, rfl, rfl, (Multiset.filter_eq_self.mpr fun row _ => ?_).symm⟩
    refine (holds_pathCondition h (row.get engine)).mp ?_
    generalize pathCondition tree.pivots path = condition at hempty ⊢
    obtain ⟨op, args⟩ := condition
    obtain rfl := List.isEmpty_iff.mp hempty
    rfl
  case isFalse =>
    obtain ⟨located, hlocated, hquery, hschema⟩ := TypedQuery.exists_filter tree.base
      (pathCondition tree.pivots path) fun id hid => hformed.pivots id (columns_pathCondition hid)
    refine ⟨located, hlocated, hschema, ?_⟩
    rw [hquery]
    exact matching_eq h

end PivotTree

end PivotQuery
