import PivotQuery.Proofs.Pivot.PrefixClosed
import PivotQuery.Proofs.Pivot.ReservedNames
import PivotQuery.Proofs.Pivot.VisibleNodes

namespace PivotQuery

-- A traversal goes well if every step does, and otherwise it ends with the error of a step.
private theorem mapM_cases {ε α β : Type} (f : α → Except ε β) (xs : List α) :
    (∃ ys, xs.mapM f = .ok ys ∧ ∀ x ∈ xs, ∃ y, f x = .ok y) ∨
      ∃ x ∈ xs, ∃ error, f x = .error error ∧ xs.mapM f = .error error := by
  induction xs with
  | nil => exact Or.inl ⟨[], rfl, by simp⟩
  | cons x rest ih =>
    rw [List.mapM_cons]
    cases hx : f x with
    | error error => exact Or.inr ⟨x, List.mem_cons_self, error, hx, rfl⟩
    | ok y =>
      rcases ih with ⟨ys, hys, hall⟩ | ⟨failing, hmem, error, hfails, herror⟩
      · exact Or.inl ⟨y :: ys, by rw [hys]; rfl, List.forall_mem_cons.mpr ⟨⟨y, hx⟩, hall⟩⟩
      · exact Or.inr ⟨failing, List.mem_cons_of_mem _ hmem, error, hfails, by rw [herror]; rfl⟩

-- The columns that a configuration names.
def PivotConfig.named (config : PivotConfig) : List String :=
  config.pivots ++ config.leaf.toList ++ config.sortKey.map SortKey.column ++ config.aggMap.names

namespace PivotTree

variable {base : TypedQuery} {config : PivotConfig} {tree : PivotTree} {opened : PathTree}

-- What the names and the types of a tree do not depend on: there are no rows, and some engine.
def noRows : Database Cell := ⟨fun _ => [], fun _ => []⟩

theorem exists_rootQuery_iff : (∃ root, tree.rootQuery = .ok root) ↔ tree.columns.Nodup := by
  constructor
  · rintro ⟨root, hroot⟩
    exact ids_of_rootQuery hroot ▸ root.schema.distinct
  · intro hnodup
    obtain ⟨root, hroot, -⟩ := exists_rootQuery Engine.cellTexts noRows hnodup
    exact ⟨root, hroot⟩

-- The tree that is asked for, without its root.
def rootless (base : TypedQuery) (config : PivotConfig) : PivotTree :=
  ⟨base, config.pivots, config.leaf, none, config.sortKey, config.aggMap⟩

theorem ofConfig_eq (hnamed : ∀ id ∈ config.named, id ∈ base.schema.ids) :
    ofConfig base config =
      if config.showRoot then
        (rootless base config).rootQuery.map fun root =>
          { rootless base config with root := some root }
      else .ok (rootless base config) := by
  have hknown : base.schema.requireAll config.named = .ok () := Schema.requireAll_eq_ok.mpr hnamed
  have hunfold : ofConfig base config = base.schema.requireAll config.named >>= fun _ =>
      if config.showRoot then
        (rootless base config).rootQuery >>= fun root =>
          pure { rootless base config with root := some root }
      else pure (rootless base config) :=
    rfl
  rw [hunfold, hknown]
  cases (rootless base config).rootQuery <;> rfl

theorem exists_ofConfig_iff (hnamed : ∀ id ∈ config.named, id ∈ base.schema.ids) :
    (∃ tree, ofConfig base config = .ok tree) ↔
      (config.showRoot = true → (rootless base config).columns.Nodup) := by
  rw [ofConfig_eq hnamed]
  cases config.showRoot with
  | false => simp
  | true =>
    rw [forall_prop_of_true rfl, ← exists_rootQuery_iff]
    cases (rootless base config).rootQuery <;> simp [Except.map]

theorem rootless_of_ofConfig (hnamed : ∀ id ∈ config.named, id ∈ base.schema.ids)
    (h : ofConfig base config = .ok tree) :
    ∃ root, tree = { rootless base config with root := root } := by
  rw [ofConfig_eq hnamed] at h
  split at h
  · cases hroot : (rootless base config).rootQuery with
    | error error => simp [hroot, Except.map] at h
    | ok root =>
      rw [hroot] at h
      exact ⟨some root, (Except.ok.inj h).symm⟩
  · exact ⟨none, (Except.ok.inj h).symm⟩

section Children

variable {path : Path}

theorem childrenOf_tooDeep (h : tree.pivots.length < path.length) :
    tree.childrenOf path = .error (.pathTooDeep path.length tree.pivots.length) :=
  if_pos h

theorem exists_childrenOf_iff (hformed : tree.WellFormed) :
    (∃ children, tree.childrenOf path = .ok children) ↔
      path.length ≤ tree.pivots.length ∧ tree.columns.Nodup := by
  constructor
  · rintro ⟨children, hchildren⟩
    refine ⟨not_lt.mp fun hdeep => ?_, ids_of_childrenOf hchildren ▸ children.schema.distinct⟩
    simp [childrenOf_tooDeep hdeep] at hchildren
  · rintro ⟨hlength, hnodup⟩
    obtain ⟨children, hchildren, -⟩ := exists_childrenOf Engine.cellTexts noRows hformed hnodup
      hlength
    exact ⟨children, hchildren⟩

private theorem error_of_childrenOf (hformed : tree.WellFormed) (hnodup : tree.columns.Nodup)
    {error : PivotError} (h : tree.childrenOf path = .error error) :
    tree.pivots.length < path.length ∧
      error = .pathTooDeep path.length tree.pivots.length := by
  by_cases hdeep : tree.pivots.length < path.length
  · exact ⟨hdeep, Except.error.inj (h.symm.trans (childrenOf_tooDeep hdeep))⟩
  · obtain ⟨children, hchildren⟩ :=
      (exists_childrenOf_iff hformed).mpr ⟨not_lt.mp hdeep, hnodup⟩
    simp [hchildren] at h

end Children

-- Both trees are built from the branches, so they fail where a branch does.
private theorem branches_cases (tree : PivotTree) (opened : PathTree) :
    (∀ path ∈ [] :: opened.paths, ∃ children, tree.childrenOf path = .ok children) ∨
      ∃ path ∈ [] :: opened.paths, ∃ error, tree.childrenOf path = .error error ∧
        tree.treeQuery opened = .error error ∧ tree.sortedTreeQuery opened = .error error := by
  rcases mapM_cases tree.childrenOf ([] :: opened.paths) with ⟨_, -, hall⟩ | hfails
  · exact Or.inl hall
  · obtain ⟨path, hpath, error, hchildren, hmap⟩ := hfails
    have hunion : tree.union opened = .error error := by
      rw [union, branches, hmap]
      rfl
    refine Or.inr ⟨path, hpath, error, hchildren, ?_, ?_⟩
    · rw [treeQuery, hunion]
      rfl
    · rw [sortedTreeQuery, hunion]
      rfl

private theorem branches_of_ok (hformed : tree.WellFormed)
    (h : ∀ path ∈ [] :: opened.paths, ∃ children, tree.childrenOf path = .ok children) :
    tree.columns.Nodup ∧ ∀ path ∈ opened.paths, path.length ≤ tree.pivots.length := by
  obtain ⟨hself, hpaths⟩ := List.forall_mem_cons.mp h
  exact ⟨((exists_childrenOf_iff hformed).mp hself).2,
    fun path hpath => ((exists_childrenOf_iff hformed).mp (hpaths path hpath)).1⟩

theorem exists_treeQuery_iff (hformed : tree.WellFormed) :
    (∃ query, tree.treeQuery opened = .ok query) ↔
      tree.columns.Nodup ∧ ∀ path ∈ opened.paths, path.length ≤ tree.pivots.length := by
  constructor
  · rintro ⟨query, hquery⟩
    rcases branches_cases tree opened with hall | ⟨_, -, error, -, herror, -⟩
    · exact branches_of_ok hformed hall
    · simp [hquery] at herror
  · rintro ⟨hnodup, hlengths⟩
    obtain ⟨query, hquery, -⟩ := exists_treeQuery Engine.cellTexts noRows hformed hnodup hlengths
    exact ⟨query, hquery⟩

theorem exists_sortedTreeQuery_iff (hformed : tree.WellFormed) :
    (∃ sorted, tree.sortedTreeQuery opened = .ok sorted) ↔
      tree.displayColumns.Nodup ∧ ∀ path ∈ opened.paths, path.length ≤ tree.pivots.length := by
  constructor
  · rintro ⟨sorted, hsorted⟩
    rcases branches_cases tree opened with hall | ⟨_, -, error, -, -, herror⟩
    · exact ⟨nodup_of_sortedTreeQuery hformed hsorted, (branches_of_ok hformed hall).2⟩
    · simp [hsorted] at herror
  · rintro ⟨hnodup, hlengths⟩
    obtain ⟨sorted, hsorted, -⟩ :=
      exists_sortedTreeQuery Engine.cellTexts noRows hformed hnodup hlengths
    exact ⟨sorted, hsorted⟩

-- If names are free, what fails is a path that is too long, and both trees fail with it.
private theorem exists_tooDeep (hformed : tree.WellFormed) (hnodup : tree.columns.Nodup)
    (h : ¬∀ path ∈ opened.paths, path.length ≤ tree.pivots.length) :
    ∃ path ∈ opened.paths, tree.pivots.length < path.length ∧
      tree.treeQuery opened = .error (.pathTooDeep path.length tree.pivots.length) ∧
      tree.sortedTreeQuery opened = .error (.pathTooDeep path.length tree.pivots.length) := by
  rcases branches_cases tree opened with hall | ⟨path, hpath, error, hchildren, hquery, hsorted⟩
  · exact absurd (branches_of_ok hformed hall).2 h
  · obtain ⟨hdeep, rfl⟩ := error_of_childrenOf hformed hnodup hchildren
    refine ⟨path, (List.mem_cons.mp hpath).resolve_left ?_, hdeep, hquery, hsorted⟩
    rintro rfl
    exact absurd hdeep (Nat.not_lt_zero _)

theorem length_trimToDepth {depth : Nat} :
    ∀ path ∈ (opened.trimToDepth depth).paths, path.length ≤ depth :=
  fun _ hpath => (PathTree.isOpen_trimToDepth.mp (PathTree.mem_paths.mp hpath).2).2

end PivotTree

-- A tree whose configuration names columns of its base fails in two ways only: the base has a
-- column that the tree wants to give a name of its own, or an open path is longer than there are
-- pivot columns.
theorem tree_construction_fails_for_names_or_depth (base : TypedQuery) (config : PivotConfig)
    (hnamed : ∀ id ∈ config.named, id ∈ base.schema.ids) :
    let levels := config.pivots.length
    let free := ∀ id ∈ PivotTree.reservedColumns levels, id ∉ base.schema.ids
    let keysFree := ∀ level < levels, ∀ key < config.sortKey.length,
      sortKeyColumn level key ∉ base.schema.ids
    ((∃ tree, PivotTree.ofConfig base config = .ok tree) ↔ (config.showRoot = true → free)) ∧
    ∀ tree, PivotTree.ofConfig base config = .ok tree →
      (∀ path, ((∃ children, tree.childrenOf path = .ok children) ↔
          path.length ≤ levels ∧ free) ∧
        (∀ children, tree.childrenOf path = .ok children →
          children.schema.ids = tree.columns) ∧
        (levels < path.length →
          tree.childrenOf path = .error (.pathTooDeep path.length levels))) ∧
      ∀ opened : PathTree,
        ((∃ query, tree.treeQuery opened = .ok query) ↔
          free ∧ ∀ path ∈ opened.paths, path.length ≤ levels) ∧
        ((∃ query, tree.treeQuery (opened.trimToDepth levels) = .ok query) ↔ free) ∧
        ((∃ sorted, tree.sortedTreeQuery opened = .ok sorted) ↔
          free ∧ keysFree ∧ ∀ path ∈ opened.paths, path.length ≤ levels) ∧
        (free → (∃ path ∈ opened.paths, levels < path.length) →
          ∃ path ∈ opened.paths, levels < path.length ∧
            tree.treeQuery opened = .error (.pathTooDeep path.length levels) ∧
            tree.sortedTreeQuery opened = .error (.pathTooDeep path.length levels)) := by
  intro levels free keysFree
  refine ⟨(PivotTree.exists_ofConfig_iff hnamed).trans
    (imp_congr_right fun _ => PivotTree.nodup_columns_iff), fun tree htree => ?_⟩
  have hformed := PivotTree.wellFormed_of_ofConfig htree
  obtain ⟨root, hfields⟩ := PivotTree.rootless_of_ofConfig hnamed htree
  have hlevels : tree.pivots.length = levels := by rw [hfields]; rfl
  have hcolumns : tree.columns.Nodup ↔ free := by
    rw [PivotTree.nodup_columns_iff, hfields]
    rfl
  have hdisplay : tree.displayColumns.Nodup ↔ free ∧ keysFree := by
    rw [PivotTree.nodup_displayColumns_iff, hcolumns, hfields]
    refine and_congr_right fun _ => ⟨fun h level hlevel key hkey => ?_, fun h id hid => ?_⟩
    · exact h _ (PivotTree.mem_reservedKeyColumns.mpr ⟨level, hlevel, key, hkey, rfl⟩)
    · obtain ⟨level, hlevel, key, hkey, rfl⟩ := PivotTree.mem_reservedKeyColumns.mp hid
      exact h level hlevel key hkey
  rw [← hlevels]
  refine ⟨fun path => ⟨?_, fun children => PivotTree.ids_of_childrenOf, fun hdeep => ?_⟩,
    fun opened => ⟨?_, ?_, ?_, fun hfree hdeep => ?_⟩⟩
  · rw [PivotTree.exists_childrenOf_iff hformed, hcolumns]
  · exact PivotTree.childrenOf_tooDeep hdeep
  · rw [PivotTree.exists_treeQuery_iff hformed, hcolumns]
  · rw [PivotTree.exists_treeQuery_iff hformed, hcolumns]
    exact and_iff_left PivotTree.length_trimToDepth
  · rw [PivotTree.exists_sortedTreeQuery_iff hformed, hdisplay, and_assoc]
  · refine PivotTree.exists_tooDeep hformed (hcolumns.mpr hfree) fun hlengths => ?_
    obtain ⟨path, hpath, hdeep⟩ := hdeep
    exact absurd (hlengths path hpath) (not_le.mpr hdeep)

theorem tree_construction_fails_for_names_or_depth_payTree :
    (∀ id ∈ payByFamily.named, id ∈ payrollTable.schema.ids) ∧
      PivotTree.ofConfig payrollTable payByFamily = .ok payTree ∧
      (∃ sorted, payTree.sortedTreeQuery engineersOpen = .ok sorted) ∧
      payTree.childrenOf [none, none] = .error (.pathTooDeep 2 1) := by
  have hnamed : ∀ id ∈ payByFamily.named, id ∈ payrollTable.schema.ids := by decide
  have hfree : ∀ id ∈ PivotTree.reservedColumns 1, id ∉ payrollTable.schema.ids := by decide
  have hkeysFree : ∀ level < 1, ∀ key < 1,
      sortKeyColumn level key ∉ payrollTable.schema.ids := by decide
  obtain ⟨hchildren, htrees⟩ := (tree_construction_fails_for_names_or_depth payrollTable
    payByFamily hnamed).2 payTree ofConfig_payByFamily
  exact ⟨hnamed, ofConfig_payByFamily,
    (htrees engineersOpen).2.2.1.mpr ⟨hfree, hkeysFree, by decide⟩,
    (hchildren [none, none]).2.2 (by decide)⟩

end PivotQuery
