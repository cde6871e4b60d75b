import PivotQuery.Proofs.Schema.Lookup

namespace PivotQuery

namespace ColumnType

theorem sameAs_iff {lhs rhs : ColumnType} :
    lhs.sameAs rhs = true ↔ lhs = rhs ∨ lhs.kind = rhs.kind ∧ lhs.kind.isCore = true := by
  simp [sameAs]

@[simp] theorem sameAs_refl (type : ColumnType) : type.sameAs type = true := by
  simp [sameAs]

theorem sameAs_symm {lhs rhs : ColumnType} (h : lhs.sameAs rhs = true) :
    rhs.sameAs lhs = true := by
  rw [sameAs_iff] at h ⊢
  rcases h with rfl | ⟨hkind, hcore⟩
  · exact Or.inl rfl
  · exact Or.inr ⟨hkind.symm, hkind ▸ hcore⟩

theorem sameAs_trans {a b c : ColumnType} (hab : a.sameAs b = true) (hbc : b.sameAs c = true) :
    a.sameAs c = true := by
  rw [sameAs_iff] at hab hbc ⊢
  rcases hab with rfl | ⟨hkind, hcore⟩
  · exact hbc
  · rcases hbc with rfl | ⟨hkind', -⟩
    · exact Or.inr ⟨hkind, hcore⟩
    · exact Or.inr ⟨hkind.trans hkind', hcore⟩

theorem sameAs_congr {a b : ColumnType} (h : a.sameAs b = true) (c : ColumnType) :
    a.sameAs c = b.sameAs c := by
  rw [Bool.eq_iff_iff]
  exact ⟨sameAs_trans (sameAs_symm h), sameAs_trans h⟩

-- The common type of a column is that of every branch, unless it is text.
theorem unify_cases (lhs rhs : ColumnType) :
    (lhs.unify rhs = lhs ∧ rhs.sameAs lhs = true) ∨ lhs.unify rhs = .string := by
  unfold unify
  by_cases h : lhs.sameAs rhs = true
  · exact Or.inl ⟨by simp [h], sameAs_symm h⟩
  · exact Or.inr (by simp [h])

end ColumnType

namespace Schema

variable {schema result : Schema}

-- What each operator checks and what columns it gives when it accepts its input.

theorem project_ok {ids : List String} (h : schema.project ids = .ok result) :
    List.Forall₂ (fun id column => schema.get? id = some column) ids result.columns := by
  simp only [project, bind_eq_ok] at h
  obtain ⟨columns, hcolumns, hresult⟩ := h
  rw [columns_of_ofColumns hresult]
  exact columnsOf_eq_ok hcolumns

theorem project_ids {ids : List String} (h : schema.project ids = .ok result) :
    result.ids = ids := by
  refine (map_eq_map (project_ok h) ?_).symm.trans (List.map_id ids)
  intro id column hcolumn
  exact (get?_eq_some.mp hcolumn).2.symm

theorem project_mem {ids : List String} (h : schema.project ids = .ok result) :
    ∀ id ∈ ids, id ∈ schema.ids := by
  intro id hid
  obtain ⟨column, -, hcolumn⟩ := exists_mem_right (project_ok h) hid
  exact mem_ids.mpr ⟨column, get?_eq_some.mp hcolumn⟩

theorem filtered_ok {condition : Filter} (h : schema.filtered condition = .ok result) :
    result = schema ∧ ∀ id ∈ condition.columns, id ∈ schema.ids := by
  simp only [filtered, bind_eq_ok, pure_eq_ok] at h
  obtain ⟨_, hcolumns, rfl⟩ := h
  exact ⟨rfl, requireAll_eq_ok.mp hcolumns⟩

theorem sorted_ok {keys : List SortKey} (h : schema.sorted keys = .ok result) :
    result = schema ∧ ∀ key ∈ keys, key.column ∈ schema.ids := by
  simp only [sorted, bind_eq_ok, pure_eq_ok] at h
  obtain ⟨_, hkeys, rfl⟩ := h
  exact ⟨rfl, fun key hkey => requireAll_eq_ok.mp hkeys _ (List.mem_map_of_mem hkey)⟩

theorem extended_ok {id : String} {exp : ValueExpr} {options : ExtendOptions}
    (h : schema.extended id exp options = .ok result) :
    result.columns = schema.columns ++ [⟨id, options.displayName.getD id, options.type⟩] ∧
      (∀ column ∈ exp.columns, column ∈ schema.ids) ∧ id ∉ schema.ids := by
  simp only [extended, bind_eq_ok] at h
  obtain ⟨_, hcolumns, hresult⟩ := h
  unfold extend at hresult
  split at hresult
  · simp at hresult
  · rename_i hnew
    exact ⟨columns_of_ofColumns hresult, requireAll_eq_ok.mp hcolumns,
      fun hid => hnew (contains_iff.mpr hid)⟩

theorem ids_extended {id : String} {exp : ValueExpr} {options : ExtendOptions}
    (h : schema.extended id exp options = .ok result) : result.ids = schema.ids ++ [id] := by
  rw [ids, Column.ids, (extended_ok h).1, List.map_append]
  rfl

theorem aggregated_ok {aggs : List Aggregate} {columns : List Column}
    (h : schema.aggregated aggs = .ok columns) :
    List.Forall₂ (fun aggregate column => ∃ input, schema.get? aggregate.column = some input ∧
      column = { input with type := aggregate.agg.resultType input.type }) aggs columns := by
  induction aggs generalizing columns with
  | nil =>
    obtain rfl : [] = columns := by simpa [aggregated] using h
    exact .nil
  | cons aggregate rest ih =>
    simp only [aggregated, bind_eq_ok, require_eq_ok, pure_eq_ok] at h
    obtain ⟨input, hinput, columns, hcolumns, rfl⟩ := h
    exact .cons ⟨input, hinput, rfl⟩ (ih hcolumns)

theorem grouped_ok {keys : List String} {aggs : List Aggregate}
    (h : schema.grouped keys aggs = .ok result) :
    ∃ keyColumns aggColumns, result.columns = keyColumns ++ aggColumns ∧
      List.Forall₂ (fun id column => schema.get? id = some column) keys keyColumns ∧
      List.Forall₂ (fun aggregate column => ∃ input, schema.get? aggregate.column = some input ∧
        column = { input with type := aggregate.agg.resultType input.type }) aggs aggColumns := by
  simp only [grouped, bind_eq_ok] at h
  obtain ⟨keyColumns, hkeys, aggColumns, haggs, hresult⟩ := h
  exact ⟨keyColumns, aggColumns, columns_of_ofColumns hresult, columnsOf_eq_ok hkeys,
    aggregated_ok haggs⟩

theorem ids_grouped {keys : List String} {aggs : List Aggregate}
    (h : schema.grouped keys aggs = .ok result) :
    result.ids = keys ++ aggs.map Aggregate.column := by
  obtain ⟨keyColumns, aggColumns, hcolumns, hkeys, haggs⟩ := grouped_ok h
  have hkeyIds : keys.map (fun id => id) = keyColumns.map Column.id :=
    map_eq_map hkeys fun _ _ hcolumn => (get?_eq_some.mp hcolumn).2.symm
  have haggIds : aggs.map Aggregate.column = aggColumns.map Column.id := by
    refine map_eq_map haggs ?_
    rintro aggregate column ⟨input, hinput, rfl⟩
    exact (get?_eq_some.mp hinput).2.symm
  rw [ids, Column.ids, hcolumns, List.map_append, ← hkeyIds, ← haggIds, List.map_id']

theorem grouped_mem {keys : List String} {aggs : List Aggregate}
    (h : schema.grouped keys aggs = .ok result) :
    ∀ id ∈ keys ++ aggs.map Aggregate.column, id ∈ schema.ids := by
  obtain ⟨keyColumns, aggColumns, -, hkeys, haggs⟩ := grouped_ok h
  refine List.forall_mem_append.mpr ⟨fun id hid => ?_, List.forall_mem_map.mpr ?_⟩
  · obtain ⟨column, -, hcolumn⟩ := exists_mem_right hkeys hid
    exact mem_ids.mpr ⟨column, get?_eq_some.mp hcolumn⟩
  · intro aggregate haggregate
    obtain ⟨column, -, input, hinput, -⟩ := exists_mem_right haggs haggregate
    exact mem_ids.mpr ⟨input, get?_eq_some.mp hinput⟩

theorem requireJoinable_eq_ok {lhs rhs : Schema} {on : List String} :
    requireJoinable lhs rhs on = .ok () ↔ ∀ key ∈ on, ∃ left right,
      lhs.type? key = some left ∧ rhs.type? key = some right ∧ left.joinableWith right = true := by
  induction on with
  | nil => simp [requireJoinable]
  | cons key rest ih =>
    rw [List.forall_mem_cons, ← ih]
    simp only [requireJoinable, bind_eq_ok, require_eq_ok, type?, Option.map_eq_some_iff]
    constructor
    · rintro ⟨left, hleft, right, hright, hrest⟩
      by_cases hjoinable : left.type.joinableWith right.type = true
      · rw [if_pos hjoinable] at hrest
        exact ⟨⟨_, _, ⟨left, hleft, rfl⟩, ⟨right, hright, rfl⟩, hjoinable⟩, hrest⟩
      · rw [if_neg hjoinable] at hrest
        cases hrest
    · rintro ⟨⟨_, _, ⟨left, hleft, rfl⟩, ⟨right, hright, rfl⟩, hjoinable⟩, hrest⟩
      exact ⟨left, hleft, right, hright, by rw [if_pos hjoinable, hrest]⟩

theorem joined_ok {lhs rhs : Schema} {on : List String} (h : lhs.joined rhs on = .ok result) :
    result.columns =
        lhs.columns ++ rhs.columns.filter (fun column => !on.contains column.id) ∧
      (∀ key ∈ on, key ∈ lhs.ids ∧ key ∈ rhs.ids) ∧
      ∀ id ∈ rhs.ids, id ∈ lhs.ids → id ∈ on := by
  simp only [joined, bind_eq_ok] at h
  obtain ⟨_, hkeys, hresult⟩ := h
  split at hresult
  · simp at hresult
  · rename_i hclash
    refine ⟨columns_of_ofColumns hresult, fun key hkey => ?_, fun id hright hleft => ?_⟩
    · obtain ⟨_, _, hleft, hright, -⟩ := requireJoinable_eq_ok.mp hkeys key hkey
      exact ⟨mem_ids_of_type? hleft, mem_ids_of_type? hright⟩
    · obtain ⟨column, hcolumn, rfl⟩ := mem_ids.mp hright
      have hnone := List.find?_eq_none.mp hclash column hcolumn
      simpa [contains_iff, hleft] using hnone

theorem mapped_ok {changes : NameMap ColumnChange} (h : schema.mapped changes = .ok result) :
    result.columns = schema.columns.map (Column.changed changes) ∧
      ∀ id ∈ changes.names, id ∈ schema.ids := by
  simp only [mapped, bind_eq_ok] at h
  obtain ⟨_, hnames, hresult⟩ := h
  exact ⟨columns_of_ofColumns hresult, requireAll_eq_ok.mp hnames⟩

-- A schema that stands for one branch of a stack: it has every column of the stack, and
-- what is not already of the stack's type is to become text.
def Stacks (result : List Column) (branch : Schema) : Prop :=
  ∀ column ∈ result, ∃ type, branch.type? column.id = some type ∧
    (type.sameAs column.type = true ∨ column.type = .string)

theorem Stacks.mem_ids {columns : List Column} {branch : Schema} (h : Stacks columns branch)
    {column : Column} (hcolumn : column ∈ columns) : column.id ∈ branch.ids := by
  obtain ⟨type, htype, -⟩ := h column hcolumn
  obtain ⟨own, hown, -⟩ := Option.map_eq_some_iff.mp htype
  exact Schema.mem_ids.mpr ⟨own, get?_eq_some.mp hown⟩

theorem unifyColumns_ok {first other : Schema} {columns unified : List Column}
    (h : unifyColumns first other columns = .ok unified) :
    List.Forall₂ (fun column result => ∃ type, other.type? column.id = some type ∧
      result = { column with type := column.type.unify type }) columns unified := by
  induction columns generalizing unified with
  | nil =>
    obtain rfl : [] = unified := by simpa [unifyColumns] using h
    exact .nil
  | cons column rest ih =>
    simp only [unifyColumns] at h
    split at h
    · simp at h
    · rename_i type htype
      simp only [bind_eq_ok, pure_eq_ok] at h
      obtain ⟨unified, hrest, rfl⟩ := h
      exact .cons ⟨type, htype, rfl⟩ (ih hrest)

-- One more branch keeps the ids of the stack, and every branch before it.
theorem unifyColumns_stacks {first other : Schema} {columns unified : List Column}
    (h : unifyColumns first other columns = .ok unified) :
    Column.ids unified = Column.ids columns ∧ Stacks unified other ∧
      ∀ branch, Stacks columns branch → Stacks unified branch := by
  have hall := unifyColumns_ok h
  refine ⟨?_, fun result hresult => ?_, fun branch hbranch result hresult => ?_⟩
  · refine (map_eq_map hall ?_).symm
    rintro column result ⟨type, -, rfl⟩
    rfl
  · obtain ⟨column, -, type, htype, rfl⟩ := exists_mem_left hall hresult
    refine ⟨type, htype, ?_⟩
    rcases ColumnType.unify_cases column.type type with ⟨hu, hs⟩ | hu
    · exact Or.inl (by simpa [hu] using hs)
    · exact Or.inr hu
  · obtain ⟨column, hcolumn, type, -, rfl⟩ := exists_mem_left hall hresult
    obtain ⟨old, hold, hcases⟩ := hbranch column hcolumn
    refine ⟨old, hold, ?_⟩
    rcases ColumnType.unify_cases column.type type with ⟨hu, -⟩ | hu
    · simpa [hu] using hcases
    · exact Or.inr hu

theorem stacked_ok {first : Schema} {columns unified : List Column} {rest : List Schema}
    (h : stacked first columns rest = .ok unified) :
    Column.ids unified = Column.ids columns ∧ (∀ branch ∈ rest, Stacks unified branch) ∧
      ∀ branch, Stacks columns branch → Stacks unified branch := by
  induction rest generalizing columns with
  | nil =>
    obtain rfl : columns = unified := by simpa [stacked] using h
    exact ⟨rfl, by simp, fun _ hbranch => hbranch⟩
  | cons other rest ih =>
    simp only [stacked] at h
    split at h
    · simp only [bind_eq_ok] at h
      obtain ⟨next, hnext, hrest⟩ := h
      obtain ⟨hids, hother, hkeep⟩ := unifyColumns_stacks hnext
      obtain ⟨hids', hall, hkeep'⟩ := ih hrest
      refine ⟨hids'.trans hids, List.forall_mem_cons.mpr ⟨hkeep' other hother, hall⟩, ?_⟩
      exact fun branch hbranch => hkeep' branch (hkeep branch hbranch)
    · simp at h

theorem stacks_self (schema : Schema) : Stacks schema.columns schema :=
  fun column hcolumn => ⟨column.type, type?_of_mem hcolumn, Or.inl (by simp)⟩

theorem concatenated_ok {schemas : List Schema} (h : concatenated schemas = .ok result) :
    schemas ≠ [] ∧ ∀ branch ∈ schemas, Stacks result.columns branch := by
  cases schemas with
  | nil => simp [concatenated] at h
  | cons first rest =>
    simp only [concatenated, bind_eq_ok] at h
    obtain ⟨columns, hcolumns, hresult⟩ := h
    obtain ⟨-, hall, hkeep⟩ := stacked_ok hcolumns
    rw [columns_of_ofColumns hresult]
    exact ⟨by simp, List.forall_mem_cons.mpr ⟨hkeep first (stacks_self first), hall⟩⟩

end Schema

end PivotQuery
