import PivotQuery.Proofs.Lowering.Invariant

namespace PivotQuery

namespace Sql

-- The selects of a query with the columns of the schema. Only a single select has an order.
structure Lowered (selects : List Select) (schema : Schema) : Prop where
  nonempty : selects ≠ []
  each : ∀ select ∈ selects, select.Lowered schema
  unordered : selects.length ≠ 1 → ∀ select ∈ selects, select.orderBy = []

namespace Select

variable {select : Select} {schema result : Schema} {selects : List Select}

theorem Lowered.project {ids : List String} (h : select.Lowered schema)
    (hadmits : select.admitsProject ids = true) (hresult : schema.project ids = .ok result) :
    (select.projected ids).Lowered result := by
  have hcolumns := Schema.project_ok hresult
  constructor
  case fits =>
    refine forall₂_filterMap (hcolumns.imp fun id column hcolumn => ?_)
    obtain ⟨hmem, rfl⟩ := Schema.get?_eq_some.mp hcolumn
    obtain ⟨item, -, hitem, hname, htype⟩ := h.fits.exists_item? hmem
    exact ⟨item, hitem, hname, htype⟩
  case exps =>
    intro item hitem
    obtain ⟨id, -, hid⟩ := List.mem_filterMap.mp hitem
    exact h.exps item (name_of_item? hid).1
  case keys =>
    intro key hkey
    rw [Schema.project_ids hresult, hides_iff]
    by_cases hkept : key.column ∈ ids
    · exact Or.inl hkept
    · right
      by_cases hhidden : select.hides key.column = true
      · obtain ⟨item, hitem, hname⟩ := hides_iff.mp hhidden
        exact ⟨item, List.mem_append_left _ hitem, hname⟩
      · -- what is dropped now is a column of the result so far
        have hid := (h.keys key hkey).resolve_right hhidden
        obtain ⟨item, hitem⟩ := Option.isSome_iff_exists.mp (h.fits.item?_isSome hid)
        refine ⟨item, List.mem_append_right _ ?_, (name_of_item? hitem).2⟩
        exact List.mem_filterMap.mpr
          ⟨key, List.mem_filter.mpr ⟨hkey, by simp [hkept, hhidden]⟩, hitem⟩
  case hidden =>
    intro item hitem
    rcases List.mem_append.mp hitem with hitem | hitem
    · exact h.hidden item hitem
    · obtain ⟨key, hkey, hitem⟩ := List.mem_filterMap.mp hitem
      obtain ⟨hkey, hdropped⟩ := List.mem_filter.mp hkey
      have hadmit := List.all_eq_true.mp hadmits key hkey
      simp only [canHide, Bool.and_eq_true, Bool.not_eq_true', List.contains_eq_mem,
        decide_eq_false_iff_not, Bool.or_eq_true, decide_eq_true_eq] at hdropped hadmit
      have hidentity : select.isIdentityAt key.column = true := by
        simp_all
      obtain ⟨found, hfound, hexp⟩ := isIdentityAt_iff.mp hidentity
      obtain rfl : found = item := Option.some.inj (hfound.symm.trans hitem)
      exact ⟨_, hexp⟩

theorem Lowered.filter {condition : Filter} (h : select.Lowered schema) :
    (select.filtered condition).Lowered schema :=
  ⟨h.fits, h.exps, h.keys, h.hidden⟩

theorem Lowered.extend {id : String} {exp : ValueExpr} {options : ExtendOptions}
    (h : select.Lowered schema) (hresult : schema.extended id exp options = .ok result) :
    (select.extended id exp options.type).Lowered result := by
  obtain ⟨hcolumns, -, -⟩ := Schema.extended_ok hresult
  constructor
  case fits =>
    rw [Fits, hcolumns]
    exact List.rel_append h.fits (.cons ⟨rfl, ColumnType.sameAs_refl _⟩ .nil)
  case exps =>
    refine List.forall_mem_append.mpr ⟨h.exps, ?_⟩
    simp [Exp.isLowered]
  case keys =>
    refine fun key hkey => (h.keys key hkey).imp_left fun hid => ?_
    obtain ⟨column, hcolumn, hid⟩ := Schema.mem_ids.mp hid
    exact Schema.mem_ids.mpr ⟨column, hcolumns ▸ List.mem_append_left _ hcolumn, hid⟩
  case hidden => exact h.hidden

theorem Lowered.group {keys : List String} {aggs : List Aggregate}
    (hunordered : select.orderBy = []) (hhidden : ∀ item ∈ select.hidden, ∃ id,
      item.exp = .value (.column id)) (hresult : schema.grouped keys aggs = .ok result) :
    (select.grouped schema keys aggs).Lowered result := by
  obtain ⟨keyColumns, aggColumns, hcolumns, hkeys, haggs⟩ := Schema.grouped_ok hresult
  constructor
  case fits =>
    rw [Fits, hcolumns]
    refine List.rel_append (forall₂_filterMap (hkeys.imp fun id column hcolumn => ?_))
      (forall₂_filterMap (haggs.imp ?_))
    · obtain ⟨hmem, rfl⟩ := Schema.get?_eq_some.mp hcolumn
      exact ⟨_, by rw [keyItem?, Schema.type?_of_mem hmem]; rfl, rfl, ColumnType.sameAs_refl _⟩
    · rintro aggregate column ⟨input, hinput, rfl⟩
      obtain ⟨hmem, hid⟩ := Schema.get?_eq_some.mp hinput
      exact ⟨_, by rw [aggregateItem?, ← hid, Schema.type?_of_mem hmem]; rfl, rfl,
        ColumnType.sameAs_refl _⟩
  case exps =>
    refine List.forall_mem_append.mpr ⟨fun item hitem => ?_, fun item hitem => ?_⟩
    · obtain ⟨id, -, hid⟩ := List.mem_filterMap.mp hitem
      obtain ⟨type, -, rfl⟩ := Option.map_eq_some_iff.mp hid
      rfl
    · obtain ⟨aggregate, -, haggregate⟩ := List.mem_filterMap.mp hitem
      obtain ⟨type, -, rfl⟩ := Option.map_eq_some_iff.mp haggregate
      rfl
  case keys =>
    intro key hkey
    rw [show (select.grouped schema keys aggs).orderBy = [] from hunordered] at hkey
    simp at hkey
  case hidden => exact hhidden

theorem Lowered.sort {keys : List SortKey} (h : select.Lowered schema)
    (hkeys : ∀ key ∈ keys, key.column ∈ schema.ids) : (select.sorted keys).Lowered schema where
  fits := h.fits
  exps := h.exps
  keys key hkey := Or.inl (hkeys key hkey)
  hidden := by simp [sorted]

theorem changed_id (changes : NameMap ColumnChange) (column : Column) :
    (column.changed changes).id = renamed changes column.id := by
  unfold Column.changed renamed
  cases changes.get? column.id <;> rfl

theorem changed_type (changes : NameMap ColumnChange) (column : Column) :
    (column.changed changes).type = column.type := by
  unfold Column.changed
  cases changes.get? column.id <;> rfl

theorem renamed_of_not_mem {changes : NameMap ColumnChange} {id : String}
    (h : id ∉ changes.names) : renamed changes id = id := by
  have hnone : changes.get? id = none := by
    simp only [NameMap.get?, Option.map_eq_none_iff, List.find?_eq_none]
    intro entry hentry heq
    exact h (List.mem_map.mpr ⟨entry, hentry, by simpa using heq⟩)
  simp [renamed, hnone]

-- A new id is one that a change asks for.
theorem renamed_cases (changes : NameMap ColumnChange) (id : String) :
    renamed changes id = id ∨ renamed changes id ∈ changes.values.filterMap ColumnChange.id := by
  unfold renamed
  cases hchange : (changes.get? id).bind ColumnChange.id with
  | none => exact Or.inl rfl
  | some new =>
    obtain ⟨change, hget, hnew⟩ := Option.bind_eq_some_iff.mp hchange
    obtain ⟨entry, hentry, rfl⟩ := Option.map_eq_some_iff.mp hget
    exact Or.inr (List.mem_filterMap.mpr
      ⟨entry.2, List.mem_map_of_mem (List.mem_of_find?_eq_some hentry), hnew⟩)

theorem get?_of_mem_entries {changes : NameMap ColumnChange} {entry : String × ColumnChange}
    (h : entry ∈ changes.entries) : changes.get? entry.1 = some entry.2 := by
  have hnodup : (changes.entries.map Prod.fst).Nodup := by
    refine List.pairwise_map.mpr (changes.sorted.imp fun {a b} hlt heq => ?_)
    exact String.lt_irrefl b.1 (heq ▸ hlt)
  obtain ⟨found, hfound⟩ := Option.isSome_iff_exists.mp (List.find?_isSome.mpr
    ⟨entry, h, beq_self_eq_true _⟩ :
      (changes.entries.find? fun other => other.1 == entry.1).isSome)
  have hname : found.1 = entry.1 := by simpa using List.find?_some hfound
  obtain rfl : found = entry :=
    List.inj_on_of_nodup_map hnodup (List.mem_of_find?_eq_some hfound) h hname
  exact congrArg (Option.map Prod.snd) hfound

theorem ids_mapped {changes : NameMap ColumnChange} (h : schema.mapped changes = .ok result) :
    result.ids = schema.ids.map (renamed changes) := by
  rw [Schema.ids, Column.ids, (Schema.mapped_ok h).1, List.map_map, Schema.ids, Column.ids,
    List.map_map]
  exact List.map_congr_left fun column _ => changed_id changes column

-- Every new id is given to a column.
theorem mem_ids_mapped {changes : NameMap ColumnChange} (h : schema.mapped changes = .ok result)
    {id : String} (hid : id ∈ changes.values.filterMap ColumnChange.id) : id ∈ result.ids := by
  obtain ⟨change, hchange, hnew⟩ := List.mem_filterMap.mp hid
  obtain ⟨entry, hentry, rfl⟩ := List.mem_map.mp hchange
  have hrenamed : renamed changes entry.1 = id := by
    simp [renamed, get?_of_mem_entries hentry, hnew]
  rw [ids_mapped h, ← hrenamed]
  exact List.mem_map_of_mem ((Schema.mapped_ok h).2 _ (List.mem_map_of_mem hentry))

theorem Lowered.mapColumns {changes : NameMap ColumnChange} (h : select.Lowered schema)
    (hresult : schema.mapped changes = .ok result) : (select.mapped changes).Lowered result := by
  obtain ⟨hcolumns, hnames⟩ := Schema.mapped_ok hresult
  constructor
  case fits =>
    rw [Fits, hcolumns, mapped, List.forall₂_map_left_iff, List.forall₂_map_right_iff]
    apply h.fits.imp
    intro item column hitem
    rw [changed_id, changed_type]
    exact ⟨by rw [hitem.1], hitem.2⟩
  case exps =>
    intro item hitem
    obtain ⟨old, hold, rfl⟩ := List.mem_map.mp hitem
    exact h.exps old hold
  case keys =>
    intro key hkey
    obtain ⟨old, hold, rfl⟩ := List.mem_map.mp hkey
    by_cases hid : old.column ∈ schema.ids
    · obtain ⟨column, hcolumn, hid⟩ := Schema.mem_ids.mp hid
      refine Or.inl (Schema.mem_ids.mpr ⟨column.changed changes, ?_, ?_⟩)
      · exact hcolumns ▸ List.mem_map_of_mem hcolumn
      · rw [changed_id, hid]
    · -- a hidden column is no column of the input, so it is not renamed
      rw [renamed_of_not_mem fun hname => hid (hnames _ hname)]
      exact Or.inr ((h.keys old hold).resolve_left hid)
  case hidden => exact h.hidden

theorem Lowered.ofJoin {left : Schema} {lhs rhs : List Select} {type : JoinType}
    {on : List String} : (ofJoin schema left lhs rhs type on).Lowered schema where
  fits := by
    rw [Fits, Select.ofJoin, Select.plain, List.forall₂_map_left_iff, List.forall₂_same]
    exact fun column _ => ⟨rfl, ColumnType.sameAs_refl _⟩
  exps := by
    intro item hitem
    obtain ⟨column, -, rfl⟩ := List.mem_map.mp hitem
    rfl
  keys := by simp [Select.ofJoin, Select.plain]
  hidden := by simp [Select.ofJoin, Select.plain]

theorem castTo_name (type : ColumnType) (item : Item) : (castTo type item).name = item.name := by
  unfold castTo
  split <;> rfl

theorem castTo_type (type : ColumnType) (item : Item) :
    (castTo type item).type.sameAs type = true := by
  unfold castTo
  split
  · assumption
  · exact ColumnType.sameAs_refl type

theorem castTo_isLowered (type : ColumnType) (item : Item) :
    (castTo type item).exp.isLowered = item.exp.isLowered := by
  unfold castTo
  split <;> rfl

theorem Lowered.align (h : select.Lowered schema) (hunordered : select.orderBy = [])
    (hstacks : Schema.Stacks result.columns schema) : (select.align result).Lowered result where
  fits := by
    refine forall₂_filterMap (List.forall₂_same.mpr fun column hcolumn => ?_)
    obtain ⟨item, hitem⟩ := Option.isSome_iff_exists.mp
      (h.fits.item?_isSome (hstacks.mem_ids hcolumn))
    exact ⟨_, by rw [hitem]; rfl, (castTo_name _ _).trans (name_of_item? hitem).2,
      castTo_type _ _⟩
  exps := by
    intro item hitem
    obtain ⟨column, -, hcolumn⟩ := List.mem_filterMap.mp hitem
    obtain ⟨own, hown, rfl⟩ := Option.map_eq_some_iff.mp hcolumn
    rw [castTo_isLowered]
    exact h.exps own (name_of_item? hown).1
  keys := by
    intro key hkey
    rw [show (select.align result).orderBy = [] from hunordered] at hkey
    simp at hkey
  hidden := h.hidden

-- The selects of a branch are those of its query, or a single one over them if that is
-- sorted.
theorem branch_cases {P : Select → Prop} (h : Sql.Lowered selects schema)
    (own : ∀ select ∈ selects, select.orderBy = [] → P select)
    (wrapped : P (wrap selects schema)) : ∀ select ∈ branch schema selects, P select := by
  intro select hselect
  unfold branch at hselect
  split at hselect
  · rename_i only
    split at hselect
    · rename_i hempty
      obtain rfl := List.mem_singleton.mp hselect
      exact own select hselect (List.isEmpty_iff.mp hempty)
    · obtain rfl := List.mem_singleton.mp hselect
      exact wrapped
  · rename_i hmany
    refine own select hselect (h.unordered (fun hone => ?_) select hselect)
    obtain ⟨only, rfl⟩ := List.length_eq_one_iff.mp hone
    exact hmany only rfl

theorem Lowered.branch (h : Sql.Lowered selects schema) :
    ∀ select ∈ branch schema selects, select.Lowered schema ∧ select.orderBy = [] :=
  branch_cases h (fun select hselect hunordered => ⟨h.each select hselect, hunordered⟩)
    ⟨Lowered.wrap selects, rfl⟩

theorem branch_ne_nil (h : Sql.Lowered selects schema) : branch schema selects ≠ [] := by
  unfold branch
  split
  · split <;> simp
  · exact h.nonempty

end Select

namespace Lowered

variable {selects : List Select} {schema result : Schema}

theorem single {select : Select} (h : select.Lowered schema) : Lowered [select] schema :=
  ⟨by simp, by simpa using h, by simp⟩

-- Each operator over a lowered input, whether it goes into its select or into a new one.

theorem projected {ids : List String} (h : Lowered selects schema)
    (hresult : schema.project ids = .ok result) :
    ((Select.reuseOrdered (Select.admitsProject ids) schema selects).projected ids).Lowered
      result :=
  (Select.Lowered.reuseOrdered _ h.each).project
    (Select.admitsProject_reuseOrdered ids h.each) hresult

theorem filtered {condition : Filter} (h : Lowered selects schema) :
    ((Select.reuseOrdered (Select.admitsFilter condition) schema selects).filtered
      condition).Lowered schema :=
  (Select.Lowered.reuseOrdered _ h.each).filter

theorem extended {id : String} {exp : ValueExpr} {options : ExtendOptions}
    (h : Lowered selects schema) (hresult : schema.extended id exp options = .ok result) :
    ((Select.reuseOrdered (Select.admitsExtend id exp) schema selects).extended id exp
      options.type).Lowered result :=
  (Select.Lowered.reuseOrdered _ h.each).extend hresult

theorem grouped {keys : List String} {aggs : List Aggregate} (h : Lowered selects schema)
    (hresult : schema.grouped keys aggs = .ok result) :
    ((Select.reuse (Select.admitsGroupBy keys aggs) schema selects).grouped schema keys
      aggs).Lowered result :=
  Select.Lowered.group Select.orderBy_groupByInput (Select.Lowered.reuse _ h.each).hidden hresult

theorem sorted {keys : List SortKey} (h : Lowered selects schema)
    (hkeys : ∀ key ∈ keys, key.column ∈ schema.ids) :
    ((Select.reuse Select.admitsSort schema selects).sorted keys).Lowered schema :=
  (Select.Lowered.reuse _ h.each).sort hkeys

theorem mapped {changes : NameMap ColumnChange} (h : Lowered selects schema)
    (hresult : schema.mapped changes = .ok result) :
    ((Select.reuseOrdered (Select.admitsMapColumns changes) schema selects).mapped
      changes).Lowered result :=
  (Select.Lowered.reuseOrdered _ h.each).mapColumns hresult

end Lowered

end Sql

namespace Query

open Sql (Select)

theorem mem_lowerBranches {target : Schema} {branches : List Query} {select : Select} :
    select ∈ lowerBranches target branches ↔
      ∃ query ∈ branches, ∃ own ∈ Select.branch query.schema query.lower,
        own.align target = select := by
  induction branches with
  | nil => simp [lowerBranches]
  | cons query rest ih => simp [lowerBranches, ih]

theorem lowerBranches_ne_nil {target : Schema} {branches : List Query}
    (hne : branches ≠ [])
    (h : ∀ query ∈ branches, Sql.Lowered query.lower query.schema) :
    lowerBranches target branches ≠ [] := by
  obtain ⟨query, rest, rfl⟩ := List.exists_cons_of_ne_nil hne
  have hbranch := Select.branch_ne_nil (h query List.mem_cons_self)
  simp [lowerBranches, hbranch]

-- Every accepted query becomes selects with the columns of its schema.
theorem lower_lowered : AcceptedCases fun query schema => Sql.Lowered query.lower schema where
  table name schema := .single (Select.Lowered.plain _)
  sql text schema := .single (Select.Lowered.plain _)
  project {input ids schema result} hinput h ih := by
    rw [lower, schema_of_infer hinput]
    exact .single (ih.projected h)
  filter {input condition schema result} hinput h ih := by
    obtain ⟨rfl, -⟩ := Schema.filtered_ok h
    rw [lower, schema_of_infer hinput]
    exact .single ih.filtered
  extend {input id exp options schema result} hinput h ih := by
    rw [lower, schema_of_infer hinput]
    exact .single (ih.extended h)
  groupBy {input keys aggs schema result} hinput h ih := by
    rw [lower, schema_of_infer hinput]
    exact .single (ih.grouped h)
  join {lhs rhs on type left right result} hleft hright h ihleft ihright := by
    refine .single ?_
    rw [schema_of_infer (infer_join hleft hright h)]
    exact Select.Lowered.ofJoin
  concat {branches schemas result} hbranches h := by
    have hself := infer_concat (hbranches.imp fun _ _ hbranch => hbranch.1) h
    obtain ⟨hne, hstacks⟩ := Schema.concatenated_ok h
    have hlowered : ∀ query ∈ branches, Sql.Lowered query.lower query.schema := by
      intro query hquery
      obtain ⟨schema, -, hinfer, ih⟩ := exists_mem_right hbranches hquery
      exact schema_of_infer hinfer ▸ ih
    have hown : ∀ select ∈ lowerBranches result branches,
        select.Lowered result ∧ select.orderBy = [] := by
      intro select hselect
      obtain ⟨query, hquery, own, hmem, rfl⟩ := mem_lowerBranches.mp hselect
      obtain ⟨schema, hschema, hinfer, ih⟩ := exists_mem_right hbranches hquery
      rw [schema_of_infer hinfer] at hmem
      have hboth := Select.Lowered.branch ih own hmem
      exact ⟨hboth.1.align hboth.2 (hstacks schema hschema), hboth.2⟩
    have hbranches_ne : branches ≠ [] := by
      rintro rfl
      exact hne (List.forall₂_nil_left_iff.mp hbranches)
    rw [lower, schema_of_infer hself]
    exact ⟨lowerBranches_ne_nil hbranches_ne hlowered,
      fun select hselect => (hown select hselect).1,
      fun _ select hselect => (hown select hselect).2⟩
  sort {input keys schema result} hinput h ih := by
    obtain ⟨rfl, hkeys⟩ := Schema.sorted_ok h
    rw [lower, schema_of_infer hinput]
    exact .single (ih.sorted hkeys)
  mapColumns {input changes schema result} hinput h ih := by
    rw [lower, schema_of_infer hinput]
    exact .single (ih.mapped h)

end Query

end PivotQuery
