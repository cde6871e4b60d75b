import PivotQuery.Proofs.Aggregates.Operators

namespace PivotQuery

open Sql (Select)

variable {V : Type} [DecidableEq V] {engine : Engine V} {db : Database V}

-- What some rows have in common: each aggregate over all of them.
def aggregateRow (engine : Engine V) (aggs : List Aggregate) (rows : Multiset (Row V)) : Row V :=
  aggs.map fun aggregate =>
    (aggregate.column, engine.aggregate aggregate.agg
      (rows.map fun row => row.get engine aggregate.column))

-- The columns with an aggregate that makes one row of everything.
def collapsedColumns (engine : Engine V) (aggs : List Aggregate) : List String :=
  (aggs.filter fun aggregate => engine.collapses aggregate.agg).map Aggregate.column

namespace RowOp

def onSelectAll (ops : List RowOp) (select : Select) : Select :=
  ops.foldl (fun select op => op.onSelect select) select

theorem sourceRows_onSelect {op : RowOp} (hop : op.isFilter = false) (select : Select) :
    (op.onSelect select).sourceRows engine db = select.sourceRows engine db := by
  cases op with
  | filter condition => simp [isFilter] at hop
  | project ids => rfl
  | extend id exp options => rfl
  | mapColumns changes => rfl

omit [DecidableEq V] in
theorem carryAll_nil (ops : List RowOp) : carryAll ops [] = [] := by
  induction ops with
  | nil => rfl
  | cons op rest ih => cases op <;> exact ih

omit [DecidableEq V] in
private theorem names_ne_nil {ops : List RowOp} {names : List String}
    (h : carryAll ops names ≠ []) :
    names ≠ [] := by
  rintro rfl
  exact h (carryAll_nil ops)

end RowOp

namespace Query.Aggregated

variable {query : Query} {select : Select} {names : List String} {ops : List RowOp}
variable {result : Schema}

variable (db) in
-- Operators that need no column all go into the select.
theorem applyAll (h : query.Aggregated engine select names)
    (haccepted : (RowOp.applyAll ops query).infer = .ok result)
    (hops : ∀ op ∈ ops, op.isFilter = false) (href : ∀ op ∈ ops, op.refersTo = [])
    (hkept : RowOp.carryAll ops names ≠ []) :
    (RowOp.applyAll ops query).Aggregated engine (RowOp.onSelectAll ops select)
        (RowOp.carryAll ops names) ∧
      (RowOp.onSelectAll ops select).sourceRows engine db = select.sourceRows engine db ∧
      ∀ group, RowOp.allOnRows engine ops [Sql.valueRow engine select.items group] =
        [Sql.valueRow engine (RowOp.onSelectAll ops select).items group] := by
  induction ops generalizing query select names with
  | nil => exact ⟨h, rfl, fun _ => rfl⟩
  | cons op rest ih =>
    obtain ⟨hop, hrest⟩ := List.forall_mem_cons.mp hops
    obtain ⟨hnone, hrefRest⟩ := List.forall_mem_cons.mp href
    obtain ⟨schema, hschema⟩ : ∃ schema, (op.apply query).infer = .ok schema :=
      RowOp.accepted_of_applyAll rest haccepted
    obtain ⟨input, hinput, hresult⟩ := RowOp.infer_apply.mp hschema
    have hfits := ((lower_lowered.holds hinput).each select (by simp [h.lower])).fits
    have hnext := h.apply (RowOp.names_ne_nil hkept) hschema hop hnone
    obtain ⟨hfinal, hsource, hrows⟩ := ih hnext haccepted hrest hrefRest hkept
    refine ⟨hfinal, hsource.trans (RowOp.sourceRows_onSelect hop select), fun group => ?_⟩
    rw [RowOp.allOnRows, List.foldl_cons, RowOp.valueRow_onSelect hfits hresult hop hnone]
    exact hrows group

variable (db) in
-- As soon as one of them needs a column, the row is made in a subquery.
private theorem alone (h : query.Aggregated engine select names)
    (haccepted : (RowOp.applyAll ops query).infer = .ok result)
    (hops : ∀ op ∈ ops, op.isFilter = false) (href : ∃ op ∈ ops, op.refersTo ≠ [])
    (hkept : RowOp.carryAll ops names ≠ []) :
    ∃ row, RowOp.allOnRows engine ops (Sql.rowsOfAll engine db query.lower) = [row] ∧
      (RowOp.applyAll ops query).Alone engine db row := by
  induction ops generalizing query select names with
  | nil => simp at href
  | cons op rest ih =>
    obtain ⟨hop, hrest⟩ := List.forall_mem_cons.mp hops
    have hnames := RowOp.names_ne_nil hkept
    obtain ⟨schema, hschema⟩ : ∃ schema, (op.apply query).infer = .ok schema :=
      RowOp.accepted_of_applyAll rest haccepted
    obtain ⟨input, hinput, hresult⟩ := RowOp.infer_apply.mp hschema
    by_cases hnone : op.refersTo = []
    · have hfits := ((lower_lowered.holds hinput).each select (by simp [h.lower])).fits
      have hnext := h.apply hnames hschema hop hnone
      have hcarried : op.carry names ≠ [] :=
        RowOp.names_ne_nil (show RowOp.carryAll rest (op.carry names) ≠ [] from hkept)
      have hrows : op.onRows engine (Sql.rowsOfAll engine db query.lower) =
          Sql.rowsOfAll engine db (op.apply query).lower := by
        rw [h.rows hnames hinput, RowOp.valueRow_onSelect hfits hresult hop hnone,
          hnext.rows hcarried hschema,
          RowOp.sourceRows_onSelect hop]
      obtain ⟨row, hrow, halone⟩ := ih hnext haccepted hrest (by simpa [hnone] using href) hkept
      refine ⟨row, ?_, halone⟩
      rw [RowOp.allOnRows, List.foldl_cons, hrows]
      exact hrow
    · obtain ⟨hrowwise, hperm⟩ := h.rows_referring db hnames hschema hnone
      rw [h.rows hnames hinput] at hperm ⊢
      obtain ⟨next, hnext⟩ : ∃ next, op.onRows engine
          [Sql.valueRow engine select.items (select.sourceRows engine db)] = [next] :=
        RowOp.onRows_singleton hop _
      have halone : (op.apply query).Alone engine db next :=
        ⟨hrowwise, List.perm_singleton.mp (hnext ▸ hperm)⟩
      obtain ⟨row, hrow, hresult⟩ := halone.applyAll haccepted hrest
      refine ⟨row, ?_, hresult⟩
      rw [RowOp.allOnRows, List.foldl_cons, hnext]
      exact hrow

end Query.Aggregated

theorem RowOp.eq_of_perm_filter {condition : Filter} {row : Row V} {rows : List (Row V)}
    (h : rows.Perm (RowOp.onRows engine (.filter condition) [row])) :
    rows = if condition.holds engine (row.get engine) then [row] else [] := by
  by_cases hholds : condition.holds engine (row.get engine) = true
  · simpa [RowOp.onRows, hholds] using h
  · simpa [RowOp.onRows, hholds] using h

namespace Query

variable {query : Query} {select : Select} {names : List String} {condition : Filter}
variable {result : Schema}

theorem Alone.rows_filter {row : Row V} (h : query.Alone engine db row)
    (haccepted : (Query.filter query condition).infer = .ok result) :
    Sql.rowsOfAll engine db (Query.filter query condition).lower =
      if condition.holds engine (row.get engine) then [row] else [] := by
  have hop : (RowOp.apply (.filter condition) query).infer = .ok result := haccepted
  exact RowOp.eq_of_perm_filter (h.rows_apply hop)

-- Below the aggregate, a filter that needs no column keeps all source rows or none.
theorem Aggregated.rows_filter (h : query.Aggregated engine select names) (hnames : names ≠ [])
    (haccepted : (Query.filter query condition).infer = .ok result) {row : Row V}
    (hrow : Sql.valueRow engine select.items (select.sourceRows engine db) = row) :
    Sql.rowsOfAll engine db (Query.filter query condition).lower =
      if condition.holds engine (row.get engine) then [row]
      else if condition.columns = [] then [Sql.valueRow engine select.items []] else [] := by
  have hop : (RowOp.apply (.filter condition) query).infer = .ok result := haccepted
  obtain ⟨schema, hinput, hresult⟩ := RowOp.infer_apply.mp hop
  have hlowered := (lower_lowered.holds hinput).each select (by simp [h.lower])
  by_cases hnone : condition.columns = []
  · have hlower : (Query.filter query condition).lower = [select.filtered condition] :=
      h.lower_apply hnames hop hnone
    have hconstant : ∀ read read' : String → V,
        condition.holds engine read = condition.holds engine read' :=
      fun _ _ => Filter.holds_congr (by simp [hnone])
    have hone : (select.filtered condition).makesOneRow engine = true := h.makesOneRow hnames
    rw [hlower, Sql.rowsOfAll_singleton, Select.rows_of_makesOneRow hone hlowered.filter,
      Select.sourceRows_filtered, if_pos hnone]
    split
    · rename_i hholds
      rw [List.filter_eq_self.mpr fun _ _ => (hconstant _ _).trans hholds]
      exact congrArg (fun row => [row]) hrow
    · rename_i hholds
      rw [List.filter_eq_nil_iff.mpr fun _ _ hkept => hholds ((hconstant _ _).trans hkept)]
      rfl
  · have hperm := (h.rows_referring db hnames hop hnone).2
    rw [h.rows hnames hinput, hrow] at hperm
    rw [if_neg hnone]
    exact RowOp.eq_of_perm_filter hperm

end Query

namespace Sql.Select

variable {selects : List Select} {schema : Schema} {aggs : List Aggregate}

-- The select of a grouping without keys.
def globalAggregate (schema : Schema) (aggs : List Aggregate) (selects : List Select) : Select :=
  (Select.reuse (admitsGroupBy [] aggs) schema selects).grouped schema [] aggs

omit [DecidableEq V] in
theorem valueRow_globalAggregate (hids : ∀ id ∈ aggs.map Aggregate.column, id ∈ schema.ids)
    (group : List (SourceRow V)) :
    valueRow engine (globalAggregate schema aggs selects).items group =
      aggs.map fun aggregate => (aggregate.column, engine.aggregate aggregate.agg
        (group.map fun row => row.get engine aggregate.column)) :=
  valueRow_grouped (by simpa using hids) group

omit [DecidableEq V] in
-- It goes into no select that makes one row itself.
theorem rowwise_globalInput (hsettled : ∀ select ∈ selects, select.Settled engine)
    (hids : ∀ id ∈ aggs.map Aggregate.column, id ∈ schema.ids) (haggs : aggs ≠ []) :
    (Select.reuse (admitsGroupBy [] aggs) schema selects).Rowwise engine := by
  have hpass : (Select.reuse (admitsGroupBy [] aggs) schema selects).passesThrough
      ([] ++ aggs.map Aggregate.column) = true := passesThrough_groupByInput hids
  rw [← makesOneRow_eq_false_iff, ← Bool.not_eq_true]
  intro hone
  rw [(Settled.reuse _ hsettled).passesThrough_eq_false hone (by simpa using haggs)] at hpass
  simp at hpass

variable (db) in
-- The aggregates see the rows of the input.
theorem row_globalAggregate (h : Sql.Lowered selects schema)
    (hsettled : ∀ select ∈ selects, select.Settled engine)
    (hids : ∀ id ∈ aggs.map Aggregate.column, id ∈ schema.ids) (haggs : aggs ≠ []) :
    valueRow engine (globalAggregate schema aggs selects).items
        ((globalAggregate schema aggs selects).sourceRows engine db) =
      aggregateRow engine aggs (rowsOfAll engine db selects) := by
  have hreused := Lowered.reuse (admitsGroupBy [] aggs) h.each
  have hpass : (Select.reuse (admitsGroupBy [] aggs) schema selects).passesThrough
      ([] ++ aggs.map Aggregate.column) = true := passesThrough_groupByInput hids
  rw [valueRow_globalAggregate hids, ← bag_reuse (admitsGroupBy [] aggs) h, hreused.bag_eq,
    groups_eq (rowwise_globalInput hsettled hids haggs) groupBy_groupByInput, aggregateRow]
  refine List.map_congr_left fun aggregate haggregate => ?_
  have hcolumn : ∀ row, (valueRow engine (Select.reuse (admitsGroupBy [] aggs) schema
      selects).items [row]).get engine aggregate.column = row.get engine aggregate.column :=
    fun row => get_of_passesThrough hpass [row] _ (List.mem_map_of_mem haggregate)
  simp only [List.map_map, Multiset.map_coe, Function.comp_def, hcolumn]
  rfl

end Sql.Select

omit [DecidableEq V] in
theorem Query.aggregated_groupBy {input : Query} {aggs : List Aggregate} {schema result : Schema}
    (hinput : input.infer = .ok schema) (h : schema.grouped [] aggs = .ok result) :
    (Query.groupBy input [] aggs).Aggregated engine
      (Select.globalAggregate schema aggs input.lower) (collapsedColumns engine aggs) where
  lower := by
    rw [lower, schema_of_infer hinput]
    rfl
  groupBy := rfl
  orderBy := Select.orderBy_groupByInput
  aggregates name hname := by
    obtain ⟨aggregate, haggregate, rfl⟩ := List.mem_map.mp hname
    obtain ⟨haggregate, hcollapses⟩ := List.mem_filter.mp haggregate
    obtain ⟨type, htype⟩ := Schema.exists_type?
      (Schema.grouped_mem h _ (List.mem_append_right _ (List.mem_map_of_mem haggregate)))
    have hitem : Select.aggregateItem? schema aggregate =
        some ⟨.aggregate aggregate.agg aggregate.column type, aggregate.agg.resultType type,
          aggregate.column⟩ := by
      rw [Select.aggregateItem?, htype]
      rfl
    exact ⟨_, List.mem_append_right _ (List.mem_filterMap.mpr ⟨aggregate, haggregate, hitem⟩),
      rfl, hcollapses⟩

-- A filter keeps the row of a global aggregate where it holds on that row, whatever row by row
-- operators are between them, and drops it elsewhere: unless neither it nor an operator before
-- needs a column, as then the filter goes below the aggregate, and instead of no row there is
-- one made of no rows.
theorem filter_of_global_aggregate {V : Type} [DecidableEq V] (engine : Engine V)
    (db : Database V) (input : Query) (aggs : List Aggregate) (ops : List RowOp)
    (condition : Filter) (result : Schema)
    (haccepted : (Query.filter (RowOp.applyAll ops (.groupBy input [] aggs)) condition).infer =
      .ok result)
    (hops : ∀ op ∈ ops, op.isFilter = false)
    (hkept : RowOp.carryAll ops (collapsedColumns engine aggs) ≠ []) :
    ∃ row, RowOp.allOnRows engine ops
        [aggregateRow engine aggs (Sql.rowsOfAll engine db input.lower)] = [row] ∧
      Sql.rowsOfAll engine db (RowOp.applyAll ops (.groupBy input [] aggs)).lower = [row] ∧
      Sql.rowsOfAll engine db
          (Query.filter (RowOp.applyAll ops (.groupBy input [] aggs)) condition).lower =
        if condition.holds engine (row.get engine) then [row]
        else if ∀ op ∈ ops ++ [.filter condition], op.refersTo = [] then
          RowOp.allOnRows engine ops [aggregateRow engine aggs 0]
        else [] := by
  have hfilter : (RowOp.apply (.filter condition)
      (RowOp.applyAll ops (.groupBy input [] aggs))).infer = .ok result := haccepted
  obtain ⟨outer, houter, -⟩ := RowOp.infer_apply.mp hfilter
  obtain ⟨grouped, hgrouped⟩ := RowOp.accepted_of_applyAll ops houter
  obtain ⟨schema, hinput, h⟩ := bind_eq_ok.mp (by simpa only [Query.infer] using hgrouped)
  have hbase : (Query.groupBy input [] aggs).Aggregated engine _ _ :=
    Query.aggregated_groupBy hinput h
  have hnames := RowOp.names_ne_nil hkept
  have haggs : aggs ≠ [] := by
    rintro rfl
    exact hnames rfl
  have hids : ∀ id ∈ aggs.map Aggregate.column, id ∈ schema.ids := fun id hid =>
    Schema.grouped_mem h id (List.mem_append_right _ hid)
  have hfirst := Select.row_globalAggregate db
    (Query.lower_lowered.holds hinput) ((Query.lower_settled engine).holds hinput) hids haggs
  by_cases href : ∀ op ∈ ops, op.refersTo = []
  · obtain ⟨hfinal, hsource, hvalues⟩ := hbase.applyAll db houter hops href hkept
    have hempty := hvalues []
    rw [Select.valueRow_globalAggregate hids] at hempty
    refine ⟨_, hfirst ▸ hvalues _, ?_, ?_⟩
    · rw [hfinal.rows hkept houter, hsource]
    · rw [hfinal.rows_filter hkept haccepted (by rw [hsource])]
      have hall : (∀ op ∈ ops ++ [.filter condition], op.refersTo = []) ↔
          condition.columns = [] := by
        rw [List.forall_mem_append, List.forall_mem_singleton]
        exact and_iff_right href
      simp only [hall, ← hempty]
      rfl
  · have hsome : ∃ op ∈ ops, op.refersTo ≠ [] := by simpa using href
    obtain ⟨row, hrow, halone⟩ := hbase.alone db houter hops hsome hkept
    rw [hbase.rows hnames hgrouped, hfirst] at hrow
    refine ⟨row, hrow, halone.rows, (halone.rows_filter haccepted).trans ?_⟩
    rw [if_neg (fun hall => href (List.forall_mem_append.mp hall).1)]

def saleCount : Query := .groupBy (.table "sales" saleColumns) [] [⟨.count, "amount"⟩]

-- The number gets a constant next to it and another name.
def numberNextToOne : List RowOp :=
  [.extend "k" (.constant (.int 1)) ⟨.integer, none⟩,
    .mapColumns ⟨[("amount", ⟨some "n", none⟩)], by simp⟩]

def moreThanThree : Filter :=
  ⟨.and, [.relation (.binary (.compare .gt) (.column "n") (.constant (.int 3)))]⟩

theorem filter_of_global_aggregate_saleCount :
    (Query.filter (RowOp.applyAll numberNextToOne saleCount) moreThanThree).infer =
        .ok ⟨[⟨"n", "amount", .integer⟩, .ofType "k" .integer], by decide⟩ ∧
      (∀ op ∈ numberNextToOne, op.isFilter = false) ∧
      RowOp.carryAll numberNextToOne (collapsedColumns .integers [⟨.count, "amount"⟩]) ≠ [] ∧
      Sql.rowsOfAll .integers sales
          (Query.filter (RowOp.applyAll numberNextToOne saleCount) moreThanThree).lower =
        [[("n", some 4), ("k", some 1)]] := by
  have haccepted : (Query.filter (RowOp.applyAll numberNextToOne saleCount) moreThanThree).infer =
      .ok ⟨[⟨"n", "amount", .integer⟩, .ofType "k" .integer], by decide⟩ := rfl
  have hops : ∀ op ∈ numberNextToOne, op.isFilter = false := by decide
  have hkept : RowOp.carryAll numberNextToOne
      (collapsedColumns .integers [⟨.count, "amount"⟩]) ≠ [] := by decide
  obtain ⟨row, -, hrow, hfiltered⟩ := filter_of_global_aggregate .integers sales
    (.table "sales" saleColumns) [⟨.count, "amount"⟩] numberNextToOne moreThanThree _ haccepted
    hops hkept
  have hcount : Sql.rowsOfAll .integers sales (RowOp.applyAll numberNextToOne saleCount).lower =
      [[("n", some 4), ("k", some 1)]] := by
    rw [Query.rows_of_lower rfl rfl]
    decide
  obtain rfl := List.singleton_injective (hrow.symm.trans hcount)
  exact ⟨haccepted, hops, hkept, hfiltered⟩

-- A filter that holds nowhere and needs no column.
def oneIsTwo : Filter :=
  ⟨.and, [.relation (.binary (.compare .eq) (.constant (.int 1)) (.constant (.int 2)))]⟩

theorem filtered_saleCount_keeps_a_row :
    (Query.filter saleCount oneIsTwo).infer = .ok ⟨[.ofType "amount" .integer], by decide⟩ ∧
      Sql.rowsOfAll .integers sales saleCount.lower = [[("amount", some 4)]] ∧
      oneIsTwo.holds .integers (Row.get .integers [("amount", some 4)]) = false ∧
      Sql.rowsOfAll .integers sales (Query.filter saleCount oneIsTwo).lower =
        [[("amount", some 0)]] := by
  have hcount : Sql.rowsOfAll .integers sales saleCount.lower = [[("amount", some 4)]] := by
    rw [Query.rows_of_lower rfl rfl]
    decide
  have hfiltered : Sql.rowsOfAll .integers sales (Query.filter saleCount oneIsTwo).lower =
      [[("amount", some 0)]] := by
    rw [Query.rows_of_lower rfl rfl]
    decide
  exact ⟨rfl, hcount, rfl, hfiltered⟩

end PivotQuery
