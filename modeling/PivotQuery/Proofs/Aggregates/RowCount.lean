import PivotQuery.Proofs.Aggregates.FilteredRow
import PivotQuery.Proofs.Aggregates.ProjectedRows

namespace PivotQuery

open Sql (Select)

variable {V : Type} [DecidableEq V] {engine : Engine V} {db : Database V}

namespace RowOp

private theorem length_onRows {op : RowOp} (hop : op.isFilter = false) (rows : List (Row V)) :
    (op.onRows engine rows).length = rows.length := by
  cases op with
  | filter condition => simp [isFilter] at hop
  | project ids => simp [onRows]
  | extend id exp options => simp [onRows]
  | mapColumns changes => simp [onRows]

variable {query : Query} {result : Schema}

variable (db) in
-- Over selects that make no row of several, all operators but filters keep the number of rows.
theorem length_rows_apply {op : RowOp} (hrowwise : ∀ select ∈ query.lower, select.Rowwise engine)
    (haccepted : (op.apply query).infer = .ok result) (hop : op.isFilter = false) :
    (∀ select ∈ (op.apply query).lower, select.Rowwise engine) ∧
      (Sql.rowsOfAll engine db (op.apply query).lower).length =
        (Sql.rowsOfAll engine db query.lower).length := by
  obtain ⟨schema, hinput, hresult⟩ := infer_apply.mp haccepted
  rw [lower_apply hinput, Sql.rowsOfAll_singleton]
  have hperm := perm_onSelect db (Query.lower_lowered.holds hinput) hrowwise hresult
  exact ⟨List.forall_mem_singleton.mpr
      (rowwise_onSelect op (Select.Rowwise.reuseOrdered _ _ hrowwise)),
    hperm.length_eq.trans (length_onRows hop _)⟩

theorem length_rows_applyAll {ops : List RowOp}
    (hrowwise : ∀ select ∈ query.lower, select.Rowwise engine)
    (haccepted : (applyAll ops query).infer = .ok result)
    (hops : ∀ op ∈ ops, op.isFilter = false) :
    (Sql.rowsOfAll engine db (applyAll ops query).lower).length =
      (Sql.rowsOfAll engine db query.lower).length := by
  induction ops generalizing query with
  | nil => rfl
  | cons op rest ih =>
    obtain ⟨hop, hrest⟩ := List.forall_mem_cons.mp hops
    obtain ⟨schema, hschema⟩ : ∃ schema, (op.apply query).infer = .ok schema :=
      accepted_of_applyAll rest haccepted
    obtain ⟨hnext, hlength⟩ := length_rows_apply db hrowwise hschema hop
    exact (ih hnext haccepted hrest).trans hlength

end RowOp

namespace Sql.Select

variable {selects : List Select} {schema result : Schema} {aggs : List Aggregate}

omit [DecidableEq V] in
theorem rowwise_globalAggregate (hnone : collapsedColumns engine aggs = []) :
    (globalAggregate schema aggs selects).Rowwise engine := by
  intro _ item hitem
  obtain ⟨aggregate, haggregate, hitem⟩ := List.mem_filterMap.mp hitem
  obtain ⟨type, -, rfl⟩ := Option.map_eq_some_iff.mp hitem
  have hkept : engine.collapses aggregate.agg ≠ true :=
    List.filter_eq_nil_iff.mp (List.map_eq_nil_iff.mp hnone) aggregate haggregate
  exact Bool.eq_false_of_not_eq_true hkept

private theorem length_reuse (mergeable : Select → Bool) (h : Sql.Lowered selects schema) :
    ((reuse mergeable schema selects).rows engine db).length =
      (rowsOfAll engine db selects).length :=
  (Multiset.coe_eq_coe.mp (bag_reuse mergeable h)).length_eq

theorem length_rows_globalAggregate (h : Sql.Lowered selects schema)
    (hsettled : ∀ select ∈ selects, select.Settled engine)
    (hresult : schema.grouped [] aggs = .ok result) (haggs : aggs ≠ [])
    (hnone : collapsedColumns engine aggs = []) :
    ((globalAggregate schema aggs selects).rows engine db).length =
      (rowsOfAll engine db selects).length := by
  have hids : ∀ id ∈ aggs.map Aggregate.column, id ∈ schema.ids := fun id hid =>
    Schema.grouped_mem hresult id (List.mem_append_right _ hid)
  have hreused := Lowered.reuse (admitsGroupBy [] aggs) h.each
  have hlowered : (globalAggregate schema aggs selects).Lowered result := h.grouped hresult
  have hgroups : (globalAggregate schema aggs selects).groups engine db =
      (reuse (admitsGroupBy [] aggs) schema selects).groups engine db := by
    rw [groups_eq (rowwise_globalAggregate hnone) rfl,
      groups_eq (rowwise_globalInput hsettled hids haggs) groupBy_groupByInput]
    rfl
  rw [hlowered.length_rows, hgroups, ← hreused.length_rows, length_reuse _ h]

end Sql.Select

variable (engine db) in
-- Operators that need no column leave a global aggregate with one row if one of its aggregates
-- makes one row of everything and they keep that one. If there is no such aggregate, then there
-- is a row for each row that was to be aggregated.
theorem Query.length_of_global_aggregate {input : Query} {aggs : List Aggregate}
    {ops : List RowOp} {result : Schema}
    (haccepted : (RowOp.applyAll ops (.groupBy input [] aggs)).infer = .ok result)
    (haggs : aggs ≠ []) (hops : ∀ op ∈ ops, op.isFilter = false)
    (href : ∀ op ∈ ops, op.refersTo = [])
    (hkept : RowOp.carryAll ops (collapsedColumns engine aggs) = collapsedColumns engine aggs) :
    (Sql.rowsOfAll engine db (RowOp.applyAll ops (.groupBy input [] aggs)).lower).length =
      if collapsedColumns engine aggs = [] then (Sql.rowsOfAll engine db input.lower).length
      else 1 := by
  obtain ⟨grouped, hgrouped⟩ := RowOp.accepted_of_applyAll ops haccepted
  obtain ⟨schema, hinput, h⟩ := bind_eq_ok.mp (by simpa only [Query.infer] using hgrouped)
  have hbase : (Query.groupBy input [] aggs).Aggregated engine
      (Select.globalAggregate schema aggs input.lower) _ :=
    Query.aggregated_groupBy hinput h
  split
  · rename_i hnone
    have hrowwise : ∀ select ∈ (Query.groupBy input [] aggs).lower, select.Rowwise engine := by
      rw [hbase.lower]
      exact List.forall_mem_singleton.mpr (Select.rowwise_globalAggregate hnone)
    rw [RowOp.length_rows_applyAll hrowwise haccepted hops, hbase.lower, Sql.rowsOfAll_singleton,
      Select.length_rows_globalAggregate (lower_lowered.holds hinput)
        ((lower_settled engine).holds hinput) h haggs hnone]
  · rename_i hsome
    obtain ⟨hfinal, -, -⟩ := hbase.applyAll db haccepted hops href (hkept.trans_ne hsome)
    rw [hfinal.rows (hkept.trans_ne hsome) haccepted, List.length_singleton]

end PivotQuery
