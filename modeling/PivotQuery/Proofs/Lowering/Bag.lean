import PivotQuery.Proofs.Lowering.OperatorBags
import PivotQuery.Proofs.Rows.Integers

namespace PivotQuery

open Sql (Select)

variable {V : Type} {engine : Engine V}

namespace Query

-- As long as every grouping has a key, no select of a query makes one row of everything.
theorem lower_rowwise (engine : Engine V) : AcceptedCases fun query _ => query.Keyed →
    ∀ select ∈ query.lower, select.Rowwise engine where
  table name schema _ := List.forall_mem_singleton.mpr (Select.Rowwise.plain _)
  sql text schema _ := List.forall_mem_singleton.mpr (Select.Rowwise.plain _)
  project _ _ ih hkeyed :=
    List.forall_mem_singleton.mpr (Select.Rowwise.reuseOrdered _ _ (ih (hkeyed.input rfl))).project
  filter _ _ ih hkeyed :=
    List.forall_mem_singleton.mpr (Select.Rowwise.reuseOrdered _ _ (ih (hkeyed.input rfl))).filter
  extend _ _ ih hkeyed :=
    List.forall_mem_singleton.mpr (Select.Rowwise.reuseOrdered _ _ (ih (hkeyed.input rfl))).extend
  groupBy _ _ _ hkeyed :=
    List.forall_mem_singleton.mpr (Select.Rowwise.group hkeyed.keys_ne_nil)
  join _ _ _ _ _ _ := List.forall_mem_singleton.mpr Select.Rowwise.ofJoin
  concat {branches schemas result} hbranches h hkeyed := by
    intro select hselect
    obtain ⟨query, hquery, own, hmem, rfl⟩ := mem_lowerBranches.mp hselect
    obtain ⟨schema, -, hinfer, ih⟩ := exists_mem_right hbranches hquery
    rw [schema_of_infer hinfer] at hmem
    exact (Select.Rowwise.branch (lower_lowered.holds hinfer) (ih (hkeyed.branch hquery))
      own hmem).align
  sort _ _ ih hkeyed :=
    List.forall_mem_singleton.mpr (Select.Rowwise.reuse _ _ (ih (hkeyed.input rfl))).sort
  mapColumns _ _ ih hkeyed :=
    List.forall_mem_singleton.mpr
      (Select.Rowwise.reuseOrdered _ _ (ih (hkeyed.input rfl))).mapColumns

theorem bag_lowerBranches [DecidableEq V] {db : Database V} {target : Schema}
    {branches : List Query}
    (h : ∀ query ∈ branches, Schema.Stacks target.columns query.schema ∧
      Sql.Lowered query.lower query.schema ∧ (∀ select ∈ query.lower, select.Rowwise engine) ∧
      (Sql.rowsOfAll engine db query.lower : Multiset (Row V)) = query.bag engine db) :
    (Sql.rowsOfAll engine db (lowerBranches target branches) : Multiset (Row V)) =
      bagOfAll engine db target branches := by
  induction branches with
  | nil => rfl
  | cons query rest ih =>
    obtain ⟨⟨hstacks, hlowered, hrowwise, hbag⟩, hrest⟩ := List.forall_mem_cons.mp h
    rw [lowerBranches, bagOfAll, Sql.rowsOfAll_append, ← Multiset.coe_add,
      Select.bag_alignedBranch hlowered hrowwise hstacks, hbag, ih hrest]

-- What an accepted query computes is what its selects compute, up to the order of rows.
theorem lower_bag [DecidableEq V] {db : Database V} : AcceptedCases fun query _ => query.Keyed →
    (Sql.rowsOfAll engine db query.lower : Multiset (Row V)) = query.bag engine db where
  table name schema _ := by
    rw [lower, Sql.rowsOfAll_singleton, Select.rows_table]
    rfl
  sql text schema _ := by
    rw [lower, Sql.rowsOfAll_singleton, Select.rows_sql]
    rfl
  project {input ids schema result} hinput h ih hkeyed := by
    have hlowered := lower_lowered.holds hinput
    have hrowwise := (lower_rowwise engine).holds hinput (hkeyed.input rfl)
    rw [lower, schema_of_infer hinput, Sql.rowsOfAll_singleton,
      hlowered.bag_projected hrowwise h, ih (hkeyed.input rfl)]
    rfl
  filter {input condition schema result} hinput h ih hkeyed := by
    have hlowered := lower_lowered.holds hinput
    have hrowwise := (lower_rowwise engine).holds hinput (hkeyed.input rfl)
    rw [lower, schema_of_infer hinput, Sql.rowsOfAll_singleton,
      hlowered.bag_filtered hrowwise h, ih (hkeyed.input rfl)]
    rfl
  extend {input id exp options schema result} hinput h ih hkeyed := by
    have hlowered := lower_lowered.holds hinput
    have hrowwise := (lower_rowwise engine).holds hinput (hkeyed.input rfl)
    rw [lower, schema_of_infer hinput, Sql.rowsOfAll_singleton,
      hlowered.bag_extended hrowwise h, ih (hkeyed.input rfl)]
    rfl
  groupBy {input keys aggs schema result} hinput h ih hkeyed := by
    have hlowered := lower_lowered.holds hinput
    have hrowwise := (lower_rowwise engine).holds hinput (hkeyed.input rfl)
    rw [lower, schema_of_infer hinput, Sql.rowsOfAll_singleton,
      hlowered.bag_groupBy hrowwise hkeyed.keys_ne_nil h, ih (hkeyed.input rfl)]
    rfl
  join {lhs rhs on type left right result} hleft hright h ihleft ihright hkeyed := by
    rw [lower, schema_of_infer (infer_join hleft hright h), schema_of_infer hleft,
      Sql.rowsOfAll_singleton, Select.bag_ofJoin h (lower_lowered.holds hleft),
      ihleft hkeyed.sides.1, ihright hkeyed.sides.2, ← schema_of_infer hright]
    rfl
  concat {branches schemas result} hbranches h hkeyed := by
    have hinfer := infer_concat (hbranches.imp fun _ _ hbranch => hbranch.1) h
    rw [lower, bag]
    apply bag_lowerBranches
    intro query hquery
    obtain ⟨schema, hschema, hquery', ih⟩ := exists_mem_right hbranches hquery
    rw [schema_of_infer hinfer, schema_of_infer hquery']
    exact ⟨(Schema.concatenated_ok h).2 schema hschema, lower_lowered.holds hquery',
      (lower_rowwise engine).holds hquery' (hkeyed.branch hquery), ih (hkeyed.branch hquery)⟩
  sort {input keys schema result} hinput h ih hkeyed := by
    have hlowered := lower_lowered.holds hinput
    have hrowwise := (lower_rowwise engine).holds hinput (hkeyed.input rfl)
    rw [lower, schema_of_infer hinput, Sql.rowsOfAll_singleton,
      hlowered.bag_sorted hrowwise (Schema.sorted_ok h).2, ih (hkeyed.input rfl)]
    rfl
  mapColumns {input changes schema result} hinput h ih hkeyed := by
    have hlowered := lower_lowered.holds hinput
    have hrowwise := (lower_rowwise engine).holds hinput (hkeyed.input rfl)
    rw [lower, schema_of_infer hinput, Sql.rowsOfAll_singleton,
      hlowered.bag_mapped hrowwise h, ih (hkeyed.input rfl)]
    rfl

end Query

-- Whatever the lowering merges and wraps, the selects of a query give the rows that the query
-- means, each as often.
theorem lowering_preserves_rows {V : Type} [DecidableEq V] (engine : Engine V) (db : Database V)
    (query : TypedQuery) (hkeyed : query.query.Keyed) :
    (Sql.rowsOfAll engine db query.query.lower : Multiset (Row V)) = query.query.bag engine db :=
  Query.lower_bag.holds query.typed hkeyed

def salesByRegion : TypedQuery :=
  ⟨.groupBy (.sort (.table "sales" saleColumns) [⟨"amount", false⟩]) ["region"]
    [⟨.sum, "amount"⟩], saleColumns, rfl⟩

-- The sales of unknown region are one group.
theorem lowering_preserves_rows_salesByRegion :
    salesByRegion.query.Keyed ∧
      (Sql.rowsOfAll .integers sales salesByRegion.query.lower : Multiset (Row (Option Int))) =
        {[("region", none), ("amount", some 11)], [("region", some 1), ("amount", some 7)],
          [("region", some 2), ("amount", some 9)]} := by
  have hkeyed : salesByRegion.query.Keyed := by decide
  refine ⟨hkeyed, (lowering_preserves_rows .integers sales salesByRegion hkeyed).trans ?_⟩
  decide

end PivotQuery
