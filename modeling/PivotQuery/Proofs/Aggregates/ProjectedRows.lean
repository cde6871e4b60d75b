import PivotQuery.Proofs.Aggregates.OneRow
import PivotQuery.Proofs.Rows.Order

namespace PivotQuery

open Sql (Select)

namespace Sql.Select

variable {V : Type} {engine : Engine V} {select : Select} {schema result : Schema}

-- The projection goes into a select of one row and takes away from it what made that row.
def losesAggregates (engine : Engine V) (ids : List String) (select : Select) : Bool :=
  select.admitsProject ids && select.makesOneRow engine &&
    !(select.projected ids).makesOneRow engine

-- A select that the projection does not go into makes as many rows with it as without it, and
-- so does one that keeps an aggregate.
theorem makesOneRow_projectInput {ids : List String} {selects : List Select}
    (h : ∀ select, selects = [select] → select.losesAggregates engine ids = false) :
    ((reuseOrdered (admitsProject ids) schema selects).projected ids).makesOneRow engine =
      (reuseOrdered (admitsProject ids) schema selects).makesOneRow engine := by
  have hwrapped : ∀ {wrapped : Select}, wrapped.Rowwise engine →
      (wrapped.projected ids).makesOneRow engine = wrapped.makesOneRow engine := by
    intro wrapped hrowwise
    rw [makesOneRow_eq_false_iff.mpr hrowwise, makesOneRow_eq_false_iff.mpr hrowwise.project]
  refine reuseOrdered_cases
    (P := fun select => (select.projected ids).makesOneRow engine = select.makesOneRow engine)
    (fun select hselect hadmits => ?_) (hwrapped (Rowwise.wrap _))
    (fun _ _ => hwrapped Rowwise.wrapOrdered)
  have hkept := h select hselect
  simp only [losesAggregates, hadmits, Bool.true_and, Bool.and_eq_false_iff,
    Bool.not_eq_false'] at hkept
  rcases hkept with hmany | hone
  · exact hwrapped (makesOneRow_eq_false_iff.mp hmany)
  · rw [hone, makesOneRow_of_rowwise Rowwise.project hone]

variable [DecidableEq V] {db : Database V}

theorem Lowered.length_rows (h : select.Lowered schema) :
    (select.rows engine db).length = (select.groups engine db).length := by
  rw [rows_sorted h.all_isLowered, List.length_map, List.length_mergeSort]

theorem groups_projected {ids : List String}
    (h : (select.projected ids).makesOneRow engine = select.makesOneRow engine) :
    (select.projected ids).groups engine db = select.groups engine db := by
  refine groups_congr_items rfl rfl rfl fun hgroup => ?_
  have hprojected : (select.projected ids).groupBy = [] := hgroup
  simpa [makesOneRow, hgroup, hprojected] using h

theorem length_reuseOrdered (mergeable : Select → Bool) {selects : List Select}
    (h : Sql.Lowered selects schema) :
    ((reuseOrdered mergeable schema selects).rows engine db).length =
      (rowsOfAll engine db selects).length :=
  (Multiset.coe_eq_coe.mp (bag_reuseOrdered mergeable h)).length_eq

end Sql.Select

-- A projection keeps the number of rows, unless it goes into the select of a global aggregate
-- and drops all that is aggregated there. Then there is a row for each row that was aggregated.
theorem projection_row_count {V : Type} [DecidableEq V] (engine : Engine V) (db : Database V)
    (query : Query) (ids : List String) (result : Schema)
    (haccepted : (Query.project query ids).infer = .ok result) :
    ((∀ select, query.lower = [select] → select.losesAggregates engine ids = false) →
      (Sql.rowsOfAll engine db (Query.project query ids).lower).length =
        (Sql.rowsOfAll engine db query.lower).length) ∧
    ∀ select, query.lower = [select] → select.losesAggregates engine ids = true →
      (Sql.rowsOfAll engine db query.lower).length = 1 ∧
        (Sql.rowsOfAll engine db (Query.project query ids).lower).length =
          (select.sourceRows engine db).length := by
  obtain ⟨schema, hinput, h⟩ := bind_eq_ok.mp (by simpa only [Query.infer] using haccepted)
  have hlowered := Query.lower_lowered.holds hinput
  have hreused := Select.Lowered.reuseOrdered (Select.admitsProject ids) hlowered.each
  have hlower : (Query.project query ids).lower =
      [(Select.reuseOrdered (Select.admitsProject ids) schema query.lower).projected ids] := by
    rw [Query.lower, Query.schema_of_infer hinput]
  rw [hlower, Sql.rowsOfAll_singleton, (hlowered.projected h).length_rows]
  refine ⟨fun hkeeps => ?_, fun select hselect hloses => ?_⟩
  · rw [Select.groups_projected (Select.makesOneRow_projectInput hkeeps), ← hreused.length_rows,
      Select.length_reuseOrdered (Select.admitsProject ids) hlowered]
  · simp only [Select.losesAggregates, Bool.and_eq_true, Bool.not_eq_true'] at hloses
    obtain ⟨⟨hadmits, hone⟩, hmany⟩ := hloses
    have hreuse : Select.reuseOrdered (Select.admitsProject ids) schema query.lower = select := by
      simp [hselect, Select.reuseOrdered, hadmits]
    rw [hreuse, Select.groups_eq (Select.makesOneRow_eq_false_iff.mp hmany)
        (Select.makesOneRow_iff.mp hone).1, List.length_map, hselect, Sql.rowsOfAll_singleton,
      (hlowered.each select (by simp [hselect])).length_rows, Select.groups_of_makesOneRow hone]
    exact ⟨rfl, rfl⟩

-- The number of sales, with a constant next to it.
def countedSales : Query :=
  .extend (.groupBy (.table "sales" saleColumns) [] [⟨.count, "amount"⟩]) "k"
    (.constant (.int 1)) ⟨.integer, none⟩

theorem projection_row_count_countedSales :
    (Query.project countedSales ["amount"]).infer = .ok ⟨[.ofType "amount" .integer], by decide⟩ ∧
      (Sql.rowsOfAll .integers sales (Query.project countedSales ["amount"]).lower).length =
        (Sql.rowsOfAll .integers sales countedSales.lower).length := by
  have haccepted : (Query.project countedSales ["amount"]).infer =
      .ok ⟨[.ofType "amount" .integer], by decide⟩ := rfl
  refine ⟨haccepted, (projection_row_count .integers sales countedSales ["amount"] _
    haccepted).1 fun select hselect => ?_⟩
  obtain rfl := List.singleton_injective hselect
  rfl

-- Without the number itself, the constant is there once for each sale.
theorem projection_of_countedSales_has_more_rows :
    (Query.project countedSales ["k"]).infer = .ok ⟨[.ofType "k" .integer], by decide⟩ ∧
      (Sql.rowsOfAll .integers sales countedSales.lower).length = 1 ∧
      (Sql.rowsOfAll .integers sales (Query.project countedSales ["k"]).lower).length = 4 := by
  have hrows : Sql.rowsOfAll .integers sales (Query.project countedSales ["k"]).lower =
      [[("k", some 1)], [("k", some 1)], [("k", some 1)], [("k", some 1)]] := by
    rw [Query.rows_of_lower rfl rfl]
    decide
  have hrow : Sql.rowsOfAll .integers sales countedSales.lower =
      [[("amount", some 4), ("k", some 1)]] := by
    rw [Query.rows_of_lower rfl rfl]
    decide
  exact ⟨rfl, by rw [hrow]; rfl, by rw [hrows]; rfl⟩

end PivotQuery
