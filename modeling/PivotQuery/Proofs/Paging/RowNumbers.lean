import PivotQuery.Proofs.Lowering.OperatorGroups
import PivotQuery.Proofs.Lowering.Scope
import PivotQuery.Proofs.Paging.Places
import PivotQuery.Sql.Paging

namespace PivotQuery

-- An engine sorts and compares 64-bit integers by their values.
structure Engine.OrdersIntegers {V : Type} (engine : Engine V) : Prop where
  ge : ∀ a b : Int64, engine.compare .ge (engine.constant (.int a)) (engine.constant (.int b)) =
    some (decide (b.toInt ≤ a.toInt))
  le : ∀ a b : Int64, engine.compare .le (engine.constant (.int a)) (engine.constant (.int b)) =
    some (decide (a.toInt ≤ b.toInt))
  before : ∀ a b : Int64, engine.before true (engine.constant (.int a))
    (engine.constant (.int b)) = decide (a.toInt ≤ b.toInt)

theorem toInt_clamped (n : Nat) :
    (Int64.ofIntClamp n).toInt = min (n : Int) Int64.maxValue.toInt := by
  have hleast : Int64.minValue.toInt ≤ (n : Int) := by
    have hnegative : Int64.minValue.toInt = -9223372036854775808 := by decide
    omega
  rcases Int.le_total (n : Int) Int64.maxValue.toInt with h | h
  · rw [Int64.toInt_ofIntClamp hleast h, Int.min_eq_left h]
  · rw [Int.min_eq_right h, Int64.ofIntClamp, dif_pos hleast]
    split
    · rw [Int64.toInt_ofIntLE]
      omega
    · rfl

namespace Sql

variable {V : Type} {engine : Engine V}

-- A row number below the greatest integer is on the page that the range of numbers asks for,
-- also where an end of the range is beyond that integer.
theorem pageRange_holds [DecidableEq V] (hintegers : engine.OrdersIntegers)
    {offset limit : Option Nat} {read : String → V} {place : Nat}
    (hplace : (place + 1 : Int) < Int64.maxValue.toInt)
    (hread : read rowNumberColumn = countValue engine (place + 1)) :
    (pageRange offset limit).holds engine read = onPage offset limit place := by
  have hnumber : (Int64.ofIntClamp (place + 1 : Nat)).toInt = place + 1 := by
    rw [toInt_clamped]
    omega
  have hfirst : (decide ((Int64.ofIntClamp (offset.getD 0 + 1 : Nat)).toInt ≤
      (Int64.ofIntClamp (place + 1 : Nat)).toInt)) = decide (offset.getD 0 ≤ place) := by
    rw [hnumber, toInt_clamped]
    exact decide_eq_decide.mpr (by omega)
  cases limit with
  | none =>
    simp only [pageRange, Filter.holds, Filter.toClause, Clause.truth, Clause.truths,
      RelExp.truth, ValueExpr.eval, rowNumber, hread, countValue, hintegers.ge, hfirst, onPage]
    cases decide (offset.getD 0 ≤ place) <;> rfl
  | some limit =>
    have hlast : (decide ((Int64.ofIntClamp (place + 1 : Nat)).toInt ≤
        (Int64.ofIntClamp (offset.getD 0 + limit : Nat)).toInt)) =
          decide (place < offset.getD 0 + limit) := by
      rw [hnumber, toInt_clamped]
      exact decide_eq_decide.mpr (by omega)
    simp only [pageRange, Filter.holds, Filter.toClause, Clause.truth, Clause.truths,
      RelExp.truth, ValueExpr.eval, rowNumber, hread, countValue, hintegers.ge, hintegers.le,
      hfirst, hlast, onPage]
    cases decide (offset.getD 0 ≤ place) <;>
      cases decide (place < offset.getD 0 + limit) <;> rfl

end Sql

end PivotQuery
