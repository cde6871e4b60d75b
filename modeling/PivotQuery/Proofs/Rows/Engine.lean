import PivotQuery.Filter.Basic
import Mathlib.Data.Multiset.Basic

namespace PivotQuery

-- The values of a row by the names of its columns.
abbrev Row (V : Type) := List (String × V)

-- What an engine computes with: its values, how it compares, casts and aggregates them, and
-- in which order it sorts them. A comparison may be unknown. Whether a text is to match a
-- constant matters because only there wildcards are ordinary characters. An aggregate looks
-- at no order among its rows; without GROUP BY it makes one row of a result if it collapses
-- it.
structure Engine (V : Type) where
  constant : Scalar → V
  cast : ColumnType → V → V
  compare : Comparison → V → V → Option Bool
  like : TextPlace → Bool → V → V → Option Bool
  aggregate : AggFn → Multiset V → V
  collapses : AggFn → Bool
  before : Bool → V → V → Bool
  before_trans : ∀ ascending a b c,
    before ascending a b = true → before ascending b c = true → before ascending a c = true
  before_total : ∀ ascending a b, (before ascending a b || before ascending b a) = true

namespace Engine

variable {V : Type} [DecidableEq V]

def null (engine : Engine V) : V := engine.constant .null

-- Keys match if they are equal or both missing.
def sameKey (engine : Engine V) (a b : V) : Bool :=
  if a = engine.null ∨ b = engine.null then decide (a = b)
  else engine.compare .eq a b == some true

end Engine

namespace Row

variable {V : Type}

def names (row : Row V) : List String := row.map Prod.fst

-- The value of the first column of that name.
def get (engine : Engine V) (row : Row V) (id : String) : V :=
  (row.lookup id).getD engine.null

end Row

section Values

variable {V : Type} (engine : Engine V) (read : String → V)

-- The value of an expression where columns have the values that `read` gives them.
def ValueExpr.eval : ValueExpr → V
  | .column id => read id
  | .constant value => engine.constant value
  | .asString operand => engine.cast .string operand.eval

def ValueExpr.isConstantText : ValueExpr → Bool
  | .constant (.text _) => true
  | _ => false

-- An unknown part leaves a group undecided unless another part decides it, and an empty
-- group is true.
def BoolOp.combine (op : BoolOp) (truths : List (Option Bool)) : Option Bool :=
  let deciding := match op with
    | .and => false
    | .or => true
  if truths.isEmpty then some true
  else if some deciding ∈ truths then some deciding
  else if none ∈ truths then none
  else some (!deciding)

variable [DecidableEq V]

def RelExp.truth : RelExp → Option Bool
  | .binary (.compare comparison) lhs rhs =>
    engine.compare comparison (lhs.eval engine read) (rhs.eval engine read)
  | .binary (.matchText place negated) lhs rhs =>
    (engine.like place rhs.isConstantText (lhs.eval engine read) (rhs.eval engine read)).map
      (xor negated)
  | .unary .isNull operand => some (operand.eval engine read = engine.null)
  | .unary .isNotNull operand => some (operand.eval engine read ≠ engine.null)

mutual

def Clause.truth : Clause → Option Bool
  | .relation exp => exp.truth engine read
  | .group op args => op.combine (Clause.truths args)

def Clause.truths : List Clause → List (Option Bool)
  | [] => []
  | clause :: rest => clause.truth :: Clause.truths rest

end

-- A row is kept where the filter is true, neither false nor unknown.
def Filter.holds (filter : Filter) : Bool := filter.toClause.truth engine read == some true

end Values

section Congruence

variable {V : Type} {engine : Engine V} {read read' : String → V}

theorem ValueExpr.eval_congr {exp : ValueExpr} (h : ∀ id ∈ exp.columns, read id = read' id) :
    exp.eval engine read = exp.eval engine read' := by
  induction exp with
  | column id => exact h id (by simp [columns])
  | constant value => rfl
  | asString operand ih => simp [eval, ih h]

variable [DecidableEq V]

theorem RelExp.truth_congr {exp : RelExp} (h : ∀ id ∈ exp.columns, read id = read' id) :
    exp.truth engine read = exp.truth engine read' := by
  have heval : ∀ operand ∈ exp.operands, operand.eval engine read = operand.eval engine read' :=
    fun operand hoperand => ValueExpr.eval_congr fun id hid =>
      h id (List.mem_flatMap.mpr ⟨operand, hoperand, hid⟩)
  cases exp with
  | binary op lhs rhs =>
    have hlhs := heval lhs (by simp [operands])
    have hrhs := heval rhs (by simp [operands])
    cases op <;> simp [truth, hlhs, hrhs]
  | unary op operand =>
    have hoperand := heval operand (by simp [operands])
    cases op <;> simp [truth, hoperand]

mutual

theorem Clause.truth_congr : ∀ {clause : Clause}, (∀ id ∈ clause.columns, read id = read' id) →
    clause.truth engine read = clause.truth engine read'
  | .relation _, h => RelExp.truth_congr (by simpa [Clause.columns] using h)
  | .group _ _, h => by
    simp only [Clause.truth]
    rw [Clause.truths_congr (by simpa [Clause.columns] using h)]

theorem Clause.truths_congr : ∀ {clauses : List Clause},
    (∀ id ∈ Clause.columnsOfAll clauses, read id = read' id) →
    Clause.truths engine read clauses = Clause.truths engine read' clauses
  | [], _ => rfl
  | clause :: rest, h => by
    simp only [Clause.columnsOfAll, List.forall_mem_append] at h
    simp only [Clause.truths]
    rw [Clause.truth_congr h.1, Clause.truths_congr h.2]

end

theorem Filter.holds_congr {filter : Filter} (h : ∀ id ∈ filter.columns, read id = read' id) :
    filter.holds engine read = filter.holds engine read' := by
  unfold Filter.holds
  rw [Clause.truth_congr (by simpa [toClause, Clause.columns, Filter.columns] using h)]

-- A conjunction holds where both of its parts do, whatever is unknown in them.
theorem Filter.holds_both (first second : Filter) :
    (first.both second).holds engine read =
      (first.holds engine read && second.holds engine read) := by
  simp only [Filter.holds, Filter.both, Filter.toClause, Clause.truth, Clause.truths]
  generalize BoolOp.combine first.op _ = a
  generalize BoolOp.combine second.op _ = b
  rcases a with _ | _ | _ <;> rcases b with _ | _ | _ <;> rfl

end Congruence

end PivotQuery
