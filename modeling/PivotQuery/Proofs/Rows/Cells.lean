import PivotQuery.Proofs.Rows.Texts
import PivotQuery.Proofs.Rows.Query

namespace PivotQuery

-- What a cell of a small engine holds.
inductive Cell
  | null
  | bool (value : Bool)
  | int (value : Int)
  | text (value : String)
deriving DecidableEq

namespace Cell

-- NULL comes first, then the kinds one after the other.
def le : Cell → Cell → Bool
  | .null, _ => true
  | .bool a, .bool b => a ≤ b
  | .bool _, .int _ | .bool _, .text _ => true
  | .int a, .int b => a ≤ b
  | .int _, .text _ => true
  | .text a, .text b => a ≤ b
  | _, _ => false

theorem le_trans {a b c : Cell} (hab : le a b = true) (hbc : le b c = true) : le a c = true := by
  cases a <;> cases b <;> cases c <;> simp_all [le]
  · exact Bool.le_trans hab hbc
  · omega
  · exact String.le_trans hab hbc

theorem le_total (a b : Cell) : (le a b || le b a) = true := by
  cases a <;> cases b <;> simp [le]
  · exact Bool.le_total _ _
  · omega
  · exact String.le_total _ _

theorem le_antisymm {a b : Cell} (hab : le a b = true) (hba : le b a = true) : a = b := by
  cases a <;> cases b <;> simp_all [le]
  · exact Bool.le_antisymm hab hba
  · omega
  · exact String.le_antisymm hab hba

def asText : Cell → Cell
  | .null => .null
  | .bool value => .text (Scalar.boolText value)
  | .int value => .text (toString value)
  | .text value => .text value

def int? : Cell → Option Int
  | .int value => some value
  | _ => none

end Cell

namespace Engine

-- An engine of such cells. It casts to texts alone, knows how to count and how to add up, and
-- has no reals.
def cells : Engine Cell where
  constant
    | .bool value => .bool value
    | .int value => .int value.toInt
    | .text value => .text value
    | .null | .real _ => .null
  cast type value := if type.kind = .string then value.asText else value
  compare comparison a b :=
    if a = .null ∨ b = .null then none
    else some <| match comparison with
      | .eq => a = b
      | .ne => a ≠ b
      | .gt => !a.le b
      | .ge => b.le a
      | .lt => !b.le a
      | .le => a.le b
  like _ _ _ _ := none
  aggregate
    | .count, values => .int (values.countP fun value => value ≠ .null)
    | .sum, values => .int (values.map fun value => value.int?.getD 0).sum
    | _, _ => .null
  collapses agg := agg ≠ .null ∧ agg ≠ .nullStr
  before ascending a b := if ascending then a.le b else b.le a
  before_trans := by
    rintro (_ | _) a b c hab hbc
    · exact Cell.le_trans hbc hab
    · exact Cell.le_trans hab hbc
  before_total := by
    rintro (_ | _) a b
    · exact Cell.le_total b a
    · exact Cell.le_total a b

def cellTexts : cells.Texts where
  component?
    | .text value => some value
    | _ => none
  component?_component component := by cases component <;> rfl
  cast_eq_null value := by
    cases value <;> simp [cells, Cell.asText, null, ColumnType.string, ColumnType.core,
      ColumnType.ofKind]
  cast_text value hvalue := by
    cases value with
    | null => exact absurd rfl hvalue
    | bool value => exact ⟨_, rfl⟩
    | int value => exact ⟨_, rfl⟩
    | text value => exact ⟨_, rfl⟩
  eq_texts a b := by simp [cells, beq_eq_decide]
  eq_null text := rfl

end Engine

end PivotQuery
