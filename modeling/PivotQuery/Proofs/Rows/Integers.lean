import PivotQuery.Proofs.Rows.Query

namespace PivotQuery

namespace Engine

def inOrder : Option Int → Option Int → Bool
  | none, _ => true
  | some _, none => false
  | some a, some b => a ≤ b

private theorem inOrder_trans {a b c : Option Int} (hab : inOrder a b = true)
    (hbc : inOrder b c = true) : inOrder a c = true := by
  cases a <;> cases b <;> cases c <;> simp_all [inOrder]
  omega

private theorem inOrder_total (a b : Option Int) : (inOrder a b || inOrder b a) = true := by
  cases a <;> cases b <;> simp [inOrder]
  omega

-- An engine that knows whole numbers, how to count them and their sum. All else is missing.
def integers : Engine (Option Int) where
  constant
    | .int n => some n.toInt
    | _ => none
  cast _ value := value
  compare comparison a b := do
    let a ← a
    let b ← b
    return match comparison with
      | .eq => a = b
      | .ne => a ≠ b
      | .gt => a > b
      | .ge => a ≥ b
      | .lt => a < b
      | .le => a ≤ b
  like _ _ _ _ := none
  aggregate
    | .count, values => some (values.countP fun value => value.isSome = true)
    | .sum, values => some (values.map fun value => value.getD 0).sum
    | _, _ => none
  collapses agg := agg ≠ .null ∧ agg ≠ .nullStr
  before ascending a b := if ascending then inOrder a b else inOrder b a
  before_trans := by
    rintro (_ | _) a b c hab hbc
    · exact inOrder_trans hbc hab
    · exact inOrder_trans hab hbc
  before_total := by
    rintro (_ | _) a b
    · exact inOrder_total b a
    · exact inOrder_total a b

end Engine

def saleColumns : Schema := ⟨[.ofType "region" .integer, .ofType "amount" .integer], by decide⟩

-- Four sales, of which two are of no known region.
def sales : Database (Option Int) where
  table _ := [(none, 5), (some 1, 7), (none, 6), (some 2, 9)].map fun (region, amount) id =>
    if id = "region" then region else some amount
  sql _ := []

end PivotQuery
