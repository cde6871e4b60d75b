import PivotQuery.Sql.Text
import PivotQuery.Proofs.Lowering.Scope

namespace PivotQuery.Sql

def Source.takesAlias : Source → Bool
  | .sql _ _ | .subquery _ => true
  | .table _ _ | .join _ _ _ _ => false

def Source.isJoin : Source → Bool
  | .join _ _ _ _ => true
  | .table _ _ | .sql _ _ | .subquery _ => false

theorem Select.isJoin_eq (select : Select) : select.isJoin = select.source.isJoin := by
  obtain ⟨items, source, condition, groupBy, orderBy, hidden⟩ := select
  cases source <;> rfl

-- Raw queries and subqueries have one alias, and joins have one for each side.
def aliasCount (selects : List Select) : Nat :=
  selects.countP (fun select => select.source.takesAlias) + 2 * selects.countP Select.isJoin

theorem aliasCount_append (a b : List Select) :
    aliasCount (a ++ b) = aliasCount a + aliasCount b := by
  simp only [aliasCount, List.countP_append]
  omega

-- The number of aliases that a source and all that is inside it have.
def Source.aliasCount : Source → Nat
  | .table _ _ => 0
  | .sql _ _ => 1
  | .subquery selects => Sql.aliasCount (nestedSelects selects) + 1
  | .join lhs rhs _ _ =>
    Sql.aliasCount (nestedSelects lhs) + 1 + Sql.aliasCount (nestedSelects rhs) + 1

theorem aliasCount_nested (select : Select) :
    aliasCount select.nested = select.source.aliasCount := by
  obtain ⟨items, source, condition, groupBy, orderBy, hidden⟩ := select
  rw [Select.nested, ← List.singleton_append, aliasCount_append]
  cases source with
  | table name schema => rfl
  | sql text schema => rfl
  | subquery selects => exact Nat.add_comm 1 _
  | join lhs rhs type on =>
    rw [Source.nested, aliasCount_append, Source.aliasCount]
    have hown :
        aliasCount [⟨items, .join lhs rhs type on, condition, groupBy, orderBy, hidden⟩] = 2 := rfl
    omega

-- The aliases that are given while the counter goes from one number to another.
structure Numbers (next count behind : Nat) (own : List String) : Prop where
  behind : behind = next + count
  own : own = (List.range' next count).map aliasName

namespace Numbers

theorem none (next : Nat) : Numbers next 0 next [] := ⟨rfl, rfl⟩

theorem one (next : Nat) : Numbers next 1 (next + 1) [aliasName next] := ⟨rfl, rfl⟩

theorem append {next m between n behind : Nat} {a b : List String}
    (ha : Numbers next m between a) (hb : Numbers between n behind b) :
    Numbers next (m + n) behind (a ++ b) := by
  obtain ⟨rfl, rfl⟩ := ha
  obtain ⟨rfl, rfl⟩ := hb
  refine ⟨Nat.add_assoc .., ?_⟩
  rw [← List.map_append, List.range'_append_1]

end Numbers

end PivotQuery.Sql
