import PivotQuery.Filter.Relation
import PivotQuery.Text.Quoted

namespace PivotQuery

-- Why two relations cannot be put together.
inductive Mismatch
  | joinKey (key lhsType rhsType : String)
  | columnCount (lhs rhs : Nat)
  | missingColumn (id : String)
deriving DecidableEq

-- Why a query, or a part of one, is refused.
inductive QueryError
  | unknownColumn (id : String) (available : List String)
  | unknownTable (name : String)
  | duplicateColumn (id : String)
  | typeMismatch (cause : Mismatch) (lhs rhs : Schema)
  | emptyConcat
  | operandCount (op : RelOp) (given : Nat)
  | connection (cause : String)
deriving DecidableEq

namespace Mismatch

def message : Mismatch → String
  | .joinKey key lhsType rhsType =>
    "join key " ++ key ++ ": " ++ lhsType ++ " is not comparable with " ++ rhsType
  | .columnCount lhs rhs =>
    "concat of " ++ toString lhs ++ " columns with " ++ toString rhs ++ " columns"
  | .missingColumn id => "concat branch has no column " ++ id

end Mismatch

def RelOp.label (op : RelOp) : String :=
  match op.name.toList with
  | [] => ""
  | c :: rest => String.ofList (c.toUpper :: rest)

namespace QueryError

def message : QueryError → String
  | .unknownColumn id available =>
    "unknown column " ++ id ++ " (available: " ++ Text.quotedList available ++ ")"
  | .unknownTable name => "unknown table: " ++ name
  | .duplicateColumn id => "duplicate column: " ++ id
  | .typeMismatch cause _ _ => "type mismatch: " ++ cause.message
  | .emptyConcat => "concat requires at least one query"
  | .operandCount op given =>
    "invalid filter: " ++ op.label ++ " expects " ++ toString op.arity ++ " operand(s), got " ++
      toString given
  | .connection cause => "connection error: " ++ cause

end QueryError

end PivotQuery
