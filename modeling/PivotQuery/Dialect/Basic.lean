import PivotQuery.Dialect.Quoting
import PivotQuery.Dialect.Vocabulary

namespace PivotQuery

-- How a page is cut out of a result: by a clause at the end, or by numbering the rows.
inductive Paging
  | limitOffset
  | rowNumber
deriving DecidableEq, Repr

-- What is particular to the SQL of one engine.
structure Dialect where
  name : String
  types : Vocabulary
  identifiers : QuoteStyle := .doubleQuotes
  texts : QuoteStyle := .singleQuotes
  trueLiteral : String := "TRUE"
  falseLiteral : String := "FALSE"
  nullSafeOperator : String := "IS NOT DISTINCT FROM"
  likeEscape : String := " ESCAPE '\\'"
  offsetOnly : String := "OFFSET "
  paging : Paging := .limitOffset

namespace Dialect

def quoteIdentifier (dialect : Dialect) (id : String) : String := dialect.identifiers.quote id

def stringLiteral (dialect : Dialect) (text : String) : String := dialect.texts.quote text

def boolLiteral (dialect : Dialect) (value : Bool) : String :=
  if value then dialect.trueLiteral else dialect.falseLiteral

-- Core kinds take the engine's own name, whatever the type is called.
def typeName (dialect : Dialect) (type : ColumnType) : String :=
  (dialect.types.core.get? type.kind).getD type.sqlTypeName

def nullCast (dialect : Dialect) (type : ColumnType) : String :=
  "CAST(NULL AS " ++ dialect.typeName type ++ ")"

-- Equality under which NULL equals NULL.
def nullSafeEq (dialect : Dialect) (lhs rhs : String) : String :=
  lhs ++ " " ++ dialect.nullSafeOperator ++ " " ++ rhs

def pageClause (dialect : Dialect) (offset limit : Option Nat) : Option String :=
  match offset, limit with
  | none, none => none
  | none, some limit => some ("LIMIT " ++ toString limit)
  | some offset, none => some (dialect.offsetOnly ++ toString offset)
  | some offset, some limit => some ("LIMIT " ++ toString limit ++ " OFFSET " ++ toString offset)

end Dialect

end PivotQuery
