import PivotQuery.Sql.Select
import PivotQuery.Dialect.Basic
import PivotQuery.Text.Lines

namespace PivotQuery.Sql

-- How the columns of a select's source are named in its select list: a join tells
-- its sides apart by their aliases.
inductive Scope
  | plain
  | join (left right : String)

def commaSeparated (parts : List String) : String := ", ".intercalate parts

def aliasName (index : Nat) : String := "_subq" ++ toString index

end PivotQuery.Sql

namespace PivotQuery

namespace Dialect

open Sql

def literal (dialect : Dialect) : Scalar → String
  | .null => "NULL"
  | .bool value => dialect.boolLiteral value
  | .int value => toString value.toInt
  | .real value => Decimal.Layout.literal.render value
  | .text value => dialect.stringLiteral value

def cast (dialect : Dialect) (operand : String) (type : ColumnType) : String :=
  "CAST(" ++ operand ++ " AS " ++ dialect.typeName type ++ ")"

def valueText (dialect : Dialect) : ValueExpr → String
  | .column id => dialect.quoteIdentifier id
  | .constant value => dialect.literal value
  | .asString operand => dialect.cast (dialect.valueText operand) .string

def sortKeyText (dialect : Dialect) (key : SortKey) : String :=
  dialect.quoteIdentifier key.column ++ if key.ascending then " ASC" else " DESC"

def sortKeysText (dialect : Dialect) (keys : List SortKey) : String :=
  commaSeparated (keys.map dialect.sortKeyText)

def aggregateText (dialect : Dialect) (agg : AggFn) (id : String) (type : ColumnType) : String :=
  let column := dialect.quoteIdentifier id
  match agg with
  | .avg => "AVG(" ++ column ++ ")"
  | .count => "COUNT(" ++ column ++ ")"
  | .min => "MIN(" ++ column ++ ")"
  | .max => "MAX(" ++ column ++ ")"
  | .sum => "SUM(" ++ column ++ ")"
  | .uniq =>
    "CASE WHEN MIN(" ++ column ++ ") = MAX(" ++ column ++ ") THEN MIN(" ++ column ++
      ") ELSE NULL END"
  | .null => dialect.nullCast type
  | .nullStr => dialect.nullCast .string

-- NULL is written with the type that it is cast to.
def expText (dialect : Dialect) (scope : Scope) : Exp → String
  | .value exp => dialect.valueText exp
  | .joinColumn side id =>
    let column := dialect.quoteIdentifier id
    match scope, side with
    | .join left _, .left => left ++ "." ++ column
    | .join _ right, .right => right ++ "." ++ column
    | .plain, _ => column
  | .aggregate agg id type => dialect.aggregateText agg id type
  | .cast (.value (.constant .null)) type => dialect.nullCast type
  | .cast exp type => dialect.cast (dialect.expText scope exp) type
  | .rowNumber [] => "ROW_NUMBER() OVER ()"
  | .rowNumber keys => "ROW_NUMBER() OVER (ORDER BY " ++ dialect.sortKeysText keys ++ ")"
  | .countStar => "COUNT(*)"

def itemText (dialect : Dialect) (scope : Scope) (item : Item) : String :=
  if item.isIdentity then dialect.quoteIdentifier item.name
  else
    let exp := match item.exp with
      | .value (.constant .null) => dialect.nullCast item.type
      | exp => dialect.expText scope exp
    exp ++ " AS " ++ dialect.quoteIdentifier item.name

def comparisonText : Comparison → String
  | .eq => "="
  | .ne => "<>"
  | .gt => ">"
  | .ge => ">="
  | .lt => "<"
  | .le => "<="

-- The wildcards around a text that has to occur at a place.
def wildcards : TextPlace → String × String
  | .start => ("", "%")
  | .finish => ("%", "")
  | .anywhere => ("%", "%")

-- The pattern of a constant text is one literal. That of any other value is put
-- together by the engine, and there the value's own wildcards count.
def patternText (dialect : Dialect) (place : TextPlace) (operand : ValueExpr) : String :=
  let (before, behind) := wildcards place
  match operand with
  | .constant (.text text) =>
    dialect.stringLiteral (before ++ String.ofList (escapeWildcards text.toList) ++ behind)
  | operand =>
    let wildcard (text : String) : List String :=
      if text.isEmpty then [] else [dialect.stringLiteral text]
    " || ".intercalate (wildcard before ++ [dialect.valueText operand] ++ wildcard behind)

def relationText (dialect : Dialect) : RelExp → String
  | .binary (.compare comparison) lhs rhs =>
    dialect.valueText lhs ++ " " ++ comparisonText comparison ++ " " ++ dialect.valueText rhs
  | .binary (.matchText place negated) lhs rhs =>
    dialect.valueText lhs ++ (if negated then " NOT LIKE " else " LIKE ") ++
      dialect.patternText place rhs ++ dialect.likeEscape
  | .unary .isNull operand => dialect.valueText operand ++ " IS NULL"
  | .unary .isNotNull operand => dialect.valueText operand ++ " IS NOT NULL"

def connective : BoolOp → String
  | .and => " AND "
  | .or => " OR "

-- An empty group is true, and a group of one needs no parentheses.
def groupText (op : BoolOp) (parts : List String) : String :=
  match parts with
  | [] => "1=1"
  | [part] => part
  | parts => "(" ++ (connective op).intercalate parts ++ ")"

mutual

def clauseText (dialect : Dialect) : Clause → String
  | .relation exp => dialect.relationText exp
  | .group op args => groupText op (dialect.clauseTexts args)

def clauseTexts (dialect : Dialect) : List Clause → List String
  | [] => []
  | clause :: rest => dialect.clauseText clause :: dialect.clauseTexts rest

end

def filterText (dialect : Dialect) (filter : Filter) : String :=
  dialect.clauseText filter.toClause

-- The clauses behind FROM, each on a line of its own.
def tailText (dialect : Dialect) (condition : Option Filter) (groupBy : List String)
    (orderBy : List SortKey) : String :=
  let whereText := match condition with
    | some filter => if filter.isEmpty then "" else "\nWHERE " ++ dialect.filterText filter
    | none => ""
  let groupByText :=
    if groupBy.isEmpty then ""
    else "\nGROUP BY " ++ commaSeparated (groupBy.map dialect.quoteIdentifier)
  let orderByText :=
    if orderBy.isEmpty then "" else "\nORDER BY " ++ dialect.sortKeysText orderBy
  whereText ++ groupByText ++ orderByText

def joinKeyword : JoinType → String
  | .inner => "INNER JOIN"
  | .leftOuter => "LEFT OUTER JOIN"

-- The condition of a join; without keys every pair matches.
def onText (dialect : Dialect) (left right : String) (on : List String) : String :=
  if on.isEmpty then dialect.boolLiteral true
  else
    " AND ".intercalate (on.map fun key =>
      let column := dialect.quoteIdentifier key
      dialect.nullSafeEq (left ++ "." ++ column) (right ++ "." ++ column))

def unionText (selects : List String) : String := "\nUNION ALL\n".intercalate selects

def parenthesized (text : String) : String := "(\n" ++ Text.indented text ++ "\n)"

mutual

-- The text of a select, given the number of the next alias, and the number after it.
def selectText (dialect : Dialect) : Select → Nat → String × Nat
  | { items, source, condition, groupBy, orderBy, hidden := _ }, next =>
    let ((sourceText, scope), next) := dialect.sourceText source next
    ("SELECT " ++ commaSeparated (items.map (dialect.itemText scope)) ++ "\nFROM " ++ sourceText ++
      dialect.tailText condition groupBy orderBy, next)

-- A subquery takes its alias after those inside it.
def sourceText (dialect : Dialect) : Source → Nat → (String × Scope) × Nat
  | .table name _, next => ((dialect.quoteIdentifier name, .plain), next)
  | .sql text _, next =>
    ((parenthesized text ++ " AS " ++ dialect.quoteIdentifier (aliasName next), .plain), next + 1)
  | .subquery selects, next =>
    let (texts, next) := dialect.selectTexts selects next
    ((parenthesized (unionText texts) ++ " AS " ++ dialect.quoteIdentifier (aliasName next),
      .plain), next + 1)
  | .join lhs rhs type on, next =>
    let (leftTexts, next) := dialect.selectTexts lhs next
    let left := dialect.quoteIdentifier (aliasName next)
    let (rightTexts, next) := dialect.selectTexts rhs (next + 1)
    let right := dialect.quoteIdentifier (aliasName next)
    ((parenthesized (unionText leftTexts) ++ " AS " ++ left ++ "\n" ++ joinKeyword type ++ " " ++
      parenthesized (unionText rightTexts) ++ " AS " ++ right ++ "\nON " ++
      dialect.onText left right on, .join left right), next + 1)

def selectTexts (dialect : Dialect) : List Select → Nat → List String × Nat
  | [], next => ([], next)
  | select :: rest, next =>
    let (text, next) := dialect.selectText select next
    let (texts, next) := dialect.selectTexts rest next
    (text :: texts, next)

end

-- A whole query. Aliases are numbered from zero, so the text depends on nothing else.
def queryText (dialect : Dialect) (selects : List Select) : String :=
  unionText (dialect.selectTexts selects 0).1

end Dialect

end PivotQuery
