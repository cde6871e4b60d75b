import PivotQuery.Proofs.Tokens.Fragments
import PivotQuery.Sql.Compile
import Mathlib.Data.List.Basic

namespace PivotQuery

namespace ValueExpr

-- The text constants of a value.
def texts : ValueExpr → List (List Char)
  | .constant (.text text) => [text.toList]
  | .constant _ | .column _ => []
  | .asString operand => operand.texts

-- The same for the value that a text is matched with. A constant stands in the pattern.
def patternTexts (place : TextPlace) : ValueExpr → List (List Char)
  | .constant (.text text) =>
    let (before, behind) := Dialect.wildcards place
    [before.toList ++ escapeWildcards text.toList ++ behind.toList]
  | operand => operand.texts

end ValueExpr

namespace RelExp

def texts : RelExp → List (List Char)
  | .binary (.compare _) lhs rhs => lhs.texts ++ rhs.texts
  | .binary (.matchText place _) lhs rhs => lhs.texts ++ rhs.patternTexts place
  | .unary _ operand => operand.texts

end RelExp

namespace Clause

mutual

def texts : Clause → List (List Char)
  | .relation exp => exp.texts
  | .group _ args => textsOfAll args

def textsOfAll : List Clause → List (List Char)
  | [] => []
  | clause :: rest => clause.texts ++ textsOfAll rest

end

end Clause

namespace Filter

def texts (filter : Filter) : List (List Char) := Clause.textsOfAll filter.args

end Filter

namespace Sql

-- What the text of a select has from elsewhere: text constants, and as they are raw queries and
-- the names of types.
inductive Written
  | constant (text : List Char)
  | raw (sql : String)
  | type (type : ColumnType)

namespace Exp

def written : Exp → List Written
  | .value exp => exp.texts.map .constant
  | .cast exp type => .type type :: exp.written
  | .aggregate .null _ type => [.type type]
  | .aggregate _ _ _ | .joinColumn _ _ | .rowNumber _ | .countStar => []

end Exp

namespace Item

-- A missing value takes the type of its column.
def written (item : Item) : List Written :=
  match item.exp with
  | .value (.constant .null) => [.type item.type]
  | exp => exp.written

variable {item : Item}

theorem column_of_isIdentity (h : item.isIdentity = true) :
    ∃ id, item.exp = .value (.column id) := by
  unfold isIdentity at h
  split at h
  · exact ⟨_, by assumption⟩
  · cases h

theorem written_column {id : String} (h : item.exp = .value (.column id)) : item.written = [] := by
  simp [written, h, Exp.written, ValueExpr.texts]

theorem written_null (h : item.exp = .value (.constant .null)) :
    item.written = [.type item.type] := by
  simp [written, h]

theorem written_of_ne_null (h : item.exp = .value (.constant .null) → False) :
    item.written = item.exp.written := by
  unfold written
  split
  · exact absurd (by assumption) h
  · rfl

end Item

def deeper (written : List (Nat × Written)) : List (Nat × Written) :=
  written.map fun (depth, content) => (depth + 1, content)

mutual

-- All of it, with the number of subqueries around. Hidden columns are not written.
def Select.written : Select → List (Nat × Written)
  | ⟨items, source, condition, _, _, _⟩ =>
    (items.flatMap Item.written ++
      ((condition.map Filter.texts).getD []).map Written.constant).map (0, ·) ++ source.written

def Source.written : Source → List (Nat × Written)
  | .table _ _ => []
  | .sql text _ => [(1, .raw text)]
  | .subquery selects => deeper (writtenOfAll selects)
  | .join lhs rhs _ _ => deeper (writtenOfAll lhs ++ writtenOfAll rhs)

def writtenOfAll : List Select → List (Nat × Written)
  | [] => []
  | select :: rest => select.written ++ writtenOfAll rest

end

end Sql

namespace Dialect

open Sql (Written)

variable {dialect : Dialect}

-- The tokens by which it is known in the text of the whole query.
def fragments (dialect : Dialect) : Nat × Written → List (List Token)
  | (depth, .constant text) =>
    [[.quoted .text (Text.widen^[depth] (text.flatMap dialect.texts.encode))]]
  | (depth, .raw sql) => [((dialect.tokens? sql).getD []).map Token.widened^[depth]]
  | (_, .type _) => []

-- Raw queries and the names of types fall into tokens.
def Readable (dialect : Dialect) : Written → Prop
  | .constant _ => True
  | .raw sql => (dialect.tokens? sql).isSome
  | .type type => (dialect.tokens? (dialect.typeName type)).isSome

theorem fragments_deeper (written : List (Nat × Written)) :
    (Sql.deeper written).flatMap dialect.fragments =
      (written.flatMap dialect.fragments).map (List.map Token.widened) := by
  rw [Sql.deeper, List.flatMap_map, List.map_flatMap]
  refine List.flatMap_congr fun (depth, content) _ => ?_
  cases content with
  | constant text => simp [fragments, Token.widened, Function.iterate_succ_apply']
  | raw sql =>
    simp only [fragments, List.map_cons, List.map_nil, List.map_map, Function.iterate_succ']
  | type type => rfl

def literals (dialect : Dialect) (texts : List (List Char)) : List (List Token) :=
  texts.map fun text => [.quoted .text (text.flatMap dialect.texts.encode)]

theorem literals_append (a b : List (List Char)) :
    dialect.literals (a ++ b) = dialect.literals a ++ dialect.literals b := List.map_append

-- What is written outside all subqueries.
def fragmentsAtTop (dialect : Dialect) (written : List Written) : List (List Token) :=
  (written.map (0, ·)).flatMap dialect.fragments

@[simp] theorem fragmentsAtTop_type (type : ColumnType) (rest : List Written) :
    dialect.fragmentsAtTop (.type type :: rest) = dialect.fragmentsAtTop rest := rfl

@[simp] theorem fragmentsAtTop_constants (texts : List (List Char)) :
    dialect.fragmentsAtTop (texts.map .constant) = dialect.literals texts := by
  induction texts with
  | nil => rfl
  | cons text rest ih => exact congrArg (_ :: ·) ih

theorem fragmentsAtTop_append (a b : List Written) :
    dialect.fragmentsAtTop (a ++ b) = dialect.fragmentsAtTop a ++ dialect.fragmentsAtTop b := by
  simp only [fragmentsAtTop, List.map_append, List.flatMap_append]

theorem fragmentsAtTop_flatMap {α : Type} (items : List α) (written : α → List Written) :
    dialect.fragmentsAtTop (items.flatMap written) =
      items.flatMap fun item => dialect.fragmentsAtTop (written item) := by
  simp only [fragmentsAtTop, List.map_flatMap, List.flatMap_assoc]

end Dialect

end PivotQuery
