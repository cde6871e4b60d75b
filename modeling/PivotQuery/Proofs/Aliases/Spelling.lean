import PivotQuery.Proofs.Lowering.Scope
import PivotQuery.Proofs.Tokens.Cuts

namespace PivotQuery

open Sql

-- The aliases of the sides of a join.
structure SideAliases where
  left : String
  right : String

def SideAliases.of (own : SideAliases) : JoinSide → String
  | .left => own.left
  | .right => own.right

namespace Dialect

-- Where the aliases of a query stand among its tokens, said without the texts that are written.

section Parts

variable (dialect : Dialect)

-- A token by which an engine means a name.
def Names (token : Token) (id : String) : Prop :=
  ∃ spelled, token = .quoted .name spelled ∧
    ∀ escaped, dialect.nameRules.meaning? escaped spelled = some id.toList

-- A column by the alias of what it comes from.
def Qualifies (own id : String) (tokens : List Token) : Prop :=
  ∃ side column, dialect.Names side own ∧ dialect.Names column id ∧
    tokens = [side, .word ['.'], column]

-- A query in parentheses, where what is between quotes is indented, and its alias.
def Introduces (inner : List Token) (own : String) (tokens : List Token) : Prop :=
  ∃ name, dialect.Names name own ∧
    tokens = .word ['('] :: inner.map Token.widened ++ Token.words [")", "AS"] ++ [name]

def joinWords : JoinType → List Token
  | .inner => Token.words ["INNER", "JOIN"]
  | .leftOuter => Token.words ["LEFT", "OUTER", "JOIN"]

-- How engines say that two keys are the same or both NULL, and what always holds.

def sameKeyWords : List Token :=
  Token.words (if dialect.name = "sqlite" then ["IS"] else ["IS", "NOT", "DISTINCT", "FROM"])

def alwaysWords : List Token := Token.words [if dialect.name = "sqlite" then "1" else "TRUE"]

def MatchesKey (own : SideAliases) (key : String) (tokens : List Token) : Prop :=
  ∃ lhs rhs, dialect.Qualifies own.left key lhs ∧ dialect.Qualifies own.right key rhs ∧
    tokens = lhs ++ dialect.sameKeyWords ++ rhs

-- The condition of a join: each key of the one side is that of the other.
def Matches (own : SideAliases) (on : List String) (tokens : List Token) : Prop :=
  if on = [] then tokens = dialect.alwaysWords
  else ∃ parts, List.Forall₂ (dialect.MatchesKey own) on parts ∧
    tokens = (Token.words ["AND"]).intercalate parts

-- A column of a side, as it is or with another type, has the alias of that side. Nothing else
-- has columns of a side.
def SpellsExp (sides : Option SideAliases) : Exp → List Token → Prop
  | .joinColumn side id, tokens => ∃ own ∈ sides, dialect.Qualifies (own.of side) id tokens
  | .cast (.joinColumn side id) _, tokens => ∃ own ∈ sides, ∃ column type,
    dialect.Qualifies (own.of side) id column ∧
      tokens = Token.words ["CAST("] ++ column ++ Token.words ["AS"] ++ type
  | exp, _ => exp.joinColumns = []

-- An item is a name alone only if it is no column of a side.
def SpellsItem (sides : Option SideAliases) (item : Item) (tokens : List Token) : Prop :=
  ∃ name, dialect.Names name item.name ∧
    (tokens = [name] ∧ item.exp.joinColumns = [] ∨
      ∃ exp, dialect.SpellsExp sides item.exp exp ∧ tokens = exp ++ Token.words ["AS"] ++ [name])

-- What can follow a FROM.
def Follows (tokens : List Token) : Prop :=
  tokens = [] ∨ ∃ keyword ∈ [["WHERE"], ["GROUP", "BY"], ["ORDER", "BY"]], ∃ clause,
    tokens = Token.words keyword ++ clause

-- The tokens of a raw query, or its words if there is a quote in it that does not end.
def rawTokens (text : String) : List Token :=
  (dialect.tokens? text).getD (Symbol.tokens (text.toList.map .char))

def unionTokens (parts : List (List Token)) : List Token :=
  (Token.words ["UNION", "ALL"]).intercalate parts

mutual

-- A select with the aliases that are introduced in it, in their order. The columns of its select
-- list have the aliases that its own FROM introduces for the sides.
def SpellsSelect : Select → List String → List Token → Prop
  | ⟨items, source, _, _, _, _⟩, aliases, tokens => ∃ sides list origin tail,
    SpellsSource source aliases sides origin ∧
      List.Forall₂ (dialect.SpellsItem sides) items list ∧ Follows tail ∧
      tokens = Token.words ["SELECT"] ++ (Token.words [","]).intercalate list ++
        Token.words ["FROM"] ++ origin ++ tail

def SpellsSource : Source → List String → Option SideAliases → List Token → Prop
  | .table name _, aliases, sides, tokens =>
    aliases = [] ∧ sides = none ∧ ∃ token, dialect.Names token name ∧ tokens = [token]
  | .sql text _, aliases, sides, tokens => ∃ own, aliases = [own] ∧ sides = none ∧
    dialect.Introduces (dialect.rawTokens text) own tokens
  | .subquery selects, aliases, sides, tokens => ∃ inside parts own,
    SpellsEach selects inside parts ∧ aliases = inside ++ [own] ∧ sides = none ∧
      dialect.Introduces (unionTokens parts) own tokens
  | .join lhs rhs type on, aliases, sides, tokens =>
    ∃ insideLeft partsLeft insideRight partsRight own left right condition,
      SpellsEach lhs insideLeft partsLeft ∧ SpellsEach rhs insideRight partsRight ∧
      aliases = insideLeft ++ [own.left] ++ insideRight ++ [own.right] ∧ sides = some own ∧
      dialect.Introduces (unionTokens partsLeft) own.left left ∧
      dialect.Introduces (unionTokens partsRight) own.right right ∧
      dialect.Matches own on condition ∧
      tokens = left ++ joinWords type ++ right ++ Token.words ["ON"] ++ condition

def SpellsEach : List Select → List String → List (List Token) → Prop
  | [], aliases, parts => aliases = [] ∧ parts = []
  | select :: rest, aliases, parts => ∃ own others part behind,
    SpellsSelect select own part ∧ SpellsEach rest others behind ∧ aliases = own ++ others ∧
      parts = part :: behind

end

-- Selects combined by UNION ALL.
def SpellsQuery (selects : List Select) (aliases : List String) (tokens : List Token) : Prop :=
  ∃ parts, dialect.SpellsEach selects aliases parts ∧ tokens = unionTokens parts

end Parts

end Dialect

end PivotQuery
