import PivotQuery.Filter.Basic
import PivotQuery.Interchange.Column
import PivotQuery.Json.Number
import PivotQuery.Json.Writer

-- The JSON forms of constants, expressions and filters.

namespace PivotQuery

open Json (Decoded Fields Reading)

namespace Scalar

def toJson : Scalar → Json
  | .null => .object [("type", .text "null")]
  | .bool value => .object [("type", .text "bool"), ("value", .bool value)]
  | .int value => .object [("type", .text "int"), ("value", .number (.integer value.toInt))]
  | .real value => .object [("type", .text "real"), ("value", .ofReal value)]
  | .text value => .object [("type", .text "text"), ("value", .text value)]

def toReal : Json → Revived Float
  | .number value => .ok value.toReal
  | _ => Json.malformed

-- The value beside a type; only null needs none.
def ofContent (type : String) (content : Option Json) : Revived Scalar :=
  match type, content with
  | "null", none | "null", some .null => .ok .null
  | "bool", some json => (Json.toBool json).map .bool
  | "int", some json => (Json.toInt64 json).map .int
  | "real", some json => (toReal json).map .real
  | "text", some json => (Json.toText json).map .text
  | _, _ => Json.malformed

def forms : List String := ["null", "bool", "int", "real", "text"]

-- In an object the type is a name like any other; in an array it is a tag.
def ofJson (reading : Reading) : Json → Revived Scalar
  | .object entries =>
    let (own, others) := entries.partition fun entry => entry.1 == "type" || entry.1 == "value"
    if !(others.all fun entry => Json.Record.isIgnored entry.2) then Json.malformed
    else
      match own.filter (·.1 == "type"), own.filter (·.1 == "value") with
      | [(_, type)], [] => do ofContent (← Json.toName reading type) none
      | [(_, type)], [(_, content)] => do ofContent (← Json.toName reading type) (some content)
      | _, _ => Json.malformed
  | .array [type, content] => do ofContent (← Json.toTag reading forms type) (some content)
  | _ => Json.malformed

end Scalar

namespace ValueExpr

def toJson : ValueExpr → Json
  | .column id => .object [("expType", .text "colRef"), ("colName", .text id)]
  | .constant value => .object [("expType", .text "constVal"), ("val", value.toJson)]
  | .asString operand => .object [("expType", .text "asString"), ("valExp", operand.toJson)]

def forms : List String := ["colRef", "constVal", "asString"]

-- Nesting is bounded by the depth of the text.
def ofJsonWithin : Nat → Reading → Json → Revived ValueExpr
  | 0, _, _ => Json.malformed
  | depth + 1, reading, json => do
    let (form, rest) ← Json.untag "expType" reading forms json
    match form with
    | "colRef" => (Json.toRecord (.required "colName" Json.toText) rest).map .column
    | "constVal" => (Json.toRecord (.required "val" (Scalar.ofJson .held)) rest).map .constant
    | _ => (Json.toRecord (.required "valExp" (ofJsonWithin depth .held)) rest).map .asString

def ofJson (reading : Reading) (json : Json) : Revived ValueExpr :=
  ofJsonWithin json.depth reading json

end ValueExpr

def RelOp.toJson (op : RelOp) : Json := .text op.name

def RelOp.ofJson : Reading → Json → Revived RelOp := Json.toEnum RelOp.ofName?

def BoolOp.toJson (op : BoolOp) : Json := .text op.name

def BoolOp.ofJson : Reading → Json → Revived BoolOp := Json.toEnum BoolOp.ofName?

namespace RelExp

def jsonEntries : RelExp → List (String × Json)
  | .binary op lhs rhs =>
    [("op", RelOp.toJson (.binary op)), ("lhs", lhs.toJson), ("rhs", rhs.toJson)]
  | .unary op operand => [("op", RelOp.toJson (.unary op)), ("lhs", operand.toJson)]

def toJson (exp : RelExp) : Json := .object exp.jsonEntries

def fields (reading : Reading) :
    Fields QueryError (RelOp × Option ValueExpr × Option ValueExpr) :=
  .both (.required "op" (RelOp.ofJson reading)) <|
    .both (.optional "lhs" (ValueExpr.ofJson reading)) (.optional "rhs" (ValueExpr.ofJson reading))

-- The operands that are there, in order, whichever fields they are in.
def ofJson (reading : Reading) (json : Json) : Revived RelExp := do
  let (op, lhs, rhs) ← Json.toRecord (fields reading) json
  Json.refusing (ofOperands op (lhs.toList ++ rhs.toList))

end RelExp

namespace Clause

mutual

def toJson : Clause → Json
  | .relation exp => .object (("expType", .text "RelExp") :: exp.jsonEntries)
  | .group op args =>
    .object [("expType", .text "FilterExp"), ("op", op.toJson), ("opArgs", .array (toJsonAll args))]

def toJsonAll : List Clause → List Json
  | [] => []
  | clause :: rest => clause.toJson :: toJsonAll rest

end

def forms : List String := ["RelExp", "FilterExp"]

def groupFields (reading : Reading) (decode : Json → Revived Clause) :
    Fields QueryError (BoolOp × List Clause) :=
  .both (.required "op" (BoolOp.ofJson reading)) (.required "opArgs" (Json.toList decode))

def ofJsonWithin : Nat → Reading → Json → Revived Clause
  | 0, _, _ => Json.malformed
  | depth + 1, reading, json => do
    let (form, rest) ← Json.untag "expType" reading forms json
    match form with
    | "RelExp" => (RelExp.ofJson .held rest).map .relation
    | _ =>
      let (op, args) ← Json.toRecord (groupFields .held (ofJsonWithin depth .held)) rest
      return .group op args

def ofJson (reading : Reading) (json : Json) : Revived Clause :=
  ofJsonWithin json.depth reading json

end Clause

namespace Filter

def toJson (filter : Filter) : Json :=
  .object [("op", filter.op.toJson), ("opArgs", .array (Clause.toJsonAll filter.args))]

def ofJson (reading : Reading) (json : Json) : Revived Filter := do
  let (op, args) ← Json.toRecord (Clause.groupFields reading (Clause.ofJson reading)) json
  return ⟨op, args⟩

end Filter

end PivotQuery
