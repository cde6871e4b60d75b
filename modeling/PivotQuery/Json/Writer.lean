import PivotQuery.Json.Basic
import PivotQuery.Decimal.Layout

namespace PivotQuery.Json

def hexDigits (n : Nat) : List Char :=
  let digits := Nat.toDigits 16 n
  List.replicate (4 - digits.length) '0' ++ digits

-- The quote, the backslash and the controls are escaped, by a letter where one exists.
def escape (c : Char) : List Char :=
  match c with
  | '"' => ['\\', '"']
  | '\\' => ['\\', '\\']
  | '\x08' => ['\\', 'b']
  | '\x0c' => ['\\', 'f']
  | '\n' => ['\\', 'n']
  | '\r' => ['\\', 'r']
  | '\t' => ['\\', 't']
  | c => if c.toNat < 0x20 then ['\\', 'u'] ++ hexDigits c.toNat else [c]

def writeText (text : String) : String :=
  String.ofList (['"'] ++ text.toList.flatMap escape ++ ['"'])

def Number.write : Number → String
  | .integer value => toString value
  | .real value => Decimal.Layout.interchange.render value

mutual

-- The text of a value, without blanks. Damage has none and is written as null.
def write : Json → String
  | .null | .damaged _ => "null"
  | .bool value => if value then "true" else "false"
  | .number value => value.write
  | .text value => writeText value
  | .array elements => "[" ++ ",".intercalate (writeAll elements) ++ "]"
  | .object entries => "\x7b" ++ ",".intercalate (writeEntries entries) ++ "\x7d"

def writeAll : List Json → List String
  | [] => []
  | element :: rest => element.write :: writeAll rest

def writeEntries : List (String × Json) → List String
  | [] => []
  | (key, value) :: rest => (writeText key ++ ":" ++ value.write) :: writeEntries rest

end

-- A float that is no finite number has no JSON form but null.
def ofReal (x : Float) : Json := if x.isFinite then .number (.real x) else .null

end PivotQuery.Json
