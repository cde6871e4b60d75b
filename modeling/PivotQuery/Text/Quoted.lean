import PivotQuery.Text.Printable

namespace PivotQuery.Text

-- How one character is shown between double quotes: the quote and the backslash
-- get a backslash, four controls have letters, and a character that cannot
-- stand for itself is shown by its code point in lower-case hexadecimal.
def shown (c : Char) : List Char :=
  if c = '"' || c = '\\' then ['\\', c]
  else if c = '\t' then ['\\', 't']
  else if c = '\r' then ['\\', 'r']
  else if c = '\n' then ['\\', 'n']
  else if c = '\x00' then ['\\', '0']
  else if isPlain c then [c]
  else ['\\', 'u', '\x7b'] ++ Nat.toDigits 16 c.toNat ++ ['\x7d']

def quoted (text : String) : String :=
  String.ofList (['"'] ++ text.toList.flatMap shown ++ ['"'])

def quotedList (texts : List String) : String :=
  "[" ++ ", ".intercalate (texts.map quoted) ++ "]"

example : quotedList ["a", "e\u0301\"'"] = "[\"a\", \"e\\u\x7b301\x7d\\\"'\"]" := by
  decide +kernel

end PivotQuery.Text
