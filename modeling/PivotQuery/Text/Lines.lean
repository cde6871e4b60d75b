namespace PivotQuery.Text

-- A carriage return belongs to the end of a line only before a line feed, and nothing behind the
-- last line feed is no line. The characters read on a line so far are given last one first.
def linesFrom (read : List Char) : List Char → List (List Char)
  | [] => if read.isEmpty then [] else [read.reverse]
  | c :: rest =>
    if c = '\n' then
      let line := match read with
        | '\r' :: before => before
        | _ => read
      line.reverse :: linesFrom [] rest
    else linesFrom (c :: read) rest

def lines (text : List Char) : List (List Char) := linesFrom [] text

def indented (text : String) : String :=
  "\n".intercalate ((lines text.toList).map fun line => "  " ++ String.ofList line)

example : lines "a\r\nb\n\nc\r".toList = [['a'], ['b'], [], ['c', '\r']] := by decide
example : lines "a\n".toList = [['a']] := by decide
example : lines [] = [] := rfl

end PivotQuery.Text
