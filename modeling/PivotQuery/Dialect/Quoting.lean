namespace PivotQuery

-- A delimiter inside a token is escaped, by a second one or by a backslash.
structure QuoteStyle where
  delimiter : Char
  backslashEscapes : Bool := false
  delimiterEscape : Char := delimiter
deriving DecidableEq, Repr

namespace QuoteStyle

def encode (style : QuoteStyle) (c : Char) : List Char :=
  if c = '\\' && style.backslashEscapes then ['\\', '\\']
  else if c = style.delimiter then [style.delimiterEscape, c]
  else [c]

def quoteChars (style : QuoteStyle) (text : List Char) : List Char :=
  [style.delimiter] ++ text.flatMap style.encode ++ [style.delimiter]

def quote (style : QuoteStyle) (text : String) : String :=
  String.ofList (style.quoteChars text.toList)

-- Names and texts of standard SQL.
def doubleQuotes : QuoteStyle := ⟨'"', false, '"'⟩
def singleQuotes : QuoteStyle := ⟨'\'', false, '\''⟩

end QuoteStyle

-- A text as a pattern of LIKE that matches only itself.
def escapeWildcards (text : List Char) : List Char :=
  text.flatMap fun c => if c = '%' || c = '_' || c = '\\' then ['\\', c] else [c]

end PivotQuery
