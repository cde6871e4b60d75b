import PivotQuery.Json.Number

namespace PivotQuery.Json

-- `fault` is where a text stops being a sequence of tokens; none follows it.
inductive Token
  | openArray
  | closeArray
  | openObject
  | closeObject
  | comma
  | colon
  | text (value : String)
  | unreadableText
  | literal (value : Json)
  | fault

namespace Token

-- The literal at the start of a run of characters without blanks, brackets and
-- quotes. Whatever follows it in the run is a fault.
def ofRun (run : List Char) : List Token :=
  let literal (value : Json) (rest : List Char) : List Token :=
    .literal value :: if rest.isEmpty then [] else [.fault]
  if ['n', 'u', 'l', 'l'].isPrefixOf run then literal .null (run.drop 4)
  else if ['t', 'r', 'u', 'e'].isPrefixOf run then literal (.bool true) (run.drop 4)
  else if ['f', 'a', 'l', 's', 'e'].isPrefixOf run then literal (.bool false) (run.drop 5)
  else
    match Number.numeral? run with
    | none => [.fault]
    | some (numeral, rest) =>
      match numeral.value? with
      | some value => literal (.number value) rest
      | none => literal (.damaged .unreadable) rest

-- A text that is being read: its characters so far, last one first; the high half of a surrogate
-- pair that waits for its low half; and whether every half so far has found its other half.
structure Partial where
  read : List Char
  high : Option Nat
  readable : Bool

-- A half that still waits will not be completed.
def Partial.settled (p : Partial) : Partial :=
  match p.high with
  | some _ => { p with high := none, readable := false }
  | none => p

def Partial.push (p : Partial) (c : Char) : Partial :=
  let p := p.settled
  { p with read := c :: p.read }

-- A code unit given by four hexadecimal digits.
def Partial.pushUnit (p : Partial) (unit : Nat) : Partial :=
  if 0xD800 ≤ unit && unit < 0xDC00 then { p.settled with high := some unit }
  else if 0xDC00 ≤ unit && unit < 0xE000 then
    match p.high with
    | some high =>
      let code := 0x10000 + (high - 0xD800) * 0x400 + (unit - 0xDC00)
      { p with read := Char.ofNat code :: p.read, high := none }
    | none => { p with readable := false }
  else p.push (Char.ofNat unit)

def Partial.token (p : Partial) : Token :=
  let p := p.settled
  if p.readable then .text (String.ofList p.read.reverse) else .unreadableText

-- Where the lexer stands: between tokens, in a run of other characters, in a text,
-- behind a backslash, or in the digits of a code unit.
inductive State
  | between
  | run (read : List Char)
  | text (p : Partial)
  | escape (p : Partial)
  | unit (p : Partial) (digits : Nat) (value : Nat)

def isSpace (c : Char) : Bool := c = ' ' || c = '\n' || c = '\t' || c = '\r'

-- A character between tokens.
def State.start (c : Char) : List Token × State :=
  if isSpace c then ([], .between)
  else if c = '[' then ([.openArray], .between)
  else if c = ']' then ([.closeArray], .between)
  else if c = '\x7b' then ([.openObject], .between)
  else if c = '\x7d' then ([.closeObject], .between)
  else if c = ',' then ([.comma], .between)
  else if c = ':' then ([.colon], .between)
  else if c = '"' then ([], .text ⟨[], none, true⟩)
  else ([], .run [c])

def endsRun (c : Char) : Bool :=
  isSpace c || c = '[' || c = ']' || c = '\x7b' || c = '\x7d' || c = ',' || c = ':' || c = '"'

def escaped? (c : Char) : Option Char :=
  match c with
  | '"' => some '"'
  | '\\' => some '\\'
  | '/' => some '/'
  | 'b' => some '\x08'
  | 'f' => some '\x0c'
  | 'n' => some '\n'
  | 'r' => some '\r'
  | 't' => some '\t'
  | _ => none

def hexValue? (c : Char) : Option Nat :=
  if c.isDigit then some (c.toNat - '0'.toNat)
  else if 'a' ≤ c && c ≤ 'f' then some (c.toNat - 'a'.toNat + 10)
  else if 'A' ≤ c && c ≤ 'F' then some (c.toNat - 'A'.toNat + 10)
  else none

-- The tokens that one more character completes, and the state behind it; `none`
-- where no token can go on.
def State.step (state : State) (c : Char) : Option (List Token × State) :=
  match state with
  | .between => some (State.start c)
  | .run read =>
    if endsRun c then
      let (tokens, next) := State.start c
      some (ofRun read.reverse ++ tokens, next)
    else some ([], .run (c :: read))
  | .text p =>
    if c = '"' then some ([p.token], .between)
    else if c = '\\' then some ([], .escape p)
    else if c.toNat < 0x20 then none
    else some ([], .text (p.push c))
  | .escape p =>
    if c = 'u' then some ([], .unit p 0 0)
    else (escaped? c).map fun e => ([], .text (p.push e))
  | .unit p digits value =>
    (hexValue? c).map fun digit =>
      let value := 16 * value + digit
      if digits = 3 then ([], .text (p.pushUnit value)) else ([], .unit p (digits + 1) value)

-- The tokens of a text, given those already complete, last one first.
def lex (done : List Token) (state : State) : List Char → List Token
  | [] =>
    match state with
    | .between => done.reverse
    | .run read => done.reverse ++ ofRun read.reverse
    | .text _ | .escape _ | .unit _ _ _ => (.fault :: done).reverse
  | c :: rest =>
    match state.step c with
    | some (tokens, next) => lex (tokens.reverse ++ done) next rest
    | none => (.fault :: done).reverse

def ofText (text : String) : List Token := lex [] .between text.toList

end Token

end PivotQuery.Json
