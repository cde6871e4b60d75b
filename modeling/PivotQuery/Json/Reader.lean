import PivotQuery.Json.Token

namespace PivotQuery.Json

-- An array or object that is still open, its content last one first. `pending` is the
-- key whose value comes next, or `none` if that key denotes no text.
inductive Frame
  | array (elements : List Json)
  | object (entries : List (String × Json)) (pending : Option String)

namespace Frame

def entry (key : Option String) (value : Json) : String × Json :=
  match key with
  | some key => (key, value)
  | none => ("", .damaged .unnamed)

def push (value : Json) : Frame → Frame
  | .array elements => .array (value :: elements)
  | .object entries pending => .object (entry pending value :: entries) none

def close : Frame → Json
  | .array elements => .array elements.reverse
  | .object entries _ => .object entries.reverse

-- Closed where the text is cut: what has been read, then the cut.
def cut (inner : Json) : Frame → Json
  | .array elements => .array (inner :: elements).reverse
  | .object entries (some key) => .object ((key, inner) :: entries).reverse
  | .object entries none => .object (("", .damaged .cut) :: entries).reverse

end Frame

-- What may come next: a value; a value or the end of a new array; a key; a key or
-- the end of a new object; the colon behind a key; or what follows a value.
inductive Expecting
  | value
  | firstValue
  | key
  | firstKey
  | colon
  | separator

-- Arrays and objects nested deeper than this are not read.
def maxDepth : Nat := 127

-- A value, and whether the text ends behind it.
structure Document where
  value : Json
  ended : Bool

def cutShort (frames : List Frame) : Json :=
  frames.foldl (fun inner frame => frame.cut inner) (.damaged .cut)

def closed (frame : Frame) (outer : List Frame) : Json :=
  if outer.length < maxDepth then frame.close
  else if frame.close.isSkippable then .damaged .unreadable
  else frame.close

-- What a value or the end of an array or object leads to.
inductive Step
  | done (value : Json)
  | more (frames : List Frame) (expecting : Expecting)

def placed (value : Json) : List Frame → Step
  | [] => .done value
  | frame :: outer => .more (frame.push value :: outer) .separator

def openValue? (frames : List Frame) : Token → Option Step
  | .openArray => some (.more (.array [] :: frames) .firstValue)
  | .openObject => some (.more (.object [] none :: frames) .firstKey)
  | .text value => some (placed (.text value) frames)
  | .unreadableText => some (placed (.damaged .unreadable) frames)
  | .literal value => some (placed value frames)
  | _ => none

def named? (frames : List Frame) (key : Option String) : Option Step :=
  match frames with
  | .object entries _ :: outer => some (.more (.object entries key :: outer) .colon)
  | _ => none

-- One token in its place; `none` where it is out of place.
def step? (frames : List Frame) (expecting : Expecting) (token : Token) : Option Step :=
  match expecting, token, frames with
  | .firstValue, .closeArray, frame :: outer => some (placed (closed frame outer) outer)
  | .value, token, frames | .firstValue, token, frames => openValue? frames token
  | .firstKey, .closeObject, frame :: outer => some (placed (closed frame outer) outer)
  | .key, .text key, frames | .firstKey, .text key, frames => named? frames (some key)
  | .key, .unreadableText, frames | .firstKey, .unreadableText, frames => named? frames none
  | .colon, .colon, frames => some (.more frames .value)
  | .separator, .comma, .array elements :: outer => some (.more (.array elements :: outer) .value)
  | .separator, .comma, .object entries pending :: outer =>
    some (.more (.object entries pending :: outer) .key)
  | .separator, .closeArray, .array elements :: outer =>
    some (placed (closed (.array elements) outer) outer)
  | .separator, .closeObject, .object entries pending :: outer =>
    some (placed (closed (.object entries pending) outer) outer)
  | _, _, _ => none

def build (frames : List Frame) (expecting : Expecting) : List Token → Document
  | [] => ⟨cutShort frames, true⟩
  | token :: rest =>
    match step? frames expecting token with
    | some (.done value) => ⟨value, rest.isEmpty⟩
    | some (.more frames expecting) => build frames expecting rest
    | none => ⟨cutShort frames, true⟩

def Document.ofText (text : String) : Document := build [] .value (Token.ofText text)

end PivotQuery.Json
