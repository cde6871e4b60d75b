namespace PivotQuery

-- Whole numbers and fractions are kept apart: a field for whole numbers takes no
-- fraction, not even 1.0.
inductive Json.Number
  | integer (value : Int)
  | real (value : Float)

-- Where a text stops being JSON, what follows is cut. A number out of range, half a surrogate pair
-- or a nest that is too deep is well-formed but unreadable: it can be skipped, and it denotes no
-- value. An entry whose key is unreadable has the empty key, and this stands for its value.
inductive Json.Damage
  | cut
  | unreadable
  | unnamed
deriving DecidableEq

inductive Json
  | null
  | bool (value : Bool)
  | number (value : Json.Number)
  | text (value : String)
  | array (elements : List Json)
  | object (entries : List (String × Json))
  | damaged (damage : Json.Damage)

namespace Json

mutual

-- All damage inside is of an allowed kind.
def damageAllowed (allowed : Damage → Bool) : Json → Bool
  | .array elements => allAllowed allowed elements
  | .object entries => entriesAllowed allowed entries
  | .damaged damage => allowed damage
  | .null | .bool _ | .number _ | .text _ => true

def allAllowed (allowed : Damage → Bool) : List Json → Bool
  | [] => true
  | element :: rest => element.damageAllowed allowed && allAllowed allowed rest

def entriesAllowed (allowed : Damage → Bool) : List (String × Json) → Bool
  | [] => true
  | (_, value) :: rest => value.damageAllowed allowed && entriesAllowed allowed rest

end

-- Where a value is not wanted it is skipped, whatever it denotes, if it is all there.
def isSkippable (json : Json) : Bool := json.damageAllowed (· != .cut)

def isIntact (json : Json) : Bool := json.damageAllowed fun _ => false

mutual

def depth : Json → Nat
  | .array elements => depthOfAll elements + 1
  | .object entries => depthOfEntries entries + 1
  | .null | .bool _ | .number _ | .text _ | .damaged _ => 0

def depthOfAll : List Json → Nat
  | [] => 0
  | element :: rest => max element.depth (depthOfAll rest)

def depthOfEntries : List (String × Json) → Nat
  | [] => 0
  | (_, value) :: rest => max value.depth (depthOfEntries rest)

end

def ofNat (n : Nat) : Json := .number (.integer n)

def ofTexts (texts : List String) : Json := .array (texts.map .text)

def ofOption {α : Type} (encode : α → Json) : Option α → Json
  | none => .null
  | some value => encode value

def ofEntries (entries : List (String × Option Json)) : Json :=
  .object (entries.filterMap fun (key, value?) => value?.map fun value => (key, value))

def get? (json : Json) (key : String) : Option Json :=
  match json with
  | .object entries => (entries.find? fun entry => entry.1 == key).map Prod.snd
  | _ => none

end Json

end PivotQuery
