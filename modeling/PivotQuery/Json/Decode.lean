import PivotQuery.Json.Basic

namespace PivotQuery.Json

-- Why a JSON text is no value of a type: it has not the form of one, or it has and
-- the value itself is refused.
inductive Refusal (ε : Type)
  | malformed
  | refused (cause : ε)

abbrev Decoded (ε α : Type) := Except (Refusal ε) α

variable {ε α β : Type}

def malformed : Decoded ε α := .error .malformed

def refusing (result : Except ε α) : Decoded ε α := result.mapError .refused

def toText : Json → Decoded ε String
  | .text value => .ok value
  | _ => malformed

def toBool : Json → Decoded ε Bool
  | .bool value => .ok value
  | _ => malformed

-- A whole number of 64 bits; fractions are refused even if they are whole.
def toInt64 : Json → Decoded ε Int64
  | .number (.integer value) =>
    if Int64.minValue.toInt ≤ value ∧ value ≤ Int64.maxValue.toInt then .ok (Int64.ofInt value)
    else malformed
  | _ => malformed

def decodeAll (decode : Json → Decoded ε α) : List Json → Decoded ε (List α)
  | [] => .ok []
  | element :: rest => do
    let value ← decode element
    let values ← decodeAll decode rest
    return value :: values

def toList (decode : Json → Decoded ε α) : Json → Decoded ε (List α)
  | .array elements => decodeAll decode elements
  | _ => malformed

def decodeEntries (decode : Json → Decoded ε α) :
    List (String × Json) → Decoded ε (List (String × α))
  | [] => .ok []
  | (key, element) :: rest => do
    let value ← decode element
    let values ← decodeEntries decode rest
    return (key, value) :: values

-- An object as a map from any keys.
def toEntries (decode : Json → Decoded ε α) : Json → Decoded ε (List (String × α))
  | .object entries => decodeEntries decode entries
  | _ => malformed

def toOption (decode : Json → Decoded ε α) : Json → Decoded ε (Option α)
  | .null => .ok none
  | json => (decode json).map some

-- Whether a value is read from the text itself, or from inside a value that had to be
-- held first because its tag may come last. Held values are read more freely.
inductive Reading
  | direct
  | held
deriving DecidableEq

-- Nothing at all; held, an empty object counts as nothing too.
def isUnit (reading : Reading) : Json → Bool
  | .null => true
  | .object [] => reading = .held
  | _ => false

-- One of several names: as a text, or as the one key of an object with nothing behind it.
def toName (reading : Reading) : Json → Decoded ε String
  | .text name => .ok name
  | .object [(name, value)] => if isUnit reading value then .ok name else malformed
  | _ => malformed

def toEnum (ofName? : String → Option α) (reading : Reading) (json : Json) : Decoded ε α := do
  let name ← toName reading json
  match ofName? name with
  | some value => return value
  | none => malformed

-- The fields of a record that are present, each with its place in the text; how many
-- places there are; the first place at which the text is no such record, whatever the
-- fields hold; and whether the record is an array of its fields in order.
structure Record where
  fields : List (String × Nat × Json)
  places : Nat
  flaw : Option Nat
  positional : Bool

namespace Record

-- What may stand beside the fields: anything that is all there, under a readable key.
def isIgnored : Json → Bool
  | .damaged .unnamed => false
  | json => json.isSkippable

-- One more entry of an object: a field may occur once, and entries that are no fields are skipped.
def step (names : List String) (record : Record) (entry : String × Json) : Record :=
  let place := record.places
  let record := { record with places := place + 1 }
  let flawed := { record with flaw := record.flaw.or (some place) }
  if names.contains entry.1 then
    if record.fields.any (·.1 == entry.1) then flawed
    else { record with fields := record.fields ++ [(entry.1, place, entry.2)] }
  else if isIgnored entry.2 then record
  else flawed

def ofEntries (names : List String) (entries : List (String × Json)) : Record :=
  entries.foldl (step names) ⟨[], 0, none, false⟩

-- From an array: no element may be left over.
def ofElements (names : List String) (elements : List Json) : Record :=
  let fields := (names.zip elements).zipIdx.map fun ((name, json), place) => (name, place, json)
  { fields
    places := elements.length
    flaw := if names.length < elements.length then some names.length else none
    positional := true }

def find? (record : Record) (name : String) : Option (Nat × Json) :=
  (record.fields.find? fun field => field.1 == name).map Prod.snd

end Record

-- A reader of some fields of a record. Of two refusals the one that comes first in the
-- text counts; a field that is missing is missed at the end.
structure Fields (ε α : Type) where
  names : List String
  read : Record → Except (Nat × Refusal ε) α

namespace Fields

def earlier (a b : Nat × Refusal ε) : Nat × Refusal ε := if b.1 < a.1 then b else a

def both (a : Fields ε α) (b : Fields ε β) : Fields ε (α × β) where
  names := a.names ++ b.names
  read record :=
    match a.read record, b.read record with
    | .ok x, .ok y => .ok (x, y)
    | .ok _, .error e => .error e
    | .error e, .ok _ => .error e
    | .error e, .error f => .error (earlier e f)

def map (f : α → β) (a : Fields ε α) : Fields ε β where
  names := a.names
  read record := (a.read record).map f

def placed (place : Nat) (result : Decoded ε α) : Except (Nat × Refusal ε) α :=
  result.mapError fun e => (place, e)

-- A field for which something stands if it is missing, unless that is nothing.
def fieldOr (name : String) (missing : Record → Option α) (decode : Json → Decoded ε α) :
    Fields ε α where
  names := [name]
  read record :=
    match record.find? name with
    | some (place, json) => placed place (decode json)
    | none =>
      match missing record with
      | some value => .ok value
      | none => .error (record.places, .malformed)

def required (name : String) (decode : Json → Decoded ε α) : Fields ε α :=
  fieldOr name (fun _ => none) decode

def defaulted (name : String) (value : α) (decode : Json → Decoded ε α) : Fields ε α :=
  fieldOr name (fun _ => some value) decode

-- A field that may be null, or missing from an object but not from an array.
def optional (name : String) (decode : Json → Decoded ε α) : Fields ε (Option α) :=
  fieldOr name (fun record => if record.positional then none else some none) (toOption decode)

end Fields

def decodeRecord (fields : Fields ε α) (record : Record) : Decoded ε α :=
  match fields.read record, record.flaw with
  | .ok value, none => .ok value
  | .ok _, some _ => malformed
  | .error (_, e), none => .error e
  | .error (place, e), some flaw => if flaw < place then malformed else .error e

def toRecord (fields : Fields ε α) : Json → Decoded ε α
  | .object entries => decodeRecord fields (.ofEntries fields.names entries)
  | .array elements => decodeRecord fields (.ofElements fields.names elements)
  | _ => malformed

-- The tag of a form: its name, or in held values its number.
def toTag (reading : Reading) (names : List String) : Json → Decoded ε String
  | .text name => if names.contains name then .ok name else malformed
  | .number (.integer (.ofNat index)) =>
    match reading, names[index]? with
    | .held, some name => .ok name
    | _, _ => malformed
  | _ => malformed

-- A value of one of several forms, told apart by a tag beside its fields or, in an
-- array, in front of them: the tag, and what is left.
def untag (key : String) (reading : Reading) (names : List String) (json : Json) :
    Decoded ε (String × Json) :=
  if !json.isIntact then malformed
  else
    match json with
    | .object entries =>
      match entries.filter (·.1 == key) with
      | [(_, tag)] => do
        let name ← toTag reading names tag
        return (name, .object (entries.filter (·.1 != key)))
      | _ => malformed
    | .array (tag :: rest) => do
      let name ← toTag reading names tag
      return (name, .array rest)
    | _ => malformed

end PivotQuery.Json
