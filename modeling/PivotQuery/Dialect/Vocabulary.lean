import PivotQuery.ColumnType
import PivotQuery.Text.Blank

namespace PivotQuery

-- A type name without its parameters, in capitals, so that spellings of one type
-- fall together. Capitals are those of ASCII.
def normalizeTypeName (name : String) : String :=
  let base := name.toList.takeWhile (· != '(')
  String.ofList ((Text.trimmed base).map Char.toUpper)

-- Two spellings of one name, for which every vocabulary has the same type.
def sameTypeName (a b : String) : Bool := normalizeTypeName a == normalizeTypeName b

structure CoreNames where
  integer : String
  real : String
  string : String
  boolean : String
  date : String
  timestamp : String
  blob : String

namespace CoreNames

def get? (names : CoreNames) : ColumnKind → Option String
  | .integer => some names.integer
  | .real => some names.real
  | .string => some names.string
  | .boolean => some names.boolean
  | .date => some names.date
  | .timestamp => some names.timestamp
  | .blob => some names.blob
  | .other => none

def type? (names : CoreNames) (kind : ColumnKind) : Option ColumnType :=
  (names.get? kind).map fun name => .ofKind name kind

def types (names : CoreNames) : List ColumnType := ColumnKind.core.filterMap names.type?

end CoreNames

-- The type names that an engine knows: one for each core kind, and further ones.
structure Vocabulary where
  core : CoreNames
  aliases : List (String × ColumnKind)

namespace Vocabulary

-- The types by normalized name. Of two core names that fall together the later
-- counts, an alias never replaces a core name, and of two aliases the first counts.
def known (vocabulary : Vocabulary) : List (String × ColumnType) :=
  let aliases : List ColumnType := vocabulary.aliases.map fun (name, kind) => .ofKind name kind
  (vocabulary.core.types.reverse ++ aliases).map fun type =>
    (normalizeTypeName type.sqlTypeName, type)

def lookup (vocabulary : Vocabulary) (name : String) : Option ColumnType :=
  (vocabulary.known.find? fun entry => entry.1 == normalizeTypeName name).map Prod.snd

end Vocabulary

-- The types for names outside a vocabulary that have come up, each as it was spelled
-- when its name came up first.
structure UnknownTypes where
  entries : List (String × ColumnType) := []

namespace UnknownTypes

def get? (seen : UnknownTypes) (name : String) : Option ColumnType :=
  (seen.entries.find? fun entry => entry.1 == normalizeTypeName name).map Prod.snd

-- The type for a name, whether it is new, and what has come up with it.
def learn (seen : UnknownTypes) (name : String) : (ColumnType × Bool) × UnknownTypes :=
  match seen.get? name with
  | some type => ((type, false), seen)
  | none =>
    let type := ColumnType.unknown name
    ((type, true), ⟨(normalizeTypeName name, type) :: seen.entries⟩)

end UnknownTypes

namespace Vocabulary

-- The type for any name: a known one, or one that stands for the name alone. A name for which a
-- type has to be made is told apart.
def resolve (vocabulary : Vocabulary) (seen : UnknownTypes) (name : String) :
    (ColumnType × Bool) × UnknownTypes :=
  match vocabulary.lookup name with
  | some type => ((type, false), seen)
  | none => seen.learn name

def typeOf (vocabulary : Vocabulary) (seen : UnknownTypes) (name : String) :
    ColumnType × UnknownTypes :=
  let ((type, _), seen) := vocabulary.resolve seen name
  (type, seen)

end Vocabulary

end PivotQuery
