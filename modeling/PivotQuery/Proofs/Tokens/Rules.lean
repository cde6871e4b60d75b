import PivotQuery.Dialect.Engines

namespace PivotQuery

-- How an engine reads a token between two quotes: whether a quote inside is written twice, and
-- whether the backslash escapes.
structure TokenRules where
  quote : Char
  doubled : Bool
  backslash : Bool
deriving DecidableEq, Repr

namespace TokenRules

-- The text of a token behind its first quote, and what comes behind its last one. A backslash
-- and the quote are themselves behind a backslash; `escaped` tells what other characters are
-- there, if they may be there at all.
def readText (rules : TokenRules) (escaped : Char → Option Char) :
    List Char → Option (List Char × List Char)
  | [] => none
  | [c] => if c = rules.quote then some ([], []) else none
  | c :: next :: rest =>
    if c = '\\' && rules.backslash then
      match if next = '\\' || next = rules.quote then some next else escaped next with
      | some meant => (rules.readText escaped rest).map fun (text, rest) => (meant :: text, rest)
      | none => none
    else if c = rules.quote then
      if next = c && rules.doubled then
        (rules.readText escaped rest).map fun (text, rest) => (c :: text, rest)
      else some ([], next :: rest)
    else (rules.readText escaped (next :: rest)).map fun (text, rest) => (c :: text, rest)

def read? (rules : TokenRules) (escaped : Char → Option Char) :
    List Char → Option (List Char × List Char)
  | [] => none
  | c :: rest => if c = rules.quote then rules.readText escaped rest else none

-- A style writes what the rules read: a quote in the text is escaped in a way that they know.
structure Fits (rules : TokenRules) (style : QuoteStyle) : Prop where
  quote : style.delimiter = rules.quote
  backslash : style.backslashEscapes = rules.backslash
  escape : style.delimiterEscape = rules.quote ∧ rules.doubled = true ∨
    style.delimiterEscape = '\\' ∧ rules.backslash = true
  mark : rules.quote ∈ ['"', '\'', '\x60']

instance (rules : TokenRules) (style : QuoteStyle) : Decidable (rules.Fits style) :=
  decidable_of_iff (style.delimiter = rules.quote ∧ style.backslashEscapes = rules.backslash ∧
    (style.delimiterEscape = rules.quote ∧ rules.doubled = true ∨
      style.delimiterEscape = '\\' ∧ rules.backslash = true) ∧
        rules.quote ∈ ['"', '\'', '\x60'])
    ⟨fun ⟨hquote, hbackslash, hescape, hmark⟩ => ⟨hquote, hbackslash, hescape, hmark⟩,
      fun h => ⟨h.quote, h.backslash, h.escape, h.mark⟩⟩

variable {rules : TokenRules} {style : QuoteStyle} {escaped : Char → Option Char}

theorem ne_quote (hmark : rules.quote ∈ ['"', '\'', '\x60']) {c : Char}
    (hc : c ∉ ['"', '\'', '\x60']) : c ≠ rules.quote :=
  fun heq => hc (heq ▸ hmark)

theorem Fits.distinct (h : rules.Fits style) : rules.quote ≠ '\\' :=
  (ne_quote h.mark (by decide)).symm

-- A character is written as it is, behind a backslash, or twice.
theorem Fits.encode_cases (h : rules.Fits style) (c : Char) :
    (style.encode c = [c] ∧ ¬(c = '\\' ∧ rules.backslash = true) ∧ c ≠ rules.quote) ∨
      (style.encode c = ['\\', c] ∧ rules.backslash = true ∧ (c = '\\' ∨ c = rules.quote)) ∨
      (style.encode c = [c, c] ∧ c = rules.quote ∧ rules.doubled = true) := by
  unfold QuoteStyle.encode
  rw [h.quote, h.backslash]
  by_cases hbackslash : c = '\\' ∧ rules.backslash = true
  · exact Or.inr (Or.inl ⟨by simp [hbackslash], hbackslash.2, Or.inl hbackslash.1⟩)
  · rw [if_neg (by simpa using hbackslash)]
    by_cases hc : c = rules.quote
    · rcases h.escape with ⟨hescape, hdoubled⟩ | ⟨hescape, hescapes⟩
      · exact Or.inr (Or.inr ⟨by rw [if_pos hc, hescape, hc], hc, hdoubled⟩)
      · exact Or.inr (Or.inl ⟨by rw [if_pos hc, hescape], hescapes, Or.inr hc⟩)
    · exact Or.inl ⟨if_neg hc, hbackslash, hc⟩

private theorem readText_plain {c : Char} (hescape : ¬(c = '\\' ∧ rules.backslash = true))
    (hquote : c ≠ rules.quote) (rest : List Char) :
    rules.readText escaped (c :: rest) =
      (rules.readText escaped rest).map fun (text, rest) => (c :: text, rest) := by
  cases rest with
  | nil => simp [readText, hquote]
  | cons next rest => rw [readText, if_neg (by simpa using hescape), if_neg hquote]

-- Each character is read back from its spelling, whatever comes behind it.
private theorem readText_encode (h : rules.Fits style) (c : Char) (rest : List Char) :
    rules.readText escaped (style.encode c ++ rest) =
      (rules.readText escaped rest).map fun (text, rest) => (c :: text, rest) := by
  rcases h.encode_cases c with ⟨hc, hescape, hquote⟩ | ⟨hc, hescapes, hbehind⟩ |
    ⟨hc, rfl, hdoubled⟩
  · rw [hc]
    exact readText_plain hescape hquote rest
  · rw [hc]
    simp [readText, hescapes, hbehind]
  · rw [hc]
    simp [readText, hdoubled, h.distinct]

theorem readText_flatMap_encode (h : rules.Fits style) (text behind : List Char) :
    rules.readText escaped (text.flatMap style.encode ++ behind) =
      (rules.readText escaped behind).map fun (inside, rest) => (text ++ inside, rest) := by
  induction text with
  | nil => simp
  | cons c text ih =>
    rw [List.flatMap_cons, List.append_assoc, readText_encode h, ih, Option.map_map]
    rfl

-- The text of a token of which the spelling is given that is between its quotes.
def meaning? (rules : TokenRules) (escaped : Char → Option Char) (spelled : List Char) :
    Option (List Char) :=
  match rules.readText escaped (spelled ++ [rules.quote]) with
  | some (text, []) => some text
  | _ => none

theorem meaning?_encode (h : rules.Fits style) (text : List Char) :
    rules.meaning? escaped (text.flatMap style.encode) = some text := by
  simp [meaning?, readText_flatMap_encode h, readText]

end TokenRules

namespace Dialect

-- Standard SQL writes a quote inside a token twice. One engine escapes with the backslash, and
-- another one does both in texts.

def textRules (dialect : Dialect) : TokenRules :=
  if dialect.name = "bigquery" then ⟨'\'', false, true⟩
  else if dialect.name = "snowflake" then ⟨'\'', true, true⟩
  else ⟨'\'', true, false⟩

def nameRules (dialect : Dialect) : TokenRules :=
  if dialect.name = "bigquery" then ⟨'\x60', false, true⟩ else ⟨'"', true, false⟩

theorem fits_rules {dialect : Dialect} (h : dialect ∈ all) :
    dialect.textRules.Fits dialect.texts ∧ dialect.nameRules.Fits dialect.identifiers := by
  revert dialect
  decide

end Dialect

end PivotQuery
