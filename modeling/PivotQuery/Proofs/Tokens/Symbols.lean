import PivotQuery.Proofs.Tokens.Quoted

namespace PivotQuery

-- What stands between quotes: the name of something, or a text.
inductive Quote
  | name
  | text
deriving DecidableEq, Repr

-- A text character by character, with all that stands between two quotes in one.
inductive Symbol
  | char (c : Char)
  | quoted (quote : Quote) (spelled : List Char)
deriving DecidableEq, Repr

-- Blanks only tell words apart.
inductive Token
  | word (chars : List Char)
  | quoted (quote : Quote) (spelled : List Char)
deriving DecidableEq, Repr

namespace Symbol

def wordThen (word : List Char) (tokens : List Token) : List Token :=
  if word.isEmpty then tokens else .word word :: tokens

-- The word with which some symbols begin, and the tokens behind it.
def cut : List Symbol → List Char × List Token
  | [] => ([], [])
  | .char c :: rest =>
    let (word, tokens) := cut rest
    if Text.isBlank c then ([], wordThen word tokens) else (c :: word, tokens)
  | .quoted quote spelled :: rest =>
    let (word, tokens) := cut rest
    ([], .quoted quote spelled :: wordThen word tokens)

def tokens (symbols : List Symbol) : List Token := wordThen (cut symbols).1 (cut symbols).2

theorem wordThen_append (word : List Char) (a b : List Token) :
    wordThen word (a ++ b) = wordThen word a ++ b := by
  unfold wordThen
  split <;> rfl

theorem cut_blank {c : Char} (hc : Text.isBlank c = true) (rest : List Symbol) :
    cut (.char c :: rest) = ([], tokens rest) := by
  simp only [cut, hc, if_true]
  rfl

theorem tokens_blank {c : Char} (hc : Text.isBlank c = true) (rest : List Symbol) :
    tokens (.char c :: rest) = tokens rest := by
  rw [tokens, cut_blank hc]
  rfl

-- Tokens do not reach over a blank or a quote.
theorem tokens_append {b : List Symbol} (hb : (cut b).1 = []) (a : List Symbol) :
    tokens (a ++ b) = tokens a ++ tokens b := by
  have htokens : tokens b = (cut b).2 := by
    rw [tokens, hb]
    rfl
  have hcut : cut (a ++ b) = ((cut a).1, (cut a).2 ++ (cut b).2) := by
    induction a with
    | nil => exact Prod.ext hb rfl
    | cons symbol rest ih =>
      cases symbol with
      | char other =>
        by_cases hother : Text.isBlank other = true <;>
          simp [cut, ih, hother, wordThen_append]
      | quoted quote spelled => simp [cut, ih, wordThen_append]
  rw [tokens, hcut, wordThen_append, htokens]
  rfl

theorem tokens_append_blank {c : Char} (hc : Text.isBlank c = true) (a b : List Symbol) :
    tokens (a ++ .char c :: b) = tokens a ++ tokens b := by
  rw [tokens_append (by rw [cut_blank hc]), tokens_blank hc]

theorem tokens_append_quoted (quote : Quote) (spelled : List Char) (a b : List Symbol) :
    tokens (a ++ .quoted quote spelled :: b) = tokens a ++ .quoted quote spelled :: tokens b := by
  rw [tokens_append rfl]
  rfl

end Symbol

namespace Dialect

def rules (dialect : Dialect) : Quote → TokenRules
  | .name => dialect.nameRules
  | .text => dialect.textRules

def quote? (dialect : Dialect) (c : Char) : Option Quote :=
  if c = dialect.nameRules.quote then some .name
  else if c = dialect.textRules.quote then some .text
  else none

-- A text in symbols, unless a token in it does not end. Quotes that the dialect does not write
-- and comments are characters like others.
def symbols? (dialect : Dialect) : List Char → Option (List Symbol)
  | [] => some []
  | c :: rest =>
    match dialect.quote? c with
    | none => (dialect.symbols? rest).map (.char c :: ·)
    | some quote =>
      match h : (dialect.rules quote).takeQuoted rest with
      | none => none
      | some (spelled, behind) =>
        have : behind.length < rest.length := TokenRules.takeQuoted_length h
        (dialect.symbols? behind).map (.quoted quote spelled :: ·)
termination_by text => text.length

def tokens? (dialect : Dialect) (text : String) : Option (List Token) :=
  (dialect.symbols? text.toList).map Symbol.tokens

-- The styles in which a dialect writes names and texts.
def style (dialect : Dialect) : Quote → QuoteStyle
  | .name => dialect.identifiers
  | .text => dialect.texts

-- What is written is read by the rules, and names are not mistaken for texts.
structure Sound (dialect : Dialect) : Prop where
  names : dialect.nameRules.Fits dialect.identifiers
  texts : dialect.textRules.Fits dialect.texts
  distinct : dialect.nameRules.quote ≠ dialect.textRules.quote

variable {dialect : Dialect} {text : List Char} {symbols : List Symbol}

theorem Sound.fits (h : dialect.Sound) (quote : Quote) :
    (dialect.rules quote).Fits (dialect.style quote) := by
  cases quote with
  | name => exact h.names
  | text => exact h.texts

theorem Sound.quote?_quote (h : dialect.Sound) (quote : Quote) :
    dialect.quote? (dialect.rules quote).quote = some quote := by
  cases quote with
  | name => simp [quote?, rules]
  | text => simp [quote?, rules, h.distinct.symm]

theorem eq_quote_of_quote? {c : Char} {quote : Quote} (h : dialect.quote? c = some quote) :
    c = (dialect.rules quote).quote := by
  unfold quote? at h
  split at h
  · obtain rfl : Quote.name = quote := by simpa using h
    assumption
  · split at h
    · obtain rfl : Quote.text = quote := by simpa using h
      assumption
    · simp at h

def spell (dialect : Dialect) (symbols : List Symbol) : List Char :=
  symbols.flatMap fun
    | .char c => [c]
    | .quoted quote spelled =>
      (dialect.rules quote).quote :: spelled ++ [(dialect.rules quote).quote]

@[simp] theorem spell_nil : dialect.spell [] = [] := rfl

@[simp] theorem spell_char (c : Char) (rest : List Symbol) :
    dialect.spell (.char c :: rest) = c :: dialect.spell rest := rfl

@[simp] theorem spell_quoted (quote : Quote) (spelled : List Char) (rest : List Symbol) :
    dialect.spell (.quoted quote spelled :: rest) = (dialect.rules quote).quote ::
      (spelled ++ (dialect.rules quote).quote :: dialect.spell rest) := by
  simp [spell]

theorem spell_append (a b : List Symbol) :
    dialect.spell (a ++ b) = dialect.spell a ++ dialect.spell b :=
  List.flatMap_append

-- Symbols that are read back from their spelling: no character is a quote, and a token in quotes
-- ends where its spelling does.
inductive Legible (dialect : Dialect) : List Symbol → Prop
  | nil : Legible dialect []
  | char {c : Char} {rest : List Symbol} (hc : dialect.quote? c = none)
    (h : Legible dialect rest) : Legible dialect (.char c :: rest)
  | quoted {quote : Quote} {spelled : List Char} {rest : List Symbol}
    (hspells : (dialect.rules quote).Spells spelled)
    (hends : (dialect.rules quote).doubled = true →
      (dialect.spell rest).head? ≠ some (dialect.rules quote).quote)
    (h : Legible dialect rest) : Legible dialect (.quoted quote spelled :: rest)

theorem symbols?_spell (hdialect : dialect.Sound) (h : dialect.Legible symbols) :
    dialect.symbols? (dialect.spell symbols) = some symbols := by
  induction h with
  | nil => simp [symbols?]
  | char hc _ ih => simp [symbols?, hc, ih]
  | @quoted quote spelled rest hspells hends _ ih =>
    have htake := TokenRules.takeQuoted_of_spells (hdialect.fits quote).distinct hspells hends
    rw [spell_quoted, symbols?, hdialect.quote?_quote]
    simp only
    split
    · rename_i hnone
      simp [htake] at hnone
    · rename_i before behind hsome
      obtain ⟨rfl, rfl⟩ : spelled = before ∧ dialect.spell rest = behind := by
        simpa [htake] using hsome
      rw [ih]
      rfl

theorem legible_of_symbols? (h : dialect.symbols? text = some symbols) :
    dialect.Legible symbols ∧ dialect.spell symbols = text := by
  fun_induction symbols? dialect text generalizing symbols with
  | case1 =>
    obtain rfl : [] = symbols := by simpa using h
    exact ⟨.nil, rfl⟩
  | case2 c rest hc ih =>
    obtain ⟨behind, hbehind, rfl⟩ := Option.map_eq_some_iff.mp h
    obtain ⟨hlegible, rfl⟩ := ih hbehind
    exact ⟨.char hc hlegible, rfl⟩
  | case3 => simp at h
  | case4 c rest quote hc spelled behind htake hlt ih =>
    obtain ⟨others, hothers, rfl⟩ := Option.map_eq_some_iff.mp h
    obtain ⟨hlegible, rfl⟩ := ih hothers
    obtain ⟨hspells, happend, hends⟩ := TokenRules.spells_of_takeQuoted htake
    refine ⟨.quoted hspells hends hlegible, ?_⟩
    rw [spell_quoted, happend, ← eq_quote_of_quote? hc]

end Dialect

end PivotQuery
