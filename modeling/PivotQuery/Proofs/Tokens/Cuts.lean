import PivotQuery.Proofs.Tokens.Printed

namespace PivotQuery

namespace Text

private theorem not_mem_quotes_of_isBlank {c : Char} (h : isBlank c = true) :
    c ∉ ['"', '\'', '\x60'] := by
  have hquotes : ['"', '\'', '\x60'].all (fun c => !isBlank c) = true := by decide
  exact fun hc => by simpa [h] using List.all_eq_true.mp hquotes c hc

end Text

def Token.words (texts : List String) : List Token := texts.map fun text => .word text.toList

namespace Dialect

variable {dialect : Dialect} {readable : Prop} {a b text : String} {s t tokens : List Token}

-- A text that falls into tokens at its blanks and quotes. What stands between blanks may be
-- anything, a quote that does not end included.
def Cuts (dialect : Dialect) (text : String) (tokens : List Token) : Prop :=
  ∃ symbols, dialect.spell symbols = text.toList ∧ Symbol.tokens symbols = tokens

-- The same, and where all that comes from elsewhere can be read these are the tokens that an
-- engine reads.
def Falls (dialect : Dialect) (readable : Prop) (text : String) (tokens : List Token) : Prop :=
  ∃ symbols, (readable → dialect.Legible symbols) ∧ dialect.spell symbols = text.toList ∧
    Symbol.tokens symbols = tokens

-- A text that ends with a token in quotes, so that a comma behind it is a token of its own.
def FallsClosed (dialect : Dialect) (readable : Prop) (text : String) (tokens : List Token) :
    Prop :=
  ∃ front quote spelled, (readable → dialect.Legible (front ++ [.quoted quote spelled])) ∧
    dialect.spell (front ++ [.quoted quote spelled]) = text.toList ∧
      Symbol.tokens (front ++ [.quoted quote spelled]) = tokens

-- A text between two others that has blanks on both sides.
structure Separates (separator : String) (words : List Token) : Prop where
  free : QuoteFree separator
  blank : separator.toList.head?.any Text.isBlank = true
  tokens : ∀ rest, Symbol.tokens (separator.toList.map .char ++ rest) =
    words ++ Symbol.tokens rest

theorem Separates.blank_append {separator : String} {words : List Token}
    (h : Separates separator words) (text : String) :
    ∀ c ∈ (separator ++ text).toList.head?, Text.isBlank c = true := by
  obtain ⟨first, hfirst, hblank⟩ := (Option.any_eq_true _ _).mp h.blank
  intro c hc
  rw [String.toList_append, List.head?_append, hfirst] at hc
  obtain rfl : first = c := Option.some.inj hc
  exact hblank

theorem Falls.cuts (h : dialect.Falls readable text tokens) : dialect.Cuts text tokens := by
  obtain ⟨symbols, -, hspell, htokens⟩ := h
  exact ⟨symbols, hspell, htokens⟩

theorem FallsClosed.falls (h : dialect.FallsClosed readable text tokens) :
    dialect.Falls readable text tokens := by
  obtain ⟨front, quote, spelled, h⟩ := h
  exact ⟨_, h⟩

section Sound

variable (hdialect : dialect.Sound)
include hdialect

theorem Falls.tokens? (h : dialect.Falls readable text tokens) (hreadable : readable) :
    dialect.tokens? text = some tokens := by
  obtain ⟨symbols, hlegible, hspell, rfl⟩ := h
  rw [Dialect.tokens?, ← hspell, symbols?_spell hdialect (hlegible hreadable), Option.map_some]

omit hdialect in
theorem exists_falls (h : readable → dialect.Reads text []) :
    ∃ tokens, dialect.Falls readable text tokens := by
  by_cases hreadable : readable
  · obtain ⟨symbols, hlegible, hspell, -⟩ := h hreadable
    exact ⟨_, symbols, fun _ => hlegible, hspell, rfl⟩
  · exact ⟨_, text.toList.map .char, fun h => absurd h hreadable, spell_chars _, rfl⟩

theorem Falls.append (ha : dialect.Falls readable a s) (hb : dialect.Falls readable b t)
    (hblank : ∀ c ∈ b.toList.head?, Text.isBlank c = true) :
    dialect.Falls readable (a ++ b) (s ++ t) := by
  obtain ⟨front, hfront, hspell, rfl⟩ := ha
  obtain ⟨back, hback, hspell', rfl⟩ := hb
  rw [← hspell'] at hblank
  have hopens : ∀ c ∈ (dialect.spell back).head?, dialect.quote? c = none := fun c hc =>
    hdialect.quote?_eq_none (Text.not_mem_quotes_of_isBlank (hblank c hc))
  have hcut : (Symbol.cut back).1 = [] := by
    cases back with
    | nil => rfl
    | cons symbol rest =>
      cases symbol with
      | char c => rw [Symbol.cut_blank (hblank c (by simp))]
      | quoted quote spelled => rfl
  refine ⟨front ++ back, fun h => (hfront h).append hdialect (hback h) hopens, ?_,
    Symbol.tokens_append hcut front⟩
  rw [spell_append, hspell, hspell', String.toList_append]

theorem Falls.keyword {keyword : String} {words : List Token} (hfree : QuoteFree keyword)
    (hwords : ∀ rest, Symbol.tokens (keyword.toList.map .char ++ rest) =
      words ++ Symbol.tokens rest) (h : dialect.Falls readable text tokens) :
    dialect.Falls readable (keyword ++ text) (words ++ tokens) := by
  obtain ⟨symbols, hlegible, hspell, rfl⟩ := h
  refine ⟨keyword.toList.map .char ++ symbols, fun h => (hlegible h).chars_append fun c hc =>
    hdialect.quote?_eq_none (hfree c hc), ?_, hwords symbols⟩
  rw [spell_append, spell_chars, hspell, String.toList_append]

theorem Falls.between (ha : dialect.Falls readable a s) {separator : String} {words : List Token}
    (hseparates : Separates separator words) (hb : dialect.Falls readable b t) :
    dialect.Falls readable (a ++ separator ++ b) (s ++ words ++ t) := by
  rw [String.append_assoc, List.append_assoc]
  exact ha.append hdialect (hb.keyword hdialect hseparates.free hseparates.tokens)
    (hseparates.blank_append b)

theorem spell_quoteIdentifier (id : String) :
    dialect.spell [.quoted .name (id.toList.flatMap dialect.identifiers.encode)] =
      (dialect.quoteIdentifier id).toList :=
  spell_quote hdialect .name id

theorem falls_quoteIdentifier (id : String) :
    dialect.FallsClosed readable (dialect.quoteIdentifier id)
      [.quoted .name (id.toList.flatMap dialect.identifiers.encode)] :=
  ⟨[], .name, _, fun _ => legible_quote hdialect .name id.toList,
    spell_quoteIdentifier hdialect id, rfl⟩

-- A text and a name for it.
theorem Falls.named (h : dialect.Falls readable text tokens) (id : String) :
    dialect.FallsClosed readable (text ++ " AS " ++ dialect.quoteIdentifier id)
      (tokens ++ [.word ['A', 'S'],
        .quoted .name (id.toList.flatMap dialect.identifiers.encode)]) := by
  obtain ⟨symbols, hlegible, hspell, rfl⟩ := h
  have hfree : ∀ c ∈ [' ', 'A', 'S', ' '], dialect.quote? c = none := fun c hc =>
    hdialect.quote?_eq_none ((by decide : QuoteFree " AS ") c hc)
  have hname := (legible_quote hdialect .name id.toList).chars_append hfree
  refine ⟨symbols ++ [' ', 'A', 'S', ' '].map .char, .name,
    id.toList.flatMap dialect.identifiers.encode, fun h => ?_, ?_, ?_⟩
  · rw [List.append_assoc]
    exact (hlegible h).append hdialect hname (by simp [hfree])
  · rw [spell_append, spell_append, spell_chars, hspell, spell_quoteIdentifier hdialect]
    simp
  · rw [Symbol.tokens_append_quoted, List.map_cons, Symbol.tokens_append_blank rfl,
      List.append_assoc]
    rfl

-- A column behind the alias of what it comes from, with a prefix that ends at the first quote.
theorem falls_qualified {before : String} (hfree : QuoteFree before) (own id : String) :
    dialect.Falls readable
      (before ++ (dialect.quoteIdentifier own ++ "." ++ dialect.quoteIdentifier id))
      (Symbol.tokens (before.toList.map .char) ++
        [.quoted .name (own.toList.flatMap dialect.identifiers.encode), .word ['.'],
          .quoted .name (id.toList.flatMap dialect.identifiers.encode)]) := by
  have hpoint : dialect.quote? '.' = none := hdialect.quote?_eq_none (by decide)
  have hcolumn := legible_quote hdialect .name id.toList
  have hside := (legible_quote hdialect .name own.toList).append hdialect (.char hpoint hcolumn)
    (by simpa using hpoint)
  refine ⟨_, fun _ => hside.chars_append fun c hc => hdialect.quote?_eq_none (hfree c hc), ?_, ?_⟩
  · have hown := spell_quoteIdentifier hdialect own
    have hid := spell_quoteIdentifier hdialect id
    simp only [style, spell_append, spell_chars, hown, spell_char, hid, String.toList_append,
      List.append_assoc]
    rfl
  · rw [List.singleton_append, Symbol.tokens_append_quoted]
    rfl

theorem FallsClosed.comma (ha : dialect.FallsClosed readable a s)
    (hb : dialect.Falls readable b t) :
    dialect.Falls readable (a ++ ", " ++ b) (s ++ Token.words [","] ++ t) := by
  obtain ⟨front, quote, spelled, hfront, hspell, rfl⟩ := ha
  obtain ⟨back, hback, hspell', rfl⟩ := hb
  have hcomma : dialect.quote? ',' = none := hdialect.quote?_eq_none (by decide)
  have hblank : dialect.quote? ' ' = none := hdialect.quote?_eq_none (by decide)
  refine ⟨front ++ [.quoted quote spelled] ++ .char ',' :: .char ' ' :: back,
    fun h => (hfront h).append hdialect (.char hcomma (.char hblank (hback h))) (by simpa), ?_, ?_⟩
  · rw [spell_append, hspell, spell_char, spell_char, hspell']
    simp
  · rw [List.append_assoc, List.singleton_append, Symbol.tokens_append_quoted,
      Symbol.tokens_append_quoted]
    have hback : Symbol.tokens (.char ',' :: .char ' ' :: back) =
        Token.words [","] ++ Symbol.tokens back :=
      Symbol.tokens_append_blank rfl [.char ','] back
    rw [hback]
    simp [Symbol.tokens, Symbol.cut, Symbol.wordThen]

theorem Falls.parenthesized (h : dialect.Falls readable text tokens) :
    dialect.Falls readable (Dialect.parenthesized text)
      (.word ['('] :: tokens.map Token.widened ++ [.word [')']]) := by
  obtain ⟨symbols, hlegible, hspell, rfl⟩ := h
  obtain ⟨around, haround, hspell', htokens, -⟩ := exists_parenthesized hdialect hspell
  exact ⟨around, fun h => haround (hlegible h), hspell', htokens⟩

-- What is put together from parts falls into their tokens.

theorem falls_intercalate {separator : String} {words : List Token}
    (hseparates : Separates separator words) {texts : List String} {parts : List (List Token)}
    (h : List.Forall₂ (dialect.Falls readable) texts parts) :
    dialect.Falls readable (separator.intercalate texts) (words.intercalate parts) := by
  induction h with
  | nil => exact ⟨[], fun _ => .nil, rfl, rfl⟩
  | cons hpart hrest ih =>
    cases hrest with
    | nil => simpa using hpart
    | cons =>
      rw [String.intercalate_cons_cons, List.intercalate_cons_cons]
      exact hpart.between hdialect hseparates ih

theorem falls_commaSeparated {texts : List String} {parts : List (List Token)}
    (h : List.Forall₂ (dialect.FallsClosed readable) texts parts) :
    dialect.Falls readable (Sql.commaSeparated texts) ((Token.words [","]).intercalate parts) := by
  unfold Sql.commaSeparated
  induction h with
  | nil => exact ⟨[], fun _ => .nil, rfl, rfl⟩
  | cons hpart hrest ih =>
    cases hrest with
    | nil => simpa using hpart.falls
    | cons =>
      rw [String.intercalate_cons_cons, List.intercalate_cons_cons]
      exact hpart.comma hdialect ih

theorem falls_quoteFree (h : QuoteFree text) :
    dialect.Falls readable text (Symbol.tokens (text.toList.map .char)) := by
  have hchars : dialect.Legible (text.toList.map .char ++ []) :=
    Legible.nil.chars_append fun c hc => hdialect.quote?_eq_none (h c hc)
  rw [List.append_nil] at hchars
  exact ⟨_, fun _ => hchars, spell_chars _, rfl⟩

end Sound

end Dialect

end PivotQuery
