import PivotQuery.Proofs.Tokens.Indented
import PivotQuery.Proofs.Tokens.QuoteFree
import PivotQuery.Sql.Text

namespace PivotQuery

namespace Symbol

variable {symbols a b : List Symbol} {fragment : List Token}

-- Tokens that stay together whatever is put around the symbols.
def Shows (symbols : List Symbol) (fragment : List Token) : Prop :=
  ∀ before behind, fragment <:+: tokens (before ++ symbols ++ behind)

theorem Shows.append_left (h : Shows b fragment) (a : List Symbol) : Shows (a ++ b) fragment := by
  intro before behind
  rw [← List.append_assoc]
  exact h (before ++ a) behind

theorem Shows.append_right (h : Shows a fragment) (b : List Symbol) : Shows (a ++ b) fragment := by
  intro before behind
  rw [← List.append_assoc, List.append_assoc]
  exact h before (b ++ behind)

theorem Shows.infix_tokens (h : Shows symbols fragment) : fragment <:+: tokens symbols := by
  have hwhole := h [] []
  rwa [List.nil_append, List.append_nil] at hwhole

theorem shows_quoted (quote : Quote) (spelled : List Char) :
    Shows [.quoted quote spelled] [.quoted quote spelled] := by
  intro before behind
  rw [List.append_assoc, List.singleton_append, tokens_append_quoted]
  exact ⟨tokens before, tokens behind, by simp⟩

-- Lines of their own have their tokens for themselves.
theorem shows_relined (h : fragment <:+: tokens symbols) :
    Shows (.char '\n' :: .char ' ' :: .char ' ' :: relined symbols ++ [.char '\n'])
      (fragment.map Token.widened) := by
  intro before behind
  have htokens : tokens (before ++ (.char '\n' :: .char ' ' :: .char ' ' :: relined symbols ++
      [.char '\n']) ++ behind) =
        tokens before ++ (tokens symbols).map Token.widened ++ tokens behind := by
    simp only [List.append_assoc, List.cons_append, List.nil_append]
    rw [tokens_append_blank rfl, tokens_blank rfl, tokens_blank rfl, tokens_append_blank rfl,
      tokens_relined]
  rw [htokens]
  exact (h.map Token.widened).trans ⟨tokens before, tokens behind, rfl⟩

end Symbol

namespace Dialect

variable {dialect : Dialect} {symbols behind : List Symbol}

theorem Legible.append (hdialect : dialect.Sound) (h : dialect.Legible symbols)
    (hbehind : dialect.Legible behind)
    (hopens : ∀ c ∈ (dialect.spell behind).head?, dialect.quote? c = none) :
    dialect.Legible (symbols ++ behind) := by
  induction h with
  | nil => exact hbehind
  | char hc _ ih => exact .char hc ih
  | @quoted quote spelled rest hspells hends h ih =>
    refine .quoted hspells (fun hdoubled => ?_) ih
    rw [List.append_eq, spell_append]
    cases hrest : dialect.spell rest with
    | nil =>
      intro hhead
      have hnone := hopens _ hhead
      simp [hdialect.quote?_quote] at hnone
    | cons c others =>
      have hhead := hends hdoubled
      rwa [hrest] at hhead

theorem Legible.chars_append (h : dialect.Legible symbols) {chars : List Char}
    (hchars : ∀ c ∈ chars, dialect.quote? c = none) :
    dialect.Legible (chars.map .char ++ symbols) := by
  induction chars with
  | nil => exact h
  | cons c rest ih =>
    obtain ⟨hc, hrest⟩ := List.forall_mem_cons.mp hchars
    exact .char hc (ih hrest)

theorem spell_chars (chars : List Char) : dialect.spell (chars.map .char) = chars := by
  induction chars with
  | nil => rfl
  | cons c rest ih => simp [ih]

-- A text that falls into tokens, with some that it shows.
def Reads (dialect : Dialect) (text : String) (fragments : List (List Token)) : Prop :=
  ∃ symbols, dialect.Legible symbols ∧ dialect.spell symbols = text.toList ∧
    ∀ fragment ∈ fragments, Symbol.Shows symbols fragment

-- Nothing before the text can be mistaken for a part of it.
def Opens (dialect : Dialect) (text : String) : Prop :=
  ∀ c ∈ text.toList.head?, dialect.quote? c = none

variable {text a b : String} {fragments others : List (List Token)}

theorem Reads.mono (h : dialect.Reads text fragments) (hsub : others ⊆ fragments) :
    dialect.Reads text others := by
  obtain ⟨symbols, hlegible, hspell, hshows⟩ := h
  exact ⟨symbols, hlegible, hspell, fun fragment hfragment => hshows fragment (hsub hfragment)⟩

theorem Reads.append (hdialect : dialect.Sound) (ha : dialect.Reads a fragments)
    (hb : dialect.Reads b others) (hopens : dialect.Opens b) :
    dialect.Reads (a ++ b) (fragments ++ others) := by
  obtain ⟨front, hfront, hspell, hshows⟩ := ha
  obtain ⟨back, hback, hspell', hshows'⟩ := hb
  refine ⟨front ++ back, hfront.append hdialect hback (by rwa [hspell']), ?_, ?_⟩
  · rw [spell_append, hspell, hspell', String.toList_append]
  · refine List.forall_mem_append.mpr ⟨fun fragment h => ?_, fun fragment h => ?_⟩
    · exact (hshows fragment h).append_right back
    · exact (hshows' fragment h).append_left front

theorem Reads.prepend (hdialect : dialect.Sound) (ha : QuoteFree a)
    (hb : dialect.Reads b fragments) : dialect.Reads (a ++ b) fragments := by
  obtain ⟨back, hback, hspell, hshows⟩ := hb
  refine ⟨a.toList.map .char ++ back,
    hback.chars_append fun c hc => hdialect.quote?_eq_none (ha c hc), ?_, ?_⟩
  · rw [spell_append, spell_chars, hspell, String.toList_append]
  · exact fun fragment h => (hshows fragment h).append_left _

theorem reads_quoteFree (hdialect : dialect.Sound) (h : QuoteFree text) :
    dialect.Reads text [] := by
  have hempty : dialect.Reads "" [] := ⟨[], .nil, rfl, by simp⟩
  simpa using hempty.prepend hdialect h

theorem opens_append (hdialect : dialect.Sound) (ha : QuoteFree a) (hne : a ≠ "") (b : String) :
    dialect.Opens (a ++ b) := by
  intro c hc
  obtain ⟨first, rest, hcons⟩ := List.exists_cons_of_ne_nil (mt String.toList_eq_nil_iff.mp hne)
  rw [String.toList_append, hcons] at hc
  obtain rfl : first = c := by simpa using hc
  exact hdialect.quote?_eq_none (ha first (by simp [hcons]))

theorem opens_empty : dialect.Opens "" := by
  simp [Opens]

theorem Opens.append (ha : dialect.Opens a) (hb : dialect.Opens b) :
    dialect.Opens (a ++ b) := by
  intro c hc
  rw [String.toList_append] at hc
  cases hchars : a.toList with
  | nil => exact hb c (by simpa [hchars] using hc)
  | cons first rest => exact ha c (by simpa [hchars] using hc)

theorem Reads.append_quoteFree (hdialect : dialect.Sound) (ha : dialect.Reads a fragments)
    (hb : QuoteFree b) : dialect.Reads (a ++ b) fragments := by
  have hopens : dialect.Opens b := fun c hc =>
    hdialect.quote?_eq_none (hb c (List.mem_of_head? hc))
  have happend := ha.append hdialect (reads_quoteFree hdialect hb) hopens
  rwa [List.append_nil] at happend

theorem Reads.between (hdialect : dialect.Sound) (ha : dialect.Reads a fragments)
    (separator : String) (hseparator : QuoteFree separator) (hne : separator ≠ "")
    (hb : dialect.Reads b others) :
    dialect.Reads (a ++ separator ++ b) (fragments ++ others) := by
  rw [String.append_assoc]
  exact ha.append hdialect (hb.prepend hdialect hseparator) (opens_append hdialect hseparator hne b)

theorem reads_of_tokens? (h : (dialect.tokens? text).isSome) : dialect.Reads text [] := by
  obtain ⟨tokens, htokens⟩ := Option.isSome_iff_exists.mp h
  obtain ⟨symbols, hsymbols, -⟩ := Option.map_eq_some_iff.mp htokens
  obtain ⟨hlegible, hspell⟩ := legible_of_symbols? hsymbols
  exact ⟨symbols, hlegible, hspell, by simp⟩

theorem Reads.tokens? (hdialect : dialect.Sound) (h : dialect.Reads text fragments) :
    ∃ tokens, dialect.tokens? text = some tokens ∧
      ∀ fragment ∈ fragments, fragment <:+: tokens := by
  obtain ⟨symbols, hlegible, hspell, hshows⟩ := h
  refine ⟨Symbol.tokens symbols, ?_, fun fragment hfragment => (hshows _ hfragment).infix_tokens⟩
  rw [Dialect.tokens?, ← hspell, symbols?_spell hdialect hlegible, Option.map_some]

-- The tokens of a text are found again in parentheses, those between quotes indented.
theorem exists_parenthesized (hdialect : dialect.Sound) {symbols : List Symbol}
    (hspell : dialect.spell symbols = text.toList) :
    ∃ around, (dialect.Legible symbols → dialect.Legible around) ∧
      dialect.spell around = (parenthesized text).toList ∧
      Symbol.tokens around =
        .word ['('] :: (Symbol.tokens symbols).map Token.widened ++ [.word [')']] ∧
      ∀ fragment, fragment <:+: Symbol.tokens symbols →
        Symbol.Shows around (fragment.map Token.widened) := by
  have hfree : ∀ c ∈ ['(', ')', '\n', ' '], dialect.quote? c = none := fun c hc =>
    hdialect.quote?_eq_none ((by decide : QuoteFree "()\n ") c hc)
  by_cases hempty : symbols = []
  · subst hempty
    obtain rfl : text = "" := String.toList_eq_nil_iff.mp hspell.symm
    refine ⟨['(', '\n', '\n', ')'].map .char, fun _ => ?_, rfl, rfl, fun fragment hfragment => ?_⟩
    · have hchars : dialect.Legible (['(', '\n', '\n', ')'].map .char ++ []) :=
        Legible.nil.chars_append (by simp [hfree])
      rwa [List.append_nil] at hchars
    · obtain rfl : fragment = [] := List.infix_nil.mp hfragment
      exact fun before behind => List.nil_infix
  · have hne : text.toList ≠ [] := hspell ▸ mt spell_eq_nil.mp hempty
    refine ⟨['(', '\n', ' ', ' '].map .char ++
      (Symbol.relined symbols ++ [.char '\n', .char ')']), fun hlegible => ?_, ?_, ?_,
      fun fragment hfragment => ?_⟩
    · have hlines := (hdialect.legible_relined hlegible).append hdialect
        (.char (hfree '\n' (by simp)) (.char (hfree ')' (by simp)) .nil)) (by simp [hfree])
      exact hlines.chars_append (by simp [hfree])
    · simp [spell_append, hdialect.spell_relined, hspell, parenthesized, Text.indented_eq, hne]
    · have hinside : Symbol.tokens (Symbol.relined symbols ++ [.char '\n', .char ')']) =
          (Symbol.tokens symbols).map Token.widened ++ [.word [')']] := by
        rw [Symbol.tokens_append_blank rfl, Symbol.tokens_relined]
        rfl
      rw [List.cons_append, ← hinside]
      rfl
    · have hmiddle := Symbol.shows_relined hfragment
      simpa using (hmiddle.append_left [.char '(']).append_right [.char ')']

theorem reads_parenthesized (hdialect : dialect.Sound) {tokens : List Token}
    (htokens : dialect.tokens? text = some tokens)
    (hshown : ∀ fragment ∈ fragments, fragment <:+: tokens) :
    dialect.Reads (parenthesized text) (fragments.map (List.map Token.widened)) := by
  obtain ⟨symbols, hsymbols, rfl⟩ := Option.map_eq_some_iff.mp htokens
  obtain ⟨hlegible, hspell⟩ := legible_of_symbols? hsymbols
  obtain ⟨around, haround, hspell', -, hshows⟩ := exists_parenthesized hdialect hspell
  exact ⟨around, haround hlegible, hspell', List.forall_mem_map.mpr fun fragment hfragment =>
    hshows fragment (hshown fragment hfragment)⟩

end Dialect

end PivotQuery
