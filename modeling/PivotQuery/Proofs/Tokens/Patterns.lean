import PivotQuery.Proofs.Tokens.Printed
import Mathlib.Data.List.Infix

namespace PivotQuery

namespace Like

-- What a pattern of LIKE asks for: any characters, one character, or a certain one.
inductive Part
  | any
  | one
  | char (c : Char)
deriving DecidableEq, Repr

def Part.ofChar (c : Char) : Part :=
  if c = '%' then .any else if c = '_' then .one else .char c

-- A character behind a backslash stands for itself, and there has to be one.
def parts? : List Char → Option (List Part)
  | [] => some []
  | [c] => if c = '\\' then none else some [.ofChar c]
  | c :: next :: rest =>
    if c = '\\' then (parts? rest).map (.char next :: ·)
    else (parts? (next :: rest)).map (.ofChar c :: ·)

-- The matcher tries all that a percent sign can stand for, the longest rest first.
def fits : List Part → List Char → Bool
  | [], text => text.isEmpty
  | .any :: parts, text => text.tails.any (fits parts)
  | .one :: parts, text => match text with
    | [] => false
    | _ :: rest => fits parts rest
  | .char c :: parts, text => match text with
    | [] => false
    | other :: rest => c == other && fits parts rest

def likes (pattern text : List Char) : Bool :=
  match parts? pattern with
  | some parts => fits parts text
  | none => false

theorem parts?_cons {c : Char} (hc : c ≠ '\\') (pattern : List Char) :
    parts? (c :: pattern) = (parts? pattern).map (.ofChar c :: ·) := by
  cases pattern with
  | nil => simp [parts?, hc]
  | cons next rest => simp [parts?, hc]

-- Escaped characters stand for themselves.
theorem parts?_escapeWildcards (text pattern : List Char) :
    parts? (escapeWildcards text ++ pattern) = (parts? pattern).map (text.map .char ++ ·) := by
  induction text with
  | nil => simp [escapeWildcards]
  | cons c rest ih =>
    have hcons : escapeWildcards (c :: rest) =
        (if c = '%' || c = '_' || c = '\\' then ['\\', c] else [c]) ++ escapeWildcards rest :=
      List.flatMap_cons
    rw [hcons, List.append_assoc]
    split
    · rw [List.cons_append, List.singleton_append, parts?, if_pos rfl, ih, Option.map_map]
      rfl
    · rename_i hplain
      obtain ⟨⟨hany, hone⟩, hescape⟩ : (c ≠ '%' ∧ c ≠ '_') ∧ c ≠ '\\' := by simpa using hplain
      have hchar : Part.ofChar c = .char c := by simp [Part.ofChar, hany, hone]
      rw [List.singleton_append, parts?_cons hescape, ih, hchar, Option.map_map]
      rfl

variable {parts : List Part} {text : List Char}

private theorem fits_nil : fits [] text = true ↔ text = [] := List.isEmpty_iff

private theorem fits_any :
    fits (.any :: parts) text = true ↔ ∃ rest, rest <:+ text ∧ fits parts rest := by
  simp [fits, List.mem_tails]

private theorem fits_only_any (text : List Char) : fits [.any] text = true :=
  fits_any.mpr ⟨[], List.nil_suffix, rfl⟩

private theorem fits_chars (chars : List Char) :
    fits (chars.map .char ++ parts) text = true ↔
      ∃ rest, chars ++ rest = text ∧ fits parts rest := by
  induction chars generalizing text with
  | nil => simp
  | cons c chars ih =>
    cases text with
    | nil => simp [fits]
    | cons other text => simp [fits, ih, and_assoc]

private theorem fits_prefix {whole : List Char} :
    fits (text.map .char ++ [.any]) whole = true ↔ text <+: whole := by
  simp only [fits_chars, fits_only_any, and_true]
  exact Iff.rfl

private theorem fits_whole {whole : List Char} :
    fits (text.map .char) whole = true ↔ text = whole := by
  have hchars : fits (text.map .char ++ []) whole = true ↔
      ∃ rest, text ++ rest = whole ∧ fits [] rest := fits_chars text
  simpa [fits_nil] using hchars

end Like

namespace TextPlace

-- Whether a text occurs at a place of another.
def Occurs (text whole : List Char) : TextPlace → Prop
  | .start => text <+: whole
  | .finish => text <:+ whole
  | .anywhere => text <:+: whole

-- The pattern in which a constant text is written.
def pattern (place : TextPlace) (text : List Char) : List Char :=
  (Dialect.wildcards place).1.toList ++ escapeWildcards text ++ (Dialect.wildcards place).2.toList

open Like

theorem likes_pattern (place : TextPlace) (text whole : List Char) :
    likes (place.pattern text) whole = true ↔ place.Occurs text whole := by
  have hopens : ∀ pattern, parts? ('%' :: pattern) = (parts? pattern).map (.any :: ·) :=
    parts?_cons (by decide)
  have hexact : parts? (escapeWildcards text) = some (text.map .char) := by
    simpa [parts?] using parts?_escapeWildcards text []
  have hprefix : parts? (escapeWildcards text ++ ['%']) = some (text.map .char ++ [.any]) := by
    rw [parts?_escapeWildcards]
    rfl
  cases place with
  | start =>
    have hpattern : parts? (pattern .start text) = some (text.map .char ++ [.any]) := hprefix
    rw [likes, hpattern]
    exact fits_prefix
  | finish =>
    have hpattern : parts? (pattern .finish text) = some (.any :: text.map .char) := by
      simp [pattern, Dialect.wildcards, hopens, hexact]
    rw [likes, hpattern]
    simp [fits_any, fits_whole, Occurs]
  | anywhere =>
    have hpattern : parts? (pattern .anywhere text) =
        some (.any :: (text.map .char ++ [.any])) := by
      simp [pattern, Dialect.wildcards, hopens, hprefix]
    rw [likes, hpattern]
    simp only [fits_any, fits_prefix, Occurs, List.infix_iff_prefix_suffix, and_comm]

end TextPlace

namespace Dialect

variable {dialect : Dialect}

-- One engine takes the backslash for the escape character of LIKE without being told.
def impliesEscape (dialect : Dialect) : Bool := dialect.name == "bigquery"

theorem likeEscape_eq (hdialect : dialect ∈ all) : dialect.likeEscape =
    if dialect.impliesEscape then "" else " ESCAPE " ++ dialect.stringLiteral "\\" := by
  revert dialect
  decide

-- The clause that names the escape character, where one is needed, names the backslash.
theorem symbols_likeEscape (hdialect : dialect ∈ all) :
    ∃ escape, dialect.Legible escape ∧ dialect.spell escape = dialect.likeEscape.toList ∧
      if dialect.impliesEscape then Symbol.tokens escape = []
      else ∃ spelled, Symbol.tokens escape = [.word "ESCAPE".toList, .quoted .text spelled] ∧
        ∀ escaped, dialect.textRules.meaning? escaped spelled = some ['\\'] := by
  have hsound := (writable_of_mem_all hdialect).sound
  rw [likeEscape_eq hdialect]
  split
  · exact ⟨[], .nil, rfl, rfl⟩
  · have hplain : ∀ c ∈ " ESCAPE ".toList, dialect.quote? c = none := fun c hc =>
      hsound.quote?_eq_none ((by decide : QuoteFree " ESCAPE ") c hc)
    refine ⟨_, (legible_quote hsound .text "\\".toList).chars_append hplain, ?_, ?_⟩
    · rw [spell_append, spell_chars, spell_quote hsound, String.toList_append]
      rfl
    · refine ⟨_, ?_, fun escaped => TokenRules.meaning?_encode hsound.texts _⟩
      rw [Symbol.tokens_append_quoted]
      rfl

theorem tokens?_matchText (hdialect : dialect.Writable) (lhs : ValueExpr) (place : TextPlace)
    (text : String) {symbols escape : List Symbol} (hsymbols : dialect.Legible symbols)
    (hspell : dialect.spell symbols = (dialect.valueText lhs).toList)
    (hescape : dialect.Legible escape)
    (hspell' : dialect.spell escape = dialect.likeEscape.toList) (negated : Bool) :
    dialect.tokens? (dialect.relationText
        (.binary (.matchText place negated) lhs (.constant (.text text)))) =
      some (Symbol.tokens symbols ++ (if negated then [.word "NOT".toList] else []) ++
        .word "LIKE".toList ::
          .quoted .text ((place.pattern text.toList).flatMap dialect.texts.encode) ::
            Symbol.tokens escape) := by
  obtain ⟨keyword, hkeyword, htokens⟩ : ∃ keyword,
      (if negated then " NOT LIKE " else " LIKE ").toList = ' ' :: keyword ∧
        Symbol.tokens (keyword.map .char) =
          (if negated then [.word "NOT".toList] else []) ++ [.word "LIKE".toList] := by
    cases negated
    · exact ⟨"LIKE ".toList, rfl, rfl⟩
    · exact ⟨"NOT LIKE ".toList, rfl, rfl⟩
  have hplain : ∀ c ∈ ' ' :: keyword, dialect.quote? c = none := by
    have hfree : QuoteFree (if negated then " NOT LIKE " else " LIKE ") := by
      cases negated <;> decide
    rw [← hkeyword]
    exact fun c hc => hdialect.sound.quote?_eq_none (hfree c hc)
  have hopens : ∀ c ∈ (dialect.spell escape).head?, dialect.quote? c = none := by
    rw [hspell']
    exact (reads_likeEscape hdialect).2
  have hliteral : dialect.Legible
      (.quoted .text ((place.pattern text.toList).flatMap dialect.texts.encode) :: escape) :=
    (legible_quote hdialect.sound .text _).append hdialect.sound hescape hopens
  have hwhole := hsymbols.append hdialect.sound (hliteral.chars_append hplain) (by
    simp [hplain])
  have hrelation : dialect.spell (symbols ++ ((' ' :: keyword).map .char ++
      .quoted .text ((place.pattern text.toList).flatMap dialect.texts.encode) :: escape)) =
        (dialect.relationText (.binary (.matchText place negated) lhs
          (.constant (.text text)))).toList := by
    simp only [spell_append, spell_chars, spell_quoted, hspell, hspell', relationText, patternText,
      String.toList_append, hkeyword]
    simp [stringLiteral, QuoteStyle.quote, QuoteStyle.quoteChars, hdialect.sound.texts.quote, rules,
      TextPlace.pattern]
  rw [tokens?, ← hrelation, symbols?_spell hdialect.sound hwhole, Option.map_some,
    List.map_cons, List.cons_append, Symbol.tokens_append_blank rfl, Symbol.tokens_append_quoted,
    htokens]
  simp

end Dialect

-- A constant text is matched with a literal that the engine reads as a pattern for the texts with
-- the constant at the place, and them alone.
theorem like_patterns_match_literally {dialect : Dialect} (hdialect : dialect ∈ Dialect.all)
    (lhs : ValueExpr) (place : TextPlace) (text : String) :
    ∃ value spelled pattern escape,
      dialect.tokens? (dialect.valueText lhs) = some value ∧
      (∀ negated, dialect.tokens? (dialect.relationText
          (.binary (.matchText place negated) lhs (.constant (.text text)))) =
        some (value ++ (if negated then [.word "NOT".toList] else []) ++
          .word "LIKE".toList :: .quoted .text spelled :: escape)) ∧
      (∀ escaped, dialect.textRules.meaning? escaped spelled = some pattern) ∧
      (∀ whole, Like.likes pattern whole = true ↔ place.Occurs text.toList whole) ∧
      if dialect.impliesEscape then escape = []
      else ∃ spelled, escape = [.word "ESCAPE".toList, .quoted .text spelled] ∧
        ∀ escaped, dialect.textRules.meaning? escaped spelled = some ['\\'] := by
  have hwritable := Dialect.writable_of_mem_all hdialect
  obtain ⟨symbols, hsymbols, hspell, -⟩ := Dialect.reads_valueText hwritable lhs
  obtain ⟨escape, hescape, hspell', hclause⟩ := Dialect.symbols_likeEscape hdialect
  refine ⟨Symbol.tokens symbols, _, _, Symbol.tokens escape, ?_,
    Dialect.tokens?_matchText hwritable lhs place text hsymbols hspell hescape hspell',
    fun escaped => TokenRules.meaning?_encode hwritable.sound.texts _,
    place.likes_pattern text.toList, hclause⟩
  rw [Dialect.tokens?, ← hspell, Dialect.symbols?_spell hwritable.sound hsymbols]
  rfl

-- Whether a note does not end in "100%": a quoted percent sign is no wildcard.
theorem like_patterns_match_literally_percent :
    Dialect.snowflake ∈ Dialect.all ∧ ∃ value spelled pattern escape,
      Dialect.snowflake.tokens? (Dialect.snowflake.relationText
          (.binary (.matchText .finish true) (.column "note") (.constant (.text "100%")))) =
        some (value ++ [.word "NOT".toList] ++ .word "LIKE".toList :: .quoted .text spelled ::
          escape) ∧
      (∀ escaped, Dialect.snowflake.textRules.meaning? escaped spelled = some pattern) ∧
      Like.likes pattern "up 100%".toList = true ∧ Like.likes pattern "100% up".toList = false := by
  have hsnowflake : Dialect.snowflake ∈ Dialect.all := by simp [Dialect.all]
  obtain ⟨value, spelled, pattern, escape, -, hrelation, hpattern, hlikes, -⟩ :=
    like_patterns_match_literally hsnowflake (.column "note") .finish "100%"
  refine ⟨hsnowflake, value, spelled, pattern, escape, hrelation true, hpattern, ?_, ?_⟩
  · exact (hlikes _).mpr ⟨"up ".toList, rfl⟩
  · have hends : ¬"100%".toList <:+ "100% up".toList := by decide
    exact Bool.eq_false_iff.mpr (mt (hlikes _).mp hends)

end PivotQuery
