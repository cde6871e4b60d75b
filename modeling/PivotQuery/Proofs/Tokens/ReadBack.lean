import PivotQuery.Proofs.Tokens.Rules

namespace PivotQuery

namespace TokenRules

variable {rules : TokenRules} {style : QuoteStyle} {escaped : Char → Option Char}

-- A quote ends its token, unless it is the first of two that stand for one.
private theorem readText_quote (hdistinct : rules.quote ≠ '\\') (rest : List Char) :
    rules.readText escaped (rules.quote :: rest) = some ([], rest) ↔
      (rules.doubled = true → rest.head? ≠ some rules.quote) := by
  cases rest with
  | nil => simp [readText]
  | cons next rest =>
    rw [readText, if_neg (by simp [hdistinct]), if_pos rfl]
    by_cases hpair : next = rules.quote ∧ rules.doubled = true
    · rw [if_pos (by simpa using hpair)]
      simp [hpair.1, hpair.2]
    · rw [if_neg (by simpa using hpair)]
      exact ⟨fun _ hdoubled hnext => hpair ⟨by simpa using hnext, hdoubled⟩, fun _ => rfl⟩

theorem read?_quoteChars (h : rules.Fits style) (text rest : List Char) :
    rules.read? escaped (style.quoteChars text ++ rest) = some (text, rest) ↔
      (rules.doubled = true → rest.head? ≠ some rules.quote) := by
  have hquoted : style.quoteChars text ++ rest =
      rules.quote :: (text.flatMap style.encode ++ rules.quote :: rest) := by
    simp [QuoteStyle.quoteChars, h.quote]
  rw [hquoted, read?, if_pos rfl, readText_flatMap_encode h, ← readText_quote h.distinct]
  cases rules.readText escaped (rules.quote :: rest) with
  | none => simp
  | some token => simp [Prod.ext_iff]

theorem read?_quote (h : rules.Fits style) (text : String) (rest : List Char) :
    rules.read? escaped ((style.quote text).toList ++ rest) = some (text.toList, rest) ↔
      (rules.doubled = true → rest.head? ≠ some rules.quote) := by
  rw [QuoteStyle.quote, String.toList_ofList]
  exact read?_quoteChars h text.toList rest

-- Two texts that are written alike are read alike.
theorem quote_injective (h : rules.Fits style) : Function.Injective style.quote := by
  intro a b hab
  have hread : ∀ text : String, rules.read? (fun _ => none) ((style.quote text).toList ++ []) =
      some (text.toList, []) := fun text => (read?_quote h text []).mpr (by simp)
  have hsame := hread a
  rw [hab, hread b] at hsame
  obtain ⟨htext, -⟩ := Prod.mk.inj (Option.some.inj hsame)
  exact (String.toList_injective htext).symm

end TokenRules

-- A text or a name between quotes is read back as it was, and up to where it ends, unless a
-- quote follows that makes two of the last one. So nothing in it can end its token early, and
-- different texts and names are written differently.
theorem quoted_tokens_read_back {dialect : Dialect} (hdialect : dialect ∈ Dialect.all)
    (escaped : Char → Option Char) :
    (∀ (text : String) (rest : List Char),
      dialect.textRules.read? escaped ((dialect.stringLiteral text).toList ++ rest) =
        some (text.toList, rest) ↔
          (dialect.textRules.doubled = true → rest.head? ≠ some dialect.textRules.quote)) ∧
      (∀ (id : String) (rest : List Char),
        dialect.nameRules.read? escaped ((dialect.quoteIdentifier id).toList ++ rest) =
          some (id.toList, rest) ↔
            (dialect.nameRules.doubled = true → rest.head? ≠ some dialect.nameRules.quote)) ∧
      Function.Injective dialect.stringLiteral ∧ Function.Injective dialect.quoteIdentifier := by
  obtain ⟨htexts, hnames⟩ := Dialect.fits_rules hdialect
  exact ⟨TokenRules.read?_quote htexts, TokenRules.read?_quote hnames,
    TokenRules.quote_injective htexts, TokenRules.quote_injective hnames⟩

-- A text that ends in a backslash does not take the quote behind it into the token.
theorem quoted_tokens_read_back_backslash :
    Dialect.snowflake ∈ Dialect.all ∧
      Dialect.snowflake.textRules.read? (fun _ => none)
        ((Dialect.snowflake.stringLiteral "it's C:\\").toList ++ " OR 1=1".toList) =
          some ("it's C:\\".toList, " OR 1=1".toList) := by
  have hsnowflake : Dialect.snowflake ∈ Dialect.all := by simp [Dialect.all]
  obtain ⟨htexts, -⟩ := quoted_tokens_read_back hsnowflake fun _ => none
  exact ⟨hsnowflake, (htexts _ _).mpr (by decide)⟩

end PivotQuery
