import PivotQuery.Proofs.Tokens.Reline
import PivotQuery.Proofs.Tokens.Symbols

namespace PivotQuery

namespace TokenRules

variable {rules : TokenRules} {style : QuoteStyle} {spelled : List Char}

theorem Fits.encode_plain (h : rules.Fits style) {c : Char} (hquote : c ∉ ['"', '\'', '\x60'])
    (hbackslash : c ≠ '\\') : style.encode c = [c] := by
  have hc := ne_quote h.mark hquote
  rcases h.encode_cases c with ⟨hencode, -⟩ | ⟨-, -, hescaped⟩ | ⟨-, hdoubled, -⟩
  · exact hencode
  · exact absurd hescaped (not_or.mpr ⟨hbackslash, hc⟩)
  · exact absurd hdoubled hc

section Spelled

variable (hmark : rules.quote ∈ ['"', '\'', '\x60'])
include hmark

theorem ne_feed : rules.quote ≠ '\n' := (ne_quote hmark (by decide)).symm

theorem ne_return : rules.quote ≠ '\r' := (ne_quote hmark (by decide)).symm

theorem spells_plain {c : Char} (hquote : c ∉ ['"', '\'', '\x60']) (hbackslash : c ≠ '\\')
    (h : rules.Spells spelled) : rules.Spells (c :: spelled) :=
  .char (fun hescape => hbackslash hescape.1) (ne_quote hmark hquote) h

theorem spells_of_feed (h : rules.Spells ('\n' :: spelled)) : rules.Spells spelled := by
  generalize htext : '\n' :: spelled = text at h
  cases h with
  | nil => simp at htext
  | char _ _ h => exact (List.cons.inj htext).2 ▸ h
  | escape => simp at htext
  | doubled => exact absurd (List.cons.inj htext).1.symm (ne_feed hmark)

-- Between quotes, indentation leaves the escapes as they are.
theorem Spells.widen (h : rules.Spells spelled) : rules.Spells (Text.widen spelled) := by
  have hblanks : ∀ {rest}, rules.Spells rest → rules.Spells (' ' :: ' ' :: rest) := fun h =>
    spells_plain hmark (by decide) (by decide) (spells_plain hmark (by decide) (by decide) h)
  induction h with
  | nil => exact .nil
  | @char c rest hescape hquote h ih =>
    rw [Text.widen]
    split
    · exact spells_plain hmark (by decide) (by decide) (hblanks ih)
    · split
      · exact ih
      · exact .char hescape hquote ih
  | @escape c rest hescape h ih =>
    rw [Text.widen_other (by decide) (by decide), Text.widen]
    split
    · exact .escape hescape (hblanks ih)
    · split
      · -- the line feed behind a carriage return that is lost is what the backslash escapes now
        rename_i hnext
        obtain ⟨behind, rfl⟩ : ∃ behind, rest = '\n' :: behind :=
          List.head?_eq_some_iff.mp (by simp_all)
        rw [Text.widen, if_pos rfl] at ih ⊢
        exact .escape hescape (spells_of_feed hmark ih)
      · exact .escape hescape ih
  | doubled hdoubled h ih =>
    rw [Text.widen_other (ne_feed hmark) (ne_return hmark),
      Text.widen_other (ne_feed hmark) (ne_return hmark)]
    exact .doubled hdoubled ih

end Spelled

section Encoded

variable (h : rules.Fits style)
include h

theorem head?_encode (text : List Char) :
    (text.flatMap style.encode).head? = some '\n' ↔ text.head? = some '\n' := by
  cases text with
  | nil => simp
  | cons c rest =>
    rw [List.flatMap_cons]
    rcases h.encode_cases c with ⟨hc, -⟩ | ⟨hc, -, rfl | rfl⟩ | ⟨hc, rfl, -⟩ <;>
      simp [hc, ne_feed h.mark]

-- It does not matter whether a text is indented before it is put between quotes or there.
theorem widen_encode (text : List Char) :
    Text.widen (text.flatMap style.encode) = (Text.widen text).flatMap style.encode := by
  have hfeed : style.encode '\n' = ['\n'] := h.encode_plain (by decide) (by decide)
  have hreturn : style.encode '\r' = ['\r'] := h.encode_plain (by decide) (by decide)
  have hblank : style.encode ' ' = [' '] := h.encode_plain (by decide) (by decide)
  fun_induction Text.widen text with
  | case1 => rfl
  | case2 rest ih => simp [hfeed, hblank, Text.widen, ih]
  | case3 c rest hc hlost ih =>
    obtain ⟨rfl, hhead⟩ : c = '\r' ∧ rest.head? = some '\n' := by simpa using hlost
    rw [List.flatMap_cons, hreturn, List.singleton_append, Text.widen]
    simp [head?_encode h, hhead, ih]
  | case4 c rest hc hkept ih =>
    rw [List.flatMap_cons, List.flatMap_cons, ← ih]
    rcases h.encode_cases c with ⟨hencode, -⟩ | ⟨hencode, -, rfl | rfl⟩ | ⟨hencode, rfl, -⟩
    · rw [hencode, List.singleton_append, List.singleton_append, Text.widen, if_neg hc, if_neg]
      simpa [head?_encode h] using hkept
    · simp [hencode, Text.widen_other]
    · simp [hencode, Text.widen_other, ne_feed h.mark, ne_return h.mark]
    · simp [hencode, Text.widen_other, ne_feed h.mark, ne_return h.mark]

theorem widen_encode_iterate (depth : Nat) (text : List Char) :
    Text.widen^[depth] (text.flatMap style.encode) =
      (Text.widen^[depth] text).flatMap style.encode := by
  have hstep : Function.Semiconj (List.flatMap style.encode) Text.widen Text.widen := fun text =>
    (widen_encode h text).symm
  exact ((hstep.iterate_right depth) text).symm

end Encoded

end TokenRules

namespace Symbol

-- Symbols of which the spelling is indented.
def relined : List Symbol → List Symbol
  | [] => []
  | .char c :: rest =>
    if c = '\n' then
      if rest.isEmpty then [] else .char '\n' :: .char ' ' :: .char ' ' :: relined rest
    else if c = '\r' && rest.head? = some (.char '\n') then relined rest
    else .char c :: relined rest
  | .quoted quote spelled :: rest => .quoted quote (Text.widen spelled) :: relined rest

end Symbol

namespace Token

def widened : Token → Token
  | .word chars => .word chars
  | .quoted quote spelled => .quoted quote (Text.widen spelled)

theorem widened_iterate_word (depth : Nat) (chars : List Char) :
    widened^[depth] (.word chars) = .word chars :=
  Function.iterate_fixed rfl depth

theorem widened_iterate_quoted (depth : Nat) (quote : Quote) (spelled : List Char) :
    widened^[depth] (.quoted quote spelled) = .quoted quote (Text.widen^[depth] spelled) := by
  induction depth generalizing spelled with
  | zero => rfl
  | succ depth ih => exact ih (Text.widen spelled)

-- Only line feeds between quotes make a difference.
theorem map_widened_iterate_eq_self (depth : Nat) (tokens : List Token) :
    tokens.map widened^[depth] = tokens ↔
      depth = 0 ∨ ∀ quote spelled, .quoted quote spelled ∈ tokens → '\n' ∉ spelled := by
  have hself := List.map_inj_left (f := widened^[depth]) (g := id) (l := tokens)
  rw [List.map_id] at hself
  rw [hself]
  constructor
  · intro h
    by_cases hdepth : depth = 0
    · exact Or.inl hdepth
    · refine Or.inr fun quote spelled hmem => ?_
      have htoken := h _ hmem
      rw [widened_iterate_quoted] at htoken
      have hspelled : Text.widen^[depth] spelled = spelled := by simpa using htoken
      exact ((Text.widen_iterate_eq_self depth spelled).mp hspelled).resolve_left hdepth
  · rintro (rfl | h) token hmem
    · rfl
    · cases token with
      | word chars => exact widened_iterate_word depth chars
      | quoted quote spelled =>
        have hspelled := (Text.widen_iterate_eq_self depth spelled).mpr
          (Or.inr (h quote spelled hmem))
        rw [widened_iterate_quoted, hspelled]
        rfl

end Token

namespace Symbol

theorem map_wordThen (word : List Char) (tokens : List Token) :
    (wordThen word tokens).map Token.widened = wordThen word (tokens.map Token.widened) := by
  unfold wordThen
  split <;> rfl

-- Line feeds and what is put behind them or lost before them only keep words apart.
theorem cut_relined (symbols : List Symbol) :
    cut (relined symbols) = ((cut symbols).1, (cut symbols).2.map Token.widened) := by
  fun_induction relined symbols with
  | case1 => rfl
  | case2 rest hempty =>
    obtain rfl : rest = [] := by simpa using hempty
    rfl
  | case3 rest hrest ih =>
    rw [cut_blank rfl, cut_blank rfl, tokens, cut_blank rfl, tokens, cut_blank rfl, tokens, ih,
      tokens, map_wordThen]
    rfl
  | case4 c rest hc hlost ih =>
    obtain ⟨rfl, hhead⟩ : c = '\r' ∧ rest.head? = some (.char '\n') := by simpa using hlost
    obtain ⟨behind, rfl⟩ := List.head?_eq_some_iff.mp hhead
    rw [ih, cut_blank (c := '\r') rfl, tokens, cut_blank rfl]
    rfl
  | case5 c rest hc hkept ih =>
    simp only [cut, ih]
    split <;> simp [map_wordThen]
  | case6 quote spelled rest ih =>
    rw [cut, cut, ih]
    simp [map_wordThen, Token.widened]

theorem tokens_relined (symbols : List Symbol) :
    tokens (relined symbols) = (tokens symbols).map Token.widened := by
  rw [tokens, cut_relined, tokens, map_wordThen]

end Symbol

namespace Dialect

variable {dialect : Dialect} {symbols : List Symbol}

theorem spell_eq_nil : dialect.spell symbols = [] ↔ symbols = [] := by
  cases symbols with
  | nil => simp
  | cons symbol rest => cases symbol <;> simp

theorem Sound.quote?_eq_none (hdialect : dialect.Sound) {c : Char}
    (hc : c ∉ ['"', '\'', '\x60']) : dialect.quote? c = none := by
  rw [quote?, if_neg (TokenRules.ne_quote hdialect.names.mark hc),
    if_neg (TokenRules.ne_quote hdialect.texts.mark hc)]

theorem Sound.head?_spell (hdialect : dialect.Sound) :
    (dialect.spell symbols).head? = some '\n' ↔ symbols.head? = some (.char '\n') := by
  cases symbols with
  | nil => simp
  | cons symbol rest =>
    cases symbol with
    | char c => simp
    | quoted quote spelled => simp [TokenRules.ne_feed (hdialect.fits quote).mark]

theorem Sound.spell_relined (hdialect : dialect.Sound) (symbols : List Symbol) :
    dialect.spell (Symbol.relined symbols) = Text.reline (dialect.spell symbols) := by
  fun_induction Symbol.relined symbols with
  | case1 => rfl
  | case2 rest hempty =>
    obtain rfl : rest = [] := by simpa using hempty
    rfl
  | case3 rest hrest ih =>
    have hne : dialect.spell rest ≠ [] := fun h => hrest (by simp [spell_eq_nil.mp h])
    simp [Text.reline, ih, hne]
  | case4 c rest hc hlost ih =>
    obtain ⟨rfl, hhead⟩ : c = '\r' ∧ rest.head? = some (.char '\n') := by simpa using hlost
    simp [Text.reline, ih, hdialect.head?_spell.mpr hhead]
  | case5 c rest hc hkept ih =>
    rw [spell_char, spell_char, Text.reline, if_neg hc, if_neg, ih]
    simpa [hdialect.head?_spell] using hkept
  | case6 quote spelled rest ih =>
    have hfeed := TokenRules.ne_feed (hdialect.fits quote).mark
    have hreturn := TokenRules.ne_return (hdialect.fits quote).mark
    have hbefore := Text.reline_append hfeed hreturn []
      (spelled ++ (dialect.rules quote).quote :: dialect.spell rest)
    rw [spell_quoted, spell_quoted, ih, ← Text.reline_append hfeed hreturn]
    exact hbefore.symm

theorem Sound.legible_relined (hdialect : dialect.Sound) (h : dialect.Legible symbols) :
    dialect.Legible (Symbol.relined symbols) := by
  have hfeed : dialect.quote? '\n' = none := hdialect.quote?_eq_none (by decide)
  have hblank : dialect.quote? ' ' = none := hdialect.quote?_eq_none (by decide)
  induction h with
  | nil => exact .nil
  | @char c rest hc h ih =>
    rw [Symbol.relined]
    split
    · split
      · exact .nil
      · exact .char hfeed (.char hblank (.char hblank ih))
    · split
      · exact ih
      · exact .char hc ih
  | @quoted quote spelled rest hspells hends h ih =>
    have hmark := (hdialect.fits quote).mark
    refine .quoted (hspells.widen hmark) (fun hdoubled hhead => ?_) ih
    rw [hdialect.spell_relined] at hhead
    exact hends hdoubled (Text.head?_reline (TokenRules.ne_feed hmark) hhead)

end Dialect

end PivotQuery
