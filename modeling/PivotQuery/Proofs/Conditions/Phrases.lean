import PivotQuery.Proofs.Conditions.Reading
import PivotQuery.Proofs.Tokens.Printed

namespace PivotQuery

open Piece (Scans Phrase)

-- A text that is read as one word.
structure IsWord (text : String) : Prop where
  ne_empty : text ≠ ""
  quoteFree : QuoteFree text
  chars : text.toList.all Piece.isWordChar = true

-- A word that is no connective.
structure IsTerm (text : String) : Prop extends IsWord text where
  unreserved : ∀ op ∈ BoolOp.all, (Piece.word text.toList).isKeyword op = false

instance (text : String) : Decidable (IsWord text) :=
  decidable_of_iff (text ≠ "" ∧ QuoteFree text ∧ text.toList.all Piece.isWordChar = true)
    ⟨fun h => ⟨h.1, h.2.1, h.2.2⟩, fun h => ⟨h.ne_empty, h.quoteFree, h.chars⟩⟩

instance (text : String) : Decidable (IsTerm text) :=
  decidable_of_iff
    (IsWord text ∧ ∀ op ∈ BoolOp.all, (Piece.word text.toList).isKeyword op = false)
    ⟨fun h => ⟨h.1, h.2⟩, fun h => ⟨h.toIsWord, h.unreserved⟩⟩

theorem IsTerm.not_keyword {text : String} (h : IsTerm text) (op : BoolOp) :
    (Piece.word text.toList).isKeyword op = false :=
  h.unreserved op (by cases op <;> decide)

-- No character of a number is the last one of a connective.
theorem IsNumeral.isTerm {text : String} (h : IsNumeral text) : IsTerm text := by
  have hchars : numerals.all Piece.isWordChar = true := by decide
  have hletters : numerals.all (fun c => c.toUpper ∉ ['D', 'R']) = true := by decide
  have hlast : ∀ op : BoolOp, ∃ c ∈ ['D', 'R'], c ∈ op.name.toList := by
    rintro (_ | _)
    · exact ⟨'D', by decide, by decide⟩
    · exact ⟨'R', by decide, by decide⟩
  have hword : text.toList.all Piece.isWordChar = true :=
    List.all_eq_true.mpr fun c hc => List.all_eq_true.mp hchars c (h.numeric c hc)
  refine ⟨⟨h.ne_empty, h.numeric.quoteFree, hword⟩, fun op _ => beq_eq_false_iff_ne.mpr ?_⟩
  intro heq
  obtain ⟨c, hc, hname⟩ := hlast op
  rw [← heq] at hname
  obtain ⟨digit, hdigit, rfl⟩ := List.mem_map.mp hname
  exact of_decide_eq_true (List.all_eq_true.mp hletters digit (h.numeric digit hdigit)) hc

namespace Dialect

variable {dialect : Dialect}

-- A text that is read in these pieces.
def ReadAs (dialect : Dialect) (text : String) (pieces : List Piece) : Prop :=
  ∃ symbols, dialect.Legible symbols ∧ dialect.spell symbols = text.toList ∧ Scans symbols pieces

variable {a b text word : String} {pieces others : List Piece}

section Sound

variable (hdialect : dialect.Sound)
include hdialect

theorem ReadAs.prepend_word (hword : IsWord word) (h : dialect.ReadAs text pieces)
    (hends : Piece.startsWord pieces = false) :
    dialect.ReadAs (word ++ text) (.word word.toList :: pieces) := by
  obtain ⟨symbols, hlegible, hspell, hscans⟩ := h
  refine ⟨word.toList.map .char ++ symbols,
    hlegible.chars_append fun c hc => hdialect.quote?_eq_none (hword.quoteFree c hc), ?_,
    .word (mt String.toList_eq_nil_iff.mp hword.ne_empty) (List.all_eq_true.mp hword.chars) hends
      hscans⟩
  rw [spell_append, spell_chars, hspell, String.toList_append]

theorem readAs_word (hword : IsWord word) : dialect.ReadAs word [.word word.toList] := by
  have hempty : dialect.ReadAs "" [] := ⟨[], .nil, rfl, .nil⟩
  simpa using hempty.prepend_word hdialect hword rfl

theorem readAs_quote (quote : Quote) (text : String) :
    dialect.ReadAs ((dialect.style quote).quote text)
      [.quoted quote (text.toList.flatMap (dialect.style quote).encode)] :=
  ⟨_, legible_quote hdialect quote text.toList, spell_quote hdialect quote text, .quoted .nil⟩

theorem ReadAs.blank_between (ha : dialect.ReadAs a pieces) (hb : dialect.ReadAs b others) :
    dialect.ReadAs (a ++ " " ++ b) (pieces ++ .blank ' ' :: others) := by
  obtain ⟨front, hfront, hspell, hscans⟩ := ha
  obtain ⟨back, hback, hspell', hscans'⟩ := hb
  have hblank : dialect.quote? ' ' = none := hdialect.quote?_eq_none (by decide)
  refine ⟨front ++ .char ' ' :: back, hfront.append hdialect (.char hblank hback) ?_, ?_,
    hscans.append (.blank rfl hscans') rfl⟩
  · simpa using hblank
  · simp [spell_append, hspell, hspell']

theorem ReadAs.parenthesized (h : dialect.ReadAs text pieces) :
    ∃ inside, dialect.ReadAs ("(" ++ text ++ ")") [.group inside (.ofPieces pieces)] := by
  obtain ⟨symbols, hlegible, hspell, hscans⟩ := h
  have hopen : dialect.quote? '(' = none := hdialect.quote?_eq_none (by decide)
  have hclose : dialect.quote? ')' = none := hdialect.quote?_eq_none (by decide)
  refine ⟨symbols, .char '(' :: (symbols ++ [.char ')']),
    .char hopen (hlegible.append hdialect (.char hclose .nil) ?_), ?_, .group hscans .nil⟩
  · simpa using hclose
  · simp [spell_append, hspell]

theorem readAs_intercalate (hword : IsWord word) {texts : List String} {parts : List (List Piece)}
    (h : List.Forall₂ dialect.ReadAs texts parts) (hne : texts ≠ []) :
    dialect.ReadAs ((" " ++ word ++ " ").intercalate texts) (Piece.joined word.toList parts) := by
  induction h with
  | nil => exact absurd rfl hne
  | @cons text part texts parts hpart hrest ih =>
    cases hrest with
    | nil => simpa [Piece.joined] using hpart
    | cons =>
      have hboth := (hpart.blank_between hdialect (readAs_word hdialect hword)).blank_between
        hdialect (ih (by simp))
      rw [String.intercalate_cons_cons]
      simpa [Piece.joined, String.append_assoc] using hboth

end Sound

-- A text that keeps together between two connectives.
def Phrased (dialect : Dialect) (text : String) : Prop :=
  ∃ pieces, dialect.ReadAs text pieces ∧ Phrase pieces

section Phrased

variable (hdialect : dialect.Sound)
include hdialect

theorem phrased_word (hword : IsTerm word) : dialect.Phrased word :=
  ⟨_, readAs_word hdialect hword.toIsWord, Piece.phrase_singleton rfl hword.not_keyword⟩

theorem phrased_quote (quote : Quote) (text : String) :
    dialect.Phrased ((dialect.style quote).quote text) :=
  ⟨_, readAs_quote hdialect quote text, Piece.phrase_singleton rfl fun _ => rfl⟩

theorem Phrased.blank_between (ha : dialect.Phrased a) (hb : dialect.Phrased b) :
    dialect.Phrased (a ++ " " ++ b) := by
  obtain ⟨pieces, hpieces, hphrase⟩ := ha
  obtain ⟨others, hothers, hphrase'⟩ := hb
  exact ⟨_, hpieces.blank_between hdialect hothers, hphrase.blank_between hphrase'⟩

theorem Phrased.word_between (ha : dialect.Phrased a) (hword : IsTerm word)
    (hb : dialect.Phrased b) : dialect.Phrased (a ++ " " ++ word ++ " " ++ b) :=
  (ha.blank_between hdialect (phrased_word hdialect hword)).blank_between hdialect hb

theorem phrased_intercalate (hword : IsTerm word) {texts : List String}
    (h : ∀ text ∈ texts, dialect.Phrased text) (hne : texts ≠ []) :
    dialect.Phrased ((" " ++ word ++ " ").intercalate texts) := by
  induction texts with
  | nil => exact absurd rfl hne
  | cons text rest ih =>
    obtain ⟨htext, hrest⟩ := List.forall_mem_cons.mp h
    cases rest with
    | nil => simpa using htext
    | cons =>
      rw [String.intercalate_cons_cons]
      simpa [String.append_assoc] using htext.word_between hdialect hword (ih hrest (by simp))

theorem Phrased.call (hword : IsTerm word) (h : dialect.Phrased text) :
    dialect.Phrased (word ++ ("(" ++ text ++ ")")) := by
  obtain ⟨pieces, hpieces, -⟩ := h
  obtain ⟨inside, hgroup⟩ := hpieces.parenthesized hdialect
  refine ⟨_, hgroup.prepend_word hdialect hword.toIsWord rfl,
    ⟨_, _, rfl, rfl⟩, ⟨[.word word.toList], _, rfl, rfl⟩, ?_⟩
  simp only [List.forall_mem_cons, List.not_mem_nil, false_implies, implies_true, and_true]
  exact ⟨hword.not_keyword, fun _ => rfl⟩

end Phrased

section Engines

variable (hdialect : dialect ∈ all)
include hdialect

private theorem isTerm_of_mem_all : (∀ value, IsTerm (dialect.boolLiteral value)) ∧
    IsTerm (dialect.typeName .string) := by
  have hterms : ∀ dialect ∈ all, (∀ value, IsTerm (dialect.boolLiteral value)) ∧
      IsTerm (dialect.typeName .string) := by decide
  exact hterms dialect hdialect

private theorem phrased_literal (value : Scalar) : dialect.Phrased (dialect.literal value) := by
  have hsound := (writable_of_mem_all hdialect).sound
  cases value with
  | null => exact phrased_word hsound (by decide : IsTerm "NULL")
  | bool value => exact phrased_word hsound ((isTerm_of_mem_all hdialect).1 value)
  | int value => exact phrased_word hsound (isNumeral_int value.toInt).isTerm
  | real value =>
    exact phrased_word hsound (Decimal.Layout.isNumeral_render (by decide) value).isTerm
  | text text => exact phrased_quote hsound .text text

theorem phrased_valueText (exp : ValueExpr) : dialect.Phrased (dialect.valueText exp) := by
  have hsound := (writable_of_mem_all hdialect).sound
  induction exp with
  | column id => exact phrased_quote hsound .name id
  | constant value => exact phrased_literal hdialect value
  | asString operand ih =>
    have htype := phrased_word hsound (isTerm_of_mem_all hdialect).2
    have hcast : dialect.valueText (.asString operand) = "CAST" ++ ("(" ++
        (dialect.valueText operand ++ " " ++ "AS" ++ " " ++ dialect.typeName .string) ++ ")") := by
      refine String.toList_inj.mp ?_
      simp [valueText, Dialect.cast]
    rw [hcast]
    exact (ih.word_between hsound (by decide) htype).call hsound (by decide)

-- Wildcards and a value that the engine puts together are a phrase as a whole.
theorem phrased_patternText (place : TextPlace) (operand : ValueExpr) :
    dialect.Phrased (dialect.patternText place operand) := by
  have hsound := (writable_of_mem_all hdialect).sound
  have hvalue := phrased_valueText hdialect operand
  have hwildcard : ∀ text : String,
      ∀ part ∈ if text.isEmpty then [] else [dialect.stringLiteral text], dialect.Phrased part := by
    intro text
    split
    · simp
    · exact List.forall_mem_singleton.mpr (phrased_quote hsound .text text)
  have hseparator : " || " = " " ++ "||" ++ " " := by decide
  unfold patternText
  obtain ⟨before, behind⟩ := wildcards place
  dsimp only
  split
  · exact phrased_quote hsound .text _
  · rw [hseparator]
    refine phrased_intercalate hsound (by decide) ?_ (by simp)
    simp only [List.forall_mem_append, List.forall_mem_singleton]
    exact ⟨⟨hwildcard before, hvalue⟩, hwildcard behind⟩

private theorem phrased_escaped (h : dialect.Phrased text) :
    dialect.Phrased (text ++ dialect.likeEscape) := by
  have hwritable := writable_of_mem_all hdialect
  rcases hwritable.likeEscape with hescape | hescape
  · rwa [hescape, String.append_empty]
  · have hclause : text ++ dialect.likeEscape =
        text ++ " " ++ "ESCAPE" ++ " " ++ dialect.stringLiteral "\\" := by
      rw [hescape]
      refine String.toList_inj.mp ?_
      simp
    rw [hclause]
    exact h.word_between hwritable.sound (by decide) (phrased_quote hwritable.sound .text "\\")

-- A relation has a blank outside quotes and parentheses.
theorem relationText_eq (exp : RelExp) : ∃ a b, dialect.relationText exp = a ++ " " ++ b ∧
    dialect.Phrased a ∧ dialect.Phrased b := by
  have hsound := (writable_of_mem_all hdialect).sound
  cases exp with
  | binary op lhs rhs =>
    have hlhs := phrased_valueText hdialect lhs
    have hrhs := phrased_valueText hdialect rhs
    cases op with
    | compare comparison =>
      have hword : IsTerm (comparisonText comparison) := by cases comparison <;> decide
      exact ⟨_, _, rfl, hlhs.blank_between hsound (phrased_word hsound hword), hrhs⟩
    | matchText place negated =>
      have hpattern := phrased_escaped hdialect (phrased_patternText hdialect place rhs)
      have hlike : IsTerm "LIKE" := by decide
      have hnot : IsTerm "NOT" := by decide
      cases negated with
      | false =>
        refine ⟨_, _, ?_, hlhs.blank_between hsound (phrased_word hsound hlike), hpattern⟩
        refine String.toList_inj.mp ?_
        simp [relationText]
      | true =>
        refine ⟨_, _, ?_, hlhs.word_between hsound hnot (phrased_word hsound hlike), hpattern⟩
        refine String.toList_inj.mp ?_
        simp [relationText]
  | unary test operand =>
    have hoperand := phrased_valueText hdialect operand
    have hnull : IsTerm "NULL" := by decide
    have his : IsTerm "IS" := by decide
    have hnot : IsTerm "NOT" := by decide
    cases test with
    | isNull =>
      refine ⟨_, _, ?_, hoperand.blank_between hsound (phrased_word hsound his),
        phrased_word hsound hnull⟩
      refine String.toList_inj.mp ?_
      simp [relationText]
    | isNotNull =>
      refine ⟨_, _, ?_, hoperand.word_between hsound his (phrased_word hsound hnot),
        phrased_word hsound hnull⟩
      refine String.toList_inj.mp ?_
      simp [relationText]

end Engines

end Dialect

end PivotQuery
