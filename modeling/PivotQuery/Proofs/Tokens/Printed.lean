import PivotQuery.Proofs.Tokens.Written
import Mathlib.Data.List.Forall2

namespace PivotQuery.Dialect

open Sql

variable {dialect : Dialect}

-- What an engine's SQL must keep to for its tokens to be found again.
structure Writable (dialect : Dialect) : Prop where
  sound : dialect.Sound
  booleans : ∀ value, QuoteFree (dialect.boolLiteral value)
  string : QuoteFree (dialect.typeName .string)
  equality : QuoteFree dialect.nullSafeOperator
  offset : QuoteFree dialect.offsetOnly
  likeEscape : dialect.likeEscape = "" ∨
    dialect.likeEscape = " ESCAPE " ++ dialect.stringLiteral "\\"

theorem writable_of_mem_all (h : dialect ∈ all) : dialect.Writable := by
  have hquotes : ∀ dialect ∈ all, dialect.nameRules.quote ≠ dialect.textRules.quote := by decide
  have hwords : ∀ dialect ∈ all, (∀ value, QuoteFree (dialect.boolLiteral value)) ∧
      QuoteFree (dialect.typeName .string) ∧ QuoteFree dialect.nullSafeOperator ∧
        QuoteFree dialect.offsetOnly := by decide
  have hescape : ∀ dialect ∈ all, dialect.likeEscape = "" ∨
      dialect.likeEscape = " ESCAPE " ++ dialect.stringLiteral "\\" := by decide
  obtain ⟨htexts, hnames⟩ := fits_rules h
  obtain ⟨hbooleans, hstring, hequality, hoffset⟩ := hwords dialect h
  exact ⟨⟨hnames, htexts, hquotes dialect h⟩, hbooleans, hstring, hequality, hoffset,
    hescape dialect h⟩

section Sound

variable (hdialect : dialect.Sound)
include hdialect

theorem legible_quote (quote : Quote) (text : List Char) :
    dialect.Legible [.quoted quote (text.flatMap (dialect.style quote).encode)] :=
  .quoted (TokenRules.spells_encode (hdialect.fits quote) text) (by simp) .nil

theorem spell_quote (quote : Quote) (text : String) :
    dialect.spell [.quoted quote (text.toList.flatMap (dialect.style quote).encode)] =
      ((dialect.style quote).quote text).toList := by
  simp [QuoteStyle.quote, QuoteStyle.quoteChars, (hdialect.fits quote).quote]

theorem reads_quote (quote : Quote) (text : String) :
    dialect.Reads ((dialect.style quote).quote text)
      [[.quoted quote (text.toList.flatMap (dialect.style quote).encode)]] :=
  ⟨_, legible_quote hdialect quote text.toList, spell_quote hdialect quote text,
    List.forall_mem_singleton.mpr (Symbol.shows_quoted quote _)⟩

theorem reads_stringLiteral (text : String) :
    dialect.Reads (dialect.stringLiteral text) (dialect.literals [text.toList]) :=
  reads_quote hdialect .text text

theorem reads_quoteIdentifier (id : String) : dialect.Reads (dialect.quoteIdentifier id) [] :=
  (reads_quote hdialect .name id).mono (List.nil_subset _)

variable (separator : String) (hseparator : QuoteFree separator) (hne : separator ≠ "")
include hseparator hne

theorem reads_intercalate {parts : List String} {fragments : List (List (List Token))}
    (h : List.Forall₂ dialect.Reads parts fragments) :
    dialect.Reads (separator.intercalate parts) fragments.flatten := by
  induction h with
  | nil => exact reads_quoteFree hdialect (by decide : QuoteFree "")
  | @cons part shown rest others hpart hrest ih =>
    cases hrest with
    | nil => simpa using hpart
    | cons =>
      rw [String.intercalate_cons_cons]
      exact hpart.between hdialect separator hseparator hne ih

theorem reads_intercalate_map {α : Type} (parts : List α) {text : α → String}
    {fragments : α → List (List Token)}
    (h : ∀ part ∈ parts, dialect.Reads (text part) (fragments part)) :
    dialect.Reads (separator.intercalate (parts.map text)) (parts.flatMap fragments) := by
  rw [List.flatMap_def]
  refine reads_intercalate hdialect separator hseparator hne ?_
  rw [List.forall₂_map_left_iff, List.forall₂_map_right_iff, List.forall₂_same]
  exact h

theorem reads_separated {α : Type} (parts : List α) {text : α → String}
    (h : ∀ part ∈ parts, dialect.Reads (text part) []) :
    dialect.Reads (separator.intercalate (parts.map text)) [] :=
  (reads_intercalate_map hdialect separator hseparator hne parts h).mono (List.nil_subset _)

end Sound

-- What stands before the name of an item. A missing value is written with the type of its column.
def itemExpText (dialect : Dialect) (scope : Scope) (item : Item) : String :=
  match item.exp with
  | .value (.constant .null) => dialect.nullCast item.type
  | exp => dialect.expText scope exp

section Writable

variable (hdialect : dialect.Writable)
include hdialect

theorem reads_literal (value : Scalar) :
    dialect.Reads (dialect.literal value) (dialect.literals (ValueExpr.constant value).texts) := by
  cases value with
  | null => exact reads_quoteFree hdialect.sound (by decide : QuoteFree "NULL")
  | bool value => exact reads_quoteFree hdialect.sound (hdialect.booleans value)
  | int value => exact reads_quoteFree hdialect.sound (isNumeral_int value.toInt).numeric.quoteFree
  | real value =>
    exact reads_quoteFree hdialect.sound
      (Decimal.Layout.isNumeral_render (by decide) value).numeric.quoteFree
  | text text => exact reads_stringLiteral hdialect.sound text

theorem reads_cast {operand : String} {fragments : List (List Token)} {type : ColumnType}
    (hoperand : dialect.Reads operand fragments)
    (htype : dialect.Reads (dialect.typeName type) []) :
    dialect.Reads (dialect.cast operand type) fragments := by
  have hbefore := hoperand.prepend hdialect.sound (a := "CAST(") (by decide)
  have hafter := htype.append_quoteFree hdialect.sound (b := ")") (by decide)
  have hcast := hbefore.between hdialect.sound " AS " (by decide) (by decide) hafter
  rwa [List.append_nil, ← String.append_assoc] at hcast

theorem reads_nullCast {type : ColumnType} (htype : dialect.Reads (dialect.typeName type) []) :
    dialect.Reads (dialect.nullCast type) [] :=
  (htype.prepend hdialect.sound (a := "CAST(NULL AS ") (by decide)).append_quoteFree
    hdialect.sound (by decide)

theorem reads_valueText (exp : ValueExpr) :
    dialect.Reads (dialect.valueText exp) (dialect.literals exp.texts) := by
  induction exp with
  | column id => exact reads_quoteIdentifier hdialect.sound id
  | constant value => exact reads_literal hdialect value
  | asString operand ih =>
    exact reads_cast hdialect ih (reads_quoteFree hdialect.sound hdialect.string)

theorem reads_sortKeysText (keys : List SortKey) :
    dialect.Reads (dialect.sortKeysText keys) [] := by
  have hkey : ∀ key ∈ keys, dialect.Reads (dialect.sortKeyText key) [] := by
    intro key _
    refine (reads_quoteIdentifier hdialect.sound key.column).append_quoteFree hdialect.sound ?_
    split <;> decide
  exact reads_separated hdialect.sound ", " (by decide) (by decide) keys hkey

-- A function of one column.
theorem reads_call (function : String) (hfunction : QuoteFree function) (id : String) :
    dialect.Reads (function ++ dialect.quoteIdentifier id ++ ")") [] :=
  ((reads_quoteIdentifier hdialect.sound id).prepend hdialect.sound hfunction).append_quoteFree
    hdialect.sound (by decide)

private theorem reads_uniqText (id : String) :
    dialect.Reads ("CASE WHEN MIN(" ++ dialect.quoteIdentifier id ++ ") = MAX(" ++
      dialect.quoteIdentifier id ++ ") THEN MIN(" ++ dialect.quoteIdentifier id ++
        ") ELSE NULL END") [] := by
  have hcolumn := reads_quoteIdentifier hdialect.sound id
  have hleft := hcolumn.prepend hdialect.sound (a := "CASE WHEN MIN(") (by decide)
  have hboth := hleft.between hdialect.sound ") = MAX(" (by decide) (by decide)
    hcolumn
  have hthen := hboth.between hdialect.sound ") THEN MIN(" (by decide) (by decide)
    hcolumn
  exact hthen.append_quoteFree hdialect.sound (by decide)

theorem reads_aggregateText (agg : AggFn) (id : String) (type : ColumnType)
    (htypes : ∀ content ∈ (Exp.aggregate agg id type).written, dialect.Readable content) :
    dialect.Reads (dialect.aggregateText agg id type) [] := by
  cases agg with
  | avg => exact reads_call hdialect "AVG(" (by decide) id
  | count => exact reads_call hdialect "COUNT(" (by decide) id
  | min => exact reads_call hdialect "MIN(" (by decide) id
  | max => exact reads_call hdialect "MAX(" (by decide) id
  | sum => exact reads_call hdialect "SUM(" (by decide) id
  | uniq => exact reads_uniqText hdialect id
  | null =>
    have htype := htypes (.type type) (by simp [Exp.written])
    exact reads_nullCast hdialect (reads_of_tokens? htype)
  | nullStr =>
    exact reads_nullCast hdialect (reads_quoteFree hdialect.sound hdialect.string)

-- The aliases of a join are read by themselves.
def ReadsScope (dialect : Dialect) : Scope → Prop
  | .plain => True
  | .join left right => dialect.Reads left [] ∧ dialect.Reads right []

theorem reads_qualified {side : String} (hside : dialect.Reads side []) (id : String) :
    dialect.Reads (side ++ "." ++ dialect.quoteIdentifier id) [] :=
  hside.between hdialect.sound "." (by decide) (by decide)
    (reads_quoteIdentifier hdialect.sound id)

theorem reads_expText {scope : Scope} (hscope : dialect.ReadsScope scope) (exp : Exp)
    (htypes : ∀ content ∈ exp.written, dialect.Readable content) :
    dialect.Reads (dialect.expText scope exp) (dialect.fragmentsAtTop exp.written) := by
  fun_induction expText dialect scope exp with
  | case1 exp =>
    rw [Exp.written, fragmentsAtTop_constants]
    exact reads_valueText hdialect exp
  | case2 id column left right hjoin =>
    subst hjoin
    exact reads_qualified hdialect hscope.1 id
  | case3 id column left right hjoin =>
    subst hjoin
    exact reads_qualified hdialect hscope.2 id
  | case4 side id => exact reads_quoteIdentifier hdialect.sound id
  | case5 agg id type =>
    have hnone : dialect.fragmentsAtTop (Exp.aggregate agg id type).written = [] := by
      cases agg <;> rfl
    rw [hnone]
    exact reads_aggregateText hdialect agg id type htypes
  | case6 type =>
    have htype := htypes (.type type) (by simp [Exp.written])
    exact reads_nullCast hdialect (reads_of_tokens? htype)
  | case7 exp type _ ih =>
    rw [Exp.written] at htypes ⊢
    obtain ⟨htype, hexp⟩ := List.forall_mem_cons.mp htypes
    rw [fragmentsAtTop_type]
    exact reads_cast hdialect (ih hexp) (reads_of_tokens? htype)
  | case8 => exact reads_quoteFree hdialect.sound (by decide : QuoteFree "ROW_NUMBER() OVER ()")
  | case9 keys =>
    exact ((reads_sortKeysText hdialect keys).prepend hdialect.sound
      (a := "ROW_NUMBER() OVER (ORDER BY ") (by decide)).append_quoteFree hdialect.sound (by decide)
  | case10 => exact reads_quoteFree hdialect.sound (by decide : QuoteFree "COUNT(*)")

theorem reads_named {text : String} {fragments : List (List Token)}
    (h : dialect.Reads text fragments) (name : String) :
    dialect.Reads (text ++ " AS " ++ dialect.quoteIdentifier name) fragments := by
  have hnamed := h.between hdialect.sound " AS " (by decide) (by decide)
    (reads_quoteIdentifier hdialect.sound name)
  rwa [List.append_nil] at hnamed

omit hdialect in
theorem itemText_eq (dialect : Dialect) (scope : Scope) (item : Item) :
    dialect.itemText scope item = if item.isIdentity then dialect.quoteIdentifier item.name
      else dialect.itemExpText scope item ++ " AS " ++ dialect.quoteIdentifier item.name := rfl

theorem reads_itemExpText {scope : Scope} (hscope : dialect.ReadsScope scope) (item : Item)
    (htypes : ∀ content ∈ item.written, dialect.Readable content) :
    dialect.Reads (dialect.itemExpText scope item) (dialect.fragmentsAtTop item.written) := by
  unfold itemExpText
  split
  · rename_i hnull
    rw [Item.written_null hnull] at htypes ⊢
    have htype := htypes _ (List.mem_singleton_self _)
    exact reads_nullCast hdialect (reads_of_tokens? htype)
  · rename_i hvalue
    rw [Item.written_of_ne_null hvalue] at htypes ⊢
    exact reads_expText hdialect hscope item.exp htypes

theorem reads_itemText {scope : Scope} (hscope : dialect.ReadsScope scope) (item : Item)
    (htypes : ∀ content ∈ item.written, dialect.Readable content) :
    dialect.Reads (dialect.itemText scope item) (dialect.fragmentsAtTop item.written) := by
  rw [itemText_eq]
  split
  · rename_i hidentity
    obtain ⟨id, hexp⟩ := Item.column_of_isIdentity hidentity
    rw [Item.written_column hexp]
    exact reads_quoteIdentifier hdialect.sound item.name
  · exact reads_named hdialect (reads_itemExpText hdialect hscope item htypes) item.name

-- A pattern that the engine puts together has its wildcards in literals of their own.
private theorem reads_patternText (place : TextPlace) (operand : ValueExpr) :
    dialect.Reads (dialect.patternText place operand)
      (dialect.literals (operand.patternTexts place)) := by
  have hwildcard : ∀ text : String, List.Forall₂ dialect.Reads
      (if text.isEmpty then [] else [dialect.stringLiteral text])
      (if text.isEmpty then [] else [[]]) := by
    intro text
    split
    · exact .nil
    · exact .cons ((reads_stringLiteral hdialect.sound text).mono (List.nil_subset _)) .nil
  unfold patternText ValueExpr.patternTexts
  obtain ⟨before, behind⟩ := wildcards place
  dsimp only
  split
  · rename_i text
    have hpattern := reads_stringLiteral hdialect.sound
      (before ++ String.ofList (escapeWildcards text.toList) ++ behind)
    simpa using hpattern
  · have hvalue : List.Forall₂ dialect.Reads [dialect.valueText operand]
        [dialect.literals operand.texts] := .cons (reads_valueText hdialect operand) .nil
    have hparts := List.rel_append (List.rel_append (hwildcard before) hvalue) (hwildcard behind)
    exact (reads_intercalate hdialect.sound " || " (by decide) (by decide)
      hparts).mono (by simp)

theorem reads_likeEscape :
    dialect.Reads dialect.likeEscape [] ∧ dialect.Opens dialect.likeEscape := by
  rcases hdialect.likeEscape with h | h
  · rw [h]
    exact ⟨reads_quoteFree hdialect.sound (by decide), opens_empty⟩
  · rw [h]
    refine ⟨?_, opens_append hdialect.sound (by decide) (by decide) _⟩
    exact ((reads_stringLiteral hdialect.sound "\\").prepend hdialect.sound (by decide)).mono
      (List.nil_subset _)

theorem reads_relationText (exp : RelExp) :
    dialect.Reads (dialect.relationText exp) (dialect.literals exp.texts) := by
  cases exp with
  | binary op lhs rhs =>
    have hlhs := reads_valueText hdialect lhs
    cases op with
    | compare comparison =>
      have hcomparison : QuoteFree (comparisonText comparison) := by cases comparison <;> decide
      have hfront := (hlhs.append_quoteFree hdialect.sound (b := " ") (by decide)).append_quoteFree
        hdialect.sound hcomparison
      rw [RelExp.texts, literals_append]
      exact hfront.between hdialect.sound " " (by decide) (by decide)
        (reads_valueText hdialect rhs)
    | matchText place negated =>
      have hkeyword : QuoteFree (if negated then " NOT LIKE " else " LIKE ") ∧
          (if negated then " NOT LIKE " else " LIKE ") ≠ "" := by
        cases negated <;> decide
      have hmatch := hlhs.between hdialect.sound _ hkeyword.1 hkeyword.2
        (reads_patternText hdialect place rhs)
      obtain ⟨hescape, hopens⟩ := reads_likeEscape hdialect
      have hrelation := hmatch.append hdialect.sound hescape hopens
      rwa [List.append_nil, ← literals_append] at hrelation
  | unary test operand =>
    have hoperand := reads_valueText hdialect operand
    cases test with
    | isNull => exact hoperand.append_quoteFree hdialect.sound (by decide)
    | isNotNull => exact hoperand.append_quoteFree hdialect.sound (by decide)

private theorem reads_groupText (op : BoolOp) {parts : List String}
    {fragments : List (List (List Token))}
    (h : List.Forall₂ dialect.Reads parts fragments) :
    dialect.Reads (groupText op parts) fragments.flatten := by
  have hconnective : QuoteFree (connective op) ∧ connective op ≠ "" := by cases op <;> decide
  unfold groupText
  split
  · cases h
    exact reads_quoteFree hdialect.sound (by decide)
  · cases h with
    | cons hpart hnone =>
      cases hnone
      simpa using hpart
  · exact ((reads_intercalate hdialect.sound _ hconnective.1 hconnective.2 h).prepend hdialect.sound
      (by decide)).append_quoteFree hdialect.sound (by decide)

theorem reads_clauseText (clause : Clause) :
    dialect.Reads (dialect.clauseText clause) (dialect.literals clause.texts) := by
  refine (clauseText.mutual_induct
    (fun clause => dialect.Reads (dialect.clauseText clause) (dialect.literals clause.texts))
    (fun clauses => ∃ fragments,
      List.Forall₂ dialect.Reads (dialect.clauseTexts clauses) fragments ∧
        fragments.flatten = dialect.literals (Clause.textsOfAll clauses)) ?_ ?_ ?_ ?_).1 clause
  · exact reads_relationText hdialect
  · intro op args ⟨fragments, hparts, hflatten⟩
    rw [clauseText, Clause.texts, ← hflatten]
    exact reads_groupText hdialect op hparts
  · exact ⟨[], .nil, rfl⟩
  · intro clause rest hclause ⟨fragments, hparts, hflatten⟩
    refine ⟨_, .cons hclause hparts, ?_⟩
    rw [List.flatten_cons, hflatten, Clause.textsOfAll, literals_append]

theorem reads_filterText (filter : Filter) :
    dialect.Reads (dialect.filterText filter) (dialect.literals filter.texts) :=
  reads_clauseText hdialect filter.toClause

theorem reads_columns (ids : List String) :
    dialect.Reads (commaSeparated (ids.map dialect.quoteIdentifier)) [] :=
  reads_separated hdialect.sound ", " (by decide) (by decide) ids fun id _ =>
    reads_quoteIdentifier hdialect.sound id

-- A clause that is left out or stands on a line of its own.
theorem reads_line {text : String} {fragments : List (List Token)} (empty : Bool)
    (keyword : String) (hkeyword : QuoteFree keyword) (hne : keyword ≠ "")
    (h : dialect.Reads text fragments) (hempty : empty = true → fragments = []) :
    dialect.Reads (if empty then "" else keyword ++ text) fragments ∧
      dialect.Opens (if empty then "" else keyword ++ text) := by
  split
  · rename_i hnone
    rw [hempty hnone]
    exact ⟨reads_quoteFree hdialect.sound (by decide), opens_empty⟩
  · exact ⟨h.prepend hdialect.sound hkeyword, opens_append hdialect.sound hkeyword hne text⟩

omit hdialect in
theorem append_lines (hsound : dialect.Sound) {a b : String} {fragments : List (List Token)}
    (ha : dialect.Reads a fragments ∧ dialect.Opens a) (hb : dialect.Reads b [] ∧ dialect.Opens b) :
    dialect.Reads (a ++ b) fragments ∧ dialect.Opens (a ++ b) := by
  have happend := ha.1.append hsound hb.1 hb.2
  rw [List.append_nil] at happend
  exact ⟨happend, ha.2.append hb.2⟩

theorem reads_tailText (condition : Option Filter) (groupBy : List String)
    (orderBy : List SortKey) :
    dialect.Reads (dialect.tailText condition groupBy orderBy)
        (dialect.literals ((condition.map Filter.texts).getD [])) ∧
      dialect.Opens (dialect.tailText condition groupBy orderBy) := by
  have hgroup := reads_line hdialect groupBy.isEmpty "\nGROUP BY " (by decide)
    (by decide) (reads_columns hdialect groupBy) fun _ => rfl
  have horder := reads_line hdialect orderBy.isEmpty "\nORDER BY " (by decide)
    (by decide) (reads_sortKeysText hdialect orderBy) fun _ => rfl
  cases condition with
  | none =>
    have hwhere : dialect.Reads "" [] ∧ dialect.Opens "" :=
      ⟨reads_quoteFree hdialect.sound (by decide), opens_empty⟩
    exact append_lines hdialect.sound (append_lines hdialect.sound hwhere hgroup) horder
  | some filter =>
    have hwhere := reads_line hdialect filter.isEmpty "\nWHERE " (by decide)
      (by decide) (reads_filterText hdialect filter) fun hempty => by
        rw [Filter.texts, List.isEmpty_iff.mp hempty]
        rfl
    exact append_lines hdialect.sound (append_lines hdialect.sound hwhere hgroup) horder

theorem reads_nullSafeEq {lhs rhs : String} (hlhs : dialect.Reads lhs [])
    (hrhs : dialect.Reads rhs []) : dialect.Reads (dialect.nullSafeEq lhs rhs) [] := by
  have hfront := (hlhs.append_quoteFree hdialect.sound (b := " ") (by decide)).append_quoteFree
    hdialect.sound hdialect.equality
  exact hfront.between hdialect.sound " " (by decide) (by decide) hrhs

theorem reads_onText {left right : String} (hleft : dialect.Reads left [])
    (hright : dialect.Reads right []) (on : List String) :
    dialect.Reads (dialect.onText left right on) [] := by
  unfold onText
  split
  · exact reads_quoteFree hdialect.sound (hdialect.booleans true)
  · exact reads_separated hdialect.sound " AND " (by decide) (by decide) on fun key _ =>
      reads_nullSafeEq hdialect (reads_qualified hdialect hleft key)
        (reads_qualified hdialect hright key)

end Writable

end PivotQuery.Dialect
