import PivotQuery.Proofs.Conditions.Phrases
import PivotQuery.Sql.Lowering

namespace PivotQuery

open Piece (Phrase)

namespace Clause

section Value

variable (truth : RelExp → Option Bool)

mutual

-- The truth of a clause, given that of its relations.
def value : Clause → Option Bool
  | .relation exp => truth exp
  | .group op args => op.combine (values args)

def values : List Clause → List (Option Bool)
  | [] => []
  | clause :: rest => clause.value :: values rest

end

end Value

end Clause

namespace Filter

def value (truth : RelExp → Option Bool) (filter : Filter) : Option Bool :=
  filter.toClause.value truth

end Filter

namespace Dialect

variable {dialect : Dialect}

-- The truth of a comparison in a text.
def comparisonTruth (dialect : Dialect) (truth : String → Option Bool) (symbols : List Symbol) :
    Option Bool :=
  let text := String.ofList (dialect.spell symbols)
  if text = "1=1" then some true else truth text

-- A text that is read as one factor of this truth.
def Means (dialect : Dialect) (truth : String → Option Bool) (text : String)
    (value : Option Bool) : Prop :=
  ∃ pieces, dialect.ReadAs text pieces ∧ Phrase pieces ∧
    (Condition.ofFactor pieces).value (dialect.comparisonTruth truth) = value

variable {truth : String → Option Bool}

private theorem means_relationText (hdialect : dialect ∈ all) (exp : RelExp) :
    dialect.Means truth (dialect.relationText exp) (truth (dialect.relationText exp)) := by
  have hsound := (writable_of_mem_all hdialect).sound
  obtain ⟨a, b, htext, ⟨pieces, hpieces, hphrase⟩, others, hothers, hphrase'⟩ :=
    relationText_eq hdialect exp
  rw [htext]
  have hreads := hpieces.blank_between hsound hothers
  refine ⟨_, hreads, hphrase.blank_between hphrase', ?_⟩
  obtain ⟨symbols, -, hspell, hscans⟩ := hreads
  have hblank : a ++ " " ++ b ≠ "1=1" := by
    intro heq
    have hmem : ' ' ∈ (a ++ " " ++ b).toList := by simp
    rw [heq] at hmem
    exact absurd hmem (by decide)
  rw [Condition.ofFactor_blank_between hphrase hphrase', hscans.flatMap_symbols, Condition.value,
    comparisonTruth, hspell, String.ofList_toList]
  exact if_neg hblank

-- A word alone is a comparison, and an empty group is written as one that is true.
private theorem means_emptyGroup (hdialect : dialect ∈ all) :
    dialect.Means truth "1=1" (some true) := by
  have hone : IsTerm "1=1" := by decide
  refine ⟨_, readAs_word (writable_of_mem_all hdialect).sound hone.toIsWord,
    Piece.phrase_singleton rfl hone.not_keyword, ?_⟩
  have hfactor : Condition.ofFactor [.word "1=1".toList] =
      .comparison ("1=1".toList.map .char) := rfl
  rw [hfactor, Condition.value, comparisonTruth, spell_chars, String.ofList_toList]
  exact if_pos rfl

private theorem phrases_of_means {texts : List String} {values : List (Option Bool)}
    (h : List.Forall₂ (dialect.Means truth) texts values) :
    ∃ parts, List.Forall₂ dialect.ReadAs texts parts ∧ (∀ part ∈ parts, Phrase part) ∧
      parts.map (fun part => (Condition.ofFactor part).value (dialect.comparisonTruth truth)) =
        values := by
  induction h with
  | nil => exact ⟨[], .nil, by simp, rfl⟩
  | cons hpart _ ih =>
    obtain ⟨pieces, hreads, hphrase, hvalue⟩ := hpart
    obtain ⟨parts, hparts, hphrases, hvalues⟩ := ih
    exact ⟨pieces :: parts, .cons hreads hparts, List.forall_mem_cons.mpr ⟨hphrase, hphrases⟩,
      by rw [List.map_cons, hvalue, hvalues]⟩

private theorem means_groupText (hdialect : dialect ∈ all) (op : BoolOp) {texts : List String}
    {values : List (Option Bool)} (h : List.Forall₂ (dialect.Means truth) texts values) :
    dialect.Means truth (groupText op texts) (op.combine values) := by
  have hsound := (writable_of_mem_all hdialect).sound
  unfold groupText
  split
  · cases h
    exact means_emptyGroup hdialect
  · cases h with
    | cons hpart hnone =>
      cases hnone
      rwa [BoolOp.combine_singleton]
  · rename_i hne _
    obtain ⟨parts, hparts, hphrases, hvalues⟩ := phrases_of_means h
    have hconnective : connective op = " " ++ op.name ++ " " := by cases op <;> rfl
    have hword : IsWord op.name := by cases op <;> decide
    have hsome : parts ≠ [] := by
      rintro rfl
      cases hparts
      exact hne rfl
    have hjoined := readAs_intercalate hsound hword hparts hne
    rw [← hconnective] at hjoined
    obtain ⟨inside, hgroup⟩ := hjoined.parenthesized hsound
    have hvalue :=
      Condition.value_ofPieces_joined (dialect.comparisonTruth truth) op hphrases hsome
    rw [hvalues] at hvalue
    exact ⟨_, hgroup, Piece.phrase_singleton rfl fun _ => rfl, hvalue⟩

private theorem means_clauseText (hdialect : dialect ∈ all) (clause : Clause) :
    dialect.Means truth (dialect.clauseText clause)
      (clause.value fun exp => truth (dialect.relationText exp)) := by
  refine (clauseText.mutual_induct
    (fun clause => dialect.Means truth (dialect.clauseText clause)
      (clause.value fun exp => truth (dialect.relationText exp)))
    (fun clauses => List.Forall₂ (dialect.Means truth) (dialect.clauseTexts clauses)
      (Clause.values (fun exp => truth (dialect.relationText exp)) clauses))
    ?relation ?group ?nil ?cons).1 clause
  case relation => exact means_relationText hdialect
  case group => exact fun op args ih => means_groupText hdialect op ih
  case nil => exact .nil
  case cons => exact fun clause rest ih ihrest => .cons ih ihrest

theorem condition?_of_means (hdialect : dialect ∈ all) {text : String} {value : Option Bool}
    (h : dialect.Means truth text value) :
    ∃ condition, dialect.condition? text = some condition ∧
      condition.value (dialect.comparisonTruth truth) = value := by
  obtain ⟨pieces, ⟨symbols, hlegible, hspell, hscans⟩, hphrase, hvalue⟩ := h
  refine ⟨.ofPieces pieces, ?_, ?_⟩
  · rw [condition?, ← hspell, symbols?_spell (writable_of_mem_all hdialect).sound hlegible,
      Option.bind_some, hscans.read_all]
  · have hone := Condition.value_ofPieces_joined (dialect.comparisonTruth truth) .or
      (List.forall_mem_singleton.mpr hphrase) (by simp)
    rwa [Piece.joined, List.map_singleton, BoolOp.combine_singleton, hvalue] at hone

-- The value of a filter whose relations have the truth of their texts.
def filterValue (dialect : Dialect) (truth : String → Option Bool) (filter : Filter) :
    Option Bool :=
  filter.value fun exp => truth (dialect.relationText exp)

theorem condition?_filterText (hdialect : dialect ∈ all) (truth : String → Option Bool)
    (filter : Filter) :
    ∃ condition, dialect.condition? (dialect.filterText filter) = some condition ∧
      condition.value (dialect.comparisonTruth truth) = dialect.filterValue truth filter :=
  condition?_of_means hdialect (means_clauseText hdialect filter.toClause)

theorem filterValue_of_isEmpty (truth : String → Option Bool) {filter : Filter}
    (h : filter.isEmpty = true) : dialect.filterValue truth filter = some true := by
  obtain ⟨op, args⟩ := filter
  obtain rfl : args = [] := List.isEmpty_iff.mp h
  rfl

theorem filterValue_both (truth : String → Option Bool) (first second : Filter) :
    dialect.filterValue truth (first.both second) =
      BoolOp.and.combine [dialect.filterValue truth first, dialect.filterValue truth second] := rfl

private theorem tailText_some (filter : Filter) (groupBy : List String) (orderBy : List SortKey) :
    dialect.tailText (some filter) groupBy orderBy =
      (if filter.isEmpty then "" else "\nWHERE " ++ dialect.filterText filter) ++
        dialect.tailText none groupBy orderBy := by
  simp [tailText, String.append_assoc]

end Dialect

theorem BoolOp.combine_and_true (truth : Option Bool) :
    BoolOp.and.combine [some true, truth] = truth := by
  rcases truth with _ | _ | _ <;> rfl

-- With AND before OR, the text of a filter is read as a condition of its value, whatever the truth
-- of its comparisons is. The line of WHERE is left out for an empty filter alone, which is true. A
-- filter on top of a select that has one already is merged with it, and both have to hold.
theorem where_text_keeps_structure {dialect : Dialect} (hdialect : dialect ∈ Dialect.all)
    (truth : String → Option Bool) :
    (∀ filter : Filter,
      (∃ condition, dialect.condition? (dialect.filterText filter) = some condition ∧
        condition.value (dialect.comparisonTruth truth) = dialect.filterValue truth filter) ∧
      (filter.isEmpty = true → dialect.filterValue truth filter = some true) ∧
      ∀ groupBy orderBy, dialect.tailText (some filter) groupBy orderBy =
        (if filter.isEmpty then "" else "\nWHERE " ++ dialect.filterText filter) ++
          dialect.tailText none groupBy orderBy) ∧
    ∀ (select : Sql.Select) (filter : Filter), ∃ merged condition,
      (select.filtered filter).condition = some merged ∧
        dialect.condition? (dialect.filterText merged) = some condition ∧
          condition.value (dialect.comparisonTruth truth) = BoolOp.and.combine
            [(select.condition.map (dialect.filterValue truth)).getD (some true),
              dialect.filterValue truth filter] := by
  refine ⟨fun filter => ⟨Dialect.condition?_filterText hdialect truth filter,
    Dialect.filterValue_of_isEmpty truth, Dialect.tailText_some filter⟩, fun select filter => ?_⟩
  cases hcondition : select.condition with
  | none =>
    obtain ⟨condition, hread, hvalue⟩ := Dialect.condition?_filterText hdialect truth filter
    refine ⟨filter, condition, by simp [Sql.Select.filtered, hcondition], hread, ?_⟩
    rw [hvalue, Option.map_none, Option.getD_none, BoolOp.combine_and_true]
  | some earlier =>
    obtain ⟨condition, hread, hvalue⟩ :=
      Dialect.condition?_filterText hdialect truth (earlier.both filter)
    refine ⟨earlier.both filter, condition, by simp [Sql.Select.filtered, hcondition], hread, ?_⟩
    rw [hvalue, Dialect.filterValue_both, Option.map_some, Option.getD_some]

-- The name is one with a connective in it, or nothing has been closed; and the amount is large.
def namedAndLarge : Filter :=
  ⟨.and, [
    .group .or [
      .relation (.binary (.compare .eq) (.column "name") (.constant (.text "a OR b"))),
      .relation (.unary .isNull (.column "closed"))],
    .relation (.binary (.compare .gt) (.column "amount") (.constant (.int 5)))]⟩

-- Without the parentheses inside, the name alone would make it true.
theorem where_text_keeps_structure_namedAndLarge :
    Dialect.sqlite ∈ Dialect.all ∧
      Dialect.sqlite.filterText namedAndLarge =
        "((\"name\" = 'a OR b' OR \"closed\" IS NULL) AND \"amount\" > 5)" ∧
      ∃ condition,
        Dialect.sqlite.condition? (Dialect.sqlite.filterText namedAndLarge) = some condition ∧
          condition.value (Dialect.sqlite.comparisonTruth fun text =>
            some (text == "\"name\" = 'a OR b'")) = some false := by
  have hsqlite : Dialect.sqlite ∈ Dialect.all := by simp [Dialect.all]
  have htext : Dialect.sqlite.filterText namedAndLarge =
      "((\"name\" = 'a OR b' OR \"closed\" IS NULL) AND \"amount\" > 5)" := by cbv
  have hvalue : Dialect.sqlite.filterValue (fun text => some (text == "\"name\" = 'a OR b'"))
      namedAndLarge = some false := by cbv
  obtain ⟨condition, hread, hcondition⟩ := ((where_text_keeps_structure hsqlite
    fun text => some (text == "\"name\" = 'a OR b'")).1 namedAndLarge).1
  exact ⟨hsqlite, htext, condition, hread, hcondition.trans hvalue⟩

end PivotQuery
