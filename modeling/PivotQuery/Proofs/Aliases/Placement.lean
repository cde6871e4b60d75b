import PivotQuery.Proofs.Aliases.Numbering
import PivotQuery.Proofs.Aliases.Sides
import PivotQuery.Proofs.NumberedNames
import PivotQuery.Proofs.Tokens.Nesting

namespace PivotQuery

namespace Dialect

open Sql

variable {dialect : Dialect} {readable : Prop} {text behind : String} {tokens : List Token}

-- A text that is put behind a FROM.
def FallsBehind (dialect : Dialect) (readable : Prop) (text : String) : Prop :=
  (∀ c ∈ text.toList.head?, Text.isBlank c = true) ∧
    ∃ tokens, Follows tokens ∧ dialect.Falls readable text tokens

private theorem fallsBehind_empty : dialect.FallsBehind readable "" :=
  ⟨by simp, [], Or.inl rfl, [], fun _ => .nil, rfl, rfl⟩

theorem FallsBehind.clause (hsound : dialect.Sound) (hbehind : dialect.FallsBehind readable behind)
    (empty : Bool) {separator : String} {keyword : List String}
    (hseparates : Separates separator (Token.words keyword))
    (hkeyword : keyword ∈ [["WHERE"], ["GROUP", "BY"], ["ORDER", "BY"]])
    (hclause : readable → dialect.Reads text []) :
    dialect.FallsBehind readable ((if empty then "" else separator ++ text) ++ behind) := by
  split
  · rw [String.empty_append]
    exact hbehind
  · obtain ⟨hblank, others, -, hothers⟩ := hbehind
    obtain ⟨clause, hclause⟩ := exists_falls hclause
    have hfalls := (hclause.append hsound hothers hblank).keyword hsound hseparates.free
      hseparates.tokens
    rw [← String.append_assoc] at hfalls
    refine ⟨?_, _, Or.inr ⟨keyword, hkeyword, _, rfl⟩, hfalls⟩
    rw [String.append_assoc]
    exact hseparates.blank_append (text ++ behind)

private theorem falls_rawTokens (hreadable : readable → dialect.Readable (.raw text)) :
    dialect.Falls readable text (dialect.rawTokens text) := by
  unfold rawTokens tokens?
  cases hsymbols : dialect.symbols? text.toList with
  | none =>
    refine ⟨_, fun h => ?_, spell_chars _, rfl⟩
    have hsome := hreadable h
    simp [Readable, tokens?, hsymbols] at hsome
  | some symbols =>
    obtain ⟨hlegible, hspell⟩ := legible_of_symbols? hsymbols
    exact ⟨symbols, fun _ => hlegible, hspell, rfl⟩

-- What is written for a source, a select or the selects of a query from a number on.

def PlacesSource (dialect : Dialect) (readable : Prop) (source : Source) (next : Nat)
    (written : (String × Scope) × Nat) : Prop :=
  ∃ aliases sides tokens, dialect.SpellsSource source aliases sides tokens ∧
    dialect.Falls readable written.1.1 tokens ∧ written.1.2 = dialect.scopeOf sides ∧
      sides.isSome = source.isJoin ∧ Numbers next source.aliasCount written.2 aliases

def PlacesSelect (dialect : Dialect) (readable : Prop) (select : Select) (next : Nat)
    (written : String × Nat) : Prop :=
  ∃ aliases tokens, dialect.SpellsSelect select aliases tokens ∧
    dialect.Falls readable written.1 tokens ∧
      Numbers next (aliasCount select.nested) written.2 aliases

def PlacesEach (dialect : Dialect) (readable : Prop) (selects : List Select) (next : Nat)
    (written : List String × Nat) : Prop :=
  ∃ aliases parts, dialect.SpellsEach selects aliases parts ∧
    List.Forall₂ (dialect.Falls readable) written.1 parts ∧
      Numbers next (aliasCount (nestedSelects selects)) written.2 aliases

section Written

variable (hdialect : dialect ∈ all)
include hdialect

private theorem fallsBehind_tailText (condition : Option Filter) (groupBy : List String)
    (orderBy : List SortKey) :
    dialect.FallsBehind readable (dialect.tailText condition groupBy orderBy) := by
  have hwritable := writable_of_mem_all hdialect
  have horder : Separates "\nORDER BY " (Token.words ["ORDER", "BY"]) :=
    ⟨by decide, by decide, fun _ => rfl⟩
  have hgroup : Separates "\nGROUP BY " (Token.words ["GROUP", "BY"]) :=
    ⟨by decide, by decide, fun _ => rfl⟩
  have hwhere : Separates "\nWHERE " (Token.words ["WHERE"]) :=
    ⟨by decide, by decide, fun _ => rfl⟩
  have hgrouped := (fallsBehind_empty.clause hwritable.sound orderBy.isEmpty horder (by simp)
    fun _ : readable => reads_sortKeysText hwritable orderBy).clause hwritable.sound
      groupBy.isEmpty hgroup (by simp) fun _ => reads_columns hwritable groupBy
  rw [String.append_empty] at hgrouped
  unfold tailText
  rw [String.append_assoc]
  cases condition with
  | none => rwa [String.empty_append]
  | some filter =>
    exact hgrouped.clause hwritable.sound filter.isEmpty hwhere (by simp) fun _ =>
      (reads_filterText hwritable filter).mono (List.nil_subset _)

private theorem exists_introduced (h : dialect.Falls readable text tokens) (own : String) :
    ∃ outside, dialect.Introduces tokens own outside ∧ dialect.FallsClosed readable
      (parenthesized text ++ " AS " ++ dialect.quoteIdentifier own) outside := by
  obtain ⟨name, hname, hfalls⟩ := exists_named hdialect
    (h.parenthesized (writable_of_mem_all hdialect).sound) own
  refine ⟨_, ⟨name, hname, ?_⟩, hfalls⟩
  simp [Token.words]

private theorem exists_introducedUnion {texts : List String} {parts : List (List Token)}
    (h : List.Forall₂ (dialect.Falls readable) texts parts) (own : String) :
    ∃ outside, dialect.Introduces (unionTokens parts) own outside ∧ dialect.FallsClosed readable
      (parenthesized (unionText texts) ++ " AS " ++ dialect.quoteIdentifier own) outside :=
  exists_introduced hdialect
    (falls_intercalate (writable_of_mem_all hdialect).sound separates_union h) own

private theorem placesSource_table (name : String) (schema : Schema) (next : Nat) :
    dialect.PlacesSource readable (.table name schema) next
      (dialect.sourceText (.table name schema) next) := by
  obtain ⟨token, hname, hfalls⟩ := exists_quoted hdialect name
  exact ⟨[], none, [token], ⟨rfl, rfl, token, hname, rfl⟩, hfalls.falls, rfl, rfl,
    Numbers.none next⟩

private theorem placesSource_sql (schema : Schema) (next : Nat)
    (hreadable : readable → dialect.Readable (.raw text)) :
    dialect.PlacesSource readable (.sql text schema) next
      (dialect.sourceText (.sql text schema) next) := by
  obtain ⟨outside, hintroduced, hfalls⟩ :=
    exists_introduced hdialect (falls_rawTokens hreadable) (aliasName next)
  exact ⟨[aliasName next], none, outside, ⟨_, rfl, rfl, hintroduced⟩, hfalls.falls, rfl, rfl,
    Numbers.one next⟩

theorem PlacesEach.subquery {selects : List Select} {next between : Nat} {texts : List String}
    (h : dialect.PlacesEach readable selects next (texts, between)) :
    dialect.PlacesSource readable (.subquery selects) next
      ((parenthesized (unionText texts) ++ " AS " ++ dialect.quoteIdentifier (aliasName between),
        .plain), between + 1) := by
  obtain ⟨inside, parts, hspells, hfalls, hnumbers⟩ := h
  obtain ⟨outside, hintroduced, hnamed⟩ :=
    exists_introducedUnion hdialect hfalls (aliasName between)
  exact ⟨_, none, outside, ⟨inside, parts, _, hspells, rfl, rfl, hintroduced⟩, hnamed.falls, rfl,
    rfl, hnumbers.append (Numbers.one between)⟩

theorem PlacesEach.join {lhs rhs : List Select} {next between after : Nat}
    {leftTexts rightTexts : List String}
    (hl : dialect.PlacesEach readable lhs next (leftTexts, between))
    (hr : dialect.PlacesEach readable rhs (between + 1) (rightTexts, after))
    (type : JoinType) (on : List String) :
    dialect.PlacesSource readable (.join lhs rhs type on) next
      ((parenthesized (unionText leftTexts) ++ " AS " ++
          dialect.quoteIdentifier (aliasName between) ++ "\n" ++ joinKeyword type ++ " " ++
            parenthesized (unionText rightTexts) ++ " AS " ++
              dialect.quoteIdentifier (aliasName after) ++ "\nON " ++
                dialect.onText (dialect.quoteIdentifier (aliasName between))
                  (dialect.quoteIdentifier (aliasName after)) on,
        .join (dialect.quoteIdentifier (aliasName between))
          (dialect.quoteIdentifier (aliasName after))), after + 1) := by
  have hsound := (writable_of_mem_all hdialect).sound
  have hkeyword : Separates ("\n" ++ joinKeyword type ++ " ") (joinWords type) := by
    cases type <;> exact ⟨by decide, by decide, fun _ => rfl⟩
  have hon : Separates "\nON " (Token.words ["ON"]) :=
    ⟨by decide, by decide, fun _ => rfl⟩
  obtain ⟨insideLeft, partsLeft, hspellsl, hfallsl, hnumbersl⟩ := hl
  obtain ⟨insideRight, partsRight, hspellsr, hfallsr, hnumbersr⟩ := hr
  obtain ⟨left, hleft, hnamedl⟩ := exists_introducedUnion hdialect hfallsl (aliasName between)
  obtain ⟨right, hright, hnamedr⟩ := exists_introducedUnion hdialect hfallsr (aliasName after)
  obtain ⟨condition, hmatches, hcondition⟩ :=
    exists_matches hdialect ⟨aliasName between, aliasName after⟩ on
  have hboth := hnamedl.falls.between hsound hkeyword hnamedr.falls
  have hsource := hboth.between hsound hon hcondition
  refine ⟨_, some ⟨aliasName between, aliasName after⟩, _, ⟨insideLeft, partsLeft, insideRight,
    partsRight, _, left, right, condition, hspellsl, hspellsr, rfl, rfl, hleft, hright, hmatches,
    rfl⟩, ?_, rfl, rfl, ?_⟩
  · simpa only [String.append_assoc] using hsource
  · exact ((hnumbersl.append (Numbers.one between)).append hnumbersr).append (Numbers.one after)

theorem PlacesSource.select {items : List Item} {source : Source} {condition : Option Filter}
    {groupBy : List String} {orderBy : List SortKey} {hidden : List Item} {next between : Nat}
    {sourceText : String} {scope : Scope}
    (h : dialect.PlacesSource readable source next ((sourceText, scope), between))
    (hsides : (⟨items, source, condition, groupBy, orderBy, hidden⟩ : Select).PicksSides)
    (hitems : readable → ∀ content ∈ items.flatMap Item.written, dialect.Readable content) :
    dialect.PlacesSelect readable ⟨items, source, condition, groupBy, orderBy, hidden⟩ next
      ("SELECT " ++ commaSeparated (items.map (dialect.itemText scope)) ++ "\nFROM " ++
        sourceText ++ dialect.tailText condition groupBy orderBy, between) := by
  have hsound := (writable_of_mem_all hdialect).sound
  have hfrom : Separates "\nFROM " (Token.words ["FROM"]) :=
    ⟨by decide, by decide, fun _ => rfl⟩
  obtain ⟨aliases, sides, origin, hspells, hsource, rfl, hjoin, hnumbers⟩ := h
  have hsame := (Select.isJoin_eq ⟨items, source, condition, groupBy, orderBy, hidden⟩).trans
    hjoin.symm
  obtain ⟨list, hlist, htexts⟩ := exists_parts fun item (hitem : item ∈ items) =>
    exists_item hdialect (fun hsome => hsides.ofJoin (hsame.trans hsome) item hitem)
      (fun hnone => hsides.other (hsame.trans hnone) item hitem)
      fun h content hcontent => hitems h content (List.mem_flatMap.mpr ⟨item, hitem, hcontent⟩)
  obtain ⟨hblank, tail, hfollows, htail⟩ :=
    fallsBehind_tailText hdialect condition groupBy orderBy
  have hitems : dialect.Falls readable
      ("SELECT " ++ commaSeparated (items.map (dialect.itemText (dialect.scopeOf sides))))
      (Token.words ["SELECT"] ++ (Token.words [","]).intercalate list) :=
    (falls_commaSeparated hsound (List.forall₂_map_left_iff.mpr htexts)).keyword hsound (by decide)
      fun _ => rfl
  refine ⟨aliases, _, ⟨sides, list, origin, tail, hspells, hlist, hfollows, rfl⟩, ?_, ?_⟩
  · exact (hitems.between hsound hfrom hsource).append hsound htail hblank
  · rw [aliasCount_nested]
    exact hnumbers

private theorem placesEach (selects : List Select) (next : Nat)
    (hsides : ∀ select ∈ nestedSelects selects, select.PicksSides)
    (hreadable : readable → ∀ entry ∈ writtenOfAll selects, dialect.Readable entry.2) :
    dialect.PlacesEach readable selects next (dialect.selectTexts selects next) := by
  refine (selectText.mutual_induct dialect
    (fun select next => (∀ inner ∈ select.nested, inner.PicksSides) →
      (readable → ∀ entry ∈ select.written, dialect.Readable entry.2) →
        dialect.PlacesSelect readable select next (dialect.selectText select next))
    (fun source next => (∀ inner ∈ source.nested, inner.PicksSides) →
      (readable → ∀ entry ∈ source.written, dialect.Readable entry.2) →
        dialect.PlacesSource readable source next (dialect.sourceText source next))
    (fun selects next => (∀ inner ∈ nestedSelects selects, inner.PicksSides) →
      (readable → ∀ entry ∈ writtenOfAll selects, dialect.Readable entry.2) →
        dialect.PlacesEach readable selects next (dialect.selectTexts selects next))
    ?select ?table ?sql ?subquery ?join ?nil ?cons).2.2 selects next hsides hreadable
  case select =>
    intro items source condition groupBy orderBy hidden next sourceText scope behind hsource ih
      hsides hreadable
    simp only [Select.written, List.forall_mem_append] at hreadable
    obtain ⟨hown, hinside⟩ := List.forall_mem_cons.mp hsides
    have hplaced := ih hinside fun h => (hreadable h).2
    rw [hsource] at hplaced
    simp only [selectText, hsource]
    refine hplaced.select hdialect hown fun h content hcontent => (hreadable h).1 (0, content) ?_
    exact List.mem_map_of_mem (List.mem_append_left _ hcontent)
  case table =>
    intro name schema next _ _
    exact placesSource_table hdialect name schema next
  case sql =>
    intro text schema next _ hreadable
    exact placesSource_sql hdialect schema next fun h =>
      hreadable h (1, .raw text) (by simp [Source.written])
  case subquery =>
    intro selects next texts behind htexts ih hsides hreadable
    have hplaced := ih hsides fun h => readable_deeper.mp (hreadable h)
    rw [htexts] at hplaced
    simp only [sourceText, htexts]
    exact hplaced.subquery hdialect
  case join =>
    intro lhs rhs type on next leftTexts between hlhs rightTexts behind hrhs ihl ihr hsides
      hreadable
    have hentries h := List.forall_mem_append.mp (readable_deeper.mp (hreadable h))
    obtain ⟨hleft, hright⟩ := List.forall_mem_append.mp hsides
    have hl := ihl hleft fun h => (hentries h).1
    have hr := ihr hright fun h => (hentries h).2
    rw [hlhs] at hl
    rw [hrhs] at hr
    simp only [sourceText, hlhs, hrhs]
    exact hl.join hdialect hr type on
  case nil =>
    intro next _ _
    exact ⟨[], [], ⟨rfl, rfl⟩, .nil, Numbers.none next⟩
  case cons =>
    intro select rest next text between htext texts behind htexts ih ihrest hsides hreadable
    simp only [writtenOfAll, List.forall_mem_append] at hreadable
    obtain ⟨hselect, hrest⟩ := List.forall_mem_append.mp hsides
    obtain ⟨own, part, hspells, hfalls, hnumbers⟩ := ih hselect fun h => (hreadable h).1
    obtain ⟨others, parts, hspells', hfalls', hnumbers'⟩ := ihrest hrest fun h => (hreadable h).2
    rw [htext] at hfalls hnumbers
    rw [htexts] at hfalls' hnumbers'
    simp only [selectTexts, htext, htexts]
    refine ⟨own ++ others, part :: parts, ⟨own, others, part, parts, hspells, hspells', rfl, rfl⟩,
      .cons hfalls hfalls', ?_⟩
    rw [nestedSelects, aliasCount_append]
    exact hnumbers.append hnumbers'

end Written

-- The aliases of a query in the order in which they are introduced, k being the number of its raw
-- queries and subqueries and twice that of its joins.
def aliases (selects : List Select) : List String :=
  (List.range (aliasCount (nestedSelects selects))).map fun index => "_subq" ++ toString index

-- The text of a query introduces each alias once and means the sides of its joins by them, in
-- tokens that are those that an engine reads if it can read the raw queries and type names in it.
structure WritesAliases (dialect : Dialect) (selects : List Select) (tokens : List Token) :
    Prop where
  distinct : (aliases selects).Nodup
  spells : dialect.SpellsQuery selects (aliases selects) tokens
  cuts : dialect.Cuts (dialect.queryText selects) tokens
  read : (∀ entry ∈ writtenOfAll selects, dialect.Readable entry.2) →
    dialect.tokens? (dialect.queryText selects) = some tokens

theorem exists_writesAliases (hdialect : dialect ∈ all) {selects : List Select}
    (hsides : ∀ select ∈ nestedSelects selects, select.PicksSides) :
    ∃ tokens, dialect.WritesAliases selects tokens := by
  have hsound := (writable_of_mem_all hdialect).sound
  obtain ⟨own, parts, hspells, hfalls, hnumbers⟩ := placesEach hdialect selects 0 hsides id
  have hwhole := falls_intercalate hsound separates_union hfalls
  have hown : own = aliases selects := by
    rw [hnumbers.own, aliases, List.range_eq_range']
    rfl
  refine ⟨_, List.nodup_range.map (numbered_injective "_subq"), ⟨parts, hown ▸ hspells, rfl⟩,
    hwhole.cuts, hwhole.tokens? hsound⟩

end Dialect

-- Every alias of a query or of a page of it is introduced once, in the order of their numbers, and
-- the columns of the sides of a join have the aliases that its FROM introduces for them.
theorem aliases_are_unique_and_qualify_sides {dialect : Dialect} (hdialect : dialect ∈ Dialect.all)
    (query : TypedQuery) (offset limit : Option Nat) :
    (∃ tokens, dialect.WritesAliases query.query.lower tokens) ∧
      ∃ tokens, dialect.WritesAliases
        [Sql.rowNumberPage query.query.lower query.schema offset limit] tokens := by
  have hlegal : ∀ select ∈ Sql.nestedSelects query.query.lower, select.Legal :=
    fun select hselect =>
      (Query.nested_legal.holds query.typed (fun _ _ => trivial) select hselect).1
  constructor
  · exact Dialect.exists_writesAliases hdialect fun select hselect =>
      (hlegal select hselect).picksSides
  · exact Dialect.exists_writesAliases hdialect
      (Sql.picksSides_page (Query.lower_lowered.holds query.typed) hlegal)

def salesJoin : TypedQuery :=
  ⟨.join (.table "sales" saleColumns) (.table "sales" saleColumns) ["region", "amount"] .inner,
    saleColumns, rfl⟩

-- A page has an alias for its rows in the range, one for the numbered rows and one for those of
-- the join, which has two of its own.
theorem aliases_are_unique_and_qualify_sides_salesJoin :
    Dialect.presto ∈ Dialect.all ∧ ∃ tokens,
      Dialect.presto.tokens? (Dialect.presto.queryText
        [Sql.rowNumberPage salesJoin.query.lower salesJoin.schema none (some 10)]) = some tokens ∧
      Dialect.presto.SpellsQuery
        [Sql.rowNumberPage salesJoin.query.lower salesJoin.schema none (some 10)]
        ["_subq0", "_subq1", "_subq2", "_subq3", "_subq4"] tokens := by
  have hpresto : Dialect.presto ∈ Dialect.all := by simp [Dialect.all]
  obtain ⟨tokens, hwrites⟩ :=
    (aliases_are_unique_and_qualify_sides hpresto salesJoin none (some 10)).2
  have haliases : Dialect.aliases
      [Sql.rowNumberPage salesJoin.query.lower salesJoin.schema none (some 10)] =
        ["_subq0", "_subq1", "_subq2", "_subq3", "_subq4"] := by decide
  have hwritten : Sql.writtenOfAll
      [Sql.rowNumberPage salesJoin.query.lower salesJoin.schema none (some 10)] = [] := rfl
  refine ⟨hpresto, tokens, hwrites.read (by simp [hwritten]), ?_⟩
  rw [← haliases]
  exact hwrites.spells

end PivotQuery
