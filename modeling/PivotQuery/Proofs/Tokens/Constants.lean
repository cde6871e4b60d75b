import PivotQuery.Proofs.Tokens.Nesting
import PivotQuery.Proofs.Lowering.Operators

namespace PivotQuery

namespace Sql

variable {selects : List Select} {schema : Schema}

-- Columns are known by names alone.
theorem written_columns {items : List Item}
    (h : ∀ item ∈ items, ∃ id, item.exp = .value (.column id)) :
    items.flatMap Item.written = [] := by
  refine List.flatMap_eq_nil_iff.mpr fun item hitem => ?_
  obtain ⟨id, hexp⟩ := h item hitem
  exact Item.written_column hexp

theorem written_ofColumn (columns : List Column) :
    (columns.map Item.ofColumn).flatMap Item.written = [] :=
  written_columns (List.forall_mem_map.mpr fun column _ => ⟨column.id, rfl⟩)

theorem written_countRows (selects : List Select) :
    (countRows selects).written = deeper (writtenOfAll selects) := rfl

theorem texts_pageRange (offset limit : Option Nat) : (pageRange offset limit).texts = [] := by
  cases limit <;> rfl

theorem written_inRange (select : Select) (offset limit : Option Nat) :
    (inRange select (pageRange offset limit)).written = deeper select.written := by
  have hitems : (select.items.map fun item => Item.column item.name item.type).flatMap
      Item.written = [] :=
    written_columns (List.forall_mem_map.mpr fun item _ => ⟨item.name, rfl⟩)
  simp [inRange, Select.plain, Select.written, Source.written, writtenOfAll, hitems,
    texts_pageRange]

theorem written_numbered (selects : List Select) (schema : Schema) :
    (numbered selects schema).written = deeper (writtenOfAll (unordered selects).1) := by
  simp [numbered, Select.wrap, Select.plain, Select.written, Source.written, written_ofColumn,
    Item.written, Exp.written]

-- The columns that become visible for the numbering are columns of the source.
theorem writtenOfAll_unordered (h : ∀ select ∈ selects, select.Lowered schema) :
    writtenOfAll (unordered selects).1 = writtenOfAll selects := by
  unfold unordered
  split
  · rename_i select
    have hhidden := written_columns (h select (by simp)).hidden
    obtain ⟨items, source, condition, groupBy, orderBy, hidden⟩ := select
    simp only at hhidden
    simp [Select.exposed, writtenOfAll, Select.written, hhidden]
  · rfl

theorem written_rowNumberPage (h : ∀ select ∈ selects, select.Lowered schema)
    (offset limit : Option Nat) :
    (rowNumberPage selects schema offset limit).written =
      deeper (deeper (deeper (writtenOfAll selects))) := by
  simp [rowNumberPage, Select.wrap, Select.plain, Select.written, Source.written, writtenOfAll,
    written_ofColumn, written_inRange, written_numbered, writtenOfAll_unordered h]

theorem deeper_iterate (depth : Nat) (written : List (Nat × Written)) :
    deeper^[depth] written = written.map fun entry => (entry.1 + depth, entry.2) := by
  induction depth with
  | zero => simp
  | succ depth ih =>
    rw [Function.iterate_succ_apply', ih, deeper, List.map_map]
    rfl

theorem writtenOfAll_singleton (select : Select) : writtenOfAll [select] = select.written :=
  List.append_nil _

end Sql

namespace Dialect

open Sql (Select Written writtenOfAll)

variable {dialect : Dialect}

-- How many subqueries are put around a query for a page of it.
def pageDepth (dialect : Dialect) (offset limit : Option Nat) : Nat :=
  if dialect.paging = .rowNumber && (offset.isSome || limit.isSome) then 3 else 0

-- Where something is found that was written so many subqueries deep. A text constant is a token
-- that the engine reads as it, and raw SQL keeps its tokens, but what is between quotes is indented
-- with the lines that it is on. That makes a difference where it has a line feed.
def ShowsIn (dialect : Dialect) (tokens : List Token) (depth : Nat) : Written → Prop
  | .constant text =>
    (∃ spelled, .quoted .text spelled ∈ tokens ∧ ∀ escaped,
      dialect.textRules.meaning? escaped spelled = some (Text.widen^[depth] text)) ∧
    (Text.widen^[depth] text = text ↔ depth = 0 ∨ '\n' ∉ text)
  | .raw sql => ∃ raw, dialect.tokens? sql = some raw ∧
      raw.map Token.widened^[depth] <:+: tokens ∧
      (raw.map Token.widened^[depth] = raw ↔
        depth = 0 ∨ ∀ quote spelled, .quoted quote spelled ∈ raw → '\n' ∉ spelled)
  | .type _ => True

private theorem showsIn_of_fragments (hdialect : dialect.Sound) {tokens : List Token} {depth : Nat}
    {content : Written} (hreadable : dialect.Readable content)
    (h : ∀ fragment ∈ dialect.fragments (depth, content), fragment <:+: tokens) :
    dialect.ShowsIn tokens depth content := by
  cases content with
  | constant text =>
    have htoken := (h _ (List.mem_singleton_self _)).subset (List.mem_singleton_self _)
    refine ⟨⟨_, htoken, fun escaped => ?_⟩, Text.widen_iterate_eq_self depth text⟩
    rw [TokenRules.widen_encode_iterate hdialect.texts, TokenRules.meaning?_encode hdialect.texts]
  | raw sql =>
    obtain ⟨raw, hraw⟩ := Option.isSome_iff_exists.mp hreadable
    have hinfix := h _ (List.mem_singleton_self _)
    rw [hraw, Option.getD_some] at hinfix
    exact ⟨raw, hraw, hinfix, Token.map_widened_iterate_eq_self depth raw⟩
  | type type => trivial

-- A text of a query shows what the query writes, so many subqueries deeper.
theorem showsIn_of_reads (hdialect : dialect.Writable) {selects : List Select}
    {written : List (Nat × Written)} (shift : Nat)
    (hwritten : writtenOfAll selects = Sql.deeper^[shift] written)
    (hreadable : ∀ entry ∈ written, dialect.Readable entry.2) (behind : String)
    (hbehind : QuoteFree behind) :
    ∃ tokens, dialect.tokens? (dialect.queryText selects ++ behind) = some tokens ∧
      ∀ depth content, (depth, content) ∈ written →
        dialect.ShowsIn tokens (depth + shift) content := by
  rw [Sql.deeper_iterate] at hwritten
  have hnested : ∀ entry ∈ writtenOfAll selects, dialect.Readable entry.2 := by
    rw [hwritten]
    exact List.forall_mem_map.mpr hreadable
  obtain ⟨tokens, htokens, hshown⟩ := ((reads_queryText hdialect selects hnested).append_quoteFree
    hdialect.sound hbehind).tokens? hdialect.sound
  refine ⟨tokens, htokens, fun depth content hentry => ?_⟩
  have hdeeper : (depth + shift, content) ∈ writtenOfAll selects := by
    rw [hwritten]
    exact List.mem_map_of_mem (f := fun entry : Nat × Written => (entry.1 + shift, entry.2)) hentry
  exact showsIn_of_fragments hdialect.sound (hnested _ hdeeper) fun fragment hfragment =>
    hshown fragment (List.mem_flatMap.mpr ⟨_, hdeeper, hfragment⟩)

private theorem quoteFree_pageClause (hdialect : dialect.Writable) {offset limit : Option Nat}
    {clause : String} (h : dialect.pageClause offset limit = some clause) : QuoteFree clause := by
  have hlimit : ∀ n : Nat, QuoteFree ("LIMIT " ++ toString n) := fun n =>
    QuoteFree.append (by decide) (quoteFree_nat n)
  cases offset with
  | none =>
    cases limit with
    | none => cases h
    | some limit =>
      obtain rfl := Option.some.inj h
      exact hlimit limit
  | some offset =>
    cases limit with
    | none =>
      obtain rfl := Option.some.inj h
      exact hdialect.offset.append (quoteFree_nat offset)
    | some limit =>
      obtain rfl := Option.some.inj h
      exact ((hlimit limit).append (by decide)).append (quoteFree_nat offset)

end Dialect

-- Every constant and every raw query is found in the compiled texts, indented as often as there
-- are subqueries around it.
theorem nested_texts_are_indented {dialect : Dialect} (hdialect : dialect ∈ Dialect.all)
    (query : TypedQuery)
    (hreadable : ∀ entry ∈ Sql.writtenOfAll query.query.lower, dialect.Readable entry.2)
    (offset limit : Option Nat) :
    (∃ tokens, dialect.tokens? (dialect.querySql query offset limit) = some tokens ∧
      ∀ depth content, (depth, content) ∈ Sql.writtenOfAll query.query.lower →
        dialect.ShowsIn tokens (depth + dialect.pageDepth offset limit) content) ∧
    ∃ tokens, dialect.tokens? (dialect.rowCountSql query) = some tokens ∧
      ∀ depth content, (depth, content) ∈ Sql.writtenOfAll query.query.lower →
        dialect.ShowsIn tokens (depth + 1) content := by
  have hwritable := Dialect.writable_of_mem_all hdialect
  constructor
  · unfold Dialect.querySql Dialect.pageDepth
    dsimp only
    split
    · have hlowered := (Query.lower_lowered.holds query.typed).each
      have hwritten := (Sql.writtenOfAll_singleton _).trans
        (Sql.written_rowNumberPage hlowered offset limit)
      have hpage := Dialect.showsIn_of_reads hwritable 3 hwritten hreadable "" (by decide)
      rwa [String.append_empty] at hpage
    · have hplain := Dialect.showsIn_of_reads hwritable 0 rfl hreadable
      split
      · rename_i clause hclause
        have hbehind := QuoteFree.append (a := "\n") (by decide)
          (Dialect.quoteFree_pageClause hwritable hclause)
        have hpage := hplain _ hbehind
        rwa [← String.append_assoc] at hpage
      · have hwhole := hplain "" (by decide)
        rwa [String.append_empty] at hwhole
  · have hwritten := (Sql.writtenOfAll_singleton _).trans (Sql.written_countRows query.query.lower)
    have hcount := Dialect.showsIn_of_reads hwritable 1 hwritten hreadable "" (by decide)
    rwa [String.append_empty] at hcount

def noteColumns : Schema := ⟨[.ofType "text" .string], by decide⟩

def oneTwo : Filter :=
  ⟨.and, [.relation (.binary (.compare .eq) (.column "text") (.constant (.text "one\ntwo")))]⟩

def openNotesSql : String := "SELECT text FROM notes\nWHERE state = 'open'"

-- The open notes of two lines, from a raw query of two lines.
def openNotes : TypedQuery := ⟨.filter (.sql openNotesSql noteColumns) oneTwo, noteColumns, rfl⟩

theorem nested_texts_are_indented_openNotes :
    (∀ entry ∈ Sql.writtenOfAll openNotes.query.lower, Dialect.sqlite.Readable entry.2) ∧
      ∃ tokens, Dialect.sqlite.tokens? (Dialect.sqlite.rowCountSql openNotes) = some tokens ∧
        (∃ spelled, .quoted .text spelled ∈ tokens ∧ ∀ escaped,
          Dialect.sqlite.textRules.meaning? escaped spelled = some "one\n  two".toList) ∧
        ∃ raw, Dialect.sqlite.tokens? openNotesSql = some raw ∧ raw <:+: tokens := by
  have hwritten : Sql.writtenOfAll openNotes.query.lower =
      [(0, .constant "one\ntwo".toList), (1, .raw openNotesSql)] := rfl
  have hraw : Dialect.sqlite.tokens? openNotesSql =
      some [.word "SELECT".toList, .word "text".toList, .word "FROM".toList, .word "notes".toList,
        .word "WHERE".toList, .word "state".toList, .word "=".toList,
        .quoted .text "open".toList] := by
    have hsymbols : Dialect.sqlite.symbols? openNotesSql.toList =
        some ("SELECT text FROM notes\nWHERE state = ".toList.map Symbol.char ++
          [Symbol.quoted .text "open".toList]) := by cbv
    rw [Dialect.tokens?, hsymbols]
    decide
  have hreadable : ∀ entry ∈ Sql.writtenOfAll openNotes.query.lower,
      Dialect.sqlite.Readable entry.2 := by
    rw [hwritten]
    simp [Dialect.Readable, hraw]
  have hsqlite : Dialect.sqlite ∈ Dialect.all := List.mem_cons_self
  obtain ⟨tokens, htokens, hshows⟩ :=
    (nested_texts_are_indented hsqlite openNotes hreadable none none).2
  rw [hwritten] at hshows
  have hconstant := hshows 0 (.constant "one\ntwo".toList) (by simp)
  obtain ⟨raw, hfound, hinfix, hself⟩ := hshows 1 (.raw openNotesSql) (by simp)
  obtain rfl := Option.some.inj (hraw.symm.trans hfound)
  rw [hself.mpr (Or.inr (by simp))] at hinfix
  exact ⟨hreadable, tokens, htokens, hconstant.1, _, hraw, hinfix⟩

def twoLineNotes : TypedQuery := ⟨.filter (.table "notes" noteColumns) oneTwo, noteColumns, rfl⟩

-- No text in the query that counts the rows is the one that they are compared with.
theorem row_count_of_twoLineNotes_loses_constant :
    (0, .constant "one\ntwo".toList) ∈ Sql.writtenOfAll twoLineNotes.query.lower ∧
      ∃ tokens, Dialect.sqlite.tokens? (Dialect.sqlite.rowCountSql twoLineNotes) = some tokens ∧
        ∀ spelled, .quoted .text spelled ∈ tokens → ∀ escaped,
          Dialect.sqlite.textRules.meaning? escaped spelled ≠ some "one\ntwo".toList := by
  have htokens : Dialect.sqlite.tokens? (Dialect.sqlite.rowCountSql twoLineNotes) =
      some [.word "SELECT".toList, .word "COUNT(*)".toList, .word "AS".toList,
        .quoted .name "rowCount".toList, .word "FROM".toList, .word "(".toList,
        .word "SELECT".toList, .quoted .name "text".toList, .word "FROM".toList,
        .quoted .name "notes".toList, .word "WHERE".toList, .quoted .name "text".toList,
        .word "=".toList, .quoted .text "one\n  two".toList, .word ")".toList,
        .word "AS".toList, .quoted .name "_subq0".toList] := by
    have htext : Dialect.sqlite.rowCountSql twoLineNotes =
        "SELECT COUNT(*) AS \"rowCount\"\nFROM (\n  SELECT \"text\"\n  FROM \"notes\"\n  " ++
          "WHERE \"text\" = 'one\n  two'\n) AS \"_subq0\"" := by decide
    have hsymbols : Dialect.sqlite.symbols? (Dialect.sqlite.rowCountSql twoLineNotes).toList =
        some ("SELECT COUNT(*) AS ".toList.map Symbol.char ++
          [Symbol.quoted .name "rowCount".toList] ++
          "\nFROM (\n  SELECT ".toList.map Symbol.char ++ [Symbol.quoted .name "text".toList] ++
          "\n  FROM ".toList.map Symbol.char ++ [Symbol.quoted .name "notes".toList] ++
          "\n  WHERE ".toList.map Symbol.char ++ [Symbol.quoted .name "text".toList] ++
          " = ".toList.map Symbol.char ++ [Symbol.quoted .text "one\n  two".toList] ++
          "\n) AS ".toList.map Symbol.char ++ [Symbol.quoted .name "_subq0".toList]) := by
      rw [htext]
      cbv
    rw [Dialect.tokens?, hsymbols]
    decide
  have hwritten : Sql.writtenOfAll twoLineNotes.query.lower =
      [(0, .constant "one\ntwo".toList)] := rfl
  refine ⟨by rw [hwritten]; exact List.mem_cons_self, _, htokens, fun spelled hmem escaped => ?_⟩
  obtain rfl : spelled = "one\n  two".toList := by simpa using hmem
  have hspelled : "one\n  two".toList =
      "one\n  two".toList.flatMap Dialect.sqlite.texts.encode := by
    decide
  rw [hspelled, TokenRules.meaning?_encode (Dialect.fits_rules List.mem_cons_self).1]
  decide

end PivotQuery
