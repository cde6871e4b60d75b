import PivotQuery.Proofs.Tokens.Printed

namespace PivotQuery.Dialect

open Sql

variable {dialect : Dialect} {texts : List String} {fragments : List (List (List Token))}

-- The texts show what was written by the selects that they are texts of.
def ReadsAll (dialect : Dialect) (texts : List String) (written : List (Nat × Written)) : Prop :=
  ∃ fragments, List.Forall₂ dialect.Reads texts fragments ∧
    fragments.flatten = written.flatMap dialect.fragments

theorem readable_deeper {written : List (Nat × Written)} :
    (∀ entry ∈ deeper written, dialect.Readable entry.2) ↔
      ∀ entry ∈ written, dialect.Readable entry.2 :=
  List.forall_mem_map

section Nested

variable (hdialect : dialect.Writable)
include hdialect

theorem ReadsAll.unionText {written : List (Nat × Written)} (h : dialect.ReadsAll texts written) :
    dialect.Reads (unionText texts) (written.flatMap dialect.fragments) := by
  obtain ⟨fragments, hparts, hflatten⟩ := h
  rw [← hflatten]
  exact reads_intercalate hdialect.sound "\nUNION ALL\n" (by decide) (by decide)
    hparts

-- What the selects of a subquery show is shown outside too, indented.
theorem ReadsAll.parenthesized {written : List (Nat × Written)}
    (h : dialect.ReadsAll texts written) :
    dialect.Reads (parenthesized (Dialect.unionText texts))
      ((deeper written).flatMap dialect.fragments) := by
  obtain ⟨tokens, htokens, hshown⟩ := (h.unionText hdialect).tokens? hdialect.sound
  rw [fragments_deeper]
  exact reads_parenthesized hdialect.sound htokens hshown

private theorem reads_rawSource {sql : String} (hsql : dialect.Readable (.raw sql))
    (name : String) :
    dialect.Reads (parenthesized sql ++ " AS " ++ dialect.quoteIdentifier name)
      (dialect.fragments (1, .raw sql)) := by
  obtain ⟨tokens, htokens⟩ := Option.isSome_iff_exists.mp hsql
  have hwhole : ∀ fragment ∈ [tokens], fragment <:+: tokens := by simp
  have hraw := reads_parenthesized hdialect.sound htokens hwhole
  have hnamed := reads_named hdialect hraw name
  simpa [fragments, htokens] using hnamed

private theorem reads_joinSource {leftTexts rightTexts : List String}
    {lhs rhs : List (Nat × Written)}
    (hleft : dialect.ReadsAll leftTexts lhs) (hright : dialect.ReadsAll rightTexts rhs)
    (left right : String) (type : JoinType) (on : List String) :
    dialect.Reads (parenthesized (unionText leftTexts) ++ " AS " ++ dialect.quoteIdentifier left ++
        "\n" ++ joinKeyword type ++ " " ++ parenthesized (unionText rightTexts) ++ " AS " ++
          dialect.quoteIdentifier right ++ "\nON " ++
            dialect.onText (dialect.quoteIdentifier left) (dialect.quoteIdentifier right) on)
      ((deeper (lhs ++ rhs)).flatMap dialect.fragments) := by
  have hkeyword : QuoteFree (joinKeyword type) := by cases type <;> decide
  have hjoin := ((reads_named hdialect (hleft.parenthesized hdialect) left).append_quoteFree
    hdialect.sound (b := "\n") (by decide)).append_quoteFree hdialect.sound hkeyword
  have hboth := hjoin.between hdialect.sound " " (by decide) (by decide)
    (hright.parenthesized hdialect)
  have hon := reads_onText hdialect (reads_quoteIdentifier hdialect.sound left)
    (reads_quoteIdentifier hdialect.sound right) on
  have hsource := (reads_named hdialect hboth right).between hdialect.sound
    "\nON " (by decide) (by decide) hon
  rwa [List.append_nil, ← List.flatMap_append, deeper, deeper, ← List.map_append] at hsource

theorem reads_select {items : List Item} {condition : Option Filter} {groupBy : List String}
    {orderBy : List SortKey} {sourceText : String} {scope : Scope} {source : List (List Token)}
    (hscope : dialect.ReadsScope scope) (hsource : dialect.Reads sourceText source)
    (hitems : ∀ content ∈ items.flatMap Item.written, dialect.Readable content) :
    dialect.Reads ("SELECT " ++ commaSeparated (items.map (dialect.itemText scope)) ++ "\nFROM " ++
        sourceText ++ dialect.tailText condition groupBy orderBy)
      (dialect.fragmentsAtTop (items.flatMap Item.written ++
        ((condition.map Filter.texts).getD []).map Written.constant) ++ source) := by
  have hlist := reads_intercalate_map hdialect.sound ", " (by decide) (by decide)
    items fun item hitem => reads_itemText hdialect hscope item fun content hcontent =>
      hitems content (List.mem_flatMap.mpr ⟨item, hitem, hcontent⟩)
  have hfrom := (hlist.prepend hdialect.sound (a := "SELECT ") (by decide)).between hdialect.sound
    "\nFROM " (by decide) (by decide) hsource
  obtain ⟨htail, hopens⟩ := reads_tailText hdialect condition groupBy orderBy
  refine (hfrom.append hdialect.sound htail hopens).mono ?_
  rw [fragmentsAtTop_append, fragmentsAtTop_flatMap, fragmentsAtTop_constants]
  intro fragment hfragment
  simp only [List.mem_append] at hfragment ⊢
  exact or_right_comm.mp hfragment

theorem reads_selectTexts (selects : List Select) (next : Nat)
    (hreadable : ∀ entry ∈ writtenOfAll selects, dialect.Readable entry.2) :
    dialect.ReadsAll (dialect.selectTexts selects next).1 (writtenOfAll selects) := by
  refine (selectText.mutual_induct dialect
    (fun select next => (∀ entry ∈ select.written, dialect.Readable entry.2) →
      dialect.Reads (dialect.selectText select next).1 (select.written.flatMap dialect.fragments))
    (fun source next => (∀ entry ∈ source.written, dialect.Readable entry.2) →
      dialect.Reads (dialect.sourceText source next).1.1
          (source.written.flatMap dialect.fragments) ∧
        dialect.ReadsScope (dialect.sourceText source next).1.2)
    (fun selects next => (∀ entry ∈ writtenOfAll selects, dialect.Readable entry.2) →
      dialect.ReadsAll (dialect.selectTexts selects next).1 (writtenOfAll selects))
    ?select ?table ?sql ?subquery ?join ?nil ?cons).2.2 selects next hreadable
  case select =>
    intro items source condition groupBy orderBy hidden next sourceText scope behind hsource ih
      hreadable
    rw [Select.written] at hreadable ⊢
    obtain ⟨htop, hbelow⟩ := List.forall_mem_append.mp hreadable
    obtain ⟨hreads, hscope⟩ := ih hbelow
    rw [hsource] at hreads hscope
    simp only [selectText, hsource]
    rw [List.flatMap_append]
    refine reads_select hdialect hscope hreads fun content hcontent => htop (0, content) ?_
    exact List.mem_map_of_mem (List.mem_append_left _ hcontent)
  case table =>
    intro name schema next _
    exact ⟨reads_quoteIdentifier hdialect.sound name, trivial⟩
  case sql =>
    intro text schema next hreadable
    have hsource := reads_rawSource hdialect (hreadable (1, .raw text) (by simp [Source.written]))
      (aliasName next)
    rw [Source.written, List.flatMap_singleton]
    exact ⟨hsource, trivial⟩
  case subquery =>
    intro selects next texts behind htexts ih hreadable
    rw [Source.written] at hreadable ⊢
    have hselects := ih (readable_deeper.mp hreadable)
    rw [htexts] at hselects
    simp only [sourceText, htexts]
    exact ⟨reads_named hdialect (hselects.parenthesized hdialect) (aliasName behind), trivial⟩
  case join =>
    intro lhs rhs type on next leftTexts between hlhs rightTexts behind hrhs ihl ihr hreadable
    rw [Source.written] at hreadable ⊢
    obtain ⟨hleft, hright⟩ := List.forall_mem_append.mp (readable_deeper.mp hreadable)
    have hl := ihl hleft
    have hr := ihr hright
    rw [hlhs] at hl
    rw [hrhs] at hr
    simp only [sourceText, hlhs, hrhs]
    exact ⟨reads_joinSource hdialect hl hr (aliasName between) (aliasName behind) type on,
      reads_quoteIdentifier hdialect.sound _, reads_quoteIdentifier hdialect.sound _⟩
  case nil =>
    intro next _
    exact ⟨[], .nil, rfl⟩
  case cons =>
    intro select rest next text between htext texts behind htexts ih ihrest hreadable
    rw [writtenOfAll] at hreadable ⊢
    obtain ⟨hselect, hrest⟩ := List.forall_mem_append.mp hreadable
    have hfirst := ih hselect
    obtain ⟨fragments, hparts, hflatten⟩ := ihrest hrest
    rw [htext] at hfirst
    rw [htexts] at hparts
    simp only [selectTexts, htext, htexts]
    refine ⟨_, .cons hfirst hparts, ?_⟩
    rw [List.flatten_cons, hflatten, List.flatMap_append]

theorem reads_queryText (selects : List Select)
    (hreadable : ∀ entry ∈ writtenOfAll selects, dialect.Readable entry.2) :
    dialect.Reads (dialect.queryText selects)
      ((writtenOfAll selects).flatMap dialect.fragments) :=
  (reads_selectTexts hdialect selects 0 hreadable).unionText hdialect

end Nested

end PivotQuery.Dialect
