import PivotQuery.Proofs.Aliases.Spelling
import PivotQuery.Proofs.Lowering.LegalShape
import PivotQuery.Proofs.Paging.OrderColumns

namespace PivotQuery

open Sql (Select)

namespace Sql

-- A select list over a join has columns of its sides and nothing else, and no other has any.
structure Select.PicksSides (select : Select) : Prop where
  ofJoin : select.isJoin = true → ∀ item ∈ select.items, item.exp.isJoinColumn = true
  other : select.isJoin = false → ∀ item ∈ select.items, item.exp.joinColumns = []

variable {select : Select} {selects : List Select} {schema : Schema} {exp : Exp}

theorem Exp.isJoinColumn_cases (h : exp.isJoinColumn = true) : ∃ side id,
    exp = .joinColumn side id ∨ ∃ type, exp = .cast (.joinColumn side id) type := by
  unfold isJoinColumn at h
  split at h
  · exact ⟨_, _, Or.inl rfl⟩
  · exact ⟨_, _, Or.inr ⟨_, rfl⟩⟩
  · cases h

theorem Select.Legal.picksSides (h : select.Legal) : select.PicksSides where
  ofJoin hjoin item hitem := (h.ofJoin hjoin).1 item (List.mem_append_left _ hitem)
  other hjoin item hitem := h.sides hjoin item (List.mem_append_left _ hitem)

-- What a select hides is as legal as what it shows, and its order does not matter here.
theorem Select.Legal.picksSides_exposed (h : select.Legal) :
    { select with orderBy := [] }.exposed.PicksSides where
  ofJoin hjoin := (h.ofJoin hjoin).1
  other hjoin := h.sides hjoin

theorem picksSides_page (hlowered : Lowered selects schema)
    (h : ∀ inner ∈ nestedSelects selects, inner.Legal) {offset limit : Option Nat} :
    ∀ select ∈ nestedSelects [rowNumberPage selects schema offset limit], select.PicksSides := by
  have hplain : ∀ item ∈ schema.columns.map Item.ofColumn, item.exp.joinColumns = [] :=
    List.forall_mem_map.mpr fun column _ => rfl
  refine forall_nested_page.mpr ⟨⟨fun hjoin => ?_, fun _ => hplain⟩, ⟨fun hjoin => ?_, fun _ => ?_⟩,
    ⟨fun hjoin => ?_, fun _ => ?_⟩, ?_⟩
  · cases hjoin
  · cases hjoin
  · exact List.forall_mem_map.mpr fun item _ => rfl
  · cases hjoin
  · exact List.forall_mem_append.mpr ⟨hplain, List.forall_mem_singleton.mpr rfl⟩
  · exact forall_nested_unordered hlowered (fun inner hinner => (h inner hinner).picksSides)
      fun select hselect _ => (h select (mem_nestedSelects_self hselect)).picksSides_exposed

end Sql

namespace Dialect

open Sql

variable {dialect : Dialect} {readable : Prop} {sides : Option SideAliases} {text : String}
  {tokens : List Token}

-- The scope in which the select list over a join is written.
def scopeOf (dialect : Dialect) : Option SideAliases → Scope
  | none => .plain
  | some own => .join (dialect.quoteIdentifier own.left) (dialect.quoteIdentifier own.right)

private theorem spellsExp_of_joinColumns_eq_nil {exp : Exp} (h : exp.joinColumns = [])
    (tokens : List Token) : dialect.SpellsExp sides exp tokens := by
  unfold SpellsExp
  split
  · cases h
  · cases h
  · exact h

private theorem separates_as : Separates " AS " (Token.words ["AS"]) :=
  ⟨by decide, by decide, fun _ => rfl⟩

theorem separates_union : Separates "\nUNION ALL\n" (Token.words ["UNION", "ALL"]) :=
  ⟨by decide, by decide, fun _ => rfl⟩

-- Where there is a partner for each member there is a list of them.
theorem exists_parts {α : Type} {P : α → List Token → Prop} {Q : α → List Token → Prop}
    {members : List α} (h : ∀ member ∈ members, ∃ part, P member part ∧ Q member part) :
    ∃ parts, List.Forall₂ P members parts ∧ List.Forall₂ Q members parts := by
  choose! part hP hQ using h
  refine ⟨members.map part, ?_, ?_⟩
  · exact List.forall₂_map_right_iff.mpr (List.forall₂_same.mpr hP)
  · exact List.forall₂_map_right_iff.mpr (List.forall₂_same.mpr hQ)

section Written

variable (hdialect : dialect ∈ all)
include hdialect

theorem names_encode (id : String) :
    dialect.Names (.quoted .name (id.toList.flatMap dialect.identifiers.encode)) id :=
  ⟨_, rfl, fun _ => TokenRules.meaning?_encode (fits_rules hdialect).2 id.toList⟩

theorem exists_quoted (id : String) : ∃ name, dialect.Names name id ∧
    dialect.FallsClosed readable (dialect.quoteIdentifier id) [name] :=
  ⟨_, names_encode hdialect id, falls_quoteIdentifier (writable_of_mem_all hdialect).sound id⟩

theorem exists_named (h : dialect.Falls readable text tokens) (id : String) :
    ∃ name, dialect.Names name id ∧ dialect.FallsClosed readable
      (text ++ " AS " ++ dialect.quoteIdentifier id) (tokens ++ Token.words ["AS"] ++ [name]) := by
  refine ⟨_, names_encode hdialect id, ?_⟩
  rw [List.append_assoc]
  exact h.named (writable_of_mem_all hdialect).sound id

private theorem exists_qualified (own id : String) :
    ∃ tokens, dialect.Qualifies own id tokens ∧ dialect.Falls readable
      (dialect.quoteIdentifier own ++ "." ++ dialect.quoteIdentifier id) tokens := by
  have hfalls : dialect.Falls readable
      ("" ++ (dialect.quoteIdentifier own ++ "." ++ dialect.quoteIdentifier id)) _ :=
    falls_qualified (writable_of_mem_all hdialect).sound (by decide) own id
  rw [String.empty_append] at hfalls
  exact ⟨_, ⟨_, _, names_encode hdialect own, names_encode hdialect id, rfl⟩, hfalls⟩

private theorem exists_qualifiedCast (own id : String) {type : ColumnType}
    (htype : readable → dialect.Readable (.type type)) :
    ∃ column behind, dialect.Qualifies own id column ∧ dialect.Falls readable
      (dialect.cast (dialect.quoteIdentifier own ++ "." ++ dialect.quoteIdentifier id) type)
      (Token.words ["CAST("] ++ column ++ Token.words ["AS"] ++ behind) := by
  have hsound := (writable_of_mem_all hdialect).sound
  obtain ⟨behind, hbehind⟩ : ∃ behind,
      dialect.Falls readable (dialect.typeName type ++ ")") behind :=
    exists_falls fun h => (reads_of_tokens? (htype h)).append_quoteFree hsound (by decide)
  refine ⟨_, behind, ⟨_, _, names_encode hdialect own, names_encode hdialect id, rfl⟩, ?_⟩
  have hcast := (falls_qualified hsound (by decide : QuoteFree "CAST(") own id).between hsound
    separates_as hbehind
  rwa [← String.append_assoc] at hcast

private theorem exists_sideExp {own : SideAliases} {exp : Exp} (hexp : exp.isJoinColumn = true)
    (hreadable : readable → ∀ content ∈ exp.written, dialect.Readable content) :
    ∃ tokens, dialect.SpellsExp (some own) exp tokens ∧
      dialect.Falls readable (dialect.expText (dialect.scopeOf (some own)) exp) tokens := by
  have hside : ∀ side id, dialect.expText (dialect.scopeOf (some own)) (.joinColumn side id) =
      dialect.quoteIdentifier (own.of side) ++ "." ++ dialect.quoteIdentifier id := by
    intro side id
    cases side <;> rfl
  obtain ⟨side, id, rfl | ⟨type, rfl⟩⟩ := Exp.isJoinColumn_cases hexp
  · obtain ⟨tokens, hqualifies, hfalls⟩ := exists_qualified hdialect (own.of side) id
    refine ⟨tokens, ⟨own, rfl, hqualifies⟩, ?_⟩
    rw [hside]
    exact hfalls
  · obtain ⟨column, behind, hqualifies, hfalls⟩ := exists_qualifiedCast hdialect (own.of side) id
      fun h => hreadable h (.type type) List.mem_cons_self
    refine ⟨_, ⟨own, rfl, column, behind, hqualifies, rfl⟩, ?_⟩
    rw [← hside] at hfalls
    exact hfalls

theorem exists_item {item : Item} (hjoin : sides.isSome = true → item.exp.isJoinColumn = true)
    (hother : sides.isSome = false → item.exp.joinColumns = [])
    (hreadable : readable → ∀ content ∈ item.written, dialect.Readable content) :
    ∃ tokens, dialect.SpellsItem sides item tokens ∧
      dialect.FallsClosed readable (dialect.itemText (dialect.scopeOf sides) item) tokens := by
  rw [itemText_eq]
  cases sides with
  | none =>
    have hnone := hother rfl
    split
    · obtain ⟨name, hname, hfalls⟩ := exists_quoted hdialect item.name
      exact ⟨_, ⟨name, hname, Or.inl ⟨rfl, hnone⟩⟩, hfalls⟩
    · have hscope : dialect.ReadsScope (dialect.scopeOf none) := trivial
      obtain ⟨exp, hexp⟩ : ∃ exp,
          dialect.Falls readable (dialect.itemExpText (dialect.scopeOf none) item) exp :=
        exists_falls fun h => (reads_itemExpText (writable_of_mem_all hdialect) hscope item
          (hreadable h)).mono (List.nil_subset _)
      obtain ⟨name, hname, hfalls⟩ := exists_named hdialect hexp item.name
      have hspells : dialect.SpellsExp none item.exp exp :=
        spellsExp_of_joinColumns_eq_nil hnone exp
      exact ⟨_, ⟨name, hname, Or.inr ⟨exp, hspells, rfl⟩⟩, hfalls⟩
  | some own =>
    have hside := hjoin rfl
    obtain ⟨hidentity, htext, hwritten⟩ : item.isIdentity = false ∧
        dialect.itemExpText (dialect.scopeOf (some own)) item =
          dialect.expText (dialect.scopeOf (some own)) item.exp ∧
        item.written = item.exp.written := by
      obtain ⟨exp, type, name⟩ := item
      obtain ⟨side, id, rfl | ⟨type, rfl⟩⟩ := Exp.isJoinColumn_cases hside <;> exact ⟨rfl, rfl, rfl⟩
    obtain ⟨exp, hspells, hexp⟩ : ∃ tokens, dialect.SpellsExp (some own) item.exp tokens ∧
        dialect.Falls readable (dialect.expText (dialect.scopeOf (some own)) item.exp) tokens :=
      exists_sideExp hdialect hside fun h => hwritten ▸ hreadable h
    rw [← htext] at hexp
    obtain ⟨name, hname, hfalls⟩ := exists_named hdialect hexp item.name
    rw [if_neg (by simp [hidentity])]
    exact ⟨_, ⟨name, hname, Or.inr ⟨exp, hspells, rfl⟩⟩, hfalls⟩

-- The operator between two keys, and what is written for a join without keys.
private theorem separates_nullSafe :
    Separates (" " ++ dialect.nullSafeOperator ++ " ") dialect.sameKeyWords := by
  simp only [all, List.mem_cons, List.not_mem_nil, or_false] at hdialect
  rcases hdialect with rfl | rfl | rfl | rfl | rfl <;>
    exact ⟨by decide, by decide, fun _ => rfl⟩

private theorem alwaysWords_eq :
    dialect.alwaysWords = Symbol.tokens ((dialect.boolLiteral true).toList.map .char) := by
  have hall : ∀ dialect ∈ all,
      dialect.alwaysWords = Symbol.tokens ((dialect.boolLiteral true).toList.map .char) := by
    decide
  exact hall dialect hdialect

private theorem exists_matchesKey (own : SideAliases) (key : String) :
    ∃ tokens, dialect.MatchesKey own key tokens ∧ dialect.Falls readable (dialect.nullSafeEq
      (dialect.quoteIdentifier own.left ++ "." ++ dialect.quoteIdentifier key)
      (dialect.quoteIdentifier own.right ++ "." ++ dialect.quoteIdentifier key)) tokens := by
  obtain ⟨lhs, hlhs, hl⟩ := exists_qualified hdialect own.left key
  obtain ⟨rhs, hrhs, hr⟩ := exists_qualified hdialect own.right key
  have htext : ∀ a b,
      dialect.nullSafeEq a b = a ++ (" " ++ dialect.nullSafeOperator ++ " ") ++ b := by
    simp [nullSafeEq, String.append_assoc]
  rw [htext]
  exact ⟨_, ⟨lhs, rhs, hlhs, hrhs, rfl⟩,
    hl.between (writable_of_mem_all hdialect).sound (separates_nullSafe hdialect) hr⟩

theorem exists_matches (own : SideAliases) (on : List String) :
    ∃ tokens, dialect.Matches own on tokens ∧ dialect.Falls readable (dialect.onText
      (dialect.quoteIdentifier own.left) (dialect.quoteIdentifier own.right) on) tokens := by
  have hwritable := writable_of_mem_all hdialect
  unfold Matches onText
  by_cases hnone : on = []
  · subst hnone
    refine ⟨dialect.alwaysWords, rfl, ?_⟩
    rw [alwaysWords_eq hdialect]
    exact falls_quoteFree hwritable.sound (hwritable.booleans true)
  · obtain ⟨parts, hspells, hfalls⟩ :=
      exists_parts fun key (_ : key ∈ on) => exists_matchesKey hdialect own key
    have hand : Separates " AND " (Token.words ["AND"]) :=
      ⟨by decide, by decide, fun _ => rfl⟩
    simp only [hnone, if_false, List.isEmpty_iff]
    refine ⟨_, ⟨parts, hspells, rfl⟩, falls_intercalate hwritable.sound hand ?_⟩
    exact List.forall₂_map_left_iff.mpr hfalls

end Written

end Dialect

end PivotQuery
