import PivotQuery.Proofs.Lowering.Scope

namespace PivotQuery

open Sql (Select)

namespace Sql

variable {P : Select → Prop} {selects : List Select} {select : Select} {schema : Schema}

theorem mem_nestedSelects_self (h : select ∈ selects) : select ∈ nestedSelects selects :=
  mem_nestedSelects.mpr ⟨select, h, mem_nested.mpr (Or.inl rfl)⟩

theorem forall_nested_iff :
    (∀ inner ∈ select.nested, P inner) ↔ P select ∧ ∀ inner ∈ select.source.nested, P inner := by
  simp [mem_nested]

theorem forall_nestedSelects_iff :
    (∀ inner ∈ nestedSelects selects, P inner) ↔
      ∀ select ∈ selects, ∀ inner ∈ select.nested, P inner := by
  constructor
  · intro h select hselect inner hinner
    exact h inner (mem_nestedSelects.mpr ⟨select, hselect, hinner⟩)
  · intro h inner hinner
    obtain ⟨select, hselect, hinner⟩ := mem_nestedSelects.mp hinner
    exact h select hselect inner hinner

theorem forall_nestedSelects_singleton :
    (∀ inner ∈ nestedSelects [select], P inner) ↔
      P select ∧ ∀ inner ∈ select.source.nested, P inner := by
  simp [nestedSelects, forall_nested_iff]

namespace Select

-- What is inside the select of an operator is inside the selects of its input, or is one of
-- these itself, with what it hides written out if it is sorted.

theorem nested_source_reuse (mergeable : Select → Bool)
    (h : ∀ inner ∈ nestedSelects selects, P inner) :
    ∀ inner ∈ (reuse mergeable schema selects).source.nested, P inner := by
  refine reuse_cases (P := fun select => ∀ inner ∈ select.source.nested, P inner)
    (fun select hselect _ => ?_) h
  subst hselect
  exact (forall_nestedSelects_singleton.mp h).2

theorem nested_source_reuseOrdered (mergeable : Select → Bool)
    (h : ∀ inner ∈ nestedSelects selects, P inner)
    (hinner : ∀ select ∈ selects, P select.exposedInner) :
    ∀ inner ∈ (reuseOrdered mergeable schema selects).source.nested, P inner := by
  refine reuseOrdered_cases (P := fun select => ∀ inner ∈ select.source.nested, P inner)
    (fun select hselect _ => ?_) h (fun select hselect => ?_)
  · subst hselect
    exact (forall_nestedSelects_singleton.mp h).2
  · subst hselect
    exact forall_nestedSelects_singleton.mpr
      ⟨hinner select List.mem_cons_self, (forall_nestedSelects_singleton.mp h).2⟩

end Select

end Sql

namespace Query

section Nested

variable {P : Select → Prop} {R : Query → Prop} {query input : Query} {schema result : Schema}
variable {select : Select} {mergeable : Select → Bool}

-- An operator on top of one input, which it merges with or wraps with its order.
theorem forall_nested_onOrdered
    (top : ∀ {query : Query} {schema : Schema}, query.infer = .ok schema → query.Everywhere R →
      ∀ select ∈ query.lower, P select ∧ P select.exposedInner)
    (hinput : input.infer = .ok schema) (hquery : query.infer = .ok result)
    (hnodes : query.nodes = query :: input.nodes) (hlower : query.lower = [select])
    (hsource : select.source = (Select.reuseOrdered mergeable input.schema input.lower).source)
    (ih : input.Everywhere R → ∀ inner ∈ Sql.nestedSelects input.lower, P inner)
    (hR : query.Everywhere R) : ∀ inner ∈ Sql.nestedSelects query.lower, P inner := by
  have hinner := hR.input hnodes
  have hself := top hquery hR select (hlower ▸ List.mem_cons_self)
  rw [hlower, Sql.forall_nestedSelects_singleton, hsource]
  exact ⟨hself.1, Select.nested_source_reuseOrdered _ (ih hinner) fun select hselect =>
    (top hinput hinner select hselect).2⟩

-- An operator on top of one input, whose order does not matter to it.
theorem forall_nested_onInput
    (top : ∀ {query : Query} {schema : Schema}, query.infer = .ok schema → query.Everywhere R →
      ∀ select ∈ query.lower, P select ∧ P select.exposedInner)
    (hquery : query.infer = .ok result)
    (hnodes : query.nodes = query :: input.nodes) (hlower : query.lower = [select])
    (hsource : select.source = (Select.reuse mergeable input.schema input.lower).source)
    (ih : input.Everywhere R → ∀ inner ∈ Sql.nestedSelects input.lower, P inner)
    (hR : query.Everywhere R) : ∀ inner ∈ Sql.nestedSelects query.lower, P inner := by
  have hself := top hquery hR select (hlower ▸ List.mem_cons_self)
  rw [hlower, Sql.forall_nestedSelects_singleton, hsource]
  exact ⟨hself.1, Select.nested_source_reuse _ (ih (hR.input hnodes))⟩

-- What holds of the selects of each query inside an accepted one, also when they have become
-- subqueries with what they hide, holds of all selects in the lowering of that query. `R` is
-- what is known of the queries.
theorem forall_nested_lower
    (top : ∀ {query : Query} {schema : Schema}, query.infer = .ok schema → query.Everywhere R →
      ∀ select ∈ query.lower, P select ∧ P select.exposedInner) :
    AcceptedCases fun query _ => query.Everywhere R →
      ∀ select ∈ Sql.nestedSelects query.lower, P select where
  table name schema hR :=
    Sql.forall_nestedSelects_singleton.mpr ⟨(top rfl hR _ List.mem_cons_self).1, by
      simp [Select.plain, Sql.Source.nested]⟩
  sql text schema hR :=
    Sql.forall_nestedSelects_singleton.mpr ⟨(top rfl hR _ List.mem_cons_self).1, by
      simp [Select.plain, Sql.Source.nested]⟩
  project hinput h ih :=
    forall_nested_onOrdered top hinput (bind_eq_ok.mpr ⟨_, hinput, h⟩) rfl rfl rfl ih
  filter hinput h ih :=
    forall_nested_onOrdered top hinput (bind_eq_ok.mpr ⟨_, hinput, h⟩) rfl rfl rfl ih
  extend hinput h ih :=
    forall_nested_onOrdered top hinput (bind_eq_ok.mpr ⟨_, hinput, h⟩) rfl rfl rfl ih
  groupBy hinput h ih :=
    forall_nested_onInput top (bind_eq_ok.mpr ⟨_, hinput, h⟩) rfl rfl rfl ih
  join hleft hright h ihleft ihright hR := by
    obtain ⟨hl, hr⟩ := hR.sides
    exact Sql.forall_nestedSelects_singleton.mpr
      ⟨(top (infer_join hleft hright h) hR _ List.mem_cons_self).1,
        List.forall_mem_append.mpr ⟨ihleft hl, ihright hr⟩⟩
  concat {branches schemas result} hbranches h hR := by
    have hinfer := infer_concat (hbranches.imp fun _ _ hbranch => hbranch.1) h
    refine Sql.forall_nestedSelects_iff.mpr fun select hselect =>
      Sql.forall_nested_iff.mpr ⟨(top hinfer hR select hselect).1, ?_⟩
    obtain ⟨query, hquery, own, hmem, rfl⟩ := mem_lowerBranches.mp hselect
    obtain ⟨schema, -, hinfer, ih⟩ := exists_mem_right hbranches hquery
    have hall := ih (hR.branch hquery)
    rw [schema_of_infer hinfer] at hmem
    exact Select.branch_cases (P := fun select => ∀ inner ∈ select.source.nested, P inner)
      (lower_lowered.holds hinfer)
      (fun own hown _ => (Sql.forall_nested_iff.mp
        (Sql.forall_nestedSelects_iff.mp hall own hown)).2) hall own hmem
  sort hinput h ih :=
    forall_nested_onInput top (bind_eq_ok.mpr ⟨_, hinput, h⟩) rfl rfl rfl ih
  mapColumns hinput h ih :=
    forall_nested_onOrdered top hinput (bind_eq_ok.mpr ⟨_, hinput, h⟩) rfl rfl rfl ih

end Nested

end Query

end PivotQuery
