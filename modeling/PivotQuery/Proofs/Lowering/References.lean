import PivotQuery.Proofs.Lowering.Scope

namespace PivotQuery

open Sql (Select)

namespace Query

theorem lower_resolves : AcceptedCases fun query _ => Sql.Resolves query.lower where
  table name schema :=
    Sql.resolves_single
      ⟨Select.Scoped.plain (by simp [Sql.Source.queries]) rfl fun _ hid => hid, by
        simp [Select.plain, Sql.Source.nested]⟩
  sql text schema :=
    Sql.resolves_single
      ⟨Select.Scoped.plain (by simp [Sql.Source.queries]) rfl fun _ hid => hid, by
        simp [Select.plain, Sql.Source.nested]⟩
  project {input ids schema result} hinput h ih := by
    have hlowered := lower_lowered.holds hinput
    rw [lower, schema_of_infer hinput]
    exact Sql.resolves_single ((Select.Resolved.reuseOrdered _ hlowered ih).project
      (hlowered.projected h))
  filter {input condition schema result} hinput h ih := by
    have hlowered := lower_lowered.holds hinput
    rw [lower, schema_of_infer hinput]
    refine Sql.resolves_single ((Select.Resolved.reuseOrdered _ hlowered ih).filter ?_)
    exact Select.passesThrough_filterInput (Schema.filtered_ok h).2
  extend {input id exp options schema result} hinput h ih := by
    have hlowered := lower_lowered.holds hinput
    rw [lower, schema_of_infer hinput]
    refine Sql.resolves_single ((Select.Resolved.reuseOrdered _ hlowered ih).extend ?_
      (hlowered.extended h))
    exact Select.passesThrough_extendInput (Schema.extended_ok h).2.1
  groupBy {input keys aggs schema result} hinput h ih := by
    have hlowered := lower_lowered.holds hinput
    rw [lower, schema_of_infer hinput]
    refine Sql.resolves_single ((Select.Resolved.reuse _ hlowered ih).group ?_
      (hlowered.grouped h))
    exact Select.passesThrough_groupByInput (Schema.grouped_mem h)
  join {lhs rhs on type left right result} hleft hright h ihleft ihright := by
    rw [lower, schema_of_infer (infer_join hleft hright h), schema_of_infer hleft]
    exact Sql.resolves_single (Select.Resolved.ofJoin (lower_lowered.holds hleft)
      (lower_lowered.holds hright) h ihleft ihright)
  concat {branches schemas result} hbranches h := by
    have hinfer := infer_concat (hbranches.imp fun _ _ hbranch => hbranch.1) h
    have hself := lower_lowered.holds hinfer
    rw [lower, schema_of_infer hinfer] at hself ⊢
    apply Sql.resolves_iff.mpr
    intro select hselect
    have hlowered := hself.each select hselect
    obtain ⟨query, hquery, own, hmem, rfl⟩ := mem_lowerBranches.mp hselect
    obtain ⟨schema, -, hinfer, ih⟩ := exists_mem_right hbranches hquery
    rw [schema_of_infer hinfer] at hmem
    have hbranch := lower_lowered.holds hinfer
    have hresolved : own.Resolved :=
      Select.branch_cases hbranch (fun own hown _ => Sql.resolves_iff.mp ih own hown)
        (Select.Resolved.wrap hbranch ih) own hmem
    exact hresolved.align hlowered
  sort {input keys schema result} hinput h ih := by
    have hlowered := lower_lowered.holds hinput
    rw [lower, schema_of_infer hinput]
    exact Sql.resolves_single ((Select.Resolved.reuse _ hlowered ih).sort
      (hlowered.sorted (Schema.sorted_ok h).2))
  mapColumns {input changes schema result} hinput h ih := by
    have hlowered := lower_lowered.holds hinput
    rw [lower, schema_of_infer hinput]
    exact Sql.resolves_single ((Select.Resolved.reuseOrdered _ hlowered ih).mapColumns
      (hlowered.mapped h))

end Query

-- Nothing in the selects of an accepted query refers to a column that is not there.
theorem every_reference_resolves (query : TypedQuery) : Sql.Resolves query.query.lower :=
  Query.lower_resolves.holds query.typed

end PivotQuery
