import PivotQuery.Proofs.Lowering.Operators
import PivotQuery.Query.Typed

namespace PivotQuery

open Sql (Select)

namespace Query

-- Where the lowering of an operator looks columns up and would leave out what it does not
-- find, it finds all of them: what is projected and what the order needs of the rest, what
-- is grouped and aggregated, and in each branch what the union has.
def FindsColumns : Query → Prop
  | .project input ids =>
    let select := Select.reuseOrdered (Select.admitsProject ids) input.schema input.lower
    (∀ id ∈ ids, (select.item? id).isSome) ∧
      ∀ key ∈ select.orderBy, key.column ∉ ids → select.hides key.column = false →
        (select.item? key.column).isSome
  | .groupBy input keys aggs =>
    (∀ id ∈ keys, (Select.keyItem? input.schema id).isSome) ∧
      ∀ aggregate ∈ aggs, (Select.aggregateItem? input.schema aggregate).isSome
  | .concat branches =>
    ∀ query ∈ branches, ∀ select ∈ Select.branch query.schema query.lower,
      ∀ column ∈ (Query.concat branches).schema.columns, (select.item? column.id).isSome
  | _ => True

theorem findsColumns : AcceptedCases fun query _ => query.FindsColumns where
  table _ _ := trivial
  sql _ _ := trivial
  filter _ _ _ := trivial
  extend _ _ _ := trivial
  join _ _ _ _ _ := trivial
  sort _ _ _ := trivial
  mapColumns _ _ _ := trivial
  project {input ids schema result} hinput h _ := by
    have hlowered := Select.Lowered.reuseOrdered (Select.admitsProject ids)
      (lower_lowered.holds hinput).each
    simp only [FindsColumns, schema_of_infer hinput]
    refine ⟨fun id hid => ?_, fun key hkey _ hvisible => ?_⟩
    · exact hlowered.fits.item?_isSome (Schema.project_mem h id hid)
    · rcases hlowered.keys key hkey with hid | hhides
      · exact hlowered.fits.item?_isSome hid
      · simp [hvisible] at hhides
  groupBy {input keys aggs schema result} hinput h _ := by
    obtain ⟨keyColumns, aggColumns, -, hkeys, haggs⟩ := Schema.grouped_ok h
    simp only [FindsColumns, schema_of_infer hinput]
    refine ⟨fun id hid => ?_, fun aggregate haggregate => ?_⟩
    · obtain ⟨column, -, hcolumn⟩ := exists_mem_right hkeys hid
      simp [Select.keyItem?, Schema.type?, hcolumn]
    · obtain ⟨column, -, input, hinput, -⟩ := exists_mem_right haggs haggregate
      simp [Select.aggregateItem?, Schema.type?, hinput]
  concat {branches schemas result} hbranches h := by
    have hself := infer_concat (hbranches.imp fun _ _ hbranch => hbranch.1) h
    obtain ⟨-, hstacks⟩ := Schema.concatenated_ok h
    simp only [FindsColumns, schema_of_infer hself]
    intro query hquery select hselect column hcolumn
    obtain ⟨schema, hschema, hinfer, -⟩ := exists_mem_right hbranches hquery
    have hlowered := lower_lowered.holds hinfer
    rw [schema_of_infer hinfer] at hselect
    have hfits := (Select.Lowered.branch hlowered select hselect).1.fits
    exact hfits.item?_isSome ((hstacks schema hschema).mem_ids hcolumn)

end Query

-- Inference and lowering agree: each select of a query has the columns of its schema, in
-- their order and with types that stand for the schema's, and no lookup on the way fails.
theorem select_lists_agree_with_schema (query : TypedQuery) :
    query.schema.ids.Nodup ∧
      (∀ id ∈ query.schema.ids, ∃ column ∈ query.schema.columns,
        query.schema.get? id = some column ∧ column.id = id) ∧
      query.query.lower ≠ [] ∧
      (∀ select ∈ query.query.lower, select.items.map Sql.Item.name = query.schema.ids ∧
        List.Forall₂ (fun item column => item.type.sameAs column.type = true)
          select.items query.schema.columns) ∧
      ∀ node ∈ query.query.nodes, node.FindsColumns := by
  have hlowered := Query.lower_lowered.holds query.typed
  refine ⟨query.schema.distinct, fun id hid => ?_, hlowered.nonempty, fun select hselect => ?_,
    fun node hnode => ?_⟩
  · obtain ⟨column, hcolumn⟩ := Schema.exists_get? hid
    obtain ⟨hmem, hid⟩ := Schema.get?_eq_some.mp hcolumn
    exact ⟨column, hmem, hcolumn, hid⟩
  · have hfits := (hlowered.each select hselect).fits
    exact ⟨hfits.names_eq, hfits.imp fun _ _ hitem => hitem.2⟩
  · obtain ⟨result, hresult⟩ := Query.accepted_nodes.holds query.typed node hnode
    exact Query.findsColumns.holds hresult

end PivotQuery
