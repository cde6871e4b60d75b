import PivotQuery.Proofs.Lowering.Bag

namespace PivotQuery

open Sql (Select)

namespace Sql.Select

variable {V : Type} {engine : Engine V} {select : Select} {schema result : Schema}
variable {selects : List Select}

-- Something in the select list makes one row of all that the select reads.
def makesOneRow (engine : Engine V) (select : Select) : Bool :=
  select.groupBy.isEmpty && select.items.any fun item => item.exp.collapses engine

theorem makesOneRow_iff : select.makesOneRow engine = true ↔
    select.groupBy = [] ∧ ∃ item ∈ select.items, item.exp.collapses engine = true := by
  simp [makesOneRow]

theorem makesOneRow_eq_false_iff : select.makesOneRow engine = false ↔ select.Rowwise engine := by
  rw [← Bool.not_eq_true, makesOneRow_iff]
  simp [Rowwise]

-- What keeps a select row by row does not make one of its rows.
theorem makesOneRow_of_rowwise {other : Select} (h : select.Rowwise engine → other.Rowwise engine)
    (hone : other.makesOneRow engine = true) : select.makesOneRow engine = true := by
  by_contra hmany
  have hrowwise := makesOneRow_eq_false_iff.mp (Bool.eq_false_of_not_eq_true hmany)
  simp [makesOneRow_eq_false_iff.mpr (h hrowwise)] at hone

-- What hides columns is an order, and a select of one row computes all that it has: it hands
-- on no column of its source.
structure Settled (engine : Engine V) (select : Select) : Prop where
  hidden : select.orderBy = [] → select.hidden = []
  isJoin : select.makesOneRow engine = true → select.isJoin = false
  computed : select.makesOneRow engine = true →
    ∀ item ∈ select.items, ∀ id, item.exp ≠ .value (.column id)

theorem Settled.passesThrough_eq_false (h : select.Settled engine)
    (hone : select.makesOneRow engine = true) {ids : List String} (hids : ids ≠ []) :
    select.passesThrough ids = false := by
  obtain ⟨id, rest, rfl⟩ := List.exists_cons_of_ne_nil hids
  rw [← Bool.not_eq_true]
  intro hpass
  obtain ⟨item, hitem, hexp⟩ :=
    isIdentityAt_iff.mp (List.all_eq_true.mp hpass id List.mem_cons_self)
  exact h.computed hone item (name_of_item? hitem).1 id hexp

theorem Settled.of_rowwise (h : select.Rowwise engine)
    (hhidden : select.orderBy = [] → select.hidden = []) : select.Settled engine := by
  have hmany : select.makesOneRow engine ≠ true := by simp [makesOneRow_eq_false_iff.mpr h]
  exact ⟨hhidden, fun hone => absurd hone hmany, fun hone => absurd hone hmany⟩

theorem Settled.plain (source : Source) :
    (plain (schema.columns.map Item.ofColumn) source).Settled engine :=
  .of_rowwise (Rowwise.plain source) fun _ => rfl

theorem Settled.wrap (selects : List Select) : (wrap selects schema).Settled engine :=
  Settled.plain _

theorem Settled.wrapOrdered (h : select.Settled engine) :
    (select.wrapOrdered schema).Settled engine := by
  refine .of_rowwise Rowwise.wrapOrdered fun hunordered => ?_
  rw [wrapOrdered_orderBy, List.map_eq_nil_iff] at hunordered
  rw [wrapOrdered_hidden, h.hidden hunordered]
  rfl

theorem Settled.reuse (mergeable : Select → Bool)
    (h : ∀ select ∈ selects, select.Settled engine) :
    (reuse mergeable schema selects).Settled engine :=
  reuse_cases (fun select hselect _ => h select (by simp [hselect])) (Settled.wrap selects)

theorem Settled.reuseOrdered (mergeable : Select → Bool)
    (h : ∀ select ∈ selects, select.Settled engine) :
    (reuseOrdered mergeable schema selects).Settled engine :=
  reuseOrdered_cases (fun select hselect _ => h select (by simp [hselect])) (Settled.wrap selects)
    (fun select hselect => (h select (by simp [hselect])).wrapOrdered)

theorem Settled.project {ids : List String} (h : select.Settled engine) :
    (select.projected ids).Settled engine where
  hidden hunordered := by
    have hkeys : select.orderBy = [] := hunordered
    simp [projected, hkeys, h.hidden hkeys]
  isJoin hone := h.isJoin (makesOneRow_of_rowwise Rowwise.project hone)
  computed hone item hitem := by
    obtain ⟨id, -, hid⟩ := List.mem_filterMap.mp hitem
    exact h.computed (makesOneRow_of_rowwise Rowwise.project hone) item (name_of_item? hid).1

theorem Settled.filter {condition : Filter} (h : select.Settled engine) :
    (select.filtered condition).Settled engine :=
  ⟨h.hidden, h.isJoin, h.computed⟩

-- A new column that hands on another one goes into no select of one row.
theorem Settled.extend {id : String} {exp : ValueExpr} {type : ColumnType}
    (h : select.Settled engine) (hpass : select.passesThrough exp.columns = true) :
    (select.extended id exp type).Settled engine where
  hidden := h.hidden
  isJoin hone := h.isJoin (makesOneRow_of_rowwise Rowwise.extend hone)
  computed hone := by
    have hinput := makesOneRow_of_rowwise Rowwise.extend hone
    refine List.forall_mem_append.mpr ⟨h.computed hinput, List.forall_mem_singleton.mpr ?_⟩
    rintro other hexp
    obtain rfl : exp = .column other := by simpa using hexp
    rw [h.passesThrough_eq_false hinput (by simp [ValueExpr.columns])] at hpass
    exact absurd hpass (by simp)

theorem Settled.group {keys : List String} {aggs : List Aggregate}
    (h : ∀ select ∈ selects, select.Settled engine) :
    ((Select.reuse (admitsGroupBy keys aggs) schema selects).grouped schema keys aggs).Settled
      engine where
  hidden _ := (Settled.reuse _ h).hidden orderBy_groupByInput
  isJoin _ := isJoin_groupByInput
  computed hone item hitem id := by
    obtain rfl : keys = [] := (makesOneRow_iff.mp hone).1
    obtain ⟨aggregate, -, haggregate⟩ := List.mem_filterMap.mp hitem
    obtain ⟨type, -, rfl⟩ := Option.map_eq_some_iff.mp haggregate
    simp

theorem Settled.sort {keys : List SortKey} (h : select.Settled engine) :
    (select.sorted keys).Settled engine :=
  ⟨fun _ => rfl, h.isJoin, h.computed⟩

theorem Settled.mapColumns {changes : NameMap ColumnChange} (h : select.Settled engine) :
    (select.mapped changes).Settled engine where
  hidden hunordered := h.hidden (List.map_eq_nil_iff.mp hunordered)
  isJoin hone := h.isJoin (makesOneRow_of_rowwise Rowwise.mapColumns hone)
  computed hone item hitem := by
    obtain ⟨old, hold, rfl⟩ := List.mem_map.mp hitem
    exact h.computed (makesOneRow_of_rowwise Rowwise.mapColumns hone) old hold

theorem Settled.ofJoin {left : Schema} {lhs rhs : List Select} {type : JoinType}
    {on : List String} : (ofJoin schema left lhs rhs type on).Settled engine :=
  .of_rowwise Rowwise.ofJoin fun _ => rfl

theorem Settled.align {target : Schema} (h : select.Settled engine) :
    (select.align target).Settled engine where
  hidden := h.hidden
  isJoin hone := h.isJoin (makesOneRow_of_rowwise Rowwise.align hone)
  computed hone item hitem id := by
    obtain ⟨column, -, hcolumn⟩ := List.mem_filterMap.mp hitem
    obtain ⟨own, hown, rfl⟩ := Option.map_eq_some_iff.mp hcolumn
    have hexp :=
      h.computed (makesOneRow_of_rowwise Rowwise.align hone) own (name_of_item? hown).1 id
    unfold castTo
    split
    · exact hexp
    · simp

end Sql.Select

namespace Query

variable {V : Type}

theorem lower_settled (engine : Engine V) : AcceptedCases fun query _ =>
    ∀ select ∈ query.lower, select.Settled engine where
  table name schema := List.forall_mem_singleton.mpr (Select.Settled.plain _)
  sql text schema := List.forall_mem_singleton.mpr (Select.Settled.plain _)
  project _ _ ih := List.forall_mem_singleton.mpr (Select.Settled.reuseOrdered _ ih).project
  filter _ _ ih := List.forall_mem_singleton.mpr (Select.Settled.reuseOrdered _ ih).filter
  extend {input id exp options schema result} hinput h ih := by
    rw [lower, schema_of_infer hinput]
    exact List.forall_mem_singleton.mpr ((Select.Settled.reuseOrdered _ ih).extend
      (Select.passesThrough_extendInput (Schema.extended_ok h).2.1))
  groupBy _ _ ih := List.forall_mem_singleton.mpr (Select.Settled.group ih)
  join _ _ _ _ _ := List.forall_mem_singleton.mpr Select.Settled.ofJoin
  concat {branches schemas result} hbranches h := by
    intro select hselect
    obtain ⟨query, hquery, own, hmem, rfl⟩ := mem_lowerBranches.mp hselect
    obtain ⟨schema, -, hinfer, ih⟩ := exists_mem_right hbranches hquery
    rw [schema_of_infer hinfer] at hmem
    exact (Select.branch_cases (lower_lowered.holds hinfer) (fun own hown _ => ih own hown)
      (Select.Settled.wrap _) own hmem).align
  sort _ _ ih := List.forall_mem_singleton.mpr (Select.Settled.reuse _ ih).sort
  mapColumns _ _ ih := List.forall_mem_singleton.mpr (Select.Settled.reuseOrdered _ ih).mapColumns

end Query

namespace Sql.Select

variable {V : Type} [DecidableEq V] {engine : Engine V} {db : Database V}
variable {select : Select} {schema : Schema} {selects : List Select}

theorem groups_of_makesOneRow (h : select.makesOneRow engine = true) :
    select.groups engine db = [select.sourceRows engine db] := by
  simp only [makesOneRow, Bool.and_eq_true] at h
  simp only [groups, groupsOf, h.1, h.2, if_true]

theorem rows_of_makesOneRow (h : select.makesOneRow engine = true)
    (hlowered : select.Lowered schema) :
    select.rows engine db = [valueRow engine select.items (select.sourceRows engine db)] := by
  rw [rows_sorted hlowered.all_isLowered, groups_of_makesOneRow h, List.mergeSort_singleton,
    List.map_singleton]

end Sql.Select

end PivotQuery
