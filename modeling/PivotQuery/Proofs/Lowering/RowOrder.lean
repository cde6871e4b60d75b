import PivotQuery.Proofs.Lowering.Bag
import PivotQuery.Proofs.Lowering.OperatorOrder

namespace PivotQuery

open Sql (Select)

variable {V : Type} [DecidableEq V] {engine : Engine V} {db : Database V}

-- An operator that looks at one row after the other.
inductive RowOp
  | project (ids : List String)
  | filter (condition : Filter)
  | extend (id : String) (exp : ValueExpr) (options : ExtendOptions)
  | mapColumns (changes : NameMap ColumnChange)

namespace RowOp

def apply : RowOp → Query → Query
  | project ids, query => .project query ids
  | filter condition, query => .filter query condition
  | extend id exp options, query => .extend query id exp options
  | mapColumns changes, query => .mapColumns query changes

def onSchema : RowOp → Schema → Except QueryError Schema
  | project ids, schema => schema.project ids
  | filter condition, schema => schema.filtered condition
  | extend id exp options, schema => schema.extended id exp options
  | mapColumns changes, schema => schema.mapped changes

def onRows (engine : Engine V) : RowOp → List (Row V) → List (Row V)
  | project ids, rows => rows.map (Row.project engine ids)
  | filter condition, rows => rows.filter fun row => condition.holds engine (row.get engine)
  | extend id exp _, rows => rows.map (Row.extend engine id exp)
  | mapColumns changes, rows => rows.map (Row.rename changes)

def admits : RowOp → Select → Bool
  | project ids => Select.admitsProject ids
  | filter condition => Select.admitsFilter condition
  | extend id exp _ => Select.admitsExtend id exp
  | mapColumns changes => Select.admitsMapColumns changes

def onSelect : RowOp → Select → Select
  | project ids => Select.projected ids
  | filter condition => Select.filtered condition
  | extend id exp options => Select.extended id exp options.type
  | mapColumns changes => Select.mapped changes

-- The names that an operator gives to columns.
def newIds : RowOp → List String
  | extend id _ _ => [id]
  | mapColumns changes => changes.values.filterMap ColumnChange.id
  | project _ | filter _ => []

-- The order of the rows can be handed over to an operator that cannot go into the select of its
-- input: the names that are made up for sort keys are none of its columns before or after it.
def KeepsOrder (op : RowOp) (query : Query) : Prop :=
  Select.OrderStays op.admits (query.schema.ids ++ op.newIds) query.lower

-- Several operators, the first one innermost.
def applyAll (ops : List RowOp) (query : Query) : Query :=
  ops.foldl (fun query op => op.apply query) query

def allOnRows (engine : Engine V) (ops : List RowOp) (rows : List (Row V)) : List (Row V) :=
  ops.foldl (fun rows op => op.onRows engine rows) rows

def KeepOrder : List RowOp → Query → Prop
  | [], _ => True
  | op :: rest, query => op.KeepsOrder query ∧ KeepOrder rest (op.apply query)

theorem nodes_apply (op : RowOp) (query : Query) :
    (op.apply query).nodes = op.apply query :: query.nodes := by
  cases op <;> rfl

theorem infer_apply {op : RowOp} {query : Query} {result : Schema} :
    (op.apply query).infer = .ok result ↔
      ∃ schema, query.infer = .ok schema ∧ op.onSchema schema = .ok result := by
  cases op <;> exact bind_eq_ok

private theorem everywhere_of_applyAll {P : Query → Prop} {ops : List RowOp} {query : Query}
    (h : (applyAll ops query).Everywhere P) : query.Everywhere P := by
  induction ops generalizing query with
  | nil => exact h
  | cons op rest ih => exact (ih h).input (nodes_apply op query)

theorem accepted_of_applyAll (ops : List RowOp) {query : Query} {result : Schema}
    (h : (applyAll ops query).infer = .ok result) : ∃ schema, query.infer = .ok schema :=
  everywhere_of_applyAll (Query.accepted_nodes.holds h) query (Query.mem_nodes_self query)

theorem keyed_apply (op : RowOp) {query : Query} (h : query.Keyed) : (op.apply query).Keyed := by
  intro node hnode
  rw [nodes_apply] at hnode
  rcases List.mem_cons.mp hnode with rfl | hnode
  · cases op <;> rfl
  · exact h node hnode

theorem lower_apply {query : Query} {schema : Schema} (hinput : query.infer = .ok schema)
    (op : RowOp) :
    (op.apply query).lower = [op.onSelect (Select.reuseOrdered op.admits schema query.lower)] := by
  cases op <;> simp only [apply, Query.lower, Query.schema_of_infer hinput] <;> rfl

section Names

variable {op : RowOp} {query : Query} {schema result : Schema}

theorem ids_onSchema (h : op.onSchema schema = .ok result) :
    result.ids ⊆ schema.ids ++ op.newIds := by
  intro id hid
  rw [List.mem_append]
  cases op with
  | project ids =>
    rw [Schema.project_ids h] at hid
    exact Or.inl (Schema.project_mem h id hid)
  | filter condition =>
    obtain ⟨rfl, -⟩ := Schema.filtered_ok h
    exact Or.inl hid
  | extend new exp options =>
    rw [Schema.ids_extended h] at hid
    exact List.mem_append.mp hid
  | mapColumns changes =>
    rw [Sql.Select.ids_mapped h] at hid
    obtain ⟨old, hold, rfl⟩ := List.mem_map.mp hid
    rcases Sql.Select.renamed_cases changes old with hkept | hnew
    · rw [hkept]
      exact Or.inl hold
    · exact Or.inr hnew

private theorem newIds_subset (h : op.onSchema schema = .ok result) : op.newIds ⊆ result.ids := by
  cases op with
  | project ids => exact List.nil_subset _
  | filter condition => exact List.nil_subset _
  | extend new exp options => exact Schema.ids_extended h ▸ List.subset_append_right _ _
  | mapColumns changes => exact fun _ => Sql.Select.mem_ids_mapped h

-- What gives names to columns hides nothing.
theorem hidden_onSelect (hop : op.newIds ≠ []) (select : Select) :
    (op.onSelect select).hidden = select.hidden := by
  cases op with
  | extend | mapColumns => rfl
  | project | filter => exact absurd rfl hop

theorem unreserved_apply (haccepted : (op.apply query).infer = .ok result)
    (hunreserved : query.Unreserved)
    (hnew : ∀ id ∈ op.newIds, ∀ index, id ≠ Sql.orderColumn index) :
    (op.apply query).Unreserved := by
  intro node hnode
  rw [nodes_apply] at hnode
  rcases List.mem_cons.mp hnode with rfl | hnode
  · obtain ⟨schema, hinput, h⟩ := infer_apply.mp haccepted
    intro id hid
    rw [Query.schema_of_infer haccepted] at hid
    rcases List.mem_append.mp (ids_onSchema h hid) with hid | hid
    · exact hunreserved.schema hinput id hid
    · exact hnew id hid
  · exact hunreserved node hnode

-- Only an operator that gives a column a name made up for a sort key can lose the order of a query
-- that has no such names.
theorem keepsOrder_iff (hinput : query.infer = .ok schema) (hunreserved : query.Unreserved) :
    op.KeepsOrder query ↔ ∀ select, query.lower = [select] → op.admits select = false →
      select.orderBy ≠ [] → ∀ place < select.hidden.length,
        Sql.orderColumn place ∉ op.newIds := by
  constructor
  · intro h select hselect hadmits hsorted place hplace hid
    exact (h select hselect hadmits hsorted).free place hplace (List.mem_append_right _ hid)
  · intro h select hselect hadmits hsorted
    have hapart := Query.lower_apart.holds hinput hunreserved select (by simp [hselect])
    refine ⟨fun place hplace hid => ?_, ?_⟩
    · rw [Query.schema_of_infer hinput] at hid
      rcases List.mem_append.mp hid with hid | hid
      · exact hunreserved.schema hinput _ hid place rfl
      · exact h select hselect hadmits hsorted place hplace hid
    · exact (hapart.handsOver (hunreserved.schema hinput)).later

private theorem keepOrder_of_newIds {ops : List RowOp}
    (haccepted : (applyAll ops query).infer = .ok result)
    (hunreserved : query.Unreserved)
    (hnew : ∀ op ∈ ops, ∀ id ∈ op.newIds, ∀ index, id ≠ Sql.orderColumn index) :
    KeepOrder ops query := by
  induction ops generalizing query with
  | nil => trivial
  | cons op rest ih =>
    obtain ⟨hop, hrest⟩ := List.forall_mem_cons.mp hnew
    obtain ⟨next, hnext⟩ : ∃ next, (op.apply query).infer = .ok next :=
      accepted_of_applyAll rest haccepted
    obtain ⟨schema, hinput, -⟩ := infer_apply.mp hnext
    refine ⟨(keepsOrder_iff hinput hunreserved).mpr fun _ _ _ _ place _ hid => ?_, ?_⟩
    · exact hop _ hid place rfl
    · exact ih haccepted (unreserved_apply hnext hunreserved hop) hrest

end Names

section Rows

variable {op : RowOp} {query : Query} {result : Schema}

-- What an operator goes into hides none of its columns, and nor does what comes out.
theorem fresh_apply (haccepted : (op.apply query).infer = .ok result)
    (hfresh : ∀ select ∈ query.lower, select.Fresh query.schema) (hkeeps : op.KeepsOrder query) :
    ∀ select ∈ (op.apply query).lower, select.Fresh result := by
  obtain ⟨schema, hinput, h⟩ := infer_apply.mp haccepted
  rw [KeepsOrder, Query.schema_of_infer hinput] at hkeeps
  rw [Query.schema_of_infer hinput] at hfresh
  have hreused := Select.Fresh.reuseOrdered hfresh (hkeeps.mono (List.subset_append_left _ _))
  have hresult := hkeeps.mono (ids_onSchema h)
  rw [lower_apply hinput]
  refine List.forall_mem_singleton.mpr ?_
  cases op with
  | project ids => exact hreused.project h
  | filter condition =>
    obtain ⟨rfl, -⟩ := Schema.filtered_ok h
    exact hreused
  | extend id exp options =>
    intro other hother
    rw [Schema.ids_extended h] at hother hresult
    rcases List.mem_append.mp hother with hold | hnew
    · exact hreused other hold
    · obtain rfl := List.mem_singleton.mp hnew
      exact Select.hides_extendInput hresult (List.mem_append_right _ hnew)
  | mapColumns changes => exact Select.hides_mapColumnsInput hfresh h hresult

-- The order is kept exactly if ORDER BY can still tell what is hidden from the columns.
private theorem keepsOrder_iff_fresh (haccepted : (op.apply query).infer = .ok result)
    (hunreserved : query.Unreserved) :
    op.KeepsOrder query ↔ ∀ select ∈ (op.apply query).lower, select.Fresh result := by
  obtain ⟨schema, hinput, h⟩ := infer_apply.mp haccepted
  constructor
  · refine fresh_apply haccepted fun select hselect => ?_
    rw [Query.schema_of_infer hinput]
    exact (Query.lower_apart.holds hinput hunreserved select hselect).fresh
  · intro hfresh
    rw [keepsOrder_iff hinput hunreserved]
    intro select hselect hadmits hsorted place hplace hid
    have hwrapped : (op.apply query).lower = [op.onSelect (select.wrapOrdered schema)] := by
      rw [lower_apply hinput, hselect]
      simp [Select.reuseOrdered, hadmits, hsorted]
    have hvisible := hfresh (op.onSelect (select.wrapOrdered schema)) (by simp [hwrapped]) _
      (newIds_subset h hid)
    rw [Select.hides, hidden_onSelect (List.ne_nil_of_mem hid)] at hvisible
    have hhides : (select.wrapOrdered schema).hides (Sql.orderColumn place) = true :=
      Select.hides_orderColumn_wrapOrdered hplace
    exact Bool.noConfusion (hvisible.symm.trans hhides)

-- One operator more: its rows are made from those of its input, in their order.
theorem rows_apply (haccepted : (op.apply query).infer = .ok result) (hkeyed : query.Keyed)
    (hfresh : ∀ select ∈ query.lower, select.Fresh query.schema) (hkeeps : op.KeepsOrder query) :
    Sql.rowsOfAll engine db (op.apply query).lower =
      op.onRows engine (Sql.rowsOfAll engine db query.lower) := by
  obtain ⟨schema, hinput, h⟩ := infer_apply.mp haccepted
  rw [KeepsOrder, Query.schema_of_infer hinput] at hkeeps
  rw [Query.schema_of_infer hinput] at hfresh
  have hlowered := Query.lower_lowered.holds hinput
  have hrowwise := (Query.lower_rowwise engine).holds hinput hkeyed
  have hold := hkeeps.mono (List.subset_append_left _ _)
  rw [lower_apply hinput, Sql.rowsOfAll_singleton]
  cases op with
  | project ids => exact hlowered.rows_projected hrowwise hfresh h hold
  | filter condition => exact hlowered.rows_filtered hrowwise hfresh h hold
  | extend id exp options => exact hlowered.rows_extended hrowwise hfresh h hkeeps
  | mapColumns changes =>
    refine hlowered.rows_mapped hrowwise hfresh h (hkeeps.mono ?_)
    exact List.append_subset.mpr ⟨List.subset_append_left _ _, ids_onSchema h⟩

theorem rows_applyAll {ops : List RowOp} (haccepted : (applyAll ops query).infer = .ok result)
    (hkeyed : query.Keyed) (hfresh : ∀ select ∈ query.lower, select.Fresh query.schema)
    (hkeep : KeepOrder ops query) :
    Sql.rowsOfAll engine db (applyAll ops query).lower =
      allOnRows engine ops (Sql.rowsOfAll engine db query.lower) := by
  induction ops generalizing query with
  | nil => rfl
  | cons op rest ih =>
    obtain ⟨hop, hrest⟩ := hkeep
    obtain ⟨next, hnext⟩ : ∃ next, (op.apply query).infer = .ok next :=
      accepted_of_applyAll rest haccepted
    have hfresh' := fresh_apply hnext hfresh hop
    rw [← Query.schema_of_infer hnext] at hfresh'
    calc
      Sql.rowsOfAll engine db (applyAll rest (op.apply query)).lower =
          allOnRows engine rest (Sql.rowsOfAll engine db (op.apply query).lower) :=
        ih haccepted (keyed_apply op hkeyed) hfresh' hrest
      _ = allOnRows engine rest (op.onRows engine (Sql.rowsOfAll engine db query.lower)) := by
        rw [rows_apply hnext hkeyed hfresh hop]

-- Up to their order the rows are always right.

theorem bag_apply (op : RowOp) {query : Query} {rows : List (Row V)}
    (h : (rows : Multiset (Row V)) = query.bag engine db) :
    (op.onRows engine rows : Multiset (Row V)) = (op.apply query).bag engine db := by
  cases op with
  | filter condition => simp [onRows, apply, Query.bag, ← h]
  | project | extend | mapColumns =>
    rw [apply, Query.bag, ← h]
    rfl

theorem bag_applyAll (ops : List RowOp) {query : Query} {rows : List (Row V)}
    (h : (rows : Multiset (Row V)) = query.bag engine db) :
    (allOnRows engine ops rows : Multiset (Row V)) = (applyAll ops query).bag engine db := by
  induction ops generalizing query rows with
  | nil => exact h
  | cons op rest ih => exact ih (bag_apply op h)

private theorem keyed_applyAll (ops : List RowOp) (h : query.Keyed) :
    (applyAll ops query).Keyed := by
  induction ops generalizing query with
  | nil => exact h
  | cons op rest ih => exact ih (keyed_apply op h)

private theorem perm_applyAll {ops : List RowOp} {schema : Schema}
    (hinput : query.infer = .ok schema)
    (haccepted : (applyAll ops query).infer = .ok result) (hkeyed : query.Keyed) :
    (Sql.rowsOfAll engine db (applyAll ops query).lower).Perm
      (allOnRows engine ops (Sql.rowsOfAll engine db query.lower)) := by
  rw [← Multiset.coe_eq_coe, bag_applyAll ops (Query.lower_bag.holds hinput hkeyed)]
  exact Query.lower_bag.holds haccepted (keyed_applyAll ops hkeyed)

end Rows

end RowOp

-- Whatever happens to the sort keys of a query in between - they are dropped, renamed, or their
-- names are given to other columns - the rows after some row by row operators are those that the
-- operators make of the rows before, and in the same order if each operator keeps it. An operator
-- does not if it gives a column the very name that is made up for a sort key when the select
-- becomes a subquery, because ORDER BY then means the column.
theorem row_order_survives {V : Type} [DecidableEq V] (engine : Engine V) (db : Database V)
    (query : Query) (ops : List RowOp) (result : Schema)
    (haccepted : (RowOp.applyAll ops query).infer = .ok result) (hkeyed : query.Keyed)
    (hunreserved : query.Unreserved) :
    (Sql.rowsOfAll engine db (RowOp.applyAll ops query).lower).Perm
      (RowOp.allOnRows engine ops (Sql.rowsOfAll engine db query.lower)) ∧
    (RowOp.KeepOrder ops query →
      Sql.rowsOfAll engine db (RowOp.applyAll ops query).lower =
        RowOp.allOnRows engine ops (Sql.rowsOfAll engine db query.lower)) ∧
    ((∀ op ∈ ops, ∀ id ∈ op.newIds, ∀ index, id ≠ Sql.orderColumn index) →
      RowOp.KeepOrder ops query) ∧
    ∀ (op : RowOp) (next : Schema), (op.apply query).infer = .ok next →
      (op.KeepsOrder query ↔ ∀ select, query.lower = [select] → op.admits select = false →
        select.orderBy ≠ [] → ∀ place < select.hidden.length,
          Sql.orderColumn place ∉ op.newIds) ∧
      (op.KeepsOrder query ↔ ∀ select ∈ (op.apply query).lower, ∀ id ∈ next.ids,
        select.hides id = false) := by
  obtain ⟨schema, hinput⟩ := RowOp.accepted_of_applyAll ops haccepted
  refine ⟨RowOp.perm_applyAll hinput haccepted hkeyed, fun hkeep => ?_,
    RowOp.keepOrder_of_newIds haccepted hunreserved,
    fun op next hnext => ⟨RowOp.keepsOrder_iff hinput hunreserved,
      RowOp.keepsOrder_iff_fresh hnext hunreserved⟩⟩
  refine RowOp.rows_applyAll haccepted hkeyed (fun select hselect => ?_) hkeep
  rw [Query.schema_of_infer hinput]
  exact (Query.lower_apart.holds hinput hunreserved select hselect).fresh

def salesByAmount : Query := .sort (.table "sales" saleColumns) [⟨"amount", false⟩]

-- The sort key is dropped, another column gets its name, and that one is renamed.
def keyLost : List RowOp :=
  [.project ["region"], .filter ⟨.and, [.relation (.unary .isNotNull (.column "region"))]⟩,
    .extend "amount" (.constant (.int 3)) ⟨.integer, none⟩,
    .mapColumns ⟨[("amount", ⟨some "rank", none⟩)], by simp⟩]

def rankedRegions : Schema := ⟨[.ofType "region" .integer, ⟨"rank", "amount", .integer⟩], by decide⟩

theorem row_order_survives_keyLost :
    (RowOp.applyAll keyLost salesByAmount).infer = .ok rankedRegions ∧ salesByAmount.Keyed ∧
      salesByAmount.Unreserved ∧ RowOp.KeepOrder keyLost salesByAmount ∧
      Sql.rowsOfAll .integers sales (RowOp.applyAll keyLost salesByAmount).lower =
        RowOp.allOnRows .integers keyLost (Sql.rowsOfAll .integers sales salesByAmount.lower) := by
  have haccepted : (RowOp.applyAll keyLost salesByAmount).infer = .ok rankedRegions := rfl
  have hkeyed : salesByAmount.Keyed := by decide
  have hids : ∀ node ∈ salesByAmount.nodes, ∀ id ∈ node.schema.ids,
      ¬"_order".toList <+: id.toList := by
    decide
  have hunreserved : salesByAmount.Unreserved :=
    fun node hnode id hid => Sql.ne_orderColumn (hids node hnode id hid)
  have hnew : ∀ op ∈ keyLost, ∀ id ∈ op.newIds, ¬"_order".toList <+: id.toList := by decide
  obtain ⟨-, hsame, hkeep, -⟩ := row_order_survives .integers sales salesByAmount keyLost
    rankedRegions haccepted hkeyed hunreserved
  have hkeeps := hkeep fun op hop id hid => Sql.ne_orderColumn (hnew op hop id hid)
  exact ⟨haccepted, hkeyed, hunreserved, hkeeps, hsame hkeeps⟩

-- The amounts by which the regions are sorted are hidden.
def regionsSorted : Query := .project salesByAmount ["region"]

-- A new column has their name.
def onesSorted : Query := .extend regionsSorted "amount" (.constant (.int 1)) { type := .integer }

-- A column with the name that is made up for the amounts.
def twos : RowOp := .extend (Sql.orderColumn 0) (.constant (.int 2)) { type := .integer }

def regionsSelect : Select := regionsSorted.lower.head (by decide)

def onesSelect : Select := onesSorted.lower.head (by decide)

def twosSelect : Select := (twos.apply onesSorted).lower.head (by decide)

theorem row_order_lost_by_twos :
    (∃ result, (twos.apply onesSorted).infer = .ok result) ∧ onesSorted.Keyed ∧
      onesSorted.Unreserved ∧ ¬ twos.KeepsOrder onesSorted ∧
      Sql.rowsOfAll .integers sales (twos.apply onesSorted).lower ≠
        twos.onRows .integers (Sql.rowsOfAll .integers sales onesSorted.lower) := by
  have hids : ∀ node ∈ onesSorted.nodes, ∀ id ∈ node.schema.ids,
      ¬"_order".toList <+: id.toList := by
    decide
  have hregions : regionsSorted.infer = .ok ⟨[.ofType "region" .integer], by decide⟩ := rfl
  have hones : onesSorted.infer = .ok saleColumns := rfl
  have honesGroups : onesSelect.groups .integers sales = _ :=
    Select.groups_extended_wrapOrdered ((Query.lower_lowered.holds hregions).each regionsSelect
      List.mem_cons_self) "amount" (.constant (.int 1)) .integer
  have htwosGroups : twosSelect.groups .integers sales = _ :=
    Select.groups_extended_wrapOrdered ((Query.lower_lowered.holds hones).each onesSelect
      List.mem_cons_self) (Sql.orderColumn 0) (.constant (.int 2)) .integer
  have honesLower : onesSorted.lower = [onesSelect] := rfl
  have htwosLower : (twos.apply onesSorted).lower = [twosSelect] := rfl
  refine ⟨⟨_, rfl⟩, by decide, fun node hnode id hid => Sql.ne_orderColumn (hids node hnode id hid),
    fun hkeeps => ?_, ?_⟩
  · exact (hkeeps _ rfl rfl (List.cons_ne_nil _ _)).free 0 (by decide) (by decide)
  · rw [Query.rows_of_lower rfl htwosLower, Query.rows_of_lower hones honesLower, htwosGroups,
      honesGroups]
    decide

end PivotQuery
