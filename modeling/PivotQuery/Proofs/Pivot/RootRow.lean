import PivotQuery.Proofs.Aggregates.RowCount
import PivotQuery.Proofs.Pivot.VisibleNodes
import PivotQuery.Sql.Text

namespace PivotQuery

open Sql (Select)

namespace AggFn

-- The aggregate functions that the text of an aggregation calls.
def calls : AggFn → List String
  | .avg => ["AVG"]
  | .count => ["COUNT"]
  | .min => ["MIN"]
  | .max => ["MAX"]
  | .sum => ["SUM"]
  | .uniq => ["MIN", "MAX"]
  | .null | .nullStr => []

-- The text of an aggregation has these calls in it, and where there are none it is a missing value.
structure WritesCalls (agg : AggFn) (dialect : Dialect) (id : String) (type : ColumnType) :
    Prop where
  called : ∀ function ∈ agg.calls, function ∈ ["AVG", "COUNT", "MIN", "MAX", "SUM"] ∧
    ∃ before behind, dialect.aggregateText agg id type =
      before ++ (function ++ "(" ++ dialect.quoteIdentifier id ++ ")") ++ behind
  uncalled : agg.calls = [] →
    dialect.aggregateText agg id type =
      "CAST(NULL AS " ++ dialect.typeName (agg.resultType type) ++ ")"

variable {agg : AggFn} (dialect : Dialect) (id : String) (type : ColumnType)

theorem call_in_aggregateText : ∀ function ∈ agg.calls, ∃ before behind,
    dialect.aggregateText agg id type =
      before ++ (function ++ "(" ++ dialect.quoteIdentifier id ++ ")") ++ behind := by
  have hmin : "CASE WHEN MIN(" = "CASE WHEN " ++ ("MIN" ++ "(") := by decide
  have hmax : ") = MAX(" = ") = " ++ ("MAX" ++ "(") := by decide
  have hbetween : ") = MAX(" = ")" ++ " = MAX(" := by decide
  have hthen : ") THEN MIN(" = ")" ++ " THEN MIN(" := by decide
  have huniq : dialect.aggregateText .uniq id type =
      "CASE WHEN MIN(" ++ dialect.quoteIdentifier id ++ ") = MAX(" ++
        dialect.quoteIdentifier id ++ ") THEN MIN(" ++ dialect.quoteIdentifier id ++
          ") ELSE NULL END" := rfl
  intro function hfunction
  cases agg with
  | null => simp [calls] at hfunction
  | nullStr => simp [calls] at hfunction
  | uniq =>
    rw [huniq]
    rcases List.mem_pair.mp hfunction with rfl | rfl
    · refine ⟨"CASE WHEN ", " = MAX(" ++ dialect.quoteIdentifier id ++ ") THEN MIN(" ++
        dialect.quoteIdentifier id ++ ") ELSE NULL END", ?_⟩
      simp only [hmin, hbetween, String.append_assoc]
    · refine ⟨"CASE WHEN MIN(" ++ dialect.quoteIdentifier id ++ ") = ", " THEN MIN(" ++
        dialect.quoteIdentifier id ++ ") ELSE NULL END", ?_⟩
      simp only [hmax, hthen, String.append_assoc]
  | avg | count | min | max | sum =>
    obtain rfl := List.mem_singleton.mp hfunction
    exact ⟨"", "", by rw [String.empty_append, String.append_empty]; rfl⟩

theorem aggregateText_of_no_calls (h : agg.calls = []) :
    dialect.aggregateText agg id type = dialect.nullCast (agg.resultType type) := by
  cases agg with
  | null => rfl
  | nullStr => rfl
  | avg | count | min | max | sum | uniq => simp [calls] at h

private theorem writesCalls (agg : AggFn) : agg.WritesCalls dialect id type where
  called function hfunction :=
    ⟨by revert function; cases agg <;> decide, call_in_aggregateText dialect id type _ hfunction⟩
  uncalled := aggregateText_of_no_calls dialect id type

end AggFn

namespace NewColumn

def op (new : NewColumn) : RowOp := .extend new.id new.exp ⟨new.type, none⟩

end NewColumn

theorem TypedQuery.query_extendAll {query result : TypedQuery} {news : List NewColumn}
    (h : query.extendAll news = .ok result) :
    result.query = RowOp.applyAll (news.map NewColumn.op) query.query := by
  induction news generalizing query with
  | nil => exact congrArg TypedQuery.query (Except.ok.inj h).symm
  | cons new rest ih =>
    obtain ⟨next, hnext, hrest⟩ := bind_eq_ok.mp h
    rw [ih hrest, (ofResult_eq_ok.mp hnext).1]
    rfl

namespace PivotTree

variable {tree : PivotTree} {root : TypedQuery}

private theorem root_of_ofConfig {base : TypedQuery} {config : PivotConfig}
    (h : ofConfig base config = .ok tree) (hshown : config.showRoot = true) :
    tree.base = base ∧ ∃ root, tree.root = some root ∧ tree.rootQuery = .ok root := by
  obtain ⟨_, -, h⟩ := bind_eq_ok.mp h
  rw [if_pos hshown] at h
  obtain ⟨root, hroot, h⟩ := bind_eq_ok.mp h
  obtain rfl := pure_eq_ok.mp h
  exact ⟨rfl, root, rfl, hroot⟩

def rootOps (tree : PivotTree) : List RowOp :=
  tree.rootColumns.map NewColumn.op ++ [.project tree.columns]

theorem query_rootQuery (h : tree.rootQuery = .ok root) :
    root.query = RowOp.applyAll tree.rootOps (.groupBy tree.base.query [] tree.outAggregates) := by
  obtain ⟨total, htotal, h⟩ := bind_eq_ok.mp (rootQuery_eq ▸ h)
  obtain ⟨extended, hextended, hroot⟩ := bind_eq_ok.mp h
  rw [(TypedQuery.ofResult_eq_ok.mp hroot).1, TypedQuery.query_extendAll hextended,
    (TypedQuery.ofResult_eq_ok.mp htotal).1]
  simp [RowOp.applyAll, rootOps, RowOp.apply]

theorem isConstant_rootColumns : ∀ new ∈ tree.rootColumns, new.exp.columns = [] := by
  simp only [rootColumns, List.forall_mem_append, List.forall_mem_cons, List.forall_mem_map]
  simp [NewColumn.string, NewColumn.int, NewColumn.bool, ValueExpr.columns]

private theorem rootOps_refersTo : ∀ op ∈ tree.rootOps, op.refersTo = [] :=
  List.forall_mem_append.mpr
    ⟨List.forall_mem_map.mpr isConstant_rootColumns, List.forall_mem_singleton.mpr rfl⟩

private theorem rootOps_isFilter : ∀ op ∈ tree.rootOps, op.isFilter = false :=
  List.forall_mem_append.mpr
    ⟨List.forall_mem_map.mpr fun _ _ => rfl, List.forall_mem_singleton.mpr rfl⟩

private theorem carryAll_rootOps {names : List String}
    (h : ∀ name ∈ names, name ∈ tree.outColumns) :
    RowOp.carryAll tree.rootOps names = names := by
  have hextends : RowOp.carryAll (tree.rootColumns.map NewColumn.op) names = names := by
    rw [RowOp.carryAll, List.foldl_map]
    exact List.foldl_fixed' (fun _ => rfl) _
  have hall : RowOp.carryAll tree.rootOps names = (RowOp.project tree.columns).carry names := by
    rw [rootOps, RowOp.carryAll, List.foldl_append]
    exact congrArg _ hextends
  rw [hall]
  refine List.filter_eq_self.mpr fun name hname => ?_
  simp [columns, h name hname]

theorem collapsedColumns_subset {V : Type} {engine : Engine V} :
    ∀ name ∈ collapsedColumns engine tree.outAggregates, name ∈ tree.outColumns := by
  intro name hname
  obtain ⟨aggregate, haggregate, rfl⟩ := List.mem_map.mp hname
  obtain ⟨id, hid, rfl⟩ := List.mem_map.mp (List.mem_filter.mp haggregate).1
  exact hid

theorem collapsedColumns_eq_nil {V : Type} {engine : Engine V}
    (hcalls : ∀ agg : AggFn, engine.collapses agg = !agg.calls.isEmpty) :
    collapsedColumns engine tree.outAggregates = [] ↔
      ∀ id ∈ tree.outColumns, (tree.aggFn id).calls = [] := by
  simp [collapsedColumns, outAggregates, hcalls]

end PivotTree

-- The query for the root has one row, whatever is in the base, if an aggregate function is called
-- for some column. Else it is left with a row for each row of the base. The calls are those that
-- stand in the text of an aggregation in every dialect.
theorem root_row_count {V : Type} [DecidableEq V] (engine : Engine V)
    (hcalls : ∀ agg : AggFn, engine.collapses agg = !agg.calls.isEmpty) (db : Database V)
    (base : TypedQuery) (hbase : base.schema.columns ≠ []) (config : PivotConfig)
    (hshown : config.showRoot = true) (tree : PivotTree)
    (htree : PivotTree.ofConfig base config = .ok tree) :
    (∀ (agg : AggFn) dialect id type, agg.WritesCalls dialect id type) ∧
    ∃ root, tree.root = some root ∧
      (Sql.rowsOfAll engine db root.query.lower).length =
        if ∀ id ∈ base.schema.ids, (tree.aggFn id).calls = [] then
          (Sql.rowsOfAll engine db base.query.lower).length
        else 1 := by
  obtain ⟨rfl, root, hroot, hquery⟩ := PivotTree.root_of_ofConfig htree hshown
  have haggs : tree.outAggregates ≠ [] := by
    simpa [PivotTree.outAggregates, PivotTree.outColumns, Schema.ids, Column.ids] using hbase
  have haccepted : (RowOp.applyAll tree.rootOps
      (.groupBy tree.base.query [] tree.outAggregates)).infer = .ok root.schema :=
    PivotTree.query_rootQuery hquery ▸ root.typed
  have hrows := Query.length_of_global_aggregate engine db haccepted haggs
    PivotTree.rootOps_isFilter PivotTree.rootOps_refersTo
    (PivotTree.carryAll_rootOps PivotTree.collapsedColumns_subset)
  rw [← PivotTree.query_rootQuery hquery] at hrows
  simp only [PivotTree.collapsedColumns_eq_nil hcalls] at hrows
  exact ⟨fun agg dialect id type => agg.writesCalls dialect id type, root, hroot, hrows⟩

theorem Engine.cells_collapses (agg : AggFn) :
    Engine.cells.collapses agg = !agg.calls.isEmpty := by
  cases agg <;> rfl

def noRows : Database Cell := ⟨fun _ => [], fun _ => []⟩

theorem root_row_count_payTree :
    ∃ root, (∀ agg : AggFn, Engine.cells.collapses agg = !agg.calls.isEmpty) ∧
      payrollTable.schema.columns ≠ [] ∧ payByFamily.showRoot = true ∧
      PivotTree.ofConfig payrollTable payByFamily = .ok payTree ∧ payTree.root = some root ∧
      (Sql.rowsOfAll .cells noRows root.query.lower).length = 1 := by
  have hcolumns : payrollTable.schema.columns ≠ [] := by decide
  obtain ⟨-, root, hroot, hrows⟩ := root_row_count .cells Engine.cells_collapses noRows payrollTable
    hcolumns payByFamily rfl payTree ofConfig_payByFamily
  have hcall : ¬ ∀ id ∈ payrollTable.schema.ids, (payTree.aggFn id).calls = [] := by decide
  exact ⟨root, Engine.cells_collapses, hcolumns, rfl, ofConfig_payByFamily, hroot,
    hrows.trans (if_neg hcall)⟩

-- Files with their contents only, which have no aggregate.

def filesTable : TypedQuery := .table "files" ⟨[.ofType "data" (.core .blob)], by decide⟩

def twoFiles : Database Cell where
  table _ := [fun _ => .text "one", fun _ => .text "two"]
  sql _ := []

def filesTree : PivotTree :=
  (PivotTree.ofConfig filesTable { showRoot := true }).toOption.get rfl

def filesRoot : TypedQuery := filesTree.root.get rfl

def filesSelect : Select := filesRoot.query.lower.head (by decide)

theorem length_filesRoot (db : Database Cell) :
    (Sql.rowsOfAll .cells db filesRoot.query.lower).length =
      (filesSelect.groups .cells db).length := by
  have hlower : filesRoot.query.lower = [filesSelect] := rfl
  have hlowered := (Query.lower_lowered.holds filesRoot.typed).each filesSelect (by simp [hlower])
  rw [hlower, Sql.rowsOfAll_singleton, hlowered.length_rows]

theorem root_of_filesTree_is_not_one_row :
    filesTable.schema.columns ≠ [] ∧
      (∀ agg : AggFn, Engine.cells.collapses agg = !agg.calls.isEmpty) ∧
      PivotTree.ofConfig filesTable { showRoot := true } = .ok filesTree ∧
      filesTree.root = some filesRoot ∧
      (Sql.rowsOfAll .cells noRows filesRoot.query.lower).length = 0 ∧
      (Sql.rowsOfAll .cells twoFiles filesRoot.query.lower).length = 2 := by
  have hnone : (filesSelect.groups .cells noRows).length = 0 := by decide
  have htwo : (filesSelect.groups .cells twoFiles).length = 2 := by decide
  exact ⟨by decide, Engine.cells_collapses, rfl, rfl, (length_filesRoot noRows).trans hnone,
    (length_filesRoot twoFiles).trans htwo⟩

end PivotQuery
