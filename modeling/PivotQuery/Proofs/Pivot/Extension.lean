import PivotQuery.Pivot.Tree
import PivotQuery.Proofs.Query.Builders
import PivotQuery.Proofs.Rows.Names

namespace PivotQuery

theorem mapError_eq_ok {ε ε' α : Type} {change : ε → ε'} {first : Except ε α} {value : α} :
    Except.mapError change first = .ok value ↔ first = .ok value := by
  cases first <;> simp [Except.mapError]

namespace NewColumn

def column (new : NewColumn) : Column := .ofType new.id new.type

-- What a new column adds to a row.
def entry {V : Type} (engine : Engine V) (row : Row V) (new : NewColumn) : String × V :=
  (new.id, new.exp.eval engine (row.get engine))

end NewColumn

namespace TypedQuery

variable {V : Type} [DecidableEq V] {engine : Engine V} {db : Database V}

theorem names_of_mem_bag {query : TypedQuery} {row : Row V}
    (h : row ∈ query.query.bag engine db) : row.names = query.schema.ids :=
  Query.names_of_bag.holds query.typed row h

omit [DecidableEq V] in
theorem ids_map_column (news : List NewColumn) :
    Column.ids (news.map NewColumn.column) = news.map NewColumn.id := by
  simp [Column.ids, NewColumn.column, Column.ofType, Function.comp_def]

omit [DecidableEq V] in
theorem extendAll_append (query : TypedQuery) (news more : List NewColumn) :
    query.extendAll (news ++ more) = query.extendAll news >>= fun next => next.extendAll more := by
  induction news generalizing query with
  | nil => rfl
  | cons new rest ih => simp only [List.cons_append, extendAll, ih, bind_assoc]

variable (engine db) in
-- New columns that do not refer to each other all have their values from the same row.
theorem exists_extendAll (query : TypedQuery) (news : List NewColumn)
    (href : ∀ new ∈ news, ∀ id ∈ new.exp.columns, id ∈ query.schema.ids)
    (hdistinct : (query.schema.ids ++ news.map NewColumn.id).Nodup) :
    ∃ result, query.extendAll news = .ok result ∧
      result.schema.columns = query.schema.columns ++ news.map NewColumn.column ∧
      result.query.bag engine db =
        (query.query.bag engine db).map fun row =>
          row ++ news.map (NewColumn.entry engine row) := by
  induction news generalizing query with
  | nil => exact ⟨query, rfl, by simp, by simp⟩
  | cons new rest ih =>
    obtain ⟨hnew, hrest⟩ := List.forall_mem_cons.mp href
    have hfresh : new.id ∉ query.schema.ids := fun hmem =>
      List.disjoint_of_nodup_append hdistinct hmem List.mem_cons_self
    obtain ⟨next, hnext, hquery, hschema⟩ :=
      exists_extend query new.id new.exp ⟨new.type, none⟩ hnew hfresh
    have hids : next.schema.ids = query.schema.ids ++ [new.id] := Schema.ids_extended hschema
    obtain ⟨result, hresult, hcolumns, hbag⟩ := ih next
      (fun new hmem id hid => hids ▸ List.mem_append_left _ (hrest new hmem id hid))
      (by simpa [hids] using hdistinct)
    refine ⟨result, ?_, ?_, ?_⟩
    · rw [extendAll, hnext]
      exact hresult
    · rw [hcolumns, (Schema.extended_ok hschema).1]
      simp [NewColumn.column, Column.ofType]
    · rw [hbag, hquery, Query.bag, Multiset.map_map]
      refine Multiset.map_congr rfl fun row hrow => ?_
      have hentries : rest.map (NewColumn.entry engine (row.extend engine new.id new.exp)) =
          rest.map (NewColumn.entry engine row) := by
        refine List.map_congr_left fun other hother => Prod.ext rfl ?_
        refine ValueExpr.eval_congr fun id hid => Row.get_append_left ?_
        rw [names_of_mem_bag hrow]
        exact hrest other hother id hid
      rw [Function.comp_apply, hentries, Row.extend, List.append_assoc]
      rfl

variable (engine db) in
-- With new columns, some of all the columns in another order.
theorem exists_framed {query : TypedQuery} {news : List NewColumn} {columns : List Column}
    (href : ∀ new ∈ news, ∀ id ∈ new.exp.columns, id ∈ query.schema.ids)
    (hdistinct : (query.schema.ids ++ news.map NewColumn.id).Nodup)
    (hcolumns : ∀ column ∈ columns,
      column ∈ query.schema.columns ++ news.map NewColumn.column)
    (hids : (Column.ids columns).Nodup) :
    ∃ extended result, query.extendAll news = .ok extended ∧
      extended.project (Column.ids columns) = .ok result ∧ result.schema.columns = columns ∧
      result.query.bag engine db = (query.query.bag engine db).map fun row =>
        (row ++ news.map (NewColumn.entry engine row)).project engine (Column.ids columns) := by
  obtain ⟨extended, hextended, hall, hbag⟩ :=
    exists_extendAll engine db query news href hdistinct
  have hmem : ∀ column ∈ columns, column ∈ extended.schema.columns := hall ▸ hcolumns
  have hknown : ∀ id ∈ Column.ids columns, id ∈ extended.schema.ids :=
    fun id hid => List.map_subset _ hmem hid
  obtain ⟨result, hresult, hquery, hschema⟩ :=
    exists_project extended (Column.ids columns) hknown hids
  refine ⟨extended, result, hextended, hresult, Schema.columns_project hschema hmem, ?_⟩
  rw [hquery, Query.bag, hbag, Multiset.map_map]
  rfl

end TypedQuery

end PivotQuery
