import PivotQuery.Proofs.Lowering.NestedUnions

namespace PivotQuery

namespace Schema

variable {lhs rhs result : Schema} {on : List String}

-- When two relations can be joined: their keys can be compared, and no other column is on both
-- sides.
structure Joins (lhs rhs : Schema) (on : List String) : Prop where
  keys : ∀ key ∈ on, ∃ left right, lhs.type? key = some left ∧ rhs.type? key = some right ∧
    left.joinableWith right = true
  common : ∀ id ∈ lhs.ids, id ∈ rhs.ids → id ∈ on

-- The columns of the right side that a join adds to the left ones.
def nonKeys (rhs : Schema) (on : List String) : List Column :=
  rhs.columns.filter fun column => !on.contains column.id

private theorem exists_joined_iff :
    (∃ result, lhs.joined rhs on = .ok result) ↔ lhs.Joins rhs on := by
  constructor
  · rintro ⟨result, h⟩
    obtain ⟨-, -, hcommon⟩ := joined_ok h
    obtain ⟨_, hkeys, -⟩ := bind_eq_ok.mp h
    exact ⟨requireJoinable_eq_ok.mp hkeys, fun id hleft hright => hcommon id hright hleft⟩
  · intro h
    exact exists_joined h.keys fun id hright hleft => h.common id hleft hright

-- A column that a join adds is on the right side only.
theorem Joins.not_contains (h : lhs.Joins rhs on) {column : Column}
    (hcolumn : column ∈ rhs.nonKeys on) : lhs.contains column.id = false := by
  obtain ⟨hmem, hkey⟩ := List.mem_filter.mp hcolumn
  refine Bool.eq_false_iff.mpr fun hleft => ?_
  have hon := h.common column.id (contains_iff.mp hleft) (mem_ids.mpr ⟨column, hmem, rfl⟩)
  simp [hon] at hkey

-- The columns of a relation, each once, are the same up to their order if they are the same set.
private theorem perm_ids_iff {a b : Schema} : a.ids.Perm b.ids ↔ ∀ id, id ∈ a.ids ↔ id ∈ b.ids :=
  List.perm_ext_iff_of_nodup a.distinct b.distinct

end Schema

namespace Sql

-- A column of a join as it is on one side.
def Item.ofSide (side : JoinSide) (column : Column) : Item :=
  ⟨.joinColumn side column.id, column.type, column.id⟩

-- Each side gives the columns that the join has from it.
theorem ofJoin_eq {left right schema : Schema} {on : List String} (h : left.Joins right on)
    (hcolumns : schema.columns = left.columns ++ right.nonKeys on) (lhs rhs : List Select)
    (type : JoinType) :
    Select.ofJoin schema left lhs rhs type on =
      .plain (left.columns.map (Item.ofSide .left) ++ (right.nonKeys on).map (Item.ofSide .right))
        (.join lhs rhs type on) := by
  unfold Select.ofJoin
  dsimp only
  rw [hcolumns, List.map_append]
  congr 2
  · refine List.map_congr_left fun column hcolumn => ?_
    have hleft : left.contains column.id = true :=
      Schema.contains_iff.mpr (Schema.mem_ids.mpr ⟨column, hcolumn, rfl⟩)
    rw [if_pos hleft]
    rfl
  · refine List.map_congr_left fun column hcolumn => ?_
    rw [h.not_contains hcolumn]
    rfl

end Sql

namespace TypedQuery

variable {lhs rhs result : TypedQuery} {on : List String} {type : JoinType}

theorem exists_join_iff : (∃ result, lhs.join rhs on type = .ok result) ↔
    lhs.schema.Joins rhs.schema on := by
  rw [← Schema.exists_joined_iff]
  constructor
  · rintro ⟨result, h⟩
    exact ⟨result.schema, (ofResult_eq_ok.mp h).2⟩
  · rintro ⟨schema, h⟩
    obtain ⟨result, hresult, -⟩ := exists_ofResult (.join lhs.query rhs.query on type) _ h
    exact ⟨result, hresult⟩

theorem columns_join (h : lhs.join rhs on type = .ok result) :
    result.schema.columns = lhs.schema.columns ++ rhs.schema.nonKeys on :=
  (Schema.joined_ok (ofResult_eq_ok.mp h).2).1

theorem lower_join (h : lhs.join rhs on type = .ok result) :
    result.query.lower =
      [.plain (lhs.schema.columns.map (Sql.Item.ofSide .left) ++
          (rhs.schema.nonKeys on).map (Sql.Item.ofSide .right))
        (.join lhs.query.lower rhs.query.lower type on)] := by
  have hjoins := exists_join_iff.mp ⟨result, h⟩
  have hschema := Query.schema_of_infer result.typed
  rw [(ofResult_eq_ok.mp h).1] at hschema ⊢
  rw [Query.lower, hschema, Query.schema_of_infer lhs.typed,
    Sql.ofJoin_eq hjoins (columns_join h)]

-- It is enough to compare every branch of a union with the first one.
theorem exists_concatAll_iff_first {queries : List TypedQuery} :
    (∃ result, concatAll queries = .ok result) ↔ ∃ first rest, queries = first :: rest ∧
      ∀ other ∈ rest, ∀ id, id ∈ other.schema.ids ↔ id ∈ first.schema.ids := by
  rw [exists_concatAll_iff]
  constructor
  · rintro ⟨hne, hperm⟩
    obtain ⟨first, rest, rfl⟩ := List.exists_cons_of_ne_nil hne
    exact ⟨first, rest, rfl, fun other hother =>
      Schema.perm_ids_iff.mp (hperm other (List.mem_cons_of_mem _ hother) first List.mem_cons_self)⟩
  · rintro ⟨first, rest, rfl, hsame⟩
    have hperm : ∀ query ∈ first :: rest, query.schema.ids.Perm first.schema.ids :=
      List.forall_mem_cons.mpr ⟨.refl _, fun other hother =>
        Schema.perm_ids_iff.mpr (hsame other hother)⟩
    exact ⟨by simp, fun a ha b hb => (hperm a ha).trans (hperm b hb).symm⟩

theorem columns_concatAll {first : TypedQuery} {rest : List TypedQuery}
    (h : concatAll (first :: rest) = .ok result) :
    result.schema.columns = first.schema.columns.map fun column =>
      { column with
        type := (rest.filterMap fun other => other.schema.type? column.id).foldl
          ColumnType.unify column.type } := by
  rw [Schema.columns_concatenated (ofResult_eq_ok.mp h).2]
  simp only [List.filterMap_map, Function.comp_def]

end TypedQuery

-- A join is accepted exactly if its keys can be compared and nothing else is on both sides, and
-- takes its columns from the sides that have them. A union is accepted exactly if it has a branch
-- and all have the columns of the first one. Neither is ever refused for an id that its own
-- columns repeat.
theorem joins_and_unions_are_accepted_exactly :
    (∀ (lhs rhs : TypedQuery) (on : List String) (type : JoinType),
      ((∃ result, lhs.join rhs on type = .ok result) ↔ lhs.schema.Joins rhs.schema on) ∧
      (∀ result, lhs.join rhs on type = .ok result →
        result.schema.columns = lhs.schema.columns ++ rhs.schema.nonKeys on ∧
        result.query.lower =
          [.plain (lhs.schema.columns.map (Sql.Item.ofSide .left) ++
              (rhs.schema.nonKeys on).map (Sql.Item.ofSide .right))
            (.join lhs.query.lower rhs.query.lower type on)]) ∧
      (lhs.schema.Joins rhs.schema on →
        ∃ schema, Schema.ofColumns (lhs.schema.columns ++ rhs.schema.nonKeys on) = .ok schema)) ∧
    (∀ queries : List TypedQuery, (∃ result, TypedQuery.concatAll queries = .ok result) ↔
      ∃ first rest, queries = first :: rest ∧
        ∀ other ∈ rest, ∀ id, id ∈ other.schema.ids ↔ id ∈ first.schema.ids) ∧
    ∀ (first : TypedQuery) (rest : List TypedQuery),
      (∀ result, TypedQuery.concatAll (first :: rest) = .ok result →
        result.schema.columns = first.schema.columns.map fun column =>
          { column with
            type := (rest.filterMap fun other => other.schema.type? column.id).foldl
              ColumnType.unify column.type }) ∧
      ∀ unified, Schema.stacked first.schema first.schema.columns (rest.map TypedQuery.schema) =
        .ok unified → ∃ schema, Schema.ofColumns unified = .ok schema := by
  refine ⟨fun lhs rhs on type => ⟨TypedQuery.exists_join_iff, fun result h => ?_, fun h => ?_⟩,
    fun queries => TypedQuery.exists_concatAll_iff_first,
    fun first rest => ⟨fun result h => ?_, ?_⟩⟩
  · exact ⟨TypedQuery.columns_join h, TypedQuery.lower_join h⟩
  · exact Schema.exists_ofColumns_joined fun id hright hleft => h.common id hleft hright
  · exact TypedQuery.columns_concatAll h
  · exact fun unified h => Schema.exists_ofColumns_stacked h

def officeColumns : Schema :=
  ⟨[.ofType "city" .string, .ofType "rent" (.ofKind "NUMERIC" .real)], by decide⟩

def deskColumns : Schema :=
  ⟨[.ofType "desk" .integer, .ofType "city" (.ofKind "VARCHAR" .string)], by decide⟩

-- Desks and their offices have the city in common, so they are joined by it or not at all, and
-- they cannot be stacked.
theorem joins_and_unions_are_accepted_exactly_desks :
    (∃ result, (TypedQuery.table "desks" deskColumns).join (.table "offices" officeColumns) ["city"]
        .leftOuter = .ok result ∧ result.schema.ids = ["desk", "city", "rent"]) ∧
      (¬∃ result, (TypedQuery.table "desks" deskColumns).join (.table "offices" officeColumns) []
        .leftOuter = .ok result) ∧
      ¬∃ result, TypedQuery.concatAll
        [.table "desks" deskColumns, .table "offices" officeColumns] = .ok result := by
  obtain ⟨hjoin, hunion, -⟩ := joins_and_unions_are_accepted_exactly
  have hjoins := hjoin (.table "desks" deskColumns) (.table "offices" officeColumns)
  refine ⟨?_, fun h => ?_, fun h => ?_⟩
  · have hcity : deskColumns.Joins officeColumns ["city"] :=
      ⟨List.forall_mem_singleton.mpr ⟨.ofKind "VARCHAR" .string, .string, rfl, rfl, rfl⟩, by decide⟩
    obtain ⟨haccepts, hresult, -⟩ := hjoins ["city"] .leftOuter
    obtain ⟨result, h⟩ := haccepts.mpr hcity
    refine ⟨result, h, ?_⟩
    rw [Schema.ids, (hresult result h).1]
    rfl
  · have hcommon := ((hjoins [] .leftOuter).1.mp h).common "city" (by decide) (by decide)
    cases hcommon
  · obtain ⟨first, rest, heq, hsame⟩ := (hunion _).mp h
    obtain ⟨rfl, rfl⟩ := List.cons.inj heq
    have hrent := (hsame _ List.mem_cons_self "rent").mp (by decide)
    revert hrent
    decide

end PivotQuery
