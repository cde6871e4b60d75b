import PivotQuery.Proofs.Lowering.Operators
import PivotQuery.Proofs.Query.Builders
import PivotQuery.Proofs.Schema.StackedTypes

namespace PivotQuery

open Sql (Select)

namespace Schema

-- What can be stacked under some columns can be stacked under the same columns again.
theorem Stacks.of_sameColumns {columns : List Column} {branch other : Schema}
    (h : Stacks columns branch) (hsame : branch.SameColumns other) : Stacks columns other := by
  intro column hcolumn
  obtain ⟨type, htype, hcases⟩ := h column hcolumn
  obtain ⟨own, hown, htypes⟩ := hsame.type? htype
  refine ⟨own, hown, hcases.imp_left fun hcolumn => ?_⟩
  exact ColumnType.sameAs_trans (ColumnType.sameAs_symm htypes) hcolumn

end Schema

namespace Sql.Select

variable {select : Select} {own mid last flat : Schema}

theorem castTo_of_sameAs {type : ColumnType} {item : Item}
    (h : item.type.sameAs type = true) : castTo type item = item := by
  rw [castTo, if_pos h]

-- A cast on the way to a type of the union that is the same as the last one is the cast that is
-- made there: it can only be to text, and then the type of the union is text as well.
theorem castTo_castTo {item : Item} {mid last flat : ColumnType}
    (hmid : item.type.sameAs mid = true ∨ mid = .string)
    (hlast : mid.sameAs last = true ∨ last = .string)
    (hflat : item.type.sameAs flat = true ∨ flat = .string)
    (hsame : last.sameAs flat = true) :
    castTo last (castTo mid item) = castTo flat item := by
  by_cases hkept : item.type.sameAs mid = true
  · rw [castTo_of_sameAs hkept]
    by_cases h : item.type.sameAs last = true
    · rw [castTo_of_sameAs h, castTo_of_sameAs (ColumnType.sameAs_trans h hsame)]
    · have hnot : ¬item.type.sameAs flat = true := fun hother =>
        h (ColumnType.sameAs_trans hother (ColumnType.sameAs_symm hsame))
      obtain rfl : last = .string :=
        hlast.resolve_left fun hother => h (ColumnType.sameAs_trans hkept hother)
      rw [hflat.resolve_left hnot]
  · obtain rfl := hmid.resolve_left hkept
    have htext : ColumnType.string.sameAs last = true :=
      hlast.elim id fun hlast => hlast ▸ ColumnType.sameAs_refl _
    have hnot : ¬item.type.sameAs flat = true := fun hother =>
      hkept (ColumnType.sameAs_trans hother
        (ColumnType.sameAs_symm (ColumnType.sameAs_trans htext hsame)))
    rw [hflat.resolve_left hnot]
    exact castTo_of_sameAs (by rw [castTo, if_neg hkept]; exact htext)

theorem item?_align (h : (select.align flat).Lowered flat) {column : Column}
    (hcolumn : column ∈ flat.columns) {item : Item} (hitem : select.item? column.id = some item) :
    (select.align flat).item? column.id = some (castTo column.type item) := by
  have hmem : castTo column.type item ∈ (select.align flat).items :=
    List.mem_filterMap.mpr ⟨column, hcolumn, by rw [hitem]; rfl⟩
  have hself := h.fits.item?_self hmem
  rwa [castTo_name, (name_of_item? hitem).2] at hself

-- A select has its own columns in order already, with types that need no cast.
theorem align_self (h : select.Lowered own) : select.align own = select := by
  have hmembers := (List.forall₂_and_left (p := fun item => item ∈ select.items) _ _).mpr
    ⟨fun _ hitem => hitem, h.fits⟩
  have hitems : (select.align own).items = select.items := by
    rw [← List.forall₂_eq_eq_eq]
    refine forall₂_filterMap (hmembers.flip.imp ?_)
    rintro column item ⟨hitem, hname, htype⟩
    refine ⟨item, ?_, rfl⟩
    rw [← hname, h.fits.item?_self hitem, Option.map_some, castTo_of_sameAs htype]
  cases select
  exact congrArg (fun items => (⟨items, _, _, _, _, _⟩ : Select)) hitems

-- A branch that goes into a union by way of another one gets the columns that it gets at once.
theorem align_align (h : select.Lowered own) (hunordered : select.orderBy = [])
    (hmid : Schema.Stacks mid.columns own) (hlast : Schema.Stacks last.columns mid)
    (hflat : Schema.Stacks flat.columns own) (hsame : last.SameColumns flat) :
    (select.align mid).align last = select.align flat := by
  have hmembers := (List.forall₂_and_left (p := fun column => column ∈ last.columns) _ _).mpr
    ⟨fun _ hcolumn => hcolumn, hsame⟩
  have hmembers' := (List.forall₂_and_left (p := fun column => column ∈ flat.columns) _ _).mpr
    ⟨fun _ hcolumn => hcolumn, hmembers.flip⟩
  have hitems : ((select.align mid).align last).items = (select.align flat).items := by
    refine filterMap_eq_filterMap hmembers'.flip ?_
    rintro column other ⟨hother, hcolumn, hid, -, htypes⟩
    obtain ⟨type, htype, hcast⟩ := hlast column hcolumn
    obtain ⟨middle, hmiddle, rfl⟩ := Option.map_eq_some_iff.mp htype
    obtain ⟨hmiddle, hmiddleId⟩ := Schema.get?_eq_some.mp hmiddle
    obtain ⟨type, htype, hmidCast⟩ := hmid middle hmiddle
    obtain ⟨type', htype', hflatCast⟩ := hflat other hother
    obtain rfl : type = type' := by
      rw [← hid, ← hmiddleId, htype] at htype'
      exact Option.some.inj htype'
    obtain ⟨source, hsource, rfl⟩ := Option.map_eq_some_iff.mp htype
    obtain ⟨hsource, hsourceId⟩ := Schema.get?_eq_some.mp hsource
    obtain ⟨item, -, hitem, -, hitemType⟩ := h.fits.exists_item? hsource
    rw [hsourceId] at hitem
    have haligned := item?_align (h.align hunordered hmid) hmiddle hitem
    rw [← hid, ← hmiddleId, haligned, hitem, Option.map_some, Option.map_some,
      castTo_castTo (hmidCast.imp_left (ColumnType.sameAs_trans hitemType)) hcast
        (hflatCast.imp_left (ColumnType.sameAs_trans hitemType)) htypes]
  exact congrArg (fun items => ({ select with items := items } : Select)) hitems

theorem branch_of_unordered {selects : List Select}
    (h : ∀ select ∈ selects, select.orderBy = []) (schema : Schema) :
    branch schema selects = selects := by
  unfold branch
  split
  · rw [h _ List.mem_cons_self]
    rfl
  · rfl

end Sql.Select

namespace TypedQuery

-- The selects of a query where it is a branch of a union.
def branches (query : TypedQuery) : List Select := Select.branch query.schema query.query.lower

-- A query that stands for some others: it has the columns that their union has, and its selects
-- are theirs in that union.
structure Unites (union : TypedQuery) (leaves : List TypedQuery) : Prop where
  columns : union.schema.Unites (leaves.map TypedQuery.schema)
  selects : ∀ flat, Schema.concatenated (leaves.map TypedQuery.schema) = .ok flat →
    union.branches = leaves.flatMap fun leaf => leaf.branches.map (Select.align flat)

variable {queries leaves : List TypedQuery} {result : TypedQuery}

private theorem lowered_branches (query : TypedQuery) :
    ∀ select ∈ query.branches, select.Lowered query.schema ∧ select.orderBy = [] :=
  Select.Lowered.branch (Query.lower_lowered.holds query.typed)

private theorem lowerBranches_map_query (target : Schema) (queries : List TypedQuery) :
    Query.lowerBranches target (queries.map TypedQuery.query) =
      queries.flatMap fun query => query.branches.map (Select.align target) := by
  induction queries with
  | nil => rfl
  | cons query rest ih =>
    rw [List.map_cons, Query.lowerBranches, ih, Query.schema_of_infer query.typed]
    rfl

theorem ofResult_eq_ofQuery {query : Query} {checked : Except QueryError Schema}
    (h : query.infer = checked) : ofResult query checked h = ofQuery query := by
  subst h
  rfl

theorem concatAll_eq_ok : concatAll queries = .ok result ↔
    result.query = .concat (queries.map TypedQuery.query) ∧
      Schema.concatenated (queries.map TypedQuery.schema) = .ok result.schema :=
  ofResult_eq_ok

theorem lower_concatAll (h : concatAll queries = .ok result) :
    result.query.lower =
      queries.flatMap fun query => query.branches.map (Select.align result.schema) := by
  have hquery := (concatAll_eq_ok.mp h).1
  have hschema : (Query.concat (queries.map TypedQuery.query)).schema = result.schema :=
    Query.schema_of_infer (hquery ▸ result.typed)
  rw [hquery, Query.lower, hschema, lowerBranches_map_query]

-- A union has no order, so it goes into another one with its own selects.
theorem branches_concatAll (h : concatAll queries = .ok result) :
    result.branches = result.query.lower := by
  refine Select.branch_of_unordered (fun select hselect => ?_) result.schema
  rw [lower_concatAll h] at hselect
  obtain ⟨query, -, hselect⟩ := List.mem_flatMap.mp hselect
  obtain ⟨own, hown, rfl⟩ := List.mem_map.mp hselect
  exact (query.lowered_branches own hown).2

theorem exists_concatAll_iff : (∃ result, concatAll queries = .ok result) ↔
    queries ≠ [] ∧ ∀ a ∈ queries, ∀ b ∈ queries, a.schema.ids.Perm b.schema.ids := by
  have hschemas : (∃ result, concatAll queries = .ok result) ↔
      ∃ schema, Schema.concatenated (queries.map TypedQuery.schema) = .ok schema := by
    constructor
    · rintro ⟨result, h⟩
      exact ⟨_, (concatAll_eq_ok.mp h).2⟩
    · rintro ⟨schema, h⟩
      obtain ⟨result, hresult, -⟩ :=
        exists_ofResult (.concat (queries.map TypedQuery.query)) (by
          simp [Query.infer, inferAll_map_query, bind, Except.bind]) h
      exact ⟨result, hresult⟩
  rw [hschemas, Schema.exists_concatenated_iff]
  simp

theorem Unites.self (query : TypedQuery) : query.Unites [query] where
  columns := ⟨query.schema, Schema.concatenated_singleton _, .refl _⟩
  selects := by
    intro flat hflat
    obtain rfl : query.schema = flat :=
      Except.ok.inj ((Schema.concatenated_singleton _).symm.trans hflat)
    have hself : query.branches.map (Select.align query.schema) = query.branches := by
      conv_rhs => rw [← List.map_id query.branches]
      exact List.map_congr_left fun select hselect =>
        Select.align_self (query.lowered_branches select hselect).1
    simp [hself]

theorem Unites.sameColumns {flat : Schema} (h : result.Unites leaves)
    (hflat : Schema.concatenated (leaves.map TypedQuery.schema) = .ok flat) :
    result.schema.SameColumns flat := by
  obtain ⟨other, hother, hsame⟩ := h.columns
  obtain rfl : other = flat := Except.ok.inj (hother.symm.trans hflat)
  exact hsame

-- A union of queries that stand for some others stands for all of these.
theorem Unites.concatAll {groups : List (List TypedQuery)}
    (h : List.Forall₂ Unites queries groups) (hresult : concatAll queries = .ok result) :
    result.Unites groups.flatten := by
  have hschemas := (concatAll_eq_ok.mp hresult).2
  have hcolumns : result.schema.Unites (groups.flatten.map TypedQuery.schema) := by
    rw [List.map_flatten]
    refine Schema.Unites.concatenated ?_ hschemas
    rw [List.forall₂_map_left_iff, List.forall₂_map_right_iff]
    exact h.imp fun _ _ hunites => hunites.columns
  refine ⟨hcolumns, fun flat hflat => ?_⟩
  have hsame : result.schema.SameColumns flat := by
    obtain ⟨other, hother, hsame⟩ := hcolumns
    obtain rfl : other = flat := Except.ok.inj (hother.symm.trans hflat)
    exact hsame
  have hmembers := (List.forall₂_and_left (p := fun query => query ∈ queries) _ _).mpr
    ⟨fun _ hquery => hquery, h⟩
  have hmembers' := (List.forall₂_and_left (p := fun group => group ∈ groups) _ _).mpr
    ⟨fun _ hgroup => hgroup, hmembers.flip⟩
  rw [branches_concatAll hresult, lower_concatAll hresult, ← List.flatMap_id, List.flatMap_assoc,
    List.flatMap_def, List.flatMap_def]
  congr 1
  refine map_eq_map hmembers'.flip ?_
  rintro query group ⟨hgroup, hquery, hunites⟩
  obtain ⟨mid, hmid, hsameMid⟩ := hunites.columns
  have hlast : Schema.Stacks result.schema.columns mid :=
    ((Schema.concatenated_ok hschemas).2 _ (List.mem_map_of_mem hquery)).of_sameColumns hsameMid
  rw [hunites.selects mid hmid, List.map_flatMap]
  refine List.flatMap_congr fun leaf hleaf => ?_
  rw [List.map_map]
  refine List.map_congr_left fun select hselect => ?_
  obtain ⟨hlowered, hunordered⟩ := leaf.lowered_branches select hselect
  have hmem : leaf ∈ groups.flatten := List.mem_flatten.mpr ⟨group, hgroup, hleaf⟩
  exact Select.align_align hlowered hunordered
    ((Schema.concatenated_ok hmid).2 _ (List.mem_map_of_mem hleaf)) hlast
    ((Schema.concatenated_ok hflat).2 _ (List.mem_map_of_mem hmem)) hsame

theorem Unites.of_concatAll (h : TypedQuery.concatAll queries = .ok result) :
    result.Unites queries := by
  have hself : List.Forall₂ Unites queries (queries.map fun query => [query]) :=
    List.forall₂_map_right_iff.mpr (List.forall₂_same.mpr fun query _ => .self query)
  have hall := Unites.concatAll hself h
  rwa [← List.flatMap_def, List.flatMap_singleton'] at hall

theorem Unites.of_branches_eq {other : TypedQuery} (h : other.Unites leaves)
    (hcolumns : result.schema.SameColumns other.schema)
    (hbranches : result.branches = other.branches) : result.Unites leaves := by
  obtain ⟨flat, hflat, hsame⟩ := h.columns
  exact ⟨⟨flat, hflat, hcolumns.trans hsame⟩,
    fun flat hflat => hbranches.trans (h.selects flat hflat)⟩

-- All that stands for the same queries is the same as a branch.
theorem Unites.unique {other : TypedQuery} (h : result.Unites leaves)
    (hother : other.Unites leaves) :
    result.schema.SameColumns other.schema ∧ result.branches = other.branches := by
  obtain ⟨flat, hflat, hsame⟩ := h.columns
  exact ⟨hsame.trans (hother.sameColumns hflat).symm,
    (h.selects flat hflat).trans (hother.selects flat hflat).symm⟩

theorem Unites.ids_perm (h : result.Unites leaves) :
    ∀ leaf ∈ leaves, leaf.schema.ids.Perm result.schema.ids :=
  fun leaf hleaf => h.columns.perm leaf.schema (List.mem_map_of_mem hleaf)

theorem Unites.exists_leaf (h : result.Unites leaves) : ∃ leaf, leaf ∈ leaves :=
  List.exists_mem_of_ne_nil leaves fun hnil => h.columns.ne_nil (by rw [hnil]; rfl)

-- A query is put behind the branches of a union, or into a new union.
theorem concat_cases (first second : TypedQuery) :
    first.concat second = TypedQuery.concatAll [first, second] ∨
      ∃ branches, TypedQuery.concatAll branches = .ok first ∧
        first.concat second = TypedQuery.concatAll (branches ++ [second]) := by
  unfold TypedQuery.concat
  split
  case h_1 branches hquery =>
    right
    have hinfer := first.typed
    rw [hquery, Query.infer] at hinfer
    obtain ⟨schemas, hschemas, hresult⟩ := bind_eq_ok.mp hinfer
    obtain ⟨typed, rfl, rfl⟩ := exists_typed (Query.inferAll_eq_ok.mp hschemas)
    refine ⟨typed, concatAll_eq_ok.mpr ⟨hquery, hresult⟩, ?_⟩
    rw [TypedQuery.concatAll, ofResult_eq_ofQuery, List.map_append]
    rfl
  case h_2 => exact Or.inl rfl

private theorem exists_pair_iff {first second : TypedQuery} :
    (∃ both, TypedQuery.concatAll [first, second] = .ok both) ↔
      first.schema.ids.Perm second.schema.ids := by
  rw [exists_concatAll_iff]
  constructor
  · rintro ⟨-, hperm⟩
    exact hperm first (by simp) second (by simp)
  · intro hperm
    refine ⟨by simp, ?_⟩
    simp [hperm, hperm.symm]

theorem exists_concat_iff {first second : TypedQuery} :
    (∃ both, first.concat second = .ok both) ↔ first.schema.ids.Perm second.schema.ids := by
  rcases concat_cases first second with hconcat | ⟨branches, hbranches, hconcat⟩
  · rw [hconcat, exists_pair_iff]
  · have hunites := Unites.of_concatAll hbranches
    rw [hconcat, exists_concatAll_iff]
    constructor
    · rintro ⟨-, hperm⟩
      obtain ⟨branch, hbranch⟩ := hunites.exists_leaf
      exact (hunites.ids_perm branch hbranch).symm.trans
        (hperm branch (List.mem_append_left _ hbranch) second (by simp))
    · intro hperm
      have hfirst : ∀ query ∈ branches ++ [second], query.schema.ids.Perm first.schema.ids :=
        List.forall_mem_append.mpr
          ⟨hunites.ids_perm, List.forall_mem_singleton.mpr hperm.symm⟩
      exact ⟨by simp, fun a ha b hb => (hfirst a ha).trans (hfirst b hb).symm⟩

-- It does not matter which of the two it is.
theorem Unites.concat {first second : TypedQuery} {left right : List TypedQuery}
    (hfirst : first.Unites left) (hsecond : second.Unites right)
    (h : first.concat second = .ok result) : result.Unites (left ++ right) := by
  have hpair : ∀ {both}, TypedQuery.concatAll [first, second] = .ok both →
      both.Unites (left ++ right) := by
    intro both hboth
    simpa using Unites.concatAll (.cons hfirst (.cons hsecond .nil)) hboth
  rcases concat_cases first second with hconcat | ⟨branches, hbranches, hconcat⟩
  · exact hpair (hconcat ▸ h)
  · have hown := Unites.of_concatAll hbranches
    obtain ⟨both, hboth⟩ := exists_pair_iff.mpr (exists_concat_iff.mp ⟨result, h⟩)
    rw [hconcat] at h
    have hflat : both.Unites (branches ++ [second]) := by
      simpa using Unites.concatAll (.cons hown (.cons (.self second) .nil)) hboth
    obtain ⟨hcolumns, hselects⟩ := (Unites.of_concatAll h).unique hflat
    exact (hpair hboth).of_branches_eq hcolumns hselects

end TypedQuery

end PivotQuery
