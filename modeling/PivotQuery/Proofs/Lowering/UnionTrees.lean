import PivotQuery.Proofs.Lowering.NestedUnions
import PivotQuery.Sql.Compile

namespace PivotQuery

open Sql (Select)

-- How a union is put together: from some unions or queries at once, or from two of them one
-- behind the other.
inductive UnionTree
  | leaf (query : TypedQuery)
  | stack (first : UnionTree) (rest : List UnionTree)
  | chained (first second : UnionTree)

namespace UnionTree

def isLeaf : UnionTree → Bool
  | .leaf _ => true
  | _ => false

mutual

def leaves : UnionTree → List TypedQuery
  | .leaf query => [query]
  | .stack first rest => first.leaves ++ leavesOfAll rest
  | .chained first second => first.leaves ++ second.leaves

def leavesOfAll : List UnionTree → List TypedQuery
  | [] => []
  | tree :: rest => tree.leaves ++ leavesOfAll rest

end

mutual

def build : UnionTree → Except QueryError TypedQuery
  | .leaf query => .ok query
  | .stack first rest => do
    let query ← first.build
    let queries ← buildAll rest
    TypedQuery.concatAll (query :: queries)
  | .chained first second => do
    let query ← first.build
    query.concat (← second.build)

def buildAll : List UnionTree → Except QueryError (List TypedQuery)
  | [] => .ok []
  | tree :: rest => do
    let query ← tree.build
    let queries ← buildAll rest
    return query :: queries

end

private theorem leavesOfAll_eq (trees : List UnionTree) :
    leavesOfAll trees = (trees.map leaves).flatten := by
  induction trees with
  | nil => rfl
  | cons tree rest ih => rw [leavesOfAll, ih, List.map_cons, List.flatten_cons]

mutual

-- What is built stands for the leaves, whatever the tree looks like.
theorem unites_build : ∀ {tree : UnionTree} {union : TypedQuery}, tree.build = .ok union →
    union.Unites tree.leaves
  | .leaf query, _, h => by
    obtain rfl : query = _ := by simpa [build] using h
    exact .self query
  | .stack first rest, _, h => by
    simp only [build, bind_eq_ok] at h
    obtain ⟨query, hfirst, queries, hrest, h⟩ := h
    have hall := TypedQuery.Unites.concatAll (.cons (unites_build hfirst) (unites_buildAll hrest)) h
    rwa [List.flatten_cons, ← leavesOfAll_eq] at hall
  | .chained first second, _, h => by
    simp only [build, bind_eq_ok] at h
    obtain ⟨left, hfirst, right, hsecond, h⟩ := h
    exact (unites_build hfirst).concat (unites_build hsecond) h

theorem unites_buildAll : ∀ {trees : List UnionTree} {unions : List TypedQuery},
    buildAll trees = .ok unions →
      List.Forall₂ TypedQuery.Unites unions (trees.map leaves)
  | [], _, h => by
    obtain rfl : [] = _ := by simpa [buildAll] using h
    exact .nil
  | tree :: rest, _, h => by
    simp only [buildAll, bind_eq_ok, pure_eq_ok] at h
    obtain ⟨query, htree, queries, hrest, rfl⟩ := h
    exact .cons (unites_build htree) (unites_buildAll hrest)

end

-- Each query that is built has the columns of any of its leaves.
private theorem exists_perm_leaf {tree : UnionTree} {union : TypedQuery}
    (h : tree.build = .ok union) :
    ∃ leaf ∈ tree.leaves, leaf.schema.ids.Perm union.schema.ids := by
  obtain ⟨leaf, hleaf⟩ := (unites_build h).exists_leaf
  exact ⟨leaf, hleaf, (unites_build h).ids_perm leaf hleaf⟩

mutual

-- Leaves with the same columns can be put together in any way.
theorem exists_build {ids : List String} : ∀ {tree : UnionTree},
    (∀ leaf ∈ tree.leaves, leaf.schema.ids.Perm ids) →
      ∃ union, tree.build = .ok union ∧ union.schema.ids.Perm ids
  | .leaf query, h => ⟨query, rfl, h query (by simp [leaves])⟩
  | .stack first rest, h => by
    obtain ⟨hleft, hright⟩ := List.forall_mem_append.mp (by simpa only [leaves] using h)
    obtain ⟨query, hquery, hperm⟩ := exists_build hleft
    obtain ⟨queries, hqueries, hperms⟩ := exists_buildAll hright
    have hall : ∀ other ∈ query :: queries, other.schema.ids.Perm ids :=
      List.forall_mem_cons.mpr ⟨hperm, hperms⟩
    obtain ⟨union, hunion⟩ := TypedQuery.exists_concatAll_iff.mpr
      ⟨by simp, fun a ha b hb => (hall a ha).trans (hall b hb).symm⟩
    refine ⟨union, ?_, ?_⟩
    · simp only [build, bind_eq_ok]
      exact ⟨query, hquery, queries, hqueries, hunion⟩
    · exact ((TypedQuery.Unites.of_concatAll hunion).ids_perm query
        List.mem_cons_self).symm.trans hperm
  | .chained first second, h => by
    obtain ⟨hleft, hright⟩ := List.forall_mem_append.mp (by simpa only [leaves] using h)
    obtain ⟨left, hfirst, hpermLeft⟩ := exists_build hleft
    obtain ⟨right, hsecond, hpermRight⟩ := exists_build hright
    obtain ⟨union, hunion⟩ :=
      TypedQuery.exists_concat_iff.mpr (hpermLeft.trans hpermRight.symm)
    have hbuild : (chained first second).build = .ok union := by
      simp only [build, bind_eq_ok]
      exact ⟨left, hfirst, right, hsecond, hunion⟩
    obtain ⟨leaf, hleaf, hperm⟩ := exists_perm_leaf hbuild
    exact ⟨union, hbuild, hperm.symm.trans (h leaf hleaf)⟩

theorem exists_buildAll {ids : List String} : ∀ {trees : List UnionTree},
    (∀ leaf ∈ leavesOfAll trees, leaf.schema.ids.Perm ids) →
      ∃ unions, buildAll trees = .ok unions ∧ ∀ union ∈ unions, union.schema.ids.Perm ids
  | [], _ => ⟨[], rfl, by simp⟩
  | tree :: rest, h => by
    obtain ⟨hhead, hrest⟩ := List.forall_mem_append.mp (by simpa only [leavesOfAll] using h)
    obtain ⟨query, hquery, hperm⟩ := exists_build hhead
    obtain ⟨queries, hqueries, hperms⟩ := exists_buildAll hrest
    refine ⟨query :: queries, ?_, List.forall_mem_cons.mpr ⟨hperm, hperms⟩⟩
    simp only [buildAll, bind_eq_ok, pure_eq_ok]
    exact ⟨query, hquery, queries, hqueries, rfl⟩

end

theorem exists_build_iff {tree : UnionTree} :
    (∃ union, tree.build = .ok union) ↔ ∃ flat, TypedQuery.concatAll tree.leaves = .ok flat := by
  rw [TypedQuery.exists_concatAll_iff]
  constructor
  · rintro ⟨union, hunion⟩
    have hunites := unites_build hunion
    obtain ⟨leaf, hleaf⟩ := hunites.exists_leaf
    exact ⟨List.ne_nil_of_mem hleaf, fun a ha b hb =>
      (hunites.ids_perm a ha).trans (hunites.ids_perm b hb).symm⟩
  · rintro ⟨hne, hperm⟩
    obtain ⟨leaf, hleaf⟩ := List.exists_mem_of_ne_nil _ hne
    obtain ⟨union, hunion, -⟩ := exists_build fun other hother => hperm other hother leaf hleaf
    exact ⟨union, hunion⟩

-- Only a leaf on its own may have an order.
private theorem branches_build {tree : UnionTree} {union : TypedQuery} (hroot : tree.isLeaf = false)
    (h : tree.build = .ok union) : union.branches = union.query.lower := by
  cases tree with
  | leaf => simp [isLeaf] at hroot
  | stack first rest =>
    simp only [build, bind_eq_ok] at h
    obtain ⟨_, -, _, -, h⟩ := h
    exact TypedQuery.branches_concatAll h
  | chained first second =>
    simp only [build, bind_eq_ok] at h
    obtain ⟨left, -, right, -, h⟩ := h
    rcases TypedQuery.concat_cases left right with hconcat | ⟨_, -, hconcat⟩
    · exact TypedQuery.branches_concatAll (hconcat ▸ h)
    · exact TypedQuery.branches_concatAll (hconcat ▸ h)

end UnionTree

namespace Dialect

open Sql (Scope Source)

variable {dialect : Dialect}

theorem itemText_column (scope : Scope) (id : String) (type : ColumnType) :
    dialect.itemText scope (.column id type) = dialect.quoteIdentifier id := by
  simp [itemText, Sql.Item.column, Sql.Item.isIdentity]

theorem selectText_congr {a b : Select} (hitems : ∀ scope : Scope,
      a.items.map (dialect.itemText scope) = b.items.map (dialect.itemText scope))
    (hsource : ∀ next, dialect.sourceText a.source next = dialect.sourceText b.source next)
    (hcondition : a.condition = b.condition) (hgroupBy : a.groupBy = b.groupBy)
    (horderBy : a.orderBy = b.orderBy) (next : Nat) :
    dialect.selectText a next = dialect.selectText b next := by
  obtain ⟨items, source, condition, groupBy, orderBy, hidden⟩ := a
  obtain ⟨items', source', condition', groupBy', orderBy', hidden'⟩ := b
  simp only at hitems hsource hcondition hgroupBy horderBy
  simp only [selectText, hitems, hsource, hcondition, hgroupBy, horderBy]

theorem sourceText_subquery {a b : Select}
    (h : ∀ next, dialect.selectText a next = dialect.selectText b next) (next : Nat) :
    dialect.sourceText (.subquery [a]) next = dialect.sourceText (.subquery [b]) next := by
  simp only [sourceText, selectTexts, h]

-- Columns that are handed on are written by their ids only.
theorem map_itemText_ofColumn {a b : Schema} (hids : a.ids = b.ids) (scope : Scope) :
    (a.columns.map Sql.Item.ofColumn).map (dialect.itemText scope) =
      (b.columns.map Sql.Item.ofColumn).map (dialect.itemText scope) := by
  have hcolumns : ∀ schema : Schema,
      (schema.columns.map Sql.Item.ofColumn).map (dialect.itemText scope) =
        schema.ids.map dialect.quoteIdentifier := by
    intro schema
    rw [Schema.ids, Column.ids, List.map_map, List.map_map]
    exact List.map_congr_left fun column _ => itemText_column scope column.id column.type
  rw [hcolumns, hcolumns, hids]

-- So a page does not depend on the types of the columns.
private theorem selectText_rowNumberPage {selects : List Select} {a b : Schema}
    (hids : a.ids = b.ids)
    (offset limit : Option Nat) : ∀ next,
    dialect.selectText (Sql.rowNumberPage selects a offset limit) next =
      dialect.selectText (Sql.rowNumberPage selects b offset limit) next := by
  have hnumbered : ∀ next, dialect.selectText (Sql.numbered selects a) next =
      dialect.selectText (Sql.numbered selects b) next := by
    refine selectText_congr (fun scope => ?_) (fun _ => rfl) rfl rfl rfl
    simp only [Sql.numbered, Select.wrap, Select.plain, List.map_append,
      map_itemText_ofColumn hids]
  have hnames : (Sql.numbered selects a).names = (Sql.numbered selects b).names := by
    have hids' := hids
    simp only [Schema.ids, Column.ids] at hids'
    simp [Sql.numbered, Select.wrap, Select.plain, Select.names, Sql.Item.ofColumn,
      Sql.Item.column, Function.comp_def, hids']
  have hitems : ∀ (schema : Schema) (scope : Scope),
      (Sql.inRange (Sql.numbered selects schema) (Sql.pageRange offset limit)).items.map
        (dialect.itemText scope) =
        (Sql.numbered selects schema).names.map dialect.quoteIdentifier := by
    intro schema scope
    simp only [Sql.inRange, Select.plain, Select.names, List.map_map]
    exact List.map_congr_left fun item _ => itemText_column scope item.name item.type
  have hrange : ∀ next,
      dialect.selectText (Sql.inRange (Sql.numbered selects a) (Sql.pageRange offset limit)) next =
        dialect.selectText (Sql.inRange (Sql.numbered selects b) (Sql.pageRange offset limit))
          next := by
    refine selectText_congr (fun scope => ?_) ?_ rfl rfl rfl
    · rw [hitems, hitems, hnames]
    · exact sourceText_subquery hnumbered
  refine selectText_congr (fun scope => ?_) ?_ rfl rfl rfl
  · exact map_itemText_ofColumn hids scope
  · exact sourceText_subquery hrange

private theorem querySql_congr {a b : TypedQuery} (hlower : a.query.lower = b.query.lower)
    (hids : a.schema.ids = b.schema.ids) (offset limit : Option Nat) :
    dialect.querySql a offset limit = dialect.querySql b offset limit := by
  have hpage : dialect.queryText [Sql.rowNumberPage b.query.lower a.schema offset limit] =
      dialect.queryText [Sql.rowNumberPage b.query.lower b.schema offset limit] := by
    simp only [queryText, selectTexts, selectText_rowNumberPage hids offset limit 0]
  simp only [querySql, hlower, hpage]

end Dialect

-- Whichever way a union is put together, it is accepted if and only if it is accepted all at
-- once. Then it has the same columns, and the same text in every dialect.
theorem nesting_of_unions_is_invisible (tree : UnionTree) (hroot : tree.isLeaf = false) :
    ((∃ nested, tree.build = .ok nested) ↔
      ∃ flat, TypedQuery.concatAll tree.leaves = .ok flat) ∧
    ∀ nested flat, tree.build = .ok nested → TypedQuery.concatAll tree.leaves = .ok flat →
      List.Forall₂ (fun column other => column.id = other.id ∧
        column.displayName = other.displayName ∧ column.type.sameAs other.type = true)
        nested.schema.columns flat.schema.columns ∧
      ∀ (dialect : Dialect) (offset limit : Option Nat),
        dialect.querySql nested offset limit = dialect.querySql flat offset limit := by
  refine ⟨UnionTree.exists_build_iff, fun nested flat hnested hflat => ?_⟩
  obtain ⟨hcolumns, hbranches⟩ :=
    (UnionTree.unites_build hnested).unique (TypedQuery.Unites.of_concatAll hflat)
  have hlower : nested.query.lower = flat.query.lower := by
    rw [← UnionTree.branches_build hroot hnested, hbranches, TypedQuery.branches_concatAll hflat]
  exact ⟨hcolumns, fun dialect offset limit =>
    Dialect.querySql_congr hlower hcolumns.ids_eq offset limit⟩

-- A union of numbers and flags is one of texts. Behind texts of another type it becomes that
-- type, while all three at once become the union's own type of texts.
def labels : UnionTree :=
  .stack
    (.leaf (.table "names"
      ⟨[.ofType "label" (.ofKind "VARCHAR" .string), .ofType "amount" .integer], by decide⟩))
    [.chained
      (.leaf (.table "numbers" ⟨[.ofType "amount" .integer, .ofType "label" .integer], by decide⟩))
      (.leaf (.table "flags" ⟨[.ofType "label" .boolean, .ofType "amount" .integer], by decide⟩))]

theorem nesting_of_unions_is_invisible_labels :
    labels.isLeaf = false ∧ ∃ nested flat, labels.build = .ok nested ∧
      TypedQuery.concatAll labels.leaves = .ok flat ∧
      nested.schema.type? "label" = some (.ofKind "VARCHAR" .string) ∧
      flat.schema.type? "label" = some .string ∧
      ∀ (dialect : Dialect) (offset limit : Option Nat),
        dialect.querySql nested offset limit = dialect.querySql flat offset limit := by
  have hroot : labels.isLeaf = false := rfl
  obtain ⟨hiff, hsame⟩ := nesting_of_unions_is_invisible labels hroot
  obtain ⟨nested, hnested⟩ : ∃ nested, labels.build = .ok nested := ⟨_, rfl⟩
  obtain ⟨flat, hflat⟩ := hiff.mp ⟨nested, hnested⟩
  have htypes : nested.schema.type? "label" = some (.ofKind "VARCHAR" .string) ∧
      flat.schema.type? "label" = some .string := by
    obtain rfl := Except.ok.inj hnested
    obtain rfl := Except.ok.inj hflat
    exact ⟨rfl, rfl⟩
  exact ⟨hroot, nested, flat, hnested, hflat, htypes.1, htypes.2,
    (hsame nested flat hnested hflat).2⟩

end PivotQuery
