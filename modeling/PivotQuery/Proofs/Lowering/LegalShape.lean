import PivotQuery.Proofs.Lowering.NestedSelects

namespace PivotQuery

namespace Sql

namespace Exp

-- The columns that are named outside an aggregate.
def plainColumns : Exp → List String
  | .value exp => exp.columns
  | .joinColumn _ id => [id]
  | .aggregate _ _ _ | .countStar => []
  | .cast exp _ => exp.plainColumns
  | .rowNumber keys => keys.map SortKey.column

def aggregates : Exp → Bool
  | .aggregate _ _ _ | .countStar => true
  | .value _ | .joinColumn _ _ | .rowNumber _ => false
  | .cast exp _ => exp.aggregates

-- A column of one side of a join, as it is or with another type.
def isJoinColumn : Exp → Bool
  | .joinColumn _ _ | .cast (.joinColumn _ _) _ => true
  | _ => false

def isCast : Exp → Bool
  | .cast _ _ => true
  | _ => false

end Exp

-- UNION ALL combines selects that have no order.
def CombinesUnsorted (selects : List Select) : Prop :=
  selects.length ≠ 1 → ∀ select ∈ selects, select.orderBy = [] ∧ select.hidden = []

-- Selects and the queries at any depth inside them.
def queriesIn (selects : List Select) : List (List Select) :=
  selects :: (nestedSelects selects).flatMap fun select => select.source.queries

namespace Select

-- What a database accepts in one SELECT, apart from the meaning of its names.
structure Legal (select : Select) : Prop where
  grouped : select.groupBy ≠ [] → ∀ item ∈ select.items ++ select.hidden,
    ∀ id ∈ item.exp.plainColumns, id ∈ select.groupBy
  ungrouped : select.groupBy = [] →
    (∃ item ∈ select.items ++ select.hidden, item.exp.aggregates = true) →
    ∀ item ∈ select.items ++ select.hidden, item.exp.plainColumns = []
  unsorted : select.orderBy = [] → select.hidden = []
  ofJoin : select.isJoin = true →
    (∀ item ∈ select.items ++ select.hidden, item.exp.isJoinColumn = true) ∧
      select.condition = none ∧ select.groupBy = [] ∧ select.orderBy = []
  sides : select.isJoin = false → ∀ item ∈ select.items ++ select.hidden,
    item.exp.joinColumns = []
  exps : ∀ item ∈ select.items ++ select.hidden, item.exp.isLowered = true

-- The part of it that is about the select list. What is cast has become text, so that no
-- later union casts it again.
structure LegalItems (select : Select) : Prop where
  grouped : select.groupBy ≠ [] → ∀ item ∈ select.items, ∀ id ∈ item.exp.plainColumns,
    id ∈ select.groupBy
  ungrouped : select.groupBy = [] → (∃ item ∈ select.items, item.exp.aggregates = true) →
    ∀ item ∈ select.items, item.exp.plainColumns = []
  ofJoin : select.isJoin = true → ∀ item ∈ select.items, item.exp.isJoinColumn = true
  sides : select.isJoin = false → ∀ item ∈ select.items, item.exp.joinColumns = []
  casts : ∀ item ∈ select.items, item.exp.isCast = true → item.type = .string

-- The select of an operator. Nothing is hidden next to an aggregate, where a hidden column
-- would be one more column outside of it.
structure WellShaped (select : Select) : Prop where
  list : select.LegalItems
  unsorted : select.orderBy = [] → select.hidden = []
  hidden : select.hidden ≠ [] → select.groupBy = [] ∧
    ∀ item ∈ select.items, item.exp.aggregates = false
  ofJoin : select.isJoin = true →
    select.condition = none ∧ select.groupBy = [] ∧ select.orderBy = []
  queries : ∀ query ∈ select.source.queries, CombinesUnsorted query

variable {select other : Select} {schema result : Schema} {selects : List Select}

-- A column that is handed on is one outside an aggregate, so there is no aggregate beside it
-- unless its select groups.
theorem LegalItems.aggregates_eq_false (h : select.LegalItems) (hgroup : select.groupBy = [])
    {name : String} (hidentity : select.isIdentityAt name = true) :
    ∀ item ∈ select.items, item.exp.aggregates = false := by
  intro item hitem
  obtain ⟨own, hown, hexp⟩ := isIdentityAt_iff.mp hidentity
  by_contra haggregate
  have hnone := h.ungrouped hgroup ⟨item, hitem, by simpa using haggregate⟩ own
    (name_of_item? hown).1
  simp [hexp, Exp.plainColumns, ValueExpr.columns] at hnone

-- What passes through a select that groups are its keys, and nothing passes through one that
-- only aggregates.
theorem LegalItems.mem_groupBy (h : select.LegalItems) (hgroup : select.groupBy ≠ [])
    {ids : List String} (hpass : select.passesThrough ids = true) :
    ∀ id ∈ ids, id ∈ select.groupBy := by
  intro id hid
  obtain ⟨own, hown, hexp⟩ := isIdentityAt_iff.mp (List.all_eq_true.mp hpass id hid)
  refine h.grouped hgroup own (name_of_item? hown).1 id ?_
  simp [hexp, Exp.plainColumns, ValueExpr.columns]

theorem LegalItems.eq_nil_of_passesThrough (h : select.LegalItems) (hgroup : select.groupBy = [])
    (haggregate : ∃ item ∈ select.items, item.exp.aggregates = true) {ids : List String}
    (hpass : select.passesThrough ids = true) : ids = [] := by
  obtain ⟨item, hitem, haggregate⟩ := haggregate
  refine List.eq_nil_iff_forall_not_mem.mpr fun id hid => ?_
  have hnone := h.aggregates_eq_false hgroup (List.all_eq_true.mp hpass id hid) item hitem
  simp [haggregate] at hnone

-- A select list that computes nothing new over the same source is as legal as before.
theorem LegalItems.of_exps (h : select.LegalItems)
    (hitems : ∀ item ∈ other.items, ∃ own ∈ select.items, own.exp = item.exp ∧
      own.type = item.type)
    (hgroup : other.groupBy = select.groupBy) (hsource : other.source = select.source) :
    other.LegalItems := by
  have hjoin : other.isJoin = select.isJoin := by simp [isJoin, hsource]
  refine ⟨fun hgrouped item hitem => ?_, fun hungrouped haggregate item hitem => ?_,
    fun hover item hitem => ?_, fun hover item hitem => ?_, fun item hitem => ?_⟩ <;>
    obtain ⟨own, hown, hexp, htype⟩ := hitems item hitem
  · rw [hgroup] at hgrouped ⊢
    rw [← hexp]
    exact h.grouped hgrouped own hown
  · obtain ⟨item, hitem, haggregate⟩ := haggregate
    obtain ⟨first, hfirst, hexp', -⟩ := hitems item hitem
    rw [← hexp]
    exact h.ungrouped (hgroup ▸ hungrouped) ⟨first, hfirst, hexp' ▸ haggregate⟩ own hown
  · rw [← hexp]
    exact h.ofJoin (hjoin ▸ hover) own hown
  · rw [← hexp]
    exact h.sides (hjoin ▸ hover) own hown
  · rw [← hexp, ← htype]
    exact h.casts own hown

theorem LegalItems.plain (schema : Schema) (source : Source)
    (hsource : (plain (schema.columns.map Item.ofColumn) source).isJoin = false) :
    (plain (schema.columns.map Item.ofColumn) source).LegalItems where
  grouped := by simp [Select.plain]
  ungrouped := by
    rintro - ⟨item, hitem, haggregate⟩
    obtain ⟨column, -, rfl⟩ := List.mem_map.mp hitem
    simp [Item.ofColumn, Item.column, Exp.aggregates] at haggregate
  ofJoin hjoin := by simp [hsource] at hjoin
  sides _ := List.forall_mem_map.mpr fun column _ => rfl
  casts := List.forall_mem_map.mpr fun column _ => by
    simp [Item.ofColumn, Item.column, Exp.isCast]

theorem WellShaped.plain (schema : Schema) (source : Source)
    (hsource : (plain (schema.columns.map Item.ofColumn) source).isJoin = false)
    (hqueries : ∀ query ∈ source.queries, CombinesUnsorted query) :
    (plain (schema.columns.map Item.ofColumn) source).WellShaped where
  list := .plain schema source hsource
  unsorted _ := rfl
  hidden hhidden := by simp [Select.plain] at hhidden
  ofJoin hjoin := by simp [hsource] at hjoin
  queries := hqueries

theorem WellShaped.wrap (h : CombinesUnsorted selects) : (wrap selects schema).WellShaped :=
  .plain schema _ rfl (List.forall_mem_singleton.mpr h)

theorem combinesUnsorted_singleton (select : Select) : CombinesUnsorted [select] :=
  fun hmany => absurd rfl hmany

-- The order that a new select takes over from a sorted one is not empty if something is hidden.
theorem WellShaped.wrapOrdered (h : select.WellShaped) :
    (select.wrapOrdered schema).WellShaped where
  list := (LegalItems.plain schema (.subquery [select.exposedInner]) rfl).of_exps
    (fun item hitem => ⟨item, hitem, rfl, rfl⟩) rfl rfl
  unsorted hunsorted := by
    rw [wrapOrdered_orderBy, List.map_eq_nil_iff] at hunsorted
    simp [wrapOrdered_hidden, h.unsorted hunsorted]
  hidden _ := by
    refine ⟨rfl, fun item hitem => ?_⟩
    obtain ⟨column, -, rfl⟩ := List.mem_map.mp hitem
    rfl
  ofJoin hjoin := by simp [isJoin] at hjoin
  queries := List.forall_mem_singleton.mpr (combinesUnsorted_singleton _)

theorem WellShaped.combinesUnsorted (h : ∀ select ∈ selects, select.WellShaped)
    (hlowered : Sql.Lowered selects schema) : CombinesUnsorted selects := by
  intro hmany select hselect
  have hunsorted := hlowered.unordered hmany select hselect
  exact ⟨hunsorted, (h select hselect).unsorted hunsorted⟩

theorem WellShaped.reuse (mergeable : Select → Bool) (hlowered : Sql.Lowered selects schema)
    (h : ∀ select ∈ selects, select.WellShaped) : (reuse mergeable schema selects).WellShaped :=
  reuse_cases (fun select hselect _ => h select (by simp [hselect]))
    (.wrap (combinesUnsorted h hlowered))

theorem WellShaped.reuseOrdered (mergeable : Select → Bool)
    (hlowered : Sql.Lowered selects schema) (h : ∀ select ∈ selects, select.WellShaped) :
    (reuseOrdered mergeable schema selects).WellShaped :=
  reuseOrdered_cases (fun select hselect _ => h select (by simp [hselect]))
    (.wrap (combinesUnsorted h hlowered))
    (fun select hselect => (h select (by simp [hselect])).wrapOrdered)

-- What each operator does to the select that it goes into.

theorem WellShaped.project {ids : List String} (h : select.WellShaped)
    (hadmits : select.admitsProject ids = true) : (select.projected ids).WellShaped := by
  have hitems : ∀ item ∈ (select.projected ids).items, item ∈ select.items := by
    intro item hitem
    obtain ⟨id, -, hid⟩ := List.mem_filterMap.mp hitem
    exact (name_of_item? hid).1
  refine ⟨h.list.of_exps (fun item hitem => ⟨item, hitems item hitem, rfl, rfl⟩) rfl rfl,
    fun hunsorted => ?_, fun hhidden => ?_, h.ofJoin, h.queries⟩
  · rw [show (select.projected ids).orderBy = select.orderBy from rfl] at hunsorted
    simp [projected, h.unsorted hunsorted, hunsorted]
  · by_cases hbefore : select.hidden = []
    · -- then a column is dropped here, which was handed on from the source
      obtain ⟨item, hitem⟩ := List.exists_mem_of_ne_nil _ hhidden
      rw [show (select.projected ids).hidden = select.hidden ++ _ from rfl, hbefore,
        List.nil_append] at hitem
      obtain ⟨key, hkey, -⟩ := List.mem_filterMap.mp hitem
      obtain ⟨hkey, hdropped⟩ := List.mem_filter.mp hkey
      have hadmit := List.all_eq_true.mp hadmits key hkey
      obtain ⟨⟨hgroup, -⟩, hidentity⟩ : (select.groupBy = [] ∧ select.isJoin = false) ∧
          select.isIdentityAt key.column = true := by
        simp_all [canHide]
      exact ⟨hgroup, fun item hitem =>
        h.list.aggregates_eq_false hgroup hidentity item (hitems item hitem)⟩
    · obtain ⟨hgroup, hplain⟩ := h.hidden hbefore
      exact ⟨hgroup, fun item hitem => hplain item (hitems item hitem)⟩

theorem WellShaped.filter {condition : Filter} (h : select.WellShaped)
    (hjoin : select.isJoin = false) : (select.filtered condition).WellShaped where
  list := h.list.of_exps (fun item hitem => ⟨item, hitem, rfl, rfl⟩) rfl rfl
  unsorted := h.unsorted
  hidden := h.hidden
  ofJoin hother := absurd (hjoin.symm.trans hother) Bool.false_ne_true
  queries := h.queries

-- A new column is computed from what passes through, so from keys if the select groups.
theorem LegalItems.extend {id : String} {exp : ValueExpr} {type : ColumnType}
    (h : select.LegalItems) (hjoin : select.isJoin = false)
    (hpass : select.passesThrough exp.columns = true) :
    (select.extended id exp type).LegalItems where
  grouped hgroup := by
    refine List.forall_mem_append.mpr ⟨h.grouped hgroup, List.forall_mem_singleton.mpr ?_⟩
    exact h.mem_groupBy hgroup hpass
  ungrouped := by
    rintro hgroup ⟨item, hitem, haggregate⟩
    have hold : item ∈ select.items := by
      refine (List.mem_append.mp hitem).resolve_right fun hnew => ?_
      obtain rfl := List.mem_singleton.mp hnew
      simp [Exp.aggregates] at haggregate
    refine List.forall_mem_append.mpr ⟨h.ungrouped hgroup ⟨item, hold, haggregate⟩, ?_⟩
    exact List.forall_mem_singleton.mpr
      (h.eq_nil_of_passesThrough hgroup ⟨item, hold, haggregate⟩ hpass)
  ofJoin hother := absurd (hjoin.symm.trans hother) Bool.false_ne_true
  sides _ := List.forall_mem_append.mpr ⟨h.sides hjoin, List.forall_mem_singleton.mpr rfl⟩
  casts := List.forall_mem_append.mpr ⟨h.casts, by simp [Exp.isCast]⟩

theorem WellShaped.extend {id : String} {exp : ValueExpr} {type : ColumnType}
    (h : select.WellShaped) (hjoin : select.isJoin = false)
    (hpass : select.passesThrough exp.columns = true) :
    (select.extended id exp type).WellShaped where
  list := h.list.extend hjoin hpass
  unsorted := h.unsorted
  hidden hhidden := by
    obtain ⟨hgroup, hplain⟩ := h.hidden hhidden
    exact ⟨hgroup, List.forall_mem_append.mpr ⟨hplain, by simp [Exp.aggregates]⟩⟩
  ofJoin hother := absurd (hjoin.symm.trans hother) Bool.false_ne_true
  queries := h.queries

private theorem grouped_item_cases {keys : List String} {aggs : List Aggregate} {item : Item}
    (hitem : item ∈ (select.grouped schema keys aggs).items) :
    (∃ id ∈ keys, item.exp = .value (.column id)) ∨
      ∃ agg id type, item.exp = .aggregate agg id type := by
  rcases List.mem_append.mp hitem with hitem | hitem
  · obtain ⟨id, hid, hitem⟩ := List.mem_filterMap.mp hitem
    obtain ⟨type, -, rfl⟩ := Option.map_eq_some_iff.mp hitem
    exact Or.inl ⟨id, hid, rfl⟩
  · obtain ⟨aggregate, -, hitem⟩ := List.mem_filterMap.mp hitem
    obtain ⟨type, -, rfl⟩ := Option.map_eq_some_iff.mp hitem
    exact Or.inr ⟨_, _, _, rfl⟩

theorem WellShaped.group {keys : List String} {aggs : List Aggregate} (h : select.WellShaped)
    (hjoin : select.isJoin = false) (hunsorted : select.orderBy = []) :
    (select.grouped schema keys aggs).WellShaped := by
  have hother : (select.grouped schema keys aggs).isJoin = false := hjoin
  refine ⟨⟨fun _ item hitem id hid => ?_, fun hgroup _ item hitem => ?_, by simp [hother],
    fun _ item hitem => ?_, fun item hitem hcast => ?_⟩, fun _ => h.unsorted hunsorted,
    fun hhidden => absurd (h.unsorted hunsorted) hhidden, by simp [hother], h.queries⟩ <;>
    obtain ⟨key, hkey, hexp⟩ | ⟨agg, column, type, hexp⟩ := grouped_item_cases hitem
  · obtain rfl : id = key := by simpa [hexp, Exp.plainColumns, ValueExpr.columns] using hid
    exact hkey
  · simp [hexp, Exp.plainColumns] at hid
  · rw [show keys = [] from hgroup] at hkey
    simp at hkey
  · rw [hexp, Exp.plainColumns]
  · simp [hexp, Exp.joinColumns]
  · simp [hexp, Exp.joinColumns]
  · simp [hexp, Exp.isCast] at hcast
  · simp [hexp, Exp.isCast] at hcast

theorem WellShaped.sort {keys : List SortKey} (h : select.WellShaped)
    (hjoin : select.isJoin = false) : (select.sorted keys).WellShaped where
  list := h.list.of_exps (fun item hitem => ⟨item, hitem, rfl, rfl⟩) rfl rfl
  unsorted _ := rfl
  hidden hhidden := by simp [sorted] at hhidden
  ofJoin hother := absurd (hjoin.symm.trans hother) Bool.false_ne_true
  queries := h.queries

theorem WellShaped.mapColumns {changes : NameMap ColumnChange} (h : select.WellShaped) :
    (select.mapped changes).WellShaped where
  list := h.list.of_exps
    (fun item hitem => by
      obtain ⟨own, hown, rfl⟩ := List.mem_map.mp hitem
      exact ⟨own, hown, rfl, rfl⟩) rfl rfl
  unsorted hunsorted := h.unsorted (List.map_eq_nil_iff.mp hunsorted)
  hidden hhidden := by
    obtain ⟨hgroup, hplain⟩ := h.hidden hhidden
    exact ⟨hgroup, List.forall_mem_map.mpr hplain⟩
  ofJoin hjoin := by
    obtain ⟨hcondition, hgroup, hunsorted⟩ := h.ofJoin hjoin
    exact ⟨hcondition, hgroup, List.map_eq_nil_iff.mpr hunsorted⟩
  queries := h.queries

theorem WellShaped.join {left : Schema} {lhs rhs : List Select} {type : JoinType}
    {on : List String} (hlhs : CombinesUnsorted lhs) (hrhs : CombinesUnsorted rhs) :
    (Select.ofJoin result left lhs rhs type on).WellShaped where
  list :=
    { grouped := by simp [Select.ofJoin, Select.plain]
      ungrouped := by
        rintro - ⟨item, hitem, haggregate⟩
        obtain ⟨column, -, rfl⟩ := List.mem_map.mp hitem
        simp [Exp.aggregates] at haggregate
      ofJoin := fun _ => List.forall_mem_map.mpr fun column _ => rfl
      sides := fun hother => by simp [isJoin] at hother
      casts := List.forall_mem_map.mpr fun column _ => by simp [Exp.isCast] }
  unsorted _ := rfl
  hidden hhidden := by simp [Select.ofJoin, Select.plain] at hhidden
  ofJoin _ := ⟨rfl, rfl, rfl⟩
  queries := by simpa [Source.queries] using ⟨hlhs, hrhs⟩

theorem castTo_plainColumns (type : ColumnType) (item : Item) :
    (castTo type item).exp.plainColumns = item.exp.plainColumns := by
  unfold castTo
  split <;> rfl

theorem castTo_aggregates (type : ColumnType) (item : Item) :
    (castTo type item).exp.aggregates = item.exp.aggregates := by
  unfold castTo
  split <;> rfl

-- A column of a branch has the type of the union already, or is no text yet and becomes text.
private theorem castTo_cases (hlowered : select.Lowered schema)
    (hstacks : Schema.Stacks result.columns schema) {column : Column}
    (hcolumn : column ∈ result.columns) {item : Item} (hitem : select.item? column.id = some item) :
    castTo column.type item = item ∨ item.type ≠ .string ∧ column.type = .string ∧
      castTo column.type item = ⟨.cast item.exp .string, .string, item.name⟩ := by
  obtain ⟨type, htype, hunited⟩ := hstacks column hcolumn
  obtain ⟨own, hown, rfl⟩ := Option.map_eq_some_iff.mp htype
  obtain ⟨hmem, hid⟩ := Schema.get?_eq_some.mp hown
  obtain ⟨found, -, hfound, -, hsame⟩ := hlowered.fits.exists_item? hmem
  obtain rfl : found = item := Option.some.inj (hfound.symm.trans (hid ▸ hitem))
  by_cases hkept : found.type.sameAs column.type = true
  · exact Or.inl (by rw [castTo, if_pos hkept])
  · have hstring : column.type = .string :=
      hunited.resolve_left fun hunited => hkept (ColumnType.sameAs_trans hsame hunited)
    refine Or.inr ⟨fun htext => hkept ?_, hstring, ?_⟩
    · rw [htext, hstring]
      exact ColumnType.sameAs_refl _
    · rw [castTo, if_neg hkept, hstring]

theorem LegalItems.align (h : select.LegalItems) (hlowered : select.Lowered schema)
    (hstacks : Schema.Stacks result.columns schema) : (select.align result).LegalItems := by
  have hitems : ∀ item ∈ (select.align result).items, ∃ column ∈ result.columns,
      ∃ own ∈ select.items, select.item? column.id = some own ∧
        castTo column.type own = item := by
    intro item hitem
    obtain ⟨column, hcolumn, hitem⟩ := List.mem_filterMap.mp hitem
    obtain ⟨own, hown, hcast⟩ := Option.map_eq_some_iff.mp hitem
    exact ⟨column, hcolumn, own, (name_of_item? hown).1, hown, hcast⟩
  refine ⟨fun hgroup item hitem => ?_, fun hgroup haggregate item hitem => ?_,
    fun hjoin item hitem => ?_, fun hjoin item hitem => ?_, fun item hitem hcast => ?_⟩ <;>
    obtain ⟨column, hcolumn, own, hmem, hown, rfl⟩ := hitems item hitem
  · rw [castTo_plainColumns]
    exact h.grouped hgroup own hmem
  · obtain ⟨item, hitem, haggregate⟩ := haggregate
    obtain ⟨column, -, first, hfirst, -, rfl⟩ := hitems item hitem
    rw [castTo_plainColumns]
    exact h.ungrouped hgroup ⟨first, hfirst, castTo_aggregates _ _ ▸ haggregate⟩ own hmem
  · have hside := h.ofJoin hjoin own hmem
    rcases castTo_cases hlowered hstacks hcolumn hown with hkept | ⟨htype, -, hcast⟩
    · rw [hkept]
      exact hside
    · rw [hcast]
      -- what is cast before is text, and text is not cast
      cases hexp : own.exp with
      | joinColumn side id => rfl
      | cast exp type => exact absurd (h.casts own hmem (by rw [hexp]; rfl)) htype
      | _ => simp [hexp, Exp.isJoinColumn] at hside
  · rw [castTo_joinColumns]
    exact h.sides hjoin own hmem
  · rcases castTo_cases hlowered hstacks hcolumn hown with hkept | ⟨-, -, hnew⟩
    · rw [hkept] at hcast ⊢
      exact h.casts own hmem hcast
    · rw [hnew]

theorem WellShaped.align (h : select.WellShaped) (hlowered : select.Lowered schema)
    (hstacks : Schema.Stacks result.columns schema) : (select.align result).WellShaped where
  list := h.list.align hlowered hstacks
  unsorted := h.unsorted
  hidden hhidden := by
    obtain ⟨hgroup, hplain⟩ := h.hidden hhidden
    refine ⟨hgroup, fun item hitem => ?_⟩
    obtain ⟨column, -, hitem⟩ := List.mem_filterMap.mp hitem
    obtain ⟨own, hown, rfl⟩ := Option.map_eq_some_iff.mp hitem
    rw [castTo_aggregates]
    exact hplain own (name_of_item? hown).1
  ofJoin := h.ofJoin
  queries := h.queries

-- What is hidden is a plain column beside plain columns, so a select is legal also with what it
-- hides.
theorem WellShaped.legal (h : select.WellShaped) (hlowered : select.Lowered schema) :
    select.Legal := by
  have hhidden : ∀ item ∈ select.hidden, item.exp.aggregates = false ∧
      item.exp.joinColumns = [] ∧ item.exp.isLowered = true := by
    intro item hitem
    obtain ⟨id, hexp⟩ := hlowered.hidden item hitem
    simp [hexp, Exp.aggregates, Exp.joinColumns, Exp.isLowered]
  refine ⟨fun hgroup => ?_, fun hgroup haggregate => ?_, h.unsorted, fun hjoin => ?_,
    fun hjoin => ?_, ?_⟩
  · have hnone : select.hidden = [] := by
      by_contra hsome
      exact hgroup (h.hidden hsome).1
    rw [hnone, List.append_nil]
    exact h.list.grouped hgroup
  · obtain ⟨item, hitem, haggregate⟩ := haggregate
    have hmem : item ∈ select.items := by
      refine (List.mem_append.mp hitem).resolve_right fun hitem => ?_
      simp [(hhidden item hitem).1] at haggregate
    have hnone : select.hidden = [] := by
      by_contra hsome
      simp [(h.hidden hsome).2 item hmem] at haggregate
    rw [hnone, List.append_nil]
    exact h.list.ungrouped hgroup ⟨item, hmem, haggregate⟩
  · have hrest := h.ofJoin hjoin
    rw [h.unsorted hrest.2.2, List.append_nil]
    exact ⟨h.list.ofJoin hjoin, hrest⟩
  · exact List.forall_mem_append.mpr
      ⟨h.list.sides hjoin, fun item hitem => (hhidden item hitem).2.1⟩
  · exact List.forall_mem_append.mpr
      ⟨hlowered.exps, fun item hitem => (hhidden item hitem).2.2⟩

-- The same as a subquery, where the hidden columns are part of the list under other names.
theorem Legal.exposedInner (h : select.Legal) : select.exposedInner.Legal := by
  have hitems : ∀ item ∈ select.exposedInner.items ++ select.exposedInner.hidden,
      ∃ own ∈ select.items ++ select.hidden, own.exp = item.exp := by
    intro item hitem
    rw [show select.exposedInner.hidden = [] from rfl, List.append_nil] at hitem
    rcases List.mem_append.mp hitem with hitem | hitem
    · exact ⟨item, List.mem_append_left _ hitem, rfl⟩
    · obtain ⟨⟨own, index⟩, hentry, rfl⟩ := List.mem_map.mp hitem
      exact ⟨own, List.mem_append_right _ (List.fst_mem_of_mem_zipIdx hentry), rfl⟩
  refine ⟨fun hgroup item hitem => ?_, fun hgroup haggregate item hitem => ?_, fun _ => rfl,
    fun hjoin => ?_, fun hjoin item hitem => ?_, fun item hitem => ?_⟩
  · obtain ⟨own, hown, hexp⟩ := hitems item hitem
    exact hexp ▸ h.grouped hgroup own hown
  · obtain ⟨first, hfirst, haggregate⟩ := haggregate
    obtain ⟨one, hone, hexp'⟩ := hitems first hfirst
    obtain ⟨own, hown, hexp⟩ := hitems item hitem
    exact hexp ▸ h.ungrouped hgroup ⟨one, hone, hexp' ▸ haggregate⟩ own hown
  · obtain ⟨hsides, hcondition, hgroup, -⟩ := h.ofJoin hjoin
    refine ⟨fun item hitem => ?_, hcondition, hgroup, rfl⟩
    obtain ⟨own, hown, hexp⟩ := hitems item hitem
    exact hexp ▸ hsides own hown
  · obtain ⟨own, hown, hexp⟩ := hitems item hitem
    exact hexp ▸ h.sides hjoin own hown
  · obtain ⟨own, hown, hexp⟩ := hitems item hitem
    exact hexp ▸ h.exps own hown

end Select

end Sql

namespace Query

open Sql (Select)

theorem lower_wellShaped : AcceptedCases fun query _ =>
    ∀ select ∈ query.lower, select.WellShaped where
  table name schema := List.forall_mem_singleton.mpr (.plain schema _ rfl (by
    simp [Sql.Source.queries]))
  sql text schema := List.forall_mem_singleton.mpr (.plain schema _ rfl (by
    simp [Sql.Source.queries]))
  project {input ids schema result} hinput h ih := by
    have hlowered := lower_lowered.holds hinput
    rw [lower, schema_of_infer hinput]
    exact List.forall_mem_singleton.mpr ((Select.WellShaped.reuseOrdered _ hlowered ih).project
      (Select.admitsProject_reuseOrdered ids hlowered.each))
  filter {input condition schema result} hinput h ih := by
    rw [lower, schema_of_infer hinput]
    exact List.forall_mem_singleton.mpr
      ((Select.WellShaped.reuseOrdered _ (lower_lowered.holds hinput) ih).filter
        Select.isJoin_filterInput)
  extend {input id exp options schema result} hinput h ih := by
    rw [lower, schema_of_infer hinput]
    exact List.forall_mem_singleton.mpr
      ((Select.WellShaped.reuseOrdered _ (lower_lowered.holds hinput) ih).extend
        Select.isJoin_extendInput (Select.passesThrough_extendInput (Schema.extended_ok h).2.1))
  groupBy {input keys aggs schema result} hinput h ih := by
    rw [lower, schema_of_infer hinput]
    exact List.forall_mem_singleton.mpr
      ((Select.WellShaped.reuse _ (lower_lowered.holds hinput) ih).group
        Select.isJoin_groupByInput Select.orderBy_groupByInput)
  join hleft hright _ ihleft ihright :=
    List.forall_mem_singleton.mpr (.join
      (Select.WellShaped.combinesUnsorted ihleft (lower_lowered.holds hleft))
      (Select.WellShaped.combinesUnsorted ihright (lower_lowered.holds hright)))
  concat {branches schemas result} hbranches h := by
    have hinfer := infer_concat (hbranches.imp fun _ _ hbranch => hbranch.1) h
    rw [lower, schema_of_infer hinfer]
    intro select hselect
    obtain ⟨query, hquery, own, hmem, rfl⟩ := mem_lowerBranches.mp hselect
    obtain ⟨schema, hschema, hquery', ih⟩ := exists_mem_right hbranches hquery
    have hlowered := lower_lowered.holds hquery'
    rw [schema_of_infer hquery'] at hmem
    have hshaped : own.WellShaped :=
      Select.branch_cases hlowered (fun own hown _ => ih own hown)
        (.wrap (Select.WellShaped.combinesUnsorted ih hlowered)) own hmem
    exact hshaped.align (Select.Lowered.branch hlowered own hmem).1
      ((Schema.concatenated_ok h).2 schema hschema)
  sort {input keys schema result} hinput h ih := by
    rw [lower, schema_of_infer hinput]
    exact List.forall_mem_singleton.mpr
      ((Select.WellShaped.reuse _ (lower_lowered.holds hinput) ih).sort Select.isJoin_sortInput)
  mapColumns {input changes schema result} hinput h ih := by
    rw [lower, schema_of_infer hinput]
    exact List.forall_mem_singleton.mpr
      (Select.WellShaped.reuseOrdered _ (lower_lowered.holds hinput) ih).mapColumns

theorem nested_legal : AcceptedCases fun query _ => query.Everywhere (fun _ => True) →
    ∀ select ∈ Sql.nestedSelects query.lower, select.Legal ∧
      ∀ union ∈ select.source.queries, Sql.CombinesUnsorted union := by
  refine forall_nested_lower fun {query schema} hinfer _ select hselect => ?_
  have hshaped := lower_wellShaped.holds hinfer select hselect
  have hlegal := hshaped.legal ((lower_lowered.holds hinfer).each select hselect)
  exact ⟨⟨hlegal, hshaped.queries⟩, ⟨hlegal.exposedInner, hshaped.queries⟩⟩

end Query

-- Every SELECT of an accepted query is one that a strict database takes: it names columns
-- outside of aggregates only if it groups by them, has no order in a union, hides columns only
-- behind an order, and reads a join only to pick columns of its sides. Nothing else picks
-- columns of sides, and nothing numbers or counts rows.
theorem lowered_selects_are_legal (query : TypedQuery) :
    (∀ union ∈ Sql.queriesIn query.query.lower, Sql.CombinesUnsorted union) ∧
      ∀ select ∈ Sql.nestedSelects query.query.lower, select.Legal := by
  have hnested := Query.nested_legal.holds query.typed fun _ _ => trivial
  refine ⟨List.forall_mem_cons.mpr ⟨?_, fun union hunion => ?_⟩,
    fun select hselect => (hnested select hselect).1⟩
  · exact Sql.Select.WellShaped.combinesUnsorted (Query.lower_wellShaped.holds query.typed)
      (Query.lower_lowered.holds query.typed)
  · obtain ⟨select, hselect, hunion⟩ := List.mem_flatMap.mp hunion
    exact (hnested select hselect).2 union hunion

end PivotQuery
