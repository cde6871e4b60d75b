import PivotQuery.Proofs.Rows.Select
import PivotQuery.Proofs.Rows.Row
import PivotQuery.Proofs.Lowering.Operators

namespace PivotQuery.Sql

variable {V : Type}

def valueRow (engine : Engine V) (items : List Item) (group : List (SourceRow V)) : Row V :=
  resultRow engine items (fun _ => engine.null) group

section Lowered

variable {engine : Engine V}

theorem Exp.eval_of_isLowered {exp : Exp} (h : exp.isLowered = true)
    (number number' : List SortKey → V) (group : List (SourceRow V)) :
    exp.eval engine number group = exp.eval engine number' group := by
  induction exp with
  | value _ => rfl
  | joinColumn _ _ => rfl
  | aggregate _ _ _ => rfl
  | cast exp type ih => simp only [eval, ih h]
  | rowNumber _ => simp [isLowered] at h
  | countStar => rfl

theorem resultRow_eq {items : List Item} (h : ∀ item ∈ items, item.exp.isLowered = true)
    (number : List SortKey → V) (group : List (SourceRow V)) :
    resultRow engine items number group = valueRow engine items group :=
  List.map_congr_left fun item hitem => by rw [Exp.eval_of_isLowered (h item hitem)]

@[simp] theorem valueRow_append (items more : List Item) (group : List (SourceRow V)) :
    valueRow engine (items ++ more) group =
      valueRow engine items group ++ valueRow engine more group :=
  List.map_append

@[simp] theorem names_valueRow (items : List Item) (group : List (SourceRow V)) :
    Row.names (valueRow engine items group) = items.map Item.name := by
  simp [Row.names, valueRow, resultRow]

theorem Select.Fits.names_valueRow {select : Select} {schema : Schema} (h : select.Fits schema)
    (group : List (SourceRow V)) : Row.names (valueRow engine select.items group) = schema.ids :=
  (Sql.names_valueRow _ _).trans h.names_eq

-- A name in a result row means the first item of that name.
theorem get_valueRow {items : List Item} {name : String} {item : Item}
    (h : items.find? (fun item => item.name == name) = some item) (group : List (SourceRow V)) :
    (valueRow engine items group).get engine name =
      item.exp.eval engine (fun _ => engine.null) group :=
  Row.get_map items Item.name (fun item => item.exp.eval engine (fun _ => engine.null) group) h

-- A group of rows with the same keys has them in its first row, which is there.
theorem keyRow_first [DecidableEq V] {keys : List String} {rows : List (SourceRow V)} {key : Row V}
    (h : key ∈ rows.map (keyRow engine keys)) :
    keyRow engine keys
      (SourceRow.first (rows.filter fun row => keyRow engine keys row = key)) = key := by
  obtain ⟨row, hrow, hkey⟩ := List.mem_map.mp h
  have hmem : row ∈ rows.filter fun row => keyRow engine keys row = key :=
    List.mem_filter.mpr ⟨hrow, by simpa using hkey⟩
  have hall : ∀ row ∈ rows.filter fun row => keyRow engine keys row = key,
      keyRow engine keys row = key :=
    fun row hrow => by simpa using (List.mem_filter.mp hrow).2
  obtain ⟨first, rest, hgroup⟩ := List.exists_cons_of_ne_nil (List.ne_nil_of_mem hmem)
  rw [hgroup] at hall ⊢
  exact hall first List.mem_cons_self

end Lowered

namespace Select

variable [DecidableEq V] (engine : Engine V) (db : Database V)

def sourceRows (select : Select) : List (SourceRow V) :=
  (select.source.rows engine db).filter (satisfies engine select.condition)

def groups (select : Select) : List (List (SourceRow V)) :=
  groupsOf engine select.items select.groupBy (select.sourceRows engine db)

theorem rows_eq (select : Select) :
    select.rows engine db =
      resultRows engine select.items select.orderBy select.hidden (select.groups engine db) := by
  cases select
  rfl

-- The result row of a group for the sort keys: the hidden columns are part of it.
def sortRow (select : Select) (group : List (SourceRow V)) : Row V :=
  valueRow engine (select.items ++ select.hidden) group

def earlier (select : Select) (a b : List (SourceRow V)) : Bool :=
  precedes engine select.orderBy ((select.sortRow engine a).get engine)
    ((select.sortRow engine b).get engine)

variable {engine db} {select : Select} {schema : Schema}

-- The rows of a select that numbers nothing are those of its groups, sorted.
theorem rows_sorted (h : ∀ item ∈ select.items ++ select.hidden, item.exp.isLowered = true) :
    select.rows engine db =
      ((select.groups engine db).mergeSort (select.earlier engine)).map
        (valueRow engine select.items) := by
  rw [Select.rows_eq, resultRows]
  have hvalue : ∀ entry : List (SourceRow V) × (List SortKey → V),
      resultRow engine select.items entry.2 entry.1 = valueRow engine select.items entry.1 :=
    fun entry => resultRow_eq (List.forall_mem_append.mp h).1 entry.2 entry.1
  have hsort : ∀ entry : List (SourceRow V) × (List SortKey → V),
      resultRow engine (select.items ++ select.hidden) entry.2 entry.1 =
        select.sortRow engine entry.1 :=
    fun entry => resultRow_eq h entry.2 entry.1
  have hmap : ∀ entries : List (List (SourceRow V) × (List SortKey → V)),
      entries.map (fun entry => valueRow engine select.items entry.1) =
        (entries.map Prod.fst).map (valueRow engine select.items) :=
    fun entries => List.map_map.symm
  simp only [hvalue, hsort, hmap]
  refine congrArg (List.map _)
    ((List.map_mergeSort (s := select.earlier engine) fun _ _ _ _ => rfl).trans ?_)
  rw [List.map_map]
  exact congrArg (fun groups => List.mergeSort groups _) (List.zipIdx_map_fst 0 _)

theorem rows_unsorted (h : ∀ item ∈ select.items ++ select.hidden, item.exp.isLowered = true)
    (hunordered : select.orderBy = []) :
    select.rows engine db = (select.groups engine db).map (valueRow engine select.items) := by
  rw [rows_sorted h, List.mergeSort_of_pairwise]
  exact List.pairwise_of_forall fun a b => by simp [earlier, hunordered, precedes]

theorem Lowered.all_isLowered (h : select.Lowered schema) :
    ∀ item ∈ select.items ++ select.hidden, item.exp.isLowered = true := by
  refine List.forall_mem_append.mpr ⟨h.exps, fun item hitem => ?_⟩
  obtain ⟨id, hexp⟩ := h.hidden item hitem
  simp [hexp, Exp.isLowered]

theorem Lowered.rows_perm (h : select.Lowered schema) :
    (select.rows engine db).Perm
      ((select.groups engine db).map (valueRow engine select.items)) := by
  rw [rows_sorted h.all_isLowered]
  exact (List.mergeSort_perm _ _).map _

theorem Lowered.names_of_mem_rows (h : select.Lowered schema) {row : Row V}
    (hrow : row ∈ select.rows engine db) : row.names = schema.ids := by
  obtain ⟨group, -, rfl⟩ := List.mem_map.mp (h.rows_perm.mem_iff.mp hrow)
  exact h.fits.names_valueRow group

end Select

theorem mem_rowsOfAll [DecidableEq V] {engine : Engine V} {db : Database V}
    {selects : List Select} {row : Row V} :
    row ∈ rowsOfAll engine db selects ↔ ∃ select ∈ selects, row ∈ select.rows engine db := by
  induction selects with
  | nil => simp [rowsOfAll]
  | cons select rest ih => simp [rowsOfAll, ih]

@[simp] theorem rowsOfAll_singleton [DecidableEq V] (engine : Engine V) (db : Database V)
    (select : Select) : rowsOfAll engine db [select] = select.rows engine db := by
  simp [rowsOfAll]

theorem rowsOfAll_append [DecidableEq V] (engine : Engine V) (db : Database V)
    (a b : List Select) :
    rowsOfAll engine db (a ++ b) = rowsOfAll engine db a ++ rowsOfAll engine db b := by
  induction a with
  | nil => simp [rowsOfAll]
  | cons select rest ih => simp [rowsOfAll, ih]

theorem Lowered.names_of_mem_rows [DecidableEq V] {engine : Engine V} {db : Database V}
    {selects : List Select} {schema : Schema} (h : Lowered selects schema) {row : Row V}
    (hrow : row ∈ rowsOfAll engine db selects) : row.names = schema.ids := by
  obtain ⟨select, hselect, hrow⟩ := mem_rowsOfAll.mp hrow
  exact (h.each select hselect).names_of_mem_rows hrow

end PivotQuery.Sql
