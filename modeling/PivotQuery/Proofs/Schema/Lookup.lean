import PivotQuery.Query.Typing
import PivotQuery.Proofs.Lists

namespace PivotQuery

-- What a chain of checks says when it goes through: the first part gave a value and
-- the rest went on from it.
theorem bind_eq_ok {ε α β : Type} {first : Except ε α} {rest : α → Except ε β} {result : β} :
    first >>= rest = .ok result ↔ ∃ value, first = .ok value ∧ rest value = .ok result := by
  cases first <;> simp [bind, Except.bind]

theorem pure_eq_ok {ε α : Type} {value result : α} :
    (pure value : Except ε α) = .ok result ↔ value = result := by
  simp [pure, Except.pure]

namespace Column

theorem mem_ids {columns : List Column} {id : String} :
    id ∈ ids columns ↔ ∃ column ∈ columns, column.id = id := by
  simp [ids]

end Column

namespace Schema

variable {schema : Schema} {id : String} {column : Column}

theorem mem_ids : id ∈ schema.ids ↔ ∃ column ∈ schema.columns, column.id = id :=
  Column.mem_ids

theorem eq_of_id_eq {a b : Column} (ha : a ∈ schema.columns) (hb : b ∈ schema.columns)
    (h : a.id = b.id) : a = b :=
  List.inj_on_of_nodup_map schema.distinct ha hb h

theorem get?_eq_some : schema.get? id = some column ↔ column ∈ schema.columns ∧ column.id = id := by
  constructor
  · intro h
    exact ⟨List.mem_of_find?_eq_some h, by simpa using List.find?_some h⟩
  · rintro ⟨hmem, rfl⟩
    cases h : schema.get? column.id with
    | none => simpa using List.find?_eq_none.mp h column hmem
    | some other =>
      have hid : other.id = column.id := by simpa using List.find?_some h
      rw [eq_of_id_eq (List.mem_of_find?_eq_some h) hmem hid]

theorem get?_of_mem (h : column ∈ schema.columns) : schema.get? column.id = some column :=
  get?_eq_some.mpr ⟨h, rfl⟩

theorem exists_get? (h : id ∈ schema.ids) : ∃ column, schema.get? id = some column := by
  obtain ⟨column, hmem, hid⟩ := mem_ids.mp h
  exact ⟨column, get?_eq_some.mpr ⟨hmem, hid⟩⟩

theorem contains_iff : schema.contains id = true ↔ id ∈ schema.ids := by
  simp only [contains, Option.isSome_iff_exists, get?_eq_some, mem_ids]

theorem exists_type? (h : id ∈ schema.ids) : ∃ type, schema.type? id = some type := by
  obtain ⟨column, hcolumn⟩ := exists_get? h
  exact ⟨column.type, by rw [type?, hcolumn]; rfl⟩

theorem mem_ids_of_type? {type : ColumnType} (h : schema.type? id = some type) :
    id ∈ schema.ids := by
  obtain ⟨column, hcolumn, -⟩ := Option.map_eq_some_iff.mp h
  exact mem_ids.mpr ⟨column, get?_eq_some.mp hcolumn⟩

theorem type?_of_mem (h : column ∈ schema.columns) : schema.type? column.id = some column.type := by
  simp [type?, get?_of_mem h]

theorem require_eq_ok : schema.require id = .ok column ↔ schema.get? id = some column := by
  unfold require
  split <;> simp_all

theorem requireAll_eq_ok {ids : List String} :
    schema.requireAll ids = .ok () ↔ ∀ id ∈ ids, id ∈ schema.ids := by
  induction ids with
  | nil => simp [requireAll]
  | cons id rest ih =>
    simp only [requireAll, bind_eq_ok, require_eq_ok, ih, List.forall_mem_cons]
    constructor
    · rintro ⟨column, hcolumn, hrest⟩
      obtain ⟨hmem, hid⟩ := get?_eq_some.mp hcolumn
      exact ⟨mem_ids.mpr ⟨column, hmem, hid⟩, hrest⟩
    · rintro ⟨hid, hrest⟩
      obtain ⟨column, hcolumn⟩ := exists_get? hid
      exact ⟨column, hcolumn, hrest⟩

theorem columnsOf_eq_ok {ids : List String} {columns : List Column}
    (h : schema.columnsOf ids = .ok columns) :
    List.Forall₂ (fun id column => schema.get? id = some column) ids columns := by
  induction ids generalizing columns with
  | nil =>
    obtain rfl : [] = columns := by simpa [columnsOf] using h
    exact .nil
  | cons id rest ih =>
    simp only [columnsOf, bind_eq_ok, require_eq_ok, pure_eq_ok] at h
    obtain ⟨column, hcolumn, columns, hcolumns, rfl⟩ := h
    exact .cons hcolumn (ih hcolumns)

theorem columns_of_ofColumns {columns : List Column} {result : Schema}
    (h : ofColumns columns = .ok result) : result.columns = columns := by
  unfold ofColumns at h
  split at h
  · simp at h
  · simp only [Except.ok.injEq] at h
    rw [← h]

end Schema

end PivotQuery
