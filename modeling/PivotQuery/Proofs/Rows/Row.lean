import PivotQuery.Proofs.Rows.Query
import PivotQuery.Proofs.Schema.Lookup

namespace PivotQuery

variable {V : Type} {engine : Engine V}

namespace Row

@[simp] theorem names_append (a b : Row V) : names (a ++ b) = names a ++ names b :=
  List.map_append

theorem lookup_eq_none {row : Row V} {id : String} (h : id ∉ row.names) :
    row.lookup id = none := by
  rw [List.lookup_eq_none_iff]
  intro entry hentry
  have hne : entry.1 ≠ id := fun heq => h (List.mem_map.mpr ⟨entry, hentry, heq⟩)
  simpa using hne.symm

-- A column in front hides columns of its name further behind.
theorem get_append_left {a b : Row V} {id : String} (h : id ∈ a.names) :
    get engine (a ++ b) id = a.get engine id := by
  have hsome : (a.lookup id).isSome := by
    rw [List.lookup_isSome_iff]
    obtain ⟨entry, hentry, rfl⟩ := List.mem_map.mp h
    exact ⟨entry, hentry, by simp⟩
  obtain ⟨value, hvalue⟩ := Option.isSome_iff_exists.mp hsome
  simp [get, List.lookup_append, hvalue]

theorem get_append_right {a b : Row V} {id : String} (h : id ∉ a.names) :
    get engine (a ++ b) id = b.get engine id := by
  simp [get, List.lookup_append, lookup_eq_none h]

theorem get_map {α : Type} (columns : List α) (name : α → String) (value : α → V)
    {id : String} {column : α} (h : columns.find? (fun column => name column == id) = some column) :
    get engine (columns.map fun column => (name column, value column)) id = value column := by
  suffices hlookup : (columns.map fun column => (name column, value column)).lookup id =
      some (value column) by
    simp [get, hlookup]
  induction columns with
  | nil => simp at h
  | cons head rest ih =>
    rw [List.find?_cons] at h
    simp only [List.map_cons, List.lookup_cons]
    by_cases hhead : name head = id
    · obtain rfl : head = column := by simpa [hhead] using h
      simp [hhead]
    · have hne : (id == name head) = false := by simpa using Ne.symm hhead
      have hne' : (name head == id) = false := by simpa using hhead
      rw [hne'] at h
      simpa [hne] using ih h

theorem get_project {ids : List String} {row : Row V} {id : String} (h : id ∈ ids) :
    (row.project engine ids).get engine id = row.get engine id := by
  obtain ⟨found, hfound⟩ := Option.isSome_iff_exists.mp
    (List.find?_isSome.mpr ⟨id, h, by simp⟩ : (ids.find? fun other => other == id).isSome)
  obtain rfl : found = id := by simpa using List.find?_some hfound
  exact get_map ids (fun id => id) (fun id => row.get engine id) hfound

-- A new name means the value that the old one meant, as long as no two columns get one name.
theorem get_rename {changes : NameMap ColumnChange} {row : Row V} {id : String}
    (hdistinct : (row.names.map (newId changes)).Nodup) (h : id ∈ row.names) :
    get engine (row.rename changes) (newId changes id) = row.get engine id := by
  induction row with
  | nil => simp [names] at h
  | cons entry rest ih =>
    obtain ⟨name, value⟩ := entry
    obtain ⟨hnew, hrest⟩ := List.nodup_cons.mp hdistinct
    by_cases hname : id = name
    · simp [get, rename, hname]
    · have hid : id ∈ names rest := (List.mem_cons.mp h).resolve_left hname
      have hne : newId changes id ≠ newId changes name :=
        fun heq => hnew (heq ▸ List.mem_map_of_mem hid)
      have htail := ih hrest hid
      simp only [get, rename, List.map_cons, List.lookup_cons, beq_eq_false_iff_ne.mpr hne,
        beq_eq_false_iff_ne.mpr hname] at htail ⊢
      exact htail

-- A row is made of its columns, as no name occurs in it twice.
theorem project_names {row : Row V} (h : row.names.Nodup) : row.project engine row.names = row := by
  induction row with
  | nil => rfl
  | cons entry rest ih =>
    obtain ⟨name, value⟩ := entry
    obtain ⟨hnew, hrest⟩ := List.nodup_cons.mp h
    have htail :
        (names rest).map (fun id => (id, get engine ((name, value) :: rest) id)) = rest := by
      refine (List.map_congr_left fun id hid => ?_).trans (ih hrest)
      have hne : (id == name) = false := by
        simpa using fun heq : id = name => hnew (heq ▸ hid)
      simp [get, List.lookup_cons, hne]
    have hhead : get engine ((name, value) :: rest) name = value := by
      simp [get]
    calc
      project engine (names ((name, value) :: rest)) ((name, value) :: rest) =
          (name, get engine ((name, value) :: rest) name) ::
            (names rest).map (fun id => (id, get engine ((name, value) :: rest) id)) := rfl
      _ = (name, value) :: rest := by rw [hhead, htail]

theorem project_ids {schema : Schema} {row : Row V} (h : row.names = schema.ids) :
    row.project engine schema.ids = row := by
  rw [← h]
  exact project_names (h ▸ schema.distinct)

end Row

end PivotQuery
