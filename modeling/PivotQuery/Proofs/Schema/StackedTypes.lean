import PivotQuery.Proofs.Schema.Acceptance
import Mathlib.Data.List.Perm.Subperm

namespace PivotQuery

namespace ColumnType

-- Up to types that need no cast, unification is associative, and equal types are as good as
-- each other.

theorem sameAs_comm (a b : ColumnType) : a.sameAs b = b.sameAs a := by
  rw [Bool.eq_iff_iff]
  exact ⟨sameAs_symm, sameAs_symm⟩

theorem unify_congr {a a' b b' : ColumnType} (ha : a.sameAs a' = true) (hb : b.sameAs b' = true) :
    (a.unify b).sameAs (a'.unify b') = true := by
  have hsame : a.sameAs b = a'.sameAs b' := by
    rw [sameAs_congr ha, sameAs_comm, sameAs_congr hb, sameAs_comm]
  unfold unify
  rw [hsame]
  split
  · exact ha
  · exact sameAs_refl _

theorem unify_assoc (a b c : ColumnType) :
    ((a.unify b).unify c).sameAs (a.unify (b.unify c)) = true := by
  by_cases hab : a.sameAs b = true
  · have hac : a.sameAs c = b.sameAs c := sameAs_congr hab c
    by_cases hbc : b.sameAs c = true
    · simp [unify, hab, hbc, hac]
    · -- text on the left, and on the right what is the same as text
      by_cases hstring : a.sameAs string = true
      · simpa [unify, hab, hbc, hac, hstring] using sameAs_symm hstring
      · simp [unify, hab, hbc, hac, hstring]
  · have hleft : (a.unify b).unify c = string := by
      simp [unify, hab]
    rw [hleft]
    by_cases hbc : b.sameAs c = true
    · simp [unify, hab, hbc]
    · by_cases hstring : a.sameAs string = true
      · simpa [unify, hbc, hstring] using sameAs_symm hstring
      · simp [unify, hbc, hstring]

theorem foldl_unify_congr {a b : ColumnType} (h : a.sameAs b = true) (types : List ColumnType) :
    (types.foldl unify a).sameAs (types.foldl unify b) = true := by
  induction types generalizing a b with
  | nil => exact h
  | cons type rest ih => exact ih (unify_congr h (sameAs_refl type))

theorem unify_foldl (a b : ColumnType) (types : List ColumnType) :
    (a.unify (types.foldl unify b)).sameAs ((b :: types).foldl unify a) = true := by
  induction types generalizing b with
  | nil => exact sameAs_refl _
  | cons c rest ih =>
    refine sameAs_trans (ih (b.unify c)) ?_
    exact foldl_unify_congr (sameAs_symm (unify_assoc a b c)) rest

-- A type that stands for those of a group: they are unified one after the other.
def Unites (type : ColumnType) (group : List ColumnType) : Prop :=
  ∃ first rest, group = first :: rest ∧ type.sameAs (rest.foldl unify first) = true

-- Unifying what stands for some groups is unifying all that is in them.
theorem foldl_unify_flatten {types : List ColumnType} {groups : List (List ColumnType)}
    (h : List.Forall₂ Unites types groups) {a b : ColumnType} (hab : a.sameAs b = true) :
    (types.foldl unify a).sameAs (groups.flatten.foldl unify b) = true := by
  induction h generalizing a b with
  | nil => exact hab
  | cons hhead _ ih =>
    obtain ⟨first, rest, rfl, htype⟩ := hhead
    rw [List.foldl_cons, List.flatten_cons, List.foldl_append]
    exact ih (sameAs_trans (unify_congr hab htype) (unify_foldl b first rest))

end ColumnType

namespace Schema

variable {a b c first result : Schema} {rest schemas : List Schema}

-- The same ids and names in the same order, and types that need no cast.
def SameColumns (a b : Schema) : Prop :=
  List.Forall₂ (fun column other => column.id = other.id ∧
    column.displayName = other.displayName ∧ column.type.sameAs other.type = true)
    a.columns b.columns

theorem SameColumns.refl (a : Schema) : a.SameColumns a :=
  List.forall₂_same.mpr fun _ _ => ⟨rfl, rfl, ColumnType.sameAs_refl _⟩

theorem SameColumns.symm (h : a.SameColumns b) : b.SameColumns a := by
  refine h.flip.imp ?_
  rintro column other ⟨hid, hname, htype⟩
  exact ⟨hid.symm, hname.symm, ColumnType.sameAs_symm htype⟩

theorem SameColumns.trans (hab : a.SameColumns b) (hbc : b.SameColumns c) : a.SameColumns c := by
  refine forall₂_trans hab hbc ?_
  rintro column other last ⟨hid, hname, htype⟩ ⟨hid', hname', htype'⟩
  exact ⟨hid.trans hid', hname.trans hname', ColumnType.sameAs_trans htype htype'⟩

theorem SameColumns.ids_eq (h : a.SameColumns b) : a.ids = b.ids :=
  map_eq_map h fun _ _ hcolumn => hcolumn.1

theorem SameColumns.type? (h : a.SameColumns b) {id : String} {type : ColumnType}
    (htype : a.type? id = some type) :
    ∃ other, b.type? id = some other ∧ type.sameAs other = true := by
  obtain ⟨column, hcolumn, rfl⟩ := Option.map_eq_some_iff.mp htype
  obtain ⟨hmem, rfl⟩ := get?_eq_some.mp hcolumn
  obtain ⟨other, hother, hid, -, hsame⟩ := exists_mem_right h hmem
  exact ⟨other.type, hid ▸ type?_of_mem hother, hsame⟩

private theorem size_eq (a : Schema) : a.size = a.ids.length := by simp [size, ids, Column.ids]

private theorem sizes_of_stacked {columns unified : List Column}
    (h : stacked first columns rest = .ok unified) : ∀ other ∈ rest, other.size = first.size := by
  induction rest generalizing columns with
  | nil => simp
  | cons other rest ih =>
    simp only [stacked] at h
    split at h
    case isTrue hsize =>
      obtain ⟨next, -, hrest⟩ := bind_eq_ok.mp h
      exact List.forall_mem_cons.mpr ⟨hsize, ih hrest⟩
    case isFalse => simp at h

theorem ids_concatenated (h : concatenated (first :: rest) = .ok result) :
    result.ids = first.ids := by
  rw [ids, Column.ids, columns_concatenated h, List.map_map]
  rfl

-- The columns of a stack are, up to their order, those of each branch.
theorem perm_of_concatenated (h : concatenated schemas = .ok result) :
    ∀ schema ∈ schemas, schema.ids.Perm result.ids := by
  intro schema hschema
  obtain ⟨-, hstacks⟩ := concatenated_ok h
  have hsubset : result.ids ⊆ schema.ids := by
    intro id hid
    obtain ⟨column, hcolumn, rfl⟩ := mem_ids.mp hid
    exact (hstacks schema hschema).mem_ids hcolumn
  have hlength : schema.ids.length ≤ result.ids.length := by
    cases schemas with
    | nil => simp at hschema
    | cons first rest =>
      obtain ⟨unified, hunified, -⟩ := bind_eq_ok.mp h
      rw [ids_concatenated h, ← size_eq, ← size_eq]
      rcases List.mem_cons.mp hschema with rfl | hmem
      · exact Nat.le_refl _
      · exact Nat.le_of_eq (sizes_of_stacked hunified schema hmem)
  exact ((result.distinct.subperm hsubset).perm_of_length_le hlength).symm

-- Some schemas can be stacked exactly if all of them have the same columns.
theorem exists_concatenated_iff :
    (∃ result, concatenated schemas = .ok result) ↔
      schemas ≠ [] ∧ ∀ a ∈ schemas, ∀ b ∈ schemas, a.ids.Perm b.ids := by
  constructor
  · rintro ⟨result, h⟩
    refine ⟨(concatenated_ok h).1, fun a ha b hb => ?_⟩
    exact (perm_of_concatenated h a ha).trans (perm_of_concatenated h b hb).symm
  · rintro ⟨hne, hperm⟩
    obtain ⟨first, rest, rfl⟩ := List.exists_cons_of_ne_nil hne
    refine exists_concatenated fun other hother => ?_
    have hsame := hperm other (List.mem_cons_of_mem _ hother) first List.mem_cons_self
    exact ⟨by rw [size_eq, size_eq, hsame.length_eq], fun id hid => hsame.mem_iff.mpr hid⟩

theorem concatenated_singleton (schema : Schema) : concatenated [schema] = .ok schema :=
  bind_eq_ok.mpr ⟨schema.columns, rfl, ofColumns_eq_ok.mpr rfl⟩

-- A schema that stands for those of a group: it is what they have when they are stacked.
def Unites (schema : Schema) (group : List Schema) : Prop :=
  ∃ flat, concatenated group = .ok flat ∧ schema.SameColumns flat

theorem Unites.type? {schema : Schema} {group : List Schema} (h : schema.Unites group)
    {id : String} {type : ColumnType} (htype : schema.type? id = some type) :
    type.Unites (group.filterMap fun other => other.type? id) := by
  obtain ⟨flat, hflat, hsame⟩ := h
  obtain ⟨other, hother, htypes⟩ := hsame.type? htype
  cases group with
  | nil => simp [concatenated] at hflat
  | cons first rest =>
    obtain ⟨column, hcolumn, rfl⟩ := Option.map_eq_some_iff.mp hother
    obtain ⟨hmem, rfl⟩ := get?_eq_some.mp hcolumn
    rw [columns_concatenated hflat] at hmem
    obtain ⟨own, hown, rfl⟩ := List.mem_map.mp hmem
    exact ⟨own.type, _, List.filterMap_cons_some (type?_of_mem hown), htypes⟩

theorem Unites.ne_nil {schema : Schema} {group : List Schema} (h : schema.Unites group) :
    group ≠ [] := by
  obtain ⟨flat, hflat, -⟩ := h
  exact (concatenated_ok hflat).1

theorem Unites.perm {schema : Schema} {group : List Schema} (h : schema.Unites group) :
    ∀ other ∈ group, other.ids.Perm schema.ids := by
  obtain ⟨flat, hflat, hsame⟩ := h
  exact fun other hother => hsame.ids_eq ▸ perm_of_concatenated hflat other hother

theorem exists_concatenated_flatten {groups : List (List Schema)}
    (h : List.Forall₂ Unites schemas groups) (hresult : concatenated schemas = .ok result) :
    ∃ flat, concatenated groups.flatten = .ok flat := by
  have hperm : ∀ other ∈ groups.flatten, other.ids.Perm result.ids := by
    intro other hother
    obtain ⟨group, hgroup, hother⟩ := List.mem_flatten.mp hother
    obtain ⟨schema, hschema, hunites⟩ := exists_mem_left h hgroup
    exact (hunites.perm other hother).trans (perm_of_concatenated hresult schema hschema)
  refine exists_concatenated_iff.mpr ⟨?_, fun a ha b hb => (hperm a ha).trans (hperm b hb).symm⟩
  cases h with
  | nil => simp [concatenated] at hresult
  | cons hhead _ => simp [hhead.ne_nil]

-- Stacking what stands for some groups is stacking all that is in them.
theorem Unites.concatenated {groups : List (List Schema)}
    (h : List.Forall₂ Unites schemas groups) (hresult : concatenated schemas = .ok result) :
    result.Unites groups.flatten := by
  obtain ⟨flat, hflat⟩ := exists_concatenated_flatten h hresult
  refine ⟨flat, hflat, ?_⟩
  cases h with
  | nil => simp [Schema.concatenated] at hresult
  | @cons head firstGroup others groups hhead hothers =>
    obtain ⟨own, hown, hsame⟩ := hhead
    obtain ⟨first, rest, rfl⟩ := List.exists_cons_of_ne_nil (concatenated_ok hown).1
    -- ids of the stack are columns of every branch
    have htypes : ∀ id ∈ head.ids, List.Forall₂ ColumnType.Unites
        (others.filterMap fun other => other.type? id)
        (groups.map fun group => group.filterMap fun other => other.type? id) := by
      intro id hid
      rw [← ids_concatenated hresult] at hid
      have hall := (List.forall₂_and_left (p := fun other => ∃ type, other.type? id = some type)
        (R := Unites) _ _).mpr ⟨fun other hother => exists_type?
          ((perm_of_concatenated hresult other (List.mem_cons_of_mem _ hother)).mem_iff.mpr hid),
          hothers⟩
      refine forall₂_filterMap (List.forall₂_map_right_iff.mpr (hall.imp ?_))
      rintro other group ⟨⟨type, htype⟩, hunites⟩
      exact ⟨type, htype, hunites.type? htype⟩
    rw [SameColumns, columns_concatenated hown, List.forall₂_map_right_iff] at hsame
    have hcolumns := (List.forall₂_and_left (p := fun column => column ∈ head.columns) _ _).mpr
      ⟨fun _ hcolumn => hcolumn, hsame⟩
    rw [List.flatten_cons, List.cons_append] at hflat
    rw [SameColumns, columns_concatenated hresult, columns_concatenated hflat,
      List.forall₂_map_left_iff, List.forall₂_map_right_iff]
    refine hcolumns.imp ?_
    rintro column own ⟨hmem, hid, hname, htype⟩
    refine ⟨hid, hname, ?_⟩
    have hgroups := htypes column.id (mem_ids.mpr ⟨column, hmem, rfl⟩)
    simp only [List.filterMap_append, List.filterMap_flatten, List.foldl_append]
    rw [← show column.id = own.id from hid] at htype ⊢
    exact ColumnType.foldl_unify_flatten hgroups htype

end Schema

end PivotQuery
