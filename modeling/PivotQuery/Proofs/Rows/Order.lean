import PivotQuery.Proofs.Rows.Evaluation

namespace PivotQuery.Sql

variable {V : Type} {engine : Engine V} {a b c : String → V}

theorem precedes_congr {keys keys' : List SortKey} {a' b' : String → V}
    (h : List.Forall₂ (fun key key' => key.ascending = key'.ascending ∧
      a key.column = a' key'.column ∧ b key.column = b' key'.column) keys keys') :
    precedes engine keys a b = precedes engine keys' a' b' := by
  induction h with
  | nil => rfl
  | cons hhead _ ih =>
    obtain ⟨hascending, ha, hb⟩ := hhead
    simp only [precedes, hascending, ha, hb, ih]

theorem precedes_trans {keys : List SortKey} (hab : precedes engine keys a b = true)
    (hbc : precedes engine keys b c = true) : precedes engine keys a c = true := by
  induction keys with
  | nil => rfl
  | cons key rest ih =>
    simp only [precedes, Bool.and_eq_true, Bool.or_eq_true, Bool.not_eq_true'] at hab hbc ⊢
    have trans := engine.before_trans key.ascending
    refine ⟨trans _ _ _ hab.1 hbc.1, ?_⟩
    by_cases hback : engine.before key.ascending (c key.column) (a key.column) = true
    · -- the key tells none of the three apart, so the others decide
      have hba := trans _ _ _ hbc.1 hback
      have hcb := trans _ _ _ hback hab.1
      exact Or.inr (ih (hab.2.resolve_left (by simp [hba])) (hbc.2.resolve_left (by simp [hcb])))
    · exact Or.inl (by simpa using hback)

theorem precedes_total (keys : List SortKey) (a b : String → V) :
    (precedes engine keys a b || precedes engine keys b a) = true := by
  induction keys with
  | nil => rfl
  | cons key rest ih =>
    have total := engine.before_total key.ascending (a key.column) (b key.column)
    simp only [precedes]
    revert total ih
    generalize engine.before key.ascending (a key.column) (b key.column) = forth
    generalize engine.before key.ascending (b key.column) (a key.column) = back
    cases forth <;> cases back <;> simp

namespace Select

variable {select : Select}

theorem earlier_trans (a b c : List (SourceRow V)) (hab : select.earlier engine a b = true)
    (hbc : select.earlier engine b c = true) : select.earlier engine a c = true :=
  precedes_trans hab hbc

theorem earlier_total (a b : List (SourceRow V)) :
    (select.earlier engine a b || select.earlier engine b a) = true :=
  precedes_total _ _ _

-- A sort key means a column of the result if there is one of its name, and what is hidden
-- otherwise.

theorem get_sortRow_of_mem {schema : Schema} (hfits : select.Fits schema) {id : String}
    (hid : id ∈ schema.ids) (group : List (SourceRow V)) :
    (select.sortRow engine group).get engine id =
      (valueRow engine select.items group).get engine id := by
  rw [sortRow, valueRow_append, Row.get_append_left]
  rwa [hfits.names_valueRow]

theorem get_sortRow_of_not_mem {schema : Schema} (hfits : select.Fits schema) {id : String}
    (hid : id ∉ schema.ids) (group : List (SourceRow V)) :
    (select.sortRow engine group).get engine id =
      (valueRow engine select.hidden group).get engine id := by
  rw [sortRow, valueRow_append, Row.get_append_right]
  rwa [hfits.names_valueRow]

theorem rows_insertionSort [DecidableEq V] {db : Database V}
    (h : ∀ item ∈ select.items ++ select.hidden, item.exp.isLowered = true) :
    select.rows engine db = ((select.groups engine db).insertionSort fun a b =>
      select.earlier engine a b = true).map (valueRow engine select.items) := by
  rw [rows_sorted h, mergeSort_eq_insertionSort earlier_trans earlier_total]

end Select

end PivotQuery.Sql

-- The rows of a query of one select in a form that evaluates.
theorem PivotQuery.Query.rows_of_lower {V : Type} [DecidableEq V] {engine : Engine V}
    {db : Database V} {query : Query} {schema : Schema} {select : Sql.Select}
    (hinfer : query.infer = .ok schema) (hlower : query.lower = [select]) :
    Sql.rowsOfAll engine db query.lower = ((select.groups engine db).insertionSort fun a b =>
      select.earlier engine a b = true).map (Sql.valueRow engine select.items) := by
  have hlowered := (lower_lowered.holds hinfer).each select (by simp [hlower])
  rw [hlower, Sql.rowsOfAll_singleton, Sql.Select.rows_insertionSort hlowered.all_isLowered]
