import PivotQuery.Proofs.Rows.Order

namespace PivotQuery.Sql

variable {V : Type} {engine : Engine V} {keys more : List SortKey} {a b c : String → V}

variable (engine) in
-- The one row has to come before the other one.
def ComesFirst (keys : List SortKey) (a b : String → V) : Prop :=
  precedes engine keys a b = true ∧ precedes engine keys b a = false

-- Keys that tell two rows apart leave nothing to the keys behind them.
theorem precedes_append :
    precedes engine (keys ++ more) a b =
      (precedes engine keys a b && (!precedes engine keys b a || precedes engine more a b)) := by
  induction keys with
  | nil => simp [precedes]
  | cons key rest ih =>
    have total := engine.before_total key.ascending (a key.column) (b key.column)
    simp only [List.cons_append, precedes, ih]
    revert total
    generalize engine.before key.ascending (a key.column) (b key.column) = forth
    generalize engine.before key.ascending (b key.column) (a key.column) = back
    cases forth <;> cases back <;> simp

theorem before_refl (engine : Engine V) (ascending : Bool) (value : V) :
    engine.before ascending value value = true := by
  simpa using engine.before_total ascending value value

theorem precedes_of_eq (h : ∀ key ∈ keys, a key.column = b key.column) :
    precedes engine keys a b = true := by
  induction keys with
  | nil => rfl
  | cons key rest ih =>
    obtain ⟨hkey, hrest⟩ := List.forall_mem_cons.mp h
    simp [precedes, hkey, before_refl, ih hrest]

theorem precedes_append_of_eq (h : ∀ key ∈ keys, a key.column = b key.column) :
    precedes engine (keys ++ more) a b = precedes engine more a b := by
  rw [precedes_append, precedes_of_eq h, precedes_of_eq fun key hkey => (h key hkey).symm]
  simp

theorem before_of_precedes (hab : precedes engine keys a b = true)
    (hba : precedes engine keys b a = true) {key : SortKey} (hkey : key ∈ keys) :
    engine.before key.ascending (a key.column) (b key.column) = true := by
  induction keys with
  | nil => simp at hkey
  | cons first rest ih =>
    simp only [precedes, Bool.and_eq_true, Bool.or_eq_true, Bool.not_eq_true'] at hab hba
    rcases List.mem_cons.mp hkey with rfl | hkey
    · exact hab.1
    · exact ih (hab.2.resolve_left (by simp [hba.1])) (hba.2.resolve_left (by simp [hab.1])) hkey

-- If a key tells two rows apart for sure, one of them comes first.
theorem comesFirst_or_of_key {key : SortKey} (hkey : key ∈ keys)
    (h : engine.before key.ascending (a key.column) (b key.column) = true →
      engine.before key.ascending (b key.column) (a key.column) = false) :
    ComesFirst engine keys a b ∨ ComesFirst engine keys b a := by
  have hnot : ¬ (precedes engine keys a b = true ∧ precedes engine keys b a = true) := by
    rintro ⟨hab, hba⟩
    have hfalse := h (before_of_precedes hab hba hkey)
    rw [before_of_precedes hba hab hkey] at hfalse
    simp at hfalse
  have total : (precedes engine keys a b || precedes engine keys b a) = true :=
    precedes_total keys a b
  unfold ComesFirst
  revert hnot total
  cases precedes engine keys a b <;> cases precedes engine keys b a <;> simp

namespace ComesFirst

theorem of_not_precedes (h : precedes engine keys b a = false) : ComesFirst engine keys a b := by
  have total : (precedes engine keys a b || precedes engine keys b a) = true :=
    precedes_total keys a b
  rw [h, Bool.or_false] at total
  exact ⟨total, h⟩

theorem append (h : ComesFirst engine keys a b) (more : List SortKey) :
    ComesFirst engine (keys ++ more) a b := by
  rw [ComesFirst, precedes_append, precedes_append, h.1, h.2]
  simp

theorem of_start {all : List SortKey} (h : ComesFirst engine keys a b) (hkeys : keys <+: all) :
    ComesFirst engine all a b := by
  obtain ⟨more, rfl⟩ := hkeys
  exact h.append more

theorem append_of_eq (heq : ∀ key ∈ keys, a key.column = b key.column)
    (h : ComesFirst engine more a b) : ComesFirst engine (keys ++ more) a b := by
  rw [ComesFirst, precedes_append_of_eq heq,
    precedes_append_of_eq fun key hkey => (heq key hkey).symm]
  exact h

theorem congr {a' b' : String → V} (ha : ∀ key ∈ keys, a key.column = a' key.column)
    (hb : ∀ key ∈ keys, b key.column = b' key.column) (h : ComesFirst engine keys a b) :
    ComesFirst engine keys a' b' := by
  have hforth : precedes engine keys a b = precedes engine keys a' b' :=
    precedes_congr (List.forall₂_same.mpr fun key hkey => ⟨rfl, ha key hkey, hb key hkey⟩)
  have hback : precedes engine keys b a = precedes engine keys b' a' :=
    precedes_congr (List.forall₂_same.mpr fun key hkey => ⟨rfl, hb key hkey, ha key hkey⟩)
  rwa [ComesFirst, ← hforth, ← hback]

-- A comparison by keys of which the first ones decide is one by those.
theorem precedes_append_of_or (h : ComesFirst engine keys a b ∨ ComesFirst engine keys b a) :
    precedes engine (keys ++ more) a b = precedes engine keys a b := by
  rw [precedes_append]
  rcases h with ⟨hab, hba⟩ | ⟨hba, hab⟩
  · simp [hab, hba]
  · simp [hab]

end ComesFirst

end PivotQuery.Sql
