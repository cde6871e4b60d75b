import Mathlib.Data.List.Sort

namespace PivotQuery

section Related

variable {α β γ : Type} {R : α → β → Prop} {xs : List α} {ys : List β}

-- In two lists that are related place by place, each member has its partner.
theorem exists_mem_left (h : List.Forall₂ R xs ys) {y : β} (hy : y ∈ ys) : ∃ x ∈ xs, R x y := by
  induction h with
  | nil => simp at hy
  | cons hhead _ ih =>
    rcases List.mem_cons.mp hy with rfl | hy
    · exact ⟨_, List.mem_cons_self, hhead⟩
    · obtain ⟨x, hx, hxy⟩ := ih hy
      exact ⟨x, List.mem_cons_of_mem _ hx, hxy⟩

theorem exists_mem_right (h : List.Forall₂ R xs ys) {x : α} (hx : x ∈ xs) : ∃ y ∈ ys, R x y :=
  exists_mem_left h.flip hx

theorem forall₂_trans {S : β → γ → Prop} {T : α → γ → Prop} {zs : List γ}
    (h : List.Forall₂ R xs ys) (h' : List.Forall₂ S ys zs)
    (htrans : ∀ x y z, R x y → S y z → T x z) : List.Forall₂ T xs zs := by
  induction h generalizing zs with
  | nil =>
    cases h'
    exact .nil
  | cons hhead _ ih =>
    cases h' with
    | cons hhead' hrest => exact .cons (htrans _ _ _ hhead hhead') (ih hrest)

theorem map_eq_map {f : α → γ} {g : β → γ} (h : List.Forall₂ R xs ys)
    (heq : ∀ x y, R x y → f x = g y) : xs.map f = ys.map g := by
  rw [← List.forall₂_eq_eq_eq, List.forall₂_map_left_iff, List.forall₂_map_right_iff]
  exact h.imp heq

theorem filterMap_eq_filterMap {f : α → Option γ} {g : β → Option γ} (h : List.Forall₂ R xs ys)
    (heq : ∀ x y, R x y → f x = g y) : xs.filterMap f = ys.filterMap g := by
  induction h with
  | nil => rfl
  | cons hhead _ ih => rw [List.filterMap_cons, List.filterMap_cons, heq _ _ hhead, ih]

-- Nothing is left out by a partial function that has a value for each member.
theorem forall₂_filterMap {f : γ → Option α} {zs : List γ}
    (h : List.Forall₂ (fun z y => ∃ x, f z = some x ∧ R x y) zs ys) :
    List.Forall₂ R (zs.filterMap f) ys := by
  induction h with
  | nil => exact .nil
  | cons hhead _ ih =>
    obtain ⟨x, hx, hxy⟩ := hhead
    rw [List.filterMap_cons_some hx]
    exact .cons hxy ih

end Related

section Sorting

variable {α : Type}

theorem eq_or_eq_of_pair_perm {x y : α} {zs : List α} (h : [x, y].Perm zs) :
    zs = [x, y] ∨ zs = [y, x] := by
  match zs, h.length_eq with
  | [a, b], _ =>
    rcases List.mem_cons.mp (h.mem_iff.mp List.mem_cons_self) with rfl | hx
    · cases h.cons_inv.singleton_eq
      exact Or.inl rfl
    · obtain rfl := List.mem_singleton.mp hx
      cases (h.trans (.swap _ _ _)).cons_inv.singleton_eq
      exact Or.inr rfl

-- A list falls apart at one place only into members that pass a test and members that fail.
private theorem append_split_unique {p : α → Bool} {a b c d : List α} (h : a ++ b = c ++ d)
    (ha : ∀ x ∈ a, p x = true) (hb : ∀ x ∈ b, p x = false) (hc : ∀ x ∈ c, p x = true)
    (hd : ∀ x ∈ d, p x = false) : a = c ∧ b = d := by
  have hfront : ∀ {front back : List α}, (∀ x ∈ front, p x = true) →
      (∀ x ∈ back, p x = false) → (front ++ back).filter p = front := by
    intro front back hfront hback
    rw [List.filter_append, List.filter_eq_self.mpr hfront,
      List.filter_eq_nil_iff.mpr (by simpa using hback), List.append_nil]
  have hac : a = c := by rw [← hfront ha hb, h, hfront hc hd]
  exact ⟨hac, List.append_cancel_left (hac ▸ h)⟩

variable {le : α → α → Bool}

-- The first member of a list comes, among the others sorted, right behind those that have to
-- be before it.
private theorem mergeSort_cons_split
    (trans : ∀ a b c, le a b = true → le b c = true → le a c = true)
    (total : ∀ a b, (le a b || le b a) = true) (x : α) (rest : List α) :
    ∃ front back, (x :: rest).mergeSort le = front ++ x :: back ∧
      rest.mergeSort le = front ++ back ∧ (∀ y ∈ front, (!le x y) = true) ∧
      ∀ y ∈ back, (!le x y) = false := by
  obtain ⟨front, back, hsort, hrest, hfront⟩ := List.mergeSort_cons trans total x rest
  have hsorted := List.pairwise_mergeSort trans total (x :: rest)
  rw [hsort] at hsorted
  have hback := (List.pairwise_cons.mp (List.pairwise_append.mp hsorted).2.1).1
  exact ⟨front, back, hsort, hrest, hfront, fun y hy => by simp [hback y hy]⟩

private theorem orderedInsert_append {x : α} {front back : List α}
    (hfront : ∀ y ∈ front, (!le x y) = true) (hback : ∀ y ∈ back, (!le x y) = false) :
    (front ++ back).orderedInsert (fun a b => le a b = true) x = front ++ x :: back := by
  induction front with
  | nil =>
    cases back with
    | nil => rfl
    | cons y back =>
      have hy : le x y = true := by simpa using hback y List.mem_cons_self
      simp [hy]
  | cons y front ih =>
    obtain ⟨hy, hrest⟩ := List.forall_mem_cons.mp hfront
    have hne : le x y = false := by simpa using hy
    simp [hne, ih hrest]

-- The order can be found by inserting one member after the other, which evaluates.
theorem mergeSort_eq_insertionSort
    (trans : ∀ a b c, le a b = true → le b c = true → le a c = true)
    (total : ∀ a b, (le a b || le b a) = true) (xs : List α) :
    xs.mergeSort le = xs.insertionSort fun a b => le a b = true := by
  induction xs with
  | nil => simp
  | cons x rest ih =>
    obtain ⟨front, back, hsort, hrest, hfront, hback⟩ := mergeSort_cons_split trans total x rest
    rw [List.insertionSort_cons, ← ih, hrest, hsort, orderedInsert_append hfront hback]

-- Sorting is stable, so it does not matter whether a filter comes before or after it.
theorem filter_mergeSort (trans : ∀ a b c, le a b = true → le b c = true → le a c = true)
    (total : ∀ a b, (le a b || le b a) = true) (p : α → Bool) (xs : List α) :
    (xs.mergeSort le).filter p = (xs.filter p).mergeSort le := by
  induction xs with
  | nil => simp
  | cons x rest ih =>
    obtain ⟨front, back, hsort, hrest, hfront, hback⟩ := mergeSort_cons_split trans total x rest
    rw [hrest, List.filter_append] at ih
    rw [hsort, List.filter_append]
    by_cases hx : p x = true
    · obtain ⟨front', back', hsort', hrest', hfront', hback'⟩ :=
        mergeSort_cons_split trans total x (rest.filter p)
      obtain ⟨hfronts, hbacks⟩ := append_split_unique (ih.trans hrest')
        (fun y hy => hfront y (List.mem_filter.mp hy).1)
        (fun y hy => hback y (List.mem_filter.mp hy).1) hfront' hback'
      rw [List.filter_cons_of_pos hx, List.filter_cons_of_pos hx, hsort', hfronts, hbacks]
    · rw [List.filter_cons_of_neg hx, List.filter_cons_of_neg hx, ih]

end Sorting

end PivotQuery
