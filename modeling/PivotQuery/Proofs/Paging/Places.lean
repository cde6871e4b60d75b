import Mathlib.Data.List.Nodup

namespace PivotQuery

variable {α : Type}

-- The part of a list from an offset on, and no more of it than the limit.
def pageOf (offset limit : Option Nat) (xs : List α) : List α :=
  let rest := xs.drop (offset.getD 0)
  match limit with
  | some limit => rest.take limit
  | none => rest

-- Whether a place, counted from zero, lies on the page.
def onPage (offset limit : Option Nat) (place : Nat) : Bool :=
  decide (offset.getD 0 ≤ place) && match limit with
    | some limit => decide (place < offset.getD 0 + limit)
    | none => true

-- What comes after a page is the page that starts where it ends.
theorem pageOf_append (offset size : Nat) (limit : Option Nat) (xs : List α) :
    pageOf (some offset) (some size) xs ++ pageOf (some (offset + size)) limit xs =
      pageOf (some offset) (limit.map (size + ·)) xs := by
  cases limit with
  | none => simp [pageOf, ← List.drop_drop]
  | some limit => simp [pageOf, ← List.drop_drop, List.take_add]

theorem map_pageOf {β : Type} (f : α → β) (offset limit : Option Nat) (xs : List α) :
    (pageOf offset limit xs).map f = pageOf offset limit (xs.map f) := by
  cases limit <;> simp [pageOf, List.map_drop, List.map_take]

private theorem filter_zipIdx_ge (xs : List α) (offset : Nat) :
    (xs.zipIdx.filter fun entry => decide (offset ≤ entry.2)) =
      (xs.drop offset).zipIdx offset := by
  have hfront : ∀ entry ∈ (xs.take offset).zipIdx, ¬ decide (offset ≤ entry.2) = true := by
    intro entry hentry
    have hplace := (List.mem_zipIdx hentry).2.1
    simp only [List.length_take] at hplace
    simp only [decide_eq_true_eq]
    omega
  rcases Nat.le_total xs.length offset with hlen | hlen
  · rw [List.drop_eq_nil_of_le hlen, List.zipIdx_nil, List.filter_eq_nil_iff]
    rwa [List.take_of_length_le hlen] at hfront
  · have hback : ∀ entry ∈ (xs.drop offset).zipIdx offset, decide (offset ≤ entry.2) = true :=
      fun entry hentry => decide_eq_true (List.mem_zipIdx hentry).1
    conv_lhs => rw [← List.take_append_drop offset xs, List.zipIdx_append]
    rw [List.filter_append, List.filter_eq_nil_iff.mpr hfront, List.nil_append,
      List.length_take_of_le hlen, Nat.zero_add, List.filter_eq_self.mpr hback]

private theorem filter_zipIdx_lt (xs : List α) (start limit : Nat) :
    ((xs.zipIdx start).filter fun entry => decide (entry.2 < start + limit)) =
      (xs.take limit).zipIdx start := by
  have hfront : ∀ entry ∈ (xs.take limit).zipIdx start,
      decide (entry.2 < start + limit) = true := by
    intro entry hentry
    have hplace := (List.mem_zipIdx hentry).2.1
    simp only [List.length_take] at hplace
    simp only [decide_eq_true_eq]
    omega
  rcases Nat.le_total xs.length limit with hlen | hlen
  · rw [List.take_of_length_le hlen, List.filter_eq_self]
    rwa [List.take_of_length_le hlen] at hfront
  · have hback : ∀ entry ∈ (xs.drop limit).zipIdx (start + limit),
        ¬ decide (entry.2 < start + limit) = true := by
      intro entry hentry
      have hplace := (List.mem_zipIdx hentry).1
      simp only [decide_eq_true_eq]
      omega
    conv_lhs => rw [← List.take_append_drop limit xs, List.zipIdx_append]
    rw [List.filter_append, List.filter_eq_self.mpr hfront, List.length_take_of_le hlen,
      List.filter_eq_nil_iff.mpr hback, List.append_nil]

-- A page holds the members whose places lie on it.
theorem filter_zipIdx_onPage (offset limit : Option Nat) (xs : List α) :
    ((xs.zipIdx.filter fun entry => onPage offset limit entry.2).map Prod.fst) =
      pageOf offset limit xs := by
  cases limit with
  | none =>
    simp only [onPage, Bool.and_true, filter_zipIdx_ge, List.zipIdx_map_fst, pageOf]
  | some limit =>
    simp only [onPage, Bool.and_comm (decide (offset.getD 0 ≤ _)), ← List.filter_filter,
      filter_zipIdx_ge, filter_zipIdx_lt, List.zipIdx_map_fst, pageOf]

section Numbering

variable (le : α → α → Bool)

-- The members with their places in the list, in the order `le`.
def ordered (xs : List α) : List (α × Nat) :=
  xs.zipIdx.mergeSort fun a b => le a.1 b.1

-- Where the member at an index of the list comes in the order `le`.
def place (xs : List α) (index : Nat) : Nat := ((ordered le xs).map Prod.snd).idxOf index

-- The members in their order in the list, each with the number of its place in the order `le`.
def numbering (xs : List α) : List (α × Nat) :=
  xs.zipIdx.map fun entry => (entry.1, place le xs entry.2)

theorem ordered_map_fst (xs : List α) : (ordered le xs).map Prod.fst = xs.mergeSort le := by
  rw [ordered, List.map_mergeSort (s := le) fun _ _ _ _ => rfl, List.zipIdx_map_fst]

theorem ordered_perm (xs : List α) : (ordered le xs).Perm xs.zipIdx := List.mergeSort_perm _ _

theorem place_lt {xs : List α} {index : Nat} (h : index < xs.length) :
    place le xs index < xs.length := by
  have hmem : index ∈ (ordered le xs).map Prod.snd := by
    rw [((ordered_perm le xs).map Prod.snd).mem_iff, List.zipIdx_map_snd]
    simpa using h
  have hlen : ((ordered le xs).map Prod.snd).length = xs.length := by
    simp [ordered]
  exact hlen ▸ List.idxOf_lt_length_of_mem hmem

theorem numbering_lt {xs : List α} {entry : α × Nat} (h : entry ∈ numbering le xs) :
    entry.2 < xs.length := by
  obtain ⟨⟨member, index⟩, hindex, rfl⟩ := List.mem_map.mp h
  have hbound := (List.mem_zipIdx hindex).2.1
  exact place_lt le (by omega)

-- The numbering tells the order: its members are those of the ordered list with their
-- indices there.
theorem numbering_perm (xs : List α) : (numbering le xs).Perm (xs.mergeSort le).zipIdx := by
  have hnodup : ((ordered le xs).map Prod.snd).Nodup := by
    rw [((ordered_perm le xs).map Prod.snd).nodup_iff, List.zipIdx_map_snd]
    exact List.nodup_range'
  have hplaces : ((ordered le xs).map fun entry => (entry.1, place le xs entry.2)) =
      (xs.mergeSort le).zipIdx := by
    rw [← ordered_map_fst]
    apply List.ext_getElem (by simp)
    intro index hleft hright
    have hplace := hnodup.idxOf_getElem index (by simpa using hleft)
    simp only [List.getElem_map] at hplace
    simp [place, hplace]
  rw [← hplaces]
  exact ((ordered_perm le xs).map _).symm

-- Members are numbered in the order `le`, those with a number on the page are kept, and the
-- numbers give the order again.
theorem page_of_numbering (offset limit : Option Nat) (xs : List α) :
    (((numbering le xs).filter fun entry => onPage offset limit entry.2).mergeSort
        fun a b => decide (a.2 ≤ b.2)).map Prod.fst =
      pageOf offset limit (xs.mergeSort le) := by
  rw [← filter_zipIdx_onPage]
  refine congrArg (List.map Prod.fst) ?_
  have hperm := (numbering_perm le xs).filter fun entry => onPage offset limit entry.2
  generalize numbering le xs = numbered at hperm ⊢
  generalize xs.mergeSort le = sorted at hperm ⊢
  have hplaces : sorted.zipIdx.Pairwise fun a b => a.2 ≤ b.2 := by
    have hrange : (List.range' 0 sorted.length 1).Pairwise (· ≤ ·) := List.pairwise_le_range'
    rw [← List.zipIdx_map_snd 0 sorted] at hrange
    exact List.pairwise_map.mp hrange
  refine List.Perm.eq_of_pairwise ?_ ?_ (hplaces.filter fun entry => onPage offset limit entry.2)
    ((List.mergeSort_perm _ _).trans hperm)
  · intro a b ha hb hab hba
    have hmem : ∀ entry, entry ∈ sorted.zipIdx.filter (fun entry => onPage offset limit entry.2) →
        sorted[entry.2]? = some entry.1 :=
      fun entry hentry => List.mem_zipIdx_iff_getElem?.mp (List.mem_filter.mp hentry).1
    have hplace : a.2 = b.2 := Nat.le_antisymm hab hba
    have hvalue := hmem a (hperm.mem_iff.mp (List.mem_mergeSort.mp ha))
    rw [hplace, hmem b hb] at hvalue
    exact Prod.ext (Option.some.inj hvalue).symm hplace
  · have htrans : ∀ a b c : α × Nat, decide (a.2 ≤ b.2) = true → decide (b.2 ≤ c.2) = true →
        decide (a.2 ≤ c.2) = true := by
      intro a b c hab hbc
      simp only [decide_eq_true_eq] at *
      omega
    have htotal : ∀ a b : α × Nat, (decide (a.2 ≤ b.2) || decide (b.2 ≤ a.2)) = true := by
      intro a b
      simp only [Bool.or_eq_true, decide_eq_true_eq]
      omega
    have hsorted := List.pairwise_mergeSort htrans htotal
      (numbered.filter fun entry => onPage offset limit entry.2)
    exact hsorted.imp fun hab => by simpa using hab

end Numbering

end PivotQuery
