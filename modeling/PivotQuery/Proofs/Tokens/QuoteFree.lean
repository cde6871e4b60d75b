import PivotQuery.Decimal.Layout
import PivotQuery.Dialect.Engines
import PivotQuery.Proofs.NumberedNames

namespace PivotQuery

theorem forall_mem_toList_append {p : Char → Prop} {a b : String} (ha : ∀ c ∈ a.toList, p c)
    (hb : ∀ c ∈ b.toList, p c) : ∀ c ∈ (a ++ b).toList, p c := by
  rw [String.toList_append]
  exact List.forall_mem_append.mpr ⟨ha, hb⟩

-- A text without the marks that some dialect writes around names or texts.
def QuoteFree (text : String) : Prop := ∀ c ∈ text.toList, c ∉ ['"', '\'', '\x60']

instance (text : String) : Decidable (QuoteFree text) :=
  List.decidableBAll (fun c => c ∉ ['"', '\'', '\x60']) text.toList

theorem QuoteFree.append {a b : String} (ha : QuoteFree a) (hb : QuoteFree b) :
    QuoteFree (a ++ b) :=
  forall_mem_toList_append ha hb

-- The characters of numbers, and of the words for those that have no digits.
def numerals : List Char :=
  ['0', '1', '2', '3', '4', '5', '6', '7', '8', '9', '-', '.', 'e', 'i', 'n', 'f', 'N', 'a']

def Numeric (text : String) : Prop := ∀ c ∈ text.toList, c ∈ numerals

instance (text : String) : Decidable (Numeric text) :=
  List.decidableBAll (fun c => c ∈ numerals) text.toList

theorem Numeric.append {a b : String} (ha : Numeric a) (hb : Numeric b) : Numeric (a ++ b) :=
  forall_mem_toList_append ha hb

theorem Numeric.ofList {text : String} {chars : List Char} (h : Numeric text)
    (hsub : chars ⊆ text.toList) : Numeric (String.ofList chars) := by
  intro c hc
  rw [String.toList_ofList] at hc
  exact h c (hsub hc)

theorem Numeric.quoteFree {text : String} (h : Numeric text) : QuoteFree text := by
  have hnumerals : numerals.all (fun c => c ∉ ['"', '\'', '\x60']) = true := by decide
  exact fun c hc => of_decide_eq_true (List.all_eq_true.mp hnumerals c (h c hc))

-- A text of such characters that has at least one.
structure IsNumeral (text : String) : Prop where
  ne_empty : text ≠ ""
  numeric : Numeric text

instance (text : String) : Decidable (IsNumeral text) :=
  decidable_of_iff (text ≠ "" ∧ Numeric text)
    ⟨fun h => ⟨h.1, h.2⟩, fun h => ⟨h.ne_empty, h.numeric⟩⟩

namespace IsNumeral

variable {a b : String}

theorem append (ha : IsNumeral a) (hb : Numeric b) : IsNumeral (a ++ b) :=
  ⟨fun h => ha.ne_empty (String.append_eq_empty_iff.mp h).1, ha.numeric.append hb⟩

theorem prepend (ha : Numeric a) (hb : IsNumeral b) : IsNumeral (a ++ b) :=
  ⟨fun h => hb.ne_empty (String.append_eq_empty_iff.mp h).2, ha.append hb.numeric⟩

end IsNumeral

private theorem mem_numerals_of_isDigit {c : Char} (h : c.isDigit = true) : c ∈ numerals := by
  simp only [Char.isDigit, Bool.and_eq_true, decide_eq_true_eq] at h
  have hdigits : ∀ n < 58, 48 ≤ n → Char.ofNat n ∈ numerals := by decide
  have hc := hdigits c.toNat (Nat.lt_succ_of_le h.2) h.1
  rwa [Char.ofNat_toNat] at hc

theorem isNumeral_nat (n : Nat) : IsNumeral (toString n) where
  ne_empty := by simp
  numeric := fun _ hc => mem_numerals_of_isDigit (isDigit_of_mem_toString hc)

theorem isNumeral_int (n : Int) : IsNumeral (toString n) := by
  cases n with
  | ofNat n => exact isNumeral_nat n
  | negSucc n => exact .prepend (a := "-") (by decide) (isNumeral_nat (n + 1))

theorem quoteFree_nat (n : Nat) : QuoteFree (toString n) := (isNumeral_nat n).numeric.quoteFree

namespace Decimal

private theorem numeric_zeros (n : Nat) : Numeric (zeros n) := by
  intro c hc
  rw [zeros, String.toList_ofList] at hc
  rw [List.eq_of_mem_replicate hc]
  decide

namespace Layout

variable {layout : Layout} {digits : String}

private theorem isNumeral_place (hwhole : Numeric layout.whole) (hdigits : IsNumeral digits)
    (point : Int) : IsNumeral (layout.place digits point) := by
  unfold place
  split
  · exact ((by decide : IsNumeral "0.").append (numeric_zeros _)).append hdigits.numeric
  · split
    · exact (hdigits.append (numeric_zeros _)).append hwhole
    · exact .append (.prepend (hdigits.numeric.ofList (List.take_subset _ _)) (by decide))
        (hdigits.numeric.ofList (List.drop_subset _ _))

theorem isNumeral_magnitude (hwhole : Numeric layout.whole) (d : Digits) :
    IsNumeral (layout.magnitude d) := by
  have hdigits : IsNumeral (toString d.digits) := isNumeral_nat d.digits
  unfold magnitude
  split
  · exact (by decide : IsNumeral "0").append hwhole
  · dsimp only
    split
    · exact isNumeral_place hwhole hdigits _
    · have hfirst := hdigits.numeric.ofList (List.take_subset 1 _)
      have hrest := hdigits.numeric.ofList (List.drop_subset 1 _)
      refine .append (.prepend (hfirst.append ?_) (by decide)) (isNumeral_int _).numeric
      split
      · decide
      · exact (by decide : Numeric ".").append hrest

theorem isNumeral_render (hwhole : Numeric layout.whole) (x : Float) :
    IsNumeral (layout.render x) := by
  have hsign : ∀ (p : Prop) [Decidable p], Numeric (if p then "-" else "") := by
    intro p _
    split <;> decide
  unfold render
  dsimp only
  split
  · decide
  · split
    · exact .prepend (hsign _) (by decide)
    · split <;> exact .prepend (hsign _) (isNumeral_magnitude hwhole _)

end Layout

end Decimal

end PivotQuery
