namespace PivotQuery

-- Names that end in a number differ as their numbers do.

theorem toString_injective : Function.Injective fun n : Nat => toString n := by
  intro i j h
  have hdigits := congrArg String.toList h
  simp only [Nat.toString_eq_repr, Nat.toList_repr] at hdigits
  rw [← Nat.ofDigitChars_ten_toDigits (n := i), hdigits, Nat.ofDigitChars_ten_toDigits]

theorem numbered_injective (front : String) :
    Function.Injective fun n : Nat => front ++ toString n :=
  fun _ _ h => toString_injective ((String.append_right_inj front).mp h)

theorem isDigit_of_mem_toString {n : Nat} {c : Char} (h : c ∈ (toString n).toList) :
    c.isDigit = true := by
  rw [Nat.toString_eq_repr, Nat.toList_repr] at h
  exact Nat.isDigit_of_mem_toDigits (by decide) (by decide) h

-- A number ends where something else than a digit follows.
theorem takeWhile_isDigit (n : Nat) {c : Char} (hc : c.isDigit = false) (rest : List Char) :
    ((toString n).toList ++ c :: rest).takeWhile Char.isDigit = (toString n).toList := by
  rw [List.takeWhile_append_of_pos fun _ hdigit => isDigit_of_mem_toString hdigit,
    List.takeWhile_cons_of_neg (by simp [hc]), List.append_nil]

end PivotQuery
