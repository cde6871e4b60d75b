namespace PivotQuery.Decimal

-- Where a value halfway between two whole numbers goes.
inductive Tie
  | up
  | toEven

-- A quotient to the nearest whole number.
def Tie.round (tie : Tie) (numerator denominator : Nat) : Nat :=
  let below := numerator / denominator
  let rest := 2 * (numerator % denominator)
  let stays :=
    match tie with
    | .up => false
    | .toEven => below % 2 = 0
  if rest < denominator || (rest = denominator && stays) then below else below + 1

example : Tie.up.round 5 2 = 3 ∧ Tie.toEven.round 5 2 = 2 ∧ Tie.toEven.round 7 2 = 4 := by decide

end PivotQuery.Decimal
