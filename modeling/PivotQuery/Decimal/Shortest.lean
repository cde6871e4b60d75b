import PivotQuery.Decimal.Tie

namespace PivotQuery.Decimal

-- A positive finite number mantissa * 2 ^ exponent, in the form in which it is stored.
structure Binary where
  mantissa : Nat
  exponent : Int
deriving DecidableEq, Repr

def hiddenBit : Nat := 0x10000000000000

-- Above the 52 stored bits there is one more unless the exponent field is zero.
def Binary.ofBits (bits : UInt64) : Binary :=
  let field : Nat := bits.toNat / hiddenBit % 0x800
  let stored : Nat := bits.toNat % hiddenBit
  if field = 0 then ⟨stored, -1074⟩ else ⟨stored + hiddenBit, (field : Int) - 1075⟩

-- The reals that read back as one float, in quarter units of its last place. The lower gap is half
-- as wide where the exponent steps up, and the ends are in it exactly if the mantissa is even.
structure Basin where
  low : Nat
  value : Nat
  high : Nat
  denominator : Nat
  closed : Bool

def Binary.basin (b : Binary) : Basin :=
  let gap := if b.mantissa = hiddenBit && -1074 < b.exponent then 1 else 2
  let scale := Nat.pow 2 (b.exponent - 2).toNat
  { low := (4 * b.mantissa - gap) * scale
    value := 4 * b.mantissa * scale
    high := (4 * b.mantissa + 2) * scale
    denominator := Nat.pow 2 (2 - b.exponent).toNat
    closed := b.mantissa % 2 = 0 }

-- The same reals in units of a power of ten.
def Basin.inUnits (b : Basin) (power : Int) : Basin :=
  let up := Nat.pow 10 (-power).toNat
  { b with
    low := b.low * up
    value := b.value * up
    high := b.high * up
    denominator := b.denominator * Nat.pow 10 power.toNat }

def Basin.holds (b : Basin) (count : Nat) : Bool :=
  let point := count * b.denominator
  if b.closed then b.low ≤ point && point ≤ b.high else b.low < point && point < b.high

-- If any whole number of units reads back as the value, one of its neighbours does.
def Basin.nearest? (b : Basin) (tie : Tie) : Option Nat :=
  let below := b.value / b.denominator
  let above := below + 1
  match b.holds below, b.holds above with
  | true, true => some (tie.round b.value b.denominator)
  | true, false => some below
  | false, true => some above
  | false, false => none

structure Digits where
  digits : Nat
  power : Int
deriving DecidableEq, Repr

-- From a power of ten downwards, the first whose multiples hit the basin.
def Basin.coarsest (b : Basin) (tie : Tie) : Nat → Int → Digits
  | 0, power => ⟨(b.inUnits power).value / (b.inUnits power).denominator, power⟩
  | steps + 1, power =>
    match (b.inUnits power).nearest? tie with
    | some count => ⟨count, power⟩
    | none => b.coarsest tie steps (power - 1)

-- No float reaches 10 ^ 309, and each is a whole multiple of 10 ^ exponent if that is negative.
def Binary.shortest (b : Binary) (tie : Tie) : Digits :=
  b.basin.coarsest tie (309 - min b.exponent 0).toNat 309

example : (Binary.ofBits 0x3FB999999999999A).shortest .up = ⟨1, -1⟩ := by decide +kernel
example : (Binary.ofBits 1).shortest .up = ⟨5, -324⟩ := by decide +kernel
example : (Binary.ofBits 0x3E60000000000000).shortest .up = ⟨29802322387695313, -24⟩ := by
  decide +kernel
example : (Binary.ofBits 0x3E60000000000000).shortest .toEven = ⟨29802322387695312, -24⟩ := by
  decide +kernel

end PivotQuery.Decimal
