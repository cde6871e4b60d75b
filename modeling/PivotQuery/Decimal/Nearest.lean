import PivotQuery.Decimal.Tie

namespace PivotQuery.Decimal

-- The bits of the float nearest to a quotient. The last place of the result is 2 ^ place; the
-- stored fields, read as one number, count the floats from zero on, so a mantissa that rounds up to
-- 2 ^ 53 carries into the exponent, and what reaches the largest exponent is infinite.
def nearestBits (numerator denominator : Nat) : UInt64 :=
  if numerator = 0 then 0
  else
    let guess : Int := numerator.log2 - denominator.log2
    let reached := denominator * Nat.pow 2 guess.toNat ≤ numerator * Nat.pow 2 (-guess).toNat
    let leading := if reached then guess else guess - 1
    let place := max (leading - 52) (-1074)
    let mantissa :=
      Tie.toEven.round (numerator * Nat.pow 2 (-place).toNat) (denominator * Nat.pow 2 place.toNat)
    UInt64.ofNat (min ((place + 1074).toNat * 0x10000000000000 + mantissa) 0x7FF0000000000000)

-- The float nearest to digits * 10 ^ power. Outside the guard the result is
-- infinite or zero whatever the digits are, and no large power is formed.
def nearest (negative : Bool) (digits : Nat) (power : Int) : Float :=
  let size := (Nat.toDigits 10 digits).length + power
  let bits : UInt64 :=
    if digits = 0 || size < -400 then 0
    else if 400 < size then 0x7FF0000000000000
    else nearestBits (digits * Nat.pow 10 power.toNat) (Nat.pow 10 (-power).toNat)
  Float.ofBits (if negative then bits + 0x8000000000000000 else bits)

example : nearestBits 1 10 = 0x3FB999999999999A := by decide +kernel
example : nearestBits (2 ^ 53 + 1) 1 = 0x4340000000000000 := by decide +kernel
example : nearestBits 5 (10 ^ 324) = 1 := by decide +kernel
example : nearestBits (2 ^ 1024) 1 = 0x7FF0000000000000 := by decide +kernel

def digitValue (c : Char) : Nat := c.toNat - '0'.toNat

def numberOf (digits : List Char) : Nat := digits.foldl (fun n c => 10 * n + digitValue c) 0

-- A signed whole number with at least one digit.
def exponent? : List Char → Option Int
  | '-' :: digits =>
    if !digits.isEmpty && digits.all Char.isDigit then some (-numberOf digits) else none
  | '+' :: digits | digits =>
    if !digits.isEmpty && digits.all Char.isDigit then some (numberOf digits) else none

-- The float that a text denotes: decimal digits with an optional point and
-- exponent, or a word for a value without digits.
def magnitude? (negative : Bool) (text : List Char) : Option Float :=
  let word := String.ofList (text.map Char.toLower)
  if word = "nan" then some (Float.ofBits 0x7FF8000000000000)
  else if word = "inf" || word = "infinity" then
    some (Float.ofBits (if negative then 0xFFF0000000000000 else 0x7FF0000000000000))
  else
    let (mantissa, tail) := text.span fun c => c != 'e' && c != 'E'
    let (whole, rest) := mantissa.span Char.isDigit
    let fraction := rest.drop 1
    let digits := whole ++ fraction
    let pointed := rest.isEmpty || rest.head? == some '.'
    if digits.isEmpty || !pointed || !fraction.all Char.isDigit then none
    else
      let power : Option Int := if tail.isEmpty then some 0 else exponent? (tail.drop 1)
      power.map fun power => nearest negative (numberOf digits) (power - fraction.length)

def readReal? (text : String) : Option Float :=
  match text.toList with
  | '-' :: rest => magnitude? true rest
  | '+' :: rest | rest => magnitude? false rest

end PivotQuery.Decimal
