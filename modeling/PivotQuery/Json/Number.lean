import PivotQuery.Json.Basic
import PivotQuery.Decimal.Nearest

namespace PivotQuery.Json.Number

open PivotQuery.Decimal (digitValue)

-- A number as it is written: digits before the point, digits behind it, and an
-- exponent with its sign. Without point and exponent it is whole.
structure Numeral where
  negative : Bool
  whole : List Char
  fraction : Option (List Char)
  exponent : Option (Bool × List Char)

-- The longest numeral at the start of a text, and what follows. A point and an
-- exponent need a digit, and a zero at the front stands alone.
def numeral? (text : List Char) : Option (Numeral × List Char) :=
  let negative := text.head? == some '-'
  let (whole, rest) := (if negative then text.drop 1 else text).span Char.isDigit
  if whole.isEmpty || (whole.head? == some '0' && 1 < whole.length) then none
  else
    let (fraction, rest) : Option (List Char) × List Char :=
      if rest.head? == some '.' then
        ((rest.drop 1).span Char.isDigit).map some id
      else (none, rest)
    if fraction.any List.isEmpty then none
    else if rest.head? == some 'e' || rest.head? == some 'E' then
      let rest := rest.drop 1
      let signed := rest.head? == some '+' || rest.head? == some '-'
      let below := rest.head? == some '-'
      let (digits, rest) := (if signed then rest.drop 1 else rest).span Char.isDigit
      if digits.isEmpty then none
      else some (⟨negative, whole, fraction, some (below, digits)⟩, rest)
    else some (⟨negative, whole, fraction, none⟩, rest)

-- Digits are taken into a 64-bit number for as long as it can hold one more; the
-- second part counts the digits that are left.
def accumulate (limit : Nat) (significand : Nat) : List Char → Nat × Nat
  | [] => (significand, 0)
  | digit :: rest =>
    let next := 10 * significand + digitValue digit
    if limit < next then (significand, rest.length + 1) else accumulate limit next rest

def maxWord : Nat := 0xFFFFFFFFFFFFFFFF

-- Scales by steps of at most 308 powers of ten, rounding each time, so the last bit may differ from
-- the nearest float. Overflow gives no number, and what has become zero stays zero.
def scaled? (value : Float) (power : Int) : Nat → Option Float
  | 0 => some value
  | steps + 1 =>
    if power.natAbs ≤ 308 then
      let unit := Decimal.nearest false 1 power.natAbs
      if 0 ≤ power then
        let product := value * unit
        if product.isInf then none else some product
      else some (value / unit)
    else if value == 0 then some value
    else if 0 ≤ power then none
    else scaled? (value / Decimal.nearest false 1 308) (power + 308) steps

-- The exponent as a 32-bit number; `none` if it is too large for one.
def exponentOf (digits : List Char) : Option Nat :=
  let (value, left) := accumulate 0x7FFFFFFF 0 digits
  if left = 0 then some value else none

-- The value of a numeral; `none` if it is out of range. A whole number that does
-- not fit 64 bits is read as a fraction, and so is minus zero.
def Numeral.value? (n : Numeral) : Option Number :=
  let (significand, dropped) := accumulate maxWord 0 n.whole
  let isWhole := n.fraction.isNone && n.exponent.isNone && dropped = 0
  if isWhole && !n.negative then some (.integer significand)
  else if isWhole && 0 < significand && significand ≤ 0x8000000000000000 then
    some (.integer (-significand))
  else
    let fraction := n.fraction.getD []
    let (significand, left) := accumulate maxWord significand fraction
    let power : Int := dropped - (fraction.length - left : Nat)
    let signed (x : Float) : Number := .real (if n.negative then -x else x)
    let start := (UInt64.ofNat significand).toFloat
    match n.exponent with
    | none => (scaled? start power (power.natAbs / 308 + 1)).map signed
    | some (below, digits) =>
      match exponentOf digits with
      | some exponent =>
        let power := if below then power - exponent else power + exponent
        (scaled? start power (power.natAbs / 308 + 1)).map signed
      | none => if significand = 0 || below then some (signed 0) else none

def toReal : Number → Float
  | .integer value =>
    let magnitude := (UInt64.ofNat value.natAbs).toFloat
    if value < 0 then -magnitude else magnitude
  | .real value => value

end PivotQuery.Json.Number
