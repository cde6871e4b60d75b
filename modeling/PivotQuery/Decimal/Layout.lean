import PivotQuery.Decimal.Shortest

namespace PivotQuery.Decimal

-- A number whose first digit stands at 10 ^ e is written without an exponent if `positional e`.
-- Of two shortest texts equally near, the tie tells.
structure Layout where
  positional : Int → Bool
  whole : String
  tie : Tie

def Layout.plain : Layout := ⟨fun _ => true, "", .up⟩

def Layout.literal : Layout := ⟨fun e => -4 ≤ e && e ≤ 15, ".0", .up⟩

def Layout.interchange : Layout := ⟨fun e => -5 ≤ e && e ≤ 15, ".0", .toEven⟩

def zeros (n : Nat) : String := String.ofList (List.replicate n '0')

-- The decimal point may lie outside the digits on either side.
def Layout.place (layout : Layout) (digits : String) (point : Int) : String :=
  if point ≤ 0 then "0." ++ zeros (-point).toNat ++ digits
  else if digits.length ≤ point then
    digits ++ zeros (point.toNat - digits.length) ++ layout.whole
  else
    String.ofList (digits.toList.take point.toNat) ++ "." ++
      String.ofList (digits.toList.drop point.toNat)

def Layout.magnitude (layout : Layout) (d : Digits) : String :=
  if d.digits = 0 then "0" ++ layout.whole
  else
    let digits := toString d.digits
    let point := digits.length + d.power
    if layout.positional (point - 1) then layout.place digits point
    else
      let first := String.ofList (digits.toList.take 1)
      let rest := String.ofList (digits.toList.drop 1)
      first ++ (if rest.isEmpty then "" else "." ++ rest) ++ "e" ++ toString (point - 1)

-- Negative zero has its sign too.
def Layout.render (layout : Layout) (x : Float) : String :=
  if x.isNaN then "NaN"
  else
    let bits := x.toBits
    let sign := if 0x8000000000000000 ≤ bits.toNat then "-" else ""
    if x.isInf then sign ++ "inf"
    else if bits.toNat % 0x8000000000000000 = 0 then sign ++ layout.magnitude ⟨0, 0⟩
    else sign ++ layout.magnitude ((Binary.ofBits bits).shortest layout.tie)

end PivotQuery.Decimal
