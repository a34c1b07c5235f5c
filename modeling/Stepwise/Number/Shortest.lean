import Stepwise.Number.Decimal

namespace Stepwise

namespace Decimal

def dropZeros : Nat → Nat → Int → Nat × Int
  | 0, d, e => (d, e)
  | n + 1, d, e => if d % 10 = 0 then dropZeros n (d / 10) (e + 1) else (d, e)

def positional (digits : Nat) (exponent : Int) : String :=
  let ds := Nat.toDigits 10 digits
  if 0 ≤ exponent then String.ofList (ds ++ List.replicate exponent.toNat '0')
  else
    let places := (-exponent).toNat
    let ds := List.replicate (places + 1 - ds.length) '0' ++ ds
    String.ofList (ds.take (ds.length - places) ++ '.' :: ds.drop (ds.length - places))

def scientific (digits : Nat) (exponent : Int) : String :=
  let ds := Nat.toDigits 10 digits
  let power := toString (exponent + (ds.length - 1 : Nat))
  String.ofList (ds.take 1) ++ (if ds.length ≤ 1 then "" else "." ++ String.ofList (ds.drop 1))
    ++ "e" ++ power

end Decimal

namespace Binary64

def magnitudeOrder (x : Binary64) : Int :=
  Decimal.length (x.absUnits * Nat.pow 10 340 / unitsPerOne) - (340 : Int)

def stepsOf (x : Binary64) (e : Int) : Nat × Nat × Nat :=
  let num := x.absUnits * Nat.pow 10 (-e).toNat
  let den := unitsPerOne * Nat.pow 10 e.toNat
  (num / den, num % den, den)

def readsBack (x : Binary64) (digits : Nat) (exponent : Int) : Bool :=
  (Decimal.nearest ⟨x.negative, digits, exponent⟩) = x

/-- The better of the two decimals with step `10 ^ e` beside a number, among those that read back as
it. A tie goes away from zero. -/
def onGrid? (x : Binary64) (e : Int) : Option Nat :=
  let (lo, rest, den) := x.stepsOf e
  if x.readsBack lo e && (2 * rest < den || !x.readsBack (lo + 1) e) then some lo
  else if x.readsBack (lo + 1) e then some (lo + 1)
  else none

/-- The exact decimal expansion, which 1074 places always suffice for. -/
def exactDigits (x : Binary64) : Nat × Int := (x.absUnits * Nat.pow 5 1074, -1074)

/-- The fewest digits that read back, and the exponent of the last one. Seventeen are tried. -/
def shortDigits? (x : Binary64) : Option (Nat × Int) :=
  (List.range 17).findSome? fun n : Nat =>
    let e := x.magnitudeOrder - (n + 1 : Nat)
    (x.onGrid? e).map fun d => (d, e)

def shortest (x : Binary64) : Nat × Int :=
  let digits := x.shortDigits?.getD x.exactDigits
  Decimal.dropZeros 1100 digits.1 digits.2

def signText (x : Binary64) : String := if x.negative then "-" else ""

def wholePart (x : Binary64) : Nat := x.absUnits / unitsPerOne

/-- The text of a finite number: all digits and `.0` if it is whole, else its shortest digits. -/
def finiteText (x : Binary64) : String :=
  x.signText ++
    if x.isIntegral then String.ofList (Nat.toDigits 10 x.wholePart) ++ ".0"
    else Decimal.positional x.shortest.1 x.shortest.2

def text (x : Binary64) : String :=
  if x.isNaN then "NaN"
  else if x.isInfinite then if x.negative then "-Infinity" else "Infinity"
  else x.finiteText

/-- The text in internal forms: an exponent from `10 ^ 16` on and, except for zero, below
`10 ^ -4`. -/
def formText (x : Binary64) : String :=
  if x.isNaN then "NaN"
  else if x.isInfinite then if x.negative then "-inf" else "inf"
  else if x.absUnits = 0 then x.finiteText
  else if 16 < x.magnitudeOrder || x.magnitudeOrder < -3 then
    x.signText ++ Decimal.scientific x.shortest.1 x.shortest.2
  else x.finiteText

end Binary64

end Stepwise
