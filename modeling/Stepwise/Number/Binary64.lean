/-!
Double-precision numbers by their bits. Every finite number is a whole number of units, a unit
being the least positive number, so order and rounding are integer arithmetic.
-/
namespace Stepwise

structure Binary64 where
  bits : UInt64
deriving DecidableEq, Inhabited

namespace Binary64

def signSize : Nat := 0x8000000000000000

def binadeSize : Nat := 0x10000000000000

def infinityMagnitude : Nat := 2047 * binadeSize

def negative (x : Binary64) : Bool := signSize ≤ x.bits.toNat

/-- The bits without the sign. On numbers they have the order of the absolute values. -/
def magnitude (x : Binary64) : Nat := x.bits.toNat % signSize

def isNaN (x : Binary64) : Bool := infinityMagnitude < x.magnitude

def isInfinite (x : Binary64) : Bool := x.magnitude = infinityMagnitude

def isFinite (x : Binary64) : Bool := x.magnitude < infinityMagnitude

def exponentField (x : Binary64) : Nat := x.magnitude / binadeSize

def significand (x : Binary64) : Nat :=
  x.magnitude % binadeSize + if x.exponentField = 0 then 0 else binadeSize

def binade (x : Binary64) : Nat := x.exponentField - 1

def unitsPerOne : Nat := Nat.pow 2 1074

/-- The absolute value in units. An infinity takes the place after the largest finite number. -/
def absUnits (x : Binary64) : Nat := x.significand * Nat.pow 2 x.binade

def units (x : Binary64) : Int := if x.negative then -x.absUnits else x.absUnits

def compare (x y : Binary64) : Option Ordering :=
  if x.isNaN || y.isNaN then none else some (Ord.compare x.units y.units)

def integerLimit : Binary64 := ⟨0x43e0000000000000⟩

def floor (x : Binary64) : Int := x.units / unitsPerOne

def compareInt (a : Int64) (x : Binary64) : Option Ordering :=
  if x.isNaN then none
  else if integerLimit.units ≤ x.units then some .lt
  else if x.units < -integerLimit.units then some .gt
  else
    match Ord.compare a.toInt (Int64.ofInt x.floor).toInt with
    | .eq => if x.floor * unitsPerOne < x.units then some .lt else some .eq
    | o => some o

def isIntegral (x : Binary64) : Bool := x.isFinite && x.absUnits % unitsPerOne = 0

def ofMagnitude (negative : Bool) (magnitude : Nat) : Binary64 :=
  ⟨UInt64.ofNat (magnitude + if negative then signSize else 0)⟩

/-- The nearest whole number to a quotient. A tie goes to the even one. -/
def roundDiv (num den : Nat) : Nat :=
  let q := num / den
  let r := num % den
  if 2 * r < den then q else if den < 2 * r then q + 1 else q + q % 2

/-- The number nearest to a quotient, ties to the even significand, and an infinity beyond the
largest. A significand that rounds up to a power of two carries into the exponent by itself. -/
def ofRatio (negative : Bool) (num den : Nat) : Binary64 :=
  let u := num * unitsPerOne
  let binade := (u / den).log2 - 52
  ofMagnitude negative
    (min (binade * binadeSize + roundDiv u (den * Nat.pow 2 binade)) infinityMagnitude)

end Binary64

end Stepwise
