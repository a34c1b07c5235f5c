import Stepwise.Number.Binary64

namespace Stepwise

/-- The exact number `digits * 10 ^ exponent` with a sign, which zero has too. -/
structure Decimal where
  negative : Bool
  digits : Nat
  exponent : Int
deriving DecidableEq, Inhabited

namespace Decimal

def isDigit (c : Char) : Bool := '0' ≤ c && c ≤ '9'

def digitsValue (cs : List Char) : Nat := cs.foldl (fun n c => 10 * n + (c.toNat - 48)) 0

def sign : List Char → Bool × List Char
  | '-' :: cs => (true, cs)
  | '+' :: cs => (false, cs)
  | cs => (false, cs)

def wholeNumber? (cs : List Char) : Option Int :=
  let (neg, ds) := sign cs
  if ds.isEmpty || !ds.all isDigit then none
  else some (if neg then -(digitsValue ds : Int) else digitsValue ds)

def natural? (cs : List Char) : Option Nat :=
  let ds := match cs with
    | '+' :: ds => ds
    | ds => ds
  if ds.isEmpty || !ds.all isDigit then none else some (digitsValue ds)

def exponentPart? : List Char → Option Int
  | [] => some 0
  | c :: cs => if c = 'e' || c = 'E' then wholeNumber? cs else none

def fractionPart : List Char → List Char × List Char
  | '.' :: cs => cs.span isDigit
  | cs => ([], cs)

def parse? (cs : List Char) : Option Decimal :=
  let (neg, cs) := sign cs
  let (whole, cs) := cs.span isDigit
  let (fraction, cs) := fractionPart cs
  if whole.isEmpty && fraction.isEmpty then none
  else (exponentPart? cs).map fun e => ⟨neg, digitsValue (whole ++ fraction), e - fraction.length⟩

def length (n : Nat) : Nat := (Nat.toDigits 10 n).length

/-- The double nearest to a decimal. Decimals of at least `10 ^ 310` or below `10 ^ -330` are beyond
the range by far, and no power of ten is computed for them. -/
def nearest (d : Decimal) : Binary64 :=
  let top := length d.digits + d.exponent
  if d.digits = 0 || top < -330 then .ofMagnitude d.negative 0
  else if 310 < top then .ofMagnitude d.negative Binary64.infinityMagnitude
  else if 0 ≤ d.exponent then .ofRatio d.negative (d.digits * Nat.pow 10 d.exponent.toNat) 1
  else .ofRatio d.negative d.digits (Nat.pow 10 (-d.exponent).toNat)

end Decimal

end Stepwise
