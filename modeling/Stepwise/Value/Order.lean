import Stepwise.Value.Basic

namespace Stepwise.Value

/-- There is no answer for values of different kinds, for a number that is not one, and for kinds
without an order. -/
def compare : Value → Value → Option Ordering
  | int a, int b => some (Ord.compare a.toInt b.toInt)
  | int a, float x => x.compareInt a
  | float x, int b => (x.compareInt b).map Ordering.swap
  | float x, float y => x.compare y
  | str s, str t => some (Ord.compare s t)
  | nil, nil => some .eq
  | _, _ => none

mutual

/-- Enumerators are equal by identity, arrays and ranges by their parts. -/
def equal : Value → Value → Bool
  | bool a, bool b => a == b
  | array as, array bs => equalAll as bs
  | range a b x, range a' b' x' => equal a a' && equal b b' && x == x'
  | enumerator i _ _ _, enumerator j _ _ _ => i == j
  | a, b => a.compare b == some .eq

def equalAll : List Value → List Value → Bool
  | [], [] => true
  | a :: as, b :: bs => equal a b && equalAll as bs
  | _, _ => false

end

end Stepwise.Value

namespace Stepwise

def Range.make (first last : Value) (excludeEnd : Bool) : Except Error Range :=
  if !last.isNil && (first.compare last).isNone then .error .badRange
  else .ok ⟨first, last, excludeEnd⟩

def Range.isEndless (r : Range) : Bool := r.last.isNil

end Stepwise
