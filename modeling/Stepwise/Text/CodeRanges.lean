namespace Stepwise.Text

abbrev CodeRanges := List (Nat × Nat)

def CodeRanges.has : CodeRanges → Nat → Bool
  | [], _ => false
  | (lo, hi) :: rest, n => if n < lo then false else n ≤ hi || CodeRanges.has rest n

end Stepwise.Text
