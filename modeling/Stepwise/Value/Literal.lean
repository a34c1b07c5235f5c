import Stepwise.Value.Basic
import Stepwise.Number.Decimal

namespace Stepwise.Literal

def integer? (cs : List Char) : Option Int64 :=
  match Decimal.wholeNumber? cs with
  | some n =>
    if Int64.minValue.toInt ≤ n && n ≤ Int64.maxValue.toInt then some (Int64.ofInt n) else none
  | none => none

def float? (cs : List Char) : Option Binary64 :=
  if cs.any (fun c => c = '.' || c = 'e' || c = 'E') then
    match Decimal.parse? cs with
    | some d => if d.nearest.isFinite then some d.nearest else none
    | none => none
  else none

def read (text : String) : Value :=
  if text = "nil" then .nil
  else if text = "true" then .bool true
  else if text = "false" then .bool false
  else match integer? text.toList with
    | some n => .int n
    | none =>
      match float? text.toList with
      | some x => .float x
      | none => .str text

end Stepwise.Literal
