import Stepwise.Routine
import Stepwise.Value.Order
import Stepwise.Text.Successor

namespace Stepwise

/-- Elements with a successor and an order. Whether there is a successor may depend on the session,
and computing it may fail. -/
class Steppable (τ : Type) where
  className : τ → String
  describe : τ → String
  respondsToSucc : τ → Routine Empty Bool
  succ : τ → Attempt Empty τ
  compare : τ → τ → Option Ordering

namespace Steppable

variable {τ : Type} [Steppable τ]

def ordering (a b : τ) : Except Error Ordering :=
  match compare a b with
  | some o => .ok o
  | none => .error (.comparisonFailed (className a) (describe b))

def advance {β : Type} (current : τ) : Attempt τ (τ ⊕ β) := do
  Attempt.yield current
  return .inl (← (succ current).lift)

def stepEndless (first : τ) : Attempt τ Unit := Attempt.loop first advance

def belowStep (last current : τ) : Attempt τ (τ ⊕ τ) := do
  match ← Attempt.ofExcept (ordering current last) with
  | .lt => advance current
  | _ => return .inr current

def stepBelow (first last : τ) : Attempt τ τ := Attempt.loop first (belowStep last)

def finish (last : τ) (excludeEnd : Bool) (current : τ) : Attempt τ Unit := do
  if !excludeEnd then
    match ← Attempt.ofExcept (ordering current last) with
    | .eq => Attempt.yield current
    | _ => return

def stepTo (first last : τ) (excludeEnd : Bool) : Attempt τ Unit := do
  finish last excludeEnd (← stepBelow first last)

def stepBounded (first last : τ) (excludeEnd : Bool) : Attempt τ Unit := do
  match ← Attempt.ofExcept (ordering first last) with
  | .gt => Attempt.note (.emptyRange (describe first) (describe last))
  | _ => stepTo first last excludeEnd

/-- Steps from `first` to `last`, or without end. An element without a successor cannot start even an
empty range. -/
def stepRange (first : τ) (last? : Option τ) (excludeEnd : Bool) : Attempt τ Unit := do
  if ← Attempt.lift (Attempt.ofRoutine (respondsToSucc first)) then
    match last? with
    | none =>
      Attempt.note (.endlessRange (describe first))
      stepEndless first
    | some last => stepBounded first last excludeEnd
  else throw (.cannotIterate (className first))

end Steppable

def integerSucc (n : Int64) : Except Error Int64 :=
  if n = Int64.maxValue then .error (.overflow (Value.integerText n)) else .ok (n + 1)

instance : Steppable Int64 where
  className _ := Class.integer.name
  describe := Value.integerText
  respondsToSucc _ := .pure true
  succ n := Attempt.ofExcept (integerSucc n)
  compare a b := some (Ord.compare a.toInt b.toInt)

def firstChar? (code : Nat) : (count : Nat) → Option Char
  | 0 => none
  | count + 1 =>
    match Text.charOfCode? code with
    | some c => some c
    | none => firstChar? (code + 1) count

def charSucc (c : Char) : Except Error Char :=
  match firstChar? (c.toNat + 1) (Text.lastCode - c.toNat) with
  | some d => .ok d
  | none => .error (.overflow (Quoted.char c))

instance : Steppable Char where
  className _ := "char"
  describe := Quoted.char
  respondsToSucc _ := .pure true
  succ c := Attempt.ofExcept (charSucc c)
  compare a b := some (Ord.compare a.toNat b.toNat)

instance : Steppable Value where
  className := Value.className
  describe := Value.inspect
  respondsToSucc v := .respondsTo v "succ" .pure
  succ v := Attempt.send v "succ" []
  compare := Value.compare

end Stepwise
