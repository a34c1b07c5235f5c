import Stepwise.Iteration.Basic
import Stepwise.Stepping

namespace Stepwise.Integer

def emit (notice : Int64 → Notice) (i : Int64) : Attempt (List Value) Unit := do
  Attempt.note (notice i)
  Attempt.yield [.int i]

def timesStep (n i : Int64) : Attempt (List Value) (Int64 ⊕ Unit) := do
  if i < n then
    emit .times i
    return .inl (i + 1)
  else return .inr ()

def timesBody (n : Int64) : Producer := do
  Attempt.loop 0 (timesStep n)
  return .int n

/-- The bound may be the largest integer, so nothing is added to it. -/
def uptoStep (bound i : Int64) : Attempt (List Value) (Int64 ⊕ Unit) := do
  if i ≤ bound then
    emit .upto i
    if i = bound then return .inr ()
    else return .inl (i + 1)
  else return .inr ()

def uptoBody (start bound : Int64) : Producer := do
  Attempt.loop start (uptoStep bound)
  return .int start

def times (n : Int64) : Iteration := ⟨.int n, "times", [], timesBody n⟩

def upto (start bound : Int64) : Iteration := ⟨.int start, "upto", [.int bound], uptoBody start bound⟩

/-- The receiver is checked at once, the number of arguments only when the body runs. -/
def timesMethod : Method := .iteration fun receiver args =>
  match receiver.asInt with
  | .ok n => .ok ⟨receiver, "times", args, do
      Attempt.arity "times" args 0
      timesBody n⟩
  | .error e => .error e

def uptoMethod : Method := .iteration fun receiver args =>
  match receiver.asInt with
  | .ok start => .ok ⟨receiver, "upto", args, do
      Attempt.arity "upto" args 1
      let bound ← Attempt.ofExcept (args.headD .nil).asInt
      uptoBody start bound⟩
  | .error e => .error e

def succMethod : Method := .blockless fun receiver args => do
  Attempt.arity "succ" args 0
  let n ← Attempt.ofExcept receiver.asInt
  return .int (← Attempt.ofExcept (integerSucc n))

end Stepwise.Integer
