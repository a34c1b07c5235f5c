import Stepwise.Builtins
import Stepwise.Value.Literal
import Stepwise.CommandLine.Failure

namespace Stepwise

/-- With a printing block, as one array, or pulled one by one up to a bound. -/
inductive Mode
  | eager
  | toArray
  | lazy (take : Option Nat)
deriving DecidableEq, Inhabited

def Mode.form : Mode → String
  | eager => "Eager"
  | toArray => "ToA"
  | lazy none => "Lazy \x7b take: None \x7d"
  | lazy (some k) => "Lazy \x7b take: Some(" ++ toString k ++ ") \x7d"

structure Call where
  receiver : Value
  method : String
  args : List Value

abbrev Printing (α : Type) := ExceptT Failure (Routine String) α

namespace Printing

def line (text : String) : Printing Unit :=
  ExceptT.mk (.yield (text ++ "\n") fun
    | .ok _ => .pure (.ok ())
    | .error _ => .pure (.error .output))

def attempt {α : Type} (a : Attempt String α) : Printing α :=
  ExceptT.mk (a.run.bind fun
    | .ok a => .pure (.ok a)
    | .error e => .pure (.error (.runtime e)))

end Printing

namespace Call

def times (n : String) : Call := ⟨Literal.read n, "times", []⟩

def upto (start bound : String) : Call := ⟨Literal.read start, "upto", [Literal.read bound]⟩

def each (first : String) (last? : Option String) (exclusive : Bool) : Except Failure Call :=
  match Range.make (Literal.read first) ((last?.map Literal.read).getD .nil) exclusive with
  | .ok r => .ok ⟨r.toValue, "each", []⟩
  | .error e => .error (.runtime e)

def checkBounded (c : Call) (mode : Mode) : Except Failure Unit :=
  match c.receiver, mode with
  | .range _ _ _, .lazy (some _) => .ok ()
  | .range _ .nil _, _ => .error (.unbounded c.receiver.inspect)
  | _, _ => .ok ()

/-- Prints each element, and the result at the end. A line that could not be written ends the call,
and is what is reported whatever the method makes of it. -/
def runEager (c : Call) : Printing Unit :=
  ExceptT.mk (.drive (Attempt.invoke c.receiver c.method c.args).run false
    (fun closed args => .yield ((Value.pack args).inspect ++ "\n") fun
      | .ok _ => .pure (closed, .ok ())
      | .error _ => .pure (true, .error (.raised "output closed")))
    fun closed result =>
      if closed then .pure (.error .output)
      else match result with
        | .ok v => (Printing.line ("=> " ++ v.inspect)).run
        | .error e => .pure (.error (.runtime e)))

def runToArray (c : Call) : Printing Unit := do
  let v ← Printing.attempt (Attempt.send c.receiver c.method c.args)
  let items ← Printing.attempt v.elements
  Printing.line (Value.array items).inspect

def pullStep (e : Enumerator) (take : Option Nat) (pulled : Nat) : Printing (Nat ⊕ Nat) := do
  if take.all (pulled < ·) then
    match ← (ExceptT.lift (Routine.next e .pure) : Printing (Except Error Value)) with
    | .ok v =>
      Printing.line v.inspect
      return .inl (pulled + 1)
    | .error .stopIteration => return .inr pulled
    | .error err => throw (.runtime err)
  else return .inr pulled

def runLazy (c : Call) (take : Option Nat) : Printing Unit := do
  let v ← Printing.attempt (Attempt.send c.receiver c.method c.args)
  let e ← Printing.attempt (Attempt.ofExcept v.asEnumerator)
  let pulled ← (ExceptT.mk (Routine.tryLoop 0 fun n => (pullStep e take n).run) : Printing Nat)
  Printing.attempt (Attempt.note (.pulled pulled))

def run (c : Call) (mode : Mode) : Printing Unit :=
  match c.checkBounded mode with
  | .error f => throw f
  | .ok _ => do
    Printing.attempt (Attempt.note (.running c.receiver c.method mode.form))
    match mode with
    | .eager => c.runEager
    | .toArray => c.runToArray
    | .lazy take => c.runLazy take

end Call

end Stepwise
