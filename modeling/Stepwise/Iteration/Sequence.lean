import Stepwise.Iteration.Basic
import Stepwise.Stepping

namespace Stepwise

namespace Range

def last? (r : Range) : Option Value := if r.isEndless then none else some r.last

def step (r : Range) : Attempt (List Value) Unit :=
  (Steppable.stepRange r.first r.last? r.excludeEnd).forEach fun v => do
    Attempt.note (.rangeElement v)
    Attempt.yield [v]

def each (r : Range) : Iteration := ⟨r.toValue, "each", [], do
  r.step
  return r.toValue⟩

/-- Nothing is deferred for a call with arguments or on another receiver. -/
def eachMethod : Method := .iteration fun receiver args =>
  if args.length ≠ 0 then .error (.argumentCount "each" 0 args.length)
  else match receiver.asRange with
    | .ok r => .ok r.each
    | .error e => .error e

def partMethod (name : String) (part : Range → Value) : Method := .blockless fun receiver args => do
  Attempt.arity name args 0
  return part (← Attempt.ofExcept receiver.asRange)

end Range

namespace Items

def step : List Value → Attempt (List Value) Unit
  | [] => pure ()
  | v :: vs => do
    Attempt.yield [v]
    step vs

def each (items : List Value) : Iteration := ⟨.array items, "each", [], do
  step items
  return .array items⟩

def eachMethod : Method := .iteration fun receiver args =>
  if args.length ≠ 0 then .error (.argumentCount "each" 0 args.length)
  else match receiver.asArray with
    | .ok items => .ok (each items)
    | .error e => .error e

end Items

namespace Enumerator

def replay (e : Enumerator) : Producer := do
  Attempt.note (.replayed e.toValue)
  Attempt.invoke e.receiver e.method e.args

/-- An enumerator without a block is itself what its iteration is deferred to. -/
def eachMethod : Method where
  withBlock receiver args := do
    Attempt.arity "each" args 0
    let e ← Attempt.ofExcept receiver.asEnumerator
    e.replay
  plain receiver args := do
    Attempt.arity "each" args 0
    return (← Attempt.ofExcept receiver.asEnumerator).toValue

def pullMethod (name : String) (pull : Enumerator → Attempt Empty Value) : Method :=
  .blockless fun receiver args => do
    Attempt.arity name args 0
    pull (← Attempt.ofExcept receiver.asEnumerator)

end Enumerator

def Attempt.collect {ι α : Type} (source : Attempt (List Value) α) : Attempt ι (List Value) :=
  ExceptT.mk (.drive source.run []
    (fun collected args => .pure (Value.pack args :: collected, .ok ()))
    fun collected r =>
      match r with
      | .ok _ => .note (.collected collected.length) (.pure (.ok collected.reverse))
      | .error e => .pure (.error e))

def Value.elements {ι : Type} (v : Value) : Attempt ι (List Value) :=
  Attempt.collect (Attempt.invoke v "each" [])

def toArrayMethod : Method := .blockless fun receiver args => do
  Attempt.arity "to_a" args 0
  return .array (← receiver.elements)

end Stepwise
