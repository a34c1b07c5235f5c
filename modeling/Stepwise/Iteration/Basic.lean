import Stepwise.Method

namespace Stepwise

structure Iteration where
  receiver : Value
  method : String
  args : List Value
  body : Producer

namespace Iteration

/-- What an iteration gives: its result, or the enumerator it was deferred to. -/
inductive Outcome
  | completed (result : Value)
  | deferred (e : Enumerator)

def Outcome.toValue : Outcome → Value
  | completed v => v
  | deferred e => e.toValue

def defer {ι : Type} (it : Iteration) : Attempt ι Enumerator := do
  Attempt.note (.deferred it.receiver it.method)
  Attempt.enumerate it.receiver it.method it.args

end Iteration

/-- The method whose calls are iterations. The entry decides what is checked before the body. -/
def Method.iteration (entry : Value → List Value → Except Error Iteration) : Method where
  withBlock receiver args :=
    match entry receiver args with
    | .ok it => it.body
    | .error e => throw e
  plain receiver args :=
    match entry receiver args with
    | .ok it => return (← it.defer).toValue
    | .error e => throw e

end Stepwise
