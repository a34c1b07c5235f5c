import Stepwise.Session
import Stepwise.Iteration.Integer
import Stepwise.Iteration.Sequence

namespace Stepwise

def stringSuccMethod : Method := .blockless fun receiver args => do
  Attempt.arity "succ" args 0
  match receiver with
  | .str s => return .str (Text.succ s)
  | v => throw (v.mismatch .string)

def integerMethods : List (Class × String × Method) := [
  (.integer, "times", Integer.timesMethod),
  (.integer, "upto", Integer.uptoMethod),
  (.integer, "succ", Integer.succMethod)]

def rangeMethods : List (Class × String × Method) := [
  (.range, "each", Range.eachMethod),
  (.range, "first", Range.partMethod "first" (·.first)),
  (.range, "last", Range.partMethod "last" (·.last)),
  (.range, "exclude_end?", Range.partMethod "exclude_end?" (.bool ·.excludeEnd))]

def stringMethods : List (Class × String × Method) := [(.string, "succ", stringSuccMethod)]

def enumeratorMethods : List (Class × String × Method) := [
  (.enumerator, "each", Enumerator.eachMethod),
  (.enumerator, "next", Enumerator.pullMethod "next" Attempt.next),
  (.enumerator, "peek", Enumerator.pullMethod "peek" Attempt.peek),
  (.enumerator, "rewind", Enumerator.pullMethod "rewind" fun e => do
    Attempt.rewind e
    return e.toValue)]

def collectionMethods : List (Class × String × Method) :=
  (.array, "each", Items.eachMethod) ::
    [.array, .range, .enumerator].map fun c => (c, "to_a", toArrayMethod)

def builtinMethods : List (Class × String × Method) :=
  integerMethods ++ rangeMethods ++ stringMethods ++ enumeratorMethods ++ collectionMethods

def MethodTable.builtin : MethodTable := MethodTable.defineAll {} builtinMethods

def Session.start : Session := { methods := .builtin }

end Stepwise
