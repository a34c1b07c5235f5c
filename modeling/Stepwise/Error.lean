namespace Stepwise

inductive Error
  | cannotIterate (className : String)
  | comparisonFailed (left right : String)
  | badRange
  | argumentCount (method : String) (expected found : Nat)
  | noMethod (method className : String)
  | typeMismatch (expected found : String)
  | stopIteration
  | overflow (value : String)
  | raised (message : String)
deriving DecidableEq, Inhabited

namespace Error

def message : Error → String
  | cannotIterate c => "can't iterate from " ++ c
  | comparisonFailed l r => "comparison of " ++ l ++ " with " ++ r ++ " failed"
  | badRange => "bad value for range"
  | argumentCount _ expected found =>
    "wrong number of arguments (given " ++ toString found ++ ", expected " ++ toString expected ++ ")"
  | noMethod m c => "undefined method '" ++ m ++ "' for " ++ c
  | typeMismatch expected found =>
    "no implicit conversion of " ++ found ++ " into " ++ expected
  | stopIteration => "iteration reached an end"
  | overflow v => "overflow computing successor of " ++ v
  | raised m => m

def code : Error → String
  | cannotIterate _ => "E4001"
  | comparisonFailed _ _ => "E4002"
  | badRange => "E4003"
  | argumentCount _ _ _ => "E4004"
  | noMethod _ _ => "E4005"
  | typeMismatch _ _ => "E4006"
  | stopIteration => "E4007"
  | overflow _ => "E4008"
  | raised _ => "E4009"

def help? : Error → Option String
  | cannotIterate _ => some "the first value of a range must respond to 'succ'"
  | badRange => some "both ends of a range must be comparable with each other"
  | stopIteration => some "call 'rewind' to restart the enumerator"
  | _ => none

end Error

end Stepwise
