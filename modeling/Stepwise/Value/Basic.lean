import Stepwise.Error
import Stepwise.Number.Binary64

namespace Stepwise

inductive Class
  | nil | true | false | integer | float | string | array | range | enumerator
deriving DecidableEq, Inhabited

def Class.name : Class → String
  | nil => "NilClass"
  | true => "TrueClass"
  | false => "FalseClass"
  | integer => "Integer"
  | float => "Float"
  | string => "String"
  | array => "Array"
  | range => "Range"
  | enumerator => "Enumerator"

/-- A range whose last value is nil has no end. An enumerator is a bound call with an identity, under
which a session keeps how far it has been pulled. -/
inductive Value
  | nil
  | bool (b : Bool)
  | int (n : Int64)
  | float (x : Binary64)
  | str (s : String)
  | array (items : List Value)
  | range (first last : Value) (excludeEnd : Bool)
  | enumerator (id : Nat) (receiver : Value) (method : String) (args : List Value)
deriving Inhabited

namespace Value

def classOf : Value → Class
  | nil => .nil
  | bool b => if b then .true else .false
  | int _ => .integer
  | float _ => .float
  | str _ => .string
  | array _ => .array
  | range _ _ _ => .range
  | enumerator _ _ _ _ => .enumerator

def className (v : Value) : String := v.classOf.name

def isNil : Value → Bool
  | nil => true
  | _ => false

def mismatch (v : Value) (expected : Class) : Error := .typeMismatch expected.name v.className

def asInt : Value → Except Error Int64
  | int n => .ok n
  | v => .error (v.mismatch .integer)

def pack : List Value → Value
  | [] => nil
  | [v] => v
  | vs => array vs

end Value

structure Range where
  first : Value
  last : Value
  excludeEnd : Bool

structure Enumerator where
  id : Nat
  receiver : Value
  method : String
  args : List Value

def Range.toValue (r : Range) : Value := .range r.first r.last r.excludeEnd

def Enumerator.toValue (e : Enumerator) : Value := .enumerator e.id e.receiver e.method e.args

def Value.asArray : Value → Except Error (List Value)
  | array items => .ok items
  | v => .error (v.mismatch .array)

def Value.asRange : Value → Except Error Range
  | range first last excludeEnd => .ok ⟨first, last, excludeEnd⟩
  | v => .error (v.mismatch .range)

def Value.asEnumerator : Value → Except Error Enumerator
  | enumerator id receiver method args => .ok ⟨id, receiver, method, args⟩
  | v => .error (v.mismatch .enumerator)

end Stepwise
