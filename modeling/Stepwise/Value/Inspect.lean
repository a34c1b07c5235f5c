import Stepwise.Value.Basic
import Stepwise.Number.Shortest
import Stepwise.Text.Quoted

namespace Stepwise.Value

def integerText (n : Int64) : String := toString n.toInt

mutual

def inspect : Value → String
  | nil => "nil"
  | bool b => if b then "true" else "false"
  | int n => integerText n
  | float x => x.text
  | str s => Quoted.text s
  | array items => "[" ++ ", ".intercalate (inspectAll items) ++ "]"
  | range first last excludeEnd =>
    inspect first ++ (if excludeEnd then "..." else "..") ++ if last.isNil then "" else inspect last
  | enumerator _ receiver method args =>
    "#<Enumerator: " ++ inspect receiver ++ ":" ++ method
      ++ (if args.isEmpty then "" else "(" ++ ", ".intercalate (inspectAll args) ++ ")") ++ ">"

def inspectAll : List Value → List String
  | [] => []
  | v :: vs => inspect v :: inspectAll vs

end

theorem inspectAll_eq_map (items : List Value) : inspectAll items = items.map inspect := by
  induction items with
  | nil => rfl
  | cons v items ih =>
      rw [List.map_cons, ← ih]
      rfl

theorem inspect_array (items : List Value) :
    (array items).inspect = "[" ++ ", ".intercalate (items.map inspect) ++ "]" := by
  rw [← inspectAll_eq_map]
  rfl

mutual

def form : Value → String
  | nil => "Nil"
  | bool b => "Bool(" ++ (if b then "true" else "false") ++ ")"
  | int n => "Int(" ++ integerText n ++ ")"
  | float x => "Float(" ++ x.formText ++ ")"
  | str s => "Str(" ++ Quoted.text s ++ ")"
  | array items => "Array([" ++ ", ".intercalate (formAll items) ++ "])"
  | range first last excludeEnd =>
    "Range(RangeValue \x7b first: " ++ form first ++ ", last: " ++ form last ++ ", exclude_end: "
      ++ (if excludeEnd then "true" else "false") ++ " \x7d)"
  | enumerator _ receiver method args =>
    "Enumerator(Enumerator \x7b receiver: " ++ form receiver ++ ", method: " ++ Quoted.text method
      ++ ", args: [" ++ ", ".intercalate (formAll args) ++ "], .. \x7d)"

def formAll : List Value → List String
  | [] => []
  | v :: vs => form v :: formAll vs

end

end Stepwise.Value
