import Stepwise.Value.Inspect
import Stepwise.Number.Decimal

namespace Stepwise

inductive Notice
  | initialized
  | running (receiver : Value) (method mode : String)
  | pulled (count : Nat)
  | defined (c : Class) (name : String)
  | sent (c : Class) (name : String) (argc : Nat) (block : Bool)
  | deferred (receiver : Value) (method : String)
  | times (i : Int64)
  | upto (i : Int64)
  | endlessRange (first : String)
  | emptyRange (first last : String)
  | rangeElement (v : Value)
  | collected (length : Nat)
  | replayed (enumerator : Value)
  | rewound (enumerator : Value)
  | cursorStarted (enumerator : Value)
  | cursorFinished (enumerator : Value)

/-- How much is shown: a notice is shown at its own level and above. -/
inductive Level
  | off | error | warn | info | debug | trace
deriving DecidableEq, Inhabited

def Level.rank : Level → Nat
  | off => 0
  | error => 1
  | warn => 2
  | info => 3
  | debug => 4
  | trace => 5

def Level.name : Level → String
  | off => "OFF"
  | error => "ERROR"
  | warn => "WARN"
  | info => "INFO"
  | debug => "DEBUG"
  | trace => "TRACE"

def Level.all : List Level := [off, error, warn, info, debug, trace]

def Level.read? (text : String) : Option Level :=
  all.find? fun l => text.toUpper = l.name || Decimal.natural? text.toList = some l.rank

namespace Notice

def level : Notice → Level
  | sent _ _ _ _ | times _ | upto _ | rangeElement _ | collected _ | replayed _ => .trace
  | _ => .debug

def target : Notice → String
  | initialized => "rill"
  | running _ _ _ | pulled _ => "rill::commands::iterate"
  | defined _ _ | sent _ _ _ _ => "rill_runtime::method_table"
  | deferred _ _ => "rill_runtime::block"
  | times _ | upto _ => "rill_runtime::integer"
  | endlessRange _ | emptyRange _ _ | rangeElement _ => "rill_runtime::range"
  | collected _ => "rill_runtime::enumerable"
  | replayed _ | rewound _ | cursorStarted _ | cursorFinished _ => "rill_runtime::enumerator"

def message : Notice → String
  | initialized => "tracing initialized"
  | running _ _ _ => "run"
  | pulled _ => "lazy iteration finished"
  | defined _ _ => "define_method"
  | sent _ _ _ _ => "send"
  | deferred _ _ => "no block given, deferring to enumerator"
  | times _ => "times"
  | upto _ => "upto"
  | endlessRange _ => "stepping endless range"
  | emptyRange _ _ => "empty range"
  | rangeElement _ => "range each"
  | collected _ => "to_a"
  | replayed _ => "replay"
  | rewound _ => "rewind"
  | cursorStarted _ => "starting external cursor"
  | cursorFinished _ => "external cursor finished"

def fields : Notice → List (String × String)
  | initialized => []
  | running receiver method mode =>
    [("receiver", receiver.inspect), ("method", Quoted.text method), ("mode", mode)]
  | pulled count => [("pulled", toString count)]
  | defined c name => [("class", c.name), ("name", Quoted.text name)]
  | sent c name argc block =>
    [("class", c.name), ("name", Quoted.text name), ("argc", toString argc),
      ("block", if block then "true" else "false")]
  | deferred receiver method => [("receiver", receiver.inspect), ("method", Quoted.text method)]
  | times i | upto i => [("i", Value.integerText i)]
  | endlessRange first => [("first", first)]
  | emptyRange first last => [("first", first), ("last", last)]
  | rangeElement v => [("value", v.inspect)]
  | collected length => [("len", toString length)]
  | replayed e | rewound e | cursorStarted e | cursorFinished e => [("enumerator", e.inspect)]

def text (n : Notice) : String :=
  n.message ++ String.join (n.fields.map fun (name, value) => " " ++ name ++ "=" ++ value)

/-- The names by which a filter can ask for a notice. The message counts as a field. -/
def fieldNames (n : Notice) : List String := "message" :: n.fields.map (·.1)

def line (n : Notice) : String := " " ++ n.level.name ++ " " ++ n.target ++ ": " ++ n.text ++ "\n"

end Notice

end Stepwise
