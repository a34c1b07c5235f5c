import Stepwise.CommandLine.Call

namespace Stepwise

inductive Color
  | auto | always | never
deriving DecidableEq, Inhabited

def Color.read? (text : String) : Option Color :=
  if text = "auto" then some auto
  else if text = "always" then some always
  else if text = "never" then some never
  else none

inductive Command
  | times (n : String) (mode : Mode)
  | upto (start bound : String) (mode : Mode)
  | each (first : String) (last? : Option String) (exclusive : Bool) (mode : Mode)
  | version
deriving DecidableEq, Inhabited

structure Invocation where
  command : Command
  color : Color
deriving DecidableEq, Inhabited

/-- Why arguments are not a command to run. Asking for help or for the version is among it. -/
inductive UsageError
  | unknownArgument
  | missingRequiredArgument
  | invalidSubcommand
  | missingSubcommand
  | noArguments
  | invalidValue
  | valueValidation
  | argumentConflict
  | tooManyValues
  | displayHelp
  | displayVersion
deriving DecidableEq, Inhabited

namespace UsageError

def exitCode : UsageError → Nat
  | displayHelp | displayVersion => 0
  | _ => 2

def message : UsageError → String
  | unknownArgument => "unexpected argument"
  | missingRequiredArgument => "a required argument was not provided"
  | invalidSubcommand => "unrecognized command"
  | missingSubcommand => "a command is required"
  | noArguments => "a command is required: times, upto, each or version"
  | invalidValue => "invalid or missing value for an option"
  | valueValidation => "the value of --take is not a count"
  | argumentConflict => "arguments cannot be used together"
  | tooManyValues => "a flag takes no value"
  | displayHelp =>
    "usage: rill [--color auto|always|never] times N | upto START END | each FIRST [LAST] [--exclusive]"
      ++ " | version, with --to-a, --lazy or --take K"
  | displayVersion => "rill 0.1.0"

end UsageError

namespace Arguments

inductive Subcommand
  | times | upto | each | version
deriving DecidableEq

namespace Subcommand

def named? (name : String) : Option Subcommand :=
  if name = "times" then some times
  else if name = "upto" then some upto
  else if name = "each" then some each
  else if name = "version" then some version
  else none

def positionals : Subcommand → Nat
  | times => 1
  | upto | each => 2
  | version => 0

def required : Subcommand → Nat
  | times | each => 1
  | upto => 2
  | version => 0

end Subcommand

inductive Level
  | top
  | sub (s : Subcommand)
deriving DecidableEq

inductive Flag
  | toArray | lazy | exclusive
deriving DecidableEq

inductive Valued
  | color | take
deriving DecidableEq

inductive Named
  | flag (f : Flag)
  | valued (v : Valued)
  | help
  | version

namespace Level

def positionals : Level → Nat
  | top => 0
  | sub s => s.positionals

/-- Commands that iterate have modes, and read an argument such as `-5` as a number. -/
def iterates : Level → Bool
  | sub .times | sub .upto | sub .each => true
  | _ => false

def long? (l : Level) (name : String) : Option Named :=
  if name = "color" then some (.valued .color)
  else if name = "help" then some .help
  else if name = "version" && l = top then some .version
  else if name = "to-a" && l.iterates then some (.flag .toArray)
  else if name = "lazy" && l.iterates then some (.flag .lazy)
  else if name = "take" && l.iterates then some (.valued .take)
  else if name = "exclusive" && l = sub .each then some (.flag .exclusive)
  else none

end Level

/-- What has been read of one level. An option that takes its value from the next argument is pending
until a later argument, or the end, settles it. -/
structure Scan where
  color : Option Color := none
  take : Option Nat := none
  flags : List Flag := []
  positionals : List String := []
  pending : Option (Valued × Option String) := none
  trailing : Bool := false

def count? (text : String) : Option Nat :=
  (Decimal.natural? text.toList).filter (· ≤ 0xffffffffffffffff)

namespace Scan

def setValue (s : Scan) : Valued → String → Except UsageError Scan
  | .color, text =>
    if s.color.isSome then .error .argumentConflict
    else match Color.read? text with
      | some c => .ok { s with color := some c }
      | none => .error .invalidValue
  | .take, text =>
    if s.take.isSome then .error .argumentConflict
    else match count? text with
      | some k => .ok { s with take := some k }
      | none => .error .valueValidation

def settle (s : Scan) : Except UsageError Scan :=
  match s.pending with
  | none => .ok s
  | some (v, some text) => ({ s with pending := none }).setValue v text
  | some (_, none) => .error .invalidValue

def setFlag (s : Scan) (f : Flag) : Except UsageError Scan :=
  if f ∈ s.flags then .error .argumentConflict else .ok { s with flags := f :: s.flags }

def awaiting? (s : Scan) : Option Valued :=
  match s.pending with
  | some (v, none) => some v
  | _ => none

def long (l : Level) (s : Scan) (name : String) (value? : Option String) : Except UsageError Scan :=
  match l.long? name, value? with
  | none, _ => .error .unknownArgument
  | some (.valued v), some text => do (← s.settle).setValue v text
  | some (.valued v), none => do return { ← s.settle with pending := some (v, none) }
  | some _, some _ => .error .tooManyValues
  | some (.flag f), none => do (← s.settle).setFlag f
  | some .help, none => do
    let _ ← s.settle
    throw .displayHelp
  | some .version, none => do
    let _ ← s.settle
    throw .displayVersion

/-- The first letter after a single dash decides, because no letter lets another follow. -/
def short (l : Level) (s : Scan) (letter : Char) : Except UsageError Scan := do
  if letter = 'h' then
    let _ ← s.settle
    throw .displayHelp
  else if letter = 'V' && l = .top then
    let _ ← s.settle
    throw .displayVersion
  else throw .unknownArgument

def positional (l : Level) (s : Scan) (text : String) : Except UsageError Scan :=
  match s.awaiting?, s.trailing with
  | some v, false => .ok { s with pending := some (v, some text) }
  | _, _ =>
    if s.positionals.length < l.positionals then do
      let s ← s.settle
      return { s with positionals := s.positionals ++ [text] }
    else if l = .top then
      if s.trailing && ((Subcommand.named? text).isSome || text = "help") then .error .unknownArgument
      else .error .invalidSubcommand
    else .error .unknownArgument

end Scan

def isMantissa (cs : List Char) : Bool :=
  match cs.span Decimal.isDigit with
  | ([], _) => false
  | (_, []) => true
  | (_, '.' :: ds) => ds.all Decimal.isDigit
  | _ => false

/-- Digits with at most one point, not in front, and at most one exponent, which has no sign. -/
def isNumeric (cs : List Char) : Bool :=
  match cs.span (fun c => c ≠ 'e' && c ≠ 'E') with
  | (m, []) => isMantissa m
  | (m, _ :: ds) => isMantissa m && !ds.isEmpty && ds.all Decimal.isDigit

def splitLong (cs : List Char) : String × Option String :=
  match cs.span (· ≠ '=') with
  | (name, []) => (String.ofList name, none)
  | (name, _ :: value) => (String.ofList name, some (String.ofList value))

def Scan.token (l : Level) (s : Scan) (text : String) : Except UsageError Scan :=
  if s.trailing then s.positional l text
  else match text.toList with
    | ['-', '-'] => .ok { s with trailing := true }
    | '-' :: '-' :: cs => s.long l (splitLong cs).1 (splitLong cs).2
    | '-' :: c :: cs =>
      if l.iterates && isNumeric (c :: cs) then s.positional l text else s.short l c
    | _ => s.positional l text

def Scan.mode (s : Scan) : Mode :=
  if .toArray ∈ s.flags then .toArray
  else if .lazy ∈ s.flags || s.take.isSome then .lazy s.take
  else .eager

def Scan.command (c : Subcommand) (s : Scan) : Except UsageError Command :=
  if .toArray ∈ s.flags && (.lazy ∈ s.flags || s.take.isSome) then .error .argumentConflict
  else if s.positionals.length < c.required then .error .missingRequiredArgument
  else
    let arg := fun i => s.positionals.getD i ""
    .ok (match c with
      | .times => .times (arg 0) s.mode
      | .upto => .upto (arg 0) (arg 1) s.mode
      | .each => .each (arg 0) s.positionals[1]? (.exclusive ∈ s.flags) s.mode
      | .version => .version)

def parseSub (c : Subcommand) (args : List String) : Except UsageError (Command × Option Color) := do
  let s ← args.foldlM (Scan.token (.sub c)) {}
  let s ← s.settle
  return (← s.command c, s.color)

def help : List String → UsageError
  | [] => .displayHelp
  | [name] => if (Subcommand.named? name).isSome || name = "help" then .displayHelp
    else .invalidSubcommand
  | _ => .invalidSubcommand

/-- The arguments before the name of a command. A color after it takes precedence. -/
def parseTop : Scan → List String → Except UsageError Invocation
  | s, [] => do
    let s ← s.settle
    throw (if s.color.isSome then .missingSubcommand else .noArguments)
  | s, text :: rest =>
    let ready := !s.trailing && s.awaiting?.isNone
    match Subcommand.named? text with
    | some c =>
      if ready then do
        let (command, color) ← parseSub c rest
        let s ← s.settle
        return ⟨command, (color.or s.color).getD .auto⟩
      else do parseTop (← s.token .top text) rest
    | none =>
      if ready && text = "help" then throw (help rest)
      else do parseTop (← s.token .top text) rest

def parse (args : List String) : Except UsageError Invocation := parseTop {} args

end Arguments

end Stepwise
