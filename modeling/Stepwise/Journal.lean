import Stepwise.Notice
import Stepwise.Text.Alphanumeric
import Stepwise.Text.Blank

namespace Stepwise

/-- A directive asks for a target by its first characters, for work within a span, and for a field
by its name or also by its value. -/
structure Directive where
  target : String := ""
  span : Option String := none
  field : Option (String × Option String) := none
  level : Level := .trace
deriving DecidableEq

namespace Directive

def size : List Char → Nat
  | [] => 0
  | c :: cs => c.utf8Size + size cs

def splitAt? : Nat → List Char → Option (List Char × List Char)
  | 0, cs => some ([], cs)
  | _, [] => none
  | n, c :: cs =>
    if n < c.utf8Size then none
    else (splitAt? (n - c.utf8Size) cs).map fun (front, back) => (c :: front, back)

def between? (start stop : Nat) (cs : List Char) : Option String := do
  let (_, back) ← splitAt? start cs
  let (front, _) ← splitAt? (stop - start) back
  return String.ofList front

def levelFrom? (start : Nat) (cs : List Char) : Option Level := do
  let (_, back) ← splitAt? start cs
  if back.isEmpty then some .trace else Level.read? (String.ofList back)

def readField (text : String) : String × Option String :=
  match text.splitOn "=" with
  | name :: value :: _ => (name, some value)
  | _ => (text, none)

def finish? (d : Directive) (text : List Char) (offset : Nat) : List Char → Option Directive
  | [] => some d
  | c :: _ => do
    guard (c = '=')
    return { d with level := ← levelFrom? (offset + 1) text }

def readSpan? (target : String) (text : List Char) (offset : Nat) (cs : List Char) :
    Option Directive := do
  let (name, rest) := cs.span fun c => c ≠ ']' && c ≠ '\x7b'
  let stop := offset + size name
  let span ← between? offset stop text
  match rest with
  | [] => none
  | ']' :: rest => finish? { target, span := some span } text (stop + 1) rest
  | _ :: rest =>
    let (inner, rest) := rest.span (· ≠ '\x7d')
    let fieldStop := stop + 1 + size inner
    let field ← between? (stop + 1) fieldStop text
    guard (field ≠ "")
    match rest with
    | _ :: ']' :: rest =>
      let span := if span = "" then none else some span
      finish? { target, span, field := some (readField field) } text (fieldStop + 2) rest
    | _ => none

def isStart (c : Char) : Bool := c ∈ ['[', '-', ':', '_'] || Text.isAlphanumeric c

/-- Reads a level for every target, a target with all its notices, or a target with a span or a level
or both. The parts are found in the text without the blanks around it, but their offsets are taken in
the text as it stands, so that blanks before a part shift what is read. -/
def read? (text : String) : Option Directive := do
  let trimmed := Text.trim text.toList
  guard (trimmed.head?.any isStart)
  let (word, rest) := trimmed.span fun c => c ≠ '=' && c ≠ '['
  match rest with
  | [] =>
    match Level.read? text with
    | some level => some { level }
    | none => some { target := text }
  | c :: rest =>
    let target ← between? 0 (size word) text.toList
    if c = '=' then
      return { target, level := ← levelFrom? (size word + 1) text.toList }
    else readSpan? target text.toList (size word + 1) rest

/-- Whether a directive is about a notice. No notice is made within a span, and a value is asked for
only of spans. -/
def concerns (d : Directive) (n : Notice) : Bool :=
  d.span = none && d.target.toList.isPrefixOf n.target.toList
    && match d.field with
      | none => true
      | some (name, value?) => value? = none && name ∈ n.fieldNames

/-- Whether a directive decides against another that was read before it: the longer target does, then
the one with a field, then the one whose field comes last in the alphabet. -/
def prevails (d other : Directive) : Bool :=
  if d.target.length = other.target.length then
    match other.field, d.field with
    | none, _ => true
    | some _, none => false
    | some (a, _), some (b, _) => !(b < a)
  else other.target.length < d.target.length

end Directive

abbrev Filter := List Directive

namespace Filter

/-- Directives are separated by commas. One that cannot be read makes the whole filter unusable. -/
def read? (text : String) : Option Filter :=
  ((text.splitOn ",").filter (· ≠ "")).mapM Directive.read?

def decisive? (f : Filter) (n : Notice) : Option Directive :=
  (f.filter (·.concerns n)).foldl
    (fun best d => some (match best with
      | none => d
      | some b => if d.prevails b then d else b))
    none

def admits (f : Filter) (n : Notice) : Bool :=
  (f.decisive? n).any fun d => n.level.rank ≤ d.level.rank

end Filter

/-- The admitted notices, the newest first. -/
structure Journal where
  filter : Filter := []
  notices : List Notice := []

namespace Journal

def record (j : Journal) (n : Notice) : Journal :=
  if j.filter.admits n then { j with notices := n :: j.notices } else j

def text (j : Journal) : String := String.join (j.notices.reverse.map Notice.line)

end Journal

end Stepwise
