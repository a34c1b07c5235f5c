import Stepwise.Text.Alphanumeric
import Stepwise.Text.Columns
import Stepwise.Text.LineBreak

namespace Stepwise.Text

/-- A part of a line that is not broken while it fits, and the number of spaces after it. -/
structure Word where
  text : List Char
  spaces : Nat
deriving DecidableEq, Inhabited

namespace Word

def width (w : Word) : Nat := Text.width w.text

def trimRight (cs : List Char) : List Char := (cs.reverse.dropWhile (· = ' ')).reverse

def ofChars (cs : List Char) : Word := ⟨trimRight cs, cs.length - (trimRight cs).length⟩

def divide (w : Word) (parts : List (List Char)) : List Word :=
  parts.mapIdx fun i part => ⟨part, if i + 1 = parts.length then w.spaces else 0⟩

end Word

def consHead (c : Char) : List (List Char) → List (List Char)
  | [] => [[c]]
  | part :: parts => (c :: part) :: parts

def hyphenParts (before : Option Char) : List Char → List (List Char)
  | [] => [[]]
  | c :: cs =>
    if c = '-' && before.any isAlphanumeric && cs.head?.any isAlphanumeric then
      [c] :: hyphenParts (some c) cs
    else consHead c (hyphenParts (some c) cs)

def cut (limit : Nat) (s : Steering) (used : Nat) : List Char → List (List Char)
  | [] => [[]]
  | c :: cs =>
    if s.shows c && 0 < used && limit < used + columns c then
      [] :: consHead c (cut limit (s.next c) (columns c) cs)
    else consHead c (cut limit (s.next c) (used + s.columns c) cs)

/-- The characters that a display shows, each with the escape sequences before it; those at the end
come last. -/
def units (s : Steering) : List Char → List (List Char)
  | [] => []
  | c :: cs =>
    if s.shows c then [c] :: units (s.next c) cs else consHead c (units (s.next c) cs)

def shown (s : Steering) : List Char → List Char
  | [] => []
  | c :: cs => if s.shows c then c :: shown (s.next c) cs else shown (s.next c) cs

def isHyphen (c : Char) : Bool := c = '-' || c = '\u00ad'

def clearFirst : List Bool → List Bool
  | [] => []
  | b :: bs => if b then false :: bs else b :: clearFirst bs

/-- For each character and for the end of the text, whether a word starts there. Of the places
where a line may break, the last one is left out, which is the end unless a hyphen stands there. -/
def wordStarts (cs : List Char) : List Bool :=
  let breaks := (({} : BreakContext).starts cs ++ [true]).zipWith
    (fun start before => start && !before.any isHyphen) (none :: cs.map some)
  (clearFirst breaks.reverse).reverse

def joinUnits : List (List Char × Bool) → List (List Char)
  | [] => []
  | (unit, _) :: rest =>
    match rest, joinUnits rest with
    | (_, false) :: _, word :: words => (unit ++ word) :: words
    | _, words => unit :: words

def words (cs : List Char) : List Word :=
  (joinUnits ((units .outside cs).zip (wordStarts (shown .outside cs)))).map Word.ofChars

def fittingWords (limit : Nat) (cs : List Char) : List Word :=
  ((words cs).flatMap fun w => w.divide (hyphenParts none w.text)).flatMap fun w =>
    if limit < w.width then w.divide (cut limit .outside 0 w.text) else [w]

def fill (limit used : Nat) (line : List Word) : List Word → List (List Word)
  | [] => [line]
  | w :: ws =>
    if !line.isEmpty && limit < used + w.width then
      line :: fill limit (w.width + w.spaces) [w] ws
    else fill limit (used + w.width + w.spaces) (line ++ [w]) ws

def lineText : List Word → List Char
  | [] => []
  | [w] => w.text
  | w :: ws => w.text ++ List.replicate w.spaces ' ' ++ lineText ws

def wrapLine (limit : Nat) (cs : List Char) : List (List Char) :=
  (fill limit 0 [] (fittingWords limit cs)).map lineText

def wrap (limit : Nat) (text : String) : List String :=
  (text.splitOn "\n").flatMap fun line => (wrapLine limit line.toList).map String.ofList

end Stepwise.Text
