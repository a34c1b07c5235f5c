namespace Stepwise.Text

def lastCode : Nat := 0x10ffff

def charOfCode? (code : Nat) : Option Char :=
  if code.isValidChar then some (Char.ofNat code) else none

def tryCodes (code : Nat) : (left : Nat) → Char
  | 0 => (charOfCode? code).getD '\x00'
  | left + 1 =>
    match charOfCode? code with
    | some c => c
    | none => tryCodes (code + 1) left

def nextChar (c : Char) : Char := tryCodes (c.toNat + 1) (lastCode - (c.toNat + 1))

def isAlnum (c : Char) : Bool :=
  ('0' ≤ c && c ≤ '9') || ('a' ≤ c && c ≤ 'z') || ('A' ≤ c && c ≤ 'Z')

/-- The next letter or digit of the same kind. One that wraps also gives the character to put in
front of it if nothing is left to carry into. -/
def bump (c : Char) : Char × Option Char :=
  if c = '9' then ('0', some '1')
  else if c = 'z' then ('a', some 'a')
  else if c = 'Z' then ('A', some 'A')
  else (nextChar c, none)

/-- Counts the letters and digits up by one. The second part is a carry out of the first of them,
and there is no result where there are none. -/
def roll : List Char → Option (List Char × Option Char)
  | [] => none
  | c :: cs =>
    match roll cs with
    | some (cs', none) => some (c :: cs', none)
    | some (cs', some carry) =>
      if isAlnum c then some ((bump c).1 :: cs', (bump c).2) else some (c :: cs', some carry)
    | none => if isAlnum c then some ((bump c).1 :: cs, (bump c).2) else none

def insertBeforeAlnum (x : Char) : List Char → List Char
  | [] => [x]
  | c :: cs => if isAlnum c then x :: c :: cs else c :: insertBeforeAlnum x cs

def bumpLast : List Char → List Char
  | [] => []
  | [c] => [nextChar c]
  | c :: d :: cs => c :: bumpLast (d :: cs)

def succChars (cs : List Char) : List Char :=
  match roll cs with
  | some (cs', none) => cs'
  | some (cs', some carry) => insertBeforeAlnum carry cs'
  | none => bumpLast cs

def succ (s : String) : String := String.ofList (succChars s.toList)

end Stepwise.Text
