import Stepwise.Text.BreakClass

namespace Stepwise.Text

namespace BreakClass

def isHard (k : BreakClass) : Bool := k ∈ [lineBreak, carriageReturn, lineFeed, nextLine]

def combines (k : BreakClass) : Bool := k = combining || k = joiner

/-- A mark with nothing to combine with counts as a letter. -/
def alone (k : BreakClass) : BreakClass := if k.combines then alphabetic else k

def letters : List BreakClass := [alphabetic, hebrew]

def pictures : List BreakClass := [ideograph, emojiBase, emojiModifier]

def syllables : List BreakClass :=
  [leadingJamo, vowelJamo, trailingJamo, openSyllable, closedSyllable]

/-- Words, numbers and Korean syllables: what stands in a first list stays with what stands in the
second. -/
def boundPairs : List (List BreakClass × List BreakClass) := [
  (letters, letters), (letters, [numeral]), ([numeral], letters), ([separator], letters),
  ([solidus], [hebrew]),
  ([beforeNumeral], pictures), (pictures, [afterNumeral]),
  ([beforeNumeral, afterNumeral], letters), (letters, [beforeNumeral, afterNumeral]),
  ([closing, closingParenthesis, numeral], [beforeNumeral, afterNumeral]),
  ([beforeNumeral, afterNumeral], [opening, numeral]),
  ([hyphen, separator, solidus, numeral], [numeral]),
  ([leadingJamo], [leadingJamo, vowelJamo, openSyllable, closedSyllable]),
  ([vowelJamo, openSyllable], [vowelJamo, trailingJamo]),
  ([trailingJamo, closedSyllable], [trailingJamo]),
  (syllables, [afterNumeral]), ([beforeNumeral], syllables),
  (numeral :: letters, [opening]), ([closingParenthesis], numeral :: letters),
  ([emojiBase], [emojiModifier])]

def bound (a b : BreakClass) : Bool :=
  if a ∈ [wordJoiner, glue] then true
  else if b = glue then a ∉ [breakAfter, hyphen]
  else if a = quotation || b = quotation then true
  else if a = contingent || b = contingent then false
  else a = breakBefore || b ∈ [breakAfter, hyphen, nonstarter, leader]
    || boundPairs.any fun (as, bs) => a ∈ as && b ∈ bs

def boundAcross (a b : BreakClass) : Bool :=
  a = opening || (a ∈ [closing, closingParenthesis] && b = nonstarter) || (a = dash && b = dash)

def follows (k : BreakClass) : Bool :=
  k ∈ [wordJoiner, closing, closingParenthesis, exclamation, separator, solidus]

end BreakClass

/-- What comes before a place in a text: the last character other than spaces and combining marks,
whether spaces or a joiner come after it, whether it ends an odd row of regional indicators, and
whether it is a hyphen after a Hebrew letter. -/
structure BreakContext where
  last : Option BreakClass := none
  spaced : Bool := false
  joined : Bool := false
  odd : Bool := false
  hebrewHyphen : Bool := false
deriving DecidableEq, Inhabited

namespace BreakContext

open BreakClass

def carries (x : BreakContext) : Bool :=
  !x.spaced && x.last.any fun k => !k.isHard && k ≠ zeroWidthSpace

def opens (x : BreakContext) (next : BreakClass) : Bool :=
  if x.last = none && !x.spaced then false
  else if !x.spaced && x.last.any isHard then !(x.last = some carriageReturn && next = lineFeed)
  else if next.isHard || next = space || next = zeroWidthSpace then false
  else if x.last = some zeroWidthSpace then true
  else if x.joined || (next.combines && x.carries) then false
  else if next.alone.follows || x.last.any (·.boundAcross next.alone) then false
  else if x.spaced then true
  else if x.hebrewHyphen then next = contingent
  else if x.last = some regional && next = regional then !x.odd
  else !x.last.any (·.bound next.alone)

def after (x : BreakContext) (next : BreakClass) : BreakContext :=
  if next = space then { x with spaced := true, joined := false }
  else if next.combines && x.carries then { x with joined := next = joiner }
  else {
    last := some next.alone
    joined := next = joiner
    odd := next = regional && !(!x.spaced && x.last = some regional && x.odd)
    hebrewHyphen := next ∈ [hyphen, breakAfter] && !x.spaced && x.last = some hebrew }

def starts (x : BreakContext) : List Char → List Bool
  | [] => []
  | c :: cs => x.opens (.ofChar c) :: (x.after (.ofChar c)).starts cs

end BreakContext

end Stepwise.Text
