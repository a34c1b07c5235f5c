import Stepwise.Text.Unprintable
import Stepwise.Text.Extending
import Stepwise.Text.Ignorable

namespace Stepwise.Quoted

def numeric (c : Char) : List Char :=
  '\\' :: 'u' :: '\x7b' :: (Nat.toDigits 16 c.toNat ++ ['\x7d'])

def escape (mark c : Char) : List Char :=
  if c = '\x00' then ['\\', '0']
  else if c = '\t' then ['\\', 't']
  else if c = '\r' then ['\\', 'r']
  else if c = '\n' then ['\\', 'n']
  else if c = mark || c = '\\' then ['\\', c]
  else if Text.isExtending c || Text.isIgnorable c || Text.isUnprintable c then numeric c
  else [c]

def text (s : String) : String :=
  String.ofList ('"' :: (s.toList.flatMap (escape '"') ++ ['"']))

def char (c : Char) : String :=
  String.ofList ('\'' :: (escape '\'' c ++ ['\'']))

end Stepwise.Quoted
