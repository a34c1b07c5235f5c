import Stepwise.Error
import Stepwise.Text.Wrapped

namespace Stepwise

inductive Failure
  | runtime (e : Error)
  | unbounded (range : String)
  | output
deriving DecidableEq, Inhabited

namespace Failure

def message : Failure → String
  | runtime e => e.message
  | unbounded range => "refusing to iterate the endless range " ++ range ++ " without a bound"
  | output => "failed to write output"

def code : Failure → String
  | runtime e => e.code
  | unbounded _ => "E5001"
  | output => "E5002"

def help? : Failure → Option String
  | runtime e => e.help?
  | unbounded _ => some "pass --take K to pull a bounded prefix"
  | output => none

def cause? : Failure → Option String
  | output => some "broken pipe"
  | _ => none

end Failure

structure Theme where
  cross : String
  bar : String
  arrow : String
  alarm : String → String
  hint : String → String

namespace Theme

def plain : Theme := ⟨"x", "|", "`-> ", id, id⟩

def paint (color : String) (text : String) : String := "\x1b[" ++ color ++ "m" ++ text ++ "\x1b[0m"

def colored : Theme := ⟨"×", "│", "╰─▶ ", paint "31", paint "36"⟩

end Theme

namespace Failure

/-- The columns of a message: a diagnostic leaves two of two hundred free, and each line has a mark. -/
def messageColumns : Nat := 194

def messageLines (theme : Theme) (message : String) : List String :=
  (Text.wrap messageColumns message).mapIdx fun i line =>
    "  " ++ theme.alarm (if i = 0 then theme.cross else theme.bar) ++ " " ++ line

def render (theme : Theme) (f : Failure) : String :=
  theme.alarm f.code ++ "\n\n" ++ "\n".intercalate (messageLines theme f.message) ++ "\n"
    ++ (match f.cause? with
      | some cause => theme.alarm ("  " ++ theme.arrow) ++ cause ++ "\n"
      | none => "")
    ++ (match f.help? with
      | some help => theme.hint "  help: " ++ help ++ "\n"
      | none => "")

end Failure

end Stepwise
