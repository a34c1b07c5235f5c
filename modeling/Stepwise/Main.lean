import Stepwise.CommandLine.Program

namespace Stepwise

/-- Enough steps for any run that ends in a lifetime. -/
def patience : Nat := 1000000000000000000

def forgetNotices (w : Session) : Session :=
  { w with journal := { w.journal with notices := [] } }

partial def printAll (p : Routine String (Except Failure Unit)) (w : Session) :
    IO (Except Failure Unit) := do
  let err ← IO.getStderr
  match p.resume patience w with
  | none => return .error .output
  | some (.done r, w) =>
    err.putStr w.journal.text
    return r
  | some (.yielded text rest, w) =>
    err.putStr w.journal.text
    let out ← IO.getStdout
    let answer ← try
        out.putStr text
        out.flush
        pure (.ok ())
      catch _ => pure (.error (.raised "broken pipe"))
    printAll (rest answer) (forgetNotices w)

end Stepwise

open Stepwise in
def main (args : List String) : IO UInt32 := do
  match Arguments.parse args with
  | .error e =>
    if e.exitCode = 0 then IO.println e.message else IO.eprintln ("error: " ++ e.message)
    return UInt32.ofNat e.exitCode
  | .ok i =>
    let log? ← IO.getEnv "RILL_LOG"
    let r ← printAll i.command.print.run (Program.session log?)
    let err ← IO.getStderr
    err.putStr (Program.report (Program.theme i.color (← err.isTty)) r)
    return UInt32.ofNat (Program.exitCode r)
