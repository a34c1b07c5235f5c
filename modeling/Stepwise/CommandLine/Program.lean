import Stepwise.CommandLine.Arguments
import Stepwise.CommandLine.Sink

namespace Stepwise

def versionLine : String := "rill 0.1.0 (release)"

def Call.print (call : Except Failure Call) (mode : Mode) : Printing Unit :=
  match call with
  | .ok c => c.run mode
  | .error f => throw f

def Command.print : Command → Printing Unit
  | .times n mode => Call.print (.ok (.times n)) mode
  | .upto start bound mode => Call.print (.ok (.upto start bound)) mode
  | .each first last? exclusive mode => Call.print (Call.each first last? exclusive) mode
  | .version => Printing.line versionLine

namespace Program

/-- The session of a program run. A log filter that cannot be read is no filter. -/
def session (log? : Option String) : Session :=
  match log?.bind Filter.read? with
  | some f => { Session.start with journal := ({ filter := f } : Journal).record .initialized }
  | none => .start

def theme (color : Color) (terminal : Bool) : Theme :=
  match color with
  | .always => .colored
  | .never => .plain
  | .auto => if terminal then .colored else .plain

def exitCode : Except Failure Unit → Nat
  | .ok _ => 0
  | .error _ => 1

def report (theme : Theme) : Except Failure Unit → String
  | .ok _ => ""
  | .error f => f.render theme

structure Output where
  exitCode : Nat
  out : ByteArray
  err : String

/-- Runs an invocation with output that never fails and is no terminal, in at most `n` steps. -/
def run (n : Nat) (i : Invocation) (log? : Option String) : Option Output :=
  match (Sink.receive {} i.command.print).run n (session log?) with
  | none => none
  | some ((sink, result), w) =>
    some ⟨exitCode result, sink.written, w.journal.text ++ report (theme i.color false) result⟩

end Program

end Stepwise
