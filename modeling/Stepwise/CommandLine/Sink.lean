import Stepwise.CommandLine.Call

namespace Stepwise

structure Sink where
  room : Option Nat := none
  written : ByteArray := .empty

namespace Sink

/-- Takes as many bytes as there is room for, and refuses if that is not all of them. -/
def write (s : Sink) (text : String) : Sink × Except Error Unit :=
  let bytes := text.toUTF8
  match s.room with
  | none => ({ s with written := s.written ++ bytes }, .ok ())
  | some room =>
    if bytes.size ≤ room then (⟨some (room - bytes.size), s.written ++ bytes⟩, .ok ())
    else (⟨some 0, s.written ++ bytes.extract 0 room⟩, .error (.raised "broken pipe"))

def receive {ι : Type} (s : Sink) (p : Printing Unit) : Routine ι (Sink × Except Failure Unit) :=
  .drive p.run s (fun s text => .pure (s.write text)) fun s r => .pure (s, r)

end Sink

end Stepwise
