import Stepwise.Journal
import Stepwise.Method

/-!
Sessions and how routines run in them. A session holds the method table, how far each enumerator has
been pulled, and the journal. Running is bounded by a number of steps: a routine that needs more has
no result yet.
-/
namespace Stepwise

inductive Cursor
  | suspended (rest : Routine (List Value) (Except Error Value))
  | finished

def Cursor.isFinished : Cursor → Bool
  | suspended _ => false
  | finished => true

def Cursor.form (c : Cursor) : String :=
  "Cursor \x7b finished: " ++ (if c.isFinished then "true" else "false") ++ ", .. \x7d"

/-- How far an enumerator has been pulled: the cursor that runs its call, an element that was looked
at and not taken, and whether the call has ended. -/
structure External where
  cursor : Option Cursor := none
  peeked : Option Value := none
  done : Bool := false

structure Session where
  methods : MethodTable
  created : Nat := 0
  externals : List (Nat × External) := []
  journal : Journal := {}

namespace Session

def external (w : Session) (e : Enumerator) : External := (w.externals.lookup e.id).getD {}

def setExternal (w : Session) (e : Enumerator) (x : External) : Session :=
  { w with externals := (e.id, x) :: w.externals.filter (·.1 ≠ e.id) }

def note (w : Session) (n : Notice) : Session := { w with journal := w.journal.record n }

def define (w : Session) (c : Class) (name : String) (m : Method) : Session :=
  { w.note (.defined c name) with methods := w.methods.define c name m }

def find (w : Session) (receiver : Value) (method : String) : Option Method :=
  w.methods.lookup receiver.classOf method

def enumerate (w : Session) (receiver : Value) (method : String) (args : List Value) :
    Enumerator × Session :=
  (⟨w.created, receiver, method, args⟩, { w with created := w.created + 1 })

def rewind (w : Session) (e : Enumerator) : Session :=
  (w.setExternal e {}).note (.rewound e.toValue)

end Session

inductive Progress (ι α : Type)
  | done (a : α)
  | yielded (x : ι) (rest : Except Error Unit → Routine ι α)

inductive Resumed
  | yielded (args : List Value)
  | finished (result : Except Error Value)

abbrev Runner := Routine (List Value) (Except Error Value) → Session →
  Option (Progress (List Value) (Except Error Value) × Session)

/-- A cursor answers every yield with success. One that has finished has nothing more to give. -/
def Cursor.resume (run : Runner) : Cursor → Session → Option (Resumed × Cursor × Session)
  | finished, w => some (.finished (.error .stopIteration), .finished, w)
  | suspended rest, w =>
    match run rest w with
    | none => none
    | some (.done r, w) => some (.finished r, .finished, w)
    | some (.yielded args k, w) => some (.yielded args, .suspended (k (.ok ())), w)

namespace Enumerator

def call (e : Enumerator) : Routine (List Value) (Except Error Value) :=
  .invoke e.receiver e.method e.args .pure

def cursorIn (e : Enumerator) (w : Session) : Cursor × Session :=
  match (w.external e).cursor with
  | some c => (c, w)
  | none => (.suspended e.call, w.note (.cursorStarted e.toValue))

/-- Resumes the cursor for one more element. The end of the call is reported as its error if it
failed and as the end of the iteration if not, and from then on only as the latter. -/
def advance (run : Runner) (e : Enumerator) (w : Session) : Option (Except Error Value × Session) :=
  let state := w.external e
  if state.done then some (.error .stopIteration, w)
  else
    let (c, w) := e.cursorIn w
    match c.resume run w with
    | none => none
    | some (.yielded args, c, w) =>
      some (.ok (Value.pack args), w.setExternal e { state with cursor := some c })
    | some (.finished r, _, w) =>
      let w := (w.note (.cursorFinished e.toValue)).setExternal e
        { state with done := true, cursor := none }
      match r with
      | .ok _ => some (.error .stopIteration, w)
      | .error err => some (.error err, w)

def next (run : Runner) (e : Enumerator) (w : Session) : Option (Except Error Value × Session) :=
  match (w.external e).peeked with
  | some v => some (.ok v, w.setExternal e { w.external e with peeked := none })
  | none => e.advance run w

def peek (run : Runner) (e : Enumerator) (w : Session) : Option (Except Error Value × Session) :=
  match (w.external e).peeked with
  | some v => some (.ok v, w)
  | none =>
    match e.advance run w with
    | some (.ok v, w) => some (.ok v, w.setExternal e { w.external e with peeked := some v })
    | r => r

end Enumerator

namespace Routine

/-- Runs a routine to its next yield or its end, in at most the given number of steps. -/
def resume : Nat → {ι α : Type} → Routine ι α → Session → Option (Progress ι α × Session)
  | 0, _, _, _, _ => none
  | _ + 1, _, _, pure a, w => some (.done a, w)
  | _ + 1, _, _, yield x k, w => some (.yielded x k, w)
  | n + 1, _, _, drive source s block k, w =>
    match source.resume n w with
    | none => none
    | some (.done b, w) => (k s b).resume n w
    | some (.yielded x rest, w) =>
      ((block s x).bind fun (s, answer) => drive (rest answer) s block k).resume n w
  | n + 1, _, _, loop s body k, w =>
    ((body s).bind fun
      | .inl s => loop s body k
      | .inr b => k b).resume n w
  | n + 1, _, _, invoke receiver method args k, w =>
    match w.find receiver method with
    | none => (k (.error (.noMethod method receiver.className))).resume n w
    | some m =>
      ((m.withBlock receiver args).run.bind k).resume n
        (w.note (.sent receiver.classOf method args.length true))
  | n + 1, _, _, send receiver method args k, w =>
    match w.find receiver method with
    | none => (k (.error (.noMethod method receiver.className))).resume n w
    | some m =>
      ((m.plain receiver args).run.lift.bind k).resume n
        (w.note (.sent receiver.classOf method args.length false))
  | n + 1, _, _, define c name withBlock plain k, w =>
    k.resume n (w.define c name ⟨withBlock, plain⟩)
  | n + 1, _, _, respondsTo receiver method k, w => (k (w.find receiver method).isSome).resume n w
  | n + 1, _, _, enumerate receiver method args k, w =>
    let (e, w) := w.enumerate receiver method args
    (k e).resume n w
  | n + 1, _, _, next e k, w =>
    match e.next (fun r w => r.resume n w) w with
    | none => none
    | some (r, w) => (k r).resume n w
  | n + 1, _, _, peek e k, w =>
    match e.peek (fun r w => r.resume n w) w with
    | none => none
    | some (r, w) => (k r).resume n w
  | n + 1, _, _, rewind e k, w => k.resume n (w.rewind e)
  | n + 1, _, _, note m k, w => k.resume n (w.note m)

def run {α : Type} (n : Nat) (c : Routine Empty α) (w : Session) : Option (α × Session) :=
  match c.resume n w with
  | none => none
  | some (.done a, w) => some (a, w)
  | some (.yielded x _, _) => nomatch x

end Routine

end Stepwise
