import Stepwise.Notice

/-!
Routines: computations of a session that yield elements to whoever drives them and end with a
result. A yield waits for the answer of the driver, which is a success or an error. A routine with
no possible yield is driven by nobody.
-/
namespace Stepwise

/-- `drive` runs a source and answers each of its yields with a block, which has a state of its own
and may yield further out. `invoke` calls a method whose yields are those of the caller, `send` calls
a method without a block. -/
inductive Routine : Type → Type → Type 1
  | pure {ι α : Type} (a : α) : Routine ι α
  | yield {ι α : Type} (x : ι) (k : Except Error Unit → Routine ι α) : Routine ι α
  | drive {ι α κ β σ : Type} (source : Routine κ β) (state : σ)
      (block : σ → κ → Routine ι (σ × Except Error Unit)) (k : σ → β → Routine ι α) : Routine ι α
  | loop {ι α β σ : Type} (state : σ) (body : σ → Routine ι (σ ⊕ β)) (k : β → Routine ι α) :
      Routine ι α
  | invoke {α : Type} (receiver : Value) (method : String) (args : List Value)
      (k : Except Error Value → Routine (List Value) α) : Routine (List Value) α
  | send {ι α : Type} (receiver : Value) (method : String) (args : List Value)
      (k : Except Error Value → Routine ι α) : Routine ι α
  | define {ι α : Type} (c : Class) (name : String)
      (withBlock : Value → List Value → Routine (List Value) (Except Error Value))
      (plain : Value → List Value → Routine Empty (Except Error Value)) (k : Routine ι α) :
      Routine ι α
  | respondsTo {ι α : Type} (receiver : Value) (method : String) (k : Bool → Routine ι α) :
      Routine ι α
  | enumerate {ι α : Type} (receiver : Value) (method : String) (args : List Value)
      (k : Enumerator → Routine ι α) : Routine ι α
  | next {ι α : Type} (e : Enumerator) (k : Except Error Value → Routine ι α) : Routine ι α
  | peek {ι α : Type} (e : Enumerator) (k : Except Error Value → Routine ι α) : Routine ι α
  | rewind {ι α : Type} (e : Enumerator) (k : Routine ι α) : Routine ι α
  | note {ι α : Type} (n : Notice) (k : Routine ι α) : Routine ι α

namespace Routine

def bind {β : Type} : {ι α : Type} → Routine ι α → (α → Routine ι β) → Routine ι β
  | _, _, pure a, f => f a
  | _, _, yield x k, f => yield x fun r => (k r).bind f
  | _, _, drive source s block k, f => drive source s block fun s b => (k s b).bind f
  | _, _, loop s body k, f => loop s body fun b => (k b).bind f
  | _, _, invoke receiver method args k, f => invoke receiver method args fun r => (k r).bind f
  | _, _, send receiver method args k, f => send receiver method args fun r => (k r).bind f
  | _, _, define c name withBlock plain k, f => define c name withBlock plain (k.bind f)
  | _, _, respondsTo receiver method k, f => respondsTo receiver method fun b => (k b).bind f
  | _, _, enumerate receiver method args k, f => enumerate receiver method args fun e => (k e).bind f
  | _, _, next e k, f => next e fun r => (k r).bind f
  | _, _, peek e k, f => peek e fun r => (k r).bind f
  | _, _, rewind e k, f => rewind e (k.bind f)
  | _, _, note n k, f => note n (k.bind f)

variable {ι α : Type}

instance : Monad (Routine ι) where
  pure := pure
  bind := bind

instance [Inhabited α] : Inhabited (Routine ι α) := ⟨pure default⟩

def lift (c : Routine Empty α) : Routine ι α :=
  drive c () (fun _ x => nomatch x) fun _ a => pure a

def tryLoop {ε β σ : Type} (state : σ) (step : σ → Routine ι (Except ε (σ ⊕ β))) :
    Routine ι (Except ε β) :=
  loop state
    (fun s => (step s).bind fun
      | .ok (.inl s) => pure (.inl s)
      | .ok (.inr b) => pure (.inr (.ok b))
      | .error e => pure (.inr (.error e)))
    pure

end Routine

abbrev Attempt (ι α : Type) := ExceptT Error (Routine ι) α

/-- A routine that yields argument lists and ends with a value, as the body of a method does. -/
abbrev Producer := Attempt (List Value) Value

namespace Attempt

variable {ι κ α σ : Type}

def ofExcept (r : Except Error α) : Attempt ι α := ExceptT.mk (.pure r)

def ofRoutine (c : Routine ι α) : Attempt ι α := ExceptT.mk (c.bind fun a => .pure (.ok a))

def yield (x : ι) : Attempt ι Unit := ExceptT.mk (.yield x .pure)

def note (n : Notice) : Attempt ι Unit := ExceptT.mk (.note n (.pure (.ok ())))

def lift (c : Attempt Empty α) : Attempt ι α := ExceptT.mk (Routine.lift c.run)

def invoke (receiver : Value) (method : String) (args : List Value) : Producer :=
  ExceptT.mk (.invoke receiver method args .pure)

def send (receiver : Value) (method : String) (args : List Value) : Attempt ι Value :=
  ExceptT.mk (.send receiver method args .pure)

def respondsTo (receiver : Value) (method : String) : Attempt ι Bool :=
  ExceptT.mk (.respondsTo receiver method fun b => .pure (.ok b))

def enumerate (receiver : Value) (method : String) (args : List Value) : Attempt ι Enumerator :=
  ExceptT.mk (.enumerate receiver method args fun e => .pure (.ok e))

def next (e : Enumerator) : Attempt ι Value := ExceptT.mk (.next e .pure)

def peek (e : Enumerator) : Attempt ι Value := ExceptT.mk (.peek e .pure)

def rewind (e : Enumerator) : Attempt ι Unit := ExceptT.mk (.rewind e (.pure (.ok ())))

def arity (method : String) (args : List Value) (expected : Nat) : Attempt ι Unit :=
  ofExcept (if args.length = expected then .ok ()
    else .error (.argumentCount method expected args.length))

def loop {β : Type} (state : σ) (step : σ → Attempt ι (σ ⊕ β)) : Attempt ι β :=
  ExceptT.mk (Routine.tryLoop state fun s => (step s).run)

/-- Runs a source with a block that has a state, and gives the final state with the result. -/
def withBlock (source : Attempt κ α) (state : σ)
    (block : σ → κ → Routine ι (σ × Except Error Unit)) : Routine ι (σ × Except Error α) :=
  .drive source.run state block fun s r => .pure (s, r)

def forEach (source : Attempt κ α) (block : κ → Attempt ι Unit) : Attempt ι α :=
  ExceptT.mk (.drive source.run () (fun _ x => (block x).run.bind fun r => .pure ((), r))
    fun _ r => .pure r)

end Attempt

end Stepwise
