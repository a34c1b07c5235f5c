import Stepwise.Builtins
import Stepwise.Proofs.Driving

namespace Stepwise

open Routine

/-- The ways to start an iteration: four methods that are found by dispatch, and three iterations that
are started without it. -/
inductive EntryPoint
  | integerTimes (receiver : Value) (args : List Value)
  | integerUpto (receiver : Value) (args : List Value)
  | arrayEach (receiver : Value) (args : List Value)
  | rangeEach (receiver : Value) (args : List Value)
  | times (n : Int64)
  | upto (start bound : Int64)
  | range (r : Range)

namespace EntryPoint

def direct? : EntryPoint → Option Iteration
  | times n => some (Integer.times n)
  | upto start bound => some (Integer.upto start bound)
  | range r => some r.each
  | _ => none

def receiver : EntryPoint → Value
  | integerTimes v _ | integerUpto v _ | arrayEach v _ | rangeEach v _ => v
  | times n => .int n
  | upto start _ => .int start
  | range r => r.toValue

def method : EntryPoint → String
  | integerTimes _ _ | times _ => "times"
  | integerUpto _ _ | upto _ _ => "upto"
  | arrayEach _ _ | rangeEach _ _ | range _ => "each"

def args : EntryPoint → List Value
  | integerTimes _ as | integerUpto _ as | arrayEach _ as | rangeEach _ as => as
  | upto _ bound => [.int bound]
  | times _ | range _ => []

def builtin : EntryPoint → Method
  | integerTimes _ _ | times _ => Integer.timesMethod
  | integerUpto _ _ | upto _ _ => Integer.uptoMethod
  | arrayEach _ _ => Items.eachMethod
  | rangeEach _ _ | range _ => Range.eachMethod

/-- The session has not redefined the method of this call. Its other methods may be any. -/
def IntactIn (p : EntryPoint) (w : Session) : Prop := w.find p.receiver p.method = some p.builtin

def withBlock (p : EntryPoint) : Producer :=
  match p.direct? with
  | some it => it.body
  | none => Attempt.invoke p.receiver p.method p.args

def plain (p : EntryPoint) : Attempt Empty Value :=
  match p.direct? with
  | some it => do return (← it.defer).toValue
  | none => Attempt.send p.receiver p.method p.args

end EntryPoint

theorem Enumerator.toValue_injective {e e' : Enumerator} (h : e.toValue = e'.toValue) : e = e' := by
  cases e
  cases e'
  simpa [toValue] using h

theorem Routine.alikeFrom_invoke {w : Session} {receiver : Value} {method : String} {m : Method}
    (hf : w.find receiver method = some m) (args : List Value) :
    AlikeFrom w (invoke receiver method args .pure) (m.withBlock receiver args).run := by
  have h := alikeFrom_note w (.sent receiver.classOf method args.length true)
    (m.withBlock receiver args).run
  intro p v
  rw [← h p v]
  simp only [reaches_invoke_some hf, reaches_note, bind_pure]

theorem Routine.alikeFrom_send {w : Session} {receiver : Value} {method : String} {m : Method}
    (hf : w.find receiver method = some m) (args : List Value) :
    AlikeFrom w (send receiver method args .pure) (m.plain receiver args).run := by
  have h := alikeFrom_note w (.sent receiver.classOf method args.length false)
    (m.plain receiver args).run
  intro q v
  rw [← h q v]
  simp only [reaches_send_some hf, reaches_note, bind_pure, reaches_lift]
  cases q with
  | yielded x => exact nomatch x
  | done a => simp

/-- Both ways to drive an enumerator: by itself, and by dispatch where `each` is not redefined. -/
inductive Enumerator.Drives (e : Enumerator) (u : Session) : Producer → Prop
  | replay : Drives e u e.replay
  | each (h : u.find e.toValue "each" = some Enumerator.eachMethod) :
      Drives e u (Attempt.invoke e.toValue "each" [])

theorem Enumerator.Drives.alike {e : Enumerator} {u : Session} {source : Producer}
    (h : Drives e u source) :
    AlikeFrom u source.run (invoke e.receiver e.method e.args .pure) := by
  have hr := alikeFrom_note u (.replayed e.toValue) (invoke e.receiver e.method e.args .pure)
  cases h with
  | replay => exact hr
  | each h => exact (alikeFrom_invoke h []).trans hr

namespace EntryPoint

theorem plain_run_builtin (p : EntryPoint) :
    (∃ n, (p.builtin.plain p.receiver p.args).run = .note n
      (.enumerate p.receiver p.method p.args fun e => .pure (.ok e.toValue))) ∨
    ∃ err, (p.builtin.plain p.receiver p.args).run = .pure (.error err) := by
  cases p with
  | times | upto | range => exact .inl ⟨_, rfl⟩
  | integerTimes v as | integerUpto v as =>
      cases v with
      | int n => exact .inl ⟨_, rfl⟩
      | _ => exact .inr ⟨_, rfl⟩
  | arrayEach v as =>
      cases as with
      | cons => exact .inr ⟨_, rfl⟩
      | nil =>
          cases v with
          | array items => exact .inl ⟨_, rfl⟩
          | _ => exact .inr ⟨_, rfl⟩
  | rangeEach v as =>
      cases as with
      | cons => exact .inr ⟨_, rfl⟩
      | nil =>
          cases v with
          | range first last excludeEnd => exact .inl ⟨_, rfl⟩
          | _ => exact .inr ⟨_, rfl⟩

theorem plain_alike_builtin {p : EntryPoint} {w : Session} (hp : p.IntactIn w) :
    AlikeFrom w p.plain.run (p.builtin.plain p.receiver p.args).run := by
  cases p with
  | times | upto | range => exact fun q v => Iff.rfl
  | integerTimes | integerUpto | arrayEach | rangeEach => exact alikeFrom_send hp _

theorem withBlock_alike_invoke {p : EntryPoint} {w : Session} (hp : p.IntactIn w) :
    AlikeFrom w (invoke p.receiver p.method p.args .pure) p.withBlock.run := by
  cases p with
  | integerTimes | integerUpto | arrayEach | rangeEach => exact fun q v => Iff.rfl
  | times | upto | range => exact alikeFrom_invoke hp _

theorem enumerator_of_plain {p : EntryPoint} {w w₁ : Session} {e : Enumerator} (hp : p.IntactIn w)
    (hd : p.plain.run.Reaches w (.done (.ok e.toValue)) w₁) :
    e = ⟨w.created, p.receiver, p.method, p.args⟩ ∧
      w₁.unlogged = { w.unlogged with created := w.created + 1 } := by
  obtain ⟨v, hv, hu⟩ := (plain_alike_builtin hp).exists hd
  obtain ⟨n, hn⟩ | ⟨err, herr⟩ := plain_run_builtin p
  · rw [hn, reaches_note, reaches_enumerate, reaches_pure] at hv
    obtain ⟨he, rfl⟩ := hv
    exact ⟨Enumerator.toValue_injective (Except.ok.inj (Progress.done.inj he)), hu.symm⟩
  · rw [herr, reaches_pure] at hv
    simp at hv

/-- Where a call without a block gives an enumerator, the enumerator is new and bound to that call, and
the session is else unchanged. From then on, in every session that has the built-in method, driving
the enumerator with a block of any kind is the call with that block: it comes to the same results in
the same sessions, and the block gets the same calls, also in a run that never ends. -/
theorem driving_deferred_call {p : EntryPoint} {w w₁ : Session} {e : Enumerator} (hp : p.IntactIn w)
    (hd : p.plain.run.Reaches w (.done (.ok e.toValue)) w₁) :
    e = ⟨w.created, p.receiver, p.method, p.args⟩ ∧
    w₁.unlogged = { w.unlogged with created := w.created + 1 } ∧ p.IntactIn w₁ ∧
    ∀ u, p.IntactIn u → ∀ source, Enumerator.Drives e u source →
      ∀ (ι σ : Type) (block : σ → List Value → Routine ι (σ × Except Error Unit)) (s : σ),
        AlikeFrom u (source.withBlock s block) (p.withBlock.withBlock s block) ∧
        ∀ calls t v, (∃ d u', Calls block source.run s u calls d t u' ∧ u'.unlogged = v) ↔
          ∃ d u', Calls block p.withBlock.run s u calls d t u' ∧ u'.unlogged = v := by
  obtain ⟨rfl, hw₁⟩ := enumerator_of_plain hp hd
  have hm : w₁.unlogged.methods = w.methods := by rw [hw₁]; rfl
  refine ⟨rfl, hw₁, ?_, ?_⟩
  · rw [IntactIn, Session.find, ← Session.unlogged_methods, hm]
    exact hp
  · intro u hu source hsource ι σ block s
    have h : AlikeFrom u source.run p.withBlock.run := hsource.alike.trans (withBlock_alike_invoke hu)
    refine ⟨h.drive_source s block _, fun calls t v => ⟨?_, ?_⟩⟩
    · rintro ⟨d, u', hc, rfl⟩
      exact h.exists_calls hc
    · rintro ⟨d, u', hc, rfl⟩
      exact h.symm.exists_calls hc

/-- A session in which the successor of an integer is the integer itself, and a block that makes it so
again at every call. -/
theorem driving_deferred_range :
    let stuck : Method := .blockless fun receiver _ => pure receiver
    let w := Session.start.define .integer "succ" stuck
    let p := EntryPoint.rangeEach (.range (.int 1) (.int 3) false) []
    let e : Enumerator := ⟨0, p.receiver, p.method, p.args⟩
    let block (count : Nat) (_ : List Value) : Routine Empty (Nat × Except Error Unit) := do
      let r ← (Attempt.define .integer "succ" stuck).run
      return (count + 1, r)
    ∃ w₁, p.IntactIn w ∧ p.plain.run.Reaches w (.done (.ok e.toValue)) w₁ ∧ p.IntactIn w₁ ∧
      AlikeFrom w₁ (e.replay.withBlock 0 block) (p.withBlock.withBlock 0 block) := by
  intro stuck w p e block
  have hp : p.IntactIn w := rfl
  have hd : p.plain.run.Reaches w (.done (.ok e.toValue)) _ := ⟨10, rfl⟩
  obtain ⟨-, -, hw₁, h⟩ := driving_deferred_call hp hd
  exact ⟨_, hp, hd, hw₁, (h _ hw₁ _ .replay Empty Nat block 0).1⟩

end EntryPoint

end Stepwise
