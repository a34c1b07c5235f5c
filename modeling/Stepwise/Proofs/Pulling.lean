import Stepwise.Proofs.Deferral

namespace Stepwise

open Routine

namespace Session

@[simp]
theorem external_note (w : Session) (e : Enumerator) (n : Notice) :
    (w.note n).external e = w.external e := rfl

@[simp]
theorem external_setExternal (w : Session) (e : Enumerator) (x : External) :
    (w.setExternal e x).external e = x := by
  simp [external, setExternal]

@[simp]
theorem setExternal_setExternal (w : Session) (e : Enumerator) (x y : External) :
    (w.setExternal e x).setExternal e y = w.setExternal e y := by
  simp [setExternal]

@[simp]
theorem methods_setExternal (w : Session) (e : Enumerator) (x : External) :
    (w.setExternal e x).methods = w.methods := rfl

@[simp]
theorem external_rewind (w : Session) (e : Enumerator) : (w.rewind e).external e = {} :=
  external_setExternal w e {}

theorem external_of_unlogged {w v : Session} (h : v.unlogged = w.unlogged) (e : Enumerator) :
    v.external e = w.external e := by
  rw [← unlogged_external v, h, unlogged_external]

theorem methods_of_unlogged {w v : Session} (h : v.unlogged = w.unlogged) : v.methods = w.methods := by
  rw [← unlogged_methods v, h, unlogged_methods]

/-- Two sessions that differ in what one enumerator remembers and in their journals at most. -/
def SameBut (e : Enumerator) (w v : Session) : Prop :=
  (w.rewind e).unlogged = (v.rewind e).unlogged

theorem sameBut_setExternal {e : Enumerator} {w v : Session} (h : v.unlogged = w.unlogged)
    (x : External) : SameBut e (v.setExternal e x) w := by
  have hx : ((v.setExternal e x).rewind e).unlogged = v.unlogged.setExternal e {} := by
    rw [rewind, note_unlogged, setExternal_setExternal, setExternal_unlogged]
  rw [SameBut, hx, h]
  rfl

theorem SameBut.methods {e : Enumerator} {w v : Session} (h : SameBut e w v) :
    w.methods = v.methods :=
  methods_of_unlogged (w := v.rewind e) (v := w.rewind e) h

theorem SameBut.trans {e : Enumerator} {w v u : Session} (h : SameBut e w v)
    (h' : SameBut e v u) : SameBut e w u :=
  Eq.trans h h'

end Session

namespace Enumerator

variable {e : Enumerator} {w w' v : Session} {a : Except Error Value}

def AdvanceGives (e : Enumerator) (w : Session) (a : Except Error Value) (w' : Session) : Prop :=
  ∃ n, e.advance (fun c w => c.resume n w) w = some (a, w')

def settleProgress (e : Enumerator) (state : External) (p : Progress (List Value) (Except Error Value))
    (w : Session) : Except Error Value × Session :=
  match p with
  | .yielded args k => e.settle state (.yielded args, .suspended (k (.ok ())), w)
  | .done r => e.settle state (.finished r, .finished, w)

theorem advanceGives_of_done (hd : (w.external e).done = true) :
    e.AdvanceGives w a w' ↔ a = .error .stopIteration ∧ w' = w := by
  simp only [AdvanceGives, advance_eq, hd, if_true, exists_const, Option.some.injEq, Prod.mk.injEq]
  constructor
  · rintro ⟨rfl, rfl⟩
    exact ⟨rfl, rfl⟩
  · rintro ⟨rfl, rfl⟩
    exact ⟨rfl, rfl⟩

theorem advanceGives_of_suspended {c : Routine (List Value) (Except Error Value)}
    (hd : (w.external e).done = false) (hc : e.cursorIn w = (.suspended c, v)) :
    e.AdvanceGives w a w' ↔ ∃ p u, c.Reaches v p u ∧ e.settleProgress (w.external e) p u = (a, w') := by
  have hrun (n : Nat) : (Cursor.suspended c).resume (fun c w => c.resume n w) v =
      (c.resume n v).map fun q => match q with
        | (.done r, u) => (.finished r, .finished, u)
        | (.yielded args k, u) => (.yielded args, .suspended (k (.ok ())), u) := by
    rw [Cursor.resume]
    rcases c.resume n v with _ | ⟨_ | _, _⟩ <;> rfl
  simp only [AdvanceGives, advance_eq, hd, hc, hrun]
  constructor
  · rintro ⟨n, hn⟩
    cases hq : c.resume n v with
    | none => simp [hq] at hn
    | some q =>
        obtain ⟨p, u⟩ := q
        refine ⟨p, u, ⟨n, hq⟩, ?_⟩
        rw [hq] at hn
        cases p <;> exact Option.some.inj hn
  · rintro ⟨p, u, ⟨n, hn⟩, hp⟩
    refine ⟨n, ?_⟩
    rw [hn]
    cases p <;> exact congrArg some hp

theorem nextGives_of_peeked {x : Value} (hp : (w.external e).peeked = some x) :
    e.NextGives w a w' ↔
      a = .ok x ∧ w' = w.setExternal e { w.external e with peeked := none } := by
  simp only [NextGives, next, hp, exists_const, Option.some.injEq, Prod.mk.injEq, eq_comm]

theorem nextGives_of_none (hp : (w.external e).peeked = none) :
    e.NextGives w a w' ↔ e.AdvanceGives w a w' := by
  simp only [NextGives, next, hp, AdvanceGives]

theorem peekGives_of_peeked {x : Value} (hp : (w.external e).peeked = some x) :
    e.PeekGives w a w' ↔ a = .ok x ∧ w' = w := by
  simp only [PeekGives, peek, hp, exists_const, Option.some.injEq, Prod.mk.injEq, eq_comm]

theorem peekGives_error_of_none {err : Error} (hp : (w.external e).peeked = none) :
    e.PeekGives w (.error err) w' ↔ e.AdvanceGives w (.error err) w' := by
  simp only [PeekGives, peek, hp, AdvanceGives]
  refine exists_congr fun n => ?_
  rcases e.advance (fun c w => c.resume n w) w with _ | ⟨_ | _, _⟩ <;> simp

theorem peekGives_ok_of_none {x : Value} (hp : (w.external e).peeked = none) :
    e.PeekGives w (.ok x) w' ↔ ∃ u, e.AdvanceGives w (.ok x) u ∧
      w' = u.setExternal e { u.external e with peeked := some x } := by
  simp only [PeekGives, peek, hp, AdvanceGives]
  constructor
  · rintro ⟨n, hn⟩
    rcases ha : e.advance (fun c w => c.resume n w) w with _ | ⟨_ | y, u⟩
    · simp [ha] at hn
    · simp [ha] at hn
    · simp only [ha, Option.some.injEq, Prod.mk.injEq, Except.ok.injEq] at hn
      obtain ⟨rfl, rfl⟩ := hn
      exact ⟨u, ⟨n, ha⟩, rfl⟩
  · rintro ⟨u, ⟨n, hn⟩, rfl⟩
    exact ⟨n, by rw [hn]⟩

theorem nextGives_iff_reaches :
    e.NextGives w a w' ↔ (Routine.next e .pure : Routine Empty _).Reaches w (.done a) w' := by
  rw [reaches_next]
  constructor
  · intro h
    exact ⟨a, w', h, reaches_pure.2 ⟨rfl, rfl⟩⟩
  · rintro ⟨b, u, h, hk⟩
    obtain ⟨hb, rfl⟩ := reaches_pure.1 hk
    rwa [Progress.done.inj hb]

theorem peekGives_iff_reaches :
    e.PeekGives w a w' ↔ (Routine.peek e .pure : Routine Empty _).Reaches w (.done a) w' := by
  rw [reaches_peek]
  constructor
  · intro h
    exact ⟨a, w', h, reaches_pure.2 ⟨rfl, rfl⟩⟩
  · rintro ⟨b, u, h, hk⟩
    obtain ⟨hb, rfl⟩ := reaches_pure.1 hk
    rwa [Progress.done.inj hb]

theorem NextGives.unique {b : Except Error Value} (h : e.NextGives w a w') (h' : e.NextGives w b v) :
    a = b ∧ w' = v := by
  simpa using (nextGives_iff_reaches.1 h).unique (nextGives_iff_reaches.1 h')

theorem PeekGives.unique {b : Except Error Value} (h : e.PeekGives w a w') (h' : e.PeekGives w b v) :
    a = b ∧ w' = v := by
  simpa using (peekGives_iff_reaches.1 h).unique (peekGives_iff_reaches.1 h')

end Enumerator

inductive Operation : Type 1
  | next
  | peek
  | rewind
  | drive {σ : Type} (state : σ) (block : σ → List Value → Routine Empty (σ × Except Error Unit))
  | toArray

/-- What an operation shows. Driving shows the calls that the block got, with the answers it gave. -/
inductive Answer
  | pulled (a : Except Error Value)
  | rewound
  | driven (calls : List (List Value × Except Error Unit)) (result : Except Error Value)
  | collected (result : Except Error (List Value))

inductive Performs (e : Enumerator) : Operation → Session → Answer → Session → Prop
  | next {w w' : Session} {a : Except Error Value} (h : e.NextGives w a w') :
      Performs e .next w (.pulled a) w'
  | peek {w w' : Session} {a : Except Error Value} (h : e.PeekGives w a w') :
      Performs e .peek w (.pulled a) w'
  | rewind (w : Session) : Performs e .rewind w .rewound (w.rewind e)
  | drive {σ : Type} {s s' : σ} {block : σ → List Value → Routine Empty (σ × Except Error Unit)}
      {source : Producer} {c : Routine (List Value) (Except Error Value)} {w w₁ w' : Session}
      {calls : List (List Value × Except Error Unit)} {r : Except Error Value}
      (hsource : e.Drives w source) (hcalls : Calls block source.run s w calls c s' w₁)
      (hend : c.Reaches w₁ (.done r) w') : Performs e (.drive s block) w (.driven calls r) w'
  | toArray {source : Producer} {w w' : Session} {r : Except Error (List Value)}
      (hsource : e.Drives w source)
      (h : (Attempt.collect source : Attempt Empty (List Value)).run.Reaches w (.done r) w') :
      Performs e .toArray w (.collected r) w'

universe u

inductive Run {σ : Type u} (step : Operation → σ → Answer → σ → Prop) :
    List Operation → σ → List Answer → σ → Prop
  | nil (s : σ) : Run step [] s [] s
  | cons {op : Operation} {ops : List Operation} {s t u : σ} {a : Answer} {answers : List Answer}
      (h : step op s a t) (hrest : Run step ops t answers u) :
      Run step (op :: ops) s (a :: answers) u

end Stepwise
