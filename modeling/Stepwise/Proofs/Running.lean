import Stepwise.Session

namespace Stepwise

theorem Cursor.resume_mono {run run' : Runner}
    (hrun : ∀ c w r, run c w = some r → run' c w = some r) (c : Cursor) (w : Session)
    {r : Resumed × Cursor × Session} (h : c.resume run w = some r) : c.resume run' w = some r := by
  cases c with
  | finished => exact h
  | suspended rest =>
      simp only [Cursor.resume] at h ⊢
      cases hr : run rest w with
      | none => simp [hr] at h
      | some p => rw [hrun rest w p hr]; rwa [hr] at h

namespace Enumerator

/-- What a resumed cursor means for its enumerator, by what it remembered before: the answer to give, and
the session in which it remembers how far it has come. -/
def settle (e : Enumerator) (state : External) : Resumed × Cursor × Session → Except Error Value × Session
  | (.yielded args, c, w) => (.ok (Value.pack args), w.setExternal e { state with cursor := some c })
  | (.finished (.ok _), _, w) => (.error .stopIteration,
      (w.note (.cursorFinished e.toValue)).setExternal e { state with done := true, cursor := none })
  | (.finished (.error err), _, w) => (.error err,
      (w.note (.cursorFinished e.toValue)).setExternal e { state with done := true, cursor := none })

theorem advance_eq (run : Runner) (e : Enumerator) (w : Session) :
    e.advance run w = if (w.external e).done then some (.error .stopIteration, w)
      else ((e.cursorIn w).1.resume run (e.cursorIn w).2).map (e.settle (w.external e)) := by
  unfold advance
  simp only
  split
  · rfl
  · rcases (e.cursorIn w).1.resume run (e.cursorIn w).2 with _ | ⟨_ | (_ | _), _, _⟩ <;> rfl

variable {run run' : Runner} (hrun : ∀ c w r, run c w = some r → run' c w = some r)
  (e : Enumerator) (w : Session) {r : Except Error Value × Session}

include hrun

theorem advance_mono (h : e.advance run w = some r) : e.advance run' w = some r := by
  rw [advance_eq] at h ⊢
  split
  · rename_i hd
    rwa [if_pos hd] at h
  · rename_i hd
    rw [if_neg hd, Option.map_eq_some_iff] at h
    obtain ⟨q, hq, rfl⟩ := h
    rw [Cursor.resume_mono hrun _ _ hq, Option.map_some]

theorem next_mono (h : e.next run w = some r) : e.next run' w = some r := by
  unfold next at h ⊢
  cases hp : (w.external e).peeked with
  | some v => rwa [hp] at h
  | none => rw [hp] at h; exact advance_mono hrun e w h

theorem peek_mono (h : e.peek run w = some r) : e.peek run' w = some r := by
  unfold peek at h ⊢
  cases hp : (w.external e).peeked with
  | some v => rwa [hp] at h
  | none =>
      rw [hp] at h
      cases ha : e.advance run w with
      | none => simp [ha] at h
      | some p => simpa only [advance_mono hrun e w ha, ha] using h

end Enumerator

namespace Routine

variable {ι α β κ σ : Type}

theorem bind_pure (c : Routine ι α) : c.bind pure = c := by
  induction c with
  | pure a => rfl
  | _ => simp only [bind, *]

theorem bind_assoc {γ : Type} (c : Routine ι α) (f : α → Routine ι β) (g : β → Routine ι γ) :
    (c.bind f).bind g = c.bind fun a => (f a).bind g := by
  induction c with
  | pure a => rfl
  | _ => simp only [bind, *]

section Step

variable (n : Nat) (w : Session)

@[simp]
theorem resume_zero (c : Routine ι α) : c.resume 0 w = none := rfl

@[simp]
theorem resume_pure (a : α) : (pure a : Routine ι α).resume (n + 1) w = some (.done a, w) := rfl

@[simp]
theorem resume_yield (x : ι) (k : Except Error Unit → Routine ι α) :
    (yield x k).resume (n + 1) w = some (.yielded x k, w) := rfl

theorem resume_drive (source : Routine κ β) (s : σ)
    (block : σ → κ → Routine ι (σ × Except Error Unit)) (k : σ → β → Routine ι α) :
    (drive source s block k).resume (n + 1) w =
      match source.resume n w with
      | none => none
      | some (.done b, w) => (k s b).resume n w
      | some (.yielded x rest, w) =>
        ((block s x).bind fun (s, answer) => drive (rest answer) s block k).resume n w := by
  rw [resume]
  rcases source.resume n w with _ | ⟨_ | _, _⟩ <;> rfl

theorem resume_invoke (receiver : Value) (method : String) (args : List Value)
    (k : Except Error Value → Routine (List Value) α) :
    (invoke receiver method args k).resume (n + 1) w =
      match w.find receiver method with
      | none => (k (.error (.noMethod method receiver.className))).resume n w
      | some m => ((m.withBlock receiver args).run.bind k).resume n
          (w.note (.sent receiver.classOf method args.length true)) := rfl

theorem resume_send (receiver : Value) (method : String) (args : List Value)
    (k : Except Error Value → Routine ι α) :
    (send receiver method args k).resume (n + 1) w =
      match w.find receiver method with
      | none => (k (.error (.noMethod method receiver.className))).resume n w
      | some m => ((m.plain receiver args).run.lift.bind k).resume n
          (w.note (.sent receiver.classOf method args.length false)) := rfl

theorem resume_next (e : Enumerator) (k : Except Error Value → Routine ι α) :
    (next e k).resume (n + 1) w =
      match e.next (fun r w => r.resume n w) w with
      | none => none
      | some (r, w) => (k r).resume n w := rfl

theorem resume_peek (e : Enumerator) (k : Except Error Value → Routine ι α) :
    (peek e k).resume (n + 1) w =
      match e.peek (fun r w => r.resume n w) w with
      | none => none
      | some (r, w) => (k r).resume n w := rfl

end Step

/-- The single step of a routine that neither ends nor yields nor waits for another routine. -/
def hop : {ι α : Type} → Routine ι α → Session → Option (Routine ι α × Session)
  | _, _, loop s body k, w => some ((body s).bind fun
      | .inl s => loop s body k
      | .inr b => k b, w)
  | _, _, invoke receiver method args k, w => some (match w.find receiver method with
      | none => (k (.error (.noMethod method receiver.className)), w)
      | some m => ((m.withBlock receiver args).run.bind k,
          w.note (.sent receiver.classOf method args.length true)))
  | _, _, send receiver method args k, w => some (match w.find receiver method with
      | none => (k (.error (.noMethod method receiver.className)), w)
      | some m => ((m.plain receiver args).run.lift.bind k,
          w.note (.sent receiver.classOf method args.length false)))
  | _, _, define c name withBlock plain k, w => some (k, w.define c name ⟨withBlock, plain⟩)
  | _, _, respondsTo receiver method k, w => some (k (w.find receiver method).isSome, w)
  | _, _, enumerate receiver method args k, w =>
    some (k (w.enumerate receiver method args).1, (w.enumerate receiver method args).2)
  | _, _, rewind e k, w => some (k, w.rewind e)
  | _, _, note m k, w => some (k, w.note m)
  | _, _, pure _, _ | _, _, yield _ _, _ | _, _, drive _ _ _ _, _ | _, _, next _ _, _
  | _, _, peek _ _, _ => none

theorem hop_invoke (receiver : Value) (method : String) (args : List Value)
    (k : Except Error Value → Routine (List Value) α) (w : Session) :
    (invoke receiver method args k).hop w = some (match w.find receiver method with
      | none => (k (.error (.noMethod method receiver.className)), w)
      | some m => ((m.withBlock receiver args).run.bind k,
          w.note (.sent receiver.classOf method args.length true))) := rfl

theorem hop_send (receiver : Value) (method : String) (args : List Value)
    (k : Except Error Value → Routine ι α) (w : Session) :
    (send receiver method args k).hop w = some (match w.find receiver method with
      | none => (k (.error (.noMethod method receiver.className)), w)
      | some m => ((m.plain receiver args).run.lift.bind k,
          w.note (.sent receiver.classOf method args.length false))) := rfl

theorem resume_of_hop {c : Routine ι α} {w : Session} {q : Routine ι α × Session}
    (h : c.hop w = some q) (n : Nat) : c.resume (n + 1) w = q.1.resume n q.2 := by
  cases c with
  | pure | yield | drive | next | peek => cases h
  | loop | define | respondsTo | enumerate | rewind | note => cases h; rfl
  | invoke receiver method args k =>
      cases h
      rw [resume_invoke]
      cases w.find receiver method <;> rfl
  | send receiver method args k =>
      cases h
      rw [resume_send]
      cases w.find receiver method <;> rfl

theorem hop_bind {c : Routine ι α} {w : Session} {q : Routine ι α × Session} (h : c.hop w = some q)
    (f : α → Routine ι β) : (c.bind f).hop w = some (q.1.bind f, q.2) := by
  cases c with
  | pure | yield | drive | next | peek => cases h
  | define | respondsTo | enumerate | rewind | note => cases h; rfl
  | loop s body k =>
      cases h
      have hk : (fun r : _ ⊕ _ => match r with
          | .inl s => loop s body fun b => (k b).bind f
          | .inr b => (k b).bind f) = fun r => (match r with
            | .inl s => loop s body k
            | .inr b => k b).bind f := by
        funext r
        cases r <;> rfl
      exact congrArg some (congrArg (·, w) ((congrArg (body s).bind hk).trans (bind_assoc _ _ f).symm))
  | invoke receiver method args k =>
      cases h
      refine (hop_invoke receiver method args _ w).trans ?_
      cases w.find receiver method with
      | none => rfl
      | some m => simp only [bind_assoc]
  | send receiver method args k =>
      cases h
      refine (hop_send receiver method args _ w).trans ?_
      cases w.find receiver method with
      | none => rfl
      | some m => simp only [bind_assoc]

theorem resume_succ {n : Nat} {c : Routine ι α} {w : Session} {r : Progress ι α × Session}
    (h : c.resume n w = some r) : c.resume (n + 1) w = some r := by
  induction n generalizing ι α c w r with
  | zero => simp at h
  | succ n ih =>
      cases c with
      | pure | yield => exact h
      | loop | invoke | send | define | respondsTo | enumerate | rewind | note =>
          rw [resume_of_hop rfl] at h ⊢
          exact ih h
      | drive source s block k =>
          rw [resume_drive] at h ⊢
          cases hs : source.resume n w with
          | none => simp [hs] at h
          | some p =>
              rw [ih hs]
              rw [hs] at h
              rcases p with ⟨_ | _, _⟩ <;> exact ih h
      | next e k =>
          rw [resume_next] at h ⊢
          cases hn : e.next (fun r w => r.resume n w) w with
          | none => simp [hn] at h
          | some p =>
              rw [Enumerator.next_mono (fun _ _ _ => ih) e w hn]
              rw [hn] at h
              exact ih h
      | peek e k =>
          rw [resume_peek] at h ⊢
          cases hn : e.peek (fun r w => r.resume n w) w with
          | none => simp [hn] at h
          | some p =>
              rw [Enumerator.peek_mono (fun _ _ _ => ih) e w hn]
              rw [hn] at h
              exact ih h

theorem resume_mono {n m : Nat} (hnm : n ≤ m) {c : Routine ι α} {w : Session}
    {r : Progress ι α × Session} (h : c.resume n w = some r) : c.resume m w = some r := by
  induction hnm with
  | refl => exact h
  | step _ ih => exact resume_succ ih

/-- With enough steps, the routine comes from one session to a yield or its end in another. -/
def Reaches (c : Routine ι α) (w : Session) (p : Progress ι α) (w' : Session) : Prop :=
  ∃ n, c.resume n w = some (p, w')

theorem Reaches.unique {c : Routine ι α} {w w₁ w₂ : Session} {p₁ p₂ : Progress ι α}
    (h₁ : c.Reaches w p₁ w₁) (h₂ : c.Reaches w p₂ w₂) : p₁ = p₂ ∧ w₁ = w₂ := by
  obtain ⟨n, hn⟩ := h₁
  obtain ⟨m, hm⟩ := h₂
  have h := (resume_mono (Nat.le_max_left n m) hn).symm.trans (resume_mono (Nat.le_max_right n m) hm)
  simpa using h

theorem reaches_of_hop {c d : Routine ι α} {w v : Session} (h : c.hop w = some (d, v))
    {p : Progress ι α} {w' : Session} : c.Reaches w p w' ↔ d.Reaches v p w' := by
  constructor
  · rintro ⟨n, hn⟩
    cases n with
    | zero => simp at hn
    | succ n => exact ⟨n, (resume_of_hop h n).symm.trans hn⟩
  · rintro ⟨n, hn⟩
    exact ⟨n + 1, (resume_of_hop h n).trans hn⟩

end Routine

namespace Enumerator

def NextGives (e : Enumerator) (w : Session) (a : Except Error Value) (w' : Session) : Prop :=
  ∃ n, e.next (fun c w => c.resume n w) w = some (a, w')

def PeekGives (e : Enumerator) (w : Session) (a : Except Error Value) (w' : Session) : Prop :=
  ∃ n, e.peek (fun c w => c.resume n w) w = some (a, w')

end Enumerator

namespace Routine

variable {ι α β κ σ : Type}

section Rules

variable {w w' : Session} {p : Progress ι α}

theorem reaches_pure {a : α} :
    (pure a : Routine ι α).Reaches w p w' ↔ p = .done a ∧ w' = w := by
  constructor
  · rintro ⟨n, hn⟩
    cases n <;> simp at hn
    exact ⟨hn.1.symm, hn.2.symm⟩
  · rintro ⟨rfl, rfl⟩
    exact ⟨1, rfl⟩

theorem reaches_yield {x : ι} {k : Except Error Unit → Routine ι α} :
    (yield x k).Reaches w p w' ↔ p = .yielded x k ∧ w' = w := by
  constructor
  · rintro ⟨n, hn⟩
    cases n <;> simp at hn
    exact ⟨hn.1.symm, hn.2.symm⟩
  · rintro ⟨rfl, rfl⟩
    exact ⟨1, rfl⟩

theorem reaches_note {n : Notice} {k : Routine ι α} :
    (note n k).Reaches w p w' ↔ k.Reaches (w.note n) p w' :=
  reaches_of_hop rfl

theorem reaches_define {c : Class} {name : String}
    {withBlock : Value → List Value → Routine (List Value) (Except Error Value)}
    {plain : Value → List Value → Routine Empty (Except Error Value)} {k : Routine ι α} :
    (define c name withBlock plain k).Reaches w p w' ↔
      k.Reaches (w.define c name ⟨withBlock, plain⟩) p w' :=
  reaches_of_hop rfl

theorem reaches_respondsTo {receiver : Value} {method : String} {k : Bool → Routine ι α} :
    (respondsTo receiver method k).Reaches w p w' ↔
      (k (w.find receiver method).isSome).Reaches w p w' :=
  reaches_of_hop rfl

theorem reaches_enumerate {receiver : Value} {method : String} {args : List Value}
    {k : Enumerator → Routine ι α} :
    (enumerate receiver method args k).Reaches w p w' ↔
      (k (w.enumerate receiver method args).1).Reaches (w.enumerate receiver method args).2 p w' :=
  reaches_of_hop rfl

theorem reaches_rewind {e : Enumerator} {k : Routine ι α} :
    (rewind e k).Reaches w p w' ↔ k.Reaches (w.rewind e) p w' :=
  reaches_of_hop rfl

theorem reaches_loop {s : σ} {body : σ → Routine ι (σ ⊕ β)} {k : β → Routine ι α} :
    (loop s body k).Reaches w p w' ↔
      ((body s).bind fun
        | .inl s => loop s body k
        | .inr b => k b).Reaches w p w' :=
  reaches_of_hop rfl

theorem reaches_invoke_none {p : Progress (List Value) α} {receiver : Value} {method : String}
    {args : List Value} {k : Except Error Value → Routine (List Value) α}
    (hf : w.find receiver method = none) :
    (invoke receiver method args k).Reaches w p w' ↔
      (k (.error (.noMethod method receiver.className))).Reaches w p w' :=
  reaches_of_hop (by rw [hop_invoke, hf])

theorem reaches_invoke_some {p : Progress (List Value) α} {receiver : Value} {method : String}
    {args : List Value} {k : Except Error Value → Routine (List Value) α} {m : Method}
    (hf : w.find receiver method = some m) :
    (invoke receiver method args k).Reaches w p w' ↔
      ((m.withBlock receiver args).run.bind k).Reaches
        (w.note (.sent receiver.classOf method args.length true)) p w' :=
  reaches_of_hop (by rw [hop_invoke, hf])

theorem reaches_send_none {receiver : Value} {method : String} {args : List Value}
    {k : Except Error Value → Routine ι α} (hf : w.find receiver method = none) :
    (send receiver method args k).Reaches w p w' ↔
      (k (.error (.noMethod method receiver.className))).Reaches w p w' :=
  reaches_of_hop (by rw [hop_send, hf])

theorem reaches_send_some {receiver : Value} {method : String} {args : List Value}
    {k : Except Error Value → Routine ι α} {m : Method} (hf : w.find receiver method = some m) :
    (send receiver method args k).Reaches w p w' ↔
      ((m.plain receiver args).run.lift.bind k).Reaches
        (w.note (.sent receiver.classOf method args.length false)) p w' :=
  reaches_of_hop (by rw [hop_send, hf])

/-- What a source with a block comes to is decided by what the source comes to: its end, or a yield
that the block answers before the source goes on. -/
theorem reaches_drive {source : Routine κ β} {s : σ}
    {block : σ → κ → Routine ι (σ × Except Error Unit)} {k : σ → β → Routine ι α} :
    (drive source s block k).Reaches w p w' ↔
      (∃ b v, source.Reaches w (.done b) v ∧ (k s b).Reaches v p w') ∨
      ∃ x rest v, source.Reaches w (.yielded x rest) v ∧
        ((block s x).bind fun (s, answer) => drive (rest answer) s block k).Reaches v p w' := by
  constructor
  · rintro ⟨n, hn⟩
    cases n with
    | zero => simp at hn
    | succ n =>
        rw [resume_drive] at hn
        cases hs : source.resume n w with
        | none => simp [hs] at hn
        | some q =>
            rw [hs] at hn
            rcases q with ⟨b | ⟨x, rest⟩, v⟩
            · exact .inl ⟨b, v, ⟨n, hs⟩, ⟨n, hn⟩⟩
            · exact .inr ⟨x, rest, v, ⟨n, hs⟩, ⟨n, hn⟩⟩
  · rintro (⟨b, v, ⟨n, hs⟩, ⟨m, hk⟩⟩ | ⟨x, rest, v, ⟨n, hs⟩, ⟨m, hk⟩⟩) <;>
    · refine ⟨max n m + 1, ?_⟩
      rw [resume_drive, resume_mono (Nat.le_max_left n m) hs]
      exact resume_mono (Nat.le_max_right n m) hk

theorem reaches_next {e : Enumerator} {k : Except Error Value → Routine ι α} :
    (next e k).Reaches w p w' ↔ ∃ a v, e.NextGives w a v ∧ (k a).Reaches v p w' := by
  constructor
  · rintro ⟨n, hn⟩
    cases n with
    | zero => simp at hn
    | succ n =>
        rw [resume_next] at hn
        cases ha : e.next (fun r w => r.resume n w) w with
        | none => simp [ha] at hn
        | some q => rw [ha] at hn; exact ⟨q.1, q.2, ⟨n, ha⟩, ⟨n, hn⟩⟩
  · rintro ⟨a, v, ⟨n, ha⟩, ⟨m, hk⟩⟩
    refine ⟨max n m + 1, ?_⟩
    rw [resume_next, Enumerator.next_mono (fun _ _ _ => resume_mono (Nat.le_max_left n m)) e w ha]
    exact resume_mono (Nat.le_max_right n m) hk

theorem reaches_peek {e : Enumerator} {k : Except Error Value → Routine ι α} :
    (peek e k).Reaches w p w' ↔ ∃ a v, e.PeekGives w a v ∧ (k a).Reaches v p w' := by
  constructor
  · rintro ⟨n, hn⟩
    cases n with
    | zero => simp at hn
    | succ n =>
        rw [resume_peek] at hn
        cases ha : e.peek (fun r w => r.resume n w) w with
        | none => simp [ha] at hn
        | some q => rw [ha] at hn; exact ⟨q.1, q.2, ⟨n, ha⟩, ⟨n, hn⟩⟩
  · rintro ⟨a, v, ⟨n, ha⟩, ⟨m, hk⟩⟩
    refine ⟨max n m + 1, ?_⟩
    rw [resume_peek, Enumerator.peek_mono (fun _ _ _ => resume_mono (Nat.le_max_left n m)) e w ha]
    exact resume_mono (Nat.le_max_right n m) hk

end Rules

/-- How a routine goes on after another: from its end by its continuation, or from the same yield with
the continuation still to come. -/
def Continues (f : α → Routine ι β) (q : Progress ι α) (v : Session) (p : Progress ι β)
    (w' : Session) : Prop :=
  match q with
  | .done a => (f a).Reaches v p w'
  | .yielded x k => p = .yielded x (fun r => (k r).bind f) ∧ w' = v

def ContinuesIn (n : Nat) (f : α → Routine ι β) (q : Progress ι α) (v : Session) (p : Progress ι β)
    (w' : Session) : Prop :=
  match q with
  | .done a => ∃ m ≤ n, (f a).resume m v = some (p, w')
  | .yielded x k => p = .yielded x (fun r => (k r).bind f) ∧ w' = v

theorem ContinuesIn.continues {n : Nat} {f : α → Routine ι β} {q : Progress ι α} {v w' : Session}
    {p : Progress ι β} (h : ContinuesIn n f q v p w') : Continues f q v p w' := by
  cases q with
  | done a =>
      obtain ⟨m, -, hm⟩ := h
      exact ⟨m, hm⟩
  | yielded x k => exact h

theorem ContinuesIn.succ {n : Nat} {f : α → Routine ι β} {q : Progress ι α} {v w' : Session}
    {p : Progress ι β} (h : ContinuesIn n f q v p w') : ContinuesIn (n + 1) f q v p w' := by
  cases q with
  | done a =>
      obtain ⟨m, hm, hp⟩ := h
      exact ⟨m, Nat.le_succ_of_le hm, hp⟩
  | yielded x k => exact h

theorem exists_of_resume_bind (f : α → Routine ι β) {n : Nat} {c : Routine ι α} {w w' : Session}
    {p : Progress ι β} (h : (c.bind f).resume n w = some (p, w')) :
    ∃ q v, c.Reaches w q v ∧ ContinuesIn n f q v p w' := by
  induction n generalizing c w with
  | zero => simp at h
  | succ n ih =>
      cases c with
      | pure a => exact ⟨.done a, w, reaches_pure.2 ⟨rfl, rfl⟩, n + 1, Nat.le_refl _, h⟩
      | yield x k =>
          have hy := reaches_yield.1 ⟨n + 1, h⟩
          exact ⟨.yielded x k, w, reaches_yield.2 ⟨rfl, rfl⟩, hy⟩
      | loop | invoke | send | define | respondsTo | enumerate | rewind | note =>
          rw [resume_of_hop (hop_bind rfl f)] at h
          obtain ⟨q, v, hk, hq⟩ := ih h
          exact ⟨q, v, (reaches_of_hop rfl).2 hk, hq.succ⟩
      | next e k =>
          rw [bind, resume_next] at h
          cases ha : e.next (fun r w => r.resume n w) w with
          | none => simp [ha] at h
          | some a =>
              rw [ha] at h
              obtain ⟨q, v, hk, hq⟩ := ih h
              exact ⟨q, v, reaches_next.2 ⟨a.1, a.2, ⟨n, ha⟩, hk⟩, hq.succ⟩
      | peek e k =>
          rw [bind, resume_peek] at h
          cases ha : e.peek (fun r w => r.resume n w) w with
          | none => simp [ha] at h
          | some a =>
              rw [ha] at h
              obtain ⟨q, v, hk, hq⟩ := ih h
              exact ⟨q, v, reaches_peek.2 ⟨a.1, a.2, ⟨n, ha⟩, hk⟩, hq.succ⟩
      | drive source s block k =>
          rw [bind, resume_drive] at h
          cases hs : source.resume n w with
          | none => simp [hs] at h
          | some r =>
              rw [hs] at h
              rcases r with ⟨b | ⟨x, rest⟩, u⟩
              · obtain ⟨q, v, hk, hq⟩ := ih h
                exact ⟨q, v, reaches_drive.2 (.inl ⟨b, u, ⟨n, hs⟩, hk⟩), hq.succ⟩
              · have hb : (((block s x).bind fun (s, answer) =>
                    drive (rest answer) s block k).bind f).resume n u = some (p, w') := by
                  rw [bind_assoc]
                  exact h
                obtain ⟨q, v, hk, hq⟩ := ih hb
                exact ⟨q, v, reaches_drive.2 (.inr ⟨x, rest, u, ⟨n, hs⟩, hk⟩), hq.succ⟩

theorem reaches_bind_of_resume (f : α → Routine ι β) {n : Nat} {c : Routine ι α} {w v w' : Session}
    {q : Progress ι α} {p : Progress ι β} (h : c.resume n w = some (q, v))
    (hq : Continues f q v p w') : (c.bind f).Reaches w p w' := by
  induction n generalizing c w with
  | zero => simp at h
  | succ n ih =>
      cases c with
      | pure a =>
          obtain ⟨rfl, rfl⟩ := reaches_pure.1 ⟨n + 1, h⟩
          exact hq
      | yield x k =>
          obtain ⟨rfl, rfl⟩ := reaches_yield.1 ⟨n + 1, h⟩
          exact reaches_yield.2 hq
      | loop | invoke | send | define | respondsTo | enumerate | rewind | note =>
          rw [resume_of_hop rfl] at h
          exact (reaches_of_hop (hop_bind rfl f)).2 (ih h)
      | next e k =>
          rw [resume_next] at h
          cases ha : e.next (fun r w => r.resume n w) w with
          | none => simp [ha] at h
          | some a =>
              rw [ha] at h
              exact reaches_next.2 ⟨a.1, a.2, ⟨n, ha⟩, ih h⟩
      | peek e k =>
          rw [resume_peek] at h
          cases ha : e.peek (fun r w => r.resume n w) w with
          | none => simp [ha] at h
          | some a =>
              rw [ha] at h
              exact reaches_peek.2 ⟨a.1, a.2, ⟨n, ha⟩, ih h⟩
      | drive source s block k =>
          rw [resume_drive] at h
          cases hs : source.resume n w with
          | none => simp [hs] at h
          | some r =>
              rw [hs] at h
              rcases r with ⟨b | ⟨x, rest⟩, u⟩
              · exact reaches_drive.2 (.inl ⟨b, u, ⟨n, hs⟩, ih h⟩)
              · have hb := ih h
                rw [bind_assoc] at hb
                exact reaches_drive.2 (.inr ⟨x, rest, u, ⟨n, hs⟩, hb⟩)

theorem reaches_bind {c : Routine ι α} {f : α → Routine ι β} {w w' : Session} {p : Progress ι β} :
    (c.bind f).Reaches w p w' ↔ ∃ q v, c.Reaches w q v ∧ Continues f q v p w' := by
  constructor
  · rintro ⟨n, hn⟩
    obtain ⟨q, v, hc, hq⟩ := exists_of_resume_bind f hn
    exact ⟨q, v, hc, hq.continues⟩
  · rintro ⟨q, v, ⟨n, hn⟩, hq⟩
    exact reaches_bind_of_resume f hn hq

end Routine

end Stepwise
