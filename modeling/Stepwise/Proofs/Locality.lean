import Stepwise.Proofs.Pulling

namespace Stepwise

/-- The enumerators that a call pulls or rewinds, by itself or through the calls that it comes to. -/
def touched : Value → String → List Value → List Nat
  | .enumerator id receiver method bound, "next", [] => id :: touched receiver method bound
  | .enumerator id receiver method bound, "peek", [] => id :: touched receiver method bound
  | .enumerator id _ _ _, "rewind", [] => [id]
  | .enumerator _ receiver method bound, "each", [] => touched receiver method bound
  | .enumerator _ receiver method bound, "to_a", [] => touched receiver method bound
  | _, _, _ => []

def Enumerator.footprint (e : Enumerator) : List Nat := e.id :: touched e.receiver e.method e.args

def TouchesOnly (S : Nat → Prop) (receiver : Value) (method : String) (args : List Value) : Prop :=
  ∀ id ∈ touched receiver method args, S id

namespace Routine

/-- The routine pulls and rewinds only enumerators in the set, makes only calls that touch nothing else,
and neither defines methods nor makes enumerators. Without a block it calls `succ` only. -/
def Confined (S : Nat → Prop) : {ι α : Type} → Routine ι α → Prop
  | _, _, pure _ => True
  | _, _, yield _ k => ∀ r, (k r).Confined S
  | _, _, drive source _ block k =>
    source.Confined S ∧ (∀ s x, (block s x).Confined S) ∧ ∀ s b, (k s b).Confined S
  | _, _, loop _ body k => (∀ s, (body s).Confined S) ∧ ∀ b, (k b).Confined S
  | _, _, invoke receiver method args k => TouchesOnly S receiver method args ∧ ∀ r, (k r).Confined S
  | _, _, send _ method _ k => method = "succ" ∧ ∀ r, (k r).Confined S
  | _, _, define _ _ _ _ _ => False
  | _, _, respondsTo _ _ k => ∀ b, (k b).Confined S
  | _, _, enumerate _ _ _ _ => False
  | _, _, next e k => (∀ id ∈ e.footprint, S id) ∧ ∀ r, (k r).Confined S
  | _, _, peek e k => (∀ id ∈ e.footprint, S id) ∧ ∀ r, (k r).Confined S
  | _, _, rewind e k => S e.id ∧ k.Confined S
  | _, _, note _ k => k.Confined S

variable {ι κ α β σ : Type} {S : Nat → Prop}

theorem Confined.bind {c : Routine ι α} {f : α → Routine ι β} (hc : c.Confined S)
    (hf : ∀ a, (f a).Confined S) : (c.bind f).Confined S := by
  induction c with
  | pure a => exact hf a
  | yield x k ih => exact fun r => ih r (hc r) hf
  | drive source s block k _ _ ih => exact ⟨hc.1, hc.2.1, fun s b => ih s b (hc.2.2 s b) hf⟩
  | loop s body k _ ih => exact ⟨hc.1, fun b => ih b (hc.2 b) hf⟩
  | invoke receiver method args k ih => exact ⟨hc.1, fun r => ih r (hc.2 r) hf⟩
  | send receiver method args k ih => exact ⟨hc.1, fun r => ih r (hc.2 r) hf⟩
  | define => exact hc
  | respondsTo receiver method k ih => exact fun b => ih b (hc b) hf
  | enumerate => exact hc
  | next e k ih => exact ⟨hc.1, fun r => ih r (hc.2 r) hf⟩
  | peek e k ih => exact ⟨hc.1, fun r => ih r (hc.2 r) hf⟩
  | rewind e k ih => exact ⟨hc.1, ih hc.2 hf⟩
  | note n k ih => exact ih hc hf

theorem Confined.lift {c : Routine Empty α} (h : c.Confined S) :
    (c.lift : Routine ι α).Confined S :=
  ⟨h, fun _ x => x.elim, fun _ _ => trivial⟩

end Routine

open Routine

section Agreement

variable {S : Nat → Prop} {w v w' v' w'' v'' : Session} {e : Enumerator}

def Cursor.Confined (S : Nat → Prop) : Cursor → Prop
  | suspended rest => rest.Confined S
  | finished => True

def External.Confined (S : Nat → Prop) (x : External) : Prop := ∀ c, x.cursor = some c → c.Confined S

def Progress.Confined {ι α : Type} (S : Nat → Prop) : Progress ι α → Prop
  | done _ => True
  | yielded _ k => ∀ r, (k r).Confined S

/-- Two sessions with the built-in methods in which the enumerators of the set remember the same, with
cursors that are confined to the set. -/
structure Agree (S : Nat → Prop) (w v : Session) : Prop where
  left : w.methods = .builtin
  right : v.methods = .builtin
  external : ∀ e : Enumerator, S e.id → w.external e = v.external e
  confined : ∀ e : Enumerator, S e.id → (w.external e).Confined S

theorem Agree.symm (h : Agree S w v) : Agree S v w :=
  ⟨h.right, h.left, fun e he => (h.external e he).symm, fun e he => h.external e he ▸ h.confined e he⟩

theorem Agree.find (h : Agree S w v) (receiver : Value) (method : String) :
    v.find receiver method = w.find receiver method := by
  rw [Session.find, Session.find, h.left, h.right]

def Leaves (S : Nat → Prop) (w w' : Session) : Prop :=
  ∀ e : Enumerator, ¬ S e.id → w'.external e = w.external e

theorem Agree.frame {T : Nat → Prop} (h : Agree S w v) (hw' : w'.methods = .builtin)
    (hleaves : Leaves T w w') (hdisjoint : ∀ id, S id → ¬ T id) : Agree S w' v := by
  have hsame (e : Enumerator) (he : S e.id) : w'.external e = w.external e := hleaves e (hdisjoint _ he)
  refine ⟨hw', h.right, fun e he => (hsame e he).trans (h.external e he), fun e he => ?_⟩
  rw [hsame e he]
  exact h.confined e he

structure Advances (S : Nat → Prop) (w v w' v' : Session) : Prop where
  agree : Agree S w' v'
  left : Leaves S w w'
  right : Leaves S v v'

theorem Advances.refl (h : Agree S w v) : Advances S w v w v := ⟨h, fun _ _ => rfl, fun _ _ => rfl⟩

theorem Advances.trans (h : Advances S w v w' v') (h' : Advances S w' v' w'' v'') :
    Advances S w v w'' v'' :=
  ⟨h'.agree, fun e he => (h'.left e he).trans (h.left e he),
    fun e he => (h'.right e he).trans (h.right e he)⟩

theorem Advances.note (h : Advances S w v w' v') (n : Notice) :
    Advances S w v (w'.note n) (v'.note n) :=
  ⟨⟨h.agree.left, h.agree.right, h.agree.external, h.agree.confined⟩, h.left, h.right⟩

theorem Session.external_setExternal_eq (w : Session) (e f : Enumerator) (x : External) :
    (w.setExternal e x).external f = if f.id = e.id then x else w.external f := by
  split
  · rename_i h
    simp [Session.external, Session.setExternal, h]
  · rename_i h
    have hne : (f.id == e.id) = false := by simpa using h
    have hfilter (xs : List (Nat × External)) :
        (xs.filter (·.1 ≠ e.id)).lookup f.id = xs.lookup f.id := by
      induction xs with
      | nil => rfl
      | cons y ys ih =>
          obtain ⟨id, y⟩ := y
          by_cases hy : id = e.id
          · have hfy : (f.id == id) = false := by rwa [hy]
            rw [List.filter_cons_of_neg (by simpa using hy), ih]
            simp only [List.lookup_cons, hfy]
          · rw [List.filter_cons_of_pos (by simpa using hy)]
            simp only [List.lookup_cons, ih]
    simp only [Session.external, Session.setExternal, List.lookup_cons, hne, hfilter]

theorem Advances.setExternal (h : Advances S w v w' v') (he : S e.id) {x : External}
    (hx : x.Confined S) : Advances S w v (w'.setExternal e x) (v'.setExternal e x) := by
  refine ⟨⟨h.agree.left, h.agree.right, fun f hf => ?_, fun f hf => ?_⟩, fun f hf => ?_, fun f hf => ?_⟩
  · rw [Session.external_setExternal_eq, Session.external_setExternal_eq, h.agree.external f hf]
  · rw [Session.external_setExternal_eq]
    split
    · exact hx
    · exact h.agree.confined f hf
  · have hne : f.id ≠ e.id := fun hid => hf (hid ▸ he)
    rw [Session.external_setExternal_eq, if_neg hne]
    exact h.left f hf
  · have hne : f.id ≠ e.id := fun hid => hf (hid ▸ he)
    rw [Session.external_setExternal_eq, if_neg hne]
    exact h.right f hf

theorem Advances.rewind (h : Advances S w v w' v') (he : S e.id) :
    Advances S w v (w'.rewind e) (v'.rewind e) :=
  (h.setExternal he (x := {}) nofun).note _

def Runner.Local (S : Nat → Prop) (run : Runner) : Prop :=
  ∀ c w v p w', c.Confined S → Agree S w v → run c w = some (p, w') →
    ∃ v', run c v = some (p, v') ∧ Advances S w v w' v' ∧ p.Confined S

variable {run : Runner} (hrun : run.Local S)

include hrun in
theorem Cursor.resume_local {c c' : Cursor} {r : Resumed} (hc : c.Confined S) (h : Agree S w v)
    (hr : c.resume run w = some (r, c', w')) :
    ∃ v', c.resume run v = some (r, c', v') ∧ Advances S w v w' v' ∧ c'.Confined S := by
  cases c with
  | finished =>
      cases hr
      exact ⟨v, rfl, .refl h, trivial⟩
  | suspended rest =>
      rw [Cursor.resume] at hr
      cases hq : run rest w with
      | none => simp [hq] at hr
      | some q =>
          obtain ⟨p, w₁⟩ := q
          obtain ⟨v₁, hv₁, hadvances, hp⟩ := hrun rest w v p w₁ hc h hq
          rw [hq] at hr
          rw [Cursor.resume, hv₁]
          cases p with
          | done a =>
              cases hr
              exact ⟨v₁, rfl, hadvances, trivial⟩
          | yielded args k =>
              cases hr
              exact ⟨v₁, rfl, hadvances, hp (.ok ())⟩

namespace Enumerator

theorem cursorIn_local (he : ∀ id ∈ e.footprint, S id) (h : Agree S w v) :
    (e.cursorIn w).1.Confined S ∧ (e.cursorIn v).1 = (e.cursorIn w).1 ∧
      Advances S w v (e.cursorIn w).2 (e.cursorIn v).2 := by
  have hid : S e.id := he e.id List.mem_cons_self
  have hconfined := h.confined e hid
  unfold cursorIn
  rw [← h.external e hid]
  cases hx : (w.external e).cursor with
  | some c => exact ⟨hconfined c hx, rfl, .refl h⟩
  | none =>
      refine ⟨⟨fun id hid => he id (List.mem_cons_of_mem _ hid), fun _ => trivial⟩, rfl, ?_⟩
      exact (Advances.refl h).note _

theorem settle_local (he : S e.id) (state : External) (r : Resumed) {c : Cursor} (hc : c.Confined S)
    (h : Advances S w v w' v') :
    (e.settle state (r, c, v')).1 = (e.settle state (r, c, w')).1 ∧
      Advances S w v (e.settle state (r, c, w')).2 (e.settle state (r, c, v')).2 := by
  rcases r with args | (err | x)
  · refine ⟨rfl, h.setExternal he ?_⟩
    intro c' hc'
    cases hc'
    exact hc
  · exact ⟨rfl, (h.note _).setExternal he nofun⟩
  · exact ⟨rfl, (h.note _).setExternal he nofun⟩

include hrun in
theorem advance_local (he : ∀ id ∈ e.footprint, S id) (h : Agree S w v) {a : Except Error Value}
    (ha : e.advance run w = some (a, w')) :
    ∃ v', e.advance run v = some (a, v') ∧ Advances S w v w' v' := by
  have hid : S e.id := he e.id List.mem_cons_self
  rw [advance_eq] at ha ⊢
  rw [← h.external e hid]
  split
  · rename_i hd
    rw [if_pos hd] at ha
    cases ha
    exact ⟨v, rfl, .refl h⟩
  · rename_i hd
    rw [if_neg hd, Option.map_eq_some_iff] at ha
    obtain ⟨⟨r, c, w₂⟩, hq, hs⟩ := ha
    obtain ⟨hc, hcv, hcursor⟩ := cursorIn_local he h
    obtain ⟨v₂, hv₂, hadvances, hc'⟩ := Cursor.resume_local hrun hc hcursor.agree hq
    obtain ⟨hanswer, hsettle⟩ := settle_local hid (w.external e) r hc' (hcursor.trans hadvances)
    rw [hs] at hanswer hsettle
    refine ⟨(e.settle (w.external e) (r, c, v₂)).2, ?_, hsettle⟩
    rw [hcv, hv₂, Option.map_some]
    exact congrArg some (Prod.ext hanswer rfl)

include hrun in
theorem next_local (he : ∀ id ∈ e.footprint, S id) (h : Agree S w v) {a : Except Error Value}
    (ha : e.next run w = some (a, w')) :
    ∃ v', e.next run v = some (a, v') ∧ Advances S w v w' v' := by
  have hid : S e.id := he e.id List.mem_cons_self
  unfold next at ha ⊢
  rw [← h.external e hid]
  cases hp : (w.external e).peeked with
  | none =>
      rw [hp] at ha
      exact advance_local hrun he h ha
  | some x =>
      rw [hp] at ha
      cases ha
      exact ⟨_, rfl, (Advances.refl h).setExternal hid (h.confined e hid)⟩

include hrun in
theorem peek_local (he : ∀ id ∈ e.footprint, S id) (h : Agree S w v) {a : Except Error Value}
    (ha : e.peek run w = some (a, w')) :
    ∃ v', e.peek run v = some (a, v') ∧ Advances S w v w' v' := by
  have hid : S e.id := he e.id List.mem_cons_self
  unfold peek at ha ⊢
  rw [← h.external e hid]
  cases hp : (w.external e).peeked with
  | some x =>
      rw [hp] at ha
      cases ha
      exact ⟨v, rfl, .refl h⟩
  | none =>
      rw [hp] at ha
      cases hq : e.advance run w with
      | none => simp [hq] at ha
      | some q =>
          obtain ⟨b, w₁⟩ := q
          obtain ⟨v₁, hv₁, hadvances⟩ := advance_local hrun he h hq
          rw [hq] at ha
          rw [hv₁]
          cases b with
          | error err =>
              cases ha
              exact ⟨v₁, rfl, hadvances⟩
          | ok x =>
              cases ha
              refine ⟨_, rfl, ?_⟩
              rw [← hadvances.agree.external e hid]
              exact hadvances.setExternal hid (hadvances.agree.confined e hid)

end Enumerator

end Agreement

section Methods

variable {ι κ α β σ : Type} {S : Nat → Prop}

theorem confined_attempt_bind {x : Attempt ι α} {f : α → Attempt ι β} (hx : x.run.Confined S)
    (hf : ∀ a, (f a).run.Confined S) : (x >>= f).run.Confined S := by
  refine Confined.bind (c := x.run) hx fun r => ?_
  cases r with
  | ok a => exact hf a
  | error err => trivial

theorem confined_tryLoop {s : σ} {step : σ → Attempt ι (σ ⊕ β)} (h : ∀ s, (step s).run.Confined S) :
    (Attempt.loop s step).run.Confined S := by
  refine ⟨fun s => (h s).bind fun r => ?_, fun _ => trivial⟩
  rcases r with err | s | b <;> trivial

theorem confined_forEach {source : Attempt κ α} {block : κ → Attempt ι Unit}
    (hsource : source.run.Confined S) (hblock : ∀ x, (block x).run.Confined S) :
    (source.forEach block).run.Confined S :=
  ⟨hsource, fun _ x => (hblock x).bind fun _ => trivial, fun _ _ => trivial⟩

theorem confined_collect {source : Producer} (h : source.run.Confined S) :
    (Attempt.collect source : Attempt ι (List Value)).run.Confined S := by
  refine ⟨h, fun _ _ => trivial, fun _ r => ?_⟩
  cases r <;> trivial

theorem confined_iteration {entry : Value → List Value → Except Error Iteration} {receiver : Value}
    {args : List Value} (h : ∀ it, entry receiver args = .ok it → it.body.run.Confined S) :
    ((Method.iteration entry).withBlock receiver args).run.Confined S := by
  simp only [Method.iteration]
  cases he : entry receiver args with
  | ok it => exact h it he
  | error err => trivial

theorem Integer.confined_emit (notice : Int64 → Notice) (i : Int64) :
    (emit notice i).run.Confined S :=
  confined_attempt_bind trivial fun _ _ => trivial

theorem Integer.confined_timesBody (n : Int64) : (timesBody n).run.Confined S := by
  refine confined_attempt_bind (confined_tryLoop fun i => ?_) fun _ => trivial
  unfold timesStep
  split
  · exact confined_attempt_bind (confined_emit _ _) fun _ => trivial
  · trivial

theorem Integer.confined_uptoBody (start bound : Int64) : (uptoBody start bound).run.Confined S := by
  refine confined_attempt_bind (confined_tryLoop fun i => ?_) fun _ => trivial
  unfold uptoStep
  split
  · refine confined_attempt_bind (confined_emit _ _) fun _ => ?_
    split <;> trivial
  · trivial

theorem Items.confined_step (items : List Value) : (step items).run.Confined S := by
  induction items with
  | nil => trivial
  | cons v items ih => exact confined_attempt_bind (fun _ => trivial) fun _ => ih

theorem Steppable.confined_advance (v : Value) :
    (advance v : Attempt Value (Value ⊕ β)).run.Confined S := by
  refine confined_attempt_bind (fun _ => trivial) fun _ => ?_
  exact confined_attempt_bind (Confined.lift ⟨rfl, fun _ => trivial⟩) fun _ => trivial

theorem Steppable.confined_stepTo (first last : Value) (excludeEnd : Bool) :
    (stepTo first last excludeEnd).run.Confined S := by
  refine confined_attempt_bind (confined_tryLoop fun v => ?_) fun v => ?_
  · refine confined_attempt_bind trivial fun o => ?_
    cases o with
    | lt => exact confined_advance v
    | eq | gt => trivial
  · cases excludeEnd with
    | true => trivial
    | false =>
        refine confined_attempt_bind trivial fun o => ?_
        cases o with
        | eq => exact fun _ => trivial
        | lt | gt => trivial

theorem Steppable.confined_stepRange (first : Value) (last? : Option Value) (excludeEnd : Bool) :
    (stepRange first last? excludeEnd).run.Confined S := by
  refine confined_attempt_bind (Confined.lift fun _ => trivial) fun b => ?_
  cases b with
  | false => trivial
  | true =>
      cases last? with
      | none => exact confined_attempt_bind trivial fun _ => confined_tryLoop confined_advance
      | some last =>
          refine confined_attempt_bind trivial fun o => ?_
          cases o with
          | lt | eq => exact confined_stepTo first last excludeEnd
          | gt => trivial

theorem MethodTable.mem_of_lookup_defineAll {t : MethodTable} {ds : List (Class × String × Method)}
    {c : Class} {name : String} {m : Method} (h : (t.defineAll ds).lookup c name = some m) :
    t.lookup c name = some m ∨ (c, name, m) ∈ ds := by
  induction ds generalizing t with
  | nil => exact .inl h
  | cons d ds ih =>
      obtain ht | hmem := ih h
      · rw [lookup_define] at ht
        split at ht
        · rename_i hkey
          obtain ⟨rfl, rfl⟩ := hkey
          cases ht
          exact .inr List.mem_cons_self
        · exact .inl ht
      · exact .inr (List.mem_cons_of_mem d hmem)

theorem mem_builtinMethods {c : Class} {name : String} {m : Method}
    (h : MethodTable.builtin.lookup c name = some m) : (c, name, m) ∈ builtinMethods := by
  obtain hnone | hmem := MethodTable.mem_of_lookup_defineAll h
  · cases hnone
  · exact hmem

theorem confined_times (receiver : Value) (args : List Value) :
    (Integer.timesMethod.withBlock receiver args).run.Confined S := by
  refine confined_iteration fun it hit => ?_
  split at hit
  · cases hit
    exact confined_attempt_bind trivial fun _ => Integer.confined_timesBody _
  · cases hit

theorem confined_upto (receiver : Value) (args : List Value) :
    (Integer.uptoMethod.withBlock receiver args).run.Confined S := by
  refine confined_iteration fun it hit => ?_
  split at hit
  · cases hit
    refine confined_attempt_bind trivial fun _ => ?_
    exact confined_attempt_bind trivial fun _ => Integer.confined_uptoBody _ _
  · cases hit

theorem confined_integerSucc (receiver : Value) (args : List Value) :
    (Integer.succMethod.plain receiver args).run.Confined S := by
  refine confined_attempt_bind trivial fun _ => confined_attempt_bind trivial fun n => ?_
  exact confined_attempt_bind trivial fun _ => trivial

theorem confined_stringSucc (receiver : Value) (args : List Value) :
    (stringSuccMethod.plain receiver args).run.Confined S := by
  refine confined_attempt_bind trivial fun _ => ?_
  cases receiver <;> trivial

theorem confined_rangeEach (receiver : Value) (args : List Value) :
    (Range.eachMethod.withBlock receiver args).run.Confined S := by
  refine confined_iteration fun it hit => ?_
  split at hit
  · cases hit
  · split at hit
    · cases hit
      refine confined_attempt_bind (confined_forEach (Steppable.confined_stepRange _ _ _) fun v => ?_)
        fun _ => trivial
      exact confined_attempt_bind trivial fun _ _ => trivial
    · cases hit

theorem confined_part (name : String) (part : Range → Value) (receiver : Value) (args : List Value) :
    ((Range.partMethod name part).plain receiver args).run.Confined S :=
  confined_attempt_bind trivial fun _ => confined_attempt_bind trivial fun _ => trivial

theorem confined_arrayEach (receiver : Value) (args : List Value) :
    (Items.eachMethod.withBlock receiver args).run.Confined S := by
  refine confined_iteration fun it hit => ?_
  split at hit
  · cases hit
  · split at hit
    · cases hit
      exact confined_attempt_bind (Items.confined_step _) fun _ => trivial
    · cases hit

theorem touched_each (receiver : Value) : touched receiver "each" [] = touched receiver "to_a" [] := by
  cases receiver <;> rfl

theorem confined_toArray {receiver : Value} {args : List Value} (h : TouchesOnly S receiver "to_a" args) :
    (toArrayMethod.plain receiver args).run.Confined S := by
  cases args with
  | cons => trivial
  | nil =>
      rw [TouchesOnly, ← touched_each] at h
      have heach : (Attempt.invoke receiver "each" []).run.Confined S := ⟨h, fun _ => trivial⟩
      exact confined_attempt_bind trivial fun _ =>
        confined_attempt_bind (confined_collect heach) fun _ => trivial

theorem confined_enumeratorEach {receiver : Value} {args : List Value}
    (h : TouchesOnly S receiver "each" args) :
    (Enumerator.eachMethod.withBlock receiver args).run.Confined S := by
  cases args with
  | cons => trivial
  | nil =>
      cases receiver with
      | enumerator => exact ⟨h, fun _ => trivial⟩
      | _ => trivial

theorem confined_pull {name : String} {pull : Enumerator → Attempt Empty Value} {receiver : Value}
    {args : List Value} (h : ∀ e : Enumerator, receiver = e.toValue → args = [] → (pull e).run.Confined S) :
    ((Enumerator.pullMethod name pull).plain receiver args).run.Confined S := by
  cases args with
  | cons => trivial
  | nil =>
      cases receiver with
      | enumerator id receiver method bound => exact h ⟨id, receiver, method, bound⟩ rfl rfl
      | _ => trivial

section Builtins

variable {receiver : Value} {name : String} {args : List Value} {m : Method}

theorem confined_integerMethods (hm : (receiver.classOf, name, m) ∈ integerMethods) :
    (m.withBlock receiver args).run.Confined S := by
  simp only [integerMethods, List.mem_cons, List.not_mem_nil, or_false, Prod.mk.injEq] at hm
  obtain ⟨-, -, rfl⟩ | ⟨-, -, rfl⟩ | ⟨-, -, rfl⟩ := hm
  · exact confined_times receiver args
  · exact confined_upto receiver args
  · exact (confined_integerSucc receiver args).lift

theorem confined_rangeMethods (hm : (receiver.classOf, name, m) ∈ rangeMethods) :
    (m.withBlock receiver args).run.Confined S := by
  simp only [rangeMethods, List.mem_cons, List.not_mem_nil, or_false, Prod.mk.injEq] at hm
  obtain ⟨-, -, rfl⟩ | ⟨-, -, rfl⟩ | ⟨-, -, rfl⟩ | ⟨-, -, rfl⟩ := hm
  · exact confined_rangeEach receiver args
  all_goals exact (confined_part _ _ receiver args).lift

theorem confined_enumeratorMethods (hm : (receiver.classOf, name, m) ∈ enumeratorMethods)
    (h : TouchesOnly S receiver name args) : (m.withBlock receiver args).run.Confined S := by
  simp only [enumeratorMethods, List.mem_cons, List.not_mem_nil, or_false, Prod.mk.injEq] at hm
  obtain ⟨-, rfl, rfl⟩ | ⟨-, rfl, rfl⟩ | ⟨-, rfl, rfl⟩ | ⟨-, rfl, rfl⟩ := hm
  · exact confined_enumeratorEach h
  · refine (confined_pull ?_).lift
    rintro e rfl rfl
    exact ⟨h, fun _ => trivial⟩
  · refine (confined_pull ?_).lift
    rintro e rfl rfl
    exact ⟨h, fun _ => trivial⟩
  · refine (confined_pull ?_).lift
    rintro e rfl rfl
    exact ⟨h e.id List.mem_cons_self, trivial⟩

theorem confined_collectionMethods (hm : (receiver.classOf, name, m) ∈ collectionMethods)
    (h : TouchesOnly S receiver name args) : (m.withBlock receiver args).run.Confined S := by
  rw [collectionMethods, List.mem_cons, List.mem_map, Prod.mk.injEq, Prod.mk.injEq] at hm
  obtain ⟨-, -, rfl⟩ | ⟨c, -, hc⟩ := hm
  · exact confined_arrayEach receiver args
  · obtain ⟨-, hname⟩ := Prod.mk.inj hc
    obtain ⟨rfl, rfl⟩ := Prod.mk.inj hname
    exact (confined_toArray h).lift

/-- Every built-in method is confined to what its call touches. -/
theorem confined_method (hm : (receiver.classOf, name, m) ∈ builtinMethods)
    (h : TouchesOnly S receiver name args) : (m.withBlock receiver args).run.Confined S := by
  simp only [builtinMethods, List.mem_append, or_assoc] at hm
  obtain hm | hm | hm | hm | hm := hm
  · exact confined_integerMethods hm
  · exact confined_rangeMethods hm
  · obtain ⟨-, hm⟩ := Prod.mk.inj (List.mem_singleton.1 hm)
    obtain ⟨-, rfl⟩ := Prod.mk.inj hm
    exact (confined_stringSucc receiver args).lift
  · exact confined_enumeratorMethods hm h
  · exact confined_collectionMethods hm h

theorem confined_succ (hm : (receiver.classOf, "succ", m) ∈ builtinMethods) (args : List Value) :
    (m.plain receiver args).run.Confined S := by
  simp only [builtinMethods, integerMethods, rangeMethods, stringMethods, enumeratorMethods, collectionMethods,
    List.map_cons, List.map_nil, List.cons_append, List.nil_append, List.mem_cons, List.not_mem_nil,
    Prod.mk.injEq, String.reduceEq, false_and, and_false, true_and, false_or, or_false] at hm
  obtain ⟨-, rfl⟩ | ⟨-, rfl⟩ := hm
  · exact confined_integerSucc receiver args
  · exact confined_stringSucc receiver args

end Builtins

end Methods

namespace Routine

variable {ι κ α β σ : Type} {S : Nat → Prop} {w v w' v' : Session}

theorem hop_local {c : Routine ι α} {q : Routine ι α × Session} (hc : c.Confined S) (h : Agree S w v)
    (hq : c.hop w = some q) :
    ∃ v', c.hop v = some (q.1, v') ∧ Advances S w v q.2 v' ∧ q.1.Confined S := by
  cases c with
  | pure | yield | drive | next | peek => cases hq
  | define | enumerate => exact hc.elim
  | loop s body k =>
      cases hq
      refine ⟨v, rfl, .refl h, (hc.1 s).bind fun r => ?_⟩
      cases r with
      | inl s => exact hc
      | inr b => exact hc.2 b
  | respondsTo receiver method k =>
      cases hq
      exact ⟨v, by rw [hop, h.find], .refl h, hc _⟩
  | rewind e k =>
      cases hq
      exact ⟨_, rfl, (Advances.refl h).rewind hc.1, hc.2⟩
  | note n k =>
      cases hq
      exact ⟨_, rfl, (Advances.refl h).note n, hc⟩
  | invoke receiver method args k =>
      cases hq
      rw [hop_invoke, h.find]
      cases hm : w.find receiver method with
      | none => exact ⟨v, rfl, .refl h, hc.2 _⟩
      | some m =>
          rw [Session.find, h.left] at hm
          exact ⟨_, rfl, (Advances.refl h).note _, (confined_method (mem_builtinMethods hm) hc.1).bind hc.2⟩
  | send receiver method args k =>
      cases hq
      obtain ⟨rfl, hk⟩ := hc
      rw [hop_send, h.find]
      cases hm : w.find receiver "succ" with
      | none => exact ⟨v, rfl, .refl h, hk _⟩
      | some m =>
          rw [Session.find, h.left] at hm
          exact ⟨_, rfl, (Advances.refl h).note _,
            (confined_succ (mem_builtinMethods hm) args).lift.bind hk⟩

/-- From sessions that agree, a confined routine comes to the same yield or end. -/
theorem resume_local {n : Nat} {c : Routine ι α} {p : Progress ι α} (hc : c.Confined S)
    (h : Agree S w v) (hp : c.resume n w = some (p, w')) :
    ∃ v', c.resume n v = some (p, v') ∧ Advances S w v w' v' ∧ p.Confined S := by
  induction n generalizing ι α c p w v w' with
  | zero => simp at hp
  | succ n ih =>
      -- A pull inside the routine runs a cursor with the steps that are left, so that it is local too.
      have hrun : Runner.Local S (fun c w => c.resume n w) := fun c w v p w' hc h hp => ih hc h hp
      cases c with
      | pure a =>
          cases hp
          exact ⟨v, rfl, .refl h, trivial⟩
      | yield x k =>
          cases hp
          exact ⟨v, rfl, .refl h, hc⟩
      | loop | invoke | send | define | respondsTo | enumerate | rewind | note =>
          rw [resume_of_hop rfl] at hp
          obtain ⟨v₁, hv₁, hfirst, hd⟩ := hop_local hc h rfl
          obtain ⟨v', hv', hrest, hpc⟩ := ih hd hfirst.agree hp
          exact ⟨v', (resume_of_hop hv₁ n).trans hv', hfirst.trans hrest, hpc⟩
      | next e k =>
          rw [resume_next] at hp ⊢
          cases ha : e.next (fun r w => r.resume n w) w with
          | none => simp [ha] at hp
          | some q =>
              obtain ⟨a, w₁⟩ := q
              rw [ha] at hp
              obtain ⟨v₁, hv₁, hfirst⟩ := Enumerator.next_local hrun hc.1 h ha
              obtain ⟨v', hv', hrest, hpc⟩ := ih (hc.2 a) hfirst.agree hp
              rw [hv₁]
              exact ⟨v', hv', hfirst.trans hrest, hpc⟩
      | peek e k =>
          rw [resume_peek] at hp ⊢
          cases ha : e.peek (fun r w => r.resume n w) w with
          | none => simp [ha] at hp
          | some q =>
              obtain ⟨a, w₁⟩ := q
              rw [ha] at hp
              obtain ⟨v₁, hv₁, hfirst⟩ := Enumerator.peek_local hrun hc.1 h ha
              obtain ⟨v', hv', hrest, hpc⟩ := ih (hc.2 a) hfirst.agree hp
              rw [hv₁]
              exact ⟨v', hv', hfirst.trans hrest, hpc⟩
      | drive source s block k =>
          rw [resume_drive] at hp ⊢
          cases hs : source.resume n w with
          | none => simp [hs] at hp
          | some q =>
              obtain ⟨b | ⟨x, rest⟩, w₁⟩ := q
              · rw [hs] at hp
                obtain ⟨v₁, hv₁, hfirst, -⟩ := ih hc.1 h hs
                obtain ⟨v', hv', hrest, hpc⟩ := ih (hc.2.2 s b) hfirst.agree hp
                rw [hv₁]
                exact ⟨v', hv', hfirst.trans hrest, hpc⟩
              · rw [hs] at hp
                obtain ⟨v₁, hv₁, hfirst, hx⟩ := ih hc.1 h hs
                have hgo : ((block s x).bind fun o => drive (rest o.2) o.1 block k).Confined S :=
                  (hc.2.1 s x).bind fun o => ⟨hx o.2, hc.2⟩
                obtain ⟨v', hv', hrest, hpc⟩ := ih hgo hfirst.agree hp
                rw [hv₁]
                exact ⟨v', hv', hfirst.trans hrest, hpc⟩

theorem Reaches.of_agree {c : Routine ι α} {p : Progress ι α} (hp : c.Reaches w p w') (hc : c.Confined S)
    (h : Agree S w v) : ∃ v', c.Reaches v p v' ∧ Advances S w v w' v' ∧ p.Confined S := by
  obtain ⟨n, hn⟩ := hp
  obtain ⟨v', hv', hadvances, hpc⟩ := resume_local hc h hn
  exact ⟨v', ⟨n, hv'⟩, hadvances, hpc⟩

theorem Calls.of_agree {block : σ → κ → Routine ι (σ × Except Error Unit)} {c d : Routine κ β} {s t : σ}
    {calls : List (κ × Except Error Unit)} (hcalls : Calls block c s w calls d t w')
    (hblock : ∀ s x, (block s x).Confined S) (hc : c.Confined S) (h : Agree S w v) :
    ∃ v', Calls block c s v calls d t v' ∧ Advances S w v w' v' ∧ d.Confined S := by
  induction hcalls generalizing v with
  | none c s w => exact ⟨v, .none c s v, .refl h, hc⟩
  | call hyield hanswer _ ih =>
      obtain ⟨v₁, hv₁, hfirst, hrest⟩ := hyield.of_agree hc h
      obtain ⟨v₂, hv₂, hsecond, -⟩ := hanswer.of_agree (hblock _ _) hfirst.agree
      obtain ⟨v', hv', hlast, hd⟩ := ih (hrest _) hsecond.agree
      exact ⟨v', .call hv₁ hv₂ hv', (hfirst.trans hsecond).trans hlast, hd⟩

end Routine

end Stepwise
