import Stepwise.Proofs.Position

namespace Stepwise

open Routine

namespace Course

variable {ι κ α β : Type} {t : Course ι α}

def Ends (t : Course ι α) : Prop := ∃ n a, t.event n = .inr a

theorem ends_done (a : α) : (done a : Course ι α).Ends := ⟨0, a, rfl⟩

theorem ends_cons {x : ι} : (cons x t).Ends ↔ t.Ends := by
  constructor
  · rintro ⟨n, a, hn⟩
    cases n with
    | zero => simp at hn
    | succ n => exact ⟨n, a, hn⟩
  · rintro ⟨n, a, hn⟩
    exact ⟨n + 1, a, hn⟩

theorem ends_ofList (xs : List ι) (a : α) : (ofList xs a).Ends := by
  induction xs with
  | nil => exact ends_done a
  | cons x xs ih => exact ends_cons.2 ih

theorem ends_map {f : ι → κ} {g : α → β} : (t.map f g).Ends ↔ t.Ends := by
  constructor
  · rintro ⟨n, b, hn⟩
    cases ht : t.event n with
    | inl x => simp [map, ht] at hn
    | inr a => exact ⟨n, a, ht⟩
  · rintro ⟨n, a, hn⟩
    exact ⟨n, g a, by simp [map, hn]⟩

theorem Ends.eq_ofList (h : t.Ends) : ∃ xs a, t = ofList xs a := by
  obtain ⟨n, a, hn⟩ := h
  induction n generalizing t with
  | zero => exact ⟨[], a, eq_done hn⟩
  | succ n ih =>
      obtain ⟨b, rfl⟩ | ⟨x, u, rfl⟩ := t.done_or_cons
      · exact ⟨[], b, rfl⟩
      · obtain ⟨xs, b, hb⟩ := ih (t := u) hn
        exact ⟨x :: xs, b, by rw [ofList_cons, ← hb]⟩

theorem done_inj {a b : α} : (done a : Course ι α) = done b ↔ a = b :=
  ⟨fun h => Sum.inr.inj (congrArg (event · 0) h), fun h => congrArg done h⟩

theorem cons_inj {x y : ι} {t u : Course ι α} : cons x t = cons y u ↔ x = y ∧ t = u := by
  constructor
  · intro h
    exact ⟨Sum.inl.inj (congrArg (event · 0) h), congrArg tail h⟩
  · rintro ⟨rfl, rfl⟩
    rfl

theorem cons_ne_done {x : ι} {a : α} : cons x t ≠ done a := by
  intro h
  cases congrArg (event · 0) h

theorem ofList_inj {xs ys : List ι} {a b : α} : ofList xs a = ofList ys b ↔ xs = ys ∧ a = b := by
  induction xs generalizing ys with
  | nil =>
      cases ys with
      | nil => simp [done_inj]
      | cons y ys => simpa using cons_ne_done.symm
  | cons x xs ih =>
      cases ys with
      | nil => simpa using cons_ne_done
      | cons y ys => simp [cons_inj, ih, and_assoc]

theorem exists_of_map_eq_ofList {f : ι → κ} {g : α → β} {ys : List κ} {b : β}
    (h : t.map f g = ofList ys b) : ∃ xs a, t = ofList xs a ∧ ys = xs.map f ∧ b = g a := by
  obtain ⟨xs, a, rfl⟩ := (ends_map.1 (h ▸ ends_ofList ys b)).eq_ofList
  rw [map_ofList, ofList_inj] at h
  exact ⟨xs, a, rfl, h.1.symm, h.2.symm⟩

variable {P : α → Prop}

def EndsIn (P : α → Prop) (t : Course ι α) : Prop := ∀ k a, t.event k = .inr a → P a

theorem endsIn_done {a : α} (h : P a) : (done a : Course ι α).EndsIn P := by
  intro k b hb
  rwa [← Sum.inr.inj hb]

theorem EndsIn.cons {x : ι} (h : t.EndsIn P) : (cons x t).EndsIn P := by
  intro k a ha
  cases k with
  | zero => cases ha
  | succ k => exact h k a ha

theorem EndsIn.tail (h : t.EndsIn P) : t.tail.EndsIn P := fun k => h (k + 1)

theorem endsIn_ofList {xs : List ι} {a : α} : (ofList xs a).EndsIn P ↔ P a := by
  induction xs with
  | nil => exact ⟨fun h => h 0 a rfl, endsIn_done⟩
  | cons x xs ih => exact ⟨fun h => ih.1 h.tail, fun h => (ih.2 h).cons⟩

theorem EndsIn.map {Q : β → Prop} {f : ι → κ} {g : α → β} (h : t.EndsIn P)
    (hg : ∀ a, P a → Q (g a)) : (t.map f g).EndsIn Q := by
  intro k b hb
  cases ht : t.event k with
  | inl x => simp [Course.map, ht] at hb
  | inr a =>
      obtain rfl : g a = b := by simpa [Course.map, ht] using hb
      exact hg a (h k a ht)

theorem endsIn_unfold {σ : Type} {step : σ → (ι × σ) ⊕ α} {I : σ → Prop}
    (hnext : ∀ s x s', I s → step s = .inl (x, s') → I s') (hend : ∀ s a, I s → step s = .inr a → P a)
    {s : σ} (hs : I s) : (unfold step s).EndsIn P := by
  intro k a ha
  induction k generalizing s with
  | zero =>
      cases hstep : step s with
      | inl p =>
          rw [unfold_of_inl hstep] at ha
          cases ha
      | inr b =>
          rw [unfold_of_inr hstep] at ha
          exact endsIn_done (hend s b hs hstep) 0 a ha
  | succ k ih =>
      cases hstep : step s with
      | inl p =>
          rw [unfold_of_inl hstep] at ha
          exact ih (hnext s p.1 p.2 hs hstep) ha
      | inr b =>
          rw [unfold_of_inr hstep] at ha
          exact endsIn_done (hend s b hs hstep) 0 a ha

end Course

section Genuine

/-- The result is no report that an iteration is over. Only pulling gives such a report. -/
def Genuine {α : Type} (r : Except Error α) : Prop := r ≠ .error .stopIteration

theorem genuine_ok {α : Type} (a : α) : Genuine (.ok a) := nofun

theorem Value.genuine_next (v : Value) : Genuine v.next := by
  cases v with
  | int n =>
      rw [next, integerSucc]
      split <;> simp [Genuine, Except.map]
  | _ => simp [Genuine, next]

theorem Value.genuine_asInt (v : Value) : Genuine v.asInt := by
  cases v <;> simp [Genuine, asInt, mismatch]

variable {τ σ β : Type} [Steppable τ]

theorem endsIn_unfold_stage {ι : Type} {pass : σ → (ι × Except Error (σ ⊕ β)) ⊕ Except Error β}
    (hyield : ∀ s x r, pass s = .inl (x, r) → Genuine r) (hend : ∀ s r, pass s = .inr r → Genuine r)
    (s : σ) : (Course.unfold (Stage.step pass) (.inl s)).EndsIn Genuine := by
  refine Course.endsIn_unfold (I := fun stage => ∀ r, stage = .inr r → Genuine r) ?_ ?_ nofun
  · rintro (s | r) x s' hs hstep
    · cases hp : pass s with
      | inr r => simp [Stage.step, hp] at hstep
      | inl p =>
          obtain ⟨-, rfl⟩ : p.1 = x ∧ Stage.after p.2 = s' := by simpa [Stage.step, hp] using hstep
          have hr := hyield s p.1 p.2 hp
          rcases hresult : p.2 with err | s'' | b
          · rintro r ⟨⟩
            simpa [hresult, Genuine] using hr
          · rintro r ⟨⟩
          · rintro r ⟨⟩
            exact genuine_ok b
    · cases hstep
  · rintro (s | r) a hs hstep
    · cases hp : pass s with
      | inl p => simp [Stage.step, hp] at hstep
      | inr r =>
          obtain rfl : r = a := by simpa [Stage.step, hp] using hstep
          exact hend s r hp
    · exact hs a (by rw [← Sum.inr.inj hstep])

theorem Steppable.boundedPass_cases (next : τ → Except Error τ) (last : τ) (excludeEnd : Bool) (v : τ) :
    boundedPass next last excludeEnd v = .inl (v, (next v).map .inl) ∨
    boundedPass next last excludeEnd v = .inl (v, .ok (.inr ())) ∨
    boundedPass next last excludeEnd v = .inr (.ok ()) ∨
    ∃ left right, boundedPass next last excludeEnd v = .inr (.error (.comparisonFailed left right)) := by
  rw [boundedPass, ordering]
  cases compare v last with
  | none => exact .inr (.inr (.inr ⟨_, _, rfl⟩))
  | some o =>
      cases o with
      | lt => exact .inl rfl
      | gt => exact .inr (.inr (.inl rfl))
      | eq =>
          cases excludeEnd with
          | true => exact .inr (.inr (.inl rfl))
          | false => exact .inr (.inl rfl)

theorem Steppable.endsIn_course {next : τ → Except Error τ} (hnext : ∀ v, Genuine (next v)) (first : τ)
    (last? : Option τ) (excludeEnd : Bool) : (course next first last? excludeEnd).EndsIn Genuine := by
  have hadvance (v : τ) : Genuine ((next v).map (Sum.inl (β := Unit))) := by
    have hv := hnext v
    cases h : next v with
    | ok v' => exact genuine_ok _
    | error err => simpa [h, Genuine, Except.map] using hv
  cases last? with
  | none =>
      refine endsIn_unfold_stage (fun v x r h => ?_) (fun v r h => ?_) first
      · cases h
        exact hadvance v
      · cases h
  | some last =>
      refine endsIn_unfold_stage (fun v x r h => ?_) (fun v r h => ?_) first
      · obtain hv | hv | hv | ⟨l, o, hv⟩ := boundedPass_cases next last excludeEnd v
        · obtain ⟨-, rfl⟩ := by simpa [hv] using h
          exact hadvance v
        · obtain ⟨-, rfl⟩ := by simpa [hv] using h
          exact genuine_ok _
        · simp [hv] at h
        · simp [hv] at h
      · obtain hv | hv | hv | ⟨l, o, hv⟩ := boundedPass_cases next last excludeEnd v
        · simp [hv] at h
        · simp [hv] at h
        · obtain rfl := by simpa [hv] using h
          exact genuine_ok _
        · obtain rfl := by simpa [hv] using h
          simp [Genuine]

theorem Range.endsIn_course (r : Range) : r.course.EndsIn Genuine := by
  unfold course
  split
  · exact Steppable.endsIn_course Value.genuine_next _ _ _
  · exact Course.endsIn_done (by simp [Genuine])

/-- No iteration call ends with the report that an iteration is over. -/
theorem endsIn_callCourse (receiver : Value) (method : String) (args : List Value) :
    (callCourse receiver method args).EndsIn Genuine := by
  fun_induction callCourse receiver method args with
  | case1 | case3 | case6 => exact Course.endsIn_ofList.2 (genuine_ok _)
  | case2 | case5 | case7 | case9 | case11 | case12 => exact Course.endsIn_done (by simp [Genuine])
  | case4 start args _ err herr =>
      have h := (args.headD .nil).genuine_asInt
      rw [herr] at h
      exact Course.endsIn_done (by simpa [Genuine] using h)
  | case8 =>
      refine (Range.endsIn_course _).map ?_
      rintro (err | _) h
      · simpa [Genuine, Except.map] using h
      · exact genuine_ok _
  | case10 _ _ _ _ _ _ ih => exact ih

end Genuine

namespace Routine

variable {ι κ α β σ : Type} {block : σ → κ → Routine ι (σ × Except Error Unit)} {c d : Routine κ β}
  {t : Course κ β} {fail : Error → β} {s s' : σ} {w w' : Session}
  {calls : List (κ × Except Error Unit)}

/-- With the built-in methods, every call of the block comes to its end with success and keeps the
methods. -/
def Succeeds (block : σ → κ → Routine ι (σ × Except Error Unit)) : Prop :=
  ∀ s x w, w.methods = .builtin →
    ∃ s' w', (block s x).Reaches w (.done (s', .ok ())) w' ∧ w'.methods = .builtin

theorem Follows.of_calls_succeed (hc : Follows fail c t) (hblock : Succeeds block)
    (hw : w.methods = .builtin) (hcalls : Calls block c s w calls d s' w') :
    w'.methods = .builtin ∧ Follows fail d (t.drop calls.length) := by
  induction hcalls generalizing t with
  | none =>
      rw [List.length_nil, Course.drop_zero]
      exact ⟨hw, hc⟩
  | call hyield hanswer _ ih =>
      obtain ⟨hv, hx, hk⟩ := hc.of_reaches_yielded hw hyield
      obtain ⟨s₂, v₂, hb, hm⟩ := hblock _ _ _ ((Session.methods_of_unlogged hv).trans hw)
      obtain ⟨ho, rfl⟩ := hanswer.unique hb
      obtain ⟨rfl, rfl⟩ := Prod.mk.inj (Progress.done.inj ho)
      have hrest := ih (hk (.ok ())) hm
      rwa [Course.respond, Course.drop_tail] at hrest

theorem Follows.exists_call (hc : Follows fail c t) (hblock : Succeeds block)
    (hw : w.methods = .builtin) {x : κ} (hx : t.event 0 = .inl x) (s : σ) :
    ∃ rest w₁ s' w₂, c.Reaches w (.yielded x rest) w₁ ∧
      (block s x).Reaches w₁ (.done (s', .ok ())) w₂ ∧ w₂.methods = .builtin ∧
      Follows fail (rest (.ok ())) t.tail := by
  obtain ⟨p, w₁, hp, hu, ht⟩ := hc.reaches hw
  cases p with
  | done a => simp [ht] at hx
  | yielded y rest =>
      obtain ⟨hy, hk⟩ := ht
      obtain rfl : y = x := by simpa [hy] using hx
      obtain ⟨s', w₂, hb, hm⟩ := hblock s y w₁ ((Session.methods_of_unlogged hu).trans hw)
      exact ⟨rest, w₁, s', w₂, hp, hb, hm, hk (.ok ())⟩

theorem Follows.exists_calls_of_ends (hc : Follows fail c t) (hblock : Succeeds block)
    (hw : w.methods = .builtin) {xs : List κ} {a : β} (ht : t = .ofList xs a) (s : σ) :
    ∃ calls d s' w₁ w', Calls block c s w calls d s' w₁ ∧ d.Reaches w₁ (.done a) w' ∧
      calls.length = xs.length := by
  induction xs generalizing c t s w with
  | nil =>
      subst ht
      obtain ⟨w', hr, -⟩ := (follows_done.1 hc).reaches hw (reaches_pure.2 ⟨rfl, rfl⟩)
      exact ⟨[], c, s, w, w', .none c s w, hr, rfl⟩
  | cons x xs ih =>
      subst ht
      obtain ⟨rest, w₁, s₁, w₂, hy, hb, hm, hrest⟩ := hc.exists_call hblock hw rfl s
      obtain ⟨calls, d, s', w₃, w', hcalls, hd, hlen⟩ := ih hrest hm rfl s₁
      exact ⟨(x, .ok ()) :: calls, d, s', w₃, w', .call hy hb hcalls, hd, congrArg (· + 1) hlen⟩

theorem Follows.exists_calls_of_not_ends (hc : Follows fail c t) (hblock : Succeeds block)
    (hw : w.methods = .builtin) (ht : ¬ t.Ends) (n : Nat) (s : σ) :
    ∃ calls d s' w', Calls block c s w calls d s' w' ∧ calls.length = n := by
  induction n generalizing c t s w with
  | zero => exact ⟨[], c, s, w, .none c s w, rfl⟩
  | succ n ih =>
      obtain ⟨a, rfl⟩ | ⟨x, u, rfl⟩ := t.done_or_cons
      · exact absurd (Course.ends_done a) ht
      · obtain ⟨rest, w₁, s₁, w₂, hy, hb, hm, hrest⟩ := hc.exists_call hblock hw rfl s
        obtain ⟨calls, d, s', w', hcalls, hlen⟩ := ih hrest hm (fun h => ht (Course.ends_cons.2 h)) s₁
        exact ⟨(x, .ok ()) :: calls, d, s', w', .call hy hb hcalls, congrArg (· + 1) hlen⟩

theorem Follows.ends_of_calls (hc : Follows fail c t) (hblock : Succeeds block)
    (hw : w.methods = .builtin) (hcalls : Calls block c s w calls d s' w') {a : β} {v : Session}
    (hd : d.Reaches w' (.done a) v) : t.Ends := by
  obtain ⟨hm, hfollows⟩ := hc.of_calls_succeed hblock hw hcalls
  obtain ⟨-, he⟩ := hfollows.of_reaches_done hm hd
  exact ⟨calls.length, a, he⟩

/-- With every yield answered by success, the routine comes to its end. -/
inductive Finishes {ι α : Type} : Routine ι α → Session → α → Session → Prop
  | done {c : Routine ι α} {w w' : Session} {a : α} (h : c.Reaches w (.done a) w') :
      Finishes c w a w'
  | yielded {c : Routine ι α} {w w₁ w' : Session} {a : α} {x : ι}
      {k : Except Error Unit → Routine ι α} (h : c.Reaches w (.yielded x k) w₁)
      (hrest : Finishes (k (.ok ())) w₁ a w') : Finishes c w a w'

theorem finishes_bind {c : Routine ι α} {f : α → Routine ι β} {b : β} :
    Finishes (c.bind f) w b w' ↔ ∃ a v, Finishes c w a v ∧ Finishes (f a) v b w' := by
  constructor
  · intro h
    generalize hd : c.bind f = d at h
    induction h generalizing c with
    | done h =>
        subst hd
        obtain ⟨q, v, hq, hf⟩ := reaches_bind.1 h
        cases q with
        | done a => exact ⟨a, v, .done hq, .done hf⟩
        | yielded x k => simp [Continues] at hf
    | yielded h hrest ih =>
        subst hd
        obtain ⟨q, v, hq, hf⟩ := reaches_bind.1 h
        cases q with
        | done a => exact ⟨a, v, .done hq, .yielded hf hrest⟩
        | yielded x k =>
            obtain ⟨hp, rfl⟩ := hf
            obtain ⟨rfl, rfl⟩ := Progress.yielded.inj hp
            obtain ⟨a, u, hc, ha⟩ := ih rfl
            exact ⟨a, u, .yielded hq hc, ha⟩
  · rintro ⟨a, v, hc, hf⟩
    induction hc with
    | done h =>
        cases hf with
        | done h' => exact .done (reaches_bind.2 ⟨_, _, h, h'⟩)
        | yielded h' hrest => exact .yielded (reaches_bind.2 ⟨_, _, h, h'⟩) hrest
    | yielded h _ ih => exact .yielded (reaches_bind.2 ⟨_, _, h, rfl, rfl⟩) (ih hf)

theorem finishes_bind_of_reaches {c : Routine ι α} {f : α → Routine ι β} {a : α} {v : Session}
    (h : c.Reaches w (.done a) v) {b : β} :
    Finishes (c.bind f) w b w' ↔ Finishes (f a) v b w' := by
  rw [finishes_bind]
  constructor
  · rintro ⟨a', v', ha, hf⟩
    cases ha with
    | done h' =>
        obtain ⟨hp, rfl⟩ := h.unique h'
        cases hp
        exact hf
    | yielded h' => cases (h.unique h').1
  · intro hf
    exact ⟨a, v, .done h, hf⟩

theorem exists_finishes_bind_iff {c : Routine ι α} {f : α → Routine ι β}
    (hf : ∀ a v, ∃ b w', Finishes (f a) v b w') :
    (∃ b w', Finishes (c.bind f) w b w') ↔ ∃ a w', Finishes c w a w' := by
  constructor
  · rintro ⟨b, w', h⟩
    obtain ⟨a, v, ha, -⟩ := finishes_bind.1 h
    exact ⟨a, v, ha⟩
  · rintro ⟨a, v, ha⟩
    obtain ⟨b, w', hb⟩ := hf a v
    exact ⟨b, w', finishes_bind.2 ⟨a, v, ha, hb⟩⟩

theorem Follows.finishes_iff (hc : Follows fail c t) (hw : w.methods = .builtin) :
    (∃ a w', Finishes c w a w') ↔ t.Ends := by
  constructor
  · rintro ⟨a, w', h⟩
    induction h generalizing t with
    | done h => exact ⟨0, _, (hc.of_reaches_done hw h).2⟩
    | yielded h _ ih =>
        obtain ⟨hu, hx, hk⟩ := hc.of_reaches_yielded hw h
        rw [Course.eq_cons hx, Course.ends_cons]
        exact ih (hk (.ok ())) ((Session.methods_of_unlogged hu).trans hw)
  · intro h
    obtain ⟨xs, a, rfl⟩ := h.eq_ofList
    clear h
    induction xs generalizing c w with
    | nil =>
        obtain ⟨w', hr, -⟩ := (follows_done.1 hc).reaches hw (reaches_pure.2 ⟨rfl, rfl⟩)
        exact ⟨a, w', .done hr⟩
    | cons x xs ih =>
        obtain ⟨k, hk, hrest, -⟩ := follows_cons.1 hc
        obtain ⟨w₁, hy, hu⟩ := hk.reaches hw (reaches_yield.2 ⟨rfl, rfl⟩)
        obtain ⟨b, w', hb⟩ := ih ((Session.methods_of_unlogged hu).trans hw) hrest
        exact ⟨b, w', .yielded hy hb⟩

theorem finishes_iff_calls {I : σ → Prop}
    (hblock : ∀ s x, I s → ∃ s', block s x = pure (s', .ok ()) ∧ I s') (hs : I s) {b : β} :
    Finishes c w b w' ↔
      ∃ calls d s' v, Calls block c s w calls d s' v ∧ d.Reaches v (.done b) w' := by
  constructor
  · intro h
    induction h generalizing s with
    | done h => exact ⟨[], _, s, _, .none _ s _, h⟩
    | @yielded c w w₁ w' a x k h _ ih =>
        obtain ⟨s₁, hb, hs₁⟩ := hblock s x hs
        obtain ⟨calls, d, s', v, hcalls, hd⟩ := ih hs₁
        have hanswer : (block s x).Reaches w₁ (.done (s₁, .ok ())) w₁ := by
          rw [hb]
          exact reaches_pure.2 ⟨rfl, rfl⟩
        exact ⟨(x, .ok ()) :: calls, d, s', v, .call h hanswer hcalls, hd⟩
  · rintro ⟨calls, d, s', v, hc, hd⟩
    induction hc with
    | none => exact .done hd
    | call hyield hanswer _ ih =>
        obtain ⟨s₁, hb, hs₁⟩ := hblock _ _ hs
        rw [hb] at hanswer
        obtain ⟨ho, rfl⟩ := reaches_pure.1 hanswer
        obtain ⟨rfl, rfl⟩ := Prod.mk.inj (Progress.done.inj ho)
        exact .yielded hyield (ih hs₁ hd)

end Routine

theorem finishes_collect_iff {ι : Type} {source : Producer} {w : Session} :
    (∃ r w', Finishes (Attempt.collect source : Attempt ι (List Value)).run w r w') ↔
      ∃ b w', Finishes source.run w b w' := by
  have hcollecting (s x : List Value) (_ : True) :
      ∃ s', (collecting s x : Routine ι _) = .pure (s', .ok ()) ∧ True := ⟨_, rfl, trivial⟩
  constructor
  · rintro ⟨r, w', h⟩
    have hstep {p : Progress ι (Except Error (List Value))} {v : Session}
        (h : (Attempt.collect source : Attempt ι (List Value)).run.Reaches w p v) :
        ∃ b w', Finishes source.run w b w' := by
      obtain ⟨n, hn⟩ := h
      obtain ⟨calls, d, s, v, hcalls, ⟨b, v', hd, -⟩ | ⟨x, rest, v', y, l, -, hy, -⟩⟩ :=
        exists_calls_of_resume hn
      · exact ⟨b, v', (finishes_iff_calls hcollecting trivial).2 ⟨calls, d, s, v, hcalls, hd⟩⟩
      · simp [reaches_pure] at hy
    cases h with
    | done h => exact hstep h
    | yielded h => exact hstep h
  · rintro ⟨b, w', h⟩
    obtain ⟨calls, d, s, v, hcalls, hd⟩ :=
      (finishes_iff_calls (s := []) hcollecting trivial).1 h
    cases b with
    | ok y =>
        exact ⟨_, _, .done (reaches_drive_done.2 ⟨calls, d, s, v, .ok y, w', hcalls, hd,
          reaches_note.2 (reaches_pure.2 ⟨rfl, rfl⟩)⟩)⟩
    | error err =>
        exact ⟨_, _, .done (reaches_drive_done.2 ⟨calls, d, s, v, .error err, w', hcalls, hd,
          reaches_pure.2 ⟨rfl, rfl⟩⟩)⟩

end Stepwise
