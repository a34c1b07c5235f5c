import Stepwise.Proofs.BuiltinCalls
import Stepwise.Proofs.Pulling

namespace Stepwise

open Routine

abbrev CallCourse := Course (List Value) (Except Error Value)

/-- Where the machine stands: before an element or before the end, or after the end was reported. -/
inductive Position
  | before (p : Nat)
  | exhausted

namespace Position

def pull (t : CallCourse) : Position → Except Error Value
  | before p =>
    match t.event p with
    | .inl args => .ok (Value.pack args)
    | .inr (.ok _) => .error .stopIteration
    | .inr (.error err) => .error err
  | exhausted => .error .stopIteration

def next (t : CallCourse) : Position → Position
  | before p => if (t.event p).isLeft then before (p + 1) else exhausted
  | exhausted => exhausted

def peek (t : CallCourse) : Position → Position
  | before p => if (t.event p).isLeft then before p else exhausted
  | exhausted => exhausted

/-- What the machine answers. Driving and collecting do not see the position: the block gets the calls
of the whole course, up to the first that it answers with an error. -/
inductive Answers (t : CallCourse) : Operation → Position → Answer → Position → Prop
  | next (p : Position) : Answers t .next p (.pulled (p.pull t)) (p.next t)
  | peek (p : Position) : Answers t .peek p (.pulled (p.pull t)) (p.peek t)
  | rewind (p : Position) : Answers t .rewind p .rewound (before 0)
  | drive {σ : Type} (s : σ) (block : σ → List Value → Routine Empty (σ × Except Error Unit))
      (p : Position) {calls : List (List Value × Except Error Unit)} {r : Except Error Value}
      (hcalls : t.Admits .error calls) (hend : (t.after .error calls).event 0 = .inr r) :
      Answers t (.drive s block) p (.driven calls r) p
  | toArray (p : Position) {items : List (List Value)} {r : Except Error Value}
      (h : t = .ofList items r) :
      Answers t .toArray p (.collected (r.map fun _ => items.map Value.pack)) p

end Position

inductive Remembers (t : CallCourse) : External → Position → Prop
  | fresh : Remembers t {} (.before 0)
  | ready {c : Routine (List Value) (Except Error Value)} {p : Nat}
      (h : Follows .error c (t.drop p)) :
      Remembers t { cursor := some (.suspended c) } (.before p)
  | peeked {c : Routine (List Value) (Except Error Value)} {p : Nat} {args : List Value}
      (hx : t.event p = .inl args) (h : Follows .error c (t.drop (p + 1))) :
      Remembers t { cursor := some (.suspended c), peeked := some (Value.pack args) } (.before p)
  | exhausted : Remembers t { done := true } .exhausted

structure Tracks (e : Enumerator) (t : CallCourse) (w : Session) (p : Position) : Prop where
  methods : w.methods = .builtin
  remembers : Remembers t (w.external e) p

section Simulation

variable {e : Enumerator} {t : CallCourse} {w w' : Session} {p : Position}

theorem Remembers.of_yielded {x : External} {c : Routine (List Value) (Except Error Value)} {p : Nat}
    (hp : x.peeked = none) (hd : x.done = false) (h : Follows .error c (t.drop p)) :
    Remembers t { x with cursor := some (.suspended c) } (.before p) := by
  rw [hp, hd]
  exact .ready h

theorem Remembers.of_finished {x : External} (hp : x.peeked = none) :
    Remembers t { x with done := true, cursor := none } .exhausted := by
  rw [hp]
  exact .exhausted

theorem advance_of_follows {c : Routine (List Value) (Except Error Value)} {v : Session} {p : Nat}
    (hw : w.methods = .builtin) (hp : (w.external e).peeked = none) (hd : (w.external e).done = false)
    (hc : e.cursorIn w = (.suspended c, v)) (hv : v.unlogged = w.unlogged)
    (h : Follows .error c (t.drop p)) :
    ∃ w', e.AdvanceGives w ((Position.before p).pull t) w' ∧ Session.SameBut e w' w ∧
      (w'.external e).peeked = none ∧ Remembers t (w'.external e) ((Position.before p).next t) := by
  obtain ⟨q, u, hq, hu, ht⟩ := h.reaches ((Session.methods_of_unlogged hv).trans hw)
  have huw : u.unlogged = w.unlogged := hu.trans hv
  cases q with
  | yielded args k =>
      obtain ⟨hx, hk⟩ := ht
      have hx : t.event p = .inl args := hx
      refine ⟨u.setExternal e { w.external e with cursor := some (.suspended (k (.ok ()))) }, ?_,
        Session.sameBut_setExternal huw _, ?_, ?_⟩
      · rw [Position.pull, hx]
        exact (Enumerator.advanceGives_of_suspended hd hc).2 ⟨_, u, hq, rfl⟩
      · rw [Session.external_setExternal, hp]
      · rw [Session.external_setExternal, Position.next, hx]
        have hrest := hk (.ok ())
        rw [Course.respond, Course.tail_drop] at hrest
        exact .of_yielded hp hd hrest
  | done r =>
      have hr : t.event p = .inr r := ht
      refine ⟨(u.note (.cursorFinished e.toValue)).setExternal e
        { w.external e with done := true, cursor := none }, ?_, Session.sameBut_setExternal huw _, ?_, ?_⟩
      · rw [Position.pull, hr]
        refine (Enumerator.advanceGives_of_suspended hd hc).2 ⟨_, u, hq, ?_⟩
        cases r <;> rfl
      · rw [Session.external_setExternal, hp]
      · rw [Session.external_setExternal, Position.next, hr]
        exact .of_finished hp

theorem Tracks.advance (he : Follows .error e.call t) (h : Tracks e t w p)
    (hp : (w.external e).peeked = none) :
    ∃ w', e.AdvanceGives w (p.pull t) w' ∧ Session.SameBut e w' w ∧
      (w'.external e).peeked = none ∧ Remembers t (w'.external e) (p.next t) := by
  obtain ⟨hw, hr⟩ := h
  generalize hx : w.external e = x at hr hp
  cases hr with
  | fresh =>
      have hc : e.cursorIn w = (.suspended e.call, w.note (.cursorStarted e.toValue)) := by
        rw [Enumerator.cursorIn, hx]
      rw [← Course.drop_zero t] at he
      exact advance_of_follows hw (by rw [hx]) (by rw [hx]) hc rfl he
  | ready h =>
      exact advance_of_follows hw (by rw [hx]) (by rw [hx]) (by rw [Enumerator.cursorIn, hx]) rfl h
  | peeked => simp at hp
  | exhausted =>
      refine ⟨w, (Enumerator.advanceGives_of_done (by rw [hx])).2 ⟨rfl, rfl⟩, rfl, ?_, ?_⟩
      · rw [hx]
      · rw [hx]
        exact .exhausted

theorem Remembers.keep {x : External} {p : Nat} {args : List Value} (hp : x.peeked = none)
    (hx : t.event p = .inl args) (h : Remembers t x (.before (p + 1))) :
    Remembers t { x with peeked := some (Value.pack args) } (.before p) := by
  cases h with
  | ready h => exact .peeked hx h
  | peeked => simp at hp

theorem Remembers.of_peeked {x : External} {v : Value} (h : Remembers t x p)
    (hp : x.peeked = some v) :
    ∃ c n args, p = .before n ∧ t.event n = .inl args ∧ v = Value.pack args ∧
      Follows .error c (t.drop (n + 1)) ∧
      { x with peeked := none } = { cursor := some (.suspended c) } := by
  cases h with
  | fresh => simp at hp
  | ready => simp at hp
  | exhausted => simp at hp
  | peeked hargs hc => exact ⟨_, _, _, rfl, hargs, (Option.some.inj hp).symm, hc, rfl⟩

theorem Tracks.next (he : Follows .error e.call t) (h : Tracks e t w p) :
    ∃ w', e.NextGives w (p.pull t) w' ∧ Session.SameBut e w' w ∧ Tracks e t w' (p.next t) := by
  cases hp : (w.external e).peeked with
  | none =>
      obtain ⟨w', hw', hs, -, hr⟩ := h.advance he hp
      exact ⟨w', (Enumerator.nextGives_of_none hp).2 hw', hs, hs.methods.trans h.methods, hr⟩
  | some v =>
      obtain ⟨c, n, args, rfl, hargs, rfl, hc, hx⟩ := h.remembers.of_peeked hp
      refine ⟨w.setExternal e { w.external e with peeked := none }, ?_,
        Session.sameBut_setExternal rfl _, h.methods, ?_⟩
      · rw [Position.pull, hargs]
        exact (Enumerator.nextGives_of_peeked hp).2 ⟨rfl, rfl⟩
      · rw [Session.external_setExternal, hx, Position.next, hargs]
        exact .ready hc

theorem Tracks.peek (he : Follows .error e.call t) (h : Tracks e t w p) :
    ∃ w', e.PeekGives w (p.pull t) w' ∧ Session.SameBut e w' w ∧ Tracks e t w' (p.peek t) := by
  cases hp : (w.external e).peeked with
  | some v =>
      obtain ⟨c, n, args, rfl, hargs, rfl, -⟩ := h.remembers.of_peeked hp
      refine ⟨w, ?_, rfl, ?_⟩
      · rw [Position.pull, hargs]
        exact (Enumerator.peekGives_of_peeked hp).2 ⟨rfl, rfl⟩
      · rw [Position.peek, hargs]
        exact h
  | none =>
      obtain ⟨w', hw', hs, hn, hr⟩ := h.advance he hp
      have hm := hs.methods.trans h.methods
      cases p with
      | exhausted => exact ⟨w', (Enumerator.peekGives_error_of_none hp).2 hw', hs, hm, hr⟩
      | before p =>
          cases ht : t.event p with
          | inl args =>
              rw [Position.pull, ht] at hw' ⊢
              rw [Position.next, ht] at hr
              refine ⟨_, (Enumerator.peekGives_ok_of_none hp).2 ⟨w', hw', rfl⟩, ?_, hm, ?_⟩
              · exact (Session.sameBut_setExternal rfl _).trans hs
              · rw [Session.external_setExternal, Position.peek, ht]
                exact hr.keep hn ht
          | inr r =>
              rw [Position.next, ht] at hr
              rw [Position.peek, ht]
              refine ⟨w', ?_, hs, hm, hr⟩
              rw [Position.pull, ht] at hw' ⊢
              cases r <;> exact (Enumerator.peekGives_error_of_none hp).2 hw'

theorem Enumerator.follows_replay (he : Follows .error e.call t) : Follows .error e.replay.run t :=
  .of_leadsTo (note_leadsTo _ _) he

theorem Enumerator.Drives.follows {source : Producer} (he : Follows .error e.call t)
    (h : e.Drives w source) : Follows .error source.run t := by
  cases h with
  | replay => exact follows_replay he
  | each => exact .of_leadsTo (invoke_leadsTo [] (m := eachMethod) rfl) (follows_replay he)

def Operation.LeavesAlone (e : Enumerator) : Operation → Prop
  | drive _ block => ∀ x, Keeps (fun w => w.methods = .builtin ∧ w.external e = x) block
  | _ => True

theorem Tracks.of_calls {ι σ : Type} {source c : Routine (List Value) (Except Error Value)}
    {block : σ → List Value → Routine ι (σ × Except Error Unit)} {s s' : σ}
    {calls : List (List Value × Except Error Unit)} {r : Except Error Value} {w₁ : Session}
    (hblock : ∀ x, Keeps (fun w => w.methods = .builtin ∧ w.external e = x) block)
    (h : Tracks e t w p) (hsource : Follows .error source t)
    (hcalls : Calls block source s w calls c s' w₁) (hend : c.Reaches w₁ (.done r) w') :
    Tracks e t w' p ∧ t.Admits .error calls ∧ (t.after .error calls).event 0 = .inr r := by
  obtain ⟨⟨hm, hx⟩, ha, hc⟩ := hsource.of_calls
    (P := fun v => v.methods = .builtin ∧ v.external e = w.external e) (fun _ hw => hw.1)
    (fun _ _ hv hw => ⟨(Session.methods_of_unlogged hv).trans hw.1,
      (Session.external_of_unlogged hv e).trans hw.2⟩)
    (hblock _) ⟨h.methods, rfl⟩ hcalls
  obtain ⟨hu, hr⟩ := hc.of_reaches_done hm hend
  refine ⟨⟨(Session.methods_of_unlogged hu).trans hm, ?_⟩, ha, hr⟩
  rw [Session.external_of_unlogged hu, hx]
  exact h.remembers

def collecting {ι : Type} (collected args : List Value) : Routine ι (List Value × Except Error Unit) :=
  .pure (Value.pack args :: collected, .ok ())

theorem keeps_collecting {ι : Type} (P : Session → Prop) : Keeps P (collecting (ι := ι)) := by
  intro s x w r w' hw h
  obtain ⟨-, rfl⟩ := reaches_pure.1 h
  exact hw

theorem collected_of_calls {ι β : Type} {c d : Routine (List Value) β} {s s' : List Value}
    {calls : List (List Value × Except Error Unit)}
    (h : Calls (collecting (ι := ι)) c s w calls d s' w') :
    (∀ x ∈ calls, x.2 = .ok ()) ∧ s' = ((calls.map Prod.fst).map Value.pack).reverse ++ s := by
  induction h with
  | none => simp
  | call _ hblock _ ih =>
      obtain ⟨ho, -⟩ := reaches_pure.1 hblock
      simp only [Progress.done.injEq, Prod.mk.injEq] at ho
      obtain ⟨rfl, rfl⟩ := ho
      simpa using ih

theorem Tracks.collect {source : Producer} {r : Except Error (List Value)} (h : Tracks e t w p)
    (hsource : Follows .error source.run t)
    (hr : (Attempt.collect source : Attempt Empty (List Value)).run.Reaches w (.done r) w') :
    Tracks e t w' p ∧ Position.Answers t .toArray p (.collected r) p := by
  obtain ⟨calls, c, s, w₁, b, w₂, hcalls, hend, hk⟩ := reaches_drive_done.1 hr
  obtain ⟨hok, hs⟩ := collected_of_calls hcalls
  obtain ⟨hw₂, ha, hb⟩ := h.of_calls (fun _ => keeps_collecting _) hsource hcalls hend
  have ht := ha.eq_ofList hok hb
  rw [List.append_nil] at hs
  cases b with
  | ok v =>
      obtain ⟨ho, rfl⟩ := reaches_pure.1 (reaches_note.1 hk)
      rw [hs, List.reverse_reverse] at ho
      rw [Progress.done.inj ho]
      exact ⟨⟨hw₂.methods, hw₂.remembers⟩, .toArray p ht⟩
  | error err =>
      obtain ⟨ho, rfl⟩ := reaches_pure.1 hk
      rw [Progress.done.inj ho]
      exact ⟨hw₂, .toArray p ht⟩

/-- One operation of the enumerator is one of the machine. -/
theorem Tracks.performs {op : Operation} {a : Answer} (he : Follows .error e.call t)
    (hop : op.LeavesAlone e) (h : Tracks e t w p) (hp : Performs e op w a w') :
    ∃ p', Position.Answers t op p a p' ∧ Tracks e t w' p' := by
  cases hp with
  | next hn =>
      obtain ⟨v, hv, -, ht⟩ := h.next he
      obtain ⟨rfl, rfl⟩ := hn.unique hv
      exact ⟨_, .next p, ht⟩
  | peek hn =>
      obtain ⟨v, hv, -, ht⟩ := h.peek he
      obtain ⟨rfl, rfl⟩ := hn.unique hv
      exact ⟨_, .peek p, ht⟩
  | rewind =>
      refine ⟨_, .rewind p, h.methods, ?_⟩
      rw [Session.external_rewind]
      exact .fresh
  | drive hsource hcalls hend =>
      obtain ⟨ht, ha, hr⟩ := h.of_calls hop (hsource.follows he) hcalls hend
      exact ⟨p, .drive _ _ p ha hr, ht⟩
  | toArray hsource hr =>
      obtain ⟨ht, ha⟩ := h.collect (hsource.follows he) hr
      exact ⟨p, ha, ht⟩

theorem Tracks.run {ops : List Operation} {answers : List Answer} (he : Follows .error e.call t)
    (hops : ∀ op ∈ ops, op.LeavesAlone e) (h : Tracks e t w p)
    (hrun : Run (Performs e) ops w answers w') :
    ∃ p', Run (Position.Answers t) ops p answers p' ∧ Tracks e t w' p' := by
  induction hrun generalizing p with
  | nil w => exact ⟨p, .nil p, h⟩
  | cons hstep _ ih =>
      obtain ⟨p₁, ha, h₁⟩ := h.performs he (hops _ List.mem_cons_self) hstep
      obtain ⟨p', hr, h'⟩ := ih (fun op hop => hops op (List.mem_cons_of_mem _ hop)) h₁
      exact ⟨p', .cons ha hr, h'⟩

end Simulation

namespace Enumerator

end Enumerator

end Stepwise
