import Stepwise.Proofs.Events
import Stepwise.Proofs.Locality

namespace Stepwise

open Routine

/-- After the end there is neither a cursor nor an element that was looked at. Such an element is there only with
its cursor and before the end. A cursor that is kept has not finished. -/
structure External.Consistent (x : External) : Prop where
  done : x.done = true → x.cursor = none ∧ x.peeked = none
  peeked : ∀ v, x.peeked = some v → (∃ c, x.cursor = some c) ∧ x.done = false
  cursor : ∀ c, x.cursor = some c → c.isFinished = false

namespace External

theorem consistent_empty : ({} : External).Consistent := ⟨by simp, by simp, by simp⟩

theorem Moves.consistent {x y : External} (h : x.Moves y) (hx : x.Consistent) : y.Consistent := by
  cases h with
  | yielded hpeeked hdone rest =>
      refine ⟨by simp [hdone], by simp [hpeeked], fun c hc => ?_⟩
      cases hc
      rfl
  | ended hpeeked hdone => exact ⟨fun _ => ⟨rfl, hpeeked⟩, by simp [hpeeked], by simp⟩
  | peeked hcursor hdone v => exact ⟨by simp [hdone], fun _ _ => ⟨⟨_, hcursor⟩, hdone⟩, hx.cursor⟩
  | taken h => exact ⟨fun hd => ⟨(hx.done hd).1, rfl⟩, by simp, hx.cursor⟩

end External

theorem Session.external_congr (w : Session) {e f : Enumerator} (h : e.id = f.id) :
    w.external e = w.external f := by
  rw [Session.external, h, ← Session.external]

/-- An event concerns one enumerator at most. What it makes this one remember is consistent. -/
theorem Happens.consistent {w v : Session} {ev : Event} (h : Happens w ev v) (e : Enumerator)
    (hw : (w.external e).Consistent) : (v.external e).Consistent := by
  cases h with
  | noted | defined | asked | ran | refused | bound | resumed => exact hw
  | @remembered f x h =>
      rw [Session.external_setExternal_eq]
      split
      · rename_i hid
        rw [Session.external_congr w hid] at hw
        exact h.consistent hw
      · exact hw
  | rewound f =>
      rw [Session.rewind, Session.external_note, Session.external_setExternal_eq]
      split
      · exact External.consistent_empty
      · exact hw

theorem History.consistent {w v : Session} {es : List Event} (h : History w es v) (e : Enumerator)
    (hw : (w.external e).Consistent) : (v.external e).Consistent :=
  h.invariant (fun _ _ _ hev => hev.consistent e) hw

namespace Enumerator

/-- The sessions in the life of an enumerator. It starts with nothing remembered. Then the enumerator is used,
routines run that may use it too, and anything else may change, such as the methods. -/
inductive Lifetime (e : Enumerator) : Session → Prop
  | new {w : Session} (h : w.external e = {}) : Lifetime e w
  | used {w v : Session} {op : Operation} {a : Answer} (h : Lifetime e w) (hop : Performs e op w a v) :
      Lifetime e v
  | amid {ι α : Type} {c : Routine ι α} {w v : Session} {es : List Event} (h : Lifetime e w)
      (hc : c.Traverses w es v) : Lifetime e v
  | elsewhere {w v : Session} (h : Lifetime e w) (hv : v.external e = w.external e) : Lifetime e v

variable {e : Enumerator} {w v : Session}

theorem Lifetime.consistent (h : e.Lifetime w) : (w.external e).Consistent := by
  induction h with
  | new h =>
      rw [h]
      exact External.consistent_empty
  | used _ hop ih =>
      obtain ⟨es, hes⟩ := hop.exists_history
      exact hes.consistent e ih
  | amid _ hc ih => exact hc.2.consistent e ih
  | elsewhere _ hv ih => rwa [hv]

theorem Lifetime.run {ops : List Operation} {answers : List Answer} (h : e.Lifetime w)
    (hrun : Run (Performs e) ops w answers v) : e.Lifetime v := by
  induction hrun with
  | nil => exact h
  | cons hop _ ih => exact ih (h.used hop)

theorem cursorIn_not_finished (h : (w.external e).Consistent) : (e.cursorIn w).1.isFinished = false := by
  rw [cursorIn_fst]
  cases hc : (w.external e).cursor with
  | none => rfl
  | some c => exact h.cursor c hc

/-- Throughout the life of an enumerator, what it remembers is consistent, and whatever is run next, it never
resumes a cursor that has finished. -/
theorem Lifetime.external_consistent (h : e.Lifetime w) :
    (w.external e).Consistent ∧ ∀ (ι α : Type) (c : Routine ι α) (n : Nat) (cursor : Cursor),
      .resumed e cursor ∈ c.events n w → cursor.isFinished = false := by
  refine ⟨h.consistent, fun ι α c n cursor hmem => ?_⟩
  obtain ⟨before, after, hsplit⟩ := List.append_of_mem hmem
  obtain ⟨u, hu, -⟩ := c.leads n w
  rw [hsplit, History.append_iff] at hu
  obtain ⟨v, hbefore, hafter⟩ := hu
  cases hafter with
  | cons hev _ =>
      cases hev
      exact cursorIn_not_finished (hbefore.consistent e h.consistent)

/-- The successor of an integer breaks while a range is pulled. The enumerator has then an element that was looked
at, after that only the end, and once it was rewound and driven by a block that pulls it, a cursor again. -/
theorem Lifetime.external_consistent_broken :
    let e : Enumerator := ⟨0, .range (.int 1) (.int 3) false, "each", []⟩
    let broken : Method := .blockless fun _ _ => throw (.raised "broken")
    let failure : Except Error Value := .error (.raised "broken")
    let block (_ : Unit) (_ : List Value) : Routine Empty (Unit × Except Error Unit) :=
      .next e fun _ => .pure ((), .ok ())
    ∃ w₁ w₂ w₃ : Session,
      Run (Performs e) [.next, .peek] .start [.pulled (.ok (.int 1)), .pulled (.ok (.int 2))] w₁ ∧
      Run (Performs e) [.next, .peek] (w₁.define .integer "succ" broken)
        [.pulled (.ok (.int 2)), .pulled failure] w₂ ∧
      Run (Performs e) [.rewind, .drive () block] w₂ [.rewound, .driven [([.int 1], .ok ())] failure] w₃ ∧
      (e.Lifetime w₁ ∧ (w₁.external e).peeked = some (.int 2) ∧ ∃ c, (w₁.external e).cursor = some c) ∧
      (e.Lifetime w₂ ∧ (w₂.external e).done = true ∧ (w₂.external e).cursor = none) ∧
      e.Lifetime w₃ ∧
      ∃ c, .resumed e c ∈ (Routine.next e .pure : Routine Empty _).events 30 w₃ ∧ c.isFinished = false := by
  intro e broken failure block
  have hrun : ∃ w₁, Run (Performs e) [.next, .peek] .start
      [.pulled (.ok (.int 1)), .pulled (.ok (.int 2))] w₁ ∧ (w₁.external e).peeked = some (.int 2) ∧
      ∃ w₂, Run (Performs e) [.next, .peek] (w₁.define .integer "succ" broken)
        [.pulled (.ok (.int 2)), .pulled failure] w₂ ∧ (w₂.external e).done = true ∧
        ∃ w₃, Run (Performs e) [.rewind, .drive () block] w₂
          [.rewound, .driven [([.int 1], .ok ())] failure] w₃ ∧
          ∃ c, .resumed e c ∈ (Routine.next e .pure : Routine Empty _).events 30 w₃ :=
    ⟨_, .cons (.next ⟨40, rfl⟩) (.cons (.peek ⟨40, rfl⟩) (.nil _)), rfl, _,
      .cons (.next ⟨40, rfl⟩) (.cons (.peek ⟨40, rfl⟩) (.nil _)), rfl, _,
      .cons (.rewind _) (.cons (.drive .replay (.call ⟨40, rfl⟩ ⟨40, rfl⟩ (.none _ _ _)) ⟨40, rfl⟩) (.nil _)),
      _, List.mem_cons_self⟩
  obtain ⟨w₁, hw₁, hpeeked, w₂, hw₂, hdone, w₃, hw₃, c, hc⟩ := hrun
  have h₁ : e.Lifetime w₁ := (Lifetime.new (w := .start) rfl).run hw₁
  have h₂ : e.Lifetime w₂ := (h₁.elsewhere (v := w₁.define .integer "succ" broken) rfl).run hw₂
  have h₃ : e.Lifetime w₃ := h₂.run hw₃
  obtain ⟨hcursor, -⟩ := h₁.external_consistent.1.peeked _ hpeeked
  obtain ⟨hnone, -⟩ := h₂.external_consistent.1.done hdone
  exact ⟨w₁, w₂, w₃, hw₁, hw₂, hw₃, ⟨h₁, hpeeked, hcursor⟩, ⟨h₂, hdone, hnone⟩, h₃, c, hc,
    h₃.external_consistent.2 _ _ _ _ _ hc⟩

end Enumerator

end Stepwise
