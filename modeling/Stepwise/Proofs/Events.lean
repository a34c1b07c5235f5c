import Stepwise.Proofs.Pulling

namespace Stepwise

/-- `ran` and `refused` are the two ways in which a call is answered, `asked` is the answer to whether there is
a method. `resumed` is an enumerator going on with a cursor, `remembered` what it stores of it. -/
inductive Event : Type 1
  | noted (n : Notice)
  | defined (c : Class) (name : String) (m : Method)
  | asked (receiver : Value) (name : String) (answer : Bool)
  | ran (receiver : Value) (name : String) (args : List Value) (hasBlock : Bool) (m : Method)
  | refused (receiver : Value) (name : String)
  | bound (e : Enumerator)
  | resumed (e : Enumerator) (c : Cursor)
  | remembered (e : Enumerator) (x : External)
  | rewound (e : Enumerator)

/-- What a pull can make of what an enumerator remembers. A cursor that comes to a yield or to its end changes
what was remembered when it was resumed, whatever is remembered by then. -/
inductive External.Moves : External → External → Prop
  | yielded {x state : External} (hpeeked : state.peeked = none) (hdone : state.done = false)
      (rest : Routine (List Value) (Except Error Value)) :
      Moves x { state with cursor := some (.suspended rest) }
  | ended {x state : External} (hpeeked : state.peeked = none) (hdone : state.done = false) :
      Moves x { state with done := true, cursor := none }
  | peeked {x : External} {rest : Routine (List Value) (Except Error Value)}
      (hcursor : x.cursor = some (.suspended rest)) (hdone : x.done = false) (v : Value) :
      Moves x { x with peeked := some v }
  | taken {x : External} {v : Value} (h : x.peeked = some v) : Moves x { x with peeked := none }

inductive Happens : Session → Event → Session → Prop
  | noted (w : Session) (n : Notice) : Happens w (.noted n) (w.note n)
  | defined (w : Session) (c : Class) (name : String) (m : Method) :
      Happens w (.defined c name m) (w.define c name m)
  | asked (w : Session) (receiver : Value) (name : String) :
      Happens w (.asked receiver name (w.find receiver name).isSome) w
  | ran {w : Session} {receiver : Value} {name : String} {m : Method} (args : List Value) (hasBlock : Bool)
      (h : w.find receiver name = some m) :
      Happens w (.ran receiver name args hasBlock m)
        (w.note (.sent receiver.classOf name args.length hasBlock))
  | refused {w : Session} {receiver : Value} {name : String} (h : w.find receiver name = none) :
      Happens w (.refused receiver name) w
  | bound (w : Session) (receiver : Value) (method : String) (args : List Value) :
      Happens w (.bound (w.enumerate receiver method args).1) (w.enumerate receiver method args).2
  | resumed {w : Session} {e : Enumerator} (hpeeked : (w.external e).peeked = none)
      (hdone : (w.external e).done = false) : Happens w (.resumed e (e.cursorIn w).1) w
  | remembered {w : Session} {e : Enumerator} {x : External} (h : (w.external e).Moves x) :
      Happens w (.remembered e x) (w.setExternal e x)
  | rewound (w : Session) (e : Enumerator) : Happens w (.rewound e) (w.rewind e)

inductive History : Session → List Event → Session → Prop
  | nil (w : Session) : History w [] w
  | cons {w v u : Session} {ev : Event} {es : List Event} (h : Happens w ev v) (hrest : History v es u) :
      History w (ev :: es) u

namespace History

variable {w v u : Session} {ev : Event} {es fs : List Event}

theorem single (h : Happens w ev v) : History w [ev] v := .cons h (.nil v)

theorem append (h : History w es v) (h' : History v fs u) : History w (es ++ fs) u := by
  induction h with
  | nil => exact h'
  | cons hev _ ih => exact .cons hev (ih h')

theorem append_iff : History w (es ++ fs) u ↔ ∃ v, History w es v ∧ History v fs u := by
  constructor
  · intro h
    induction es generalizing w with
    | nil => exact ⟨w, .nil w, h⟩
    | cons ev es ih =>
        cases h with
        | cons hev hrest =>
            obtain ⟨v, hes, hfs⟩ := ih hrest
            exact ⟨v, .cons hev hes, hfs⟩
  · rintro ⟨v, hes, hfs⟩
    exact hes.append hfs

theorem invariant {P : Session → Prop} (hstep : ∀ w ev v, Happens w ev v → P w → P v)
    (h : History w es v) (hw : P w) : P v := by
  induction h with
  | nil => exact hw
  | cons hev _ ih => exact ih (hstep _ _ _ hev hw)

end History

abbrev Tracer := Routine (List Value) (Except Error Value) → Session → List Event

def Cursor.events (trace : Tracer) : Cursor → Session → List Event
  | finished, _ => []
  | suspended rest, w => trace rest w

namespace Enumerator

def startEvents (e : Enumerator) (w : Session) : List Event :=
  match (w.external e).cursor with
  | some _ => []
  | none => [.noted (.cursorStarted e.toValue)]

def settleEvents (e : Enumerator) (state : External) : Option (Resumed × Cursor × Session) → List Event
  | none => []
  | some (.yielded _, c, _) => [.remembered e { state with cursor := some c }]
  | some (.finished _, _, _) =>
    [.noted (.cursorFinished e.toValue), .remembered e { state with done := true, cursor := none }]

def advanceEvents (run : Runner) (trace : Tracer) (e : Enumerator) (w : Session) : List Event :=
  if (w.external e).done then []
  else
    let (c, v) := e.cursorIn w
    e.startEvents w ++ [.resumed e c] ++ c.events trace v ++ e.settleEvents (w.external e) (c.resume run v)

def nextEvents (run : Runner) (trace : Tracer) (e : Enumerator) (w : Session) : List Event :=
  match (w.external e).peeked with
  | some _ => [.remembered e { w.external e with peeked := none }]
  | none => e.advanceEvents run trace w

def peekEvents (run : Runner) (trace : Tracer) (e : Enumerator) (w : Session) : List Event :=
  match (w.external e).peeked with
  | some _ => []
  | none => e.advanceEvents run trace w ++ match e.advance run w with
    | some (.ok v, u) => [.remembered e { u.external e with peeked := some v }]
    | _ => []

end Enumerator

namespace Routine

def stepEvents : {ι α : Type} → Routine ι α → Session → List Event
  | _, _, invoke receiver method args _, w => match w.find receiver method with
    | none => [.refused receiver method]
    | some m => [.ran receiver method args true m]
  | _, _, send receiver method args _, w => match w.find receiver method with
    | none => [.refused receiver method]
    | some m => [.ran receiver method args false m]
  | _, _, define c name withBlock plain _, _ => [.defined c name ⟨withBlock, plain⟩]
  | _, _, respondsTo receiver method _, w => [.asked receiver method (w.find receiver method).isSome]
  | _, _, enumerate receiver method args _, w => [.bound (w.enumerate receiver method args).1]
  | _, _, rewind e _, _ => [.rewound e]
  | _, _, note n _, _ => [.noted n]
  | _, _, _, _ => []

/-- What happens in the first steps of a routine, also where they are too few for it to come to a yield or its
end. -/
def events : Nat → {ι α : Type} → Routine ι α → Session → List Event
  | 0, _, _, _, _ => []
  | n + 1, _, _, drive source s block k, w =>
    source.events n w ++ match source.resume n w with
      | none => []
      | some (.done b, v) => (k s b).events n v
      | some (.yielded x rest, v) =>
        ((block s x).bind fun (s, answer) => drive (rest answer) s block k).events n v
  | n + 1, _, _, next e k, w =>
    e.nextEvents (fun c w => c.resume n w) (fun c w => c.events n w) w ++
      match e.next (fun c w => c.resume n w) w with
      | none => []
      | some (r, v) => (k r).events n v
  | n + 1, _, _, peek e k, w =>
    e.peekEvents (fun c w => c.resume n w) (fun c w => c.events n w) w ++
      match e.peek (fun c w => c.resume n w) w with
      | none => []
      | some (r, v) => (k r).events n v
  | n + 1, _, _, c, w => c.stepEvents w ++ match c.hop w with
    | none => []
    | some (d, v) => d.events n v

end Routine

universe u v

/-- The events lead from the session to the one of the result. Where there is no result, they lead somewhere. -/
def Leads {ρ : Type u} (w : Session) (es : List Event) (r : Option (ρ × Session)) : Prop :=
  ∃ v, History w es v ∧ ∀ a v', r = some (a, v') → v' = v

section Leads

variable {ρ : Type u} {τ : Type v} {w v : Session} {es fs : List Event}

theorem leads_some {a : ρ} : Leads w es (some (a, v)) ↔ History w es v := by
  constructor
  · rintro ⟨u, hu, hr⟩
    rwa [hr a v rfl]
  · intro h
    refine ⟨v, h, ?_⟩
    rintro _ _ ⟨⟩
    rfl

theorem History.leads_none (h : History w es v) : Leads w es (none : Option (ρ × Session)) :=
  ⟨v, h, fun _ _ hr => nomatch hr⟩

theorem Leads.cut {r : Option (ρ × Session)} (h : Leads w es r) :
    Leads w (es ++ []) (none : Option (τ × Session)) := by
  obtain ⟨v, hv, -⟩ := h
  rw [List.append_nil]
  exact hv.leads_none

theorem History.leads_append {r : Option (ρ × Session)} (h : History w es v) (h' : Leads v fs r) :
    Leads w (es ++ fs) r := by
  obtain ⟨u, hu, hr⟩ := h'
  exact ⟨u, h.append hu, hr⟩

end Leads

def Tracer.Follows (trace : Tracer) (run : Runner) : Prop := ∀ c w, Leads w (trace c w) (run c w)

namespace Enumerator

variable {run : Runner} {trace : Tracer} (e : Enumerator) (w : Session)

theorem history_startEvents : History w (e.startEvents w) (e.cursorIn w).2 := by
  unfold startEvents cursorIn
  cases (w.external e).cursor with
  | some c => exact .nil w
  | none => exact .single (.noted w _)

theorem external_cursorIn : (e.cursorIn w).2.external e = w.external e := by
  unfold cursorIn
  cases (w.external e).cursor <;> rfl

theorem cursorIn_fst : (e.cursorIn w).1 = (w.external e).cursor.getD (.suspended e.call) := by
  unfold cursorIn
  cases (w.external e).cursor <;> rfl

end Enumerator

theorem Cursor.suspended_of_yielded {run : Runner} {c c' : Cursor} {w v : Session} {args : List Value}
    (h : c.resume run w = some (.yielded args, c', v)) : ∃ rest, c' = .suspended rest := by
  cases c with
  | finished => cases h
  | suspended rest =>
      rw [Cursor.resume] at h
      rcases hr : run rest w with _ | ⟨r | ⟨x, k⟩, u⟩
      · simp [hr] at h
      · simp [hr] at h
      · rw [hr] at h
        cases h
        exact ⟨_, rfl⟩

theorem Enumerator.external_of_advance {run : Runner} {e : Enumerator} {w u : Session} {v : Value}
    (h : e.advance run w = some (.ok v, u)) :
    (∃ rest, (u.external e).cursor = some (.suspended rest)) ∧ (u.external e).done = false := by
  rw [advance_eq] at h
  cases hdone : (w.external e).done with
  | true => simp [hdone] at h
  | false =>
      rw [hdone, if_neg Bool.false_ne_true, Option.map_eq_some_iff] at h
      obtain ⟨⟨args | (err | a), c, u'⟩, hq, hs⟩ := h
      · obtain ⟨rest, rfl⟩ := Cursor.suspended_of_yielded hq
        cases hs
        rw [Session.external_setExternal]
        exact ⟨⟨rest, rfl⟩, hdone⟩
      · simp [settle] at hs
      · simp [settle] at hs

section Pulls

variable {run : Runner} {trace : Tracer} (htrace : trace.Follows run)

include htrace

theorem Cursor.leads (c : Cursor) (w : Session) :
    Leads w (c.events trace w) ((c.resume run w).map fun q => (q.1, q.2.2)) := by
  cases c with
  | finished => exact leads_some.2 (.nil w)
  | suspended rest =>
      have h := htrace rest w
      rw [Cursor.events, Cursor.resume]
      rcases hr : run rest w with _ | ⟨r | ⟨x, k⟩, v⟩
      · obtain ⟨v, hv, -⟩ := h
        exact hv.leads_none
      · rw [hr, leads_some] at h
        exact leads_some.2 h
      · rw [hr, leads_some] at h
        exact leads_some.2 h

namespace Enumerator

variable (e : Enumerator) (w : Session)

theorem leads_advance (hpeeked : (w.external e).peeked = none) :
    Leads w (e.advanceEvents run trace w) (e.advance run w) := by
  rw [advance_eq, advanceEvents]
  cases hdone : (w.external e).done with
  | true => exact leads_some.2 (.nil w)
  | false =>
      -- That a cursor was started is noted before it is resumed, and is not yet remembered.
      have hresumed : Happens (e.cursorIn w).2 (.resumed e (e.cursorIn w).1) (e.cursorIn w).2 := by
        have hc : (e.cursorIn (e.cursorIn w).2).1 = (e.cursorIn w).1 := by
          rw [cursorIn_fst, cursorIn_fst, external_cursorIn]
        have hexternal := e.external_cursorIn w
        exact hc ▸ .resumed (hexternal ▸ hpeeked) (hexternal ▸ hdone)
      have hstart := (e.history_startEvents w).append (.single hresumed)
      have hcursor := Cursor.leads htrace (e.cursorIn w).1 (e.cursorIn w).2
      simp only [Bool.false_eq_true, if_false]
      rw [List.append_assoc]
      refine hstart.leads_append ?_
      rcases hq : (e.cursorIn w).1.resume run (e.cursorIn w).2 with _ | ⟨args | r, c, u⟩
      · exact hcursor.cut
      · obtain ⟨rest, rfl⟩ := Cursor.suspended_of_yielded hq
        rw [hq, Option.map_some, leads_some] at hcursor
        exact leads_some.2 (hcursor.append (.single (.remembered (.yielded hpeeked hdone rest))))
      · rw [hq, Option.map_some, leads_some] at hcursor
        have hended : History u (e.settleEvents (w.external e) (some (.finished r, c, u)))
            ((u.note (.cursorFinished e.toValue)).setExternal e
              { w.external e with done := true, cursor := none }) :=
          .cons (.noted u _) (.single (.remembered (.ended hpeeked hdone)))
        cases r <;> exact leads_some.2 (hcursor.append hended)

theorem leads_next : Leads w (e.nextEvents run trace w) (e.next run w) := by
  unfold nextEvents next
  cases hpeeked : (w.external e).peeked with
  | some v => exact leads_some.2 (.single (.remembered (.taken hpeeked)))
  | none => exact leads_advance htrace e w hpeeked

theorem leads_peek : Leads w (e.peekEvents run trace w) (e.peek run w) := by
  unfold peekEvents peek
  cases hpeeked : (w.external e).peeked with
  | some v => exact leads_some.2 (.nil w)
  | none =>
      have h := leads_advance htrace e w hpeeked
      rcases ha : e.advance run w with _ | ⟨err | v, u⟩
      · exact h.cut
      · rw [ha, leads_some] at h
        rw [List.append_nil]
        exact leads_some.2 h
      · rw [ha, leads_some] at h
        obtain ⟨⟨rest, hcursor⟩, hdone⟩ := external_of_advance ha
        exact leads_some.2 (h.append (.single (.remembered (.peeked hcursor hdone v))))

end Enumerator

end Pulls

namespace Routine

variable {ι α κ β σ : Type}

theorem history_hop {c : Routine ι α} {w : Session} {q : Routine ι α × Session} (h : c.hop w = some q) :
    History w (c.stepEvents w) q.2 := by
  cases c with
  | pure | yield | drive | next | peek => cases h
  | loop =>
      cases h
      exact .nil w
  | define =>
      cases h
      exact .single (.defined w _ _ _)
  | respondsTo =>
      cases h
      exact .single (.asked w _ _)
  | enumerate =>
      cases h
      exact .single (.bound w _ _ _)
  | rewind =>
      cases h
      exact .single (.rewound w _)
  | note =>
      cases h
      exact .single (.noted w _)
  | invoke receiver method args k | send receiver method args k =>
      cases h
      rw [stepEvents]
      cases hm : w.find receiver method with
      | none => exact .single (.refused hm)
      | some m => exact .single (.ran args _ hm)

section Step

variable (n : Nat) (w : Session)

@[simp]
theorem events_zero (c : Routine ι α) : c.events 0 w = [] := rfl

theorem events_drive (source : Routine κ β) (s : σ)
    (block : σ → κ → Routine ι (σ × Except Error Unit)) (k : σ → β → Routine ι α) :
    (drive source s block k).events (n + 1) w = source.events n w ++
      match source.resume n w with
      | none => []
      | some (.done b, v) => (k s b).events n v
      | some (.yielded x rest, v) =>
        ((block s x).bind fun (s, answer) => drive (rest answer) s block k).events n v := rfl

theorem events_next (e : Enumerator) (k : Except Error Value → Routine ι α) :
    (next e k).events (n + 1) w =
      e.nextEvents (fun c w => c.resume n w) (fun c w => c.events n w) w ++
        match e.next (fun c w => c.resume n w) w with
        | none => []
        | some (r, v) => (k r).events n v := rfl

theorem events_peek (e : Enumerator) (k : Except Error Value → Routine ι α) :
    (peek e k).events (n + 1) w =
      e.peekEvents (fun c w => c.resume n w) (fun c w => c.events n w) w ++
        match e.peek (fun c w => c.resume n w) w with
        | none => []
        | some (r, v) => (k r).events n v := rfl

variable {w}

theorem events_pure (a : α) : (pure a : Routine ι α).events n w = [] := by
  cases n <;> rfl

theorem events_of_hop {c : Routine ι α} {q : Routine ι α × Session} (h : c.hop w = some q) :
    c.events (n + 1) w = c.stepEvents w ++ q.1.events n q.2 := by
  cases c with
  | pure | yield | drive | next | peek => cases h
  | _ => cases h; rfl

variable {receiver : Value} {method : String} {args : List Value} {m : Method}

theorem events_invoke_some {k : Except Error Value → Routine (List Value) α}
    (hm : w.find receiver method = some m) :
    (invoke receiver method args k).events (n + 1) w = .ran receiver method args true m ::
      ((m.withBlock receiver args).run.bind k).events n
        (w.note (.sent receiver.classOf method args.length true)) := by
  rw [events_of_hop n (hop_invoke receiver method args k w), stepEvents, hm]
  rfl

theorem events_invoke_none {k : Except Error Value → Routine (List Value) α}
    (hm : w.find receiver method = none) :
    (invoke receiver method args k).events (n + 1) w = .refused receiver method ::
      (k (.error (.noMethod method receiver.className))).events n w := by
  rw [events_of_hop n (hop_invoke receiver method args k w), stepEvents, hm]
  rfl

theorem events_send_some {k : Except Error Value → Routine ι α} (hm : w.find receiver method = some m) :
    (send receiver method args k).events (n + 1) w = .ran receiver method args false m ::
      ((m.plain receiver args).run.lift.bind k).events n
        (w.note (.sent receiver.classOf method args.length false)) := by
  rw [events_of_hop n (hop_send receiver method args k w), stepEvents, hm]
  rfl

theorem events_send_none {k : Except Error Value → Routine ι α} (hm : w.find receiver method = none) :
    (send receiver method args k).events (n + 1) w = .refused receiver method ::
      (k (.error (.noMethod method receiver.className))).events n w := by
  rw [events_of_hop n (hop_send receiver method args k w), stepEvents, hm]
  rfl

end Step

/-- The events of a run lead from the session in which it starts to the session that it comes to. -/
theorem leads (n : Nat) (c : Routine ι α) (w : Session) : Leads w (c.events n w) (c.resume n w) := by
  induction n generalizing ι α c w with
  | zero => exact (History.nil w).leads_none
  | succ n ih =>
      have htrace : Tracer.Follows (fun c w => c.events n w) (fun c w => c.resume n w) := fun c w => ih c w
      cases c with
      | pure | yield => exact leads_some.2 (.nil w)
      | loop | invoke | send | define | respondsTo | enumerate | rewind | note =>
          rw [resume_of_hop rfl, events_of_hop n rfl]
          exact (history_hop rfl).leads_append (ih _ _)
      | drive source s block k =>
          have h := ih source w
          rw [resume_drive, events_drive]
          rcases hs : source.resume n w with _ | ⟨b | ⟨x, rest⟩, v⟩
          · exact h.cut
          · rw [hs, leads_some] at h
            exact h.leads_append (ih _ _)
          · rw [hs, leads_some] at h
            exact h.leads_append (ih _ _)
      | next e k =>
          have h := Enumerator.leads_next htrace e w
          rw [resume_next, events_next]
          rcases hs : e.next (fun c w => c.resume n w) w with _ | ⟨a, v⟩
          · exact h.cut
          · rw [hs, leads_some] at h
            exact h.leads_append (ih _ _)
      | peek e k =>
          have h := Enumerator.leads_peek htrace e w
          rw [resume_peek, events_peek]
          rcases hs : e.peek (fun c w => c.resume n w) w with _ | ⟨a, v⟩
          · exact h.cut
          · rw [hs, leads_some] at h
            exact h.leads_append (ih _ _)

/-- Run from the one session, the routine passes through the other, after these events. -/
def Traverses (c : Routine ι α) (w : Session) (es : List Event) (v : Session) : Prop :=
  (∃ n, es <+: c.events n w) ∧ History w es v

theorem traverses_of_resume {n : Nat} {c : Routine ι α} {w v : Session} {p : Progress ι α}
    (h : c.resume n w = some (p, v)) : c.Traverses w (c.events n w) v := by
  have hleads := leads n c w
  rw [h, leads_some] at hleads
  exact ⟨⟨n, List.prefix_rfl⟩, hleads⟩

theorem Reaches.exists_history {c : Routine ι α} {w w' : Session} {p : Progress ι α}
    (h : c.Reaches w p w') : ∃ es, History w es w' := by
  obtain ⟨n, hn⟩ := h
  exact ⟨_, (traverses_of_resume hn).2⟩

theorem Calls.exists_history {block : σ → κ → Routine ι (σ × Except Error Unit)} {c d : Routine κ β}
    {s t : σ} {w v : Session} {calls : List (κ × Except Error Unit)}
    (h : Calls block c s w calls d t v) : ∃ es, History w es v := by
  induction h with
  | none c s w => exact ⟨[], .nil w⟩
  | call hyield hblock _ ih =>
      obtain ⟨es, hes⟩ := hyield.exists_history
      obtain ⟨fs, hfs⟩ := hblock.exists_history
      obtain ⟨gs, hgs⟩ := ih
      exact ⟨_, (hes.append hfs).append hgs⟩

end Routine

theorem Performs.exists_history {e : Enumerator} {op : Operation} {w w' : Session} {a : Answer}
    (h : Performs e op w a w') : ∃ es, History w es w' := by
  cases h with
  | next h => exact (Enumerator.nextGives_iff_reaches.1 h).exists_history
  | peek h => exact (Enumerator.peekGives_iff_reaches.1 h).exists_history
  | rewind => exact ⟨_, .single (.rewound w e)⟩
  | drive _ hcalls hend =>
      obtain ⟨es, hes⟩ := hcalls.exists_history
      obtain ⟨fs, hfs⟩ := hend.exists_history
      exact ⟨_, hes.append hfs⟩
  | toArray _ h => exact h.exists_history

end Stepwise
