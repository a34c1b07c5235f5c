import Stepwise.Proofs.Position

namespace Stepwise

open Routine

namespace Enumerator

variable {e : Enumerator} {w w' w₁ : Session} {a : Except Error Value}

theorem AdvanceGives.of_ok {x : Value} (hp : (w.external e).peeked = none)
    (h : e.AdvanceGives w (.ok x) w') :
    ∃ (v : Session) (state : External), w' = v.setExternal e state ∧ { state with peeked := none } = state := by
  obtain ⟨n, hn⟩ := h
  rw [advance_eq] at hn
  split at hn
  · simp at hn
  · rw [Option.map_eq_some_iff] at hn
    obtain ⟨⟨r, c, v⟩, -, hs⟩ := hn
    rcases r with args | (err | y)
    · exact ⟨v, { w.external e with cursor := some c }, (Prod.mk.inj hs).2.symm, by simp [hp]⟩
    · simp [settle] at hs
    · simp [settle] at hs

theorem AdvanceGives.of_error {err : Error} (hp : (w.external e).peeked = none)
    (h : e.AdvanceGives w (.error err) w') :
    (w'.external e).done = true ∧ (w'.external e).peeked = none := by
  obtain ⟨n, hn⟩ := h
  rw [advance_eq] at hn
  split at hn
  · rename_i hd
    obtain ⟨-, rfl⟩ := Prod.mk.inj (Option.some.inj hn)
    exact ⟨hd, hp⟩
  · rw [Option.map_eq_some_iff] at hn
    obtain ⟨⟨r, c, v⟩, -, hs⟩ := hn
    rcases r with args | (err | y)
    · simp [settle] at hs
    · obtain ⟨-, rfl⟩ := Prod.mk.inj hs
      rw [Session.external_setExternal]
      exact ⟨rfl, hp⟩
    · obtain ⟨-, rfl⟩ := Prod.mk.inj hs
      rw [Session.external_setExternal]
      exact ⟨rfl, hp⟩

theorem exists_peekGives_iff : (∃ w₁, e.PeekGives w a w₁) ↔ ∃ w₁, e.NextGives w a w₁ := by
  cases hp : (w.external e).peeked with
  | some x => simp only [peekGives_of_peeked hp, nextGives_of_peeked hp, exists_and_left, exists_eq]
  | none =>
      simp only [nextGives_of_none hp]
      cases a with
      | error err => simp only [peekGives_error_of_none hp]
      | ok x =>
          simp only [peekGives_ok_of_none hp]
          constructor
          · rintro ⟨-, u, hu, -⟩
            exact ⟨u, hu⟩
          · rintro ⟨u, hu⟩
            exact ⟨_, u, hu, rfl⟩

/-- What a pull gives again and again: an element that is peeked at, or the end. -/
def Lasts (a : Except Error Value) : Prop := (∃ x, a = .ok x) ∨ a = .error .stopIteration

/-- What is left to be pulled where a peek has given the answer. -/
def leftBy : Except Error Value → Except Error Value
  | .ok x => .ok x
  | .error _ => .error .stopIteration

theorem Lasts.leftBy_eq (h : Lasts a) : leftBy a = a := by
  obtain ⟨x, rfl⟩ | rfl := h
  · rfl
  · rfl

theorem exists_error_of_not_lasts (h : ¬ Lasts a) : ∃ err, a = .error err := by
  cases a with
  | error err => exact ⟨err, rfl⟩
  | ok x => exact absurd (.inl ⟨x, rfl⟩) h

theorem PeekGives.ready (h : e.PeekGives w a w₁) :
    (∃ x, a = .ok x ∧ (w₁.external e).peeked = some x) ∨
    (∃ err, a = .error err) ∧ (w₁.external e).done = true ∧ (w₁.external e).peeked = none := by
  cases hp : (w.external e).peeked with
  | some x =>
      obtain ⟨rfl, rfl⟩ := (peekGives_of_peeked hp).1 h
      exact .inl ⟨x, rfl, hp⟩
  | none =>
      cases a with
      | error err => exact .inr ⟨⟨err, rfl⟩, ((peekGives_error_of_none hp).1 h).of_error hp⟩
      | ok x =>
          obtain ⟨u, -, rfl⟩ := (peekGives_ok_of_none hp).1 h
          exact .inl ⟨x, rfl, by rw [Session.external_setExternal]⟩

theorem PeekGives.again (h : e.PeekGives w a w₁) {b : Except Error Value} {v : Session} :
    e.PeekGives w₁ b v ↔ b = leftBy a ∧ v = w₁ := by
  obtain ⟨x, rfl, hx⟩ | ⟨⟨err, rfl⟩, hd, hp⟩ := h.ready
  · exact peekGives_of_peeked hx
  · cases b with
    | error err => exact (peekGives_error_of_none hp).trans (advanceGives_of_done hd)
    | ok y =>
        rw [peekGives_ok_of_none hp]
        simp only [advanceGives_of_done hd]
        simp [leftBy]

theorem PeekGives.next_of_error (h : e.PeekGives w a w₁) {err : Error} (ha : a = .error err)
    {b : Except Error Value} {v : Session} :
    e.NextGives w₁ b v ↔ b = .error .stopIteration ∧ v = w₁ := by
  obtain ⟨x, rfl, -⟩ | ⟨-, hd, hp⟩ := h.ready
  · cases ha
  · exact (nextGives_of_none hp).trans (advanceGives_of_done hd)

/-- The `next` before a peek and the one after it come to the same session. The one after it gives the
element or the end, whatever the peek gave. -/
theorem PeekGives.exists_next (h : e.PeekGives w a w₁) :
    ∃ u, e.NextGives w a u ∧ e.NextGives w₁ (leftBy a) u := by
  cases hp : (w.external e).peeked with
  | some x =>
      obtain ⟨rfl, rfl⟩ := (peekGives_of_peeked hp).1 h
      have hnext := (nextGives_of_peeked hp).2 ⟨rfl, rfl⟩
      exact ⟨_, hnext, hnext⟩
  | none =>
      cases a with
      | error err =>
          have hnext := (nextGives_of_none hp).2 ((peekGives_error_of_none hp).1 h)
          exact ⟨w₁, hnext, (h.next_of_error rfl).2 ⟨rfl, rfl⟩⟩
      | ok x =>
          obtain ⟨u, hu, rfl⟩ := (peekGives_ok_of_none hp).1 h
          obtain ⟨v, state, rfl, hstate⟩ := hu.of_ok hp
          rw [Session.external_setExternal, Session.setExternal_setExternal]
          refine ⟨_, (nextGives_of_none hp).2 hu, ?_⟩
          rw [nextGives_of_peeked (x := x) (by rw [Session.external_setExternal]),
            Session.external_setExternal, Session.setExternal_setExternal, hstate]
          exact ⟨rfl, rfl⟩

theorem Drives.congr {source : Producer} {v : Session} (h : e.Drives w source)
    (hv : v.unlogged = w.unlogged) : e.Drives v source := by
  cases h with
  | replay => exact .replay
  | each h =>
      refine .each ?_
      rwa [← Session.unlogged_find, hv, Session.unlogged_find]

end Enumerator

variable {e : Enumerator} {w w' v : Session}

theorem Performs.congr {op : Operation} {a : Answer} (h : Performs e op w a w')
    (hv : v.unlogged = w.unlogged) :
    ∃ v', Performs e op v a v' ∧ v'.unlogged = w'.unlogged := by
  cases h with
  | next h =>
      obtain ⟨v', h', hv'⟩ := (Enumerator.nextGives_iff_reaches.1 h).congr hv
      exact ⟨v', .next (Enumerator.nextGives_iff_reaches.2 h'), hv'⟩
  | peek h =>
      obtain ⟨v', h', hv'⟩ := (Enumerator.peekGives_iff_reaches.1 h).congr hv
      exact ⟨v', .peek (Enumerator.peekGives_iff_reaches.2 h'), hv'⟩
  | rewind =>
      refine ⟨v.rewind e, .rewind v, ?_⟩
      rw [Session.rewind_unlogged, hv, ← Session.rewind_unlogged]
  | drive hsource hcalls hend =>
      obtain ⟨v₁, hc, hv₁⟩ := hcalls.congr hv
      obtain ⟨v', he, hv'⟩ := hend.congr hv₁
      exact ⟨v', .drive (hsource.congr hv) hc he, hv'⟩
  | toArray hsource h =>
      obtain ⟨v', h', hv'⟩ := h.congr hv
      exact ⟨v', .toArray (hsource.congr hv) h', hv'⟩

def RunsTo (e : Enumerator) (ops : List Operation) (w : Session) (answers : List Answer)
    (u : Session) : Prop :=
  ∃ w', Run (Performs e) ops w answers w' ∧ w'.unlogged = u

theorem Run.congr {ops : List Operation} {answers : List Answer}
    (h : Run (Performs e) ops w answers w') (hv : v.unlogged = w.unlogged) :
    RunsTo e ops v answers w'.unlogged := by
  induction h generalizing v with
  | nil w => exact ⟨v, .nil v, hv⟩
  | cons hstep _ ih =>
      obtain ⟨v₁, h₁, hv₁⟩ := hstep.congr hv
      obtain ⟨v', hr, hv'⟩ := ih hv₁
      exact ⟨v', .cons h₁ hr, hv'⟩

theorem runsTo_congr {ops : List Operation} {answers : List Answer} {u : Session}
    (hv : v.unlogged = w.unlogged) : RunsTo e ops v answers u ↔ RunsTo e ops w answers u := by
  constructor
  · rintro ⟨v', h, rfl⟩
    exact h.congr hv.symm
  · rintro ⟨w', h, rfl⟩
    exact h.congr hv

theorem runsTo_rewind {ops : List Operation} {answers : List Answer} {u : Session}
    (h : Session.SameBut e v w) :
    RunsTo e (.rewind :: ops) v answers u ↔ RunsTo e (.rewind :: ops) w answers u := by
  have hrewind {w : Session} : RunsTo e (.rewind :: ops) w answers u ↔
      ∃ rest, answers = .rewound :: rest ∧ RunsTo e ops (w.rewind e) rest u := by
    constructor
    · rintro ⟨w', hrun, rfl⟩
      cases hrun with
      | cons hstep hrest =>
          cases hstep
          exact ⟨_, rfl, w', hrest, rfl⟩
    · rintro ⟨rest, rfl, w', hrest, rfl⟩
      exact ⟨w', .cons (.rewind w) hrest, rfl⟩
  rw [hrewind, hrewind]
  exact exists_congr fun rest => and_congr_right fun _ => runsTo_congr h

theorem run_next_iff {ops : List Operation} {a : Except Error Value} {u : Session} (h : e.NextGives w a u)
    {answer : Answer} {bs : List Answer} :
    Run (Performs e) (.next :: ops) w (answer :: bs) v ↔
      answer = .pulled a ∧ Run (Performs e) ops u bs v := by
  constructor
  · intro hrun
    cases hrun with
    | cons hstep hrest =>
        cases hstep with
        | next hnext =>
            obtain ⟨rfl, rfl⟩ := hnext.unique h
            exact ⟨rfl, hrest⟩
  · rintro ⟨rfl, hrest⟩
    exact .cons (.next h) hrest

theorem exists_run_next_iff {ops : List Operation} {a : Except Error Value} {u : Session}
    (h : e.NextGives w a u) {bs : List Answer} :
    (∃ b, Run (Performs e) (.next :: ops) w (b :: bs) v) ↔ Run (Performs e) ops u bs v := by
  simp only [run_next_iff h, exists_eq_left]

theorem run_next_congr {ops : List Operation} {answers : List Answer} {a : Except Error Value}
    {u w₁ : Session} (h : e.NextGives w a u) (h₁ : e.NextGives w₁ a u) :
    Run (Performs e) (.next :: ops) w₁ answers v ↔ Run (Performs e) (.next :: ops) w answers v := by
  cases answers with
  | nil => exact iff_of_false (by rintro ⟨⟩) (by rintro ⟨⟩)
  | cons answer bs => rw [run_next_iff h, run_next_iff h₁]

theorem run_peeks {b : Except Error Value} (hb : ∀ {c u}, e.PeekGives w c u ↔ c = b ∧ u = w) (n : Nat)
    {answers : List Answer} :
    Run (Performs e) (List.replicate n .peek) w answers w' ↔
      answers = List.replicate n (.pulled b) ∧ w' = w := by
  induction n generalizing answers with
  | zero =>
      constructor
      · intro hr
        cases hr
        exact ⟨rfl, rfl⟩
      · rintro ⟨rfl, rfl⟩
        exact .nil _
  | succ n ih =>
      constructor
      · intro hr
        cases hr with
        | cons hstep hrest =>
            cases hstep with
            | peek hp =>
                obtain ⟨rfl, rfl⟩ := hb.1 hp
                obtain ⟨rfl, rfl⟩ := ih.1 hrest
                exact ⟨rfl, rfl⟩
      · rintro ⟨rfl, rfl⟩
        exact .cons (.peek (hb.2 ⟨rfl, rfl⟩)) (ih.2 ⟨rfl, rfl⟩)

theorem Tracks.sameBut_of_peek {t : CallCourse} {p : Position} {a : Except Error Value}
    (he : Follows .error e.call t) (h : Tracks e t w p) (hp : e.PeekGives w a w') :
    Session.SameBut e w' w := by
  obtain ⟨v, hv, hs, -⟩ := h.peek he
  obtain ⟨-, rfl⟩ := hp.unique hv
  exact hs

namespace Enumerator

/-- Peeking any number of times where `next` has an answer gives that answer first. If it is an element
or the end, it is given every time, and whatever is done from a `next` on has the answers and comes to
the session that it would have had without the peeks. If it is a failure, the end is given in its place
from then on, also by that `next`, but all answers after that one and the session are as without the
peeks. Whatever is done from a rewind on has them where the peeks have changed nothing but the
enumerator, and with the built-in methods an iteration changes nothing else. -/
theorem peek_transparent (e : Enumerator) (w : Session) (n : Nat) :
    ((∃ a u, e.NextGives w a u) →
      ∃ answers w₂, Run (Performs e) (List.replicate (n + 1) .peek) w answers w₂) ∧
    ∀ answers w₂, Run (Performs e) (List.replicate (n + 1) .peek) w answers w₂ →
      ∃ a, answers.head? = some (.pulled a) ∧ (∃ u, e.NextGives w a u) ∧
        (Lasts a → answers = List.replicate (n + 1) (.pulled a) ∧ ∀ ops bs v,
          Run (Performs e) (.next :: ops) w₂ bs v ↔ Run (Performs e) (.next :: ops) w bs v) ∧
        (¬ Lasts a → answers = .pulled a :: List.replicate n (.pulled (.error .stopIteration)) ∧
          ∀ b v, e.NextGives w₂ b v ↔ b = .error .stopIteration ∧ v = w₂) ∧
        (∀ ops bs v, (∃ b, Run (Performs e) (.next :: ops) w₂ (b :: bs) v) ↔
          ∃ b, Run (Performs e) (.next :: ops) w (b :: bs) v) ∧
        (Session.SameBut e w₂ w → ∀ ops bs v,
          RunsTo e (.rewind :: ops) w₂ bs v ↔ RunsTo e (.rewind :: ops) w bs v) ∧
        ∀ w₀ ops bs, IterationCall e.receiver e.method → w₀.methods = .builtin →
          w₀.external e = {} → (∀ op ∈ ops, op.LeavesAlone e) → Run (Performs e) ops w₀ bs w →
          Session.SameBut e w₂ w := by
  constructor
  · rintro ⟨a, hnext⟩
    obtain ⟨w₁, h⟩ := exists_peekGives_iff.2 hnext
    exact ⟨_, w₁, .cons (.peek h) ((run_peeks h.again n).2 ⟨rfl, rfl⟩)⟩
  · intro answers w₂ hrun
    cases hrun with
    | cons hstep hrest =>
        cases hstep with
        | peek h =>
            obtain ⟨rfl, rfl⟩ := (run_peeks h.again n).1 hrest
            obtain ⟨u, hu, hu₂⟩ := h.exists_next
            refine ⟨_, rfl, ⟨u, hu⟩, fun ha => ⟨?_, fun ops bs v => ?_⟩, fun ha => ?_, fun ops bs v => ?_,
              fun hs ops bs v => runsTo_rewind hs, fun w₀ ops bs he hw₀ hx hops hreach => ?_⟩
            · rw [ha.leftBy_eq]
              rfl
            · rw [ha.leftBy_eq] at hu₂
              exact run_next_congr hu hu₂
            · obtain ⟨err, rfl⟩ := exists_error_of_not_lasts ha
              exact ⟨rfl, fun b v => h.next_of_error rfl⟩
            · rw [exists_run_next_iff hu, exists_run_next_iff hu₂]
            · have hcall := follows_call e.receiver e.method e.args he
              have hfresh : Tracks e (callCourse e.receiver e.method e.args) w₀ (.before 0) :=
                ⟨hw₀, by rw [hx]; exact .fresh⟩
              obtain ⟨p, -, hp⟩ := hfresh.run hcall hops hreach
              exact hp.sameBut_of_peek hcall h

/-- Peeking twice at an enumerator that counts to two, after its first element was taken, and at one
whose call fails. -/
theorem peek_transparent_times :
    let e : Enumerator := ⟨0, .int 2, "times", []⟩
    let g : Enumerator := ⟨0, .int 1, "upto", [.str "x"]⟩
    let failure : Answer := .pulled (.error (.typeMismatch "Integer" "String"))
    let finish : Answer := .pulled (.error .stopIteration)
    (∃ w w₂, Run (Performs e) [.next] .start [.pulled (.ok (.int 0))] w ∧
      Run (Performs e) [.peek, .peek] w [.pulled (.ok (.int 1)), .pulled (.ok (.int 1))] w₂ ∧
      (∀ ops bs v, Run (Performs e) (.next :: ops) w₂ bs v ↔ Run (Performs e) (.next :: ops) w bs v) ∧
      ∀ ops bs v, RunsTo e (.rewind :: ops) w₂ bs v ↔ RunsTo e (.rewind :: ops) w bs v) ∧
    ∃ w₂, Run (Performs g) [.peek, .peek] .start [failure, finish] w₂ ∧
      ∀ ops bs v, (∃ b, Run (Performs g) (.next :: ops) w₂ (b :: bs) v) ↔
        ∃ b, Run (Performs g) (.next :: ops) .start (b :: bs) v := by
  intro e g failure finish
  constructor
  · have hfirst : ∃ w, Run (Performs e) [.next] .start [.pulled (.ok (.int 0))] w ∧
        ∃ w₂, Run (Performs e) [.peek, .peek] w [.pulled (.ok (.int 1)), .pulled (.ok (.int 1))] w₂ :=
      ⟨_, .cons (.next ⟨20, rfl⟩) (.nil _), _,
        .cons (.peek ⟨20, rfl⟩) (.cons (.peek ⟨20, rfl⟩) (.nil _))⟩
    obtain ⟨w, hw, w₂, hw₂⟩ := hfirst
    obtain ⟨a, ha, -, hnext, -, -, hrewind, hiter⟩ := (peek_transparent e w 1).2 _ w₂ hw₂
    obtain rfl : .ok (.int 1) = a := by simpa using ha
    have he : IterationCall e.receiver e.method := by simp [e, IterationCall, iterationNames]
    have hsame := hiter .start [.next] _ he rfl rfl (by simp [Operation.LeavesAlone]) hw
    exact ⟨w, w₂, hw, hw₂, (hnext (.inl ⟨_, rfl⟩)).2, hrewind hsame⟩
  · have hpeeks : ∃ w₂, Run (Performs g) [.peek, .peek] .start [failure, finish] w₂ :=
      ⟨_, .cons (.peek ⟨20, rfl⟩) (.cons (.peek ⟨20, rfl⟩) (.nil _))⟩
    obtain ⟨w₂, hw₂⟩ := hpeeks
    obtain ⟨-, -, -, -, -, hlater, -⟩ := (peek_transparent g .start 1).2 _ w₂ hw₂
    exact ⟨w₂, hw₂, hlater⟩

/-- A peek that meets a failure takes it from the `next` that follows, and one that pulls another
enumerator changes what comes after a rewind. -/
theorem peek_visible :
    let g : Enumerator := ⟨0, .int 1, "upto", [.str "x"]⟩
    let e : Enumerator := ⟨1, g.toValue, "next", []⟩
    let failure : Answer := .pulled (.error (.typeMismatch "Integer" "String"))
    let finish : Answer := .pulled (.error .stopIteration)
    (∃ v, Run (Performs g) [.peek, .next] .start [failure, finish] v) ∧
    (∃ v, Run (Performs g) [.next] .start [failure] v) ∧
    (∃ v, Run (Performs e) [.peek, .rewind, .next] .start [failure, .rewound, finish] v) ∧
    ∃ v, Run (Performs e) [.rewind, .next] .start [.rewound, failure] v := by
  intro g e failure finish
  refine ⟨?_, ?_, ?_, ?_⟩
  · exact ⟨_, .cons (.peek ⟨20, rfl⟩) (.cons (.next ⟨20, rfl⟩) (.nil _))⟩
  · exact ⟨_, .cons (.next ⟨20, rfl⟩) (.nil _)⟩
  · exact ⟨_, .cons (.peek ⟨20, rfl⟩) (.cons (.rewind _) (.cons (.next ⟨20, rfl⟩) (.nil _)))⟩
  · exact ⟨_, .cons (.rewind _) (.cons (.next ⟨20, rfl⟩) (.nil _))⟩

end Enumerator

end Stepwise
