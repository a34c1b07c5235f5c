import Stepwise.Proofs.Recording

namespace Stepwise

open Routine

/-- What a method `each` goes through: an array, a range, or an enumerator that is bound to an iteration. -/
inductive Sequence : Value → Prop
  | array (items : List Value) : Sequence (.array items)
  | range (r : Range) : Sequence r.toValue
  | enumerator (e : Enumerator) (h : IterationCall e.receiver e.method) : Sequence e.toValue

/-- The value bound to `each` in an enumerator, that enumerator in another one, and so on. The identity of
the outermost one stands first. -/
def wrapped (v : Value) : List Nat → Value
  | [] => v
  | id :: ids => .enumerator id (wrapped v ids) "each" []

def Attempt.Gives {α : Type} (a : Attempt Empty α) (w : Session) (r : Except Error α) : Prop :=
  ∃ w', a.run.Reaches w (.done r) w'

/-- Pulled again and again, the enumerator gives these elements and then this error. -/
def Enumerator.Pulls (e : Enumerator) (w : Session) (ys : List Value) (err : Error) : Prop :=
  ∃ w', Run (Performs e) (List.replicate (ys.length + 1) .next) w
    ((ys.map fun y => .pulled (.ok y)) ++ [.pulled (.error err)]) w'

def reportedEnd {α : Type} : Except Error α → Error
  | .ok _ => .stopIteration
  | .error err => err

theorem reportedEnd_eq_stopIteration_iff {α : Type} {r : Except Error α} (h : Genuine r) :
    reportedEnd r = .stopIteration ↔ ∃ a, r = .ok a := by
  cases r with
  | ok a => exact iff_of_true rfl ⟨a, rfl⟩
  | error err =>
      refine iff_of_false ?_ (by simp)
      rintro rfl
      exact h rfl

theorem LeadsTo.gives {α : Type} {a : Attempt Empty α} {r : Except Error α}
    (h : a.run.LeadsTo (.pure r)) {w : Session} (hw : w.methods = .builtin) : a.Gives w r := by
  obtain ⟨w', hw', -⟩ := h.reaches hw (reaches_pure.2 ⟨rfl, rfl⟩)
  exact ⟨w', hw'⟩

section Pulling

variable {e : Enumerator} {t : CallCourse} {w : Session} {xs : List (List Value)}
  {r : Except Error Value}

theorem Tracks.run_next {p : Nat} (he : Follows .error e.call t) (h : Tracks e t w (.before p))
    (ht : t.drop p = .ofList xs r) :
    ∃ w', Run (Performs e) (List.replicate (xs.length + 1) .next) w
      ((xs.map fun x => .pulled (.ok (Value.pack x))) ++ [.pulled (.error (reportedEnd r))]) w' := by
  -- on the elements that are left, while the position moves on
  induction xs generalizing p w with
  | nil =>
      have hr : t.event p = .inr r := congrArg (Course.event · 0) ht
      obtain ⟨w', hn, -⟩ := h.next he
      rw [Position.pull, hr] at hn
      cases r <;> exact ⟨w', .cons (.next hn) (.nil w')⟩
  | cons x xs ih =>
      have hx : t.event p = .inl x := congrArg (Course.event · 0) ht
      have hrest : t.drop (p + 1) = .ofList xs r := by
        rw [← Course.tail_drop, ht]
        rfl
      obtain ⟨w₁, hn, -, hw₁⟩ := h.next he
      rw [Position.pull, hx] at hn
      rw [Position.next, hx] at hw₁
      obtain ⟨w', hw'⟩ := ih hw₁ hrest
      exact ⟨w', .cons (.next hn) hw'⟩

theorem Enumerator.pulls_of_follows (he : Follows .error e.call (.ofList xs r))
    (hw : w.methods = .builtin) (hx : w.external e = {}) :
    e.Pulls w (xs.map Value.pack) (reportedEnd r) := by
  have hfresh : Tracks e (.ofList xs r) w (.before 0) := ⟨hw, by rw [hx]; exact .fresh⟩
  obtain ⟨w', hw'⟩ := hfresh.run_next he (Course.drop_zero _)
  refine ⟨w', ?_⟩
  rw [List.length_map, List.map_map]
  exact hw'

end Pulling

section Wrapping

variable {v : Value}

theorem Sequence.iterationCall (h : Sequence v) : IterationCall v "each" := by
  cases h with
  | array items => simp [IterationCall, iterationNames]
  | range r => simp [Range.toValue, IterationCall, iterationNames]
  | enumerator e h => exact ⟨by simp [iterationNames], h⟩

theorem Sequence.wrapped (h : Sequence v) (ids : List Nat) : Sequence (wrapped v ids) := by
  induction ids with
  | nil => exact h
  | cons id ids ih => exact .enumerator ⟨id, Stepwise.wrapped v ids, "each", []⟩ ih.iterationCall

theorem callCourse_wrapped (v : Value) (ids : List Nat) :
    callCourse (wrapped v ids) "each" [] = callCourse v "each" [] := by
  induction ids with
  | nil => rfl
  | cons id ids ih => exact ih

theorem Sequence.follows_each (h : Sequence v) :
    Follows .error (Attempt.invoke v "each" []).run (callCourse v "each" []) :=
  follows_call v "each" [] h.iterationCall

theorem Sequence.lookup_toArray (h : Sequence v) :
    MethodTable.builtin.lookup v.classOf "to_a" = some toArrayMethod := by
  cases h <;> rfl

theorem Sequence.follows_call {e : Enumerator} (h : Sequence e.toValue) :
    Follows .error e.call (callCourse e.toValue "each" []) := by
  generalize hv : e.toValue = v at h
  cases h with
  | array items => cases hv
  | range r => cases hv
  | enumerator e' h =>
      obtain rfl := Enumerator.toValue_injective hv
      exact Stepwise.follows_call _ _ _ h

theorem Sequence.toArray_leadsTo (h : Sequence v) {xs : List (List Value)} {r : Except Error Value}
    (hcourse : callCourse v "each" [] = .ofList xs r) :
    (Attempt.send v "to_a" [] : Attempt Empty Value).run.LeadsTo
      (.pure (r.map fun _ => .array (xs.map Value.pack))) := by
  refine (send_leadsTo [] h.lookup_toArray).trans (LeadsTo.lift ?_)
  have hcollect := collect_leadsTo (ι := Empty) (hcourse ▸ h.follows_each)
  refine LeadsTo.trans (hcollect.bind _) ?_
  cases r <;> exact .refl _

end Wrapping

theorem Range.step_follows_ofList {range : Range} {xs : List (List Value)} {r : Except Error Value}
    (h : callCourse range.toValue "each" [] = .ofList xs r) :
    ∃ r' : Except Error Unit, Follows .error range.step.run (.ofList xs r') ∧
      r = r'.map fun _ => range.toValue := by
  have hstep := range.follows_step
  obtain ⟨vs, r', hcourse, rfl, rfl⟩ := Course.exists_of_map_eq_ofList h
  rw [hcourse, Course.map_ofList] at hstep
  exact ⟨r', hstep, rfl⟩

theorem Items.map_pack (items : List Value) : (items.map fun v => [v]).map Value.pack = items := by
  rw [List.map_map]
  exact List.map_id items

/-- Take an array, a range, or an enumerator that is bound to an iteration. Driven with a recording block,
an array ends and its items are recorded. If a source ends so, then it is the same however often it is
wrapped: driving it records the same, and collecting it and sending `to_a` give the recorded elements or the
error. An outermost enumerator from which nothing was pulled gives the recorded elements one by one and then
the error, or the end of the iteration just if there is none. The steps of the range itself are collected
with the same result. -/
theorem Sequence.materialized {v : Value} (hv : Sequence v) {u : Session} (hu : u.methods = .builtin) :
    (∀ items, v = .array items → (Attempt.invoke v "each" []).Records u items (.ok v) ∧
      (Attempt.collect (Items.step items)).Gives u (.ok items)) ∧
    ∀ (w : Session) (ys : List Value) (r : Except Error Value) (ids : List Nat),
      w.methods = .builtin → (Attempt.invoke v "each" []).Records w ys r →
      (Attempt.invoke (Stepwise.wrapped v ids) "each" []).Records u ys r ∧
      (Stepwise.wrapped v ids).elements.Gives u (r.map fun _ => ys) ∧
      (Attempt.send (Stepwise.wrapped v ids) "to_a" []).Gives u (r.map fun _ => .array ys) ∧
      (∀ e : Enumerator, Stepwise.wrapped v ids = e.toValue →
        (Attempt.collect e.replay).Gives u (r.map fun _ => ys) ∧
        (u.external e = {} → ∃ err, e.Pulls u ys err ∧ (err = .stopIteration ↔ ∃ a, r = .ok a) ∧
          ∀ failure, r = .error failure → err = failure)) ∧
      ∀ range : Range, v = range.toValue → (Attempt.collect range.step).Gives u (r.map fun _ => ys) := by
  constructor
  · rintro items rfl
    have hcollect := collect_leadsTo (ι := Empty) (Items.follows_step items)
    rw [Items.map_pack] at hcollect
    refine ⟨?_, LeadsTo.gives hcollect hu⟩
    exact (Attempt.records_iff hv.follows_each hu).2 ⟨_, rfl, (Items.map_pack items).symm⟩
  intro w ys r ids hw h
  obtain ⟨xs, hxs, rfl⟩ := (Attempt.records_iff hv.follows_each hw).1 h
  have hgenuine : Genuine r := by
    have hends := endsIn_callCourse v "each" []
    rwa [hxs, Course.endsIn_ofList] at hends
  have hwrapped := hv.wrapped ids
  have hcourse := (callCourse_wrapped v ids).trans hxs
  refine ⟨?_, ?_, ?_, ?_, ?_⟩
  · exact (Attempt.records_iff hwrapped.follows_each hu).2 ⟨xs, hcourse, rfl⟩
  · exact LeadsTo.gives (collect_leadsTo (hcourse ▸ hwrapped.follows_each)) hu
  · exact LeadsTo.gives (hwrapped.toArray_leadsTo hcourse) hu
  · intro e he
    rw [he] at hwrapped hcourse
    have hcall := hcourse ▸ hwrapped.follows_call
    refine ⟨LeadsTo.gives (collect_leadsTo (Enumerator.follows_replay hcall)) hu, fun hx => ?_⟩
    refine ⟨_, Enumerator.pulls_of_follows hcall hu hx, reportedEnd_eq_stopIteration_iff hgenuine, ?_⟩
    rintro failure rfl
    rfl
  · rintro range rfl
    obtain ⟨r', hstep, rfl⟩ := Range.step_follows_ofList hxs
    have hr : ((r'.map fun _ => range.toValue).map fun _ => xs.map Value.pack) =
        r'.map fun _ => xs.map Value.pack := by cases r' <;> rfl
    rw [hr]
    exact LeadsTo.gives (collect_leadsTo hstep) hu

theorem Sequence.materialized_at_largest :
    let ends : Value := .range (.int (Int64.maxValue - 1)) .nil false
    let ys : List Value := [.int (Int64.maxValue - 1), .int Int64.maxValue]
    let err : Error := .overflow (Value.integerText Int64.maxValue)
    (Attempt.invoke ends "each" []).Records .start ys (.error err) ∧
      (Stepwise.wrapped ends [8, 7]).elements.Gives .start (.error err) ∧
      (⟨8, Stepwise.wrapped ends [7], "each", []⟩ : Enumerator).Pulls .start ys err := by
  have hv : Sequence (.range (.int (Int64.maxValue - 1)) .nil false) :=
    .range ⟨.int (Int64.maxValue - 1), .nil, false⟩
  have h : (Attempt.invoke (.range (.int (Int64.maxValue - 1)) .nil false) "each" []).Records .start
      [.int (Int64.maxValue - 1), .int Int64.maxValue]
      (.error (.overflow (Value.integerText Int64.maxValue))) := ⟨_, 40, rfl⟩
  obtain ⟨-, helements, -, hpulls, -⟩ :=
    (Sequence.materialized hv (u := .start) rfl).2 .start _ _ [8, 7] rfl h
  obtain ⟨err, herr, -, hfailure⟩ := (hpulls ⟨8, _, "each", []⟩ rfl).2 rfl
  rw [hfailure _ rfl] at herr
  exact ⟨h, helements, herr⟩

end Stepwise
