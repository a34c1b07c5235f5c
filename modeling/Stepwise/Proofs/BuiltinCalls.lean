import Stepwise.Proofs.Stepping

namespace Stepwise

open Routine

namespace Value

def next : Value → Except Error Value
  | int n => (integerSucc n).map .int
  | str s => .ok (.str (Text.succ s))
  | v => .error (.noMethod "succ" v.className)

def hasNext : Value → Bool
  | int _ | str _ => true
  | _ => false

theorem steadySucc_next : Steppable.SteadySucc next := by
  have missing {v : Value} (hv : MethodTable.builtin.lookup v.classOf "succ" = none)
      (hn : v.next = .error (.noMethod "succ" v.className)) :
      (Steppable.succ v : Attempt Empty Value).run.LeadsTo (.pure v.next) := by
    rw [hn]
    exact send_leadsTo_none [] hv
  intro v
  cases v with
  | int n =>
      have hsucc : (Integer.succMethod.plain (.int n) []).run = .pure (next (.int n)) := by
        change (do return .int (← Attempt.ofExcept (integerSucc n)) : Attempt Empty Value).run = _
        rw [next]
        cases integerSucc n <;> rfl
      refine (send_leadsTo [] (m := Integer.succMethod) rfl).trans (LeadsTo.lift ?_)
      rw [hsucc]
      exact .refl _
  | str s => exact (send_leadsTo [] (m := stringSuccMethod) rfl).trans (LeadsTo.lift (.refl _))
  | bool b => cases b <;> exact missing rfl rfl
  | nil | float | array | range | enumerator => exact missing rfl rfl

theorem respondsToSucc_leadsTo (v : Value) :
    (Steppable.respondsToSucc v).LeadsTo (.pure v.hasNext) := by
  refine (respondsTo_leadsTo v "succ" _).trans ?_
  cases v with
  | bool b => cases b <;> exact .refl _
  | _ => exact .refl _

end Value

namespace Range

def course (r : Range) : Course Value (Except Error Unit) :=
  if r.first.hasNext then Steppable.course Value.next r.first r.last? r.excludeEnd
  else .done (.error (.cannotIterate r.first.className))

theorem follows_step (r : Range) :
    Follows .error r.step.run (r.course.map (fun v => [v]) id) := by
  refine Follows.forEach Notice.rangeElement (fun v => [v]) ?_
  have hfirst := Value.respondsToSucc_leadsTo r.first
  rw [course]
  cases hn : r.first.hasNext with
  | true =>
      rw [hn] at hfirst
      exact Steppable.follows_stepRange Value.steadySucc_next hfirst r.last? r.excludeEnd
  | false =>
      rw [hn] at hfirst
      exact Steppable.follows_stepRange_of_not hfirst r.last? r.excludeEnd

end Range

namespace Integer

def numbers (start : Int) (count : Nat) : List Int64 :=
  (List.range count).map fun i : Nat => Int64.ofInt (start + i)

theorem numbers_succ (start : Int) (count : Nat) :
    numbers start (count + 1) = Int64.ofInt start :: numbers (start + 1) count := by
  have hshift (i : Nat) : start + (i + 1 : Nat) = start + 1 + i := by omega
  rw [numbers, numbers, List.range_succ_eq_map, List.map_cons, List.map_map]
  simp only [Function.comp_def, Nat.succ_eq_add_one, hshift, Int.natCast_zero, Int.add_zero]

def counted (start : Int) (count : Nat) : List (List Value) :=
  (numbers start count).map fun n => [.int n]

theorem counted_succ (start : Int) (count : Nat) :
    counted start (count + 1) = [.int (Int64.ofInt start)] :: counted (start + 1) count := by
  rw [counted, numbers_succ, List.map_cons]
  rfl

theorem toInt_add_one {n : Int64} (h : n ≠ Int64.maxValue) : (n + 1).toInt = n.toInt + 1 := by
  have hle := n.toInt_le
  have hge := n.le_toInt
  have hne : n.toInt ≠ Int64.maxValue.toInt := fun he => h (Int64.toInt_inj.1 he)
  have hmin : Int64.minValue.toInt = -9223372036854775808 := rfl
  have hmax : Int64.maxValue.toInt = 9223372036854775807 := rfl
  rw [Int64.toInt_add, Int64.toInt_one, Int.bmod_eq_of_le] <;> omega

theorem toInt_add_one_of_lt {i n : Int64} (h : i.toInt < n.toInt) : (i + 1).toInt = i.toInt + 1 := by
  refine toInt_add_one ?_
  rintro rfl
  have hle := n.toInt_le
  omega

def timesPass (n i : Int64) : (List Value × Except Error (Int64 ⊕ Unit)) ⊕ Except Error Unit :=
  if i < n then .inl ([.int i], .ok (.inl (i + 1))) else .inr (.ok ())

def uptoPass (bound i : Int64) : (List Value × Except Error (Int64 ⊕ Unit)) ⊕ Except Error Unit :=
  if i ≤ bound then .inl ([.int i], .ok (if i = bound then .inr () else .inl (i + 1)))
  else .inr (.ok ())

theorem follows_timesStep (n i : Int64) :
    Follows .error (timesStep n i).run (passCourse (timesPass n i)) := by
  unfold timesStep timesPass
  split
  · exact follows_cons.2 ⟨_, note_leadsTo _ _, follows_pure _, fun err => .refl _⟩
  · exact follows_pure _

theorem follows_uptoStep (bound i : Int64) :
    Follows .error (uptoStep bound i).run (passCourse (uptoPass bound i)) := by
  unfold uptoStep uptoPass
  split
  · refine follows_cons.2 ⟨_, note_leadsTo _ _, ?_, fun err => .refl _⟩
    split <;> exact follows_pure _
  · exact follows_pure _

theorem unfold_timesPass (n i : Int64) :
    Course.unfold (Stage.step (timesPass n)) (.inl i) =
      .ofList (counted i.toInt (n.toInt - i.toInt).toNat) (.ok ()) := by
  generalize hcount : (n.toInt - i.toInt).toNat = count
  induction count generalizing i with
  | zero =>
      have hi : ¬ i < n := by rw [Int64.lt_iff_toInt_lt]; omega
      exact Course.unfold_of_inr (by rw [Stage.step, timesPass, if_neg hi]; rfl)
  | succ count ih =>
      have hi : i.toInt < n.toInt := by omega
      have hstep : Stage.step (timesPass n) (.inl i) = .inl ([.int i], .inl (i + 1)) := by
        rw [Stage.step, timesPass, if_pos (Int64.lt_iff_toInt_lt.2 hi)]
        rfl
      have hnext := toInt_add_one_of_lt hi
      rw [Course.unfold_of_inl hstep, ih (i + 1) (by omega), hnext, counted_succ, Int64.ofInt_toInt,
        Course.ofList_cons]

/-- Nothing is added to the bound, and the addition to an integer below it does not wrap. -/
theorem unfold_uptoPass (bound i : Int64) :
    Course.unfold (Stage.step (uptoPass bound)) (.inl i) =
      .ofList (counted i.toInt (bound.toInt + 1 - i.toInt).toNat) (.ok ()) := by
  generalize hcount : (bound.toInt + 1 - i.toInt).toNat = count
  induction count generalizing i with
  | zero =>
      have hi : ¬ i ≤ bound := by rw [Int64.le_iff_toInt_le]; omega
      exact Course.unfold_of_inr (by rw [Stage.step, uptoPass, if_neg hi]; rfl)
  | succ count ih =>
      have hi : i ≤ bound := Int64.le_iff_toInt_le.2 (by omega)
      rw [counted_succ, Int64.ofInt_toInt, Course.ofList_cons]
      by_cases hb : i = bound
      · have hstep : Stage.step (uptoPass bound) (.inl i) = .inl ([.int i], .inr (.ok ())) := by
          rw [Stage.step, uptoPass, if_pos hi, if_pos hb]
          rfl
        obtain rfl : count = 0 := by subst hb; omega
        rw [Course.unfold_of_inl hstep, Stage.unfold_end]
        rfl
      · have hlt : i.toInt < bound.toInt := by
          have hne : i.toInt ≠ bound.toInt := fun he => hb (Int64.toInt_inj.1 he)
          omega
        have hstep : Stage.step (uptoPass bound) (.inl i) = .inl ([.int i], .inl (i + 1)) := by
          rw [Stage.step, uptoPass, if_pos hi, if_neg hb]
          rfl
        have hnext := toInt_add_one_of_lt hlt
        rw [Course.unfold_of_inl hstep, ih (i + 1) (by omega), hnext]

end Integer

namespace Items

theorem follows_step (items : List Value) :
    Follows .error (step items).run (.ofList (items.map fun v => [v]) (.ok ())) := by
  induction items with
  | nil => exact follows_pure _
  | cons v items ih =>
      rw [List.map_cons, Course.ofList_cons, follows_cons]
      exact ⟨_, .refl _, ih, fun err => .refl _⟩

end Items

/-- The course of a call by the built-in methods. Replaying an enumerator is the call it is bound to,
and so on inwards. -/
def callCourse : Value → String → List Value → Course (List Value) (Except Error Value)
  | .int n, "times", args =>
    if args.length = 0 then .ofList (Integer.counted 0 n.toInt.toNat) (.ok (.int n))
    else .done (.error (.argumentCount "times" 0 args.length))
  | .int start, "upto", args =>
    if args.length = 1 then
      match (args.headD .nil).asInt with
      | .ok bound => .ofList
          (Integer.counted start.toInt (bound.toInt + 1 - start.toInt).toNat) (.ok (.int start))
      | .error err => .done (.error err)
    else .done (.error (.argumentCount "upto" 1 args.length))
  | .array items, "each", args =>
    if args.length = 0 then .ofList (items.map fun v => [v]) (.ok (.array items))
    else .done (.error (.argumentCount "each" 0 args.length))
  | .range first last excludeEnd, "each", args =>
    if args.length = 0 then (Range.course ⟨first, last, excludeEnd⟩).map (fun v => [v])
      fun r => r.map fun _ => .range first last excludeEnd
    else .done (.error (.argumentCount "each" 0 args.length))
  | .enumerator _ receiver method bound, "each", args =>
    if args.length = 0 then callCourse receiver method bound
    else .done (.error (.argumentCount "each" 0 args.length))
  | v, method, _ => .done (.error (.noMethod method v.className))

def iterationNames : List String := ["times", "upto", "each"]

/-- A call of an iteration method. Where its receiver is an enumerator, the enumerator is bound to such
a call itself. -/
def IterationCall : Value → String → Prop
  | .enumerator _ receiver method _, name => name ∈ iterationNames ∧ IterationCall receiver method
  | _, name => name ∈ iterationNames

theorem follows_arity {α : Type} (method : String) (args : List Value) (expected : Nat)
    {body : Attempt (List Value) α} {t : Course (List Value) (Except Error α)}
    (h : args.length = expected → Follows .error body.run t) :
    Follows .error (do
      Attempt.arity method args expected
      body).run
      (if args.length = expected then t
        else .done (.error (.argumentCount method expected args.length))) := by
  unfold Attempt.arity
  split
  · exact h ‹_›
  · exact follows_pure _

theorem Routine.Follows.returning {ι α β : Type} {body : Attempt ι α} {t : Course ι (Except Error α)}
    (h : Follows .error body.run t) (b : β) :
    Follows .error (do
      let _ ← body
      return b).run (t.map id fun r => r.map fun _ => b) := by
  have hrun : (do
      let _ ← body
      return b : Attempt ι β).run = body.run.bind fun r => .pure (r.map fun _ => b) := by
    change body.run.bind _ = _
    congr 1
    funext r
    cases r <;> rfl
  rw [hrun]
  exact h.map_result (g := fun r => r.map fun _ => b) fun err => rfl

theorem Integer.follows_timesBody (n : Int64) :
    Follows .error (timesBody n).run (.ofList (counted 0 n.toInt.toNat) (.ok (.int n))) := by
  have h := (follows_loop (follows_timesStep n) 0).returning (Value.int n)
  rwa [unfold_timesPass, Int64.toInt_zero, Int.sub_zero, Course.map_ofList, List.map_id] at h

theorem Integer.follows_uptoBody (start bound : Int64) :
    Follows .error (uptoBody start bound).run (.ofList
      (counted start.toInt (bound.toInt + 1 - start.toInt).toNat) (.ok (.int start))) := by
  have h := (follows_loop (follows_uptoStep bound) start).returning (Value.int start)
  rwa [unfold_uptoPass, Course.map_ofList, List.map_id] at h

theorem Items.follows_each (items args : List Value) :
    Follows .error (eachMethod.withBlock (.array items) args).run
      (callCourse (.array items) "each" args) := by
  have h := (follows_step items).returning (Value.array items)
  rw [Course.map_ofList, List.map_id] at h
  cases args with
  | nil => exact h
  | cons => exact follows_pure _

theorem Range.follows_each (r : Range) (args : List Value) :
    Follows .error (eachMethod.withBlock r.toValue args).run (callCourse r.toValue "each" args) := by
  have h := r.follows_step.returning r.toValue
  rw [Course.map_map] at h
  cases args with
  | nil => exact h
  | cons => exact follows_pure _

theorem follows_call : (receiver : Value) → (method : String) → (args : List Value) →
    IterationCall receiver method →
    Follows .error (invoke receiver method args .pure) (callCourse receiver method args)
  | .enumerator id receiver method bound, name, args, h => by
      obtain ⟨hname, hbound⟩ := h
      simp only [iterationNames, List.mem_cons, List.not_mem_nil, or_false] at hname
      obtain rfl | rfl | rfl := hname
      · exact follows_done.2 (invoke_leadsTo_none args rfl)
      · exact follows_done.2 (invoke_leadsTo_none args rfl)
      · refine .of_leadsTo (invoke_leadsTo args (m := Enumerator.eachMethod) rfl) ?_
        refine follows_arity "each" args 0 fun _ => ?_
        exact .of_leadsTo (note_leadsTo _ _) (follows_call receiver method bound hbound)
  | .int n, name, args, h => by
      simp only [IterationCall, iterationNames, List.mem_cons, List.not_mem_nil, or_false] at h
      obtain rfl | rfl | rfl := h
      · refine .of_leadsTo (invoke_leadsTo args (m := Integer.timesMethod) rfl) ?_
        exact follows_arity "times" args 0 fun _ => Integer.follows_timesBody n
      · refine .of_leadsTo (invoke_leadsTo args (m := Integer.uptoMethod) rfl) ?_
        refine follows_arity "upto" args 1 fun _ => ?_
        cases (args.headD .nil).asInt with
        | ok bound => exact Integer.follows_uptoBody n bound
        | error err => exact follows_pure _
      · exact follows_done.2 (invoke_leadsTo_none args rfl)
  | .array items, name, args, h => by
      simp only [IterationCall, iterationNames, List.mem_cons, List.not_mem_nil, or_false] at h
      obtain rfl | rfl | rfl := h
      · exact follows_done.2 (invoke_leadsTo_none args rfl)
      · exact follows_done.2 (invoke_leadsTo_none args rfl)
      · exact .of_leadsTo (invoke_leadsTo args (m := Items.eachMethod) rfl)
          (Items.follows_each items args)
  | .range first last excludeEnd, name, args, h => by
      simp only [IterationCall, iterationNames, List.mem_cons, List.not_mem_nil, or_false] at h
      obtain rfl | rfl | rfl := h
      · exact follows_done.2 (invoke_leadsTo_none args rfl)
      · exact follows_done.2 (invoke_leadsTo_none args rfl)
      · exact .of_leadsTo (invoke_leadsTo args (m := Range.eachMethod) rfl)
          (Range.follows_each ⟨first, last, excludeEnd⟩ args)
  | .bool b, name, args, h => by
      simp only [IterationCall, iterationNames, List.mem_cons, List.not_mem_nil, or_false] at h
      cases b <;> obtain rfl | rfl | rfl := h <;> exact follows_done.2 (invoke_leadsTo_none args rfl)
  | .nil, name, args, h | .float x, name, args, h | .str s, name, args, h => by
      simp only [IterationCall, iterationNames, List.mem_cons, List.not_mem_nil, or_false] at h
      obtain rfl | rfl | rfl := h <;> exact follows_done.2 (invoke_leadsTo_none args rfl)

end Stepwise
