import Mathlib.Logic.Function.Iterate
import Stepwise.Proofs.PrintModes
import Stepwise.Proofs.RangeFailures

namespace Stepwise

open Routine

theorem Course.event_ofList {ι α : Type} (xs : List ι) (a : α) (i : Nat) :
    (ofList xs a).event i = xs[i]?.elim (.inr a) .inl := by
  induction xs generalizing i with
  | nil => rfl
  | cons x xs ih =>
      cases i with
      | zero => rfl
      | succ i => exact ih i

section Rounds

variable {e : Enumerator} {t : CallCourse} {w : Session} {p : Position}

universe u

theorem Run.append {σ : Type u} {step : Operation → σ → Answer → σ → Prop} {ops ops' : List Operation}
    {answers answers' : List Answer} {s s' s'' : σ} (h : Run step ops s answers s')
    (h' : Run step ops' s' answers' s'') : Run step (ops ++ ops') s (answers ++ answers') s'' := by
  induction h with
  | nil => exact h'
  | cons h _ ih => exact .cons h (ih h')

theorem Tracks.run_pulls (he : Follows .error e.call t) (h : Tracks e t w p) (n : Nat) :
    ∃ w', Run (Performs e) (List.replicate n .next) w
        ((List.range n).map fun i => .pulled (((Position.next t)^[i] p).pull t)) w' ∧
      Tracks e t w' ((Position.next t)^[n] p) := by
  induction n generalizing w p with
  | zero => exact ⟨w, .nil w, h⟩
  | succ n ih =>
      obtain ⟨w₁, hnext, -, h₁⟩ := h.next he
      obtain ⟨w', hrun, hw'⟩ := ih h₁
      refine ⟨w', ?_, hw'⟩
      rw [List.replicate_succ, List.range_succ_eq_map, List.map_cons, List.map_map]
      exact .cons (.next hnext) hrun

def rounds (ns : List Nat) : List Operation := ns.flatMap fun n => List.replicate n .next ++ [.rewind]

def roundAnswers (pull : Nat → Except Error Value) (ns : List Nat) : List Answer :=
  ns.flatMap fun n => (List.range n).map (fun i => .pulled (pull i)) ++ [.rewound]

theorem Tracks.run_rounds (he : Follows .error e.call t) (h : Tracks e t w (.before 0)) (ns : List Nat) :
    ∃ w', Run (Performs e) (rounds ns) w
      (roundAnswers (fun i => ((Position.next t)^[i] (.before 0)).pull t) ns) w' := by
  induction ns generalizing w with
  | nil => exact ⟨w, .nil w⟩
  | cons n ns ih =>
      obtain ⟨w₁, hrun, h₁⟩ := h.run_pulls he n
      have hfresh : Tracks e t (w₁.rewind e) (.before 0) :=
        ⟨h₁.methods, by rw [Session.external_rewind]; exact .fresh⟩
      obtain ⟨w', hrest⟩ := ih hfresh
      exact ⟨w', (hrun.append (.cons (.rewind w₁) (.nil _))).append hrest⟩

theorem Position.iterate_next_ofList (xs : List (List Value)) (r : Except Error Value) (i : Nat) :
    (next (.ofList xs r))^[i] (.before 0) = if i ≤ xs.length then .before i else .exhausted := by
  induction i with
  | zero => rfl
  | succ i ih =>
      rw [Function.iterate_succ_apply', ih]
      by_cases hi : i ≤ xs.length
      · rw [if_pos hi, next, Course.event_ofList]
        by_cases hlt : i < xs.length
        · rw [List.getElem?_eq_getElem hlt, if_pos (Nat.succ_le_of_lt hlt)]
          rfl
        · rw [List.getElem?_eq_none (Nat.not_lt.1 hlt)]
          exact (if_neg hlt).symm
      · rw [if_neg hi, if_neg (by omega)]
        rfl

end Rounds

namespace Integer

/-- What the pull with this number gives, from zero on, if integers are counted up without an end. -/
def endlessPull (a : Int64) (i : Nat) : Except Error Value :=
  if a.toInt + i ≤ Int64.maxValue.toInt then .ok (.int (Int64.ofInt (a.toInt + i)))
  else if a.toInt + i = Int64.maxValue.toInt + 1 then .error (.overflow (Value.integerText Int64.maxValue))
  else .error .stopIteration

def remaining (a : Int64) : Nat := (Int64.maxValue.toInt + 1 - a.toInt).toNat

theorem le_remaining_iff (a : Int64) (k : Nat) :
    k ≤ remaining a ↔ (k : Int) ≤ Int64.maxValue.toInt - a.toInt + 1 := by
  have hle := a.toInt_le
  rw [remaining]
  omega

theorem length_counted (start : Int) (count : Nat) : (counted start count).length = count := by
  simp [counted, numbers]

theorem getElem?_counted (start : Int) {count i : Nat} (h : i < count) :
    (counted start count)[i]? = some [.int (Int64.ofInt (start + i))] := by
  simp [counted, numbers, h]

theorem take_numbers (start : Int) (count k : Nat) :
    (numbers start count).take k = numbers start (min k count) := by
  rw [numbers, ← List.map_take, List.take_range, numbers]

theorem lines_counted (start : Int) (count k : Nat) (r : Except Error Value) :
    Mode.lines ((counted start count).map Value.pack) r (.lazy (some k)) =
      (numbers start (min k count)).map Value.integerText := by
  rw [Mode.lines, counted, List.map_map, ← List.map_take, take_numbers, List.map_map]
  rfl

def endlessCourse (a : Int64) : CallCourse :=
  .ofList (counted a.toInt (remaining a)) (.error (.overflow (Value.integerText Int64.maxValue)))

theorem callCourse_endless (a : Int64) (excludeEnd : Bool) :
    callCourse (.range (.int a) .nil excludeEnd) "each" [] = endlessCourse a := by
  have hcourse : Range.course ⟨.int a, .nil, excludeEnd⟩ = _ := Range.course_overflow rfl a
  change (Range.course _).map _ _ = _
  rw [hcourse, Course.map_ofList, List.map_map]
  rfl

theorem pull_endlessCourse (a : Int64) (i : Nat) :
    ((Position.next (endlessCourse a))^[i] (.before 0)).pull (endlessCourse a) = endlessPull a i := by
  have hle := a.toInt_le
  have hcount : a.toInt + remaining a = Int64.maxValue.toInt + 1 := by
    rw [remaining]
    omega
  rw [endlessCourse, Position.iterate_next_ofList, length_counted, endlessPull]
  obtain hlt | heq | hgt := Nat.lt_trichotomy i (remaining a)
  · rw [if_pos (by omega), if_pos (by omega), Position.pull, Course.event_ofList, getElem?_counted _ hlt]
    rfl
  · have hend : (counted a.toInt (remaining a))[i]? = none :=
      List.getElem?_eq_none (by rw [length_counted, heq])
    rw [if_pos (by omega), if_neg (by omega), if_pos (by omega), Position.pull, Course.event_ofList, hend]
    rfl
  · rw [if_neg (by omega), if_neg (by omega), if_neg (by omega)]
    rfl

theorem follows_endless (a : Int64) (excludeEnd : Bool) :
    Follows .error (.invoke (.range (.int a) .nil excludeEnd) "each" [] .pure) (endlessCourse a) := by
  rw [← callCourse_endless a excludeEnd]
  exact follows_call _ "each" [] (IterationEntry.range (.int a) .nil excludeEnd).iterationCall

theorem outputs_endless (a : Int64) (excludeEnd : Bool) {w : Session} (hw : w.methods = .builtin)
    (hx : w.externals = []) (k : Nat) :
    (Call.run ⟨.range (.int a) .nil excludeEnd, "each", []⟩ (.lazy (some k))).Outputs none w
      (printed ((numbers a.toInt (min k (remaining a))).map Value.integerText))
      (if k ≤ remaining a then .ok () else .error (.runtime (.overflow (Value.integerText Int64.maxValue)))) := by
  let c : Call := ⟨.range (.int a) .nil excludeEnd, "each", []⟩
  have hcall : Follows .error (Attempt.invoke c.receiver c.method c.args).run (endlessCourse a) :=
    follows_endless a excludeEnd
  have hrecords := (Attempt.records_iff hcall hw).2 ⟨_, rfl, rfl⟩
  obtain ⟨w', hemits⟩ := Call.emitsAll_run_of_shows (c := c) (.range (.int a) .nil excludeEnd) (.inr rfl)
    (Call.checkBounded_take c k) hw hx (.all hrecords _)
  rw [lines_counted, Mode.outcome, List.length_map, length_counted] at hemits
  exact Printing.outputs_iff.2 ⟨_, w', hemits, rfl⟩

end Integer

namespace Range

open Integer

/-- Take a range of the integers from a given one on. A new enumerator of its elements gives them one after another,
each the next integer, to the largest one. The pull after that reports the overflow, and all later ones the end of
the iteration, until the enumerator is rewound and all is as at first, again and again. So the command that pulls
so many elements prints just these and succeeds, if there are so many integers, and otherwise prints all of them
and fails with the overflow. -/
theorem endless_integers_pulled (a : Int64) (excludeEnd : Bool) (id : Nat) {w : Session}
    (hw : w.methods = .builtin) (hfresh : w.external ⟨id, .range (.int a) .nil excludeEnd, "each", []⟩ = {})
    {text : String} (htext : Literal.read text = .int a) {v : Session} (hv : v.methods = .builtin)
    (hx : v.externals = []) :
    (∀ ns, ∃ w', Run (Performs ⟨id, .range (.int a) .nil excludeEnd, "each", []⟩) (rounds ns) w
      (roundAnswers (endlessPull a) ns) w') ∧
    ∃ c, Call.each text none excludeEnd = .ok c ∧ ∀ k,
      (c.run (.lazy (some k))).Outputs none v
        (printed ((numbers a.toInt (min k (remaining a))).map Value.integerText))
        (if k ≤ remaining a then .ok () else .error (.runtime (.overflow (Value.integerText Int64.maxValue)))) ∧
      ((∃ lines : List String, lines.length = k ∧
          (c.run (.lazy (some k))).Outputs none v (printed lines) (.ok ())) ↔
        (k : Int) ≤ Int64.maxValue.toInt - a.toInt + 1) := by
  constructor
  · intro ns
    let e : Enumerator := ⟨id, .range (.int a) .nil excludeEnd, "each", []⟩
    have hcall : Follows .error e.call (endlessCourse a) := follows_endless a excludeEnd
    have htracks : Tracks e (endlessCourse a) w (.before 0) := ⟨hw, by rw [hfresh]; exact .fresh⟩
    obtain ⟨w', hrun⟩ := htracks.run_rounds hcall ns
    simp only [pull_endlessCourse] at hrun
    exact ⟨w', hrun⟩
  · refine ⟨⟨.range (.int a) .nil excludeEnd, "each", []⟩, ?_, fun k => ?_⟩
    · exact Call.each_eq_ok_iff.2 ⟨⟨.int a, .nil, excludeEnd⟩, by rw [htext]; rfl, rfl⟩
    · have hout := outputs_endless a excludeEnd hv hx k
      refine ⟨hout, ?_⟩
      rw [← le_remaining_iff]
      constructor
      · rintro ⟨lines, -, hlines⟩
        by_contra hk
        rw [if_neg hk] at hout
        cases (hlines.unique hout).2
      · intro hk
        rw [if_pos hk, Nat.min_eq_left hk] at hout
        exact ⟨_, by simp [numbers], hout⟩

theorem endless_integers_pulled_to_overflow :
    let a := Int64.maxValue - 1
    let e : Enumerator := ⟨0, .range (.int a) .nil true, "each", []⟩
    Literal.read "9223372036854775806" = .int a ∧ Session.start.external e = {} ∧
      (∃ w, Run (Performs e) [.next, .next, .next, .next, .rewind, .next, .rewind] .start
        [.pulled (.ok (.int a)), .pulled (.ok (.int Int64.maxValue)),
          .pulled (.error (.overflow "9223372036854775807")), .pulled (.error .stopIteration), .rewound,
          .pulled (.ok (.int a)), .rewound] w) ∧
      ∃ c, Call.each "9223372036854775806" none true = .ok c ∧
        (c.run (.lazy (some 2))).Outputs none .start
          (printed ["9223372036854775806", "9223372036854775807"]) (.ok ()) ∧
        (c.run (.lazy (some 3))).Outputs none .start
          (printed ["9223372036854775806", "9223372036854775807"])
          (.error (.runtime (.overflow "9223372036854775807"))) := by
  have htext : Literal.read "9223372036854775806" = .int (Int64.maxValue - 1) := rfl
  have hfirst : endlessPull (Int64.maxValue - 1) 0 = .ok (.int (Int64.maxValue - 1)) := rfl
  have hlast : endlessPull (Int64.maxValue - 1) 1 = .ok (.int Int64.maxValue) := rfl
  have hover : endlessPull (Int64.maxValue - 1) 2 = .error (.overflow "9223372036854775807") := rfl
  have hstop : endlessPull (Int64.maxValue - 1) 3 = .error .stopIteration := rfl
  have hremaining : remaining (Int64.maxValue - 1) = 2 := by decide +kernel
  have hnumbers : (numbers (Int64.maxValue - 1).toInt 2).map Value.integerText =
      ["9223372036854775806", "9223372036854775807"] := by decide +kernel
  intro a e
  obtain ⟨hrun, c, hc, hout⟩ := endless_integers_pulled _ true 0 (w := .start) rfl rfl htext (v := .start) rfl rfl
  obtain ⟨w, hw⟩ := hrun [4, 1]
  have hanswers : roundAnswers (endlessPull (Int64.maxValue - 1)) [4, 1] =
      [.pulled (endlessPull (Int64.maxValue - 1) 0), .pulled (endlessPull (Int64.maxValue - 1) 1),
        .pulled (endlessPull (Int64.maxValue - 1) 2), .pulled (endlessPull (Int64.maxValue - 1) 3), .rewound,
        .pulled (endlessPull (Int64.maxValue - 1) 0), .rewound] := rfl
  rw [hanswers, hfirst, hlast, hover, hstop] at hw
  have htwo : (c.run (.lazy (some 2))).Outputs none .start _ _ := (hout 2).1
  have hthree : (c.run (.lazy (some 3))).Outputs none .start _ _ := (hout 3).1
  rw [hremaining, Nat.min_self, hnumbers, if_pos le_rfl] at htwo
  rw [hremaining, Nat.min_eq_right (by decide), hnumbers, if_neg (by decide)] at hthree
  exact ⟨htext, rfl, ⟨w, hw⟩, c, hc, htwo, hthree⟩

end Range

end Stepwise
