import Mathlib.Data.List.Sort
import Stepwise.Proofs.ExactNumbers
import Stepwise.Proofs.TextSteps

namespace Stepwise

open Routine

namespace Binary64

variable {x : Binary64}

/-- The limit of the integers is on the same side of the exact value and of what stands for it. -/
theorem exists_value (h : x.isNaN = false) :
    ∃ q, x.value = some q ∧ (q < ((2 ^ 63 : ℚ) : WithBotTop ℚ) ↔ x.rational < 2 ^ 63) := by
  by_cases he : x.exponentBits = 2047
  · have hf : x.fractionBits = 0 := by
      by_contra hf
      exact Bool.false_ne_true (h.symm.trans (isNaN_iff.2 ⟨he, hf⟩))
    obtain ⟨big, hbig, hrational⟩ := rational_of_infinite he hf
    refine ⟨_, by rw [value, if_pos he, if_pos hf], ?_⟩
    cases hs : x.signBit with
    | true =>
        rw [hs, if_pos rfl] at hrational
        rw [if_pos rfl, hrational]
        exact iff_of_true (bot_lt_iff_ne_bot.2 (WithBotTop.coe_ne_bot _)) (by linarith)
    | false =>
        rw [hs, if_neg Bool.false_ne_true] at hrational
        rw [if_neg Bool.false_ne_true, hrational]
        exact iff_of_false not_top_lt (by linarith)
  · exact ⟨x.rational, by rw [value, if_neg he], WithBotTop.coe_lt_coe⟩

theorem cmp_value (h : x.isNaN = false) {q : WithBotTop ℚ} (hq : x.value = some q) (n : Int64) :
    cmp ((n.toInt : ℚ) : WithBotTop ℚ) q = cmp (n.toInt : ℚ) x.rational := by
  have hcompare := compareInt_eq_map_value n x
  rw [hq, compareInt_eq_cmp h] at hcompare
  exact (Option.some.inj hcompare).symm

theorem pastIntegers_iff (h : x.isNaN = false) : x.pastIntegers = true ↔ 2 ^ 63 ≤ x.rational := by
  have hpos : (0 : ℚ) < unitsPerOne := Nat.cast_pos.2 unitsPerOne_pos
  have hlimit : ((9223372036854775808 : ℤ) : ℚ) = 2 ^ 63 := by norm_num
  rw [pastIntegers, h, Bool.not_false, Bool.true_and, decide_eq_true_eq, ← Int.cast_le (R := ℚ), Int.cast_mul,
    Int.cast_natCast, cast_units, hlimit]
  exact mul_le_mul_iff_left₀ hpos

end Binary64

namespace Value

open Steppable (course course_of_lt course_of_eq course_of_gt)

variable {x : Binary64}

/-- Where the integers end that are below a rational number, or up to it if the end is not excluded. -/
def stopAt (q : ℚ) (excludeEnd : Bool) : Int := if excludeEnd then ⌈q⌉ else ⌊q⌋ + 1

theorem lt_stopAt_iff {q : ℚ} {excludeEnd : Bool} {n : Int} :
    n < stopAt q excludeEnd ↔ if excludeEnd then (n : ℚ) < q else (n : ℚ) ≤ q := by
  cases excludeEnd with
  | true => exact Int.lt_ceil
  | false => exact Int.lt_add_one_iff.trans Int.le_floor

theorem ceil_le_stopAt (q : ℚ) (excludeEnd : Bool) : ⌈q⌉ ≤ stopAt q excludeEnd := by
  cases excludeEnd with
  | true => exact le_rfl
  | false => exact Int.ceil_le_floor_add_one q

theorem range_stopAt_self (n : Int) (excludeEnd : Bool) :
    Int.range n (stopAt n excludeEnd) = if excludeEnd then [] else [n] := by
  cases excludeEnd with
  | true => simp [stopAt, Int.range]
  | false => simp [stopAt, Int.range]

theorem range_stopAt_of_lt {q : ℚ} {n : Int} (h : q < n) (excludeEnd : Bool) :
    Int.range n (stopAt q excludeEnd) = [] := by
  have hstop : stopAt q excludeEnd ≤ n := by
    by_contra hn
    apply not_le.2 h
    have hle := lt_stopAt_iff.1 (not_le.1 hn)
    split at hle
    · exact hle.le
    · exact hle
  rw [Int.range, Int.toNat_of_nonpos (by omega)]
  rfl

theorem exists_course_int_float (hx : x.isNaN = false) (hlt : x.rational < 2 ^ 63) (a : Int64)
    (excludeEnd : Bool) :
    ∃ ks : List Int64, course next (.int a) (some (.float x)) excludeEnd = .ofList (ks.map .int) (.ok ()) ∧
      ks.map Int64.toInt = Int.range a.toInt (stopAt x.rational excludeEnd) := by
  let C (k : Int64) := course next (.int k) (some (.float x)) excludeEnd
  have hcompare (k : Int64) :
      Steppable.compare (Value.int k) (Value.float x) = some (cmp (k.toInt : ℚ) x.rational) :=
    Binary64.compareInt_eq_cmp hx k
  have hcons (k : Int64) (_ : True) (hk : k.toInt < ⌈x.rational⌉) :
      ∃ k', C k = .cons (.int k) (C k') ∧ True ∧ k'.toInt = k.toInt + 1 := by
    have hc : Steppable.compare (Value.int k) (Value.float x) = some .lt := by
      rw [hcompare, (cmp_eq_lt_iff _ _).2 (Int.lt_ceil.1 hk)]
    have hmax : k ≠ Int64.maxValue := by
      rintro rfl
      have hpast := (compare_maxValue_lt_iff (by simp)).1 hc
      exact not_le.2 hlt ((Binary64.pastIntegers_iff hx).1 hpast)
    have hnext : next (.int k) = .ok (.int (k + 1)) := by
      rw [next, integerSucc, if_neg hmax]
      rfl
    exact ⟨k + 1, course_of_lt hc hnext, trivial, Integer.toInt_add_one hmax⟩
  have hend (k : Int64) (_ : True) (hk : ⌈x.rational⌉ ≤ k.toInt) : ∃ ks : List Int64,
      C k = .ofList (ks.map .int) (.ok ()) ∧ (∀ k ∈ ks, True) ∧
        ks.map Int64.toInt = Int.range k.toInt (stopAt x.rational excludeEnd) := by
    obtain heq | hgt := (Int.ceil_le.1 hk).eq_or_lt
    · have hc : Steppable.compare (Value.int k) (Value.float x) = some .eq := by
        rw [hcompare, heq, cmp_self_eq_eq]
      have hcourse : C k = _ := course_of_eq hc
      rw [hcourse, heq, range_stopAt_self]
      cases excludeEnd with
      | true => exact ⟨[], rfl, by simp, rfl⟩
      | false => exact ⟨[k], rfl, by simp, rfl⟩
    · have hc : Steppable.compare (Value.int k) (Value.float x) = some .gt := by
        rw [hcompare, (cmp_eq_gt_iff _ _).2 hgt]
      exact ⟨[], course_of_gt hc, by simp, (range_stopAt_of_lt hgt excludeEnd).symm⟩
  obtain ⟨ks, hks, -, hranks⟩ := Course.exists_ofList_of_ranks hcons hend
    (ceil_le_stopAt x.rational excludeEnd) (k := a) trivial
  exact ⟨ks, hks, hranks⟩

end Value

namespace Range

variable {x : Binary64}

theorem exists_course_rational (hx : x.isNaN = false) (a : Int64) (excludeEnd : Bool) :
    ∃ (ks : List Int64) (stop : Int),
      course ⟨.int a, .float x, excludeEnd⟩ = .ofList (ks.map .int)
        (if x.rational < 2 ^ 63 then .ok () else .error (.overflow (Value.integerText Int64.maxValue))) ∧
      ks.map Int64.toInt = Int.range a.toInt stop ∧
      ∀ n : Int64, n.toInt < stop ↔
        if excludeEnd then (n.toInt : ℚ) < x.rational else (n.toInt : ℚ) ≤ x.rational := by
  by_cases hlt : x.rational < 2 ^ 63
  · obtain ⟨ks, hcourse, hks⟩ := Value.exists_course_int_float hx hlt a excludeEnd
    rw [if_pos hlt]
    exact ⟨ks, _, hcourse, hks, fun n => Value.lt_stopAt_iff⟩
  · have hpast : (Value.float x).pastIntegers = true := (Binary64.pastIntegers_iff hx).2 (not_lt.1 hlt)
    rw [if_neg hlt]
    refine ⟨_, Int64.maxValue.toInt + 1, course_overflow hpast a,
      (Integer.map_toInt_eq_range_iff le_rfl).2 rfl, fun n => iff_of_true (Int.lt_add_one_iff.2 n.toInt_le) ?_⟩
    have hless := lt_of_lt_of_le (Binary64.toInt_lt_two_pow n).2 (not_lt.1 hlt)
    split
    · exact hless
    · exact hless.le

/-- Take a range from an integer to a double-precision number, which can always be made unless that is no number,
and a block that never fails. The calls are for the integers from the first one on that are below the exact value
of the number, or up to it if the end is not excluded, in ascending order. If this value is below `2 ^ 63`, the
result is the range. Otherwise the calls are for all integers to the largest one, and the result is its overflow. -/
theorem each_int_float_exact (hx : x.isNaN = false) (a : Int64) (excludeEnd : Bool) {source : Producer}
    (hsource : source = (Range.mk (.int a) (.float x) excludeEnd).each.body ∨
      source = (Range.mk (.int a) (.float x) excludeEnd).eachCall) {ι σ : Type}
    {block : σ → List Value → Routine ι (σ × Except Error Unit)} (hblock : Succeeds block) (s : σ)
    {w : Session} (hw : w.methods = .builtin) :
    make (.int a) (.float x) excludeEnd = .ok ⟨.int a, .float x, excludeEnd⟩ ∧
    ∃ (q : WithBotTop ℚ) (ks : List Int64), x.value = some q ∧ (ks.map Int64.toInt).Pairwise (· < ·) ∧
      (∀ n, n ∈ ks ↔ a.toInt ≤ n.toInt ∧
        if excludeEnd then ((n.toInt : ℚ) : WithBotTop ℚ) < q else ((n.toInt : ℚ) : WithBotTop ℚ) ≤ q) ∧
      ∃ s' w', Completes block source.run s w (ks.map fun n => ([.int n], .ok ())) s'
        (if q < ((2 ^ 63 : ℚ) : WithBotTop ℚ) then .ok (.range (.int a) (.float x) excludeEnd)
          else .error (.overflow (Value.integerText Int64.maxValue))) w' := by
  obtain ⟨q, hq, hlimit⟩ := Binary64.exists_value hx
  obtain ⟨ks, stop, hcourse, hks, hstop⟩ := exists_course_rational hx a excludeEnd
  have hcompare : (Value.int a).compare (.float x) = some _ := Binary64.compareInt_eq_cmp hx a
  refine ⟨?_, q, ks, hq, hks ▸ pairwise_range _ _, fun n => ?_, ?_⟩
  · rw [make, hcompare]
    rfl
  · have hcmp := Binary64.cmp_value hx hq n
    rw [← List.mem_map_of_injective (f := Int64.toInt) (fun _ _ => Int64.toInt_inj.1), hks, Int.mem_range_iff,
      hstop, lt_iff_lt_of_cmp_eq_cmp hcmp, le_iff_le_of_cmp_eq_cmp hcmp]
  · refine ((follows_source hsource).exists_completes_iff_ofList hblock hw).2
      ⟨(ks.map .int).map fun v => [v], ?_, ?_⟩
    · rw [hcourse, Course.map_ofList, apply_ite (Except.map _)]
      simp only [hlimit]
      rfl
    · rw [List.map_map, List.map_map]
      rfl

/-- The two largest integers are before `2 ^ 63`, which is excluded and never met. -/
theorem each_int_float_exact_at_limit :
    let block (n : Nat) (_ : List Value) : Routine Empty (Nat × Except Error Unit) := .pure (n + 1, .ok ())
    let limit : Binary64 := ⟨0x43e0000000000000⟩
    let r : Range := ⟨.int (Int64.maxValue - 1), .float limit, true⟩
    limit.isNaN = false ∧ Succeeds block ∧ limit.value = some ((2 ^ 63 : ℚ) : WithBotTop ℚ) ∧
      ∃ (ks : List Int64) (n : Nat) (w : Session),
        ks.map Int64.toInt = [9223372036854775806, 9223372036854775807] ∧
        Completes block r.eachCall.run 0 .start (ks.map fun n => ([.int n], .ok ())) n
          (.error (.overflow "9223372036854775807")) w := by
  intro block limit r
  have hnumber : limit.isNaN = false := by decide +kernel
  have hvalue : limit.value = some ((2 ^ 63 : ℚ) : WithBotTop ℚ) := by decide +kernel
  have hblock : Succeeds block := fun n x w hw => ⟨n + 1, w, reaches_pure.2 ⟨rfl, rfl⟩, hw⟩
  obtain ⟨-, q, ks, hq, hsorted, hmem, n, w, hcompletes⟩ :=
    each_int_float_exact hnumber (Int64.maxValue - 1) true (.inr rfl) hblock 0 (w := .start) rfl
  obtain rfl := Option.some.inj (hvalue.symm.trans hq)
  rw [if_neg (lt_irrefl _)] at hcompletes
  refine ⟨hnumber, hblock, hvalue, ks, n, w, hsorted.eq_of_mem_iff (by simp) fun k => ?_, hcompletes⟩
  have hbelow (n : Int64) : ((n.toInt : ℚ) : WithBotTop ℚ) < ((2 ^ 63 : ℚ) : WithBotTop ℚ) :=
    WithBotTop.coe_lt_coe.2 (Binary64.toInt_lt_two_pow n).2
  have hfirst : (Int64.maxValue - 1).toInt = 9223372036854775806 := rfl
  have hlast : Int64.maxValue.toInt = 9223372036854775807 := rfl
  simp only [List.mem_map, hmem, hbelow, hfirst, if_true, and_true, List.mem_cons, List.not_mem_nil, or_false]
  constructor
  · rintro ⟨n, hn, rfl⟩
    have hle := n.toInt_le
    omega
  · rintro (rfl | rfl)
    · exact ⟨_, hfirst.ge, hfirst⟩
    · exact ⟨_, by omega, hlast⟩

end Range

end Stepwise
