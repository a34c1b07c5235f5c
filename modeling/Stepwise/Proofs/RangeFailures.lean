import Stepwise.Proofs.BoundedRanges
import Stepwise.Proofs.IntegerSteppers
import Stepwise.Proofs.WholeParts

namespace Stepwise

open Routine

namespace Steppable

variable {τ : Type} [Steppable τ] {next : τ → Except Error τ} {last? : Option τ} {I : τ → Prop}

theorem course_cases (hcompare : ∀ v, I v → ∀ last ∈ last?, compare v last ≠ none)
    (hnext : ∀ v, I v → (∀ last ∈ last?, compare v last = some .lt) → ∃ v', next v = .ok v' ∧ I v')
    {v : τ} (hv : I v) (excludeEnd : Bool) :
    (∃ v', I v' ∧ course next v last? excludeEnd = .cons v (course next v' last? excludeEnd)) ∨
      ∃ vs, course next v last? excludeEnd = .ofList vs (.ok ()) := by
  by_cases hbelow : ∀ last ∈ last?, compare v last = some .lt
  · obtain ⟨v', hv', hI⟩ := hnext v hv hbelow
    exact .inl ⟨v', hI, course_of_below hbelow hv'⟩
  · obtain ⟨last, rfl, hlt⟩ : ∃ last, last? = some last ∧ compare v last ≠ some .lt := by
      simpa using hbelow
    cases hc : compare v last with
    | none => exact absurd hc (hcompare v hv last rfl)
    | some o =>
        cases o with
        | lt => exact absurd hc hlt
        | eq => exact .inr ⟨_, course_of_eq hc⟩
        | gt => exact .inr ⟨[], course_of_gt hc⟩

theorem endsIn_course_of_invariant (hcompare : ∀ v, I v → ∀ last ∈ last?, compare v last ≠ none)
    (hnext : ∀ v, I v → (∀ last ∈ last?, compare v last = some .lt) → ∃ v', next v = .ok v' ∧ I v')
    {v : τ} (hv : I v) (excludeEnd : Bool) :
    (course next v last? excludeEnd).EndsIn (· = .ok ()) := by
  intro k a ha
  induction k generalizing v with
  | zero =>
      obtain ⟨v', -, hcourse⟩ | ⟨vs, hcourse⟩ := course_cases hcompare hnext hv excludeEnd
      · rw [hcourse] at ha
        cases ha
      · exact (Course.endsIn_ofList (P := (· = .ok ()))).2 rfl 0 a (hcourse ▸ ha)
  | succ k ih =>
      obtain ⟨v', hI, hcourse⟩ | ⟨vs, hcourse⟩ := course_cases hcompare hnext hv excludeEnd
      · rw [hcourse] at ha
        exact ih hI ha
      · exact (Course.endsIn_ofList (P := (· = .ok ()))).2 rfl (k + 1) a (hcourse ▸ ha)

end Steppable

namespace Binary64

theorem significand_lt (x : Binary64) : x.significand < 9007199254740992 := by
  have hmod : x.magnitude % binadeSize < binadeSize := Nat.mod_lt _ (by decide)
  have hsize : binadeSize = 4503599627370496 := rfl
  unfold significand
  split <;> omega

theorem scaled_le_of_lt {m b e n : Nat} (hm : m ≤ n) (h : m * Nat.pow 2 b < (n + 1) * Nat.pow 2 e) :
    m * Nat.pow 2 b ≤ n * Nat.pow 2 e := by
  obtain hlow | hhigh := Nat.le_total b e
  · exact Nat.mul_le_mul hm (Nat.pow_le_pow_right (by decide) hlow)
  · obtain ⟨d, rfl⟩ := Nat.exists_eq_add_of_le' hhigh
    have hpow : Nat.pow 2 (d + e) = Nat.pow 2 d * Nat.pow 2 e := Nat.pow_add 2 d e
    rw [hpow, ← Nat.mul_assoc] at h ⊢
    exact Nat.mul_le_mul_right _ (Nat.le_of_lt_succ (Nat.lt_of_mul_lt_mul_right h))

/-- No number lies between an integer and the next one, if the integer has as many digits as a number. -/
theorem absUnits_le_of_lt {x : Binary64} {n : Nat} (hn : 9007199254740992 ≤ n)
    (h : x.absUnits < (n + 1) * unitsPerOne) : x.absUnits ≤ n * unitsPerOne := by
  obtain ⟨e, he⟩ := exists_unitsPerOne_eq
  rw [he] at h ⊢
  exact scaled_le_of_lt (Nat.le_trans (Nat.le_of_lt x.significand_lt) hn) h

theorem units_le_of_lt {x : Binary64} {n : Nat} (hn : 9007199254740992 ≤ n)
    (h : x.units < (n + 1 : Nat) * unitsPerOne) : x.units ≤ n * unitsPerOne := by
  cases hx : x.negative with
  | true =>
      have hneg : x.units ≤ 0 := by simp [units, hx]
      exact Int.le_trans hneg (Int.mul_nonneg (Int.natCast_nonneg _) (Int.natCast_nonneg _))
  | false =>
      have habs : x.units = x.absUnits := by simp [units, hx]
      rw [habs] at h ⊢
      exact_mod_cast absUnits_le_of_lt hn (by exact_mod_cast h)

def pastIntegers (x : Binary64) : Bool :=
  !x.isNaN && decide (9223372036854775808 * (unitsPerOne : Int) ≤ x.units)

end Binary64

namespace Value

open Steppable (course exists_course_of_error endsIn_course_of_invariant)

/-- As the last value of a range it ends no counting up through the integers: it stands for no end at all, or
is a number past all of them. -/
def pastIntegers : Value → Bool
  | nil => true
  | float x => x.pastIntegers
  | _ => false

theorem compare_int_eq_none_iff (a b : Int64) (v : Value) :
    compare (.int a) v = none ↔ compare (.int b) v = none := by
  cases v with
  | int c => exact iff_of_false (by rintro ⟨⟩) (by rintro ⟨⟩)
  | float x =>
      rw [compare, compare, Binary64.compareInt_eq_none_iff, Binary64.compareInt_eq_none_iff]
  | _ => exact iff_of_true rfl rfl

theorem compare_int_lt_of_le {a b : Int64} {v : Value} (hab : a.toInt ≤ b.toInt)
    (h : compare (.int b) v = some .lt) : compare (.int a) v = some .lt := by
  cases v with
  | int c =>
      rw [compare, Option.some_inj, Int.compare_eq_lt] at h ⊢
      exact Int.lt_of_le_of_lt hab h
  | float x =>
      rw [compare, Binary64.compareInt_eq_lt_iff] at h ⊢
      have hle : a.toInt * (Binary64.unitsPerOne : Int) ≤ b.toInt * Binary64.unitsPerOne :=
        Int.mul_le_mul_of_nonneg_right hab (Int.natCast_nonneg _)
      exact ⟨h.1, Int.lt_of_le_of_lt hle h.2⟩
  | _ => cases h

theorem compare_maxValue_lt_iff {v : Value} (hv : v ≠ .nil) :
    compare (.int Int64.maxValue) v = some .lt ↔ v.pastIntegers = true := by
  cases v with
  | nil => exact absurd rfl hv
  | int c =>
      rw [compare, Option.some_inj, Int.compare_eq_lt]
      exact iff_of_false (Int.not_lt.2 c.toInt_le) (by rintro ⟨⟩)
  | float x =>
      have hpos : (0 : Int) < Binary64.unitsPerOne := Int.natCast_pos.2 Binary64.unitsPerOne_pos
      have hmax : Int64.maxValue.toInt = 9223372036854775807 := rfl
      rw [compare, Binary64.compareInt_eq_lt_iff, hmax, pastIntegers, Binary64.pastIntegers,
        Bool.and_eq_true, Bool.not_eq_true', decide_eq_true_eq]
      refine and_congr_right fun _ => ⟨fun h => ?_, fun h => by omega⟩
      by_contra hlt
      have hle := Binary64.units_le_of_lt (x := x) (n := 9223372036854775807) (by decide) (Int.not_le.1 hlt)
      exact absurd h (Int.not_lt.2 hle)
  | _ => exact iff_of_false (by rintro ⟨⟩) (by rintro ⟨⟩)

example : (Binary64.mk 0x43e0000000000000).pastIntegers = true ∧
    (Binary64.mk 0x43dfffffffffffff).pastIntegers = false := by decide +kernel

theorem course_int_overflow {last? : Option Value}
    (h : ∀ last ∈ last?, compare (.int Int64.maxValue) last = some .lt) (n : Int64) (excludeEnd : Bool) :
    course next (.int n) last? excludeEnd =
      .ofList ((Integer.numbers n.toInt (Int64.maxValue.toInt + 1 - n.toInt).toNat).map .int)
        (.error (.overflow (integerText Int64.maxValue))) := by
  have hbelow (i : Int64) (_ : True) : ∀ last ∈ last?, Steppable.compare (.int i) last = some .lt :=
    fun last hlast => compare_int_lt_of_le i.toInt_le (h last hlast)
  have herr (i : Int64) (_ : True) (hi : i.toInt = Int64.maxValue.toInt) :
      next (.int i) = .error (.overflow (integerText Int64.maxValue)) := by
    rw [Int64.toInt_inj.1 hi]
    rfl
  obtain ⟨ks, hcourse, -, hks⟩ := exists_course_of_error hbelow
    (Steppable.embeds_int.ladder Int64.maxValue).next_eq (fun i _ => i.toInt_le) herr (k := n) trivial
    excludeEnd
  rw [hcourse, (Integer.map_toInt_eq_range_iff (Int.le_refl _)).1 hks]

theorem endsIn_course_int {last : Value} (hmax : compare (.int Int64.maxValue) last ≠ some .lt)
    {n : Int64} (hn : compare (.int n) last ≠ none) (excludeEnd : Bool) :
    (course next (.int n) (some last) excludeEnd).EndsIn (· = .ok ()) := by
  refine endsIn_course_of_invariant (I := fun v => ∃ i, v = .int i) ?_ ?_ ⟨n, rfl⟩ excludeEnd
  · rintro v ⟨i, rfl⟩ l hl
    obtain rfl : last = l := by simpa using hl
    exact (compare_int_eq_none_iff i n last).not.2 hn
  · rintro v ⟨i, rfl⟩ hbelow
    have hi : i ≠ Int64.maxValue := by
      rintro rfl
      exact hmax (hbelow last rfl)
    exact ⟨.int (i + 1), by rw [next, integerSucc, if_neg hi]; rfl, i + 1, rfl⟩

theorem endsIn_course_str {last? : Option Value} (hlast : ∀ last ∈ last?, ∃ t, last = .str t) (s : String)
    (excludeEnd : Bool) : (course next (.str s) last? excludeEnd).EndsIn (· = .ok ()) := by
  refine endsIn_course_of_invariant (I := fun v => ∃ u, v = .str u) ?_ ?_ ⟨s, rfl⟩ excludeEnd
  · rintro v ⟨u, rfl⟩ last hl
    obtain ⟨t, rfl⟩ := hlast last hl
    simp [Steppable.compare, compare]
  · rintro v ⟨u, rfl⟩ -
    exact ⟨.str (Text.succ u), rfl, Text.succ u, rfl⟩

theorem hasNext_eq_false_iff {v : Value} :
    v.hasNext = false ↔ v.classOf ≠ .integer ∧ v.classOf ≠ .string := by
  cases v with
  | bool b => cases b <;> simp [hasNext, classOf]
  | _ => simp [hasNext, classOf]

end Value

namespace Range

variable {first last : Value} {excludeEnd : Bool} {r : Range}

theorem mem_last?_iff {v : Value} : v ∈ r.last? ↔ r.last = v ∧ v ≠ .nil := by
  obtain ⟨first, last, excludeEnd⟩ := r
  constructor
  · intro h
    cases last with
    | nil => cases h
    | _ =>
        obtain rfl := Option.some.inj h
        exact ⟨rfl, by simp⟩
  · rintro ⟨rfl, hlast⟩
    cases last with
    | nil => exact absurd rfl hlast
    | _ => rfl

theorem compare_ne_none_of_make (h : make first last excludeEnd = .ok r) (hlast : last ≠ .nil) :
    first.compare last ≠ none := by
  have hnil : last.isNil = false := by
    cases last with
    | nil => exact absurd rfl hlast
    | _ => rfl
  intro hc
  simp [make, hnil, hc] at h

/-- A range that is made from ends with an order does not fail, unless its first value has no successor or
all integers from it on are gone through. -/
theorem endsIn_course_ok (h : make first last excludeEnd = .ok r) (hnext : first.hasNext = true)
    (hpast : ∀ n, first = .int n → last.pastIntegers = false) : r.course.EndsIn (· = .ok ()) := by
  obtain rfl := eq_of_make h
  rw [course, if_pos hnext]
  cases first with
  | int n =>
      have hlast : last ≠ .nil := by
        rintro rfl
        cases hpast n rfl
      have hl : Range.last? ⟨.int n, last, excludeEnd⟩ = some last := mem_last?_iff.2 ⟨rfl, hlast⟩
      rw [hl]
      refine Value.endsIn_course_int ?_ (compare_ne_none_of_make h hlast) excludeEnd
      rw [Ne, Value.compare_maxValue_lt_iff hlast, hpast n rfl]
      exact Bool.false_ne_true
  | str s =>
      refine Value.endsIn_course_str ?_ s excludeEnd
      intro l hl
      obtain ⟨rfl, hlast⟩ := mem_last?_iff.1 hl
      have hc := compare_ne_none_of_make h hlast
      cases last with
      | str t => exact ⟨t, rfl⟩
      | _ => exact absurd rfl hc
  | _ => cases hnext

theorem course_overflow (h : last.pastIntegers = true) (n : Int64) :
    course ⟨.int n, last, excludeEnd⟩ =
      .ofList ((Integer.numbers n.toInt (Int64.maxValue.toInt + 1 - n.toInt).toNat).map .int)
        (.error (.overflow (Value.integerText Int64.maxValue))) := by
  refine Value.course_int_overflow ?_ n excludeEnd
  intro l hl
  obtain ⟨rfl, hlast⟩ := mem_last?_iff.1 hl
  exact (Value.compare_maxValue_lt_iff hlast).2 h

theorem course_eq_error_iff (h : make first last excludeEnd = .ok r) {vs : List Value} {err : Error} :
    r.course = .ofList vs (.error err) ↔
      (first.classOf ≠ .integer ∧ first.classOf ≠ .string ∧ err = .cannotIterate first.className ∧
        vs = []) ∨
      ∃ n, first = .int n ∧ last.pastIntegers = true ∧
        err = .overflow (Value.integerText Int64.maxValue) ∧
        vs = (Integer.numbers n.toInt (Int64.maxValue.toInt + 1 - n.toInt).toNat).map .int := by
  obtain rfl := eq_of_make h
  constructor
  · intro hcourse
    cases hnext : first.hasNext with
    | false =>
        have hdone : (Course.ofList [] (.error (.cannotIterate first.className)) :
            Course Value (Except Error Unit)) = .ofList vs (.error err) := by
          rwa [course, if_neg (by simp [hnext])] at hcourse
        obtain ⟨rfl, herr⟩ := Course.ofList_inj.1 hdone
        obtain ⟨hint, hstr⟩ := Value.hasNext_eq_false_iff.1 hnext
        exact .inl ⟨hint, hstr, (Except.error.inj herr).symm, rfl⟩
    | true =>
        by_cases hpast : ∀ n, first = .int n → last.pastIntegers = false
        · have hends := endsIn_course_ok h hnext hpast
          rw [hcourse, Course.endsIn_ofList] at hends
          cases hends
        · obtain ⟨n, rfl, hp⟩ : ∃ n, first = .int n ∧ last.pastIntegers = true := by
            simpa using hpast
          rw [course_overflow hp] at hcourse
          obtain ⟨rfl, herr⟩ := Course.ofList_inj.1 hcourse
          exact .inr ⟨n, rfl, hp, (Except.error.inj herr).symm, rfl⟩
  · rintro (⟨hint, hstr, rfl, rfl⟩ | ⟨n, rfl, hp, rfl, rfl⟩)
    · rw [course, if_neg (by simp [Value.hasNext_eq_false_iff.2 ⟨hint, hstr⟩])]
      rfl
    · exact course_overflow hp n

/-- Take a range that could be made, and a block that never fails. Going through the range fails in two ways
only. If the first value is neither an integer nor a string, the failure is that it cannot be iterated from,
and the block is not called. If it is an integer, and there is no last value or one past all integers, the
failure is the overflow at the largest integer, and the block has been called for all integers from the
first one to the largest. -/
theorem each_fails_iff (hr : make first last excludeEnd = .ok r) {source : Producer}
    (hsource : source = r.each.body ∨ source = r.eachCall) {ι σ : Type}
    {block : σ → List Value → Routine ι (σ × Except Error Unit)} (hblock : Succeeds block) {s : σ}
    {w : Session} (hw : w.methods = .builtin) (calls : List (List Value × Except Error Unit))
    (err : Error) :
    (∃ s' v, Completes block source.run s w calls s' (.error err) v) ↔
      (first.classOf ≠ .integer ∧ first.classOf ≠ .string ∧ err = .cannotIterate first.className ∧
        calls = []) ∨
      ∃ (n : Int64) (ks : List Int64), first = .int n ∧ last.pastIntegers = true ∧
        err = .overflow (Value.integerText Int64.maxValue) ∧
        ks.map Int64.toInt = Int.range n.toInt (Int64.maxValue.toInt + 1) ∧
        calls = ks.map fun k => ([.int k], .ok ()) := by
  have hfollows : Follows .error source.run
      (r.course.map (fun v => [v]) (Except.map fun _ => r.toValue)) := by
    obtain rfl | rfl := hsource
    · exact r.follows_each []
    · exact r.follows_eachCall
  rw [hfollows.exists_completes_iff_ofList hblock hw]
  constructor
  · rintro ⟨xs, hxs, rfl⟩
    obtain ⟨vs, a, hcourse, rfl, ha⟩ := Course.exists_of_map_eq_ofList hxs
    obtain rfl : a = .error err := by
      cases a with
      | ok => cases ha
      | error err' => rw [Except.error.inj ha]
    obtain ⟨hint, hstr, rfl, rfl⟩ | ⟨n, rfl, hp, rfl, rfl⟩ := (course_eq_error_iff hr).1 hcourse
    · exact .inl ⟨hint, hstr, rfl, rfl⟩
    · refine .inr ⟨n, _, rfl, hp, rfl, Integer.map_toInt_numbers_upto n Int64.maxValue, ?_⟩
      rw [List.map_map, List.map_map]
      rfl
  · rintro (⟨hint, hstr, rfl, rfl⟩ | ⟨n, ks, rfl, hp, rfl, hks, rfl⟩)
    · refine ⟨[], ?_, rfl⟩
      rw [(course_eq_error_iff hr).2 (.inl ⟨hint, hstr, rfl, rfl⟩)]
      rfl
    · have hnumbers := (Integer.map_toInt_eq_range_iff (Int.le_refl _)).1 hks
      refine ⟨ks.map fun k => [.int k], ?_, ?_⟩
      · rw [(course_eq_error_iff hr).2 (.inr ⟨n, rfl, hp, rfl, rfl⟩), Course.map_ofList, List.map_map,
          hnumbers]
        rfl
      · rw [List.map_map]
        rfl

theorem each_fails_at_largest :
    let infinity : Binary64 := ⟨0x7ff0000000000000⟩
    let a := Int64.maxValue - 1
    let r : Range := ⟨.int a, .float infinity, true⟩
    let block (n : Nat) (_ : List Value) : Routine Empty (Nat × Except Error Unit) := .pure (n + 1, .ok ())
    make (.int a) (.float infinity) true = .ok r ∧ Succeeds block ∧
      ∃ n v, Completes block r.eachCall.run 0 .start
        [([.int a], .ok ()), ([.int Int64.maxValue], .ok ())] n
        (.error (.overflow "9223372036854775807")) v := by
  intro infinity a r block
  have hr : make (.int a) (.float infinity) true = .ok r := if_neg (by decide +kernel)
  have hblock : Succeeds block := fun s x w hw => ⟨_, w, reaches_pure.2 ⟨rfl, rfl⟩, hw⟩
  refine ⟨hr, hblock, ?_⟩
  refine (each_fails_iff hr (.inr rfl) hblock rfl _ _).2 (.inr ⟨a, [a, Int64.maxValue], rfl, ?_, ?_, ?_, rfl⟩)
  · decide +kernel
  · decide +kernel
  · decide +kernel

end Range

end Stepwise
