import Mathlib.Data.Rat.Floor
import Mathlib.Order.WithBotTop
import Mathlib.Tactic.FieldSimp
import Mathlib.Tactic.Ring
import Stepwise.Proofs.RangeFailures

namespace Stepwise

namespace Binary64

variable {x : Binary64}

def signBit (x : Binary64) : Bool := x.bits.toBitVec.msb

def exponentBits (x : Binary64) : Nat := (x.bits.toBitVec.extractLsb' 52 11).toNat

def fractionBits (x : Binary64) : Nat := (x.bits.toBitVec.extractLsb' 0 52).toNat

/-- The number with these fields: a binary fraction after a leading one, times a power of two. With the least
exponent the leading one is missing and the power stays that of the next exponent. -/
def rational (x : Binary64) : ℚ :=
  (if x.signBit then -1 else 1) * ((if x.exponentBits = 0 then 0 else 1) + x.fractionBits / 2 ^ 52) *
    2 ^ ((max x.exponentBits 1 : Nat) - 1023 : ℤ)

/-- What the bits stand for. The largest exponent is that of the infinities, and of what is no number. -/
def value (x : Binary64) : Option (WithBotTop ℚ) :=
  if x.exponentBits = 2047 then
    if x.fractionBits = 0 then some (if x.signBit then ⊥ else ⊤) else none
  else some x.rational

example : (mk 0x3ff8000000000000).rational = 3 / 2 ∧ (mk 1).rational = 1 / 2 ^ 1074 ∧
    (mk 0x8000000000000000).rational = 0 := by decide +kernel

section Fields

theorem signSize_eq : signSize = 9223372036854775808 := rfl

theorem binadeSize_eq : binadeSize = 4503599627370496 := rfl

theorem signBit_eq (x : Binary64) : x.signBit = x.negative := BitVec.msb_eq_decide _

theorem exponentBits_eq (x : Binary64) : x.exponentBits = x.exponentField := by
  have hdiv : x.bits.toNat >>> 52 = x.bits.toNat / 4503599627370496 := Nat.shiftRight_eq_div_pow _ 52
  have hmod : x.exponentBits = x.bits.toNat >>> 52 % 2048 := BitVec.extractLsb'_toNat 52 11 _
  rw [hmod, hdiv, exponentField, magnitude, signSize_eq, binadeSize_eq]
  omega

theorem fractionBits_eq (x : Binary64) : x.fractionBits = x.magnitude % binadeSize := by
  have hmod : x.fractionBits = x.bits.toNat % 4503599627370496 := BitVec.extractLsb'_toNat 0 52 _
  rw [hmod, magnitude, signSize_eq, binadeSize_eq]
  omega

theorem isNaN_iff : x.isNaN = true ↔ x.exponentBits = 2047 ∧ x.fractionBits ≠ 0 := by
  have hlt : x.magnitude < signSize := Nat.mod_lt _ (by decide)
  rw [signSize_eq] at hlt
  rw [isNaN, decide_eq_true_eq, infinityMagnitude, exponentBits_eq, fractionBits_eq, exponentField,
    binadeSize_eq]
  omega

end Fields

section Units

theorem cast_two_pow (n : Nat) : ((Nat.pow 2 n : Nat) : ℚ) = 2 ^ n := Nat.cast_pow 2 n

theorem cast_unitsPerOne : (unitsPerOne : ℚ) = 2 ^ (1074 : ℤ) := by
  -- a variable exponent keeps the power from being computed
  obtain ⟨e, hunits, he⟩ : ∃ e : Nat, unitsPerOne = Nat.pow 2 e ∧ (e : ℤ) = 1074 := by
    refine ⟨_, by unfold unitsPerOne; exact Eq.refl _, ?_⟩
    rfl
  rw [hunits, cast_two_pow, ← zpow_natCast, he]

theorem zpow_mul_unitsPerOne (e : Nat) :
    (2 : ℚ) ^ ((max e 1 : Nat) - 1023 : ℤ) * unitsPerOne = 2 ^ 52 * 2 ^ (e - 1) := by
  have hexp : ((max e 1 : Nat) - 1023 : ℤ) + 1074 = (52 + (e - 1) : Nat) := by omega
  rw [cast_unitsPerOne, ← zpow_add₀ two_ne_zero, hexp, zpow_natCast, pow_add]

theorem cast_significand (x : Binary64) :
    (x.significand : ℚ) = ((if x.exponentBits = 0 then 0 else 1) + x.fractionBits / 2 ^ 52) * 2 ^ 52 := by
  have hbinade : (binadeSize : ℚ) = 2 ^ 52 := cast_two_pow 52
  rw [significand, exponentBits_eq, fractionBits_eq]
  split
  · field_simp
    push_cast
    ring
  · push_cast
    rw [hbinade]
    field_simp
    ring

/-- A number is so many units, also an infinity, which stands for the power of two after all numbers. -/
theorem cast_units (x : Binary64) : (x.units : ℚ) = x.rational * unitsPerOne := by
  have habs : (x.absUnits : ℚ) =
      ((if x.exponentBits = 0 then 0 else 1) + x.fractionBits / 2 ^ 52) *
        (2 ^ ((max x.exponentBits 1 : Nat) - 1023 : ℤ) * unitsPerOne) := by
    rw [absUnits, Nat.cast_mul, cast_significand, cast_two_pow, zpow_mul_unitsPerOne, binade, exponentBits_eq]
    ring
  rw [units, rational, signBit_eq]
  cases x.negative with
  | true =>
      rw [if_pos rfl, if_pos rfl, Int.cast_neg, Int.cast_natCast, habs]
      ring
  | false =>
      rw [if_neg Bool.false_ne_true, if_neg Bool.false_ne_true, Int.cast_natCast, habs]
      ring

end Units

section Order

theorem compareInt_eq_cmp (h : x.isNaN = false) (a : Int64) :
    x.compareInt a = some (cmp (a.toInt : ℚ) x.rational) := by
  have hpos : (0 : ℚ) < unitsPerOne := Nat.cast_pos.2 unitsPerOne_pos
  rw [compareInt_eq, if_neg (by simp [h]), Option.some_inj]
  calc Ord.compare (a.toInt * unitsPerOne) x.units
      = cmp (a.toInt * unitsPerOne) x.units := (cmp_eq_compare _ _).symm
    _ = cmp ((a.toInt * unitsPerOne : Int) : ℚ) x.units := (Int.cast_strictMono.cmp_map_eq _ _).symm
    _ = cmp (a.toInt * unitsPerOne : ℚ) (x.rational * unitsPerOne) := by
        rw [Int.cast_mul, Int.cast_natCast, cast_units]
    _ = cmp (a.toInt : ℚ) x.rational := cmp_mul_pos_right hpos _ _

theorem toInt_lt_two_pow (a : Int64) : -2 ^ 63 ≤ (a.toInt : ℚ) ∧ (a.toInt : ℚ) < 2 ^ 63 := by
  have hle := a.toInt_le
  have hge := a.le_toInt
  have hmin : Int64.minValue.toInt = -9223372036854775808 := rfl
  have hmax : Int64.maxValue.toInt = 9223372036854775807 := rfl
  constructor
  · have h : (-9223372036854775808 : ℤ) ≤ a.toInt := by omega
    exact_mod_cast h
  · have h : a.toInt < 9223372036854775808 := by omega
    exact_mod_cast h

theorem rational_of_infinite (he : x.exponentBits = 2047) (hf : x.fractionBits = 0) :
    ∃ q : ℚ, 2 ^ 63 < q ∧ x.rational = if x.signBit then -q else q := by
  refine ⟨2 ^ (1024 : ℤ), ?_, ?_⟩
  · calc (2 : ℚ) ^ 63 < 2 ^ 64 := by norm_num
      _ = 2 ^ (64 : ℤ) := (zpow_natCast 2 64).symm
      _ ≤ 2 ^ (1024 : ℤ) := zpow_le_zpow_right₀ one_le_two (by decide)
  · have hexp : ((max 2047 1 : Nat) - 1023 : ℤ) = 1024 := rfl
    rw [rational, he, hf, hexp]
    cases x.signBit <;> simp

theorem compareInt_eq_map_value (a : Int64) (x : Binary64) :
    x.compareInt a = x.value.map (cmp ((a.toInt : ℚ) : WithBotTop ℚ)) := by
  cases hnan : x.isNaN with
  | true =>
      obtain ⟨he, hf⟩ := isNaN_iff.1 hnan
      rw [compareInt_eq_none_iff.2 hnan, value, if_pos he, if_neg hf, Option.map_none]
  | false =>
      have hnumber : ¬ (x.exponentBits = 2047 ∧ x.fractionBits ≠ 0) := isNaN_iff.not.1 (by simp [hnan])
      rw [compareInt_eq_cmp hnan, value]
      by_cases he : x.exponentBits = 2047
      · have hf : x.fractionBits = 0 := by
          by_contra hf
          exact hnumber ⟨he, hf⟩
        obtain ⟨q, hq, hrational⟩ := rational_of_infinite he hf
        obtain ⟨hmin, hmax⟩ := toInt_lt_two_pow a
        rw [if_pos he, if_pos hf, Option.map_some, Option.some_inj, hrational]
        cases x.signBit with
        | true =>
            have hgt : -q < a.toInt := by linarith
            rw [if_pos rfl, if_pos rfl, (cmp_eq_gt_iff _ _).2 hgt]
            exact ((cmp_eq_gt_iff _ _).2 (bot_lt_iff_ne_bot.2 (WithBotTop.coe_ne_bot _))).symm
        | false =>
            have hlt : a.toInt < q := by linarith
            rw [if_neg Bool.false_ne_true, if_neg Bool.false_ne_true, (cmp_eq_lt_iff _ _).2 hlt]
            exact ((cmp_eq_lt_iff _ _).2 (lt_top_iff_ne_top.2 (WithBotTop.coe_ne_top _))).symm
      · rw [if_neg he, Option.map_some, WithBotTop.coe_strictMono.cmp_map_eq]

/-- The order of an integer and a rational number as its whole part decides it. Past the integers it is clear.
Else the whole part is an integer itself, it is compared first, and what the number has above it breaks a tie. -/
def orderByFloor (a : Int64) (q : ℚ) : Ordering :=
  if 2 ^ 63 ≤ q then .lt
  else if q < -2 ^ 63 then .gt
  else (Ord.compare a.toInt (Int64.ofInt ⌊q⌋).toInt).then (cmp (⌊q⌋ : ℚ) q)

theorem orderByFloor_eq_cmp (a : Int64) (q : ℚ) : orderByFloor a q = cmp (a.toInt : ℚ) q := by
  obtain ⟨hmin, hmax⟩ := toInt_lt_two_pow a
  rw [orderByFloor]
  by_cases hhigh : 2 ^ 63 ≤ q
  · rw [if_pos hhigh]
    exact ((cmp_eq_lt_iff _ _).2 (lt_of_lt_of_le hmax hhigh)).symm
  · rw [if_neg hhigh]
    by_cases hlow : q < -2 ^ 63
    · rw [if_pos hlow]
      exact ((cmp_eq_gt_iff _ _).2 (lt_of_lt_of_le hlow hmin)).symm
    · have hge : -2 ^ 63 ≤ ⌊q⌋ := Int.le_floor.2 (by push_cast; exact not_lt.1 hlow)
      have hlt : ⌊q⌋ < 2 ^ 63 := Int.floor_lt.2 (by push_cast; exact not_le.1 hhigh)
      rw [if_neg hlow, Int64.toInt_ofInt_of_le hge hlt, ← cmp_eq_compare]
      obtain h | h | h := lt_trichotomy a.toInt ⌊q⌋
      · have hless : (a.toInt : ℚ) < q := lt_of_lt_of_le (Int.cast_lt.2 h) (Int.floor_le q)
        rw [(cmp_eq_lt_iff _ _).2 h, (cmp_eq_lt_iff _ _).2 hless]
        rfl
      · rw [← h, cmp_self_eq_eq]
        rfl
      · rw [(cmp_eq_gt_iff _ _).2 h, (cmp_eq_gt_iff _ _).2 (Int.floor_lt.1 h)]
        rfl

end Order

end Binary64

/-- An integer and a double-precision number have an order unless the number is none, and it is the order of the
integer and the exact value of the number. Comparing the whole part of the number first, and asking for it only
between the ends of the integers, gives the same. -/
theorem Value.compare_int_float_exact (a : Int64) (x : Binary64) :
    (x.compareInt a = none ↔ x.exponentBits = 2047 ∧ x.fractionBits ≠ 0) ∧
    x.compareInt a = x.value.map (cmp ((a.toInt : ℚ) : WithBotTop ℚ)) ∧
    compare (.int a) (.float x) = x.value.map (cmp ((a.toInt : ℚ) : WithBotTop ℚ)) ∧
    compare (.float x) (.int a) = x.value.map (cmp · ((a.toInt : ℚ) : WithBotTop ℚ)) ∧
    ∀ q : ℚ, x.value = some (q : WithBotTop ℚ) → x.compareInt a = some (Binary64.orderByFloor a q) := by
  have hexact := Binary64.compareInt_eq_map_value a x
  refine ⟨?_, hexact, hexact, ?_, fun q hq => ?_⟩
  · rw [Binary64.compareInt_eq_none_iff, Binary64.isNaN_iff]
  · rw [compare, hexact, Option.map_map]
    congr 1
    funext v
    exact cmp_swap _ _
  · rw [hexact, hq, Option.map_some, Binary64.orderByFloor_eq_cmp, WithBotTop.coe_strictMono.cmp_map_eq]

/-- The largest integer and the number after it, the number before that, a negative number that is not whole, and
the least positive number. -/
theorem Value.compare_int_float_exact_neighbours :
    let limit : Binary64 := ⟨0x43e0000000000000⟩
    let before : Binary64 := ⟨0x43dfffffffffffff⟩
    let fraction : Binary64 := ⟨0xc004000000000000⟩
    compare (.int Int64.maxValue) (.float limit) = some .lt ∧
      compare (.int Int64.maxValue) (.float before) = some .gt ∧
      compare (.float ⟨1⟩) (.int 0) = some .gt ∧
      fraction.value = some ((-5 / 2 : ℚ) : WithBotTop ℚ) ∧
      fraction.compareInt (-3) = some .lt := by
  intro limit before fraction
  have hvalue : fraction.value = some ((-5 / 2 : ℚ) : WithBotTop ℚ) := by decide +kernel
  refine ⟨?_, ?_, ?_, hvalue, ?_⟩
  · rw [(Value.compare_int_float_exact _ limit).2.2.1]
    decide +kernel
  · rw [(Value.compare_int_float_exact _ before).2.2.1]
    decide +kernel
  · rw [(Value.compare_int_float_exact 0 ⟨1⟩).2.2.2.1]
    decide +kernel
  · rw [(Value.compare_int_float_exact (-3) fraction).2.2.2.2 _ hvalue]
    decide +kernel

end Stepwise
