import Mathlib.Order.Basic
import Stepwise.Value.Order

namespace Stepwise.Binary64

variable {a : Int64} {x : Binary64}

theorem exists_unitsPerOne_eq : ∃ e, unitsPerOne = Nat.pow 2 e :=
  ⟨_, by unfold unitsPerOne; exact Eq.refl _⟩

theorem unitsPerOne_pos : 0 < unitsPerOne := by
  obtain ⟨e, he⟩ := exists_unitsPerOne_eq
  rw [he]
  exact Nat.two_pow_pos e

theorem natCast_unitsPerOne_pos : (0 : Int) < unitsPerOne := Int.natCast_pos.2 unitsPerOne_pos

theorem mul_unitsPerOne_lt {m n : Int} (h : m < n) : m * unitsPerOne < n * unitsPerOne :=
  Int.mul_lt_mul_of_pos_right h natCast_unitsPerOne_pos

theorem mul_unitsPerOne_le {m n : Int} (h : m ≤ n) : m * unitsPerOne ≤ n * unitsPerOne :=
  Int.mul_le_mul_of_nonneg_right h (Int.natCast_nonneg _)

theorem units_integerLimit : integerLimit.units = 9223372036854775808 * (unitsPerOne : Int) := by
  decide +kernel

theorem floor_mul_le (x : Binary64) : x.floor * unitsPerOne ≤ x.units :=
  Int.ediv_mul_le _ (Int.ne_of_gt natCast_unitsPerOne_pos)

theorem lt_floor_add_one_mul (x : Binary64) : x.units < (x.floor + 1) * unitsPerOne :=
  Int.lt_ediv_add_one_mul_self _ natCast_unitsPerOne_pos

theorem compare_of_limit_le (h : integerLimit.units ≤ x.units) :
    Ord.compare (a.toInt * unitsPerOne) x.units = .lt := by
  have hmax : a.toInt ≤ 9223372036854775807 := a.toInt_le
  rw [units_integerLimit] at h
  exact Int.compare_eq_lt.2 (Int.lt_of_lt_of_le (mul_unitsPerOne_lt (by omega)) h)

theorem compare_of_lt_neg_limit (h : x.units < -integerLimit.units) :
    Ord.compare (a.toInt * unitsPerOne) x.units = .gt := by
  have hmin : -9223372036854775808 ≤ a.toInt := a.le_toInt
  rw [units_integerLimit, ← Int.neg_mul] at h
  exact Int.compare_eq_gt.2 (Int.lt_of_lt_of_le h (mul_unitsPerOne_le hmin))

theorem toInt_ofInt_floor (hhigh : x.units < integerLimit.units) (hlow : -integerLimit.units ≤ x.units) :
    (Int64.ofInt x.floor).toInt = x.floor := by
  rw [units_integerLimit] at hhigh hlow
  rw [← Int.neg_mul] at hlow
  have hle := floor_mul_le x
  have hlt := lt_floor_add_one_mul x
  apply Int64.toInt_ofInt_of_le
  · have hge : -9223372036854775808 < x.floor + 1 :=
      Int.lt_of_mul_lt_mul_right (Int.lt_of_le_of_lt hlow hlt) (Int.natCast_nonneg _)
    omega
  · exact Int.lt_of_mul_lt_mul_right (Int.lt_of_le_of_lt hle hhigh) (Int.natCast_nonneg _)

/-- The whole part decides the order, and what the number has above it breaks a tie. -/
theorem compareInt_eq (a : Int64) (x : Binary64) :
    x.compareInt a = if x.isNaN then none else some (Ord.compare (a.toInt * unitsPerOne) x.units) := by
  rw [compareInt]
  by_cases hnan : x.isNaN = true
  · rw [if_pos hnan, if_pos hnan]
  rw [if_neg hnan, if_neg hnan]
  by_cases hhigh : integerLimit.units ≤ x.units
  · rw [if_pos hhigh, compare_of_limit_le hhigh]
  rw [if_neg hhigh]
  by_cases hlow : x.units < -integerLimit.units
  · rw [if_pos hlow, compare_of_lt_neg_limit hlow]
  rw [if_neg hlow, toInt_ofInt_floor (Int.not_le.1 hhigh) (Int.not_lt.1 hlow)]
  have hle := floor_mul_le x
  obtain h | h | h := Int.lt_trichotomy a.toInt x.floor
  · have hless := Int.lt_of_lt_of_le (mul_unitsPerOne_lt h) hle
    rw [Int.compare_eq_lt.2 h, Int.compare_eq_lt.2 hless]
  · rw [h, Int.compare_eq_eq.2 rfl]
    by_cases hfraction : x.floor * unitsPerOne < x.units
    · rw [Int.compare_eq_lt.2 hfraction]
      exact if_pos hfraction
    · rw [Int.compare_eq_eq.2 (Int.le_antisymm hle (Int.not_lt.1 hfraction))]
      exact if_neg hfraction
  · have hmore := Int.lt_of_lt_of_le (lt_floor_add_one_mul x) (mul_unitsPerOne_le h)
    rw [Int.compare_eq_gt.2 h, Int.compare_eq_gt.2 hmore]

theorem compareInt_eq_none_iff : x.compareInt a = none ↔ x.isNaN = true := by
  rw [compareInt_eq]
  cases x.isNaN with
  | true => exact iff_of_true rfl rfl
  | false => exact iff_of_false (by rintro ⟨⟩) (by rintro ⟨⟩)

theorem compareInt_eq_lt_iff :
    x.compareInt a = some .lt ↔ x.isNaN = false ∧ a.toInt * unitsPerOne < x.units := by
  rw [compareInt_eq]
  cases x.isNaN with
  | true => exact iff_of_false (by rintro ⟨⟩) (by rintro ⟨⟨⟩, -⟩)
  | false =>
      rw [if_neg Bool.false_ne_true, Option.some_inj, Int.compare_eq_lt]
      exact (and_iff_right rfl).symm

end Stepwise.Binary64
