import Stepwise.Number.Decimal
import Stepwise.Proofs.ExactNumbers

namespace Stepwise

namespace Binary64

section Places

/-- The absolute value that belongs to the bits without the sign, in units. It is defined past the numbers. -/
def placeUnits (m : Nat) : Nat :=
  (m % binadeSize + if m / binadeSize = 0 then 0 else binadeSize) * Nat.pow 2 (m / binadeSize - 1)

theorem absUnits_eq_placeUnits (x : Binary64) : x.absUnits = placeUnits x.magnitude := rfl

variable {m k b r : Nat}

theorem placeUnits_add (hlow : b = 0 ∨ binadeSize ≤ r) (hhigh : r ≤ 2 * binadeSize) :
    placeUnits (b * binadeSize + r) = r * Nat.pow 2 b := by
  rw [placeUnits]
  have hsize := binadeSize_eq
  generalize binadeSize = size at *
  obtain hr | hr | rfl : r < size ∨ (size ≤ r ∧ r < 2 * size) ∨ r = 2 * size := by omega
  · obtain rfl : b = 0 := by omega
    rw [Nat.zero_mul, Nat.zero_add, Nat.mod_eq_of_lt hr, Nat.div_eq_of_lt hr]
    simp
  · obtain ⟨d, rfl⟩ := Nat.exists_eq_add_of_le hr.1
    have hplace : b * size + (size + d) = d + (b + 1) * size := by ring
    have hd : d < size := by omega
    rw [hplace, Nat.add_mul_mod_self_right, Nat.mod_eq_of_lt hd, Nat.add_mul_div_right _ _ (by omega),
      Nat.div_eq_of_lt hd, if_neg (by omega), Nat.add_comm d, Nat.zero_add, Nat.add_sub_cancel]
  · have hplace : b * size + 2 * size = (b + 2) * size := by ring
    have hpow : Nat.pow 2 (b + 2 - 1) = 2 * Nat.pow 2 b := Nat.pow_succ'
    rw [hplace, Nat.mul_mod_left, Nat.mul_div_cancel _ (by omega), if_neg (by omega), hpow]
    ring

theorem exists_binade (m : Nat) : ∃ b r, m = b * binadeSize + r ∧ (b = 0 ∨ binadeSize ≤ r) ∧
    r < 2 * binadeSize := by
  rw [binadeSize_eq]
  refine ⟨m / 4503599627370496 - 1, m - (m / 4503599627370496 - 1) * 4503599627370496, ?_, ?_, ?_⟩
  all_goals omega

theorem placeUnits_lt_succ (m : Nat) : placeUnits m < placeUnits (m + 1) := by
  obtain ⟨b, r, rfl, hlow, hhigh⟩ := exists_binade m
  rw [Nat.add_assoc, placeUnits_add hlow hhigh.le, placeUnits_add (by omega) hhigh]
  exact Nat.mul_lt_mul_of_pos_right (Nat.lt_succ_self r) (Nat.two_pow_pos b)

theorem strictMono_placeUnits : StrictMono placeUnits := strictMono_nat_of_lt_succ placeUnits_lt_succ

theorem dvd_placeUnits (h : b = 0 ∨ binadeSize * Nat.pow 2 b ≤ placeUnits k) :
    Nat.pow 2 b ∣ placeUnits k := by
  obtain rfl | h := h
  · exact one_dvd _
  · obtain ⟨c, r, rfl, hlow, hhigh⟩ := exists_binade k
    rw [placeUnits_add hlow hhigh.le] at h ⊢
    have hpow : binadeSize * Nat.pow 2 b < binadeSize * Nat.pow 2 (c + 1) :=
      calc binadeSize * Nat.pow 2 b ≤ r * Nat.pow 2 c := h
        _ < 2 * binadeSize * Nat.pow 2 c := Nat.mul_lt_mul_of_pos_right hhigh (Nat.two_pow_pos c)
        _ = binadeSize * (Nat.pow 2 c * 2) := by ring
    have hbc : b < c + 1 := (Nat.pow_lt_pow_iff_right (by decide)).1 (Nat.lt_of_mul_lt_mul_left hpow)
    exact Dvd.dvd.mul_left (Nat.pow_dvd_pow 2 (Nat.le_of_lt_succ hbc)) r

end Places

section Nearest

/-- No place is nearer, and if another one is as near, this one is even. -/
structure IsNearest (t : ℚ) (m : Nat) : Prop where
  le : ∀ k, |t - placeUnits m| ≤ |t - placeUnits k|
  even : ∀ k, k ≠ m → |t - placeUnits k| = |t - placeUnits m| → Even m

variable {t : ℚ} {m k : Nat}

theorem cast_placeUnits_lt (h : m < k) : (placeUnits m : ℚ) < placeUnits k :=
  Nat.cast_lt.2 (strictMono_placeUnits h)

theorem cast_placeUnits_le (h : m ≤ k) : (placeUnits m : ℚ) ≤ placeUnits k :=
  Nat.cast_le.2 (strictMono_placeUnits.monotone h)

/-- Two places that are both nearest are not neighbours, since both are even, and what is between them is
nearer. -/
theorem IsNearest.not_before (hm : IsNearest t m) (hk : IsNearest t k) : k ≤ m := by
  by_contra! hlt
  have heq : |t - placeUnits k| = |t - placeUnits m| := le_antisymm (hk.le m) (hm.le k)
  obtain ⟨i, hi⟩ := hm.even k (by omega) heq
  obtain ⟨j, hj⟩ := hk.even m (by omega) heq.symm
  have hlow := cast_placeUnits_lt (Nat.lt_succ_self m)
  have hhigh := cast_placeUnits_lt (show m + 1 < k by omega)
  have hmid : t - placeUnits m = -(t - placeUnits k) := by
    obtain h | h := abs_eq_abs.1 heq
    · linarith
    · linarith
  have hbetween := hm.le (m + 1)
  rw [abs_of_nonneg (by linarith)] at hbetween
  obtain h | h := abs_cases (t - placeUnits (m + 1))
  · linarith
  · linarith

theorem IsNearest.unique (hm : IsNearest t m) (hk : IsNearest t k) : m = k :=
  Nat.le_antisymm (hk.not_before hm) (hm.not_before hk)

theorem isNearest_placeUnits (m : Nat) : IsNearest (placeUnits m) m where
  le k := by
    rw [sub_self, abs_zero]
    exact abs_nonneg _
  even k hk h := by
    rw [sub_self, abs_zero, abs_eq_zero, sub_eq_zero, Nat.cast_inj] at h
    exact absurd (strictMono_placeUnits.injective h).symm hk

theorem IsNearest.le_iff_of_odd (h : IsNearest t m) (hk : Odd k) :
    m ≤ k ↔ t < (placeUnits k + placeUnits (k + 1)) / 2 := by
  have hnext := cast_placeUnits_lt (Nat.lt_succ_self k)
  constructor
  · intro hmk
    by_contra! ht
    have hplace := cast_placeUnits_le hmk
    have hle := h.le (k + 1)
    rw [abs_of_nonneg (by linarith)] at hle
    obtain ⟨habs, hsign⟩ | ⟨habs, hsign⟩ := abs_cases (t - placeUnits (k + 1))
    · linarith
    · have heq : placeUnits m = placeUnits k := by
        have hcast : (placeUnits m : ℚ) = placeUnits k := by linarith
        exact_mod_cast hcast
      obtain rfl := strictMono_placeUnits.injective heq
      have htie : |t - placeUnits (m + 1)| = |t - placeUnits m| := by
        rw [habs, abs_of_nonneg (by linarith)]
        linarith
      exact Nat.not_even_iff_odd.2 hk (h.even (m + 1) (by omega) htie)
  · intro ht
    by_contra! hkm
    have hplace := cast_placeUnits_le (Nat.succ_le_of_lt hkm)
    have hle := h.le k
    rw [abs_of_nonpos (by linarith)] at hle
    obtain ⟨habs, hsign⟩ | ⟨habs, hsign⟩ := abs_cases (t - placeUnits k)
    · linarith
    · linarith

theorem IsNearest.eq_zero_of_lt_half (h : IsNearest t m) (hnonneg : 0 ≤ t) (ht : t < 1 / 2) : m = 0 := by
  by_contra hm
  have hplace := cast_placeUnits_le (Nat.pos_of_ne_zero hm)
  have hone : (placeUnits 1 : ℚ) = 1 := by norm_num [placeUnits, binadeSize_eq]
  have hzero : (placeUnits 0 : ℚ) = 0 := by norm_num [placeUnits]
  have hle := h.le 0
  rw [hzero, sub_zero, abs_of_nonneg hnonneg, abs_of_nonpos (by linarith)] at hle
  linarith

section Quotients

variable {num den : Nat}

theorem cast_div_eq (hden : 0 < den) : (num / den : ℚ) = (num / den : Nat) + (num % den : Nat) / (den : ℚ) := by
  have hpos : (0 : ℚ) < den := Nat.cast_pos.2 hden
  have hsum : (num : ℚ) = den * (num / den : Nat) + (num % den : Nat) := by
    exact_mod_cast (Nat.div_add_mod num den).symm
  rw [div_eq_iff hpos.ne', add_mul, div_mul_cancel₀ _ hpos.ne', mul_comm, ← hsum]

theorem abs_sub_roundDiv (num : Nat) (hden : 0 < den) :
    |(num / den : ℚ) - roundDiv num den| ≤ 1 / 2 ∧
      (|(num / den : ℚ) - roundDiv num den| = 1 / 2 → Even (roundDiv num den)) := by
  have hpos : (0 : ℚ) < den := Nat.cast_pos.2 hden
  have hlt : ((num % den : Nat) : ℚ) < den := Nat.cast_lt.2 (Nat.mod_lt num hden)
  have hnonneg : (0 : ℚ) ≤ (num % den : Nat) := Nat.cast_nonneg _
  rw [cast_div_eq hden]
  unfold roundDiv
  generalize num / den = q
  generalize num % den = rest at *
  obtain h | h | h := lt_trichotomy (2 * rest) den
  · have hrest : (rest : ℚ) / den < 1 / 2 := by
      rw [div_lt_div_iff₀ hpos two_pos, one_mul, mul_comm]
      exact_mod_cast h
    have hdist : |(q : ℚ) + rest / den - q| = rest / den := by
      rw [add_sub_cancel_left]
      exact abs_of_nonneg (div_nonneg hnonneg hpos.le)
    simp only [if_pos h, hdist]
    exact ⟨hrest.le, fun heq => absurd heq hrest.ne⟩
  · have hrest : (rest : ℚ) / den = 1 / 2 := by
      rw [div_eq_div_iff hpos.ne' two_ne_zero, one_mul, mul_comm]
      exact_mod_cast h
    simp only [if_neg h.not_lt, if_neg h.symm.not_lt, hrest]
    refine ⟨?_, fun _ => ?_⟩
    · obtain hq | hq := Nat.mod_two_eq_zero_or_one q
      · rw [hq]
        norm_num
      · rw [hq, Nat.cast_add, Nat.cast_one, add_sub_add_left_eq_sub]
        norm_num
    · rw [Nat.even_iff]
      omega
  · have hrest : 1 / 2 < (rest : ℚ) / den := by
      rw [div_lt_div_iff₀ two_pos hpos, one_mul, mul_comm]
      exact_mod_cast h
    have hone : (rest : ℚ) / den < 1 := (div_lt_one hpos).2 hlt
    have hdist : |(q : ℚ) + rest / den - (q + 1 : Nat)| = 1 - rest / den := by
      rw [Nat.cast_add, Nat.cast_one, add_sub_add_left_eq_sub, abs_sub_comm]
      exact abs_of_pos (by linarith)
    simp only [if_neg (lt_asymm h), if_pos h, hdist]
    exact ⟨by linarith, fun heq => absurd heq (by linarith)⟩

theorem abs_sub_le_of_le_half {q : ℚ} {n : Nat} (h : |q - n| ≤ 1 / 2) (j : Nat) :
    |q - n| ≤ |q - j| ∧ (j ≠ n → |q - j| = |q - n| → |q - n| = 1 / 2) := by
  obtain rfl | hj := eq_or_ne j n
  · exact ⟨le_rfl, fun hj => absurd rfl hj⟩
  · have hone : (1 : ℚ) ≤ |(n : ℚ) - j| := by
      have hint : (1 : ℤ) ≤ |(n : ℤ) - j| := Int.one_le_abs (by omega)
      exact_mod_cast hint
    have htriangle := abs_sub_le (n : ℚ) q j
    rw [abs_sub_comm (n : ℚ) q] at htriangle
    exact ⟨by linarith, fun _ heq => by linarith⟩

/-- The binade of a quotient: so many halvings leave at most 53 bits of it, and just 53 if there are any. -/
theorem binade_bounds (hden : 0 < den) {b : Nat} (hb : b = (num / den).log2 - 52) :
    (b = 0 ∨ (binadeSize * Nat.pow 2 b : ℚ) ≤ num / den) ∧ (num / den : ℚ) < 2 * binadeSize * Nat.pow 2 b := by
  have hpos : (0 : ℚ) < den := Nat.cast_pos.2 hden
  have hsize : binadeSize = Nat.pow 2 52 := rfl
  refine ⟨?_, ?_⟩
  · obtain h | h := Nat.eq_zero_or_pos b
    · exact .inl h
    · have hne : num / den ≠ 0 := by
        intro hzero
        rw [hzero, Nat.log2_zero] at hb
        omega
      have hlog : binadeSize * Nat.pow 2 b ≤ num / den := by
        calc binadeSize * Nat.pow 2 b = 2 ^ (52 + b) := (Nat.pow_add 2 52 b).symm
          _ = 2 ^ (num / den).log2 := by congr 1; omega
          _ ≤ num / den := Nat.log2_self_le hne
      rw [le_div_iff₀ hpos]
      exact .inr (by exact_mod_cast (Nat.le_div_iff_mul_le hden).1 hlog)
  · have hlog : num / den < 2 * binadeSize * Nat.pow 2 b := by
      calc num / den < 2 ^ ((num / den).log2 + 1) := Nat.lt_log2_self
        _ ≤ 2 ^ (53 + b) := Nat.pow_le_pow_right two_pos (by omega)
        _ = 2 * binadeSize * Nat.pow 2 b := Nat.pow_add 2 53 b
    rw [div_lt_iff₀ hpos]
    exact_mod_cast (Nat.div_lt_iff_lt_mul hden).1 hlog

/-- A number of steps of a binade is rounded as a whole number is. Places before the binade are farther away than
its first one, and from that one on all places are whole numbers of steps. -/
theorem isNearest_of_steps {b n : Nat} {q t : ℚ} (ht : t = q * (Nat.pow 2 b : Nat))
    (hlow : b = 0 ∨ (binadeSize : ℚ) ≤ q) (hhigh : q < 2 * binadeSize) (hhalf : |q - n| ≤ 1 / 2)
    (heven : |q - n| = 1 / 2 → Even n) : IsNearest t (b * binadeSize + n) := by
  have hstep : (0 : ℚ) < (Nat.pow 2 b : Nat) := Nat.cast_pos.2 (Nat.two_pow_pos b)
  have hdist (j : Nat) : |t - (j * Nat.pow 2 b : Nat)| = |q - j| * (Nat.pow 2 b : Nat) := by
    rw [ht, Nat.cast_mul, ← sub_mul, abs_mul, abs_of_pos hstep]
  have hplace : placeUnits (b * binadeSize + n) = n * Nat.pow 2 b := by
    obtain ⟨hbelow, habove⟩ := abs_le.1 hhalf
    apply placeUnits_add
    · refine hlow.imp_right fun h => ?_
      have hn : (binadeSize : ℚ) < n + 1 := by linarith
      exact Nat.le_of_lt_succ (by exact_mod_cast hn)
    · have hn : (n : ℚ) < 2 * binadeSize + 1 := by linarith
      exact Nat.le_of_lt_succ (by exact_mod_cast hn)
  have hother (k : Nat) : |t - (n * Nat.pow 2 b : Nat)| ≤ |t - placeUnits k| ∧
      (k ≠ b * binadeSize + n → |t - placeUnits k| = |t - (n * Nat.pow 2 b : Nat)| → Even n) := by
    by_cases hk : b = 0 ∨ binadeSize * Nat.pow 2 b ≤ placeUnits k
    · obtain ⟨j, hj⟩ := dvd_placeUnits hk
      rw [Nat.mul_comm] at hj
      obtain ⟨hle, htie⟩ := abs_sub_le_of_le_half hhalf j
      rw [hj, hdist, hdist]
      refine ⟨mul_le_mul_of_nonneg_right hle hstep.le, fun hne heq => heven (htie ?_ ?_)⟩
      · rintro rfl
        exact hne (strictMono_placeUnits.injective (hj.trans hplace.symm))
      · exact mul_right_cancel₀ hstep.ne' heq
    · obtain ⟨hb, hk⟩ := not_or.1 hk
      have hlt : (placeUnits k : ℚ) < (binadeSize * Nat.pow 2 b : Nat) := Nat.cast_lt.2 (not_le.1 hk)
      have hle : ((binadeSize * Nat.pow 2 b : Nat) : ℚ) ≤ t := by
        rw [ht, Nat.cast_mul]
        exact mul_le_mul_of_nonneg_right (hlow.resolve_left hb) hstep.le
      have hfirst : |t - (n * Nat.pow 2 b : Nat)| ≤ t - (binadeSize * Nat.pow 2 b : Nat) := by
        rw [← abs_of_nonneg (sub_nonneg.2 hle), hdist, hdist]
        exact mul_le_mul_of_nonneg_right (abs_sub_le_of_le_half hhalf binadeSize).1 hstep.le
      rw [abs_of_nonneg (sub_nonneg.2 (hlt.le.trans hle))]
      exact ⟨by linarith, fun _ heq => by linarith⟩
  rw [← hplace] at hother
  have hsize : Even (b * binadeSize) := Even.mul_left (by decide) b
  exact ⟨fun k => (hother k).1, fun k hk heq => hsize.add ((hother k).2 hk heq)⟩

theorem isNearest_roundDiv (num : Nat) (hden : 0 < den) {b : Nat} (hb : b = (num / den).log2 - 52) :
    IsNearest (num / den) (b * binadeSize + roundDiv num (den * Nat.pow 2 b)) := by
  obtain ⟨hlow, hhigh⟩ := binade_bounds hden hb
  have hstep : (0 : ℚ) < (Nat.pow 2 b : Nat) := Nat.cast_pos.2 (Nat.two_pow_pos b)
  have hsteps : (num / den : ℚ) = num / (den * Nat.pow 2 b : Nat) * (Nat.pow 2 b : Nat) := by
    rw [Nat.cast_mul, ← div_div, div_mul_cancel₀ _ hstep.ne']
  rw [hsteps] at hlow hhigh
  obtain ⟨hhalf, heven⟩ := abs_sub_roundDiv num (Nat.mul_pos hden (Nat.two_pow_pos b))
  exact isNearest_of_steps hsteps (hlow.imp_right fun h => le_of_mul_le_mul_right h hstep)
    (lt_of_mul_lt_mul_right hhigh hstep.le) hhalf heven

end Quotients

end Nearest

section Encoding

variable {x : Binary64} {m : Nat} {negative : Bool}

theorem infinityMagnitude_eq : infinityMagnitude = 9218868437227405312 := rfl

theorem magnitude_lt (x : Binary64) : x.magnitude < signSize := Nat.mod_lt _ (by decide)

theorem magnitude_lt_iff : x.magnitude < infinityMagnitude ↔ x.exponentBits ≠ 2047 := by
  have hlt := x.magnitude_lt
  rw [signSize_eq] at hlt
  rw [exponentBits_eq, exponentField, infinityMagnitude_eq, binadeSize_eq]
  omega

theorem isFinite_iff : x.isFinite = true ↔ x.exponentBits ≠ 2047 := decide_eq_true_iff.trans magnitude_lt_iff

theorem even_fractionBits_iff : Even x.fractionBits ↔ Even x.magnitude := by
  rw [fractionBits_eq, binadeSize_eq, Nat.even_iff, Nat.even_iff]
  omega

theorem toNat_ofMagnitude (hm : m < signSize) :
    (ofMagnitude negative m).bits.toNat = m + if negative then signSize else 0 := by
  apply UInt64.toNat_ofNat_of_lt'
  have hsize : UInt64.size = 18446744073709551616 := rfl
  have hsign := signSize_eq
  split <;> omega

theorem magnitude_ofMagnitude (hm : m < signSize) : (ofMagnitude negative m).magnitude = m := by
  rw [magnitude, toNat_ofMagnitude hm]
  split
  · rw [Nat.add_mod_right, Nat.mod_eq_of_lt hm]
  · exact Nat.mod_eq_of_lt hm

theorem negative_ofMagnitude (hm : m < signSize) : (ofMagnitude negative m).negative = negative := by
  rw [Binary64.negative, toNat_ofMagnitude hm]
  cases negative with
  | true => exact decide_eq_true (Nat.le_add_left _ _)
  | false => exact decide_eq_false (not_le.2 hm)

theorem ofMagnitude_self (x : Binary64) : ofMagnitude x.negative x.magnitude = x := by
  have hlt := x.magnitude_lt
  have hbits : (ofMagnitude x.negative x.magnitude).bits = x.bits := by
    apply UInt64.toNat_inj.1
    rw [toNat_ofMagnitude hlt]
    have hsize := x.bits.toNat_lt_size
    have huint : UInt64.size = 18446744073709551616 := rfl
    rw [Binary64.negative, magnitude, signSize_eq]
    simp only [decide_eq_true_eq]
    split <;> omega
  exact congrArg mk hbits

theorem abs_rational_mul (x : Binary64) : |x.rational| * unitsPerOne = placeUnits x.magnitude := by
  have hpos : (0 : ℚ) < unitsPerOne := Nat.cast_pos.2 unitsPerOne_pos
  have habs : |(x.units : ℚ)| = x.absUnits := by
    rw [units]
    split
    · rw [Int.cast_neg, abs_neg, Int.cast_natCast, Nat.abs_cast]
    · rw [Int.cast_natCast, Nat.abs_cast]
  rw [← absUnits_eq_placeUnits, ← habs, cast_units, abs_mul, abs_of_pos hpos]

theorem cast_binadeSize : (binadeSize : ℚ) = 2 ^ 52 := cast_two_pow 52

theorem cast_unitsPerOne_eq : (unitsPerOne : ℚ) = 2 ^ 1074 :=
  cast_unitsPerOne.trans (zpow_natCast 2 1074)

theorem cast_placeUnits_infinity : (placeUnits infinityMagnitude : ℚ) = 2 ^ 1024 * unitsPerOne := by
  obtain ⟨b, hb⟩ : ∃ b, b = 2046 := ⟨_, rfl⟩
  have hmagnitude : infinityMagnitude = b * binadeSize + binadeSize := by
    rw [hb]
    decide
  rw [hmagnitude, placeUnits_add (.inr le_rfl) (by omega), Nat.cast_mul, cast_binadeSize, cast_two_pow,
    cast_unitsPerOne_eq, ← pow_add, ← pow_add, hb]

theorem cast_placeUnits_largest :
    (placeUnits (infinityMagnitude - 1) : ℚ) = (2 ^ 1024 - 2 ^ 971) * unitsPerOne := by
  obtain ⟨b, hb⟩ : ∃ b, b = 2045 := ⟨_, rfl⟩
  have hmagnitude : infinityMagnitude - 1 = b * binadeSize + (2 * binadeSize - 1) := by
    rw [hb]
    decide
  have hsize : ((2 * binadeSize - 1 : Nat) : ℚ) = 2 ^ 53 - 1 := by
    rw [binadeSize_eq]
    norm_num
  rw [hmagnitude, placeUnits_add (.inr (by decide)) (by omega), Nat.cast_mul, hsize, cast_two_pow,
    cast_unitsPerOne_eq, sub_mul, sub_mul, one_mul, ← pow_add, ← pow_add, ← pow_add, hb]

theorem halfway_to_infinity :
    (placeUnits (infinityMagnitude - 1) + placeUnits infinityMagnitude) / 2 =
      (2 ^ 1024 - 2 ^ 970 : ℚ) * unitsPerOne := by
  have hpow : (2 : ℚ) ^ 971 = 2 * 2 ^ 970 := pow_succ' 2 970
  rw [cast_placeUnits_largest, cast_placeUnits_infinity, hpow]
  generalize (2 : ℚ) ^ 1024 = top
  generalize (2 : ℚ) ^ 970 = half
  ring

theorem IsNearest.lt_infinityMagnitude_iff {a : ℚ} (h : IsNearest (a * unitsPerOne) m) :
    m < infinityMagnitude ↔ a < 2 ^ 1024 - 2 ^ 970 := by
  have hpos : (0 : ℚ) < unitsPerOne := Nat.cast_pos.2 unitsPerOne_pos
  have hodd : Odd (infinityMagnitude - 1) := by decide
  rw [← mul_lt_mul_iff_left₀ hpos, ← halfway_to_infinity]
  exact (Nat.lt_iff_le_pred (by decide)).trans (h.le_iff_of_odd hodd)

end Encoding

/-- What a number with a sign is rounded to: a finite number with this sign that none is nearer than, and with an
even significand if another one is as near. There is none from halfway between the largest number and `2 ^ 1024`
on. -/
structure Rounds (negative : Bool) (q : ℚ) (x : Binary64) : Prop where
  sign : x.signBit = negative
  finite : x.exponentBits ≠ 2047
  inRange : |q| < 2 ^ 1024 - 2 ^ 970
  nearest : ∀ y : Binary64, y.exponentBits ≠ 2047 → |q - x.rational| ≤ |q - y.rational|
  even : ∀ y : Binary64, y.exponentBits ≠ 2047 → y.rational ≠ x.rational →
    |q - y.rational| = |q - x.rational| → Even x.fractionBits

section Rounds

variable {x y : Binary64} {m : Nat} {negative : Bool} {a q : ℚ}

def signed (negative : Bool) (a : ℚ) : ℚ := if negative then -a else a

theorem abs_signed (ha : 0 ≤ a) : |signed negative a| = a := by
  rw [signed]
  split
  · rw [abs_neg, abs_of_nonneg ha]
  · exact abs_of_nonneg ha

theorem signed_sub_signed (a b : ℚ) : |signed negative a - signed negative b| = |a - b| := by
  rw [signed, signed]
  split
  · rw [neg_sub_neg, abs_sub_comm]
  · rfl

theorem rational_eq_signed (x : Binary64) : x.rational = signed x.signBit |x.rational| := by
  rw [rational, mul_assoc]
  have hnonneg : 0 ≤ ((if x.exponentBits = 0 then 0 else 1) + x.fractionBits / 2 ^ 52 : ℚ) *
      2 ^ ((max x.exponentBits 1 : Nat) - 1023 : ℤ) := by
    refine mul_nonneg (add_nonneg ?_ (div_nonneg (Nat.cast_nonneg _) (by positivity))) (zpow_nonneg zero_le_two _)
    split <;> norm_num
  cases x.signBit with
  | true => rw [if_pos rfl, neg_one_mul, abs_neg, abs_of_nonneg hnonneg, signed, if_pos rfl]
  | false => rw [if_neg Bool.false_ne_true, one_mul, abs_of_nonneg hnonneg, signed, if_neg Bool.false_ne_true]

theorem place_dist_le (ha : 0 ≤ a) (y : Binary64) :
    |a * unitsPerOne - placeUnits y.magnitude| ≤ |signed negative a - y.rational| * unitsPerOne := by
  have hpos : (0 : ℚ) < unitsPerOne := Nat.cast_pos.2 unitsPerOne_pos
  have hdist := abs_abs_sub_abs_le_abs_sub (signed negative a) y.rational
  rw [abs_signed ha] at hdist
  rw [← abs_rational_mul, ← sub_mul, abs_mul, abs_of_pos hpos]
  exact mul_le_mul_of_nonneg_right hdist hpos.le

theorem place_dist_eq (a : ℚ) (hy : y.signBit = negative) :
    |a * unitsPerOne - placeUnits y.magnitude| = |signed negative a - y.rational| * unitsPerOne := by
  have hpos : (0 : ℚ) < unitsPerOne := Nat.cast_pos.2 unitsPerOne_pos
  rw [← abs_rational_mul, ← sub_mul, abs_mul, abs_of_pos hpos, y.rational_eq_signed, hy, signed_sub_signed,
    ← hy, ← y.rational_eq_signed]

theorem rational_ne_of_magnitude_ne (h : y.magnitude ≠ x.magnitude) : y.rational ≠ x.rational := by
  intro heq
  have hplace : (placeUnits y.magnitude : ℚ) = placeUnits x.magnitude := by
    rw [← abs_rational_mul, ← abs_rational_mul, heq]
  exact h (strictMono_placeUnits.injective (Nat.cast_injective hplace))

theorem rounds_of_isNearest (ha : 0 ≤ a) (h : IsNearest (a * unitsPerOne) x.magnitude)
    (hfinite : x.exponentBits ≠ 2047) : Rounds x.signBit (signed x.signBit a) x := by
  have hpos : (0 : ℚ) < unitsPerOne := Nat.cast_pos.2 unitsPerOne_pos
  have hx := place_dist_eq a (y := x) rfl
  have hle (y : Binary64) :
      |signed x.signBit a - x.rational| * unitsPerOne ≤ |a * unitsPerOne - placeUnits y.magnitude| :=
    hx ▸ h.le y.magnitude
  refine ⟨rfl, hfinite, ?_, fun y _ => ?_, fun y _ hne heq => even_fractionBits_iff.2 ?_⟩
  · rw [abs_signed ha]
    exact h.lt_infinityMagnitude_iff.1 (magnitude_lt_iff.2 hfinite)
  · exact le_of_mul_le_mul_right ((hle y).trans (place_dist_le ha y)) hpos
  · have htie : |a * unitsPerOne - placeUnits y.magnitude| = |a * unitsPerOne - placeUnits x.magnitude| := by
      refine le_antisymm ?_ (h.le y.magnitude)
      rw [hx, ← heq]
      exact place_dist_le ha y
    by_cases hplace : y.magnitude = x.magnitude
    · -- the other number is the opposite one, and only zero is as near to both
      have habs : |y.rational| = |x.rational| := by
        refine mul_right_cancel₀ hpos.ne' ?_
        rw [abs_rational_mul, abs_rational_mul, hplace]
      have hopposite : y.rational = -x.rational := (abs_eq_abs.1 habs).resolve_left hne
      have hzero : signed x.signBit a = 0 := by
        obtain hq | hq := abs_eq_abs.1 heq
        · exact absurd (sub_right_injective hq) hne
        · linarith
      have hsigned : |signed x.signBit a| = a := abs_signed ha
      rw [← hsigned, hzero, abs_zero, zero_mul] at h
      rw [h.eq_zero_of_lt_half le_rfl (by norm_num)]
      exact Even.zero
    · exact h.even y.magnitude hplace htie

theorem isNearest_of_rounds (ha : 0 ≤ a) (h : Rounds negative (signed negative a) x) :
    IsNearest (a * unitsPerOne) x.magnitude := by
  have hpos : (0 : ℚ) < unitsPerOne := Nat.cast_pos.2 unitsPerOne_pos
  have hfinite := magnitude_lt_iff.2 h.finite
  have hx := place_dist_eq a h.sign
  have hnumber {k : Nat} (hk : k < infinityMagnitude) : ∃ y : Binary64, y.magnitude = k ∧
      y.exponentBits ≠ 2047 ∧
      |a * unitsPerOne - placeUnits k| = |signed negative a - y.rational| * unitsPerOne := by
    have hsize : k < signSize := hk.trans (by decide)
    have hmagnitude : (ofMagnitude negative k).magnitude = k := magnitude_ofMagnitude hsize
    refine ⟨ofMagnitude negative k, hmagnitude, magnitude_lt_iff.1 (hmagnitude.trans_lt hk), ?_⟩
    rw [← place_dist_eq a ((signBit_eq _).trans (negative_ofMagnitude hsize)), hmagnitude]
  have hle {k : Nat} (hk : k < infinityMagnitude) :
      |a * unitsPerOne - placeUnits x.magnitude| ≤ |a * unitsPerOne - placeUnits k| := by
    obtain ⟨y, -, hy, hdist⟩ := hnumber hk
    rw [hx, hdist]
    exact mul_le_mul_of_nonneg_right (h.nearest y hy) hpos.le
  have hlt {k : Nat} (hk : infinityMagnitude ≤ k) :
      |a * unitsPerOne - placeUnits x.magnitude| < |a * unitsPerOne - placeUnits k| := by
    have hrange : a * unitsPerOne < (placeUnits (infinityMagnitude - 1) + placeUnits infinityMagnitude) / 2 := by
      rw [halfway_to_infinity]
      exact mul_lt_mul_of_pos_right (abs_signed ha ▸ h.inRange) hpos
    have hlast := cast_placeUnits_lt (show infinityMagnitude - 1 < infinityMagnitude by decide)
    have hplace := cast_placeUnits_le hk
    refine (hle (show infinityMagnitude - 1 < infinityMagnitude by decide)).trans_lt ?_
    rw [abs_of_nonpos (a := a * unitsPerOne - placeUnits k) (by linarith)]
    exact abs_lt.2 ⟨by linarith, by linarith⟩
  constructor
  · intro k
    obtain hk | hk := lt_or_ge k infinityMagnitude
    · exact hle hk
    · exact (hlt hk).le
  · intro k hne heq
    obtain hk | hk := lt_or_ge k infinityMagnitude
    · obtain ⟨y, rfl, hy, hdist⟩ := hnumber hk
      refine even_fractionBits_iff.1 (h.even y hy (rational_ne_of_magnitude_ne hne) ?_)
      rw [hdist, hx] at heq
      exact mul_right_cancel₀ hpos.ne' heq
    · exact absurd heq (hlt hk).ne'

theorem exists_isNearest_ofRatio (negative : Bool) (num : Nat) {den : Nat} (hden : 0 < den) :
    ∃ m, IsNearest (num / den * unitsPerOne) m ∧
      ofRatio negative num den = ofMagnitude negative (min m infinityMagnitude) := by
  have h := isNearest_roundDiv (num * unitsPerOne) hden rfl
  rw [Nat.cast_mul, mul_div_right_comm] at h
  exact ⟨_, h, rfl⟩

theorem rounds_ofRatio_iff {num den : Nat} (hden : 0 < den) :
    Rounds negative (signed negative (num / den)) x ↔
      ofRatio negative num den = x ∧ x.exponentBits ≠ 2047 := by
  have ha : (0 : ℚ) ≤ num / den := div_nonneg (Nat.cast_nonneg _) (Nat.cast_nonneg _)
  obtain ⟨m, hm, hratio⟩ := exists_isNearest_ofRatio negative num hden
  rw [hratio]
  constructor
  · intro h
    obtain rfl := hm.unique (isNearest_of_rounds ha h)
    rw [Nat.min_eq_left (magnitude_lt_iff.2 h.finite).le, ← h.sign, signBit_eq, ofMagnitude_self]
    exact ⟨rfl, h.finite⟩
  · rintro ⟨rfl, hfinite⟩
    have hsize : min m infinityMagnitude < signSize := (Nat.min_le_right _ _).trans_lt (by decide)
    have hlt := magnitude_lt_iff.2 hfinite
    rw [magnitude_ofMagnitude hsize] at hlt
    have hmin : min m infinityMagnitude = m := by omega
    rw [hmin] at hfinite hsize ⊢
    have hsign : (ofMagnitude negative m).signBit = negative :=
      (signBit_eq _).trans (negative_ofMagnitude hsize)
    have h := rounds_of_isNearest (x := ofMagnitude negative m) ha (by rwa [magnitude_ofMagnitude hsize]) hfinite
    rwa [hsign] at h

end Rounds

end Binary64

namespace Decimal

open Binary64

def value (d : Decimal) : ℚ := signed d.negative (d.digits * 10 ^ d.exponent)

variable {d : Decimal}

theorem lt_ten_pow_length (n : Nat) : n < 10 ^ length n :=
  (Nat.length_toDigits_le_iff (by decide) Nat.length_toDigits_pos).1 le_rfl

theorem ten_pow_length_le {n : Nat} (h : n ≠ 0) : 10 ^ (length n - 1) ≤ n := by
  by_contra! hlt
  obtain hlength | hlength := Nat.eq_zero_or_pos (length n - 1)
  · rw [hlength] at hlt
    omega
  · have hle : length n ≤ length n - 1 := (Nat.length_toDigits_le_iff (by decide) hlength).2 hlt
    omega

theorem digits_mul_zpow (d : Decimal) :
    (d.digits * 10 ^ d.exponent : ℚ) =
      (d.digits * Nat.pow 10 d.exponent.toNat : Nat) / (Nat.pow 10 (-d.exponent).toNat : Nat) := by
  have hcast (n : Nat) : ((Nat.pow 10 n : Nat) : ℚ) = 10 ^ n := Nat.cast_pow 10 n
  rw [Nat.cast_mul, hcast, hcast]
  obtain ⟨n, hn | hn⟩ := d.exponent.eq_nat_or_neg
  · rw [hn, zpow_natCast, Int.toNat_natCast, Int.toNat_neg_natCast, pow_zero, div_one]
  · rw [hn, zpow_neg, zpow_natCast, neg_neg, Int.toNat_natCast, Int.toNat_neg_natCast, pow_zero, mul_one,
      div_eq_mul_inv]

theorem digits_mul_zpow_lt (d : Decimal) :
    (d.digits * 10 ^ d.exponent : ℚ) < 10 ^ (length d.digits + d.exponent) := by
  have hdigits : (d.digits : ℚ) < 10 ^ length d.digits := by exact_mod_cast lt_ten_pow_length d.digits
  rw [zpow_add₀ (by norm_num), zpow_natCast]
  exact mul_lt_mul_of_pos_right hdigits (zpow_pos (by norm_num) _)

theorem le_digits_mul_zpow (h : d.digits ≠ 0) :
    (10 : ℚ) ^ (length d.digits + d.exponent - 1) ≤ d.digits * 10 ^ d.exponent := by
  have hlength : 0 < length d.digits := Nat.length_toDigits_pos
  have hdigits : (10 : ℚ) ^ (length d.digits - 1) ≤ d.digits := by exact_mod_cast ten_pow_length_le h
  have hexp : length d.digits + d.exponent - 1 = (length d.digits - 1 : Nat) + d.exponent := by omega
  rw [hexp, zpow_add₀ (by norm_num), zpow_natCast]
  exact mul_le_mul_of_nonneg_right hdigits (zpow_nonneg (by norm_num) _)

theorem two_pow_le_ten_pow : (2 : ℚ) ^ 1023 ≤ 10 ^ 308 := by
  have h : ((2 : ℚ) ^ 93) ^ 11 ≤ (10 ^ 28) ^ 11 := pow_le_pow_left₀ (by norm_num) (by norm_num) 11
  rwa [← pow_mul, ← pow_mul] at h

theorem eq_zero_of_lt_ten_zpow {a : ℚ} {m : Nat} (h : IsNearest (a * unitsPerOne) m) (ha : 0 ≤ a)
    (hlt : a < 10 ^ (-330 : ℤ)) : m = 0 := by
  have hpos : (0 : ℚ) < unitsPerOne := Nat.cast_pos.2 unitsPerOne_pos
  refine h.eq_zero_of_lt_half (mul_nonneg ha hpos.le) ?_
  have hpow : (2 : ℚ) * unitsPerOne ≤ 10 ^ 330 :=
    calc (2 : ℚ) * unitsPerOne = 2 ^ 1023 * 2 ^ 52 := by rw [cast_unitsPerOne_eq, ← pow_succ', ← pow_add]
      _ ≤ 10 ^ 308 * 10 ^ 22 := mul_le_mul two_pow_le_ten_pow (by norm_num) (by norm_num) (by positivity)
      _ = 10 ^ 330 := by rw [← pow_add]
  calc a * unitsPerOne < 10 ^ (-330 : ℤ) * unitsPerOne := mul_lt_mul_of_pos_right hlt hpos
    _ ≤ 1 / 2 := by
        have hcast : (10 : ℚ) ^ (-330 : ℤ) = (10 ^ 330)⁻¹ := zpow_neg 10 330
        rw [hcast, inv_mul_le_iff₀ (pow_pos (by norm_num) _)]
        generalize (10 : ℚ) ^ 330 = bound at *
        linarith

theorem infinityMagnitude_le_of_ten_zpow_le {a : ℚ} {m : Nat} (h : IsNearest (a * unitsPerOne) m)
    (hle : 10 ^ (310 : ℤ) ≤ a) : infinityMagnitude ≤ m := by
  have hpow : (2 : ℚ) ^ 1024 ≤ 10 ^ 310 :=
    calc (2 : ℚ) ^ 1024 = 2 ^ 1023 * 2 := pow_succ 2 1023
      _ ≤ 10 ^ 308 * 10 ^ 2 := mul_le_mul two_pow_le_ten_pow (by norm_num) (by norm_num) (by positivity)
      _ = 10 ^ 310 := by rw [← pow_add]
  have hcast : (10 : ℚ) ^ (310 : ℤ) = 10 ^ 310 := zpow_natCast 10 310
  have hhalf : (0 : ℚ) < 2 ^ 970 := by positivity
  refine not_lt.1 fun hlt => ?_
  have ha := h.lt_infinityMagnitude_iff.1 hlt
  rw [hcast] at hle
  generalize (2 : ℚ) ^ 1024 = top at *
  generalize (10 : ℚ) ^ 310 = bound at *
  generalize (2 : ℚ) ^ 970 = half at *
  linarith

/-- What is told by the number of digits alone would be rounded to the same. -/
theorem nearest_eq_ofRatio (d : Decimal) :
    d.nearest = .ofRatio d.negative (d.digits * Nat.pow 10 d.exponent.toNat)
      (Nat.pow 10 (-d.exponent).toNat) := by
  have hden : 0 < Nat.pow 10 (-d.exponent).toNat := Nat.pow_pos (by decide)
  obtain ⟨m, hm, hratio⟩ := exists_isNearest_ofRatio d.negative (d.digits * Nat.pow 10 d.exponent.toNat) hden
  rw [← digits_mul_zpow] at hm
  have hnonneg : (0 : ℚ) ≤ d.digits * 10 ^ d.exponent :=
    mul_nonneg (Nat.cast_nonneg _) (zpow_nonneg (by norm_num) _)
  unfold nearest
  dsimp only
  split
  · rename_i hsmall
    have hlt : (d.digits * 10 ^ d.exponent : ℚ) < 10 ^ (-330 : ℤ) := by
      obtain hzero | htop : d.digits = 0 ∨ length d.digits + d.exponent < -330 := by simpa using hsmall
      · rw [hzero, Nat.cast_zero, zero_mul]
        exact zpow_pos (by norm_num) _
      · exact d.digits_mul_zpow_lt.trans (zpow_lt_zpow_right₀ (by norm_num) htop)
    rw [hratio, eq_zero_of_lt_ten_zpow hm hnonneg hlt, Nat.zero_min]
  · rename_i hsmall
    split
    · rename_i hlarge
      have hdigits : d.digits ≠ 0 := fun h => hsmall (by simp [h])
      have hle : (10 : ℚ) ^ (310 : ℤ) ≤ d.digits * 10 ^ d.exponent :=
        (zpow_le_zpow_right₀ (by norm_num) (by omega)).trans (le_digits_mul_zpow hdigits)
      rw [hratio, Nat.min_eq_right (infinityMagnitude_le_of_ten_zpow_le hm hle)]
    · split
      · rename_i hexp
        rw [Int.toNat_of_nonpos (Int.neg_nonpos_of_nonneg hexp), Nat.pow_eq]
      · rename_i hexp
        rw [Int.toNat_of_nonpos (not_le.1 hexp).le]
        exact congrArg (ofRatio d.negative · _) (Nat.mul_one _).symm

/-- The nearest double is the one that the decimal rounds to, and an infinity if it rounds to none. -/
theorem rounds_iff {x : Binary64} :
    Rounds d.negative d.value x ↔ d.nearest = x ∧ x.exponentBits ≠ 2047 := by
  rw [value, digits_mul_zpow, nearest_eq_ofRatio]
  exact rounds_ofRatio_iff (Nat.pow_pos (by decide))

end Decimal

end Stepwise
