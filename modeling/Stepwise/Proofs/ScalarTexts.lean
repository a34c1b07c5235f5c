import Stepwise.Proofs.Literals
import Stepwise.Proofs.QuotedTexts
import Stepwise.Value.Inspect

namespace Stepwise

namespace Binary64

section Whole

variable {m n : Nat}

theorem exists_placeUnits_eq (hn : n ≤ 2 * binadeSize) (b : Nat) : ∃ m, placeUnits m = n * Nat.pow 2 b := by
  induction b generalizing n with
  | zero => exact ⟨0 * binadeSize + n, placeUnits_add (.inl rfl) hn⟩
  | succ b ih =>
      obtain h | h := le_total binadeSize n
      · exact ⟨(b + 1) * binadeSize + n, placeUnits_add (.inr h) hn⟩
      · obtain ⟨m, hm⟩ := ih (n := 2 * n) (by omega)
        refine ⟨m, hm.trans ?_⟩
        rw [Nat.pow_eq, Nat.pow_eq, Nat.pow_succ']
        ring

/-- A whole number is rounded to a whole number. If it is not too large it is a number itself, and from where all
numbers are whole, what it is rounded to is there too. -/
theorem dvd_placeUnits_of_isNearest (h : IsNearest ((n : ℚ) * unitsPerOne) m) : unitsPerOne ∣ placeUnits m := by
  obtain ⟨e, he⟩ := exists_unitsPerOne_eq
  rw [he] at h ⊢
  obtain ⟨b, r, rfl, hlow, hhigh⟩ := exists_binade m
  obtain hb | hb := le_or_gt e b
  · rw [placeUnits_add hlow hhigh.le]
    exact Dvd.dvd.mul_left (Nat.pow_dvd_pow 2 hb) r
  · obtain hn | hn := le_total n binadeSize
    · obtain ⟨k, hk⟩ := exists_placeUnits_eq (n := n) (by omega) e
      have hexact := isNearest_placeUnits k
      rw [hk, Nat.cast_mul] at hexact
      rw [h.unique hexact, hk]
      exact Nat.dvd_mul_left _ n
    · obtain ⟨k, hk⟩ := exists_placeUnits_eq (n := binadeSize) (by omega) e
      have hlt : placeUnits (b * binadeSize + r) < placeUnits k := by
        rw [hk, placeUnits_add hlow hhigh.le]
        calc r * Nat.pow 2 b < 2 * binadeSize * Nat.pow 2 b := Nat.mul_lt_mul_of_pos_right hhigh (Nat.two_pow_pos b)
          _ = binadeSize * Nat.pow 2 (b + 1) := by
              rw [Nat.pow_eq, Nat.pow_eq, Nat.pow_succ']
              ring
          _ ≤ binadeSize * Nat.pow 2 e := Nat.mul_le_mul_left _ (Nat.pow_le_pow_right two_pos hb)
      have hle : placeUnits k ≤ n * Nat.pow 2 e := hk ▸ Nat.mul_le_mul_right _ hn
      have hcloser := h.le k
      rw [← Nat.cast_mul, abs_of_nonneg (sub_nonneg.2 (Nat.cast_le.2 hle)),
        abs_of_nonneg (sub_nonneg.2 (Nat.cast_le.2 (hlt.le.trans hle)))] at hcloser
      have hcast : (placeUnits (b * binadeSize + r) : ℚ) < placeUnits k := Nat.cast_lt.2 hlt
      linarith

end Whole

section Digits

variable {x : Binary64} {negative : Bool}

theorem rounds_rational (h : x.exponentBits ≠ 2047) : Rounds x.signBit x.rational x := by
  have hnearest := isNearest_placeUnits x.magnitude
  rw [← abs_rational_mul] at hnearest
  have hrounds := rounds_of_isNearest (abs_nonneg x.rational) hnearest h
  rwa [← rational_eq_signed] at hrounds

theorem isIntegral_of_rounds {n : Nat} (h : Rounds negative (signed negative n) x) : x.isIntegral = true := by
  have hdvd := dvd_placeUnits_of_isNearest (isNearest_of_rounds (Nat.cast_nonneg n) h)
  rw [isIntegral, isFinite_iff.2 h.finite, Bool.true_and, decide_eq_true_eq]
  exact Nat.mod_eq_zero_of_dvd hdvd

theorem dropZeros_value (n d : Nat) (e : Int) :
    ((Decimal.dropZeros n d e).1 * 10 ^ (Decimal.dropZeros n d e).2 : ℚ) = d * 10 ^ e := by
  induction n generalizing d e with
  | zero => rfl
  | succ n ih =>
      rw [Decimal.dropZeros]
      split
      · rename_i hd
        have hdigits : (d : ℚ) = (d / 10 : Nat) * 10 := by
          exact_mod_cast (Nat.div_mul_cancel (Nat.dvd_of_mod_eq_zero hd)).symm
        rw [ih, zpow_add_one₀ (by norm_num), hdigits]
        ring
      · rfl

theorem exactDigits_value (x : Binary64) : (x.exactDigits.1 * 10 ^ x.exactDigits.2 : ℚ) = |x.rational| := by
  obtain ⟨k, hk⟩ : ∃ k, k = 1074 := ⟨_, rfl⟩
  have hplaces : (-1074 : Int) = -(k : Int) := by
    rw [hk]
    rfl
  have hdigits : x.exactDigits = (x.absUnits * Nat.pow 5 k, -(k : Int)) := by
    rw [exactDigits, ← hk, hplaces]
  have hunits : (unitsPerOne : ℚ) = 2 ^ k := by rw [hk, cast_unitsPerOne_eq]
  have hfive : ((Nat.pow 5 k : Nat) : ℚ) = 5 ^ k := Nat.cast_pow 5 k
  have hten : (10 : ℚ) ^ k = 2 ^ k * 5 ^ k := by rw [← mul_pow]; norm_num
  have hpos : (2 : ℚ) ^ k * 5 ^ k ≠ 0 := by positivity
  rw [hdigits, Nat.cast_mul, hfive, absUnits_eq_placeUnits, ← abs_rational_mul, hunits, zpow_neg, zpow_natCast,
    hten, mul_assoc |x.rational|, mul_inv_cancel_right₀ hpos]

theorem readsBack_of_onGrid {e : Int} {d : Nat} (h : x.onGrid? e = some d) : x.readsBack d e = true := by
  rw [onGrid?] at h
  obtain ⟨lo, rest, den⟩ := x.stepsOf e
  dsimp only at h
  split at h
  · rename_i hlow
    obtain rfl := Option.some.inj h
    exact (Bool.and_eq_true_iff.1 hlow).1
  · split at h
    · rename_i hhigh
      obtain rfl := Option.some.inj h
      exact hhigh
    · cases h

theorem readsBack_of_shortDigits {digits : Nat × Int} (h : x.shortDigits? = some digits) :
    x.readsBack digits.1 digits.2 = true := by
  obtain ⟨n, -, hn⟩ := List.exists_of_findSome?_eq_some h
  obtain ⟨d, hd, rfl⟩ := Option.map_eq_some_iff.1 hn
  exact readsBack_of_onGrid hd

/-- The digits that are written round to the number, since short ones read back, and otherwise all are written. -/
theorem rounds_shortest (h : x.exponentBits ≠ 2047) :
    Rounds x.signBit (signed x.signBit (x.shortest.1 * 10 ^ x.shortest.2)) x := by
  rw [shortest, dropZeros_value]
  cases hshort : x.shortDigits? with
  | none =>
      rw [Option.getD_none, exactDigits_value, ← rational_eq_signed]
      exact rounds_rational h
  | some digits =>
      have hread := readsBack_of_shortDigits hshort
      rw [readsBack, decide_eq_true_eq] at hread
      rw [Option.getD_some, signBit_eq]
      exact (Decimal.rounds_iff (d := ⟨x.negative, _, _⟩)).2 ⟨hread, h⟩

theorem shortest_exponent_neg (h : x.exponentBits ≠ 2047) (hx : x.isIntegral = false) : x.shortest.2 < 0 := by
  by_contra! hexp
  obtain ⟨n, hn⟩ := Int.eq_ofNat_of_zero_le hexp
  have hrounds := rounds_shortest h
  have hwhole : (x.shortest.1 * 10 ^ x.shortest.2 : ℚ) = (x.shortest.1 * 10 ^ n : Nat) := by
    rw [hn, zpow_natCast]
    push_cast
    rfl
  rw [hwhole] at hrounds
  rw [isIntegral_of_rounds hrounds] at hx
  cases hx

end Digits

end Binary64

namespace Decimal

section Positional

variable (s : Sign) (digits places : Nat)

def padded : List Char :=
  List.replicate (places + 1 - (Nat.toDigits 10 digits).length) '0' ++ Nat.toDigits 10 digits

theorem number_padded : number (padded digits places) = digits := by
  have hzeros (n : Nat) : number (List.replicate n '0') = 0 := by
    rw [number, Nat.ofDigitChars_replicate_zero, Nat.mul_zero]
  rw [padded, number_append, hzeros, Nat.mul_zero, Nat.zero_add, ← digitsValue_eq_number, digitsValue_toDigits]

theorem isNumeral_padded : IsNumeral (padded digits places) := by
  refine ⟨fun h => Nat.toDigits_ne_nil (List.append_eq_nil_iff.1 h).2, fun c hc => ?_⟩
  obtain hc | hc := List.mem_append.1 hc
  · rw [List.eq_of_mem_replicate hc]
    rfl
  · exact (isNumeral_toDigits digits).digits c hc

theorem length_padded : places < (padded digits places).length := by
  rw [padded, List.length_append, List.length_replicate]
  omega

def pointed : Numeral where
  sign := s
  whole := (padded digits places).take ((padded digits places).length - places)
  fraction? := some ((padded digits places).drop ((padded digits places).length - places))
  exponent? := none
  isNumeral := by
    rw [Option.getD_some, List.take_append_drop]
    exact isNumeral_padded digits places

theorem value_pointed :
    (pointed s digits places).value = Binary64.signed s.negative (digits * 10 ^ (-places : ℤ)) := by
  have hlength : ((pointed s digits places).fraction.length : ℤ) = places := by
    have hlt := length_padded digits places
    change ((List.drop _ _).length : ℤ) = _
    rw [List.length_drop]
    omega
  have hnumber : number ((pointed s digits places).whole ++ (pointed s digits places).fraction) = digits := by
    change number (List.take _ _ ++ List.drop _ _) = digits
    rw [List.take_append_drop, number_padded]
  rw [← Numeral.value_decimal, Decimal.value, Numeral.decimal, hnumber, hlength]
  change Binary64.signed s.negative (digits * 10 ^ ((0 : ℤ) - places)) = _
  rw [zero_sub]

theorem positional_eq (hplaces : 0 < places) : s.chars ++ (positional digits (-places)).toList =
    (pointed s digits places).chars := by
  rw [positional, if_neg (by omega), String.toList_ofList, neg_neg, Int.toNat_natCast]
  change _ = s.chars ++ (List.take _ _ ++ ('.' :: List.drop _ _ ++ []))
  rw [List.append_nil]
  rfl

def pointedWhole (s : Sign) (n : Nat) : Numeral where
  sign := s
  whole := Nat.toDigits 10 n
  fraction? := some ['0']
  exponent? := none
  isNumeral := by
    refine ⟨by simp, fun c hc => ?_⟩
    obtain hc | hc := List.mem_append.1 hc
    · exact (isNumeral_toDigits n).digits c hc
    · rw [List.mem_singleton.1 hc]
      rfl

theorem value_pointedWhole (n : Nat) : (pointedWhole s n).value = Binary64.signed s.negative n := by
  have hwhole : number (pointedWhole s n).whole = n := by
    change number (Nat.toDigits 10 n) = n
    rw [← digitsValue_eq_number, digitsValue_toDigits]
  have hfraction : number (pointedWhole s n).fraction = 0 := rfl
  have hexponent : (pointedWhole s n).exponent = 0 := rfl
  rw [Numeral.value, hwhole, hfraction, hexponent, Nat.cast_zero, zero_div, add_zero, zpow_zero, mul_one]
  rfl

end Positional

end Decimal

namespace Literal

open Decimal Binary64

variable {x : Binary64}

theorem isFloat_of_point {n : Numeral} (hpoint : n.fraction?.isSome) (h : Rounds n.sign.negative n.value x) :
    IsFloat (String.ofList n.chars) x := by
  have hmark : '.' ∈ n.chars := by
    obtain ⟨f, hf⟩ := Option.isSome_iff_exists.1 hpoint
    simp [Numeral.chars, Numeral.tailChars, hf]
  refine ⟨fun m hm => ?_, ⟨'.', by rwa [String.toList_ofList], .inl rfl⟩, n, String.toList_ofList, h⟩
  rw [IsInteger, String.toList_ofList] at hm
  exact hm.unmarked '.' hmark (.inl rfl)

def signOf (x : Binary64) : Sign := if x.negative then .minus else .none

theorem chars_signOf (x : Binary64) : (signOf x).chars = x.signText.toList := by
  rw [signOf, signText]
  split <;> rfl

theorem negative_signOf (x : Binary64) : (signOf x).negative = x.signBit := by
  rw [signBit_eq, signOf]
  cases x.negative <;> rfl

theorem abs_rational_of_isIntegral (h : x.isIntegral = true) : |x.rational| = x.wholePart := by
  have hpos : (0 : ℚ) < unitsPerOne := Nat.cast_pos.2 unitsPerOne_pos
  obtain ⟨-, hmod⟩ : x.isFinite = true ∧ x.absUnits % unitsPerOne = 0 := by simpa [isIntegral] using h
  refine mul_right_cancel₀ hpos.ne' ?_
  rw [abs_rational_mul, ← absUnits_eq_placeUnits, wholePart, ← Nat.cast_mul,
    Nat.div_mul_cancel (Nat.dvd_of_mod_eq_zero hmod)]

theorem finiteText_of_isIntegral (h : x.isIntegral = true) :
    x.finiteText = String.ofList (pointedWhole (signOf x) x.wholePart).chars := by
  rw [finiteText, if_pos h, ← String.toList_inj, String.toList_ofList, String.toList_append, String.toList_append,
    String.toList_ofList, ← chars_signOf]
  rfl

theorem finiteText_of_not_isIntegral (h : x.isIntegral = false) {places : Nat} (hpos : 0 < places)
    (hplaces : x.shortest.2 = -places) :
    x.finiteText = String.ofList (pointed (signOf x) x.shortest.1 places).chars := by
  rw [finiteText, if_neg (by simp [h]), ← String.toList_inj, String.toList_ofList, String.toList_append, hplaces,
    ← chars_signOf, positional_eq _ _ _ hpos]

theorem isFloat_finiteText (h : x.exponentBits ≠ 2047) : IsFloat x.finiteText x := by
  cases hx : x.isIntegral with
  | true =>
      rw [finiteText_of_isIntegral hx]
      refine isFloat_of_point rfl ?_
      change Rounds (signOf x).negative _ x
      rw [value_pointedWhole, negative_signOf, ← abs_rational_of_isIntegral hx, ← rational_eq_signed]
      exact rounds_rational h
  | false =>
      have hneg := shortest_exponent_neg h hx
      obtain ⟨places, hplaces⟩ := Int.exists_eq_neg_ofNat hneg.le
      rw [finiteText_of_not_isIntegral hx (by omega) hplaces]
      refine isFloat_of_point rfl ?_
      change Rounds (signOf x).negative _ x
      rw [value_pointed, negative_signOf, ← hplaces]
      exact rounds_shortest h

theorem text_of_finite (h : x.exponentBits ≠ 2047) : x.text = x.finiteText := by
  have hlt := magnitude_lt_iff.2 h
  rw [text, if_neg (by simpa [isNaN] using hlt.le), if_neg (by simpa [isInfinite] using hlt.ne)]

end Literal

def Value.IsScalar : Value → Prop
  | nil | bool _ | int _ => True
  | float x => x.exponentBits ≠ 2047
  | _ => False

namespace Literal

theorem read_inspect_of_isScalar {v : Value} (h : v.IsScalar) : read v.inspect = v := by
  cases v with
  | nil => rfl
  | bool b => cases b <;> rfl
  | int n => exact read_integerText n
  | float x =>
      change read x.text = .float x
      rw [text_of_finite h]
      exact read_of_isFloat (isFloat_finiteText h)
  | _ => cases h

theorem read_cases (text : String) : (read text).IsScalar ∨ read text = .str text := by
  rw [read]
  split
  · exact .inl trivial
  split
  · exact .inl trivial
  split
  · exact .inl trivial
  split
  · exact .inl trivial
  split
  · rename_i hfloat
    obtain ⟨n, -, hrounds⟩ := (float_eq_some_iff.1 hfloat).rounds
    exact .inl hrounds.finite
  · exact .inr rfl

/-- Just the scalars are read back from their inspections, each as itself. -/
theorem read_inspect_eq_self_iff (v : Value) : read v.inspect = v ↔ v.IsScalar := by
  refine ⟨fun h => ?_, read_inspect_of_isScalar⟩
  obtain hscalar | hstr := read_cases v.inspect
  · rwa [h] at hscalar
  · have hv : v = .str v.inspect := h.symm.trans hstr
    cases v with
    | str s =>
        have hs : s = Quoted.text s := Value.str.inj hv
        have hlength := Quoted.length_lt_length_text s
        rw [← hs] at hlength
        exact absurd hlength (lt_irrefl _)
    | _ => cases hv

end Literal

end Stepwise
