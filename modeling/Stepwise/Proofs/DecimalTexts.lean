import Mathlib.Data.List.TakeDrop
import Mathlib.Data.List.TakeWhile
import Stepwise.CommandLine.Arguments
import Stepwise.Value.Inspect

namespace Stepwise

theorem span_eq_iff {α : Type} {p : α → Bool} {xs ys zs : List α} :
    xs.span p = (ys, zs) ↔ xs = ys ++ zs ∧ (∀ a ∈ ys, p a = true) ∧ ∀ a ∈ zs.head?, p a = false := by
  rw [List.span_eq_takeWhile_dropWhile, Prod.mk.injEq]
  constructor
  · rintro ⟨rfl, rfl⟩
    refine ⟨List.takeWhile_append_dropWhile.symm, fun a ha => List.mem_takeWhile_imp ha, fun a ha => ?_⟩
    have hhead := List.head?_dropWhile_not p xs
    rw [Option.mem_def.1 ha] at hhead
    exact hhead
  · rintro ⟨rfl, hys, hzs⟩
    rw [List.takeWhile_append_of_pos hys, List.dropWhile_append_of_pos hys]
    cases zs with
    | nil => exact ⟨List.append_nil ys, rfl⟩
    | cons a zs =>
        have ha : ¬ p a = true := by simp [hzs a rfl]
        rw [List.takeWhile_cons_of_neg ha, List.dropWhile_cons_of_neg ha]
        exact ⟨List.append_nil ys, rfl⟩

namespace Decimal

theorem ne_of_isDigit {c d : Char} (hc : isDigit c = true) (hd : isDigit d = false) : c ≠ d := by
  rintro rfl
  rw [hc] at hd
  cases hd

structure IsNumeral (cs : List Char) : Prop where
  ne_nil : cs ≠ []
  digits : ∀ c ∈ cs, isDigit c

theorem isNumeral_toDigits (n : Nat) : IsNumeral (Nat.toDigits 10 n) where
  ne_nil := Nat.toDigits_ne_nil
  digits _ hc := Nat.isDigit_of_mem_toDigits (by decide) (by decide) hc

theorem digitsValue_toDigits (n : Nat) : digitsValue (Nat.toDigits 10 n) = n := by
  have h := Nat.ofDigitChars_ten_toDigits (n := n)
  rwa [Nat.ofDigitChars_eq_foldl] at h

theorem toList_toString_nat (n : Nat) : (toString n).toList = Nat.toDigits 10 n := by
  rw [Nat.toString_eq_ofList_toDigits, String.toList_ofList]

theorem toList_toString_int (n : Int) : (toString n).toList =
    if 0 ≤ n then Nat.toDigits 10 n.toNat else '-' :: Nat.toDigits 10 (-n).toNat := by
  rw [Int.toString_eq_repr, Int.repr_eq_if]
  split
  · rw [Nat.repr_eq_ofList_toDigits, String.toList_ofList]
  · rw [String.toList_append, Nat.repr_eq_ofList_toDigits, String.toList_ofList, String.toList_ofList]
    rfl

namespace IsNumeral

variable {cs : List Char}

theorem head_ne (h : IsNumeral cs) {d : Char} (hd : isDigit d = false) (ds : List Char) :
    cs ≠ d :: ds := by
  rintro rfl
  exact ne_of_isDigit (h.digits d List.mem_cons_self) hd rfl

theorem all_isDigit (h : IsNumeral cs) : cs.all isDigit = true := List.all_eq_true.2 h.digits

theorem isEmpty_eq_false (h : IsNumeral cs) : cs.isEmpty = false := by
  simpa using h.ne_nil

theorem span_eq (h : IsNumeral cs) {p : Char → Bool} (hp : ∀ c, isDigit c → p c) :
    cs.span p = (cs, []) :=
  span_eq_iff.2 ⟨(List.append_nil cs).symm, fun c hc => hp c (h.digits c hc), by simp⟩

theorem sign_eq (h : IsNumeral cs) : sign cs = (false, cs) := by
  unfold sign
  split
  · exact absurd rfl (h.head_ne (by decide) _)
  · exact absurd rfl (h.head_ne (by decide) _)
  · rfl

theorem wholeNumber (h : IsNumeral cs) : wholeNumber? cs = some (digitsValue cs : Int) := by
  simp only [wholeNumber?, h.sign_eq, h.isEmpty_eq_false, h.all_isDigit]
  rfl

theorem wholeNumber_neg (h : IsNumeral cs) :
    wholeNumber? ('-' :: cs) = some (-(digitsValue cs : Int)) := by
  simp only [wholeNumber?, sign, h.isEmpty_eq_false, h.all_isDigit]
  rfl

theorem natural (h : IsNumeral cs) : natural? cs = some (digitsValue cs) := by
  have hplus := h.head_ne (d := '+') (by decide)
  have hempty := h.isEmpty_eq_false
  have hall := h.all_isDigit
  clear h
  unfold natural?
  split
  · exact absurd rfl (hplus _)
  · simp only [hempty, hall]
    rfl

theorem isMantissa (h : IsNumeral cs) : Arguments.isMantissa cs = true := by
  rw [Arguments.isMantissa, h.span_eq fun _ hc => hc]
  cases cs with
  | nil => exact absurd rfl h.ne_nil
  | cons => rfl

theorem isNumeric (h : IsNumeral cs) : Arguments.isNumeric cs = true := by
  rw [Arguments.isNumeric, h.span_eq]
  · exact h.isMantissa
  · intro c hc
    have he : c ≠ 'e' := ne_of_isDigit hc (by decide)
    have hE : c ≠ 'E' := ne_of_isDigit hc (by decide)
    simp [he, hE]

end IsNumeral

theorem wholeNumber_toString (n : Int) : wholeNumber? (toString n).toList = some n := by
  rw [toList_toString_int]
  split
  · rename_i hn
    rw [(isNumeral_toDigits _).wholeNumber, digitsValue_toDigits, Int.toNat_of_nonneg hn]
  · rename_i hn
    rw [(isNumeral_toDigits _).wholeNumber_neg, digitsValue_toDigits, Int.toNat_of_nonneg (by omega),
      Int.neg_neg]

end Decimal

open Decimal

theorem Arguments.count_of_natural {text : String} {k : UInt64} (h : natural? text.toList = some k.toNat) :
    Arguments.count? text = some k.toNat := by
  have hk : k.toNat < UInt64.size := k.toNat_lt_size
  have hsize : UInt64.size = 0xffffffffffffffff + 1 := rfl
  rw [count?, h, Option.filter_some, if_pos (decide_eq_true (by omega))]

theorem Arguments.count_toString (k : UInt64) : Arguments.count? (toString k.toNat) = some k.toNat := by
  apply count_of_natural
  rw [toList_toString_nat, (isNumeral_toDigits k.toNat).natural, digitsValue_toDigits]

theorem Literal.integer_toString (n : Int64) : Literal.integer? (toString n.toInt).toList = some n := by
  have hmin : Int64.minValue.toInt ≤ n.toInt := n.le_toInt
  have hmax := n.toInt_le
  rw [integer?, wholeNumber_toString]
  simp only [hmin, hmax, decide_true, Bool.and_self, if_true, Int64.ofInt_toInt]

theorem Literal.read_integerText (n : Int64) : Literal.read (Value.integerText n) = .int n := by
  have hinteger := integer_toString n
  rw [Value.integerText]
  generalize toString n.toInt = text at hinteger
  unfold read
  split
  · subst_vars
    cases hinteger
  · split
    · subst_vars
      cases hinteger
    · split
      · subst_vars
        cases hinteger
      · rw [hinteger]

end Stepwise
