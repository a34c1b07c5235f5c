import Stepwise.Proofs.DecimalTexts
import Stepwise.Proofs.Rounding
import Stepwise.Value.Literal

namespace Stepwise

inductive Sign
  | none | plus | minus

namespace Sign

def chars : Sign → List Char
  | none => []
  | plus => ['+']
  | minus => ['-']

def negative : Sign → Bool
  | minus => true
  | _ => false

end Sign

namespace Decimal

def number (ds : List Char) : Nat := Nat.ofDigitChars 10 ds 0

def IsWhole (cs : List Char) (n : Int) : Prop :=
  ∃ (s : Sign) (ds : List Char), IsNumeral ds ∧ cs = s.chars ++ ds ∧
    n = if s.negative then -(number ds : Int) else number ds

structure Exponent where
  mark : Char
  chars : List Char
  value : Int
  isMark : mark = 'e' ∨ mark = 'E'
  isWhole : IsWhole chars value

/-- A numeral by its parts. There is a digit before the point or after it, and the point may be missing. -/
structure Numeral where
  sign : Sign
  whole : List Char
  fraction? : Option (List Char)
  exponent? : Option Exponent
  isNumeral : IsNumeral (whole ++ fraction?.getD [])

namespace Numeral

variable (n : Numeral)

def fraction : List Char := n.fraction?.getD []

def exponent : Int := n.exponent?.elim 0 Exponent.value

def exponentChars : List Char := n.exponent?.elim [] fun e => e.mark :: e.chars

def tailChars : List Char := n.fraction?.elim [] ('.' :: ·) ++ n.exponentChars

def chars : List Char := n.sign.chars ++ (n.whole ++ n.tailChars)

def value : ℚ :=
  Binary64.signed n.sign.negative
    ((number n.whole + number n.fraction / 10 ^ n.fraction.length) * 10 ^ n.exponent)

end Numeral

section Reading

variable {cs ds : List Char}

theorem digitsValue_eq_number (ds : List Char) : digitsValue ds = number ds :=
  Nat.ofDigitChars_eq_foldl.symm

theorem number_append (ds es : List Char) : number (ds ++ es) = 10 ^ es.length * number ds + number es := by
  rw [number, Nat.ofDigitChars_append, Nat.ofDigitChars_eq_ofDigitChars_zero]
  rfl

theorem exists_sign_eq (cs : List Char) :
    ∃ (s : Sign) (rest : List Char), cs = s.chars ++ rest ∧ sign cs = (s.negative, rest) := by
  unfold sign
  split
  · exact ⟨.minus, _, rfl, rfl⟩
  · exact ⟨.plus, _, rfl, rfl⟩
  · exact ⟨.none, _, rfl, rfl⟩

theorem sign_append (s : Sign) (h : ∀ c ∈ cs.head?, c ≠ '+' ∧ c ≠ '-') :
    sign (s.chars ++ cs) = (s.negative, cs) := by
  cases s with
  | plus | minus => rfl
  | none =>
      change sign cs = _
      unfold sign
      split
      · exact absurd rfl (h _ rfl).2
      · exact absurd rfl (h _ rfl).1
      · rfl

theorem wholeNumber_eq_some_iff {n : Int} : wholeNumber? cs = some n ↔ IsWhole cs n := by
  constructor
  · intro h
    obtain ⟨s, ds, rfl, hsign⟩ := exists_sign_eq cs
    simp only [wholeNumber?, hsign, digitsValue_eq_number] at h
    split at h
    · cases h
    · rename_i hds
      obtain ⟨hne, hall⟩ : ds ≠ [] ∧ ∀ c ∈ ds, isDigit c := by simpa using hds
      exact ⟨s, ds, ⟨hne, hall⟩, rfl, (Option.some.inj h).symm⟩
  · rintro ⟨s, ds, hds, rfl, rfl⟩
    have hsign : sign (s.chars ++ ds) = (s.negative, ds) := by
      refine sign_append s fun c hc => ?_
      have hdigit := hds.digits c (List.mem_of_mem_head? hc)
      exact ⟨ne_of_isDigit hdigit (by decide), ne_of_isDigit hdigit (by decide)⟩
    simp only [wholeNumber?, hsign, hds.isEmpty_eq_false, hds.all_isDigit, digitsValue_eq_number]
    rfl

theorem exponentPart_eq_some_iff {e : Int} : exponentPart? cs = some e ↔
    ∃ x : Option Exponent, (cs = x.elim [] fun e => e.mark :: e.chars) ∧ e = x.elim 0 Exponent.value := by
  constructor
  · intro h
    cases cs with
    | nil => exact ⟨none, rfl, (Option.some.inj h).symm⟩
    | cons c cs =>
        rw [exponentPart?] at h
        split at h
        · rename_i hc
          exact ⟨some ⟨c, cs, e, by simpa using hc, wholeNumber_eq_some_iff.1 h⟩, rfl, rfl⟩
        · cases h
  · rintro ⟨_ | x, rfl, rfl⟩
    · rfl
    · have hmark : (x.mark = 'e' || x.mark = 'E') = true := by simpa using x.isMark
      change exponentPart? (x.mark :: x.chars) = some x.value
      rw [exponentPart?, if_pos hmark]
      exact wholeNumber_eq_some_iff.2 x.isWhole

theorem exists_fractionPart_eq (cs : List Char) : ∃ (f : Option (List Char)) (rest : List Char),
    cs = f.elim [] ('.' :: ·) ++ rest ∧ (∀ c ∈ f.getD [], isDigit c) ∧ fractionPart cs = (f.getD [], rest) := by
  unfold fractionPart
  split
  · rename_i cs
    obtain ⟨hcs, hdigits, -⟩ := span_eq_iff.1 (show cs.span isDigit = (_, _) from rfl)
    exact ⟨some _, _, congrArg ('.' :: ·) hcs, hdigits, rfl⟩
  · exact ⟨none, cs, rfl, by simp, rfl⟩

theorem fractionPart_append {f : Option (List Char)} (hf : ∀ c ∈ f.getD [], isDigit c)
    (hcs : ∀ c ∈ cs.head?, isDigit c = false ∧ c ≠ '.') :
    fractionPart (f.elim [] ('.' :: ·) ++ cs) = (f.getD [], cs) := by
  cases f with
  | some f => exact span_eq_iff.2 ⟨rfl, hf, fun c hc => (hcs c hc).1⟩
  | none =>
      change fractionPart cs = ([], cs)
      unfold fractionPart
      split
      · exact absurd rfl (hcs _ rfl).2
      · rfl

end Reading

namespace Numeral

def decimal (n : Numeral) : Decimal :=
  ⟨n.sign.negative, number (n.whole ++ n.fraction), n.exponent - n.fraction.length⟩

theorem value_decimal (n : Numeral) : n.decimal.value = n.value := by
  have hten : (10 : ℚ) ^ n.fraction.length ≠ 0 := pow_ne_zero _ (by norm_num)
  rw [Decimal.value, decimal, value, number_append, zpow_sub₀ (by norm_num), zpow_natCast]
  push_cast
  congr 1
  field_simp

section Parts

variable (n : Numeral)

theorem isDigit_whole : ∀ c ∈ n.whole, isDigit c := fun c hc => n.isNumeral.digits c (List.mem_append_left _ hc)

theorem isDigit_fraction : ∀ c ∈ n.fraction, isDigit c :=
  fun c hc => n.isNumeral.digits c (List.mem_append_right _ hc)

theorem head_exponentChars : ∀ c ∈ n.exponentChars.head?, isDigit c = false ∧ c ≠ '.' := by
  intro c hc
  rw [exponentChars] at hc
  cases he : n.exponent? with
  | none =>
      rw [he] at hc
      cases hc
  | some e =>
      rw [he] at hc
      obtain rfl := Option.some.inj hc
      obtain h | h := e.isMark
      · rw [h]
        decide
      · rw [h]
        decide

theorem head_tailChars : ∀ c ∈ n.tailChars.head?, isDigit c = false := by
  intro c hc
  rw [tailChars] at hc
  cases hf : n.fraction? with
  | none =>
      rw [hf] at hc
      exact (n.head_exponentChars c hc).1
  | some f =>
      rw [hf] at hc
      obtain rfl := Option.some.inj hc
      decide

theorem head_whole_append : ∀ c ∈ (n.whole ++ n.tailChars).head?, c ≠ '+' ∧ c ≠ '-' := by
  obtain ⟨s, whole, f, e, hnumeral⟩ := n
  intro c hc
  cases whole with
  | cons d ds =>
      obtain rfl := Option.some.inj hc
      have hdigit := hnumeral.digits d List.mem_cons_self
      exact ⟨ne_of_isDigit hdigit (by decide), ne_of_isDigit hdigit (by decide)⟩
  | nil =>
      cases f with
      | none => exact absurd rfl hnumeral.ne_nil
      | some f =>
          obtain rfl := Option.some.inj hc
          decide

end Parts

end Numeral

theorem parse_eq_some_iff {cs : List Char} {d : Decimal} :
    parse? cs = some d ↔ ∃ n : Numeral, cs = n.chars ∧ d = n.decimal := by
  constructor
  · intro h
    obtain ⟨s, cs, rfl, hsign⟩ := exists_sign_eq cs
    obtain ⟨whole, rest, hspan⟩ : ∃ whole rest, cs.span isDigit = (whole, rest) := ⟨_, _, rfl⟩
    obtain ⟨rfl, hwhole, -⟩ := span_eq_iff.1 hspan
    obtain ⟨f, rest, rfl, hfraction, hpart⟩ := exists_fractionPart_eq rest
    simp only [parse?, hsign, hspan, hpart] at h
    split at h
    · cases h
    · rename_i hempty
      obtain ⟨e, hexponent, rfl⟩ := Option.map_eq_some_iff.1 h
      obtain ⟨x, rfl, rfl⟩ := exponentPart_eq_some_iff.1 hexponent
      have hnumeral : IsNumeral (whole ++ f.getD []) := by
        refine ⟨by simpa using hempty, fun c hc => ?_⟩
        exact (List.mem_append.1 hc).elim (hwhole c) (hfraction c)
      refine ⟨⟨s, whole, f, x, hnumeral⟩, rfl, ?_⟩
      rw [digitsValue_eq_number]
      rfl
  · rintro ⟨n, rfl, rfl⟩
    have hspan : (n.whole ++ n.tailChars).span isDigit = (n.whole, n.tailChars) :=
      span_eq_iff.2 ⟨rfl, n.isDigit_whole, n.head_tailChars⟩
    have hfraction : fractionPart n.tailChars = (n.fraction, n.exponentChars) :=
      fractionPart_append n.isDigit_fraction n.head_exponentChars
    have hexponent : exponentPart? n.exponentChars = some n.exponent :=
      exponentPart_eq_some_iff.2 ⟨n.exponent?, rfl, rfl⟩
    have hempty : (n.whole.isEmpty && n.fraction.isEmpty) = false := by
      simpa [Numeral.fraction] using n.isNumeral.ne_nil
    simp only [parse?, Numeral.chars, sign_append n.sign n.head_whole_append, hspan, hfraction, hempty, hexponent,
      digitsValue_eq_number]
    rfl

theorem IsWhole.unmarked {cs : List Char} {n : Int} (h : IsWhole cs n) :
    ∀ c ∈ cs, ¬ (c = '.' ∨ c = 'e' ∨ c = 'E') := by
  obtain ⟨s, ds, hds, rfl, -⟩ := h
  intro c hc
  obtain hc | hc := List.mem_append.1 hc
  · cases s with
    | none => cases hc
    | plus | minus =>
        obtain rfl := List.mem_singleton.1 hc
        decide
  · rintro (rfl | rfl | rfl) <;> exact absurd (hds.digits _ hc) (by decide)

end Decimal

namespace Literal

open Decimal

def IsInteger (text : String) (n : Int64) : Prop := IsWhole text.toList n.toInt

/-- A numeral that shows by a point or an exponent that it is no integer, and the number that it rounds to. -/
structure IsFloat (text : String) (x : Binary64) : Prop where
  notInteger : ∀ n, ¬ IsInteger text n
  marked : ∃ c ∈ text.toList, c = '.' ∨ c = 'e' ∨ c = 'E'
  rounds : ∃ n : Numeral, text.toList = n.chars ∧ Binary64.Rounds n.sign.negative n.value x

variable {text : String}

theorem integer_eq_some_iff {n : Int64} : integer? text.toList = some n ↔ IsInteger text n := by
  rw [IsInteger, ← wholeNumber_eq_some_iff, integer?]
  have hmin := n.le_toInt
  have hmax := n.toInt_le
  cases wholeNumber? text.toList with
  | none => simp
  | some m =>
      dsimp only
      constructor
      · intro h
        split at h
        · rename_i hm
          obtain ⟨hlow, hhigh⟩ : Int64.minValue.toInt ≤ m ∧ m ≤ Int64.maxValue.toInt := by simpa using hm
          obtain rfl := Option.some.inj h
          rw [Int64.toInt_ofInt_of_le hlow (Int.lt_add_one_of_le hhigh)]
        · cases h
      · intro h
        obtain rfl := Option.some.inj h
        rw [if_pos (by simpa using ⟨hmin, hmax⟩), Int64.ofInt_toInt]

theorem float_eq_some_iff {x : Binary64} : float? text.toList = some x ↔ IsFloat text x := by
  have hmarked : text.toList.any (fun c => c = '.' || c = 'e' || c = 'E') = true ↔
      ∃ c ∈ text.toList, c = '.' ∨ c = 'e' ∨ c = 'E' := by
    simp [or_assoc]
  rw [float?]
  constructor
  · intro h
    split at h
    · rename_i hany
      obtain ⟨c, hc, hmark⟩ := hmarked.1 hany
      split at h
      · rename_i d hparse
        split at h
        · rename_i hfinite
          obtain rfl := Option.some.inj h
          obtain ⟨n, hn, rfl⟩ := parse_eq_some_iff.1 hparse
          refine ⟨fun m hm => hm.unmarked c hc hmark, ⟨c, hc, hmark⟩, n, hn, ?_⟩
          rw [← n.value_decimal]
          exact rounds_iff.2 ⟨rfl, Binary64.isFinite_iff.1 hfinite⟩
        · cases h
      · cases h
    · cases h
  · rintro ⟨-, hmark, n, hn, hrounds⟩
    rw [← n.value_decimal] at hrounds
    obtain ⟨rfl, hfinite⟩ := (rounds_iff (d := n.decimal)).1 hrounds
    rw [if_pos (hmarked.2 hmark), parse_eq_some_iff.2 ⟨n, hn, rfl⟩]
    exact if_pos (Binary64.isFinite_iff.2 hfinite)

theorem no_number_of_word (h : text = "nil" ∨ text = "true" ∨ text = "false") :
    integer? text.toList = none ∧ float? text.toList = none := by
  obtain rfl | rfl | rfl := h <;> exact ⟨rfl, rfl⟩

theorem integer_eq_none_of_isFloat {x : Binary64} (h : IsFloat text x) : integer? text.toList = none :=
  Option.eq_none_iff_forall_ne_some.2 fun n hn => h.notInteger n (integer_eq_some_iff.1 hn)

theorem read_of_isFloat {x : Binary64} (h : IsFloat text x) : read text = .float x := by
  have hword : ¬ (text = "nil" ∨ text = "true" ∨ text = "false") := by
    intro hword
    have hfloat := float_eq_some_iff.2 h
    rw [(no_number_of_word hword).2] at hfloat
    cases hfloat
  obtain ⟨hnil, htrue, hfalse⟩ : text ≠ "nil" ∧ text ≠ "true" ∧ text ≠ "false" := by simpa using hword
  rw [read, if_neg hnil, if_neg htrue, if_neg hfalse, integer_eq_none_of_isFloat h, float_eq_some_iff.2 h]

/-- Every text is read as the one kind of literal whose grammar it has. -/
theorem read_grammar (text : String) :
    (read text = .nil ↔ text = "nil") ∧
    (∀ b, read text = .bool b ↔ text = if b then "true" else "false") ∧
    (∀ n, read text = .int n ↔ IsInteger text n) ∧
    (∀ x, read text = .float x ↔ IsFloat text x) ∧
    (∀ s, read text = .str s ↔ s = text ∧ text ≠ "nil" ∧ text ≠ "true" ∧ text ≠ "false" ∧
      (∀ n, ¬ IsInteger text n) ∧ ∀ x, ¬ IsFloat text x) := by
  have hword (h : text = "nil" ∨ text = "true" ∨ text = "false") := no_number_of_word h
  have hone : ∀ x, float? text.toList = some x → integer? text.toList = none :=
    fun x hx => integer_eq_none_of_isFloat (float_eq_some_iff.1 hx)
  simp only [← integer_eq_some_iff, ← float_eq_some_iff, read]
  -- a word is no number, and no text is an integer and a float: the order of the attempts does not matter
  generalize integer? text.toList = i at *
  generalize float? text.toList = f at *
  by_cases hnil : text = "nil"
  · obtain ⟨rfl, rfl⟩ := hword (.inl hnil)
    simp [hnil]
  by_cases htrue : text = "true"
  · obtain ⟨rfl, rfl⟩ := hword (.inr (.inl htrue))
    simp [htrue]
  by_cases hfalse : text = "false"
  · obtain ⟨rfl, rfl⟩ := hword (.inr (.inr hfalse))
    simp [hfalse]
  cases f with
  | some x =>
      obtain rfl := hone x rfl
      simp [hnil, htrue, hfalse]
  | none => cases i <;> simp [hnil, htrue, hfalse, eq_comm]

end Literal

end Stepwise
