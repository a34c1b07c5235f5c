import Mathlib.Data.Char
import Stepwise.Stepping

namespace Stepwise.Text

variable {c d : Char} {code : Nat}

theorem le_iff_toNat_le : c ≤ d ↔ c.toNat ≤ d.toNat := Iff.rfl

theorem lt_iff_toNat_lt : c < d ↔ c.toNat < d.toNat := Iff.rfl

theorem toNat_ofNat (h : code.isValidChar) : (Char.ofNat code).toNat = code := by
  rw [Char.ofNat, dif_pos h]
  rfl

def lastChar : Char := Char.ofNat 0x10ffff

theorem toNat_eq_iff_lastChar : c.toNat = 0x10ffff ↔ c = lastChar := Char.toNat_inj (c := c) (d := lastChar)

theorem toNat_le_lastCode (c : Char) : c.toNat ≤ lastCode := by
  have hv : c.toNat < 0xd800 ∨ 0xdfff < c.toNat ∧ c.toNat < 0x110000 := c.valid
  have hcode : lastCode = 0x10ffff := rfl
  omega

theorem le_lastChar (c : Char) : c ≤ lastChar := le_iff_toNat_le.2 (toNat_le_lastCode c)

theorem charOfCode?_eq_some_iff : charOfCode? code = some c ↔ c.toNat = code := by
  rw [charOfCode?]
  split
  · rename_i hv
    rw [Option.some_inj]
    constructor
    · rintro rfl
      exact toNat_ofNat hv
    · rintro rfl
      exact Char.ofNat_toNat c
  · rename_i hv
    refine iff_of_false (by simp) ?_
    rintro rfl
    exact hv c.valid

theorem toNat_ne_of_charOfCode?_eq_none (h : charOfCode? code = none) (c : Char) : c.toNat ≠ code := by
  intro hc
  rw [charOfCode?_eq_some_iff.2 hc] at h
  cases h

/-- The first character whose code is not below the given one. -/
def IsFirst (code : Nat) (c : Char) : Prop := code ≤ c.toNat ∧ ∀ d : Char, code ≤ d.toNat → c ≤ d

theorem IsFirst.unique (hc : IsFirst code c) (hd : IsFirst code d) : c = d :=
  le_antisymm (hc.2 d hd.1) (hd.2 c hc.1)

theorem isFirst_of_toNat_eq (h : c.toNat = code) : IsFirst code c := by
  subst h
  exact ⟨le_rfl, fun _ hd => hd⟩

theorem isFirst_succ_iff_of_none (h : charOfCode? code = none) : IsFirst (code + 1) c ↔ IsFirst code c := by
  have hcode (d : Char) : code + 1 ≤ d.toNat ↔ code ≤ d.toNat := by
    have hne := toNat_ne_of_charOfCode?_eq_none h d
    omega
  simp only [IsFirst, hcode]

/-- The loop stops at the first character, if the codes that are left go up to the last one. -/
theorem isFirst_tryCodes {left : Nat} (hcode : code ≤ lastCode) (hleft : code + left = lastCode) :
    IsFirst code (tryCodes code left) := by
  induction left generalizing code with
  | zero =>
      obtain rfl : code = lastCode := hleft
      exact isFirst_of_toNat_eq rfl
  | succ left ih =>
      rw [tryCodes]
      cases hc : charOfCode? code with
      | some c => exact isFirst_of_toNat_eq (charOfCode?_eq_some_iff.1 hc)
      | none => exact (isFirst_succ_iff_of_none hc).1 (ih (by omega) (by omega))

theorem firstChar?_eq_some_iff {count : Nat} :
    firstChar? code count = some c ↔ c.toNat < code + count ∧ IsFirst code c := by
  induction count generalizing code with
  | zero =>
      refine iff_of_false (by simp [firstChar?]) ?_
      rintro ⟨hlt, hle, -⟩
      omega
  | succ count ih =>
      rw [firstChar?]
      cases hd : charOfCode? code with
      | some d =>
          have hcode := charOfCode?_eq_some_iff.1 hd
          have hfirst := isFirst_of_toNat_eq hcode
          rw [Option.some_inj]
          constructor
          · rintro rfl
            exact ⟨by omega, hfirst⟩
          · exact fun h => hfirst.unique h.2
      | none => rw [ih, isFirst_succ_iff_of_none hd, Nat.add_right_comm, Nat.add_assoc]

/-- The next character of all, and the first one after the last. -/
def IsNext (c d : Char) : Prop :=
  c.toNat = 0x10ffff ∧ d.toNat = 0 ∨ c < d ∧ ∀ e, c < e → d ≤ e

theorem nextChar_lastChar : nextChar lastChar = Char.ofNat 0 := rfl

theorem isFirst_nextChar (h : c ≠ lastChar) : IsFirst (c.toNat + 1) (nextChar c) := by
  have hle := toNat_le_lastCode c
  have hne : c.toNat ≠ lastCode := toNat_eq_iff_lastChar.not.2 h
  exact isFirst_tryCodes (by omega) (by omega)

theorem nextChar_of_ne (h : c ≠ lastChar) : c < nextChar c ∧ ∀ e, c < e → nextChar c ≤ e :=
  isFirst_nextChar h

theorem isNext_nextChar (c : Char) : IsNext c (nextChar c) := by
  by_cases hc : c = lastChar
  · subst hc
    exact .inl ⟨rfl, rfl⟩
  · exact .inr (nextChar_of_ne hc)

theorem toNat_nextChar (h : c.toNat ≠ 0x10ffff) :
    c.toNat = 0xd7ff ∧ (nextChar c).toNat = 0xe000 ∨ (nextChar c).toNat = c.toNat + 1 := by
  have hfirst := isFirst_nextChar (toNat_eq_iff_lastChar.not.1 h)
  have hv : c.toNat < 0xd800 ∨ 0xdfff < c.toNat ∧ c.toNat < 0x110000 := c.valid
  by_cases hgap : c.toNat = 0xd7ff
  · have hnext : IsFirst (c.toNat + 1) (Char.ofNat 0xe000) := by
      refine ⟨by rw [hgap]; decide, fun d hd => ?_⟩
      have hv : d.toNat < 0xd800 ∨ 0xdfff < d.toNat ∧ d.toNat < 0x110000 := d.valid
      have he : (Char.ofNat 0xe000).toNat = 0xe000 := rfl
      rw [le_iff_toNat_le]
      omega
    rw [hfirst.unique hnext]
    exact .inl ⟨hgap, rfl⟩
  · have hvalid : (c.toNat + 1).isValidChar := by
      change c.toNat + 1 < 0xd800 ∨ 0xdfff < c.toNat + 1 ∧ c.toNat + 1 < 0x110000
      omega
    have hnext := toNat_ofNat hvalid
    rw [hfirst.unique (isFirst_of_toNat_eq hnext)]
    exact .inr hnext

theorem charSucc_eq_ok_iff : charSucc c = .ok d ↔ IsFirst (c.toNat + 1) d := by
  have hfind : firstChar? (c.toNat + 1) (lastCode - c.toNat) = some d ↔ IsFirst (c.toNat + 1) d := by
    have hc := toNat_le_lastCode c
    have hd := toNat_le_lastCode d
    rw [firstChar?_eq_some_iff, and_iff_right_iff_imp]
    omega
  rw [← hfind, charSucc]
  cases firstChar? (c.toNat + 1) (lastCode - c.toNat) with
  | some e => simp
  | none => simp

theorem charSucc_lastChar : charSucc lastChar = .error (.overflow (Quoted.char lastChar)) := rfl

/-- Both ways to look for the next character find the same one. -/
theorem charSucc_of_ne (h : c ≠ lastChar) : charSucc c = .ok (nextChar c) :=
  charSucc_eq_ok_iff.2 (isFirst_nextChar h)

theorem nextChar_of_charSucc (h : charSucc c = .ok d) : nextChar c = d := by
  have hc : c ≠ lastChar := by
    rintro rfl
    cases h
  exact (isFirst_nextChar hc).unique (charSucc_eq_ok_iff.1 h)

end Stepwise.Text
