import Mathlib.Data.List.Lex
import Mathlib.Logic.Function.Iterate
import Stepwise.Proofs.NextCharacters

namespace Stepwise.Text

/-- The first character of its kind: digits, small letters, capital letters. Any other character is a
kind by itself. -/
def zero (c : Char) : Char :=
  if '0' ≤ c && c ≤ '9' then '0'
  else if 'a' ≤ c && c ≤ 'z' then 'a'
  else if 'A' ≤ c && c ≤ 'Z' then 'A'
  else c

def top (c : Char) : Char :=
  if '0' ≤ c && c ≤ '9' then '9'
  else if 'a' ≤ c && c ≤ 'z' then 'z'
  else if 'A' ≤ c && c ≤ 'Z' then 'Z'
  else c

def lead (c : Char) : Char := if zero c = '0' then '1' else zero c

def digit (c : Char) : Nat := c.toNat - (zero c).toNat

def radix (c : Char) : Nat := (top c).toNat - (zero c).toNat + 1

def size : List Char → Nat
  | [] => 1
  | c :: cs => radix c * size cs

def number : List Char → Nat
  | [] => 0
  | c :: cs => digit c * size cs + number cs

section Characters

theorem forall_alnum {P : Char → Prop}
    (h : ∀ n < 123, isAlnum (Char.ofNat n) = true → P (Char.ofNat n)) {c : Char}
    (hc : isAlnum c = true) : P c := by
  have hn : c.toNat < 123 := by
    simp only [isAlnum, Bool.or_eq_true, Bool.and_eq_true, decide_eq_true_eq, le_iff_toNat_le] at hc
    have h9 : '9'.toNat = 57 := rfl
    have hz : 'z'.toNat = 122 := rfl
    have hZ : 'Z'.toNat = 90 := rfl
    omega
  have hp := h c.toNat hn
  rw [Char.ofNat_toNat] at hp
  exact hp hc

variable {c : Char}

theorem zero_of_not_alnum (h : isAlnum c = false) : zero c = c := by
  simp only [isAlnum, Bool.or_eq_false_iff] at h
  simp [zero, h]

theorem top_of_not_alnum (h : isAlnum c = false) : top c = c := by
  simp only [isAlnum, Bool.or_eq_false_iff] at h
  simp [top, h]

theorem forall_char {P : Char → Prop}
    (h : ∀ n < 123, isAlnum (Char.ofNat n) = true → P (Char.ofNat n))
    (h' : ∀ c, isAlnum c = false → zero c = c → top c = c → P c) (c : Char) : P c := by
  cases hc : isAlnum c with
  | true => exact forall_alnum h hc
  | false => exact h' c hc (zero_of_not_alnum hc) (top_of_not_alnum hc)

@[simp]
theorem isAlnum_top (c : Char) : isAlnum (top c) = isAlnum c :=
  forall_char (P := fun c => isAlnum (top c) = isAlnum c) (by decide) (fun c _ _ h => by rw [h]) c

@[simp]
theorem isAlnum_zero (c : Char) : isAlnum (zero c) = isAlnum c :=
  forall_char (P := fun c => isAlnum (zero c) = isAlnum c) (by decide) (fun c _ h _ => by rw [h]) c

@[simp]
theorem top_top (c : Char) : top (top c) = top c :=
  forall_char (P := fun c => top (top c) = top c) (by decide) (fun c _ _ h => by rw [h, h]) c

@[simp]
theorem top_zero (c : Char) : top (zero c) = top c :=
  forall_char (P := fun c => top (zero c) = top c) (by decide) (fun c _ h _ => by rw [h]) c

@[simp]
theorem zero_top (c : Char) : zero (top c) = zero c :=
  forall_char (P := fun c => zero (top c) = zero c) (by decide) (fun c _ _ h => by rw [h]) c

@[simp]
theorem zero_zero (c : Char) : zero (zero c) = zero c :=
  forall_char (P := fun c => zero (zero c) = zero c) (by decide) (fun c _ h _ => by rw [h, h]) c

theorem le_top (c : Char) : c ≤ top c :=
  forall_char (P := fun c => c ≤ top c) (by decide) (fun c _ _ h => by rw [h]) c

theorem top_lead (h : isAlnum c = true) : top (lead c) = top c :=
  forall_alnum (P := fun c => top (lead c) = top c) (by decide) h

theorem bump_of_top (h : isAlnum c = true) (ht : top c = c) : bump c = (zero c, some (lead c)) :=
  forall_alnum (P := fun c => top c = c → bump c = (zero c, some (lead c))) (by decide) h ht

theorem bump_of_ne (h : isAlnum c = true) (ht : top c ≠ c) :
    (bump c).2 = none ∧ top (bump c).1 = top c ∧ digit (bump c).1 = digit c + 1 :=
  forall_alnum (P := fun c => top c ≠ c →
    (bump c).2 = none ∧ top (bump c).1 = top c ∧ digit (bump c).1 = digit c + 1) (by decide) h ht

end Characters

section Numbers

theorem radix_top (c : Char) : radix (top c) = radix c := by
  rw [radix, top_top, zero_top, radix]

theorem digit_lt_radix (c : Char) : digit c < radix c := by
  have ht := le_iff_toNat_le.1 (le_top c)
  rw [digit, radix]
  omega

theorem digit_zero (c : Char) : digit (zero c) = 0 := by
  rw [digit, zero_zero, Nat.sub_self]

theorem digit_top (c : Char) : digit (top c) + 1 = radix c := by
  rw [digit, zero_top, radix]

theorem size_map_top (u : List Char) : size (u.map top) = size u := by
  induction u with
  | nil => rfl
  | cons c cs ih => rw [List.map_cons, size, size, radix_top, ih]

theorem size_of_map_top_eq {u v : List Char} (h : v.map top = u.map top) : size v = size u := by
  rw [← size_map_top v, h, size_map_top]

theorem map_top_map_zero (u : List Char) : (u.map zero).map top = u.map top := by
  simp [Function.comp_def]

theorem number_lt_size (u : List Char) : number u < size u := by
  induction u with
  | nil => exact Nat.zero_lt_one
  | cons c cs ih =>
      have hd : (digit c + 1) * size cs ≤ radix c * size cs :=
        Nat.mul_le_mul_right _ (digit_lt_radix c)
      rw [Nat.add_mul, Nat.one_mul] at hd
      rw [number, size]
      omega

theorem number_map_zero (u : List Char) : number (u.map zero) = 0 := by
  induction u with
  | nil => rfl
  | cons c cs ih => rw [List.map_cons, number, digit_zero, ih, Nat.zero_mul]

theorem number_map_top (u : List Char) : number (u.map top) + 1 = size u := by
  induction u with
  | nil => rfl
  | cons c cs ih =>
      have hd : (digit (top c) + 1) * size cs = radix c * size cs := by rw [digit_top]
      rw [Nat.add_mul, Nat.one_mul] at hd
      rw [List.map_cons, number, size, size_map_top]
      omega

end Numbers

section Rolling

variable {c : Char} {u : List Char}

def carry : List Char → Option Char
  | [] => none
  | c :: cs => if isAlnum c then some (lead c) else carry cs

theorem map_zero_of_not_alnum (h : u.any isAlnum = false) : u.map zero = u := by
  induction u with
  | nil => rfl
  | cons c cs ih =>
      rw [List.any_cons, Bool.or_eq_false_iff] at h
      rw [List.map_cons, zero_of_not_alnum h.1, ih h.2]

theorem roll_of_not_alnum (h : u.any isAlnum = false) : roll u = none := by
  induction u with
  | nil => rfl
  | cons c cs ih =>
      rw [List.any_cons, Bool.or_eq_false_iff] at h
      simp [roll, ih h.2, h.1]

theorem roll_cons (hc : isAlnum c = true)
    (hu : u.any isAlnum = true → ∃ d, roll u = some (u.map zero, some d)) :
    roll (c :: u) = some ((bump c).1 :: u.map zero, (bump c).2) := by
  cases ha : u.any isAlnum with
  | true =>
      obtain ⟨d, hd⟩ := hu ha
      simp [roll, hd, hc]
  | false => simp [roll, roll_of_not_alnum ha, hc, map_zero_of_not_alnum ha]

theorem roll_of_top (h : u.map top = u) (ha : u.any isAlnum = true) :
    ∃ d, carry u = some d ∧ roll u = some (u.map zero, some d) := by
  induction u with
  | nil => simp at ha
  | cons c cs ih =>
      obtain ⟨ht, hcs⟩ := List.cons.inj h
      cases hc : isAlnum c with
      | true =>
          have hroll (hs : cs.any isAlnum = true) : ∃ d, roll cs = some (cs.map zero, some d) := by
            obtain ⟨d, -, hd⟩ := ih hcs hs
            exact ⟨d, hd⟩
          refine ⟨lead c, by simp [carry, hc], ?_⟩
          rw [roll_cons hc hroll, bump_of_top hc ht, List.map_cons]
      | false =>
          obtain ⟨d, hd, hroll⟩ := ih hcs (by simpa [hc] using ha)
          refine ⟨d, by simp [carry, hc, hd], ?_⟩
          simp [roll, hroll, hc, zero_of_not_alnum hc]

theorem roll_of_ne (h : u.map top ≠ u) :
    ∃ v, roll u = some (v, none) ∧ v.map top = u.map top ∧ number v = number u + 1 := by
  induction u with
  | nil => simp at h
  | cons c cs ih =>
      by_cases hcs : cs.map top = cs
      · have ht : top c ≠ c := by
          intro ht
          exact h (by rw [List.map_cons, ht, hcs])
        have hc : isAlnum c = true := by
          by_contra hc
          exact ht (top_of_not_alnum (by simpa using hc))
        have hroll (hs : cs.any isAlnum = true) : ∃ d, roll cs = some (cs.map zero, some d) := by
          obtain ⟨d, -, hd⟩ := roll_of_top hcs hs
          exact ⟨d, hd⟩
        obtain ⟨hnone, htop, hdigit⟩ := bump_of_ne hc ht
        refine ⟨(bump c).1 :: cs.map zero, ?_, ?_, ?_⟩
        · rw [roll_cons hc hroll, hnone]
        · rw [List.map_cons, htop, map_top_map_zero, List.map_cons]
        · have hlast := number_map_top cs
          rw [hcs] at hlast
          rw [number, number, hdigit, number_map_zero, size_of_map_top_eq (map_top_map_zero cs),
            Nat.add_mul, Nat.one_mul]
          omega
      · obtain ⟨v, hv, hshape, hnumber⟩ := ih hcs
        refine ⟨c :: v, by simp [roll, hv], ?_, ?_⟩
        · rw [List.map_cons, hshape, List.map_cons]
        · rw [number, number, size_of_map_top_eq hshape, hnumber, Nat.add_assoc]

theorem succChars_of_ne (h : u.map top ≠ u) :
    (succChars u).map top = u.map top ∧ number (succChars u) = number u + 1 := by
  obtain ⟨v, hv, hshape, hnumber⟩ := roll_of_ne h
  rw [succChars, hv]
  exact ⟨hshape, hnumber⟩

theorem succChars_of_top (h : u.map top = u) (ha : u.any isAlnum = true) :
    ∃ d, carry u = some d ∧ succChars u = insertBeforeAlnum d (u.map zero) := by
  obtain ⟨d, hd, hroll⟩ := roll_of_top h ha
  exact ⟨d, hd, by rw [succChars, hroll]⟩

theorem any_isAlnum_of_map_top_eq {v : List Char} (h : v.map top = u.map top) :
    v.any isAlnum = u.any isAlnum := by
  have hmap (u : List Char) : (u.map top).any isAlnum = u.any isAlnum := by
    simp [List.any_map, Function.comp_def]
  rw [← hmap v, h, hmap]

end Rolling

section Peaks

variable {u : List Char}

/-- The text with its letters and digits at the top of their kinds, and so many more of the first of
them in front of it. -/
def peak (k : Nat) : List Char → List Char
  | [] => []
  | c :: cs => if isAlnum c then List.replicate k (top c) ++ (c :: cs).map top else c :: peak k cs

theorem peak_zero (u : List Char) : peak 0 u = u.map top := by
  induction u with
  | nil => rfl
  | cons c cs ih =>
      cases hc : isAlnum c with
      | true => simp [peak, hc]
      | false => simp [peak, hc, ih, top_of_not_alnum hc]

theorem peak_map_top (k : Nat) (u : List Char) : peak k (u.map top) = peak k u := by
  induction u with
  | nil => rfl
  | cons c cs ih =>
      cases hc : isAlnum c with
      | true => simp [peak, hc, Function.comp_def]
      | false => simp [peak, hc, ih, top_of_not_alnum hc]

theorem peak_of_not_alnum (k : Nat) (h : u.any isAlnum = false) : peak k u = u := by
  induction u with
  | nil => rfl
  | cons c cs ih =>
      rw [List.any_cons, Bool.or_eq_false_iff] at h
      simp [peak, h.1, ih h.2]

/-- Starting over with one more in front raises every peak to the next one. -/
theorem peak_insertBeforeAlnum (k : Nat) {d : Char} (hd : carry u = some d) :
    peak k (insertBeforeAlnum d (u.map zero)) = peak (k + 1) u := by
  induction u with
  | nil => simp [carry] at hd
  | cons c cs ih =>
      cases hc : isAlnum c with
      | true =>
          obtain rfl : lead c = d := by simpa [carry, hc] using hd
          have hlead : isAlnum (lead c) = true := by rw [← isAlnum_top, top_lead hc, isAlnum_top, hc]
          simp [insertBeforeAlnum, peak, hc, hlead, top_lead hc, Function.comp_def,
            List.replicate_succ', List.append_assoc]
      | false =>
          have hd : carry cs = some d := by simpa [carry, hc] using hd
          simp [insertBeforeAlnum, peak, hc, zero_of_not_alnum hc, ih hd]

theorem isAlnum_insertBeforeAlnum {d : Char} (hd : carry u = some d) :
    (insertBeforeAlnum d (u.map zero)).any isAlnum = true := by
  induction u with
  | nil => simp [carry] at hd
  | cons c cs ih =>
      cases hc : isAlnum c with
      | true => simp [insertBeforeAlnum, hc]
      | false =>
          have hd : carry cs = some d := by simpa [carry, hc] using hd
          simp [insertBeforeAlnum, hc, ih hd]

theorem peak_succChars (ha : u.any isAlnum = true) :
    (succChars u).any isAlnum = true ∧
      ((∀ k, peak k (succChars u) = peak k u) ∨ ∀ k, peak k (succChars u) = peak (k + 1) u) := by
  by_cases h : u.map top = u
  · obtain ⟨d, hd, hs⟩ := succChars_of_top h ha
    rw [hs]
    exact ⟨isAlnum_insertBeforeAlnum hd, .inr fun k => peak_insertBeforeAlnum k hd⟩
  · obtain ⟨hshape, -⟩ := succChars_of_ne h
    refine ⟨(any_isAlnum_of_map_top_eq hshape).trans ha, .inl fun k => ?_⟩
    rw [← peak_map_top, hshape, peak_map_top]

end Peaks

section Counting

variable {t u : List Char}

theorem nil_le (u : List Char) : [] ≤ u :=
  not_lt.1 (List.not_lt_nil u)

theorem cons_le_cons_iff {c d : Char} {u v : List Char} :
    c :: u ≤ d :: v ↔ c < d ∨ c = d ∧ u ≤ v := by
  rw [← not_lt, ← not_lt]
  exact List.cons_le_cons_iff

theorem append_le_append_left {p u v : List Char} (h : u ≤ v) : p ++ u ≤ p ++ v := by
  rw [← not_lt] at h ⊢
  exact List.append_left_le h

theorem le_map_top (u : List Char) : u ≤ u.map top := by
  induction u with
  | nil => exact nil_le _
  | cons c cs ih =>
      rw [List.map_cons, cons_le_cons_iff]
      by_cases hc : c = top c
      · exact .inr ⟨hc, ih⟩
      · exact .inl (lt_iff_toNat_lt.2 (by
          have hle := le_iff_toNat_le.1 (le_top c)
          have hne : c.toNat ≠ (top c).toNat := fun he => hc (Char.toNat_inj.1 he)
          omega))

theorem exists_iterate_eq_top (ha : u.any isAlnum = true) :
    ∃ n, succChars^[n] u = u.map top := by
  induction hr : size u - number u using Nat.strongRecOn generalizing u with
  | ind r ih =>
      by_cases h : u.map top = u
      · exact ⟨0, h.symm⟩
      · obtain ⟨hshape, hnumber⟩ := succChars_of_ne h
        have hsize := size_of_map_top_eq hshape
        have hlt := number_lt_size (succChars u)
        obtain ⟨n, hn⟩ := ih (size (succChars u) - number (succChars u)) (by omega)
          ((any_isAlnum_of_map_top_eq hshape).trans ha) rfl
        exact ⟨n + 1, by rw [Function.iterate_succ_apply, hn, hshape]⟩

theorem exists_iterate_eq_peak (k : Nat) (ha : u.any isAlnum = true) :
    ∃ n, succChars^[n] u = peak k u := by
  induction k generalizing u with
  | zero =>
      rw [peak_zero]
      exact exists_iterate_eq_top ha
  | succ k ih =>
      obtain ⟨n, hn⟩ := exists_iterate_eq_top ha
      have htop : (u.map top).map top = u.map top := by simp [Function.comp_def]
      have ha' : (u.map top).any isAlnum = true := (any_isAlnum_of_map_top_eq htop).trans ha
      obtain ⟨d, hd, hs⟩ := succChars_of_top htop ha'
      have ha'' : (succChars (u.map top)).any isAlnum = true := by
        rw [hs]
        exact isAlnum_insertBeforeAlnum hd
      obtain ⟨m, hm⟩ := ih ha''
      refine ⟨m + 1 + n, ?_⟩
      rw [Function.iterate_add_apply, hn, Function.iterate_succ_apply, hm, hs,
        peak_insertBeforeAlnum k hd, peak_map_top]

theorem exists_iterate_le_peak (n : Nat) (ha : u.any isAlnum = true) :
    ∃ k, succChars^[n] u ≤ peak k u := by
  induction n generalizing u with
  | zero => exact ⟨0, by rw [peak_zero]; exact le_map_top u⟩
  | succ n ih =>
      obtain ⟨ha', hpeak⟩ := peak_succChars ha
      obtain ⟨k, hk⟩ := ih ha'
      rw [Function.iterate_succ_apply]
      obtain hpeak | hpeak := hpeak
      · exact ⟨k, by rwa [← hpeak]⟩
      · exact ⟨k + 1, by rwa [← hpeak]⟩

/-- Counting up from a text with letters or digits meets or passes what one of its peaks does. -/
theorem exists_le_iterate_iff_peak (ha : u.any isAlnum = true) :
    (∃ n, t ≤ succChars^[n] u) ↔ ∃ k, t ≤ peak k u := by
  constructor
  · rintro ⟨n, hn⟩
    obtain ⟨k, hk⟩ := exists_iterate_le_peak n ha
    exact ⟨k, le_trans hn hk⟩
  · rintro ⟨k, hk⟩
    obtain ⟨n, hn⟩ := exists_iterate_eq_peak k ha
    exact ⟨n, by rwa [hn]⟩

end Counting

section Landing

variable {t p : List Char} {c : Char}

theorem isAlnum_iff : isAlnum c = true ↔ 48 ≤ c.toNat ∧ c.toNat ≤ 57 ∨
    97 ≤ c.toNat ∧ c.toNat ≤ 122 ∨ 65 ≤ c.toNat ∧ c.toNat ≤ 90 := by
  simp only [isAlnum, Bool.or_eq_true, Bool.and_eq_true, decide_eq_true_eq, or_assoc]
  exact Iff.rfl

theorem isAlnum_eq_false_iff : isAlnum c = false ↔ ¬ (48 ≤ c.toNat ∧ c.toNat ≤ 57 ∨
    97 ≤ c.toNat ∧ c.toNat ≤ 122 ∨ 65 ≤ c.toNat ∧ c.toNat ≤ 90) := by
  rw [← isAlnum_iff, Bool.not_eq_true]

/-- Where counting up a single character comes to: a letter or digit, or the last character of all. -/
def landing (c : Char) : Char :=
  if isAlnum c then c
  else if c < '0' then '0'
  else if c < 'A' then 'A'
  else if c < 'a' then 'a'
  else Char.ofNat 0x10ffff

theorem landing_of_alnum (h : isAlnum c = true) : landing c = c := by
  rw [landing, if_pos h]

theorem toNat_landing (h : isAlnum c = false) :
    c.toNat < 48 ∧ (landing c).toNat = 48 ∨
    57 < c.toNat ∧ c.toNat < 65 ∧ (landing c).toNat = 65 ∨
    90 < c.toNat ∧ c.toNat < 97 ∧ (landing c).toNat = 97 ∨
    122 < c.toNat ∧ (landing c).toNat = 0x10ffff := by
  have hn := isAlnum_eq_false_iff.1 h
  rw [landing, if_neg (by simp [h])]
  by_cases h0 : c < '0'
  · rw [if_pos h0]
    exact .inl ⟨h0, rfl⟩
  · have h0' : ¬ c.toNat < 48 := h0
    rw [if_neg h0]
    by_cases hA : c < 'A'
    · have hA' : c.toNat < 65 := hA
      rw [if_pos hA]
      exact .inr (.inl ⟨by omega, hA', rfl⟩)
    · have hA' : ¬ c.toNat < 65 := hA
      rw [if_neg hA]
      by_cases ha : c < 'a'
      · have ha' : c.toNat < 97 := ha
        rw [if_pos ha]
        exact .inr (.inr (.inl ⟨by omega, ha', rfl⟩))
      · have ha' : ¬ c.toNat < 97 := ha
        rw [if_neg ha]
        exact .inr (.inr (.inr ⟨by omega, rfl⟩))

theorem landing_nextChar (hc : isAlnum c = false) (hm : c.toNat ≠ 0x10ffff) :
    landing (nextChar c) = landing c := by
  have hn := toNat_nextChar hm
  have hl := toNat_landing hc
  apply Char.toNat_inj.1
  cases h : isAlnum (nextChar c) with
  | true =>
      rw [landing_of_alnum h]
      rw [isAlnum_iff] at h
      rw [isAlnum_eq_false_iff] at hc
      omega
  | false =>
      have hl' := toNat_landing h
      rw [isAlnum_eq_false_iff] at hc h
      omega

theorem le_landing (c : Char) : c ≤ landing c := by
  cases h : isAlnum c with
  | true =>
      rw [landing_of_alnum h]
  | false =>
      have hl := toNat_landing h
      have hv : c.toNat < 0xd800 ∨ 0xdfff < c.toNat ∧ c.toNat < 0x110000 := c.valid
      exact le_iff_toNat_le.2 (by omega)

def remaining (c : Char) : Nat :=
  if c.toNat ≤ 122 then 122 - c.toNat else 0x10ffff - c.toNat + 123

theorem remaining_nextChar (hc : isAlnum c = false) : remaining (nextChar c) < remaining c := by
  have hv : c.toNat < 0xd800 ∨ 0xdfff < c.toNat ∧ c.toNat < 0x110000 := c.valid
  rw [isAlnum_eq_false_iff] at hc
  by_cases hm : c.toNat = 0x10ffff
  · have hnext : nextChar c = Char.ofNat 0 := by
      rw [toNat_eq_iff_lastChar.1 hm, nextChar_lastChar]
    have hzero : remaining (Char.ofNat 0) = 122 := rfl
    rw [hnext, hzero, remaining, if_neg (by omega)]
    omega
  · have hn := toNat_nextChar hm
    unfold remaining
    by_cases h : c.toNat ≤ 122
    · rw [if_pos h, if_pos (by omega)]
      omega
    · rw [if_neg h, if_neg (by omega)]
      omega

theorem bumpLast_append (p : List Char) (c : Char) : bumpLast (p ++ [c]) = p ++ [nextChar c] := by
  induction p with
  | nil => rfl
  | cons d p ih =>
      cases p with
      | nil => rfl
      | cons e p => exact congrArg (d :: ·) ih

theorem succChars_append (hp : p.any isAlnum = false) (hc : isAlnum c = false) :
    succChars (p ++ [c]) = p ++ [nextChar c] := by
  have ha : (p ++ [c]).any isAlnum = false := by simp [hp, hc]
  rw [succChars, roll_of_not_alnum ha, bumpLast_append]

theorem peak_append (k : Nat) (hp : p.any isAlnum = false) (u : List Char) :
    peak k (p ++ u) = p ++ peak k u := by
  induction p with
  | nil => rfl
  | cons d p ih =>
      rw [List.any_cons, Bool.or_eq_false_iff] at hp
      simp [peak, hp.1, ih hp.2]

theorem append_le_peak (p : List Char) (c : Char) : p ++ [c] ≤ peak 0 (p ++ [landing c]) := by
  have hle : [c] ≤ [landing c] := by
    rw [cons_le_cons_iff]
    by_cases h : c = landing c
    · exact .inr ⟨h, le_refl _⟩
    · have hle := le_iff_toNat_le.1 (le_landing c)
      have hne : c.toNat ≠ (landing c).toNat := fun he => h (Char.toNat_inj.1 he)
      exact .inl (lt_iff_toNat_lt.2 (by omega))
  rw [peak_zero]
  exact le_trans (append_le_append_left hle) (le_map_top _)

theorem exists_le_iterate_iff_succ {u : List Char} :
    (∃ n, t ≤ succChars^[n] u) ↔ t ≤ u ∨ ∃ n, t ≤ succChars^[n] (succChars u) := by
  constructor
  · rintro ⟨n, hn⟩
    cases n with
    | zero => exact .inl hn
    | succ n => exact .inr ⟨n, hn⟩
  · rintro (h | ⟨n, hn⟩)
    · exact ⟨0, h⟩
    · exact ⟨n + 1, hn⟩

theorem peak_digit_le (k : Nat) (hp : p.any isAlnum = false) (hm : c.toNat = 0x10ffff) :
    peak k (p ++ ['0']) ≤ p ++ [c] := by
  have hc : '9' < c := lt_iff_toNat_lt.2 (by rw [hm]; decide)
  rw [peak_append k hp]
  apply append_le_append_left
  cases k with
  | zero => exact cons_le_cons_iff.2 (.inl hc)
  | succ k => exact cons_le_cons_iff.2 (.inl hc)

theorem exists_le_iterate_append_iff (hp : p.any isAlnum = false) (c : Char) :
    (∃ n, t ≤ succChars^[n] (p ++ [c])) ↔ ∃ k, t ≤ peak k (p ++ [landing c]) := by
  induction hr : remaining c using Nat.strongRecOn generalizing c with
  | ind r ih =>
      cases hc : isAlnum c with
      | true =>
          rw [landing_of_alnum hc]
          exact exists_le_iterate_iff_peak (by simp [hc])
      | false =>
          have hlt : remaining (nextChar c) < r := hr ▸ remaining_nextChar hc
          rw [exists_le_iterate_iff_succ, succChars_append hp hc, ih _ hlt (nextChar c) rfl]
          by_cases hm : c.toNat = 0x10ffff
          · have hnext : nextChar c = Char.ofNat 0 := by
              rw [toNat_eq_iff_lastChar.1 hm, nextChar_lastChar]
            have hland : landing c = c := by
              have hl := toNat_landing hc
              exact Char.toNat_inj.1 (by omega)
            have hpeak (k : Nat) : peak k (p ++ [c]) = p ++ [c] :=
              peak_of_not_alnum k (by simp [hp, hc])
            have hzero : landing (Char.ofNat 0) = '0' := by decide
            simp only [hnext, hzero, hland, hpeak, exists_const]
            constructor
            · rintro (h | ⟨k, hk⟩)
              · exact h
              · exact le_trans hk (peak_digit_le k hp hm)
            · exact .inl
          · rw [landing_nextChar hc hm]
            constructor
            · rintro (h | h)
              · exact ⟨0, le_trans h (append_le_peak p c)⟩
              · exact h
            · exact .inr

end Landing

section Attaining

variable {t u : List Char}

/-- Where counting up from a text comes to before its letters and digits roll: a text without any has
its last character counted up to one, or to the last character of all. -/
def entry (u : List Char) : List Char :=
  if u.any isAlnum then u else u.dropLast ++ (u.getLast?.map landing).toList

theorem exists_le_iterate_iff_entry :
    (∃ n, t ≤ succChars^[n] u) ↔ ∃ k, t ≤ peak k (entry u) := by
  cases ha : u.any isAlnum with
  | true =>
      rw [entry, if_pos ha]
      exact exists_le_iterate_iff_peak ha
  | false =>
      rw [entry, if_neg (by simp [ha])]
      obtain rfl | ⟨p, c, rfl⟩ := List.eq_nil_or_concat u
      · have hfix (n : Nat) : succChars^[n] [] = [] := Function.iterate_fixed rfl n
        simp [hfix, peak]
      · rw [List.concat_eq_append] at ha ⊢
        rw [List.any_append, Bool.or_eq_false_iff] at ha
        rw [exists_le_iterate_append_iff ha.1, List.dropLast_concat, List.getLast?_concat]
        rfl

/-- The peaks of a text only rise, or only fall. -/
theorem peak_monotone (u : List Char) :
    (∀ k, peak k u ≤ peak (k + 1) u) ∨ ∀ k, peak (k + 1) u ≤ peak k u := by
  induction u with
  | nil => exact .inl fun _ => le_refl _
  | cons c cs ih =>
      cases hc : isAlnum c with
      | true =>
          have happend (k : Nat) : peak (k + 1) (c :: cs) =
              List.replicate k (top c) ++ (top c :: (c :: cs).map top) := by
            simp [peak, hc, List.replicate_succ', List.append_assoc]
          have hk (k : Nat) : peak k (c :: cs) = List.replicate k (top c) ++ (c :: cs).map top := by
            simp [peak, hc]
          simp only [happend, hk]
          obtain h | h := le_total ((c :: cs).map top) (top c :: (c :: cs).map top)
          · exact .inl fun _ => append_le_append_left h
          · exact .inr fun _ => append_le_append_left h
      | false =>
          have hk (k : Nat) : peak k (c :: cs) = c :: peak k cs := by simp [peak, hc]
          simp only [hk, cons_le_cons_iff, true_and]
          obtain h | h := ih
          · exact .inl fun k => .inr (h k)
          · exact .inr fun k => .inr (h k)

theorem le_replicate_append {k m : Nat} {z : Char} {r : List Char}
    (h : t ≤ List.replicate k z ++ r) (ht : t.length ≤ m) (hm : m ≤ k) :
    t ≤ List.replicate m z ++ r := by
  induction t generalizing k m with
  | nil => exact nil_le _
  | cons x t ih =>
      have hm₀ : 0 < m := Nat.lt_of_lt_of_le (Nat.succ_pos _) ht
      obtain ⟨m, rfl⟩ := Nat.exists_eq_add_one.2 hm₀
      obtain ⟨k, rfl⟩ := Nat.exists_eq_add_one.2 (Nat.lt_of_lt_of_le hm₀ hm)
      rw [List.replicate_succ, List.cons_append, cons_le_cons_iff] at h ⊢
      obtain h | ⟨rfl, h⟩ := h
      · exact .inl h
      · exact .inr ⟨rfl, ih h (Nat.le_of_succ_le_succ ht) (Nat.le_of_succ_le_succ hm)⟩

theorem le_peak_of_le {k m : Nat} (h : t ≤ peak k u) (ht : t.length ≤ m) (hm : m ≤ k) :
    t ≤ peak m u := by
  induction u generalizing t with
  | nil => exact h
  | cons c cs ih =>
      cases hc : isAlnum c with
      | true =>
          simp only [peak, hc, if_true] at h ⊢
          exact le_replicate_append h ht hm
      | false =>
          simp only [peak, hc, Bool.false_eq_true, if_false] at h ⊢
          cases t with
          | nil => exact nil_le _
          | cons x t =>
              rw [cons_le_cons_iff] at h ⊢
              obtain h | ⟨rfl, h⟩ := h
              · exact .inl h
              · exact .inr ⟨rfl, ih h (Nat.le_of_succ_le ht)⟩

theorem peak_le_of_rises (h : ∀ k, peak k u ≤ peak (k + 1) u) {k m : Nat} (hkm : k ≤ m) :
    peak k u ≤ peak m u := by
  induction hkm with
  | refl => exact le_refl _
  | step _ ih => exact le_trans ih (h _)

theorem peak_le_of_falls (h : ∀ k, peak (k + 1) u ≤ peak k u) (k : Nat) : peak k u ≤ peak 0 u := by
  induction k with
  | zero => exact le_refl _
  | succ k ih => exact le_trans (h k) ih

theorem exists_le_peak_iff : (∃ k, t ≤ peak k u) ↔ t ≤ peak 0 u ∨ t ≤ peak t.length u := by
  constructor
  · rintro ⟨k, hk⟩
    obtain hrise | hfall := peak_monotone u
    · obtain hle | hle := Nat.le_total k t.length
      · exact .inr (le_trans hk (peak_le_of_rises hrise hle))
      · exact .inr (le_peak_of_le hk (Nat.le_refl _) hle)
    · exact .inl (le_trans hk (peak_le_of_falls hfall k))
  · rintro (h | h)
    · exact ⟨0, h⟩
    · exact ⟨t.length, h⟩

def Attains (s t : String) : Prop :=
  t.toList ≤ peak 0 (entry s.toList) ∨ t.toList ≤ peak t.toList.length (entry s.toList)

instance (s t : String) : Decidable (Attains s t) := inferInstanceAs (Decidable (_ ∨ _))

theorem toList_iterate_succ (n : Nat) (s : String) :
    (succ^[n] s).toList = succChars^[n] s.toList := by
  induction n generalizing s with
  | zero => rfl
  | succ n ih =>
      rw [Function.iterate_succ_apply, Function.iterate_succ_apply, ih, succ, String.toList_ofList]

theorem exists_not_iterate_lt_iff {s t : String} : (∃ n, ¬ succ^[n] s < t) ↔ Attains s t := by
  rw [Attains, ← exists_le_peak_iff, ← exists_le_iterate_iff_entry]
  refine exists_congr fun n => ?_
  rw [← toList_iterate_succ, ← not_lt]
  exact Iff.rfl

example : Attains "a" "zz" ∧ ¬ Attains "Z" "a" ∧ ¬ Attains "" "a" := by decide

end Attaining

end Stepwise.Text
