import Mathlib.Tactic.Ring
import Stepwise.Proofs.Odometer

namespace Stepwise.Text

def SameKind (c d : Char) : Prop :=
  c.isDigit = d.isDigit ∧ c.isLower = d.isLower ∧ c.isUpper = d.isUpper ∧ (isAlnum c = false → c = d)

def SameShape (u v : List Char) : Prop := List.Forall₂ SameKind u v

def base (c : Char) : Nat := if c.isDigit then 10 else 26

/-- The number that the letters and digits form, read from left to right, whatever stands between them. -/
def reading (u : List Char) : Nat := (u.filter isAlnum).foldl (fun n c => n * base c + digit c) 0

def IsLargest (u : List Char) : Prop := ∀ v, SameShape u v → reading v ≤ reading u

section Kinds

variable {c d : Char}

theorem kinds_top (c : Char) :
    (top c).isDigit = c.isDigit ∧ (top c).isLower = c.isLower ∧ (top c).isUpper = c.isUpper :=
  forall_char (P := fun c => (top c).isDigit = c.isDigit ∧ (top c).isLower = c.isLower ∧
    (top c).isUpper = c.isUpper) (by decide) (fun c _ _ h => by rw [h]; exact ⟨rfl, rfl, rfl⟩) c

theorem isUpper_eq (c : Char) : c.isUpper = ('A' ≤ c && c ≤ 'Z') := Bool.decide_and _ _

theorem top_eq_ite (c : Char) :
    top c = if c.isDigit then '9' else if c.isLower then 'z' else if c.isUpper then 'Z' else c := by
  rw [isUpper_eq]
  rfl

theorem isAlnum_eq (c : Char) : isAlnum c = (c.isDigit || c.isLower || c.isUpper) := by
  rw [isUpper_eq]
  rfl

theorem sameKind_iff : SameKind c d ↔ top c = top d := by
  constructor
  · rintro ⟨hdigit, hlower, hupper, hother⟩
    cases hc : isAlnum c with
    | false => rw [hother hc]
    | true =>
        rw [isAlnum_eq, Bool.or_eq_true, Bool.or_eq_true] at hc
        rw [top_eq_ite, top_eq_ite, ← hdigit, ← hlower, ← hupper]
        obtain (hc | hc) | hc := hc <;> simp [hc]
  · intro h
    obtain ⟨hdigit, hlower, hupper⟩ := kinds_top c
    obtain ⟨hdigit', hlower', hupper'⟩ := kinds_top d
    rw [h] at hdigit hlower hupper
    refine ⟨hdigit.symm.trans hdigit', hlower.symm.trans hlower', hupper.symm.trans hupper', fun hc => ?_⟩
    have hd : isAlnum d = false := by rw [← isAlnum_top, ← h, isAlnum_top, hc]
    rw [← top_of_not_alnum hc, h, top_of_not_alnum hd]

theorem base_eq_radix (h : isAlnum c = true) : base c = radix c :=
  forall_alnum (P := fun c => base c = radix c) (by decide) h

theorem zero_le (c : Char) : zero c ≤ c :=
  forall_char (P := fun c => zero c ≤ c) (by decide) (fun c _ h _ => by rw [h]) c

theorem digit_lt_digit_iff (h : top c = top d) : digit c < digit d ↔ c < d := by
  have hzero : zero c = zero d := by rw [← zero_top, h, zero_top]
  have hc := le_iff_toNat_le.1 (zero_le c)
  have hd := le_iff_toNat_le.1 (zero_le d)
  rw [lt_iff_toNat_lt, digit, digit]
  rw [hzero] at hc ⊢
  omega

theorem digit_of_not_alnum (h : isAlnum c = false) : digit c = 0 := by
  rw [digit, zero_of_not_alnum h, Nat.sub_self]

theorem radix_of_not_alnum (h : isAlnum c = false) : radix c = 1 := by
  rw [radix, zero_of_not_alnum h, top_of_not_alnum h, Nat.sub_self]

end Kinds

section Shapes

variable {u v : List Char}

theorem sameShape_iff : SameShape u v ↔ u.map top = v.map top := by
  induction u generalizing v with
  | nil =>
      cases v with
      | nil => exact iff_of_true .nil rfl
      | cons d v => exact iff_of_false (by rintro ⟨⟩) (by simp)
  | cons c u ih =>
      cases v with
      | nil => exact iff_of_false (by rintro ⟨⟩) (by simp)
      | cons d v =>
          rw [SameShape, List.forall₂_cons, sameKind_iff, List.map_cons, List.map_cons, List.cons.injEq]
          exact and_congr_right fun _ => ih

theorem SameShape.symm (h : SameShape u v) : SameShape v u :=
  sameShape_iff.2 (sameShape_iff.1 h).symm

theorem SameShape.trans {x : List Char} (h : SameShape u v) (h' : SameShape v x) : SameShape u x :=
  sameShape_iff.2 ((sameShape_iff.1 h).trans (sameShape_iff.1 h'))

theorem foldl_reading (n : Nat) (u : List Char) :
    (u.filter isAlnum).foldl (fun n c => n * base c + digit c) n = n * size u + number u := by
  induction u generalizing n with
  | nil => simp [size, number]
  | cons c cs ih =>
      cases hc : isAlnum c with
      | true =>
          rw [List.filter_cons_of_pos hc, List.foldl_cons, ih, base_eq_radix hc, size, number]
          ring
      | false =>
          rw [List.filter_cons_of_neg (by simp [hc]), ih, size, number, radix_of_not_alnum hc,
            digit_of_not_alnum hc]
          ring

theorem reading_eq_number (u : List Char) : reading u = number u := by
  rw [reading, foldl_reading, Nat.zero_mul, Nat.zero_add]

theorem mul_add_lt_mul_add_iff {a b m x y : Nat} (hx : x < m) (hy : y < m) :
    a * m + x < b * m + y ↔ a < b ∨ a = b ∧ x < y := by
  obtain h | rfl | h := Nat.lt_trichotomy a b
  · have hm : (a + 1) * m ≤ b * m := Nat.mul_le_mul_right m h
    rw [Nat.add_mul, Nat.one_mul] at hm
    exact iff_of_true (by omega) (.inl h)
  · simp
  · have hm : (b + 1) * m ≤ a * m := Nat.mul_le_mul_right m h
    rw [Nat.add_mul, Nat.one_mul] at hm
    refine iff_of_false (by omega) ?_
    rintro (h' | ⟨rfl, -⟩) <;> omega

/-- On texts of one shape, the order of texts is the order of their numbers. -/
theorem lt_iff_number_lt (h : u.map top = v.map top) : u < v ↔ number u < number v := by
  induction u generalizing v with
  | nil =>
      obtain rfl : v = [] := by simpa using h.symm
      simp
  | cons c u ih =>
      cases v with
      | nil => simp at h
      | cons d v =>
          obtain ⟨htop, hrest⟩ := List.cons.inj h
          have hsize := size_of_map_top_eq hrest
          have hv : number v < size u := by
            rw [hsize]
            exact number_lt_size v
          have heq : digit c = digit d ↔ c = d := by
            constructor
            · intro he
              have hcd := (digit_lt_digit_iff htop).not.1 (by omega)
              have hdc := (digit_lt_digit_iff htop.symm).not.1 (by omega)
              exact le_antisymm (not_lt.1 hdc) (not_lt.1 hcd)
            · rintro rfl
              rfl
          rw [List.cons_lt_cons_iff, number, number, ← hsize,
            mul_add_lt_mul_add_iff (number_lt_size u) hv, digit_lt_digit_iff htop, heq, ih hrest]

theorem eq_of_number_eq (h : u.map top = v.map top) (hn : number u = number v) : u = v := by
  have huv := (lt_iff_number_lt h).not.2 (by omega)
  have hvu := (lt_iff_number_lt h.symm).not.2 (by omega)
  exact le_antisymm (not_lt.1 hvu) (not_lt.1 huv)

theorem isLargest_iff : IsLargest u ↔ u.map top = u := by
  have htop : u.map top = (u.map top).map top := by simp [Function.comp_def]
  constructor
  · intro h
    have hle := h _ (sameShape_iff.2 htop)
    rw [reading_eq_number, reading_eq_number] at hle
    have hlast := number_map_top u
    have hlt := number_lt_size u
    exact eq_of_number_eq htop.symm (by omega)
  · intro h v hv
    have hsize := size_of_map_top_eq (sameShape_iff.1 hv)
    have hlt := number_lt_size v
    have hlast := number_map_top u
    rw [h] at hlast
    rw [reading_eq_number, reading_eq_number]
    omega

end Shapes

section Successors

variable {c d : Char} {p q u : List Char}

theorem exists_first_alnum (h : u.any isAlnum = true) :
    ∃ p c q, u = p ++ c :: q ∧ p.any isAlnum = false ∧ isAlnum c = true := by
  obtain ⟨c, hc⟩ : ∃ c, u.find? isAlnum = some c := by
    rw [← Option.isSome_iff_exists, List.find?_isSome]
    simpa using h
  obtain ⟨ha, p, q, rfl, hp⟩ := List.find?_eq_some_iff_append.1 hc
  exact ⟨p, c, q, rfl, by simpa using hp, ha⟩

theorem carry_append (hp : p.any isAlnum = false) (hc : isAlnum c = true) (q : List Char) :
    carry (p ++ c :: q) = some (lead c) := by
  induction p with
  | nil => simp [carry, hc]
  | cons x p ih =>
      rw [List.any_cons, Bool.or_eq_false_iff] at hp
      simp [carry, hp.1, ih hp.2]

theorem insertBeforeAlnum_append (hp : p.any isAlnum = false) (hc : isAlnum c = true) (x : Char)
    (q : List Char) : insertBeforeAlnum x (p ++ c :: q) = p ++ x :: c :: q := by
  induction p with
  | nil => simp [insertBeforeAlnum, hc]
  | cons y p ih =>
      rw [List.any_cons, Bool.or_eq_false_iff] at hp
      simp [insertBeforeAlnum, hp.1, ih hp.2]

/-- With all letters and digits at the top, counting starts over with one more in front of them. -/
theorem succChars_append_of_top (hp : p.any isAlnum = false) (hc : isAlnum c = true)
    (h : (p ++ c :: q).map top = p ++ c :: q) :
    succChars (p ++ c :: q) = p ++ lead c :: (c :: q).map zero := by
  obtain ⟨d, hd, hs⟩ := succChars_of_top h (by simp [hc])
  obtain rfl : lead c = d := by simpa [carry_append hp hc] using hd
  rw [hs, List.map_append, map_zero_of_not_alnum hp, List.map_cons,
    insertBeforeAlnum_append hp (by rw [isAlnum_zero, hc])]

theorem isAlnum_lead (hc : isAlnum c = true) : isAlnum (lead c) = true := by
  rw [← isAlnum_top, top_lead hc, isAlnum_top, hc]

/-- The forms that a step from a text to the next one can take: the letters and digits roll on, they start over
with one more in front, or there are none and the last character moves up. -/
inductive Advances (u v : List Char) : Prop
  | rolls (ha : u.any isAlnum = true) (hshape : v.map top = u.map top) (hnumber : number v = number u + 1)
  | grows {p q : List Char} {c : Char} (hu : u = p ++ c :: q) (hp : p.any isAlnum = false)
      (hc : isAlnum c = true) (htop : (c :: q).map top = c :: q) (hv : v = p ++ lead c :: (c :: q).map zero)
  | moves {p : List Char} {c : Char} (hu : u = p ++ [c]) (hp : p.any isAlnum = false)
      (hc : isAlnum c = false) (hv : v = p ++ [nextChar c])

theorem advances_succChars (h : u ≠ []) : Advances u (succChars u) := by
  cases ha : u.any isAlnum with
  | true =>
      by_cases htop : u.map top = u
      · obtain ⟨p, c, q, rfl, hp, hc⟩ := exists_first_alnum ha
        have hrest := (List.append_inj (List.map_append ▸ htop) (List.length_map top)).2
        exact .grows rfl hp hc hrest (succChars_append_of_top hp hc htop)
      · obtain ⟨hshape, hnumber⟩ := succChars_of_ne htop
        exact .rolls ha hshape hnumber
  | false =>
      obtain rfl | ⟨p, c, rfl⟩ := List.eq_nil_or_concat u
      · exact absurd rfl h
      · rw [List.concat_eq_append] at ha ⊢
        rw [List.any_append, Bool.or_eq_false_iff] at ha
        have hc : isAlnum c = false := by simpa using ha.2
        exact .moves rfl ha.1 hc (succChars_append ha.1 hc)

theorem length_of_map_top_eq {v : List Char} (h : v.map top = u.map top) : v.length = u.length := by
  simpa using congrArg List.length h

theorem length_of_grows {v : List Char} (hu : u = p ++ c :: q) (hv : v = p ++ lead c :: (c :: q).map zero) :
    v.length = u.length + 1 := by
  simp only [hu, hv, List.length_append, List.length_cons, List.length_map]
  omega

theorem length_of_moves {v : List Char} (hu : u = p ++ [c]) (hv : v = p ++ [nextChar c]) :
    v.length = u.length := by
  simp [hu, hv]

theorem toList_succ (s : String) : (succ s).toList = succChars s.toList := String.toList_ofList

/-- A text with letters or digits has the successor with the next number of the same shape. If its number is
the largest one, all letters and digits start over, with a one or a first letter put in front of the first of
them, by its kind. A text without letters and digits has its last character moved up. The empty text stays. -/
theorem succ_odometer (s : String) :
    (s.toList.any isAlnum = true → ¬ IsLargest s.toList →
      SameShape s.toList (succ s).toList ∧ reading (succ s).toList = reading s.toList + 1) ∧
    (s.toList.any isAlnum = true → IsLargest s.toList → ∃ p c q, s.toList = p ++ c :: q ∧
      p.any isAlnum = false ∧ isAlnum c = true ∧ (succ s).toList = p ++ lead c :: (c :: q).map zero) ∧
    (s.toList.any isAlnum = false → s ≠ "" → ∃ p c d, s.toList = p ++ [c] ∧
      (succ s).toList = p ++ [d] ∧ IsNext c d) ∧
    succ "" = "" := by
  refine ⟨fun _ hl => ?_, fun ha hl => ?_, fun ha hs => ?_, rfl⟩
  · obtain ⟨hshape, hnumber⟩ := succChars_of_ne (isLargest_iff.not.1 hl)
    rw [toList_succ, sameShape_iff, reading_eq_number, reading_eq_number]
    exact ⟨hshape.symm, hnumber⟩
  · obtain ⟨p, c, q, hu, hp, hc⟩ := exists_first_alnum ha
    refine ⟨p, c, q, hu, hp, hc, ?_⟩
    rw [isLargest_iff, hu] at hl
    rw [toList_succ, hu, succChars_append_of_top hp hc hl]
  · obtain hnil | ⟨p, c, hu⟩ := List.eq_nil_or_concat s.toList
    · exact absurd (String.toList_eq_nil_iff.1 hnil) hs
    · rw [List.concat_eq_append] at hu
      rw [hu, List.any_append, Bool.or_eq_false_iff] at ha
      refine ⟨p, c, nextChar c, hu, ?_, isNext_nextChar c⟩
      rw [toList_succ, hu, succChars_append ha.1 (by simpa using ha.2)]

theorem succ_odometer_carries :
    let s := "1.9.9"
    let t := "<Zz9>"
    (¬ IsLargest s.toList ∧ SameShape s.toList (succ s).toList ∧ reading (succ s).toList = 200) ∧
    IsLargest t.toList ∧ (∃ p c q, t.toList = p ++ c :: q ∧ p.any isAlnum = false ∧ isAlnum c = true ∧
      (succ t).toList = p ++ lead c :: (c :: q).map zero) ∧
    ∃ p c d, "*+".toList = p ++ [c] ∧ (succ "*+").toList = p ++ [d] ∧ IsNext c d := by
  intro s t
  have hs : ¬ IsLargest s.toList := isLargest_iff.not.2 (by decide)
  have ht : IsLargest t.toList := isLargest_iff.2 (by decide)
  obtain ⟨hshape, hreading⟩ := (succ_odometer s).1 (by decide) hs
  have h199 : reading s.toList = 199 := by decide
  exact ⟨⟨hs, hshape, hreading.trans (congrArg (· + 1) h199)⟩, ht, (succ_odometer t).2.1 (by decide) ht,
    (succ_odometer "*+").2.2.1 (by decide) (by decide)⟩

end Successors

end Stepwise.Text
