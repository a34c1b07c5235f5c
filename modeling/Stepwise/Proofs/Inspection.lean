import Stepwise.Proofs.ScalarTexts

namespace Stepwise.Value

def IsAtom : Value → Prop
  | nil | bool _ | int _ | float _ => True
  | _ => False

inductive IsData : Value → Prop
  | atom {v : Value} (h : v.IsAtom) : IsData v
  | str (s : String) : IsData (.str s)
  | array {items : List Value} (h : ∀ v ∈ items, IsData v) : IsData (.array items)

mutual

/-- The value with one and the same float for all those that are no numbers. -/
def identifyNaN : Value → Value
  | float x => float (if x.isNaN then ⟨0x7ff8000000000000⟩ else x)
  | array items => array (identifyNaNs items)
  | v => v

def identifyNaNs : List Value → List Value
  | [] => []
  | v :: vs => identifyNaN v :: identifyNaNs vs

end

section Atoms

variable {v w : Value} {c : Char} {cs ds : List Char}

def isDelimiter (c : Char) : Bool := [',', '[', ']', '"', '\n'].contains c

theorem not_isDelimiter_of_isDigit (h : Decimal.isDigit c = true) : isDelimiter c = false := by
  cases hc : isDelimiter c with
  | false => rfl
  | true =>
      have hdigit : ∀ d ∈ [',', '[', ']', '"', '\n'], Decimal.isDigit d = false := by simp [Decimal.isDigit]
      rw [hdigit c (List.contains_iff_mem.1 hc)] at h
      cases h

theorem not_isDelimiter_of_all (h : cs.all (fun c => !isDelimiter c) = true) :
    ∀ c ∈ cs, isDelimiter c = false := by
  simpa using h

theorem not_isDelimiter_of_mem_sign {s : Sign} (hc : c ∈ s.chars) : isDelimiter c = false := by
  cases s <;> exact not_isDelimiter_of_all rfl c hc

theorem not_isDelimiter_of_mem_whole {n : Int} (h : Decimal.IsWhole cs n) (hc : c ∈ cs) : isDelimiter c = false := by
  obtain ⟨s, ds, hds, rfl, -⟩ := h
  obtain hc | hc := List.mem_append.1 hc
  · exact not_isDelimiter_of_mem_sign hc
  · exact not_isDelimiter_of_isDigit (hds.digits c hc)

theorem not_isDelimiter_of_mem_numeral {n : Decimal.Numeral} (hc : c ∈ n.chars) : isDelimiter c = false := by
  have hfraction : ∀ c ∈ n.fraction?.elim [] ('.' :: ·), isDelimiter c = false := by
    have hdigits := n.isDigit_fraction
    rw [Decimal.Numeral.fraction] at hdigits
    cases hf : n.fraction? with
    | none => simp
    | some f =>
        rw [hf] at hdigits
        exact List.forall_mem_cons.2 ⟨by decide, fun c hc => not_isDelimiter_of_isDigit (hdigits c hc)⟩
  have hexponent : ∀ c ∈ n.exponentChars, isDelimiter c = false := by
    rw [Decimal.Numeral.exponentChars]
    cases he : n.exponent? with
    | none => simp
    | some e =>
        refine List.forall_mem_cons.2 ⟨?_, fun c => not_isDelimiter_of_mem_whole e.isWhole⟩
        obtain h | h := e.isMark
        · rw [h]
          decide
        · rw [h]
          decide
  obtain hc | hc := List.mem_append.1 hc
  · exact not_isDelimiter_of_mem_sign hc
  obtain hc | hc := List.mem_append.1 hc
  · exact not_isDelimiter_of_isDigit (n.isDigit_whole c hc)
  · exact (List.mem_append.1 hc).elim (hfraction c) (hexponent c)

theorem float_cases (x : Binary64) : (x.isNaN = true ∧ x.text = "NaN") ∨ x = ⟨0x7ff0000000000000⟩ ∨
    x = ⟨0xfff0000000000000⟩ ∨ (x.isNaN = false ∧ x.exponentBits ≠ 2047) := by
  obtain hlt | heq | hgt := lt_trichotomy x.magnitude Binary64.infinityMagnitude
  · exact .inr (.inr (.inr ⟨decide_eq_false hlt.le.not_gt, Binary64.magnitude_lt_iff.1 hlt⟩))
  · have hx := x.ofMagnitude_self
    rw [heq] at hx
    cases hneg : x.negative with
    | false =>
        rw [hneg] at hx
        exact .inr (.inl hx.symm)
    | true =>
        rw [hneg] at hx
        exact .inr (.inr (.inl hx.symm))
  · have hnan : x.isNaN = true := decide_eq_true hgt
    exact .inl ⟨hnan, by rw [Binary64.text, if_pos hnan]⟩

theorem IsAtom.not_isDelimiter (h : v.IsAtom) : ∀ c ∈ v.inspect.toList, isDelimiter c = false := by
  cases v with
  | nil => exact not_isDelimiter_of_all rfl
  | bool b => cases b <;> exact not_isDelimiter_of_all rfl
  | int n =>
      intro c
      exact not_isDelimiter_of_mem_whole (Decimal.wholeNumber_eq_some_iff.1 (Decimal.wholeNumber_toString n.toInt))
  | float x =>
      change ∀ c ∈ x.text.toList, _
      obtain ⟨-, htext⟩ | rfl | rfl | ⟨-, hfinite⟩ := float_cases x
      · rw [htext]
        exact not_isDelimiter_of_all rfl
      · exact not_isDelimiter_of_all rfl
      · exact not_isDelimiter_of_all rfl
      · obtain ⟨n, hn, -⟩ := (Literal.isFloat_finiteText hfinite).rounds
        rw [Literal.text_of_finite hfinite, hn]
        intro c
        exact not_isDelimiter_of_mem_numeral
  | _ => cases h

def readAtom (text : String) : Value :=
  if text = "NaN" then float ⟨0x7ff8000000000000⟩
  else if text = "Infinity" then float ⟨0x7ff0000000000000⟩
  else if text = "-Infinity" then float ⟨0xfff0000000000000⟩
  else Literal.read text

theorem identifyNaN_of_isScalar (h : v.IsScalar) : v.identifyNaN = v := by
  cases v with
  | nil | bool _ | int _ => rfl
  | float x =>
      have hnan : x.isNaN = false := decide_eq_false (Binary64.magnitude_lt_iff.2 h).le.not_gt
      rw [identifyNaN, hnan]
      rfl
  | _ => cases h

theorem readAtom_of_isScalar (h : v.IsScalar) : readAtom v.inspect = v := by
  have hread := Literal.read_inspect_of_isScalar h
  have hne {text : String} (htext : Literal.read text = .str text) : v.inspect ≠ text := by
    rintro rfl
    rw [hread] at htext
    rw [htext] at h
    exact h
  rw [readAtom, if_neg (hne rfl), if_neg (hne rfl), if_neg (hne rfl), hread]

theorem readAtom_inspect (h : v.IsAtom) : readAtom v.inspect = v.identifyNaN := by
  cases v with
  | nil | bool _ | int _ => exact readAtom_of_isScalar trivial
  | float x =>
      obtain ⟨hnan, htext⟩ | rfl | rfl | ⟨-, hfinite⟩ := float_cases x
      · change readAtom x.text = _
        rw [htext, identifyNaN, if_pos hnan]
        rfl
      · rfl
      · rfl
      · have hscalar : (float x).IsScalar := hfinite
        rw [readAtom_of_isScalar hscalar, identifyNaN_of_isScalar hscalar]
  | _ => cases h

theorem IsAtom.inspect_ne_nil (h : v.IsAtom) : v.inspect.toList ≠ [] := by
  intro hnil
  have hread := readAtom_inspect h
  rw [String.toList_eq_nil_iff.1 hnil, show readAtom "" = .str "" from rfl] at hread
  cases v with
  | nil | bool _ | int _ | float _ => cases hread
  | _ => cases h

theorem IsAtom.append_ne (h : v.IsAtom) (hc : isDelimiter c = true) : v.inspect.toList ++ cs ≠ c :: ds := by
  intro heq
  obtain ⟨d, rest, hd⟩ := List.exists_cons_of_ne_nil h.inspect_ne_nil
  have hinner := h.not_isDelimiter d (by rw [hd]; exact List.mem_cons_self)
  rw [hd] at heq
  obtain rfl := (List.cons.inj heq).1
  rw [hinner] at hc
  cases hc

end Atoms

section Arrays

variable {v w : Value} {vs ws : List Value} {cs ds : List Char}

theorem toList_inspect_str (s : String) :
    (str s).inspect.toList = '"' :: (s.toList.flatMap (Quoted.escape '"') ++ ['"']) :=
  Quoted.toList_text s

def closing : List Value → List Char
  | [] => [']']
  | v :: vs => ',' :: ' ' :: (v.inspect.toList ++ closing vs)

theorem closing_cons_append : closing (v :: vs) ++ cs = ',' :: ' ' :: (v.inspect.toList ++ (closing vs ++ cs)) := by
  rw [← List.append_assoc]
  rfl

theorem toList_intercalate_inspect (v : Value) (vs : List Value) :
    (", ".intercalate ((v :: vs).map inspect)).toList ++ [']'] = v.inspect.toList ++ closing vs := by
  induction vs generalizing v with
  | nil => rw [List.map_singleton, String.intercalate_singleton, closing]
  | cons w vs ih =>
      rw [List.map_cons, List.map_cons, String.intercalate_cons_cons, String.toList_append, String.toList_append,
        List.append_assoc, ← List.map_cons, ih]
      simp [closing]

def opened : List Value → List Char
  | [] => [']']
  | v :: vs => v.inspect.toList ++ closing vs

theorem toList_inspect_array (items : List Value) : (array items).inspect.toList = '[' :: opened items := by
  rw [inspect_array, String.toList_append, String.toList_append]
  cases items with
  | nil => rfl
  | cons v vs => exact congrArg ('[' :: ·) (toList_intercalate_inspect v vs)

def Ends (cs : List Char) : Prop := ∀ c ∈ cs.head?, c = ',' ∨ c = ']'

theorem ends_closing (vs : List Value) (cs : List Char) : Ends (closing vs ++ cs) := by
  cases vs with
  | nil => exact fun c hc => .inr (Option.some.inj hc).symm
  | cons v vs => exact fun c hc => .inl (Option.some.inj hc).symm

/-- The inspection shows by itself where it ends, and which value it is of. -/
def Delimits (v : Value) : Prop := ∀ {w : Value} {cs ds : List Char}, w.IsData → Ends cs → Ends ds →
  v.inspect.toList ++ cs = w.inspect.toList ++ ds → v.identifyNaN = w.identifyNaN ∧ cs = ds

theorem Ends.isDelimiter (h : Ends cs) : ∀ c ∈ cs.head?, isDelimiter c = true := by
  intro c hc
  obtain rfl | rfl := h c hc <;> rfl

theorem IsAtom.delimits (h : v.IsAtom) : v.Delimits := by
  intro w cs ds hw hcs hds heq
  cases hw with
  | atom hw =>
      have hspan {u : Value} (hu : u.IsAtom) {es : List Char} (hes : Ends es) :
          (u.inspect.toList ++ es).span (fun c => !Value.isDelimiter c) = (u.inspect.toList, es) := by
        refine span_eq_iff.2 ⟨rfl, fun c hc => ?_, fun c hc => ?_⟩
        · rw [hu.not_isDelimiter c hc]
          rfl
        · rw [hes.isDelimiter c hc]
          rfl
      have hsame := hspan h hcs
      rw [heq, hspan hw hds] at hsame
      obtain ⟨htext, rfl⟩ := Prod.mk.inj hsame
      refine ⟨?_, rfl⟩
      rw [← readAtom_inspect h, ← readAtom_inspect hw, String.toList_inj.1 htext]
  | str s =>
      rw [toList_inspect_str] at heq
      exact absurd heq (h.append_ne rfl)
  | array hitems =>
      rw [toList_inspect_array] at heq
      exact absurd heq (h.append_ne rfl)

theorem delimits_str (s : String) : (str s).Delimits := by
  intro w cs ds hw hcs hds heq
  cases hw with
  | atom hw =>
      rw [toList_inspect_str] at heq
      exact absurd heq.symm (hw.append_ne rfl)
  | str t =>
      obtain ⟨rfl, hends⟩ := Quoted.text_append_inj heq
      exact ⟨rfl, hends⟩
  | array hitems =>
      rw [toList_inspect_str, toList_inspect_array] at heq
      exact absurd (List.cons.inj heq).1 (by decide)

theorem IsData.append_ne (h : v.IsData) : v.inspect.toList ++ cs ≠ ']' :: ds := by
  cases h with
  | atom h => exact h.append_ne rfl
  | str s =>
      rw [toList_inspect_str]
      exact fun heq => absurd (List.cons.inj heq).1 (by decide)
  | array h =>
      rw [toList_inspect_array]
      exact fun heq => absurd (List.cons.inj heq).1 (by decide)

theorem closing_append_inj (hvs : ∀ v ∈ vs, v.Delimits) (hws : ∀ w ∈ ws, w.IsData)
    (h : closing vs ++ cs = closing ws ++ ds) : identifyNaNs vs = identifyNaNs ws ∧ cs = ds := by
  induction vs generalizing ws with
  | nil =>
      cases ws with
      | nil => exact ⟨rfl, (List.cons.inj h).2⟩
      | cons w ws => exact absurd (List.cons.inj h).1 (by decide)
  | cons v vs ih =>
      cases ws with
      | nil => exact absurd (List.cons.inj h).1 (by decide)
      | cons w ws =>
          obtain ⟨hv, hvs⟩ := List.forall_mem_cons.1 hvs
          obtain ⟨hw, hws⟩ := List.forall_mem_cons.1 hws
          rw [closing_cons_append, closing_cons_append] at h
          obtain ⟨hitem, hrest⟩ := hv hw (ends_closing vs cs) (ends_closing ws ds)
            (List.cons.inj (List.cons.inj h).2).2
          obtain ⟨hitems, hends⟩ := ih hvs hws hrest
          rw [identifyNaNs, identifyNaNs, hitem, hitems]
          exact ⟨rfl, hends⟩

theorem delimits_array (hvs : ∀ v ∈ vs, v.IsData) (ih : ∀ v ∈ vs, v.Delimits) : (array vs).Delimits := by
  intro w cs ds hw hcs hds heq
  cases hw with
  | atom hw =>
      rw [toList_inspect_array] at heq
      exact absurd heq.symm (hw.append_ne rfl)
  | str t =>
      rw [toList_inspect_str, toList_inspect_array] at heq
      exact absurd (List.cons.inj heq).1 (by decide)
  | @array ws hws =>
      rw [toList_inspect_array, toList_inspect_array] at heq
      replace heq : opened vs ++ cs = opened ws ++ ds := (List.cons.inj heq).2
      suffices hitems : identifyNaNs vs = identifyNaNs ws ∧ cs = ds from
        ⟨congrArg array hitems.1, hitems.2⟩
      cases vs with
      | nil =>
          cases ws with
          | nil => exact ⟨rfl, (List.cons.inj heq).2⟩
          | cons w ws =>
              rw [opened, opened, List.append_assoc] at heq
              exact absurd heq.symm (hws w List.mem_cons_self).append_ne
      | cons v vs =>
          cases ws with
          | nil =>
              rw [opened, opened, List.append_assoc] at heq
              exact absurd heq (hvs v List.mem_cons_self).append_ne
          | cons w ws =>
              refine closing_append_inj ih hws ?_
              rw [closing_cons_append, closing_cons_append, ← List.append_assoc, ← List.append_assoc]
              exact congrArg (',' :: ' ' :: ·) heq

theorem IsData.delimits (h : v.IsData) : v.Delimits := by
  induction h with
  | atom h => exact h.delimits
  | str s => exact delimits_str s
  | array h ih => exact delimits_array h ih

theorem newline_notMem_closing (h : ∀ v ∈ vs, '\n' ∉ v.inspect.toList) : '\n' ∉ closing vs := by
  induction vs with
  | nil => decide
  | cons v vs ih =>
      obtain ⟨hv, hvs⟩ := List.forall_mem_cons.1 h
      simp [closing, hv, ih hvs]

theorem IsData.newline_notMem (h : v.IsData) : '\n' ∉ v.inspect.toList := by
  induction h with
  | atom h => exact fun hmem => absurd (h.not_isDelimiter _ hmem) (by decide)
  | str s => exact Quoted.newline_notMem_text s
  | @array items h ih =>
      rw [toList_inspect_array]
      cases items with
      | nil => decide
      | cons v vs =>
          obtain ⟨hv, hvs⟩ := List.forall_mem_cons.1 ih
          simp [opened, hv, newline_notMem_closing hvs]

theorem map_inspect_identifyNaNs (h : ∀ v ∈ vs, v.identifyNaN.inspect = v.inspect) :
    (identifyNaNs vs).map inspect = vs.map inspect := by
  induction vs with
  | nil => rfl
  | cons v vs ih =>
      obtain ⟨hv, hvs⟩ := List.forall_mem_cons.1 h
      rw [identifyNaNs, List.map_cons, List.map_cons, hv, ih hvs]

theorem IsData.inspect_identifyNaN (h : v.IsData) : v.identifyNaN.inspect = v.inspect := by
  induction h with
  | @atom v h =>
      cases v with
      | nil | bool _ | int _ => rfl
      | float x =>
          rw [identifyNaN]
          cases hnan : x.isNaN with
          | false => rfl
          | true =>
              change "NaN" = x.text
              rw [Binary64.text, if_pos hnan]
      | _ => cases h
  | str s => rfl
  | array h ih => rw [identifyNaN, inspect_array, inspect_array, map_inspect_identifyNaNs ih]

/-- An inspection is one line, and tells values apart unless they differ only in what is no number. -/
theorem inspect_unambiguous (hv : v.IsData) (hw : w.IsData) :
    '\n' ∉ v.inspect.toList ∧ (v.inspect = w.inspect ↔ v.identifyNaN = w.identifyNaN) := by
  have hends : Ends [] := fun c hc => by cases hc
  refine ⟨hv.newline_notMem, fun h => ?_, fun h => ?_⟩
  · exact (hv.delimits hw hends hends (by rw [h])).1
  · rw [← hv.inspect_identifyNaN, h, hw.inspect_identifyNaN]

/-- A string with marks and a comma is not taken for two strings, while any two floats that are no numbers are
taken for each other. -/
theorem inspect_unambiguous_marks :
    let one : Value := array [str "a\", \"b\n"]
    let two : Value := array [str "a", str "b\n"]
    let nan : Value := array [float ⟨0x7ff8000000000001⟩]
    let other : Value := array [float ⟨0xfff8000000000000⟩]
    one.IsData ∧ two.IsData ∧ '\n' ∉ one.inspect.toList ∧ one.inspect ≠ two.inspect ∧
      nan.IsData ∧ other.IsData ∧ nan.inspect = other.inspect := by
  intro one two nan other
  have hone : one.IsData := .array (List.forall_mem_singleton.2 (.str _))
  have htwo : two.IsData :=
    .array (List.forall_mem_cons.2 ⟨.str _, List.forall_mem_singleton.2 (.str _)⟩)
  have hnan : nan.IsData := .array (List.forall_mem_singleton.2 (.atom trivial))
  have hother : other.IsData := .array (List.forall_mem_singleton.2 (.atom trivial))
  obtain ⟨hline, hsame⟩ := inspect_unambiguous hone htwo
  have hne : one.inspect ≠ two.inspect := by
    intro h
    have hlength := congrArg List.length (Value.array.inj (hsame.1 h))
    cases hlength
  exact ⟨hone, htwo, hline, hne, hnan, hother, (inspect_unambiguous hnan hother).2.2 rfl⟩

end Arrays

end Stepwise.Value
