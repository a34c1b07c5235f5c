import Stepwise.Proofs.BoundedRanges

namespace Stepwise

open Routine

namespace Text

variable {s t : String}

def place (s : String) : Nat := number s.toList

theorem lt_iff_place_lt (h : SameShape s.toList t.toList) : s < t ↔ place s < place t :=
  lt_iff_number_lt (sameShape_iff.1 h)

theorem eq_of_place_eq (h : SameShape s.toList t.toList) (he : place s = place t) : s = t :=
  String.toList_inj.1 (eq_of_number_eq (sameShape_iff.1 h) he)

theorem succ_of_place_lt (h : SameShape s.toList t.toList) (hlt : place s < place t) :
    SameShape (succ s).toList t.toList ∧ place (succ s) = place s + 1 := by
  rw [sameShape_iff] at h ⊢
  have hne : s.toList.map top ≠ s.toList := by
    intro he
    have hlast := number_map_top s.toList
    have ht := number_lt_size t.toList
    rw [he, size_of_map_top_eq h] at hlast
    simp only [place] at hlt
    omega
  obtain ⟨hshape, hnumber⟩ := succChars_of_ne hne
  rw [toList_succ, hshape, place, toList_succ, hnumber]
  exact ⟨h, rfl⟩

end Text

namespace Value

open Text Steppable

theorem compare_str_of_shape {s t : String} (h : SameShape s.toList t.toList) :
    compare (.str s) (.str t) = some (Ord.compare (place s : Int) (place t)) := by
  obtain hlt | heq | hgt := Nat.lt_trichotomy (place s) (place t)
  · rw [Int.compare_eq_lt.2 (by omega), compare_str_lt_iff, lt_iff_place_lt h]
    exact hlt
  · rw [Int.compare_eq_eq.2 (by omega), eq_of_place_eq h heq, compare_str_self]
  · rw [Int.compare_eq_gt.2 (by omega), compare_str_gt_iff, lt_iff_place_lt h.symm]
    exact hgt

/-- Only texts below the last one are asked for their successor, so none leaves the shape. -/
theorem ladder_str (t : String) :
    Ladder next (.str t) Value.str (fun s => SameShape s.toList t.toList) (fun s => place s) (place t) where
  compare_eq _ h := compare_str_of_shape h
  next_eq s h hlt := by
    obtain ⟨hshape, hplace⟩ := succ_of_place_lt h (by omega)
    exact ⟨succ s, rfl, hshape, by omega⟩

end Value

namespace Text

open Steppable

variable {t u : String} {us : List String} {a b : Int}

theorem mem_iff_of_row (hshape : ∀ u ∈ us, SameShape u.toList t.toList)
    (hplaces : us.map (fun u => (place u : Int)) = Int.range a b) :
    u ∈ us ↔ SameShape u.toList t.toList ∧ a ≤ place u ∧ place u < b := by
  have hmem : (place u : Int) ∈ us.map (fun u => (place u : Int)) ↔ a ≤ place u ∧ place u < b := by
    rw [hplaces, Int.mem_range_iff]
  constructor
  · intro hu
    exact ⟨hshape u hu, hmem.1 (List.mem_map_of_mem hu)⟩
  · rintro ⟨hu, hplace⟩
    obtain ⟨v, hv, hvu⟩ := List.mem_map.1 (hmem.2 hplace)
    rwa [eq_of_place_eq ((hshape v hv).trans hu.symm) (by omega)] at hv

theorem pairwise_of_row (hshape : ∀ u ∈ us, SameShape u.toList t.toList)
    (hplaces : us.map (fun u => (place u : Int)) = Int.range a b) : us.Pairwise (· < ·) := by
  have hsorted := pairwise_range a b
  rw [← hplaces, List.pairwise_map] at hsorted
  refine hsorted.imp_of_mem fun hu hv hlt => ?_
  exact (lt_iff_place_lt ((hshape _ hu).trans (hshape _ hv).symm)).2 (by omega)

theorem getLast?_of_row (hshape : ∀ u ∈ us, SameShape u.toList t.toList)
    (hplaces : us.map (fun u => (place u : Int)) = Int.range a (place t + 1)) (ha : a ≤ place t) :
    us.getLast? = some t := by
  have hlast := getLast?_range ha
  rw [← hplaces, List.getLast?_map, Option.map_eq_some_iff] at hlast
  obtain ⟨u, hu, hplace⟩ := hlast
  rw [hu, eq_of_place_eq (hshape u (List.mem_of_getLast? hu)) (by omega)]

end Text

theorem Value.compare_str_ne_gt_iff {s t : String} (h : Text.SameShape s.toList t.toList) :
    compare (.str s) (.str t) ≠ some .gt ↔ Text.place s ≤ Text.place t := by
  rw [Ne, compare_str_gt_iff, Text.lt_iff_place_lt h.symm, Nat.not_lt]

/-- Take two strings of one shape. The range between them yields all strings of that shape from the first one to
the last, the last one left out or not, each once and in ascending order, and returns. -/
theorem Range.each_text_of_shape {s t : String} (h : Text.SameShape s.toList t.toList) (excludeEnd : Bool) :
    ∃ (r : Range) (us : List String), Range.make (.str s) (.str t) excludeEnd = .ok r ∧
      r.Yields (us.map .str) ∧
      us.Pairwise (fun u v => Value.compare (.str u) (.str v) = some .lt) ∧
      (∀ u, u ∈ us ↔ Text.SameShape s.toList u.toList ∧ Value.compare (.str s) (.str u) ≠ some .gt ∧
        Value.compare (.str u) (.str t) ≠ some .gt ∧ (excludeEnd = true → u ≠ t)) ∧
      (Value.compare (.str s) (.str t) ≠ some .gt → excludeEnd = false → us.getLast? = some t) ∧
      (Value.compare (.str s) (.str t) = some .gt → us = []) := by
  obtain ⟨us, hcourse, hshape, hplaces⟩ := (Value.ladder_str t).exists_course h excludeEnd
  have hmem {u : String} := Text.mem_iff_of_row (u := u) hshape hplaces
  refine ⟨⟨.str s, .str t, excludeEnd⟩, us, rfl, yields_of_course hcourse, ?_, fun u => ?_, ?_, ?_⟩
  · simpa only [Value.compare_str_lt_iff] using Text.pairwise_of_row hshape hplaces
  · have hsame : Text.SameShape s.toList u.toList ↔ Text.SameShape u.toList t.toList :=
      ⟨fun hu => hu.symm.trans h, fun hu => h.trans hu.symm⟩
    rw [hmem, hsame]
    refine and_congr_right fun hu => ?_
    have heq : u = t ↔ Text.place u = Text.place t := ⟨congrArg Text.place, Text.eq_of_place_eq hu⟩
    rw [Value.compare_str_ne_gt_iff (hsame.2 hu), Value.compare_str_ne_gt_iff hu, Ne, heq]
    cases excludeEnd with
    | true =>
        simp only [if_true, forall_const]
        omega
    | false =>
        simp only [Bool.false_eq_true, if_false, false_implies, and_true]
        omega
  · rintro hle rfl
    have hplace := (Value.compare_str_ne_gt_iff h).1 hle
    exact Text.getLast?_of_row hshape hplaces (by omega)
  · intro hgt
    have hplace := (Text.lt_iff_place_lt h.symm).1 (Value.compare_str_gt_iff.1 hgt)
    refine List.eq_nil_iff_forall_not_mem.2 fun u hu => ?_
    have hrow := hmem.1 hu
    split at hrow <;> omega

theorem Range.each_text_of_shape_carry :
    Text.SameShape "a-8".toList "b-1".toList ∧ ∃ (r : Range) (us : List String),
      Range.make (.str "a-8") (.str "b-1") true = .ok r ∧ r.Yields (us.map .str) ∧
      "b-0" ∈ us ∧ "b-1" ∉ us := by
  have h : Text.SameShape "a-8".toList "b-1".toList := Text.sameShape_iff.2 (by decide)
  obtain ⟨r, us, hr, hyields, -, hmem, -⟩ := Range.each_text_of_shape h true
  refine ⟨h, r, us, hr, hyields, (hmem "b-0").2 ⟨Text.sameShape_iff.2 (by decide), ?_⟩, ?_⟩
  · decide
  · rw [hmem]
    simp

end Stepwise
