import Stepwise.Proofs.TextShapes
import Stepwise.Value.Order

namespace Stepwise

namespace Text

def bytes (s : String) : List UInt8 := s.toUTF8.data.toList

section Encoding

variable {l m : List UInt8} {c d : Char} {u v : List Char}

/-- The first byte where the two differ is less in the first of them. Neither goes on where the other ends. -/
def Precedes : List UInt8 → List UInt8 → Prop
  | a :: l, b :: m => a < b ∨ a = b ∧ Precedes l m
  | _, _ => False

theorem Precedes.append_lt (h : Precedes l m) (x y : List UInt8) : l ++ x < m ++ y := by
  induction l generalizing m with
  | nil => cases h
  | cons a l ih =>
      cases m with
      | nil => cases h
      | cons b m =>
          rw [List.cons_append, List.cons_append, List.cons_lt_cons_iff]
          obtain hlt | ⟨rfl, hrest⟩ := h
          · exact .inl hlt
          · exact .inr ⟨rfl, ih hrest⟩

/-- Longer encodings have larger first bytes, and encodings of one length give the digits of a code from the
highest on. -/
theorem precedes_utf8EncodeChar (h : c < d) :
    Precedes (String.utf8EncodeChar c) (String.utf8EncodeChar d) := by
  have hlt : c.val.toNat < d.val.toNat := h
  have hd : d.val.toNat < 0xd800 ∨ 0xdfff < d.val.toNat ∧ d.val.toNat < 0x110000 := d.valid
  have h₁ (n : Nat) : n / 4096 = n / 64 / 64 := (Nat.div_div_eq_div_mul n 64 64).symm
  have h₂ (n : Nat) : n / 262144 = n / 64 / 64 / 64 := by rw [← h₁, Nat.div_div_eq_div_mul]
  simp only [String.utf8EncodeChar, h₁, h₂]
  split_ifs <;>
    simp only [Precedes, UInt8.lt_iff_toNat_lt, ← UInt8.toNat_inj, UInt8.toNat_ofNat'] <;> omega

theorem bytes_eq_flatMap (s : String) : bytes s = s.toList.flatMap String.utf8EncodeChar := by
  rw [bytes, String.toUTF8, ← String.utf8Encode_toList, List.utf8Encode, List.data_toByteArray]

theorem flatMap_utf8EncodeChar_lt (h : u < v) :
    u.flatMap String.utf8EncodeChar < v.flatMap String.utf8EncodeChar := by
  induction u generalizing v with
  | nil =>
      cases v with
      | nil => simp at h
      | cons d v =>
          obtain ⟨b, l, hl⟩ := List.exists_cons_of_ne_nil (String.utf8EncodeChar_ne_nil (c := d))
          rw [List.flatMap_nil, List.flatMap_cons, hl, List.cons_append]
          exact List.nil_lt_cons _ _
  | cons c u ih =>
      cases v with
      | nil => simp at h
      | cons d v =>
          rw [List.flatMap_cons, List.flatMap_cons]
          obtain hlt | ⟨rfl, hrest⟩ := List.cons_lt_cons_iff.1 h
          · exact (precedes_utf8EncodeChar hlt).append_lt _ _
          · exact List.append_left_lt (ih hrest)

theorem bytes_lt_iff {s t : String} : bytes s < bytes t ↔ s.toList < t.toList := by
  rw [bytes_eq_flatMap, bytes_eq_flatMap]
  refine ⟨fun h => ?_, flatMap_utf8EncodeChar_lt⟩
  by_contra hlt
  obtain heq | hgt := (not_lt.1 hlt).eq_or_lt
  · rw [heq] at h
    exact List.lt_irrefl _ h
  · exact List.lt_asymm h (flatMap_utf8EncodeChar_lt hgt)

end Encoding

section Growing

variable {c : Char} {u : List Char}

theorem lead_lt_of_top (h : isAlnum c = true) (ht : top c = c) : lead c < c :=
  forall_alnum (P := fun c => top c = c → lead c < c) (by decide) h ht

/-- Counting goes up as long as no place is added, and goes down where one is. -/
theorem succChars_lt_or_gt (ha : u.any isAlnum = true) :
    (u < succChars u ∧ (succChars u).length = u.length) ∨
      (succChars u < u ∧ (succChars u).length = u.length + 1) := by
  have hnil : u ≠ [] := by
    rintro rfl
    simp at ha
  cases advances_succChars hnil with
  | rolls _ hshape hnumber =>
      exact .inl ⟨(lt_iff_number_lt hshape.symm).2 (by omega), length_of_map_top_eq hshape⟩
  | grows hu _ hc htop hv =>
      refine .inr ⟨?_, length_of_grows hu hv⟩
      have hlead := lead_lt_of_top hc (List.cons.inj htop).1
      rw [hv, hu]
      exact List.append_left_lt (List.cons_lt_cons_iff.2 (.inl hlead))
  | moves hu hp hc _ => simp [hu, hp, hc] at ha

theorem succChars_append_lt_or_gt {p : List Char} (hp : p.any isAlnum = false) (hc : isAlnum c = false) :
    c.toNat = 0x10ffff ∧ succChars (p ++ [c]) < p ++ [c] ∨
      c.toNat ≠ 0x10ffff ∧ p ++ [c] < succChars (p ++ [c]) := by
  rw [succChars_append hp hc]
  obtain ⟨hm, hzero⟩ | ⟨hlt, -⟩ := isNext_nextChar c
  · have hlt : nextChar c < c := lt_iff_toNat_lt.2 (by omega)
    exact .inl ⟨hm, List.append_left_lt (List.cons_lt_cons_iff.2 (.inl hlt))⟩
  · refine .inr ⟨fun hm => ?_, List.append_left_lt (List.cons_lt_cons_iff.2 (.inl hlt))⟩
    have hv : (nextChar c).toNat < 0xd800 ∨
        0xdfff < (nextChar c).toNat ∧ (nextChar c).toNat < 0x110000 := (nextChar c).valid
    have hlt := lt_iff_toNat_lt.1 hlt
    omega

end Growing

end Text

namespace Value

open Text

variable {s t : String}

theorem compare_str_lt_iff : compare (.str s) (.str t) = some .lt ↔ s < t :=
  Option.some_inj.trans compareOfLessAndEq_eq_lt

theorem compare_str_self (s : String) : compare (.str s) (.str s) = some .eq := by
  have hirrefl : ¬ s < s := List.lt_irrefl s.toList
  change some (compareOfLessAndEq s s) = some .eq
  rw [compareOfLessAndEq, if_neg hirrefl, if_pos rfl]

theorem compare_str_gt_iff : compare (.str s) (.str t) = some .gt ↔ t < s := by
  change some (compareOfLessAndEq s t) = some .gt ↔ _
  rw [Option.some_inj, compareOfLessAndEq]
  split_ifs with hlt heq
  · exact iff_of_false (by simp) (List.lt_asymm hlt)
  · subst heq
    exact iff_of_false (by simp) (List.lt_irrefl _)
  · have hle : t.toList ≤ s.toList := not_lt.1 hlt
    have hgt : t.toList < s.toList := lt_of_le_of_ne hle fun h => heq (String.toList_inj.1 h).symm
    exact iff_of_true rfl hgt

/-- Strings are ordered by their bytes. The successor of a string with letters or digits is above it if it has
as many characters, below it if it has one more, and there is no third case. The successor of another string
is above it, unless its last character is the last one of all. -/
theorem compare_succ_iff_length :
    (∀ s t : String, (compare (.str s) (.str t) = some .lt ↔ bytes s < bytes t) ∧
      (compare (.str s) (.str t) = some .gt ↔ bytes t < bytes s)) ∧
    ∀ s : String,
      (s.toList.any isAlnum = true →
        (compare (.str (succ s)) (.str s) = some .gt ↔ (succ s).length = s.length) ∧
        (compare (.str (succ s)) (.str s) = some .lt ↔ (succ s).length = s.length + 1) ∧
        ((succ s).length = s.length ∨ (succ s).length = s.length + 1)) ∧
      (s.toList.any isAlnum = false → ∀ c, s.toList.getLast? = some c →
        compare (.str (succ s)) (.str s) = some (if c.toNat = 0x10ffff then .lt else .gt)) := by
  refine ⟨fun s t => ?_, fun s => ⟨fun ha => ?_, fun ha c hc => ?_⟩⟩
  · rw [compare_str_lt_iff, compare_str_gt_iff, bytes_lt_iff, bytes_lt_iff]
    exact ⟨Iff.rfl, Iff.rfl⟩
  · rw [compare_str_gt_iff, compare_str_lt_iff, ← String.length_toList, ← String.length_toList]
    change (s.toList < (succ s).toList ↔ _) ∧ ((succ s).toList < s.toList ↔ _) ∧ _
    rw [toList_succ]
    obtain ⟨hlt, hlen⟩ | ⟨hlt, hlen⟩ := succChars_lt_or_gt ha
    · exact ⟨iff_of_true hlt hlen, iff_of_false (lt_asymm hlt) (by omega), .inl hlen⟩
    · exact ⟨iff_of_false (lt_asymm hlt) (by omega), iff_of_true hlt hlen, .inr hlen⟩
  · obtain ⟨p, hp⟩ := List.getLast?_eq_some_iff.1 hc
    rw [hp, List.any_append, Bool.or_eq_false_iff] at ha
    obtain ⟨hm, hlt⟩ | ⟨hm, hlt⟩ := succChars_append_lt_or_gt ha.1 (c := c) (by simpa using ha.2)
    · rw [if_pos hm, compare_str_lt_iff]
      rwa [← hp, ← toList_succ] at hlt
    · rw [if_neg hm, compare_str_gt_iff]
      rwa [← hp, ← toList_succ] at hlt

/-- A carry over a character of two bytes, a start over, and a string without letters and digits. -/
theorem compare_succ_iff_length_mixed :
    (compare (.str (succ "aé9")) (.str "aé9") = some .gt ∧ compare (.str (succ "Zz")) (.str "Zz") = some .lt) ∧
      compare (.str (succ "*é")) (.str "*é") = some .gt := by
  obtain ⟨-, h⟩ := compare_succ_iff_length
  refine ⟨⟨((h "aé9").1 (by decide)).1.2 (by decide), ((h "Zz").1 (by decide)).2.1.2 (by decide)⟩, ?_⟩
  exact (h "*é").2 (by decide) 'é' (by decide)

end Value

end Stepwise
