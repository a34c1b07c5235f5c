import Mathlib.Data.List.Nodup
import Mathlib.Data.Prod.Lex
import Mathlib.Order.Monotone.Basic
import Stepwise.Proofs.BoundedRanges

namespace Stepwise

open Routine

namespace Text

section Injectivity

variable {c d : Char} {p u v w : List Char}

theorem IsNext.left_unique {e : Char} (h : IsNext c e) (h' : IsNext d e) : c = d := by
  obtain ⟨hm, hzero⟩ | ⟨hlt, hleast⟩ := h
  · obtain ⟨hm', -⟩ | ⟨hlt', -⟩ := h'
    · exact Char.toNat_inj.1 (hm.trans hm'.symm)
    · have hlt' := lt_iff_toNat_lt.1 hlt'
      omega
  · obtain ⟨-, hzero⟩ | ⟨hlt', hleast'⟩ := h'
    · have hlt := lt_iff_toNat_lt.1 hlt
      omega
    · have hcd : c ≤ d := not_lt.1 fun hdc => not_le.2 hlt (hleast' c hdc)
      have hdc : d ≤ c := not_lt.1 fun hcd => not_le.2 hlt' (hleast d hcd)
      exact le_antisymm hcd hdc

theorem nextChar_injective : Function.Injective nextChar := by
  intro c d h
  have hd := isNext_nextChar d
  rw [← h] at hd
  exact (isNext_nextChar c).left_unique hd

theorem digit_nextChar (hc : isAlnum c = false) : digit (nextChar c) = 0 := by
  cases hn : isAlnum (nextChar c) with
  | false => exact digit_of_not_alnum hn
  | true =>
      have hm : c.toNat ≠ 0x10ffff := by
        intro hm
        rw [toNat_eq_iff_lastChar.1 hm, nextChar_lastChar] at hn
        exact absurd hn (by decide)
      have hcode := toNat_nextChar hm
      rw [isAlnum_eq_false_iff] at hc
      rw [isAlnum_iff] at hn
      have hfirst : (nextChar c).toNat = 48 ∨ (nextChar c).toNat = 65 ∨ (nextChar c).toNat = 97 := by omega
      rw [← Char.ofNat_toNat (nextChar c)]
      obtain h | h | h := hfirst <;> rw [h] <;> decide

theorem number_append (hp : p.any isAlnum = false) (u : List Char) : number (p ++ u) = number u := by
  induction p with
  | nil => rfl
  | cons d p ih =>
      rw [List.any_cons, Bool.or_eq_false_iff] at hp
      rw [List.cons_append, number, digit_of_not_alnum hp.1, Nat.zero_mul, Nat.zero_add, ih hp.2]

theorem number_of_moves (hp : p.any isAlnum = false) (hc : isAlnum c = false) :
    number (p ++ [nextChar c]) = 0 := by
  rw [number_append hp, number, digit_nextChar hc]
  rfl

theorem takeWhile_not_alnum (hp : p.any isAlnum = false) (hc : isAlnum c = true) (q : List Char) :
    (p ++ c :: q).takeWhile (fun c => !isAlnum c) = p := by
  have hp : ∀ c ∈ p, (!isAlnum c) = true := by simpa using hp
  rw [List.takeWhile_append_of_pos hp, List.takeWhile_cons_of_neg (by simp [hc]), List.append_nil]

/-- Where all letters and digits start over, the places in front of the first of them are kept, and so are the
kinds of all. -/
theorem eq_of_grows {p' q q' : List Char} (hp : p.any isAlnum = false) (hc : isAlnum c = true)
    (htop : (c :: q).map top = c :: q) (hp' : p'.any isAlnum = false) (hd : isAlnum d = true)
    (htop' : (d :: q').map top = d :: q')
    (h : p ++ lead c :: (c :: q).map zero = p' ++ lead d :: (d :: q').map zero) :
    p ++ c :: q = p' ++ d :: q' := by
  have hpp : p = p' := by
    rw [← takeWhile_not_alnum hp (isAlnum_lead hc), h, takeWhile_not_alnum hp' (isAlnum_lead hd)]
  subst hpp
  have hzero : (c :: q).map zero = (d :: q').map zero := (List.cons.inj (List.append_cancel_left h)).2
  have hrest : c :: q = d :: q' := by
    rw [← htop, ← map_top_map_zero, hzero, map_top_map_zero, htop']
  rw [hrest]

/-- Steps of different forms never meet: growing takes one more character, and moving up gives the number zero,
which rolling never does. -/
theorem Advances.left_unique (h : Advances u w) (h' : Advances v w) (hlen : u.length = v.length) :
    u = v := by
  cases h with
  | rolls ha hshape hnumber =>
      cases h' with
      | rolls ha' hshape' hnumber' => exact eq_of_number_eq (hshape.symm.trans hshape') (by omega)
      | grows hv hp hc htop hw =>
          have hgrown := length_of_grows hv hw
          have hkept := length_of_map_top_eq hshape
          omega
      | moves hv hp hc hw =>
          rw [hw, number_of_moves hp hc] at hnumber
          omega
  | grows hu hp hc htop hw =>
      have hgrown := length_of_grows hu hw
      cases h' with
      | rolls ha' hshape' hnumber' =>
          have hkept := length_of_map_top_eq hshape'
          omega
      | grows hv hp' hc' htop' hw' =>
          subst hu hv
          exact eq_of_grows hp hc htop hp' hc' htop' (hw.symm.trans hw')
      | moves hv hp' hc' hw' =>
          have hkept := length_of_moves hv hw'
          omega
  | moves hu hp hc hw =>
      cases h' with
      | rolls ha' hshape' hnumber' =>
          rw [hw, number_of_moves hp hc] at hnumber'
          omega
      | grows hv hp' hc' htop' hw' =>
          have hgrown := length_of_grows hv hw'
          have hkept := length_of_moves hu hw
          omega
      | moves hv hp' hc' hw' =>
          obtain ⟨rfl, hnext⟩ := List.append_inj' (hw.symm.trans hw') rfl
          rw [hu, hv, nextChar_injective (List.cons.inj hnext).1]

/-- Texts with as many characters have the same successor only if they are the same. -/
theorem succ_inj_of_length {s t : String} (h : s.length = t.length) : succ s = succ t ↔ s = t := by
  refine ⟨fun hsucc => ?_, congrArg succ⟩
  rw [← String.length_toList, ← String.length_toList] at h
  by_cases hs : s.toList = []
  · have ht : t.toList = [] := List.length_eq_zero_iff.1 (by rw [← h, hs, List.length_nil])
    exact String.toList_inj.1 (hs.trans ht.symm)
  · have ht : t.toList ≠ [] := fun ht => hs (List.length_eq_zero_iff.1 (by rw [h, ht, List.length_nil]))
    have hsame : succChars s.toList = succChars t.toList := by rw [← toList_succ, hsucc, toList_succ]
    have hadvances := advances_succChars ht
    rw [← hsame] at hadvances
    exact String.toList_inj.1 ((advances_succChars hs).left_unique hadvances h)

/-- One step of each form: the last character moves up to a digit, a digit starts over, a digit rolls on. -/
theorem succ_inj_of_length_meeting :
    (succ "*/" = "*0" ∧ succ "*9" = "*10" ∧ succ "1-" = "2-") ∧
      succ "*/" ≠ succ "*9" ∧ succ "*9" ≠ succ "1-" := by
  have hfirst : succ "*/" = succ "*9" ↔ "*/" = "*9" := succ_inj_of_length (by decide)
  have hsecond : succ "*9" = succ "1-" ↔ "*9" = "1-" := succ_inj_of_length (by decide)
  exact ⟨by decide, hfirst.not.2 (by decide), hsecond.not.2 (by decide)⟩

example : succ "9" = succ "09" := by decide

end Injectivity

section Standings

variable {c : Char} {u v : List Char}

/-- How far counting has come. Texts without letters and digits come first, by what is left for their last
character. Then the number of characters counts, and among texts with as many the number that they form. -/
def standing (u : List Char) : Nat ×ₗ Nat :=
  if u.any isAlnum then toLex (u.length, number u)
  else toLex (0, u.getLast?.elim 0 fun c => 0x10ffff - remaining c)

theorem standing_of_alnum (h : u.any isAlnum = true) : standing u = toLex (u.length, number u) := if_pos h

theorem standing_append {p : List Char} (hp : p.any isAlnum = false) (hc : isAlnum c = false) :
    standing (p ++ [c]) = toLex (0, 0x10ffff - remaining c) := by
  have ha : ¬ (p ++ [c]).any isAlnum = true := by simp [hp, hc]
  rw [standing, if_neg ha, List.getLast?_concat]
  rfl

theorem remaining_le (c : Char) : remaining c ≤ 0x10ffff := by
  unfold remaining
  split <;> omega

/-- Every step goes up, also where the order of texts goes down. -/
theorem Advances.standing_lt (h : Advances u v) : standing u < standing v := by
  cases h with
  | rolls ha hshape hnumber =>
      have ha' : v.any isAlnum = true := (any_isAlnum_of_map_top_eq hshape).trans ha
      rw [standing_of_alnum ha, standing_of_alnum ha', Prod.Lex.toLex_lt_toLex]
      exact .inr ⟨(length_of_map_top_eq hshape).symm, by omega⟩
  | grows hu hp hc htop hv =>
      have ha : u.any isAlnum = true := by simp [hu, hc]
      have ha' : v.any isAlnum = true := by simp [hv, isAlnum_lead hc]
      have hlen := length_of_grows hu hv
      rw [standing_of_alnum ha, standing_of_alnum ha', Prod.Lex.toLex_lt_toLex]
      exact .inl (by omega)
  | @moves p c hu hp hc hv =>
      rw [hu, hv, standing_append hp hc]
      cases hn : isAlnum (nextChar c) with
      | true =>
          rw [standing_of_alnum (by simp [hn]), Prod.Lex.toLex_lt_toLex]
          exact .inl (by simp)
      | false =>
          have hless := remaining_nextChar hc
          have hle := remaining_le c
          rw [standing_append hp hn, Prod.Lex.toLex_lt_toLex]
          exact .inr ⟨rfl, by omega⟩

theorem Advances.ne_nil (h : Advances u v) : v ≠ [] := by
  rintro rfl
  cases h with
  | rolls ha hshape hnumber => simp [number] at hnumber
  | grows hu hp hc htop hv => simp at hv
  | moves hu hp hc hv => simp at hv

theorem iterate_succChars_ne_nil (h : u ≠ []) (n : Nat) : succChars^[n] u ≠ [] := by
  induction n with
  | zero => exact h
  | succ n ih =>
      rw [Function.iterate_succ_apply']
      exact (advances_succChars ih).ne_nil

theorem strictMono_standing (h : u ≠ []) : StrictMono fun n => standing (succChars^[n] u) := by
  refine strictMono_nat_of_lt_succ fun n => ?_
  rw [Function.iterate_succ_apply']
  exact (advances_succChars (iterate_succChars_ne_nil h n)).standing_lt

theorem iterate_succ_injective {s : String} (hs : s ≠ "") : Function.Injective fun n => succ^[n] s := by
  intro m n h
  have hlist : succChars^[m] s.toList = succChars^[n] s.toList := by
    rw [← toList_iterate_succ, ← toList_iterate_succ]
    exact congrArg String.toList h
  have hnil : s.toList ≠ [] := fun hnil => hs (String.toList_eq_nil_iff.1 hnil)
  exact (strictMono_standing hnil).injective (congrArg standing hlist)

end Standings

end Text

namespace Course

variable {ι α : Type} {fail : Error → α} {t : Course ι α} {calls : List (ι × Except Error Unit)}

theorem Admits.event_eq (h : t.Admits fail calls) (i : Nat) (hi : i < calls.length) :
    t.event i = .inl calls[i].1 := by
  have hok : ∀ c ∈ Stepwise.succeeding calls, c.2 = .ok () := by
    intro c hc
    obtain ⟨b, -, rfl⟩ := List.mem_map.1 hc
    rfl
  have hlen : i < (Stepwise.succeeding calls).length := by simpa [Stepwise.succeeding] using hi
  simpa [Stepwise.succeeding] using h.succeeding.event_of_succeed hok i hlen

theorem Admits.map_fst_eq (h : t.Admits fail calls) {f : Nat → ι} (hf : ∀ i, t.event i = .inl (f i)) :
    calls.map Prod.fst = (List.range calls.length).map f := by
  refine List.ext_getElem (by simp) fun i hi hi' => ?_
  have hevent := h.event_eq i (by simpa using hi)
  rw [hf] at hevent
  simpa using (Sum.inl.inj hevent).symm

end Course

namespace Value

open Steppable

theorem event_course_str_endless (s : String) (excludeEnd : Bool) (i : Nat) :
    (course next (.str s) none excludeEnd).event i = .inl (.str (Text.succ^[i] s)) := by
  have hcourse (s : String) : course next (.str s) none excludeEnd =
      .cons (.str s) (course next (.str (Text.succ s)) none excludeEnd) := course_of_below (by simp) rfl
  induction i generalizing s with
  | zero =>
      rw [hcourse]
      rfl
  | succ i ih =>
      rw [hcourse, Course.event_cons_succ, ih]
      rfl

end Value

namespace Range

theorem follows_source {r : Range} {source : Producer} (h : source = r.each.body ∨ source = r.eachCall) :
    Follows .error source.run (r.course.map (fun v => [v]) (Except.map fun _ => r.toValue)) := by
  obtain rfl | rfl := h
  · exact r.follows_each []
  · exact r.follows_eachCall

theorem event_course_text_endless (s : String) (excludeEnd : Bool) (i : Nat) :
    (course ⟨.str s, .nil, excludeEnd⟩).event i = .inl (.str (Text.succ^[i] s)) :=
  Value.event_course_str_endless s excludeEnd i

theorem goesOn_text_endless (s : String) (excludeEnd : Bool) : GoesOn ⟨.str s, .nil, excludeEnd⟩ := by
  refine goesOn_of_not_ends (Course.ends_map.not.2 ?_)
  rintro ⟨n, a, hn⟩
  rw [event_course_text_endless] at hn
  cases hn

end Range

/-- No text but the empty one comes back in counting up: the texts after different numbers of steps differ. Take
the range without end from such a text. With a block that never fails it goes on for ever, and every block that
keeps the built-in methods is called for the text, its successor and so on, and so never twice for the same
element. -/
theorem Text.succ_never_cycles {s : String} (hs : s ≠ "") :
    (∀ m n, m < n → succ^[m] s ≠ succ^[n] s) ∧
    ∀ (excludeEnd : Bool) (r : Range), Range.make (.str s) .nil excludeEnd = .ok r →
      r.GoesOn ∧
      ∀ (source : Producer), source = r.each.body ∨ source = r.eachCall →
        ∀ (ι σ : Type) (block : σ → List Value → Routine ι (σ × Except Error Unit)) (q : σ) (w : Session),
          KeepsMethods block → w.methods = .builtin →
          ∀ calls d q' v, Calls block source.run q w calls d q' v →
            calls.map Prod.fst = ((List.range calls.length).map fun i => [.str (succ^[i] s)]) ∧
              (calls.map Prod.fst).Nodup := by
  have hinj := iterate_succ_injective hs
  refine ⟨fun m n hmn h => Nat.ne_of_lt hmn (hinj h), fun excludeEnd r hr => ?_⟩
  obtain rfl := Range.eq_of_make hr
  refine ⟨Range.goesOn_text_endless s excludeEnd, fun source hsource ι σ block q w hblock hw => ?_⟩
  intro calls d q' v hcalls
  obtain ⟨-, hadmits, -⟩ := (Range.follows_source hsource).of_calls_keep hblock hw hcalls
  have hargs : calls.map Prod.fst = (List.range calls.length).map fun i => [.str (succ^[i] s)] := by
    refine hadmits.map_fst_eq fun i => ?_
    exact congrArg (Sum.map (fun v => [v]) _) (Range.event_course_text_endless s excludeEnd i)
  refine ⟨hargs, ?_⟩
  rw [hargs]
  refine List.nodup_range.map fun i j h => hinj ?_
  exact Value.str.inj (List.cons.inj h).1

theorem Text.succ_never_cycles_from_last :
    let s := String.singleton (Char.ofNat 0x10ffff)
    let r : Range := ⟨.str s, .nil, false⟩
    let block (n : Nat) (_ : List Value) : Routine Empty (Nat × Except Error Unit) := .pure (n + 1, .ok ())
    s ≠ "" ∧ (succ s).toList = [Char.ofNat 0] ∧ succ^[2] s ≠ succ^[2000000] s ∧
      ∃ calls d n v, Calls block r.eachCall.run 0 .start calls d n v ∧ calls.length = 2000000 ∧
        (calls.map Prod.fst).Nodup := by
  intro s r block
  have hs : s ≠ "" := by decide
  have hblock : Succeeds block := fun s x w hw => ⟨_, w, reaches_pure.2 ⟨rfl, rfl⟩, hw⟩
  obtain ⟨hdiffer, hrange⟩ := Text.succ_never_cycles hs
  obtain ⟨hgoes, hcalls⟩ := hrange false r rfl
  obtain ⟨calls, d, n, v, hmade, hlen⟩ := (hgoes Empty Nat block 0 .start hblock rfl).1 2000000
  refine ⟨hs, by decide, hdiffer _ _ (by decide), calls, d, n, v, hmade, hlen, ?_⟩
  exact (hcalls _ (.inr rfl) Empty Nat block 0 .start hblock.keepsMethods rfl calls d n v hmade).2

end Stepwise
