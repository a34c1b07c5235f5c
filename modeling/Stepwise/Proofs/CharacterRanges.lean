import Mathlib.Data.List.Sort
import Stepwise.Proofs.SuccessorOrbits
import Stepwise.Proofs.TextShapes

namespace Stepwise

open Routine Steppable

namespace Text

variable {c d : Char} {us : List Char}

theorem isChain_charSucc (h : us.IsChain fun u v => charSucc u = .ok v) :
    us.IsChain fun u v => u < v ∧ nextChar u = v :=
  h.imp fun _ _ huv => ⟨(charSucc_eq_ok_iff.1 huv).1, nextChar_of_charSucc huv⟩

theorem exists_begins_charSucc (h : c ≤ d) :
    ∃ us, Begins (orbit charSucc c) us ∧ orbit charSucc c us.length = .ok d ∧
      ∀ u, u ∈ us ↔ c ≤ u ∧ u < d := by
  -- the codes of neighbours differ by more than one at the gap, so the induction is a strong one
  generalize hcount : d.toNat - c.toNat = count
  induction count using Nat.strong_induction_on generalizing c with
  | _ count ih =>
      obtain rfl | hlt := h.eq_or_lt
      · exact ⟨[], rfl, rfl, fun u => iff_of_false List.not_mem_nil fun hu => hu.1.not_gt hu.2⟩
      · have hc : c ≠ lastChar := (hlt.trans_le (le_lastChar d)).ne
        obtain ⟨hnext, hleast⟩ := nextChar_of_ne hc
        have hdec := lt_iff_toNat_lt.1 hnext
        have hle := le_iff_toNat_le.1 (hleast d hlt)
        obtain ⟨us, hbegins, hend, hmem⟩ := ih _ (by omega) (hleast d hlt) rfl
        have horbit := orbit_succ (charSucc_of_ne hc)
        refine ⟨c :: us, begins_cons.2 ⟨rfl, ?_⟩, ?_, fun u => ?_⟩
        · simpa only [horbit] using hbegins
        · rw [List.length_cons, horbit, hend]
        · rw [List.mem_cons, hmem]
          constructor
          · rintro (rfl | ⟨hu, hd⟩)
            · exact ⟨le_rfl, hlt⟩
            · exact ⟨hnext.le.trans hu, hd⟩
          · rintro ⟨hu, hd⟩
            obtain rfl | hu := hu.eq_or_lt
            · exact .inl rfl
            · exact .inr ⟨hleast u hu, hd⟩

theorem mem_snoc_iff (hle : c ≤ d) (hmem : ∀ u, u ∈ us ↔ c ≤ u ∧ u < d) (u : Char) :
    u ∈ us ++ [d] ↔ c ≤ u ∧ u ≤ d := by
  rw [List.mem_append, hmem, List.mem_singleton]
  constructor
  · rintro (⟨hu, hd⟩ | rfl)
    · exact ⟨hu, hd.le⟩
    · exact ⟨hle, le_rfl⟩
  · rintro ⟨hu, hd⟩
    obtain rfl | hd := hd.eq_or_lt
    · exact .inr rfl
    · exact .inl ⟨hu, hd⟩

theorem exists_ends_charSucc (c : Char) (last? : Option Char) (excludeEnd : Bool) :
    ∃ us, Begins (orbit charSucc c) us ∧
      (∀ u, u ∈ us ↔ c ≤ u ∧ ∀ d ∈ last?, if excludeEnd then u < d else u ≤ d) ∧
      Ends (orbit charSucc c) last? excludeEnd us
        (if last?.isNone then .error (.overflow (Quoted.char lastChar)) else .ok ()) := by
  cases last? with
  | none =>
      obtain ⟨us, hbegins, hend, hmem⟩ := exists_begins_charSucc (le_lastChar c)
      have hall := hbegins.snoc hend
      refine ⟨us ++ [lastChar], hall, fun u => ?_, us ++ [lastChar], [], by simp, hall, by simp [Below], ?_⟩
      · simpa [le_lastChar] using mem_snoc_iff (le_lastChar c) hmem u
      · have hover : orbit charSucc c (us ++ [lastChar]).length = .error (.overflow (Quoted.char lastChar)) := by
          rw [List.length_append, List.length_singleton, orbit, hend]
          exact charSucc_lastChar
        rw [hover]
        exact .failed _
  | some d =>
      obtain hlt | hle := lt_or_ge d c
      · refine ⟨[], rfl, fun u => iff_of_false List.not_mem_nil fun hu => ?_, [], [], rfl, rfl, by simp, ?_⟩
        · have hud : u ≤ d := by
            have hd := hu.2 d rfl
            split at hd
            · exact hd.le
            · exact hd
          exact hlt.not_ge (hu.1.trans hud)
        · exact .past rfl (congrArg some (Nat.compare_eq_gt.2 (lt_iff_toNat_lt.1 hlt)))
      · obtain ⟨us, hbegins, hend, hmem⟩ := exists_begins_charSucc hle
        have hbelow : ∀ u ∈ us, Below (some d) u := by
          rintro u hu _ ⟨⟩
          exact congrArg some (Nat.compare_eq_lt.2 (lt_iff_toNat_lt.1 ((hmem u).1 hu).2))
        have hmet : Halts (some d) excludeEnd (orbit charSucc c us.length) (if excludeEnd then [] else [d])
            (.ok ()) := by
          rw [hend]
          exact .met rfl (congrArg some (Nat.compare_eq_eq.2 rfl))
        refine ⟨us ++ if excludeEnd then [] else [d], ?_, fun u => ?_, us, _, rfl, hbegins, hbelow, hmet⟩
        · cases excludeEnd with
          | true => simpa using hbegins
          | false => simpa using hbegins.snoc hend
        · cases excludeEnd with
          | true => simpa using hmem u
          | false => simpa using mem_snoc_iff hle hmem u

theorem mem_map_toNat_iff {P : Nat → Prop} (hmem : ∀ u, u ∈ us ↔ P u.toNat) (n : Nat) :
    n ∈ us.map Char.toNat ↔ n.isValidChar ∧ P n := by
  rw [List.mem_map]
  constructor
  · rintro ⟨u, hu, rfl⟩
    exact ⟨u.valid, (hmem u).1 hu⟩
  · rintro ⟨hn, hp⟩
    refine ⟨Char.ofNat n, (hmem _).2 ?_, toNat_ofNat hn⟩
    rwa [toNat_ofNat hn]

/-- Stepping from a character to a last one, with a block that never fails, comes to a good end. The calls are
for all scalar values between them, in ascending order, with the last one unless the end is excluded. Without
a last one they are for all scalar values from the first on, and then stepping fails for want of more. The
character that comes after another one is the one that a text without letters and digits is moved up by. -/
theorem stepRange_char_scalars {ι σ : Type} {block : σ → Char → Routine ι (σ × Except Error Unit)}
    (hblock : ∀ s u w, ∃ s' w', (block s u).Reaches w (.done (s', .ok ())) w') (c : Char)
    (last? : Option Char) (excludeEnd : Bool) (s : σ) (w : Session) :
    ∃ us : List Char, us.Pairwise (· < ·) ∧ us.IsChain (fun u v => nextChar u = v) ∧
      (∀ n, n ∈ us.map Char.toNat ↔ n.isValidChar ∧ c.toNat ≤ n ∧
        ∀ d ∈ last?, if excludeEnd then n < d.toNat else n ≤ d.toNat) ∧
      ∃ s' w', Completes block (stepRange c last? excludeEnd).run s w (us.map fun u => (u, .ok ())) s'
        (if last?.isNone then .error (.overflow (Quoted.char lastChar)) else .ok ()) w' := by
  obtain ⟨us, hbegins, hmem, hends⟩ := exists_ends_charSucc c last? excludeEnd
  have hchain := isChain_charSucc hbegins.isChain
  refine ⟨us, (hchain.imp fun _ _ h => h.1).pairwise, hchain.imp fun _ _ h => h.2,
    mem_map_toNat_iff hmem, ?_⟩
  have hasked : (respondsToSucc c).Reaches w (.done true) w := reaches_pure.2 ⟨rfl, rfl⟩
  have hsucc (x : Char) (v : Session) : (Steppable.succ x).run.Reaches v (.done (charSucc x)) v :=
    reaches_pure.2 ⟨rfl, rfl⟩
  obtain ⟨u, -, hcomes⟩ := stepRange_comesTo hasked last? excludeEnd
  have hascends : Ascends block (orbit charSucc c) s u :=
    ascends_orbit (P := fun _ => True) (fun x v _ => ⟨v, hsucc x v, trivial⟩)
      (fun s x v _ => by simpa using hblock s x v) trivial c s
  exact (hascends.exists_completes_iff hcomes).2 ⟨us, hends, rfl⟩

theorem stepRange_char_scalars_over_gap :
    let block (n : Nat) (_ : Char) : Routine Empty (Nat × Except Error Unit) := .pure (n + 1, .ok ())
    (∀ n u w, ∃ n' w', (block n u).Reaches w (.done (n', .ok ())) w') ∧
      ∃ (us : List Char) (n : Nat) (w' : Session), us.map Char.toNat = [0xd7fe, 0xd7ff, 0xe000, 0xe001] ∧
        Completes block (stepRange (Char.ofNat 0xd7fe) (some (Char.ofNat 0xe001)) false).run 0 .start
          (us.map fun u => (u, .ok ())) n (.ok ()) w' := by
  intro block
  have hblock (n : Nat) (u : Char) (w : Session) : ∃ n' w', (block n u).Reaches w (.done (n', .ok ())) w' :=
    ⟨n + 1, w, reaches_pure.2 ⟨rfl, rfl⟩⟩
  obtain ⟨us, hsorted, -, hmem, n, w', hcompletes⟩ :=
    stepRange_char_scalars hblock (Char.ofNat 0xd7fe) (some (Char.ofNat 0xe001)) false 0 .start
  have hcodes : (us.map Char.toNat).Pairwise (· < ·) := hsorted.map _ fun _ _ h => lt_iff_toNat_lt.1 h
  refine ⟨hblock, us, n, w', hcodes.eq_of_mem_iff (by decide) fun k => ?_, hcompletes⟩
  have hc : (Char.ofNat 0xd7fe).toNat = 0xd7fe := rfl
  have hd : (Char.ofNat 0xe001).toNat = 0xe001 := rfl
  have hvalid : k.isValidChar ↔ k < 0xd800 ∨ 0xdfff < k ∧ k < 0x110000 := Iff.rfl
  simp only [hmem, hvalid, hc, hd, Option.mem_some_iff, forall_eq', Bool.false_eq_true, if_false,
    List.mem_cons, List.not_mem_nil, or_false]
  constructor <;> intro h <;> omega

end Text

end Stepwise
