import Stepwise.Proofs.Printing
import Stepwise.Proofs.Stopping
import Stepwise.Proofs.TextOrder

namespace Stepwise

open Routine

namespace Steppable

variable {τ : Type} [Steppable τ] {next : τ → Except Error τ} {v v' last : τ} {excludeEnd : Bool}

theorem ends_course_of_error {err : Error} (h : compare v last = some .lt) (hv : next v = .error err) :
    (course next v (some last) excludeEnd).Ends := by
  have hbelow : ∀ l ∈ some last, compare v l = some .lt := by simpa using h
  rw [course_of_below_error hbelow hv, Course.ends_cons]
  exact Course.ends_done _

theorem ends_course_of_not_lt (h : compare v last ≠ some .lt) :
    (course next v (some last) excludeEnd).Ends := by
  cases hc : compare v last with
  | none =>
      rw [course_of_none hc]
      exact Course.ends_done _
  | some o =>
      cases o with
      | lt => exact absurd hc h
      | eq =>
          rw [course_of_eq hc]
          exact Course.ends_ofList _ _
      | gt =>
          rw [course_of_gt hc]
          exact Course.ends_done _

end Steppable

namespace Value

open Steppable

theorem ends_course_int (n : Int64) (last : Value) (excludeEnd : Bool) :
    (course next (.int n) (some last) excludeEnd).Ends := by
  have hn := n.toInt_le
  obtain ⟨k, hk⟩ := Int.eq_ofNat_of_zero_le (Int.sub_nonneg.2 hn)
  clear hn
  induction k generalizing n with
  | zero =>
      by_cases hlt : Steppable.compare (.int n) last = some .lt
      · have hmax : n = Int64.maxValue := Int64.toInt_inj.1 (by omega)
        have hv : next (.int n) = .error (.overflow (integerText n)) := by
          rw [next, integerSucc, if_pos hmax]
          rfl
        exact ends_course_of_error hlt hv
      · exact ends_course_of_not_lt hlt
  | succ k ih =>
      by_cases hlt : Steppable.compare (.int n) last = some .lt
      · have hmax : n ≠ Int64.maxValue := by
          rintro rfl
          omega
        have hv : next (.int n) = .ok (.int (n + 1)) := by
          rw [next, integerSucc, if_neg hmax]
          rfl
        rw [course_of_lt hlt hv, Course.ends_cons]
        refine ih (n + 1) ?_
        rw [Integer.toInt_add_one hmax]
        omega
      · exact ends_course_of_not_lt hlt

theorem course_str_of_lt {s t : String} (h : s < t) (excludeEnd : Bool) :
    course next (.str s) (some (.str t)) excludeEnd =
      .cons (.str s) (course next (.str (Text.succ s)) (some (.str t)) excludeEnd) :=
  course_of_lt (compare_str_lt_iff.2 h) rfl

theorem ends_course_str_iff {s t : String} {excludeEnd : Bool} :
    (course next (.str s) (some (.str t)) excludeEnd).Ends ↔ Text.Attains s t := by
  rw [← Text.exists_not_iterate_lt_iff]
  constructor
  · rintro ⟨k, a, hk⟩
    induction k generalizing s with
    | zero =>
        refine ⟨0, fun hlt => ?_⟩
        have hlt : s < t := hlt
        rw [course_str_of_lt hlt] at hk
        simp at hk
    | succ k ih =>
        by_cases hlt : s < t
        · rw [course_str_of_lt hlt] at hk
          obtain ⟨n, hn⟩ := ih hk
          exact ⟨n + 1, hn⟩
        · exact ⟨0, hlt⟩
  · rintro ⟨n, hn⟩
    induction n generalizing s with
    | zero => exact ends_course_of_not_lt (compare_str_lt_iff.not.2 hn)
    | succ n ih =>
        by_cases hlt : s < t
        · rw [course_str_of_lt hlt, Course.ends_cons]
          exact ih hn
        · exact ends_course_of_not_lt (compare_str_lt_iff.not.2 hlt)

end Value

namespace Range

def textEnds : Range → Option (String × String)
  | ⟨.str s, .str t, _⟩ => some (s, t)
  | _ => none

/-- Whether counting up from the first value is over at some point. From a text to a text it may never
meet or pass the last one. -/
def Attains (r : Range) : Prop := ∀ ends ∈ r.textEnds, Text.Attains ends.1 ends.2

instance (r : Range) : Decidable r.Attains :=
  inferInstanceAs (Decidable (∀ ends ∈ r.textEnds, Text.Attains ends.1 ends.2))

theorem attains_of_textEnds {r : Range} (h : r.textEnds = none) : r.Attains := by
  simp [Attains, h]

theorem attains_text_iff (s t : String) (excludeEnd : Bool) :
    Attains ⟨.str s, .str t, excludeEnd⟩ ↔ Text.Attains s t := by
  simp [Attains, textEnds]

theorem ends_course_iff {r : Range} (hlast : r.last ≠ .nil) : r.course.Ends ↔ r.Attains := by
  obtain ⟨first, last, excludeEnd⟩ := r
  have hl : Range.last? ⟨first, last, excludeEnd⟩ = some last := by
    cases last with
    | nil => exact absurd rfl hlast
    | _ => rfl
  rw [course, hl]
  cases first with
  | int n =>
      exact iff_of_true (Value.ends_course_int n last excludeEnd) (attains_of_textEnds rfl)
  | str s =>
      cases last with
      | str t => exact Value.ends_course_str_iff.trans (attains_text_iff s t excludeEnd).symm
      | _ =>
          refine iff_of_true (Steppable.ends_course_of_not_lt ?_) (attains_of_textEnds rfl)
          simp [Steppable.compare, Value.compare]
  | _ => exact iff_of_true (Course.ends_done _) (attains_of_textEnds rfl)

theorem ends_callCourse_iff {r : Range} (hlast : r.last ≠ .nil) :
    (callCourse r.toValue "each" []).Ends ↔ r.Attains := by
  rw [← ends_course_iff hlast]
  exact Course.ends_map

def eachCall (r : Range) : Producer := Attempt.invoke r.toValue "each" []

theorem follows_eachCall (r : Range) :
    Follows .error r.eachCall.run (callCourse r.toValue "each" []) :=
  follows_call r.toValue "each" [] (by simp [Range.toValue, IterationCall, iterationNames])

/-- With the built-in methods and a block that never fails, `each` returns after at most so many calls
of the block. -/
def ReturnsWithin (r : Range) (bound : Nat) : Prop :=
  ∀ (ι σ : Type) (block : σ → List Value → Routine ι (σ × Except Error Unit)) (s : σ) (w : Session),
    Succeeds block → w.methods = .builtin →
      ∃ calls d s' v result w', Calls block r.eachCall.run s w calls d s' v ∧
        calls.length ≤ bound ∧ d.Reaches v (.done result) w' ∧
        (r.eachCall.withBlock s block).Reaches w (.done (s', result)) w'

/-- With the built-in methods and a block that never fails, the block is called again and again, and
`each` does not return. -/
def GoesOn (r : Range) : Prop :=
  ∀ (ι σ : Type) (block : σ → List Value → Routine ι (σ × Except Error Unit)) (s : σ) (w : Session),
    Succeeds block → w.methods = .builtin →
      (∀ n, ∃ calls d s' v, Calls block r.eachCall.run s w calls d s' v ∧ calls.length = n) ∧
      ∀ q w', ¬ (r.eachCall.withBlock s block).Reaches w (.done q) w'

/-- With the built-in methods and a block that never fails, `each` calls the block for these elements, one
after another, and returns the range. -/
def Yields (r : Range) (vs : List Value) : Prop :=
  ∀ (ι σ : Type) (block : σ → List Value → Routine ι (σ × Except Error Unit)) (s : σ) (w : Session),
    Succeeds block → w.methods = .builtin →
      ∃ s' v, Completes block r.eachCall.run s w (vs.map fun v => ([v], .ok ())) s' (.ok r.toValue) v

theorem yields_of_course {r : Range} {vs : List Value} (h : r.course = .ofList vs (.ok ())) :
    r.Yields vs := by
  intro ι σ block s w hblock hw
  refine (r.follows_eachCall.exists_completes_iff_ofList hblock hw).2 ⟨vs.map fun v => [v], ?_, ?_⟩
  · change r.course.map _ _ = _
    rw [h, Course.map_ofList]
    rfl
  · rw [List.map_map]
    rfl

theorem GoesOn.not_returnsWithin {r : Range} (h : r.GoesOn) (bound : Nat) :
    ¬ r.ReturnsWithin bound := by
  intro hr
  have hblock : Succeeds fun (s : Unit) (_ : List Value) => (.pure (s, .ok ()) : Routine Empty _) :=
    fun s x w hw => ⟨s, w, reaches_pure.2 ⟨rfl, rfl⟩, hw⟩
  obtain ⟨calls, d, s', v, result, w', -, -, -, hd⟩ := hr Empty Unit _ () .start hblock rfl
  exact (h Empty Unit _ () .start hblock rfl).2 _ w' hd

theorem exists_returnsWithin {r : Range} (hlast : r.last ≠ .nil) (h : r.Attains) :
    ∃ bound, r.ReturnsWithin bound := by
  obtain ⟨xs, a, hxs⟩ := ((ends_callCourse_iff hlast).2 h).eq_ofList
  refine ⟨xs.length, fun ι σ block s w hblock hw => ?_⟩
  obtain ⟨calls, d, s', v, w', hcalls, hd, hlen⟩ :=
    r.follows_eachCall.exists_calls_of_ends hblock hw hxs s
  refine ⟨calls, d, s', v, a, w', hcalls, Nat.le_of_eq hlen, hd, ?_⟩
  exact reaches_drive_done.2 ⟨calls, d, s', v, a, w', hcalls, hd, reaches_pure.2 ⟨rfl, rfl⟩⟩

theorem goesOn_of_not_ends {r : Range} (h : ¬ (callCourse r.toValue "each" []).Ends) : r.GoesOn := by
  refine fun ι σ block s w hblock hw => ⟨fun n => ?_, fun q w' hq => ?_⟩
  · exact r.follows_eachCall.exists_calls_of_not_ends hblock hw h n s
  · obtain ⟨calls, d, s', v, b, v', hcalls, hd, -⟩ := reaches_drive_done.1 hq
    exact h (r.follows_eachCall.ends_of_calls hblock hw hcalls hd)

theorem goesOn_of_not_attains {r : Range} (hlast : r.last ≠ .nil) (h : ¬ r.Attains) : r.GoesOn :=
  goesOn_of_not_ends ((ends_callCourse_iff hlast).not.2 h)

theorem exists_returnsWithin_iff {r : Range} (hlast : r.last ≠ .nil) :
    (∃ bound, r.ReturnsWithin bound) ↔ r.Attains := by
  refine ⟨fun ⟨bound, hr⟩ => ?_, exists_returnsWithin hlast⟩
  by_contra h
  exact (goesOn_of_not_attains hlast h).not_returnsWithin bound hr

theorem goesOn_iff {r : Range} (hlast : r.last ≠ .nil) : r.GoesOn ↔ ¬ r.Attains := by
  refine ⟨fun hg h => ?_, goesOn_of_not_attains hlast⟩
  obtain ⟨bound, hr⟩ := exists_returnsWithin hlast h
  exact hg.not_returnsWithin bound hr

end Range

theorem Range.eq_of_make {first last : Value} {excludeEnd : Bool} {r : Range}
    (h : Range.make first last excludeEnd = .ok r) : r = ⟨first, last, excludeEnd⟩ := by
  rw [Range.make] at h
  split at h
  · cases h
  · exact (Except.ok.inj h).symm

theorem Program.exists_run_each_iff {first : String} {last? : Option String} {exclusive : Bool}
    {mode : Mode} {r : Range} (hr : Call.each first last? exclusive = .ok ⟨r.toValue, "each", []⟩)
    (hmode : ∀ k, mode ≠ .lazy (some k)) (hlast : r.last ≠ .nil) (color : Color)
    (log? : Option String) :
    (∃ n o, run n ⟨.each first last? exclusive mode, color⟩ log? = some o) ↔ r.Attains := by
  have hprint : Command.print (.each first last? exclusive mode) =
      Call.run ⟨r.toValue, "each", []⟩ mode := by rw [Command.print, hr, Call.print]
  rw [exists_run_iff, hprint, Call.finishes_run_each_iff r hmode (session_methods log?)
    (session_externals log?) ((Call.checkBounded_each_iff hmode).2 hlast)]
  exact Range.ends_callCourse_iff hlast

/-- Take a range with an end. If its ends are not both texts, or the last text is met or passed in
counting up from the first, `each` returns, and there is a bound on the number of calls that holds for
every block that never fails. Else such a block is called without end. The program ends on the same
ranges, in every mode without a bound that admits the range. -/
theorem Range.bounded_each_ends_iff :
    (∀ (first last : Value) (excludeEnd : Bool) (r : Range),
      Range.make first last excludeEnd = .ok r → last ≠ .nil →
      ((∃ bound, r.ReturnsWithin bound) ↔ r.Attains) ∧ (r.GoesOn ↔ ¬ r.Attains)) ∧
    ∀ (first : String) (last? : Option String) (exclusive : Bool) (mode : Mode) (c : Call)
      (color : Color) (log? : Option String), Call.each first last? exclusive = .ok c →
      c.checkBounded mode = .ok () → (∀ k, mode ≠ .lazy (some k)) →
      ∃ r : Range, c = ⟨r.toValue, "each", []⟩ ∧
        ((∃ n o, Program.run n ⟨.each first last? exclusive mode, color⟩ log? = some o) ↔
          r.Attains) := by
  refine ⟨fun first last excludeEnd r hr hlast => ?_, ?_⟩
  · have hl : r.last ≠ .nil := by rwa [Range.eq_of_make hr]
    exact ⟨exists_returnsWithin_iff hl, goesOn_iff hl⟩
  · intro first last? exclusive mode c color log? hc hb hmode
    obtain ⟨r, -, rfl⟩ := Call.each_eq_ok_iff.1 hc
    have hlast := (Call.checkBounded_each_iff hmode).1 hb
    exact ⟨r, rfl, Program.exists_run_each_iff hc hmode hlast color log?⟩

/-- All capital letters come before the small ones, so from `Z` on no text passes `a`. -/
theorem Range.bounded_each_ends_letters :
    let r : Range := ⟨.str "a", .str "zz", false⟩
    let r' : Range := ⟨.str "Z", .str "a", true⟩
    (∃ bound, r.ReturnsWithin bound) ∧ r'.GoesOn ∧
      ∃ n o, Program.run n ⟨.each "a" (some "zz") false (.lazy none), .auto⟩ none = some o := by
  intro r r'
  obtain ⟨hrange, hprogram⟩ := bounded_each_ends_iff
  refine ⟨(hrange (.str "a") (.str "zz") false r rfl nofun).1.2 (by decide), ?_, ?_⟩
  · exact (hrange (.str "Z") (.str "a") true r' rfl nofun).2.2 (by decide)
  · obtain ⟨⟨first, last, excludeEnd⟩, hr, h⟩ := hprogram "a" (some "zz") false (.lazy none)
      ⟨r.toValue, "each", []⟩ .auto none rfl rfl nofun
    cases hr
    exact h.2 (by decide)

/-- The empty text is its own successor. -/
theorem Range.each_from_empty_goes_on :
    let r : Range := ⟨.str "", .str "a", false⟩
    Range.make (.str "") (.str "a") false = .ok r ∧ (¬ ∃ bound, r.ReturnsWithin bound) ∧ r.GoesOn ∧
      ∀ n, Program.run n ⟨.each "" (some "a") false .eager, .auto⟩ none = none := by
  intro r
  have hlast : r.last ≠ .nil := nofun
  have hr : ¬ r.Attains := by decide
  refine ⟨rfl, (exists_returnsWithin_iff hlast).not.2 hr, goesOn_of_not_attains hlast hr, ?_⟩
  have hrun : ¬ ∃ n o, Program.run n ⟨.each "" (some "a") false .eager, .auto⟩ none = some o :=
    (Program.exists_run_each_iff (r := r) rfl (by simp) hlast .auto none).not.2 hr
  simpa [Option.eq_none_iff_forall_ne_some] using hrun

end Stepwise
