import Mathlib.Data.List.Chain
import Stepwise.Proofs.Arrivals

namespace Stepwise

open Routine

namespace Steppable

section Sequences

variable {τ : Type} {v : Nat → Except Error τ} {x : τ} {xs : List τ}

/-- The elements from a first one on, each the successor of the one before it. -/
def orbit (next : τ → Except Error τ) (first : τ) : Nat → Except Error τ
  | 0 => .ok first
  | i + 1 => (orbit next first i).bind next

theorem orbit_succ {next : τ → Except Error τ} {x y : τ} (h : next x = .ok y) (i : Nat) :
    orbit next x (i + 1) = orbit next y i := by
  induction i with
  | zero => exact h
  | succ i ih => rw [orbit, ih, orbit]

def Begins (v : Nat → Except Error τ) (xs : List τ) : Prop := (List.range xs.length).map v = xs.map .ok

theorem begins_cons : Begins v (x :: xs) ↔ v 0 = .ok x ∧ Begins (fun i => v (i + 1)) xs := by
  rw [Begins, List.length_cons, List.range_succ_eq_map, List.map_cons, List.map_map, List.map_cons,
    List.cons_eq_cons]
  rfl

theorem Begins.snoc (h : Begins v xs) (hx : v xs.length = .ok x) : Begins v (xs ++ [x]) := by
  rw [Begins, List.length_append, List.length_singleton, List.range_succ, List.map_append, h, List.map_append,
    List.map_singleton, hx, List.map_singleton]

theorem Begins.getElem (h : Begins v xs) {i : Nat} (hi : i < xs.length) : v i = .ok xs[i] := by
  have hget : ((List.range xs.length).map v)[i]? = (xs.map .ok)[i]? := congrArg (·[i]?) h
  simpa [hi] using hget

theorem Begins.eq_of_length {ys : List τ} (h : Begins v xs) (h' : Begins v ys)
    (hlen : xs.length = ys.length) : xs = ys := by
  rw [Begins, ← hlen, h] at h'
  exact (List.map_inj_right fun _ _ => Except.ok.inj).1 h'

theorem Begins.isChain {next : τ → Except Error τ} (h : Begins (orbit next x) xs) :
    xs.IsChain fun y z => next y = .ok z := by
  refine List.isChain_iff_getElem.2 fun i hi => ?_
  have hnext : orbit next x (i + 1) = next xs[i] := by
    rw [orbit, h.getElem (by omega)]
    rfl
  rw [← hnext, h.getElem hi]

end Sequences

variable {τ ι σ : Type} [Steppable τ] {block : σ → τ → Routine ι (σ × Except Error Unit)}
  {v : Nat → Except Error τ} {first x : τ} {xs extra : List τ} {last? : Option τ} {excludeEnd : Bool}
  {r : Except Error Unit} {s : σ} {w w₀ : Session}

/-- From here on, the block does not fail, and these come up: first an element, and after each element what
`succ` gives for it in the session that the block leaves. After an error, anything may stand. -/
def Ascends (block : σ → τ → Routine ι (σ × Except Error Unit)) (v : Nat → Except Error τ) (s : σ)
    (w : Session) : Prop :=
  ∃ At : Nat → σ → Session → Prop, At 0 s w ∧ ∀ i x s w, v i = .ok x → At i s w →
    ∃ s₁ w₁ w₂, (block s x).Reaches w (.done (s₁, .ok ())) w₁ ∧
      (succ x).run.Reaches w₁ (.done (v (i + 1))) w₂ ∧ At (i + 1) s₁ w₂

theorem Ascends.step (h : Ascends block v s w) (hx : v 0 = .ok x) :
    ∃ s₁ w₁ w₂, (block s x).Reaches w (.done (s₁, .ok ())) w₁ ∧
      (succ x).run.Reaches w₁ (.done (v 1)) w₂ ∧ Ascends block (fun i => v (i + 1)) s₁ w₂ := by
  obtain ⟨At, hstart, hstep⟩ := h
  obtain ⟨s₁, w₁, w₂, hblock, hsucc, hat⟩ := hstep 0 x s w hx hstart
  exact ⟨s₁, w₁, w₂, hblock, hsucc, fun i => At (i + 1), hat, fun i => hstep (i + 1)⟩

theorem Ascends.congr (h : Ascends block v s w) (hw : w₀.unlogged = w.unlogged) :
    Ascends block v s w₀ := by
  obtain ⟨At, hstart, hstep⟩ := h
  refine ⟨fun i s u => ∃ u', At i s u' ∧ u.unlogged = u'.unlogged, ⟨w, hstart, hw⟩, ?_⟩
  rintro i x s u hx ⟨u', hat, hu⟩
  obtain ⟨s₁, w₁, w₂, hblock, hsucc, hat'⟩ := hstep i x s u' hx hat
  obtain ⟨v₁, hblock', hv₁⟩ := hblock.congr hu
  obtain ⟨v₂, hsucc', hv₂⟩ := hsucc.congr hv₁
  exact ⟨s₁, v₁, v₂, hblock', hsucc', w₂, hat', hv₂⟩

theorem ascends_orbit {P : Session → Prop} {next : τ → Except Error τ}
    (hsucc : ∀ x w, P w → ∃ w', (succ x).run.Reaches w (.done (next x)) w' ∧ P w')
    (hblock : ∀ s x w, P w → ∃ s' w', (block s x).Reaches w (.done (s', .ok ())) w' ∧ P w')
    (hw : P w) (first : τ) (s : σ) : Ascends block (orbit next first) s w := by
  refine ⟨fun _ _ w => P w, hw, fun i x s w hx hw => ?_⟩
  obtain ⟨s₁, w₁, hblock, hw₁⟩ := hblock s x w hw
  obtain ⟨w₂, hsucc, hw₂⟩ := hsucc x w₁ hw₁
  refine ⟨s₁, w₁, w₂, hblock, ?_, hw₂⟩
  rw [orbit, hx]
  exact hsucc

def Below (last? : Option τ) (x : τ) : Prop := ∀ last ∈ last?, compare x last = some .lt

/-- Where stepping is over: what it still yields there, and the result. -/
inductive Halts (last? : Option τ) (excludeEnd : Bool) : Except Error τ → List τ → Except Error Unit → Prop
  | failed (err : Error) : Halts last? excludeEnd (.error err) [] (.error err)
  | incomparable {x last : τ} (hlast : last ∈ last?) (h : compare x last = none) :
      Halts last? excludeEnd (.ok x) [] (.error (.comparisonFailed (className x) (describe last)))
  | past {x last : τ} (hlast : last ∈ last?) (h : compare x last = some .gt) :
      Halts last? excludeEnd (.ok x) [] (.ok ())
  | met {x last : τ} (hlast : last ∈ last?) (h : compare x last = some .eq) :
      Halts last? excludeEnd (.ok x) (if excludeEnd then [] else [x]) (.ok ())

theorem below_or_halts (last? : Option τ) (excludeEnd : Bool) (a : Except Error τ) :
    (∃ x, a = .ok x ∧ Below last? x) ∨ ∃ extra r, Halts last? excludeEnd a extra r := by
  cases a with
  | error err => exact .inr ⟨_, _, .failed err⟩
  | ok x =>
      cases last? with
      | none => exact .inl ⟨x, rfl, by simp [Below]⟩
      | some last =>
          cases hc : compare x last with
          | none => exact .inr ⟨_, _, .incomparable rfl hc⟩
          | some o =>
              cases o with
              | lt => exact .inl ⟨x, rfl, by simpa [Below] using hc⟩
              | eq => exact .inr ⟨_, _, .met rfl hc⟩
              | gt => exact .inr ⟨_, _, .past rfl hc⟩

theorem Halts.unique {a : Except Error τ} {extra' : List τ} {r' : Except Error Unit}
    (h : Halts last? excludeEnd a extra r) (h' : Halts last? excludeEnd a extra' r') :
    extra = extra' ∧ r = r' := by
  cases h <;> cases h' <;> simp_all

theorem Halts.not_below (h : Halts last? excludeEnd (.ok x) extra r) : ¬ Below last? x := by
  intro hb
  cases h <;> simp_all [Below]

/-- The end is excluded or not: where stepping is over and with which result is the same. What is still
yielded is at most one element, equal to the last one, and nothing if the end is excluded. -/
theorem Halts.exists_final {a : Except Error τ} (h : Halts last? excludeEnd a extra r) :
    ∃ final : List τ, final.length ≤ 1 ∧ (∀ x ∈ final, ∀ last ∈ last?, compare x last = some .eq) ∧
      ∀ excludeEnd, Halts last? excludeEnd a (if excludeEnd then [] else final) r := by
  cases h with
  | failed err => exact ⟨[], by simp, by simp, fun e => by simpa using Halts.failed err⟩
  | incomparable hlast hc => exact ⟨[], by simp, by simp, fun e => by simpa using Halts.incomparable hlast hc⟩
  | past hlast hc => exact ⟨[], by simp, by simp, fun e => by simpa using Halts.past hlast hc⟩
  | met hlast hc => exact ⟨[_], by simp, by simp_all, fun e => .met hlast hc⟩

/-- Stepping through a sequence is over after these elements, with this result: they are those below the last
one that the sequence begins with, and what is yielded where it is over. -/
def Ends (v : Nat → Except Error τ) (last? : Option τ) (excludeEnd : Bool) (xs : List τ)
    (r : Except Error Unit) : Prop :=
  ∃ below extra, xs = below ++ extra ∧ Begins v below ∧ (∀ x ∈ below, Below last? x) ∧
    Halts last? excludeEnd (v below.length) extra r

theorem exists_ends_or_begins (v : Nat → Except Error τ) (last? : Option τ) (excludeEnd : Bool) (n : Nat) :
    (∃ xs r, Ends v last? excludeEnd xs r) ∨
      ∃ xs, xs.length = n ∧ Begins v xs ∧ ∀ x ∈ xs, Below last? x := by
  induction n with
  | zero => exact .inr ⟨[], rfl, rfl, by simp⟩
  | succ n ih =>
      obtain hends | ⟨xs, rfl, hbegins, hbelow⟩ := ih
      · exact .inl hends
      · obtain ⟨x, hx, hb⟩ | ⟨extra, r, hhalts⟩ := below_or_halts last? excludeEnd (v xs.length)
        · refine .inr ⟨xs ++ [x], by simp, hbegins.snoc hx, ?_⟩
          simpa [or_imp, forall_and] using ⟨hbelow, hb⟩
        · exact .inl ⟨_, r, xs, extra, rfl, hbegins, hbelow, hhalts⟩

theorem Ends.compare_ne_gt (h : Ends v last? excludeEnd xs r) {last : τ} (hlast : last ∈ last?) :
    ∀ x ∈ xs, compare x last ≠ some .gt := by
  obtain ⟨below, extra, rfl, -, hbelow, hhalts⟩ := h
  obtain ⟨final, -, heq, hfinal⟩ := hhalts.exists_final
  obtain ⟨rfl, -⟩ := hhalts.unique (hfinal excludeEnd)
  intro x hx
  obtain hx | hx := List.mem_append.1 hx
  · simp [hbelow x hx last hlast]
  · have hmem : x ∈ final := by cases excludeEnd <;> simp_all
    simp [heq x hmem last hlast]

theorem eq_of_halts {xs' extra' : List τ} {excludeEnd' : Bool} {r' : Except Error Unit}
    (hbegins : Begins v xs) (hbelow : ∀ x ∈ xs, Below last? x)
    (hhalts : Halts last? excludeEnd (v xs.length) extra r)
    (hbegins' : Begins v xs') (hbelow' : ∀ x ∈ xs', Below last? x)
    (hhalts' : Halts last? excludeEnd' (v xs'.length) extra' r') : xs = xs' := by
  have hle {xs xs' extra : List τ} {e : Bool} {r : Except Error Unit}
      (hhalts : Halts last? e (v xs.length) extra r) (hbegins' : Begins v xs')
      (hbelow' : ∀ x ∈ xs', Below last? x) : xs'.length ≤ xs.length := by
    refine Nat.le_of_not_lt fun hlt => ?_
    rw [hbegins'.getElem hlt] at hhalts
    exact hhalts.not_below (hbelow' _ (List.getElem_mem hlt))
  exact hbegins.eq_of_length hbegins' (Nat.le_antisymm (hle hhalts' hbegins hbelow) (hle hhalts hbegins' hbelow'))

theorem exists_final (v : Nat → Except Error τ) (last : τ) :
    ∃ final : List τ, final.length ≤ 1 ∧ (∀ x ∈ final, compare x last = some .eq) ∧
      ∀ xs r, Ends v (some last) false xs r ↔ ∃ ys, xs = ys ++ final ∧ Ends v (some last) true ys r := by
  by_cases hex : ∃ xs r, Ends v (some last) false xs r
  · obtain ⟨_, r, below, extra, rfl, hbegins, hbelow, hhalts⟩ := hex
    obtain ⟨final, hlen, heq, hfinal⟩ := hhalts.exists_final
    refine ⟨final, hlen, fun x hx => heq x hx last rfl, fun xs r' => ⟨?_, ?_⟩⟩
    · rintro ⟨below', extra', rfl, hbegins', hbelow', hhalts'⟩
      obtain rfl := eq_of_halts hbegins hbelow hhalts hbegins' hbelow' hhalts'
      obtain ⟨rfl, rfl⟩ := hhalts'.unique (hfinal false)
      exact ⟨below, rfl, below, [], by simp, hbegins, hbelow, hfinal true⟩
    · rintro ⟨ys, rfl, below', extra', rfl, hbegins', hbelow', hhalts'⟩
      obtain rfl := eq_of_halts hbegins hbelow hhalts hbegins' hbelow' hhalts'
      obtain ⟨rfl, rfl⟩ := hhalts'.unique (hfinal true)
      exact ⟨below, final, by simp, hbegins, hbelow, hfinal false⟩
  · refine ⟨[], by simp, by simp, fun xs r => iff_of_false (fun h => hex ⟨xs, r, h⟩) ?_⟩
    rintro ⟨ys, rfl, below, extra, rfl, hbegins, hbelow, hhalts⟩
    obtain ⟨final, -, -, hfinal⟩ := hhalts.exists_final
    exact hex ⟨_, r, below, final, rfl, hbegins, hbelow, hfinal false⟩

section Passes

/-- Stepping from an element on, or from the failure that stands in place of it. -/
def stepFrom (last? : Option τ) (excludeEnd : Bool) : Except Error τ → Routine τ (Except Error Unit)
  | .ok x =>
    match last? with
    | none => (stepEndless x).run
    | some last => (stepTo x last excludeEnd).run
  | .error err => .pure (.error err)

theorem exists_advance_yields {β : Type} (x : τ) (w : Session) :
    ∃ k, (advance x : Attempt τ (τ ⊕ β)).run.Reaches w (.yielded x k) w ∧
      ∀ u r u', (succ x).run.Reaches u (.done r) u' → (k (.ok ())).Reaches u (.done (r.map .inl)) u' := by
  refine ⟨_, reaches_yield.2 ⟨rfl, rfl⟩, fun u r u' h => ?_⟩
  refine reaches_bind.2 ⟨_, u, reaches_pure.2 ⟨rfl, rfl⟩, reaches_bind.2 ⟨.done r, u', ?_, ?_⟩⟩
  · exact reaches_lift.2 ⟨r, h, rfl⟩
  · cases r <;> exact reaches_pure.2 ⟨rfl, rfl⟩

theorem Below.exists_yields (h : Below last? x) (excludeEnd : Bool) (w : Session) :
    ∃ l, (stepFrom last? excludeEnd (.ok x)).Reaches w (.yielded x l) w ∧
      ∀ u a u', (succ x).run.Reaches u (.done a) u' →
        (l (.ok ())).ComesTo u (stepFrom last? excludeEnd a) u' := by
  cases last? with
  | none =>
      obtain ⟨k, hk, hnext⟩ := exists_advance_yields (β := Unit) x w
      obtain ⟨l, hl, hrest⟩ := exists_tryLoop_yields (fun x => (advance x).run) hk
      refine ⟨l, hl, fun u a u' ha => ?_⟩
      have hl' := hrest (.ok ()) u _ u' (hnext u a u' ha)
      cases a <;> exact hl'
  | some last =>
      obtain ⟨k, hk, hnext⟩ := exists_advance_yields (β := τ) x w
      have hpass : (belowStep last x).run.Reaches w (.yielded x k) w := by
        rw [belowStep, ordering, h last rfl]
        exact hk
      obtain ⟨l, hl, hrest⟩ := exists_tryLoop_yields (fun x => (belowStep last x).run) hpass
      refine ⟨_, reaches_bind.2 ⟨_, w, hl, rfl, rfl⟩, fun u a u' ha => ?_⟩
      have hl' := (hrest (.ok ()) u _ u' (hnext u a u' ha)).bind
        (ExceptT.bindCont fun y => finish last excludeEnd y)
      cases a <;> exact hl'

theorem stepTo_comesTo {last : τ} {r : Except Error (τ ⊕ τ)} (excludeEnd : Bool)
    (h : (belowStep last x).run.Reaches w (.done r) w) :
    (stepTo x last excludeEnd).run.ComesTo w
      ((goOn (fun x => (belowStep last x).run) (Stage.after r)).bind
        (ExceptT.bindCont fun y => finish last excludeEnd y)) w :=
  (tryLoop_comesTo (fun x => (belowStep last x).run) h).bind _

theorem stepTo_comesTo_finish {last : τ} {o : Ordering} (hc : compare x last = some o) (ho : o ≠ .lt)
    (excludeEnd : Bool) (w : Session) :
    (stepTo x last excludeEnd).run.ComesTo w (finish last excludeEnd x).run w := by
  have hpass : (belowStep last x).run.Reaches w (.done (.ok (.inr x))) w := by
    rw [belowStep, ordering, hc]
    cases o with
    | lt => exact absurd rfl ho
    | eq => exact reaches_pure.2 ⟨rfl, rfl⟩
    | gt => exact reaches_pure.2 ⟨rfl, rfl⟩
  exact stepTo_comesTo excludeEnd hpass

theorem stepTo_reaches_incomparable {last : τ} (hc : compare x last = none) (excludeEnd : Bool) (w : Session) :
    (stepTo x last excludeEnd).run.Reaches w
      (.done (.error (.comparisonFailed (className x) (describe last)))) w := by
  have hpass : (belowStep last x).run.Reaches w
      (.done (.error (.comparisonFailed (className x) (describe last)))) w := by
    rw [belowStep, ordering, hc]
    exact reaches_pure.2 ⟨rfl, rfl⟩
  exact stepTo_comesTo excludeEnd hpass _ w (reaches_pure.2 ⟨rfl, rfl⟩)

theorem Halts.reaches_done {a : Except Error τ} (h : Halts last? excludeEnd a extra r) (hextra : extra = [])
    (w : Session) : (stepFrom last? excludeEnd a).Reaches w (.done r) w := by
  cases h with
  | failed err => exact reaches_pure.2 ⟨rfl, rfl⟩
  | incomparable hlast hc =>
      obtain rfl := hlast
      exact stepTo_reaches_incomparable hc excludeEnd w
  | past hlast hc =>
      obtain rfl := hlast
      refine stepTo_comesTo_finish hc (by decide) excludeEnd w _ w ?_
      rw [finish, ordering, hc]
      cases excludeEnd <;> exact reaches_pure.2 ⟨rfl, rfl⟩
  | met hlast hc =>
      obtain rfl := hlast
      obtain rfl : excludeEnd = true := by simpa using hextra
      exact stepTo_comesTo_finish hc (by decide) true w _ w (reaches_pure.2 ⟨rfl, rfl⟩)

theorem Halts.exists_completes {a : Except Error τ} (h : Halts last? excludeEnd a extra r)
    (hblock : ∀ x, a = .ok x → ∃ s₁ w₁, (block s x).Reaches w (.done (s₁, .ok ())) w₁) :
    ∃ s' w', Completes block (stepFrom last? excludeEnd a) s w (extra.map fun x => (x, .ok ())) s' r w' := by
  by_cases hextra : extra = []
  · rw [hextra]
    exact ⟨s, w, _, w, .none _ s w, h.reaches_done hextra w⟩
  · cases h with
    | failed err => exact absurd rfl hextra
    | incomparable hlast hc => exact absurd rfl hextra
    | past hlast hc => exact absurd rfl hextra
    | @met x last hlast hc =>
        obtain rfl := hlast
        obtain rfl : excludeEnd = false := by simpa using hextra
        obtain ⟨s₁, w₁, hanswer⟩ := hblock x rfl
        have hyield : (finish last false x).run.Reaches w (.yielded x .pure) w := by
          rw [finish, ordering, hc]
          exact reaches_yield.2 ⟨rfl, rfl⟩
        exact ⟨s₁, w₁, .pure (.ok ()), w₁,
          .call (stepTo_comesTo_finish hc (by decide) false w _ w hyield) hanswer (.none _ _ _),
          reaches_pure.2 ⟨rfl, rfl⟩⟩

end Passes

section Runs

/-- Below the last element, the elements are called for one after another, and stepping goes on from the one
after them. -/
theorem Ascends.exists_calls (h : Ascends block v s w) (hxs : Begins v xs) (hbelow : ∀ x ∈ xs, Below last? x)
    (excludeEnd : Bool) :
    ∃ d s' w' u, Calls block (stepFrom last? excludeEnd (v 0)) s w (xs.map fun x => (x, .ok ())) d s' w' ∧
      d.ComesTo w' (stepFrom last? excludeEnd (v xs.length)) u ∧
      Ascends block (fun i => v (xs.length + i)) s' u := by
  induction xs generalizing v s w with
  | nil => exact ⟨_, s, w, w, .none _ s w, .refl _ w, by simpa using h⟩
  | cons x xs ih =>
      obtain ⟨hx, hrest⟩ := begins_cons.1 hxs
      obtain ⟨hb, hbs⟩ := List.forall_mem_cons.1 hbelow
      obtain ⟨l, hyield, hnext⟩ := hb.exists_yields excludeEnd w
      obtain ⟨s₁, w₁, w₂, hanswer, hsucc, hascends⟩ := h.step hx
      obtain ⟨d, s', w', u, hcalls, hd, hu⟩ := ih hascends hrest hbs
      obtain ⟨d', v', hcalls', hd'⟩ := hcalls.of_comesTo (hnext w₁ (v 1) w₂ hsucc)
      refine ⟨d', s', v', u, ?_, hd'.trans hd, ?_⟩
      · rw [hx]
        exact .call hyield hanswer hcalls'
      · simpa only [List.length_cons, Nat.add_assoc, Nat.add_comm 1] using hu

theorem Ascends.exists_completes (h : Ascends block v s w) (hends : Ends v last? excludeEnd xs r) :
    ∃ s' w', Completes block (stepFrom last? excludeEnd (v 0)) s w (xs.map fun x => (x, .ok ())) s' r w' := by
  obtain ⟨below, extra, rfl, hbegins, hbelow, hhalts⟩ := hends
  obtain ⟨d, s₁, w₁, u, hcalls, hd, hascends⟩ := h.exists_calls hbegins hbelow excludeEnd
  have hblock (x : τ) (hx : v below.length = .ok x) :
      ∃ s₂ w₂, (block s₁ x).Reaches u (.done (s₂, .ok ())) w₂ := by
    obtain ⟨s₂, w₂, -, hanswer, -⟩ := hascends.step (by simpa using hx)
    exact ⟨s₂, w₂, hanswer⟩
  obtain ⟨s', w', hcompletes⟩ := hhalts.exists_completes hblock
  obtain ⟨e, w₂, hextra, he⟩ := hcompletes.of_comesTo hd
  refine ⟨s', w', e, w₂, ?_, he⟩
  rw [List.map_append]
  exact hcalls.append hextra

variable {c : Routine τ (Except Error Unit)} (hc : c.ComesTo w₀ (stepFrom last? excludeEnd (v 0)) w)

include hc

theorem Ascends.completes_or_calls (h : Ascends block v s w) (n : Nat) :
    (∃ xs r s' w', Ends v last? excludeEnd xs r ∧
      Completes block c s w₀ (xs.map fun x => (x, .ok ())) s' r w') ∨
    ∃ (xs : List τ) (d : Routine τ (Except Error Unit)) (s' : σ) (w' : Session), xs.length = n ∧
      (∀ x ∈ xs, Below last? x) ∧ Calls block c s w₀ (xs.map fun x => (x, .ok ())) d s' w' := by
  obtain ⟨xs, r, hends⟩ | ⟨xs, hlen, hbegins, hbelow⟩ := exists_ends_or_begins v last? excludeEnd n
  · obtain ⟨s', w', hcompletes⟩ := h.exists_completes hends
    exact .inl ⟨xs, r, s', w', hends, hcompletes.of_comesTo hc⟩
  · obtain ⟨d, s', w', u, hcalls, -⟩ := h.exists_calls hbegins hbelow excludeEnd
    obtain ⟨d', v', hcalls', -⟩ := hcalls.of_comesTo hc
    exact .inr ⟨xs, d', s', v', hlen, hbelow, hcalls'⟩

theorem Ascends.exists_completes_iff (h : Ascends block v s w) {calls : List (τ × Except Error Unit)} :
    (∃ s' w', Completes block c s w₀ calls s' r w') ↔
      ∃ xs, Ends v last? excludeEnd xs r ∧ calls = xs.map fun x => (x, .ok ()) := by
  constructor
  · rintro ⟨s', w', hcompletes⟩
    obtain ⟨xs, r', s₁, w₁, hends, hcompletes'⟩ | ⟨xs, d, s₁, w₁, hlen, -, hcalls⟩ :=
      h.completes_or_calls hc (calls.length + 1)
    · obtain ⟨hcalls, rfl, -⟩ := hcompletes.unique hcompletes'
      exact ⟨xs, hends, hcalls⟩
    · have hle := (hcalls.prefix_of_completes hcompletes).length_le
      rw [List.length_map] at hle
      omega
  · rintro ⟨xs, hends, rfl⟩
    obtain ⟨s', w', hcompletes⟩ := h.exists_completes hends
    exact ⟨s', w', hcompletes.of_comesTo hc⟩

theorem Ascends.compare_ne_gt (h : Ascends block v s w) {last : τ} (hlast : last ∈ last?)
    {calls : List (τ × Except Error Unit)} {d : Routine τ (Except Error Unit)} {s' : σ} {w' : Session}
    (hcalls : Calls block c s w₀ calls d s' w') : ∀ call ∈ calls, compare call.1 last ≠ some .gt := by
  obtain ⟨xs, hxs, hinitial⟩ : ∃ xs : List τ, (∀ x ∈ xs, compare x last ≠ some .gt) ∧
      calls <+: xs.map fun x => (x, .ok ()) := by
    obtain ⟨xs, r, s₁, w₁, hends, hcompletes⟩ | ⟨xs, d', s₁, w₁, hlen, hxs, hcalls'⟩ :=
      h.completes_or_calls hc calls.length
    · exact ⟨xs, hends.compare_ne_gt hlast, hcalls.prefix_of_completes hcompletes⟩
    · exact ⟨xs, fun x hx => by simp [hxs x hx last hlast], hcalls.prefix_of_length_le hcalls' (by simp [hlen])⟩
  intro call hcall
  obtain ⟨x, hx, rfl⟩ := List.mem_map.1 (hinitial.subset hcall)
  exact hxs x hx

end Runs

section Range

/-- The comparison before the first pass is made again in it, and has the same outcome. -/
theorem stepBounded_comesTo (first last : τ) (excludeEnd : Bool) (w : Session) :
    ∃ u, u.unlogged = w.unlogged ∧
      (stepBounded first last excludeEnd).run.ComesTo w (stepFrom (some last) excludeEnd (.ok first)) u := by
  have hto : (stepTo first last excludeEnd).run.ComesTo w (stepFrom (some last) excludeEnd (.ok first)) w :=
    .refl _ w
  rw [stepBounded, ordering]
  cases hc : compare first last with
  | none =>
      have hhalts : Halts (some last) excludeEnd (.ok first) _ _ := .incomparable rfl hc
      exact ⟨w, rfl, .of_done (reaches_pure.2 ⟨rfl, rfl⟩) (hhalts.reaches_done rfl w)⟩
  | some o =>
      cases o with
      | lt => exact ⟨w, rfl, hto⟩
      | eq => exact ⟨w, rfl, hto⟩
      | gt =>
          have hhalts : Halts (some last) excludeEnd (.ok first) _ _ := .past rfl hc
          exact ⟨w.note (.emptyRange (describe first) (describe last)), rfl,
            .of_done (reaches_note.2 (reaches_pure.2 ⟨rfl, rfl⟩)) (hhalts.reaches_done rfl _)⟩

theorem reaches_asked {responds : Bool} (hasked : (respondsToSucc first).Reaches w (.done responds) w₀) :
    (Attempt.lift (Attempt.ofRoutine (respondsToSucc first)) : Attempt τ Bool).run.Reaches w
      (.done (.ok responds)) w₀ :=
  reaches_lift.2 ⟨_, reaches_bind.2 ⟨_, w₀, hasked, reaches_pure.2 ⟨rfl, rfl⟩⟩, rfl⟩

theorem stepRange_comesTo (hasked : (respondsToSucc first).Reaches w (.done true) w₀) (last? : Option τ)
    (excludeEnd : Bool) :
    ∃ u, u.unlogged = w₀.unlogged ∧
      (stepRange first last? excludeEnd).run.ComesTo w (stepFrom last? excludeEnd (.ok first)) u := by
  have hlift := reaches_asked hasked
  cases last? with
  | none =>
      exact ⟨w₀.note (.endlessRange (describe first)), rfl,
        fun p u hp => reaches_bind.2 ⟨_, w₀, hlift, reaches_note.2 hp⟩⟩
  | some last =>
      obtain ⟨u, hu, hbounded⟩ := stepBounded_comesTo first last excludeEnd w₀
      exact ⟨u, hu, fun p z hp => reaches_bind.2 ⟨_, w₀, hlift, hbounded p z hp⟩⟩

theorem stepRange_reaches_cannotIterate (hasked : (respondsToSucc first).Reaches w (.done false) w₀)
    (last? : Option τ) (excludeEnd : Bool) :
    (stepRange first last? excludeEnd).run.Reaches w
      (.done (.error (.cannotIterate (className first)))) w₀ :=
  reaches_bind.2 ⟨_, w₀, reaches_asked hasked, reaches_pure.2 ⟨rfl, rfl⟩⟩

/-- Take any elements with a successor and an order, and a block that does not fail. If the first element does
not respond to `succ`, there is no call, and the result is that error, whatever the last element is. If it
does, the calls are for the successors from the first one on. Stepping comes to its end where one is missing
or does not compare below the last one, and what it is there decides the result and whether there is one more
call; until then, all are called for. No call is for an element that compares above the last one, and not to
exclude the end only adds one last call at most, for an element that compares equal to the last one. -/
theorem stepRange_follows_successors {responds : Bool} (hv : v 0 = .ok first)
    (hasked : (respondsToSucc first).Reaches w (.done responds) w₀)
    (h : responds = true → Ascends block v s w₀) :
    (responds = false → ∀ last? excludeEnd, ∃ w',
      Completes block (stepRange first last? excludeEnd).run s w [] s
        (.error (.cannotIterate (className first))) w') ∧
    (responds = true → ∀ last?,
      (∀ excludeEnd calls r,
        (∃ s' w', Completes block (stepRange first last? excludeEnd).run s w calls s' r w') ↔
          ∃ xs, Ends v last? excludeEnd xs r ∧ calls = xs.map fun x => (x, .ok ())) ∧
      (∀ excludeEnd xs, Begins v xs → (∀ x ∈ xs, Below last? x) → ∃ d s' w',
        Calls block (stepRange first last? excludeEnd).run s w (xs.map fun x => (x, .ok ())) d s' w') ∧
      ∀ last ∈ last?,
        (∀ excludeEnd calls d s' w',
          Calls block (stepRange first last? excludeEnd).run s w calls d s' w' →
          ∀ call ∈ calls, compare call.1 last ≠ some .gt) ∧
        ∃ final : List τ, final.length ≤ 1 ∧ (∀ x ∈ final, compare x last = some .eq) ∧ ∀ calls r,
          (∃ s' w', Completes block (stepRange first last? false).run s w calls s' r w') ↔
            ∃ calls', calls = calls' ++ final.map (fun x => (x, .ok ())) ∧
              ∃ s' w', Completes block (stepRange first last? true).run s w calls' s' r w') := by
  constructor
  · rintro rfl last? excludeEnd
    exact ⟨w₀, _, w, .none _ s w, stepRange_reaches_cannotIterate hasked last? excludeEnd⟩
  · rintro rfl last?
    have hstart (excludeEnd : Bool) : ∃ u, Ascends block v s u ∧
        (stepRange first last? excludeEnd).run.ComesTo w (stepFrom last? excludeEnd (v 0)) u := by
      obtain ⟨u, hu, hcomes⟩ := stepRange_comesTo hasked last? excludeEnd
      exact ⟨u, (h rfl).congr hu, by rwa [hv]⟩
    have hends (excludeEnd : Bool) (calls : List (τ × Except Error Unit)) (r : Except Error Unit) :
        (∃ s' w', Completes block (stepRange first last? excludeEnd).run s w calls s' r w') ↔
          ∃ xs, Ends v last? excludeEnd xs r ∧ calls = xs.map fun x => (x, .ok ()) := by
      obtain ⟨u, hascends, hcomes⟩ := hstart excludeEnd
      exact hascends.exists_completes_iff hcomes
    refine ⟨hends, fun excludeEnd xs hbegins hbelow => ?_, fun last hlast => ⟨?_, ?_⟩⟩
    · obtain ⟨u, hascends, hcomes⟩ := hstart excludeEnd
      obtain ⟨d, s', w', -, hcalls, -⟩ := hascends.exists_calls hbegins hbelow excludeEnd
      obtain ⟨d', v', hcalls', -⟩ := hcalls.of_comesTo hcomes
      exact ⟨d', s', v', hcalls'⟩
    · intro excludeEnd calls d s' w' hcalls
      obtain ⟨u, hascends, hcomes⟩ := hstart excludeEnd
      exact hascends.compare_ne_gt hcomes hlast hcalls
    · obtain rfl := hlast
      obtain ⟨final, hlen, heq, hfinal⟩ := exists_final v last
      refine ⟨final, hlen, heq, fun calls r => ?_⟩
      simp only [hends]
      constructor
      · rintro ⟨xs, hxs, rfl⟩
        obtain ⟨ys, rfl, hys⟩ := (hfinal xs r).1 hxs
        exact ⟨_, List.map_append, ys, hys, rfl⟩
      · rintro ⟨_, rfl, ys, hys, rfl⟩
        exact ⟨ys ++ final, (hfinal _ r).2 ⟨ys, rfl, hys⟩, List.map_append.symm⟩

/-- Integers are followed by a string, which has no successor. With an integer as the last element, stepping
fails at the comparison with the string; without one, only after it. -/
theorem stepRange_follows_successors_other_class :
    let w := (Session.start.define .integer "succ" (.blockless fun _ _ => pure (.str "a"))).define .string "succ"
      (.blockless fun _ _ => throw (.raised "none"))
    let v : Nat → Except Error Value
      | 0 => .ok (.int 1)
      | 1 => .ok (.str "a")
      | _ => .error (.raised "none")
    let block (n : Nat) (_ : Value) : Routine Empty (Nat × Except Error Unit) := .pure (n + 1, .ok ())
    v 0 = .ok (.int 1) ∧ (respondsToSucc (.int 1 : Value)).Reaches w (.done true) w ∧ Ascends block v 0 w ∧
      (∃ n w', Completes block (stepRange (.int 1 : Value) (some (.int 5)) false).run 0 w
        [(.int 1, .ok ())] n (.error (.comparisonFailed "String" "5")) w') ∧
      ∃ n w', Completes block (stepRange (.int 1 : Value) none false).run 0 w
        [(.int 1, .ok ()), (.str "a", .ok ())] n (.error (.raised "none")) w' := by
  intro w v block
  have hasked : (respondsToSucc (.int 1 : Value)).Reaches w (.done true) w := ⟨2, rfl⟩
  have hquiet (n : Notice) : w.note n = w := Session.note_eq_self rfl
  have hnumber : w.find (.int 1) "succ" = some (.blockless fun _ _ => pure (.str "a")) := rfl
  have htext : w.find (.str "a") "succ" = some (.blockless fun _ _ => throw (.raised "none")) := rfl
  have hascends : Ascends block v 0 w := by
    refine ⟨fun _ _ u => u = w, rfl, ?_⟩
    rintro i x n _ hx rfl
    match i with
    | 0 =>
        obtain rfl := Except.ok.inj hx
        refine ⟨n + 1, w, w, ⟨1, rfl⟩, (reaches_send_some hnumber).2 ?_, rfl⟩
        rw [hquiet]
        exact ⟨9, rfl⟩
    | 1 =>
        obtain rfl := Except.ok.inj hx
        refine ⟨n + 1, w, w, ⟨1, rfl⟩, (reaches_send_some htext).2 ?_, rfl⟩
        rw [hquiet]
        exact ⟨9, rfl⟩
  have h := (stepRange_follows_successors (v := v) rfl hasked fun _ => hascends).2 rfl
  refine ⟨rfl, hasked, hascends, ((h (some (.int 5))).1 false _ _).2 ⟨[.int 1], ?_, rfl⟩,
    ((h none).1 false _ _).2 ⟨[.int 1, .str "a"], ?_, rfl⟩⟩
  · refine ⟨[.int 1], [], rfl, rfl, ?_, .incomparable rfl rfl⟩
    rintro x hx last ⟨⟩
    obtain rfl := List.mem_singleton.1 hx
    rfl
  · exact ⟨[.int 1, .str "a"], [], rfl, rfl, by simp [Below], .failed _⟩

end Range

end Steppable

end Stepwise
