import Stepwise.Proofs.Stopping

namespace Stepwise

open Routine

namespace Course

variable {ι κ α β : Type} {t : Course ι (Except Error α)} {f : ι → κ} {g : α → β}

theorem respond_map (answer : Except Error Unit) :
    (t.map f (Except.map g)).respond .error answer = (t.respond .error answer).map f (Except.map g) := by
  cases answer with
  | ok => rfl
  | error err => rfl

theorem after_map (calls : List (ι × Except Error Unit)) :
    (t.map f (Except.map g)).after .error (calls.map (Prod.map f id)) =
      (t.after .error calls).map f (Except.map g) := by
  induction calls generalizing t with
  | nil => rfl
  | cons c calls ih =>
      rw [List.map_cons, after, Prod.map_snd, id, respond_map, ih]
      rfl

theorem admits_map_iff {calls : List (κ × Except Error Unit)} :
    (t.map f (Except.map g)).Admits .error calls ↔
      ∃ made, t.Admits .error made ∧ made.map (Prod.map f id) = calls := by
  induction calls generalizing t with
  | nil => exact iff_of_true trivial ⟨[], trivial, rfl⟩
  | cons c calls ih =>
      obtain ⟨y, answer⟩ := c
      rw [Admits, respond_map, ih]
      constructor
      · rintro ⟨hy, made, hmade, rfl⟩
        cases hx : t.event 0 with
        | inr a => simp [map, hx] at hy
        | inl x =>
            obtain rfl : f x = y := by simpa [map, hx] using hy
            exact ⟨(x, answer) :: made, ⟨hx, hmade⟩, rfl⟩
      · rintro ⟨_ | ⟨⟨x, answer⟩, made⟩, hmade, he⟩
        · cases he
        · obtain ⟨⟨rfl, rfl⟩, rfl⟩ := by simpa using he
          obtain ⟨hx, hrest⟩ := hmade
          exact ⟨by simp [map, hx], made, hrest, rfl⟩

theorem Admits.eq_of_ofList {xs : List ι} {a : α} {calls : List (ι × Except Error Unit)}
    {r : Except Error α} (h : (ofList xs (.ok a) : Course ι (Except Error α)).Admits .error calls)
    (hr : ((ofList xs (.ok a)).after .error calls).event 0 = .inr r) :
    (r = .ok a ∧ calls = xs.map fun x => (x, .ok ())) ∨
      ∃ ys x zs err, xs = ys ++ x :: zs ∧ r = .error err ∧
        calls = (ys.map fun y => (y, .ok ())) ++ [(x, .error err)] := by
  induction calls generalizing xs with
  | nil =>
      cases xs with
      | nil => exact .inl ⟨(Sum.inr.inj hr).symm, rfl⟩
      | cons x xs => cases hr
  | cons c calls ih =>
      obtain ⟨x, answer⟩ := c
      obtain ⟨hx, hrest⟩ := h
      cases xs with
      | nil => cases hx
      | cons y xs =>
          obtain rfl : y = x := Sum.inl.inj hx
          cases answer with
          | ok =>
              obtain ⟨rfl, rfl⟩ | ⟨ys, z, zs, err, rfl, rfl, rfl⟩ := ih hrest hr
              · exact .inl ⟨rfl, rfl⟩
              · exact .inr ⟨y :: ys, z, zs, err, rfl, rfl, rfl⟩
          | error err =>
              obtain rfl := admits_done_iff.1 hrest
              exact .inr ⟨[], y, xs, err, rfl, (Sum.inr.inj hr).symm, rfl⟩

end Course

theorem Routine.invoked_map_iff {ι κ κ' σ : Type} {block : σ → κ' → Routine ι (σ × Except Error Unit)}
    {f : κ → κ'} {s s' : σ} {w v : Session} {calls : List (κ × Except Error Unit)} :
    Invoked (fun s x => block s (f x)) s w calls s' v ↔
      Invoked block s w (calls.map (Prod.map f id)) s' v := by
  induction calls generalizing s w with
  | nil =>
      constructor
      · intro h
        cases h
        exact .nil _ _
      · intro h
        cases h
        exact .nil _ _
  | cons c calls ih =>
      constructor
      · intro h
        cases h with
        | cons h hrest => exact .cons h (ih.1 hrest)
      · intro h
        cases h with
        | cons h hrest => exact .cons h (ih.2 hrest)

namespace Routine

variable {ι κ β σ : Type} {block : σ → κ → Routine ι (σ × Except Error Unit)} {w : Session}

/-- With the built-in methods, every call of the block comes to its end, with success or an error. -/
def Replies (block : σ → κ → Routine ι (σ × Except Error Unit)) : Prop :=
  ∀ s x w, w.methods = .builtin → ∃ s' answer w', (block s x).Reaches w (.done (s', answer)) w'

theorem Replies.exists_invoked (h : Replies block) (hblock : KeepsMethods block)
    (hw : w.methods = .builtin) (fail : Error → β) (xs : List κ) (b : β) (s : σ) :
    ∃ calls s' v r, (Course.ofList xs b).Admits fail calls ∧
      ((Course.ofList xs b).after fail calls).event 0 = .inr r ∧ Invoked block s w calls s' v := by
  induction xs generalizing s w with
  | nil => exact ⟨[], s, w, b, trivial, rfl, .nil s w⟩
  | cons x xs ih =>
      obtain ⟨s₁, answer, w₁, hanswer⟩ := h s x w hw
      cases answer with
      | ok =>
          obtain ⟨calls, s', v, r, ha, hr, hv⟩ := ih (hblock _ _ _ _ _ hw hanswer) s₁
          exact ⟨(x, .ok ()) :: calls, s', v, r, ⟨rfl, ha⟩, hr, .cons hanswer hv⟩
      | error err =>
          exact ⟨[(x, .error err)], s₁, w₁, fail err, ⟨rfl, trivial⟩, rfl, .cons hanswer (.nil _ _)⟩

end Routine

/-- A source, and the arguments with which a block is called for one of its elements. -/
structure Stepper where
  {κ α : Type}
  source : Attempt κ α
  args : κ → List Value

namespace Stepper

variable {ι σ : Type} {p q : Stepper} {block : σ → List Value → Routine ι (σ × Except Error Unit)}
  {s s' : σ} {w u : Session} {calls : List (List Value × Except Error Unit)}
  {t : Course (List Value) (Except Error Unit)}

def ofProducer (source : Producer) : Stepper := ⟨source, id⟩

/-- The block gets these calls and leaves this session, apart from the journal. -/
def Makes (p : Stepper) (block : σ → List Value → Routine ι (σ × Except Error Unit)) (s : σ)
    (w : Session) (calls : List (List Value × Except Error Unit)) (s' : σ) (u : Session) : Prop :=
  ∃ made d v, Calls (fun s x => block s (p.args x)) p.source.run s w made d s' v ∧
    v.unlogged = u ∧ made.map (Prod.map p.args id) = calls

def Ends (p : Stepper) (block : σ → List Value → Routine ι (σ × Except Error Unit)) (s : σ)
    (w : Session) (calls : List (List Value × Except Error Unit)) (s' : σ) (r : Except Error Unit)
    (u : Session) : Prop :=
  ∃ made b v, Completes (fun s x => block s (p.args x)) p.source.run s w made s' b v ∧
    v.unlogged = u ∧ made.map (Prod.map p.args id) = calls ∧ b.map (fun _ => ()) = r

/-- The stepper follows a course, seen by what the block gets and without the value of the result. -/
def Shows (p : Stepper) (t : Course (List Value) (Except Error Unit)) : Prop :=
  ∃ t₀, Follows .error p.source.run t₀ ∧ t₀.map p.args (Except.map fun _ => ()) = t

theorem makes_iff (hp : p.Shows t) (hblock : KeepsMethods block) (hw : w.methods = .builtin) :
    p.Makes block s w calls s' u ↔
      t.Admits .error calls ∧ ∃ v, Invoked block s w calls s' v ∧ v.unlogged = u := by
  obtain ⟨t₀, ht₀, rfl⟩ := hp
  have hadapted : KeepsMethods fun s x => block s (p.args x) := fun s x => hblock s (p.args x)
  rw [Course.admits_map_iff]
  constructor
  · rintro ⟨made, d, v, hcalls, hv, rfl⟩
    obtain ⟨ha, v', hinvoked, hv'⟩ := (ht₀.exists_calls_iff hadapted hw).1 ⟨d, v, hcalls, hv⟩
    exact ⟨⟨made, ha, rfl⟩, v', invoked_map_iff.1 hinvoked, hv'⟩
  · rintro ⟨⟨made, ha, rfl⟩, v, hinvoked, hv⟩
    obtain ⟨d, v', hcalls, hv'⟩ :=
      (ht₀.exists_calls_iff hadapted hw).2 ⟨ha, v, invoked_map_iff.2 hinvoked, hv⟩
    exact ⟨made, d, v', hcalls, hv', rfl⟩

theorem ends_iff (hp : p.Shows t) (hblock : KeepsMethods block) (hw : w.methods = .builtin)
    {r : Except Error Unit} :
    p.Ends block s w calls s' r u ↔
      (t.Admits .error calls ∧ (t.after .error calls).event 0 = .inr r) ∧
        ∃ v, Invoked block s w calls s' v ∧ v.unlogged = u := by
  obtain ⟨t₀, ht₀, rfl⟩ := hp
  have hadapted : KeepsMethods fun s x => block s (p.args x) := fun s x => hblock s (p.args x)
  have hresult (made : List (p.κ × Except Error Unit)) :
      ((t₀.map p.args (Except.map fun _ => ())).after .error (made.map (Prod.map p.args id))).event 0 =
        ((t₀.after .error made).event 0).map p.args (Except.map fun _ => ()) := by
    rw [Course.after_map]
    rfl
  rw [Course.admits_map_iff]
  constructor
  · rintro ⟨made, b, v, hcompletes, hv, rfl, rfl⟩
    obtain ⟨⟨ha, hb⟩, v', hinvoked, hv'⟩ :=
      (ht₀.exists_completes_iff hadapted hw).1 ⟨v, hcompletes, hv⟩
    refine ⟨⟨⟨made, ha, rfl⟩, ?_⟩, v', invoked_map_iff.1 hinvoked, hv'⟩
    rw [hresult, hb]
    rfl
  · rintro ⟨⟨⟨made, ha, rfl⟩, hr⟩, v, hinvoked, hv⟩
    rw [hresult] at hr
    cases hb : (t₀.after .error made).event 0 with
    | inl x => simp [hb] at hr
    | inr b =>
        obtain ⟨v', hcompletes, hv'⟩ := (ht₀.exists_completes_iff hadapted hw).2
          ⟨⟨ha, hb⟩, v, invoked_map_iff.2 hinvoked, hv⟩
        refine ⟨made, b, v', hcompletes, hv', rfl, ?_⟩
        simpa [hb] using hr

theorem shows_ofProducer {c : Producer} {xs : List (List Value)} {b : Value}
    (h : Follows .error c.run (.ofList xs (.ok b))) : (ofProducer c).Shows (.ofList xs (.ok ())) := by
  refine ⟨_, h, (Course.map_ofList id _ xs _).trans ?_⟩
  rw [List.map_id]
  rfl

def Agrees (p q : Stepper) (block : σ → List Value → Routine ι (σ × Except Error Unit)) (s : σ)
    (w : Session) : Prop :=
  ∀ calls s' u, (p.Makes block s w calls s' u ↔ q.Makes block s w calls s' u) ∧
    ∀ r, p.Ends block s w calls s' r u ↔ q.Ends block s w calls s' r u

theorem Ends.eq_of_shows {xs : List (List Value)} {r : Except Error Unit}
    (hp : p.Shows (.ofList xs (.ok ()))) (hblock : KeepsMethods block) (hw : w.methods = .builtin)
    (h : p.Ends block s w calls s' r u) :
    (r = .ok () ∧ calls = xs.map fun x => (x, .ok ())) ∨
      ∃ ys x zs err, xs = ys ++ x :: zs ∧ r = .error err ∧
        calls = (ys.map fun y => (y, .ok ())) ++ [(x, .error err)] := by
  obtain ⟨⟨ha, hr⟩, -⟩ := (ends_iff hp hblock hw).1 h
  exact ha.eq_of_ofList hr

theorem exists_ends {steppers : List Stepper} {xs : List (List Value)}
    (hsteppers : ∀ p ∈ steppers, p.Shows (.ofList xs (.ok ()))) (hblock : KeepsMethods block)
    (hw : w.methods = .builtin) (h : Replies block) (s : σ) :
    ∃ calls s' r u, ∀ p ∈ steppers, p.Ends block s w calls s' r u := by
  obtain ⟨calls, s', v, r, ha, hr, hv⟩ := h.exists_invoked hblock hw Except.error xs (.ok ()) s
  refine ⟨calls, s', r, v.unlogged, fun p hp => ?_⟩
  exact (ends_iff (hsteppers p hp) hblock hw).2 ⟨⟨ha, hr⟩, v, hv, rfl⟩

theorem ends_of_succeeds {steppers : List Stepper} {xs : List (List Value)}
    (hsteppers : ∀ p ∈ steppers, p.Shows (.ofList xs (.ok ()))) (hw : w.methods = .builtin)
    (h : Succeeds block) (s : σ) :
    ∃ s' u, ∀ p ∈ steppers, p.Ends block s w (xs.map fun x => (x, .ok ())) s' (.ok ()) u := by
  obtain ⟨s', v, hv⟩ := h.exists_invoked hw (xs.map fun x => (x, .ok ())) s
  rw [succeeding_eq_self (by simp)] at hv
  refine ⟨s', v.unlogged, fun p hp => ?_⟩
  exact (ends_iff (hsteppers p hp) h.keepsMethods hw).2
    ⟨Course.admits_ofList Except.error xs (.ok ()), v, hv, rfl⟩

theorem Shows.agrees (hp : p.Shows t) (hq : q.Shows t) (hblock : KeepsMethods block)
    (hw : w.methods = .builtin) : p.Agrees q block s w := by
  intro calls s' u
  rw [makes_iff hp hblock hw, makes_iff hq hblock hw]
  refine ⟨Iff.rfl, fun r => ?_⟩
  rw [ends_iff hp hblock hw, ends_iff hq hblock hw]

end Stepper

theorem Integer.map_toInt_numbers {start : Int} {count : Nat} (hmin : Int64.minValue.toInt ≤ start)
    (hmax : start + count ≤ Int64.maxValue.toInt + 1) :
    (numbers start count).map Int64.toInt = Int.range start (start + count) := by
  have hcount : (start + count - start).toNat = count := by omega
  have h₁ : Int64.minValue.toInt = -9223372036854775808 := rfl
  have h₂ : Int64.maxValue.toInt = 9223372036854775807 := rfl
  rw [numbers, Int.range, hcount, List.map_map]
  apply List.map_congr_left
  intro i hi
  have hi := List.mem_range.1 hi
  rw [Function.comp_apply, Int64.toInt_ofInt_of_le]
  · omega
  · omega

theorem Integer.map_toInt_numbers_toNat {start stop : Int} (hmin : Int64.minValue.toInt ≤ start)
    (hmax : stop ≤ Int64.maxValue.toInt + 1) (hstart : start ≤ Int64.maxValue.toInt) :
    (numbers start (stop - start).toNat).map Int64.toInt = Int.range start stop := by
  rw [map_toInt_numbers hmin (by omega), Int.range, Int.range]
  congr 2
  omega

theorem Integer.map_toInt_eq_range_iff {start : Int64} {stop : Int} {ks : List Int64}
    (hstop : stop ≤ Int64.maxValue.toInt + 1) :
    ks.map Int64.toInt = Int.range start.toInt stop ↔
      ks = numbers start.toInt (stop - start.toInt).toNat := by
  rw [← map_toInt_numbers_toNat start.minValue_le_toInt hstop start.toInt_le]
  exact List.map_inj_right fun _ _ => Int64.toInt_inj.1

theorem Integer.map_toInt_numbers_times (n : Int64) :
    (numbers 0 n.toInt.toNat).map Int64.toInt = Int.range 0 n.toInt := by
  have hn := n.toInt_le
  have h : (numbers 0 (n.toInt - 0).toNat).map Int64.toInt = Int.range 0 n.toInt :=
    map_toInt_numbers_toNat (by decide) (by omega) (by decide)
  rwa [Int.sub_zero] at h

theorem Integer.map_toInt_numbers_upto (start bound : Int64) :
    (numbers start.toInt (bound.toInt + 1 - start.toInt).toNat).map Int64.toInt =
      Int.range start.toInt (bound.toInt + 1) := by
  have hbound := bound.toInt_le
  exact map_toInt_numbers_toNat start.minValue_le_toInt (by omega) start.toInt_le

theorem integerSucc_of_lt {n m : Int64} (h : n.toInt < m.toInt) : integerSucc n = .ok (n + 1) := by
  refine if_neg ?_
  rintro rfl
  have hm := m.toInt_le
  omega

namespace Steppable

structure Embeds {τ : Type} [Steppable τ] (next : τ → Except Error τ) (emb : Int64 → τ) : Prop where
  next_eq : ∀ n, next (emb n) = (integerSucc n).map emb
  compare_eq : ∀ a b, compare (emb a) (emb b) = some (Ord.compare a.toInt b.toInt)

theorem embeds_id : Embeds integerSucc id where
  next_eq n := by
    cases h : integerSucc n with
    | ok m => exact h
    | error err => exact h
  compare_eq _ _ := rfl

theorem embeds_int : Embeds Value.next Value.int := ⟨fun _ => rfl, fun _ _ => rfl⟩

namespace Embeds

variable {τ : Type} [Steppable τ] {next : τ → Except Error τ} {emb : Int64 → τ}

theorem ladder (h : Embeds next emb) (last : Int64) :
    Ladder next (emb last) emb (fun _ => True) Int64.toInt last.toInt where
  compare_eq n _ := h.compare_eq n last
  next_eq n _ hlt := by
    refine ⟨n + 1, ?_, trivial, Integer.toInt_add_one_of_lt hlt⟩
    rw [h.next_eq, integerSucc_of_lt hlt]
    rfl

/-- The elements are the integers of the interval. Only integers below the last one are asked for their
successor, so there is no overflow. -/
theorem course_eq (h : Embeds next emb) (first last : Int64) (excludeEnd : Bool) :
    course next (emb first) (some (emb last)) excludeEnd = .ofList ((Integer.numbers first.toInt
      (last.toInt + (if excludeEnd then 0 else 1) - first.toInt).toNat).map emb) (.ok ()) := by
  have hstop : last.toInt + (if excludeEnd then 0 else 1) ≤ Int64.maxValue.toInt + 1 := by
    have hlast := last.toInt_le
    split <;> omega
  obtain ⟨ks, hcourse, -, hks⟩ := (h.ladder last).exists_course (k := first) trivial excludeEnd
  rw [hcourse, (Integer.map_toInt_eq_range_iff hstop).1 hks]

end Embeds

end Steppable

theorem callCourse_integerRange (first last : Int64) (excludeEnd : Bool) :
    callCourse (.range (.int first) (.int last) excludeEnd) "each" [] =
      .ofList (Integer.counted first.toInt (last.toInt + (if excludeEnd then 0 else 1) - first.toInt).toNat)
        (.ok (.range (.int first) (.int last) excludeEnd)) := by
  change (Steppable.course Value.next (.int first) (some (.int last)) excludeEnd).map _ _ = _
  rw [Steppable.embeds_int.course_eq, Course.map_ofList, List.map_map]
  rfl

def integerRanges (first last : Int64) (excludeEnd : Bool) : List Stepper :=
  let range : Range := ⟨.int first, .int last, excludeEnd⟩
  [⟨Steppable.stepRange first (some last) excludeEnd, fun i => [.int i]⟩,
    .ofProducer range.each.body, .ofProducer (Attempt.invoke range.toValue "each" [])]

theorem shows_integerRanges {first last : Int64} {excludeEnd : Bool} {p : Stepper}
    (hp : p ∈ integerRanges first last excludeEnd) :
    p.Shows (.ofList (Integer.counted first.toInt
      (last.toInt + (if excludeEnd then 0 else 1) - first.toInt).toNat) (.ok ())) := by
  let range : Range := ⟨.int first, .int last, excludeEnd⟩
  have hrange := range.follows_each []
  rw [Range.toValue, callCourse_integerRange] at hrange
  simp only [integerRanges, List.mem_cons, List.not_mem_nil, or_false] at hp
  obtain rfl | rfl | rfl := hp
  · have hstep : Follows .error (Steppable.stepRange first (some last) excludeEnd).run _ :=
      Steppable.follows_stepRange (fun _ => .refl _) (.refl _) _ _
    refine ⟨_, hstep, ?_⟩
    change Course.map _ _ (Steppable.course integerSucc (id first) (some (id last)) excludeEnd) = _
    rw [Steppable.embeds_id.course_eq, Course.map_ofList, List.map_map]
    rfl
  · exact Stepper.shows_ofProducer hrange
  · exact Stepper.shows_ofProducer (.of_leadsTo (invoke_leadsTo [] (m := Range.eachMethod) rfl) hrange)

/-- The ways to step through an interval of integers: those that count and return an integer, those that
step through a range, and the integers of the interval. -/
inductive IntegerSteppers : Value → List Producer → List Stepper → List Int → Prop
  | upto (a b : Int64) : IntegerSteppers (.int a)
      [(Integer.upto a b).body, Attempt.invoke (.int a) "upto" [.int b]]
      (integerRanges a b false) (Int.range a.toInt (b.toInt + 1))
  | times (n : Int64) : IntegerSteppers (.int n)
      [(Integer.times n).body, Attempt.invoke (.int n) "times" []]
      (integerRanges 0 n true) (Int.range 0 n.toInt)

namespace IntegerSteppers

variable {receiver : Value} {counts : List Producer} {ranges : List Stepper} {xs : List Int}

theorem exists_follows (h : IntegerSteppers receiver counts ranges xs) :
    ∃ ks : List Int64, ks.map Int64.toInt = xs ∧
      (∀ c ∈ counts, Follows .error c.run (.ofList (ks.map fun k => [.int k]) (.ok receiver))) ∧
      ∀ p ∈ ranges, p.Shows (.ofList (ks.map fun k => [.int k]) (.ok ())) := by
  cases h with
  | upto a b =>
      refine ⟨_, Integer.map_toInt_numbers_upto a b, ?_, ?_⟩
      · intro c hc
        simp only [List.mem_cons, List.not_mem_nil, or_false] at hc
        obtain rfl | rfl := hc
        · exact Integer.follows_uptoBody a b
        · have h := follows_call (.int a) "upto" [.int b] (by simp [IterationCall, iterationNames])
          rw [callCourse, if_pos List.length_singleton] at h
          exact h
      · intro p hp
        have h := shows_integerRanges hp
        rwa [if_neg Bool.false_ne_true] at h
  | times n =>
      refine ⟨_, Integer.map_toInt_numbers_times n, ?_, ?_⟩
      · intro c hc
        simp only [List.mem_cons, List.not_mem_nil, or_false] at hc
        obtain rfl | rfl := hc
        · exact Integer.follows_timesBody n
        · exact follows_call (.int n) "times" [] (by simp [IterationCall, iterationNames])
      · intro p hp
        have h := shows_integerRanges hp
        rwa [Int64.toInt_zero, if_pos rfl, Int.add_zero, Int.sub_zero] at h

/-- The ways to step through an interval of integers make the same calls with every block that keeps the
built-in methods, and end alike. They come to an end if the calls of the block do: with success after the
calls for all integers of the interval, or with the error of the block, which is then the last call. A
block that never fails gets just the integers of the interval. Counting returns its receiver. -/
theorem agree (h : IntegerSteppers receiver counts ranges xs) {ι σ : Type}
    {block : σ → List Value → Routine ι (σ × Except Error Unit)} (hblock : KeepsMethods block) {s : σ}
    {w : Session} (hw : w.methods = .builtin) :
    let steppers := counts.map Stepper.ofProducer ++ ranges
    (∀ p ∈ steppers, ∀ q ∈ steppers, p.Agrees q block s w) ∧
    (Replies block → ∃ calls s' r u, ∀ p ∈ steppers, p.Ends block s w calls s' r u) ∧
    (∀ p ∈ steppers, ∀ calls s' r u, p.Ends block s w calls s' r u → ∃ ks : List Int64,
      (ks.map Int64.toInt = xs ∧ r = .ok () ∧ calls = ks.map fun k => ([.int k], .ok ())) ∨
      ∃ k err, (ks ++ [k]).map Int64.toInt <+: xs ∧ r = .error err ∧
        calls = (ks.map fun k => ([.int k], .ok ())) ++ [([.int k], .error err)]) ∧
    (Succeeds block → ∃ ks : List Int64, ks.map Int64.toInt = xs ∧ ∃ s' u, ∀ p ∈ steppers,
      p.Ends block s w (ks.map fun k => ([.int k], .ok ())) s' (.ok ()) u) ∧
    ∀ c ∈ counts, ∀ calls s' b v, Completes block c.run s w calls s' (.ok b) v → b = receiver := by
  obtain ⟨ks, hks, hcounts, hranges⟩ := h.exists_follows
  have hcalls (ks : List Int64) : (ks.map fun k => [Value.int k]).map (fun x =>
      (x, (.ok () : Except Error Unit))) = ks.map fun k => ([Value.int k], .ok ()) := by
    rw [List.map_map]
    rfl
  intro steppers
  have hshows : ∀ p ∈ steppers, p.Shows (.ofList (ks.map fun k => [.int k]) (.ok ())) := by
    intro p hp
    obtain hp | hp := List.mem_append.1 hp
    · obtain ⟨c, hc, rfl⟩ := List.mem_map.1 hp
      exact Stepper.shows_ofProducer (hcounts c hc)
    · exact hranges p hp
  refine ⟨fun p hp q hq => (hshows p hp).agrees (hshows q hq) hblock hw,
    fun hreplies => Stepper.exists_ends hshows hblock hw hreplies s, ?_, ?_, ?_⟩
  · intro p hp calls s' r u hends
    obtain ⟨rfl, rfl⟩ | ⟨ys, x, zs, err, hys, rfl, rfl⟩ := hends.eq_of_shows (hshows p hp) hblock hw
    · exact ⟨ks, .inl ⟨hks, rfl, hcalls ks⟩⟩
    · obtain ⟨js, rest, rfl, rfl, hrest⟩ := List.map_eq_append_iff.1 hys
      obtain ⟨k, rest, rfl, rfl, -⟩ := List.map_eq_cons_iff.1 hrest
      refine ⟨js, .inr ⟨k, err, ⟨rest.map Int64.toInt, ?_⟩, rfl, by rw [hcalls]⟩⟩
      rw [← hks, List.map_append, List.map_append, List.map_cons, List.append_assoc]
      rfl
  · intro hsucceeds
    obtain ⟨s', u, hends⟩ := Stepper.ends_of_succeeds hshows hw hsucceeds s
    rw [hcalls] at hends
    exact ⟨ks, hks, s', u, hends⟩
  · intro c hc calls s' b v hcompletes
    obtain ⟨⟨ha, hr⟩, -⟩ := ((hcounts c hc).exists_completes_iff hblock hw).1 ⟨v, hcompletes, rfl⟩
    obtain ⟨hb, -⟩ | ⟨ys, x, zs, err, -, hb, -⟩ := ha.eq_of_ofList hr
    · exact Except.ok.inj hb
    · cases hb

theorem agree_at_largest :
    let a := Int64.maxValue - 1
    let b := Int64.maxValue
    let block (s : List (List Value)) (x : List Value) : Routine Empty (_ × Except Error Unit) :=
      .pure (x :: s, .ok ())
    KeepsMethods block ∧ Succeeds block ∧
      ∃ s' u, ∀ p ∈ [(Integer.upto a b).body, Attempt.invoke (.int a) "upto" [.int b]].map
          Stepper.ofProducer ++ integerRanges a b false,
        p.Ends block [] .start [([.int a], .ok ()), ([.int b], .ok ())] s' (.ok ()) u := by
  intro a b block
  have hsucceeds : Succeeds block := fun s x w hw => ⟨_, w, reaches_pure.2 ⟨rfl, rfl⟩, hw⟩
  have hblock := hsucceeds.keepsMethods
  obtain ⟨-, -, -, h, -⟩ := agree (.upto a b) hblock (s := []) (w := .start) rfl
  obtain ⟨ks, hks, s', u, hends⟩ := h hsucceeds
  have hrange : Int.range a.toInt (b.toInt + 1) = [a, b].map Int64.toInt := by decide +kernel
  obtain rfl := (List.map_inj_right fun _ _ => Int64.toInt_inj.1).1 (hks.trans hrange)
  exact ⟨hblock, hsucceeds, s', u, hends⟩

end IntegerSteppers

end Stepwise
