import Mathlib.Data.Int.Range
import Stepwise.Proofs.Course

namespace Stepwise

open Routine

section Loop

variable {ι β σ : Type}

abbrev Stage (σ β : Type) := σ ⊕ Except Error β

def Stage.after : Except Error (σ ⊕ β) → Stage σ β
  | .ok (.inl s) => .inl s
  | .ok (.inr b) => .inr (.ok b)
  | .error err => .inr (.error err)

/-- A loop each pass of which yields once and then has a result, or ends the loop. -/
def Stage.step (pass : σ → (ι × Except Error (σ ⊕ β)) ⊕ Except Error β) :
    Stage σ β → (ι × Stage σ β) ⊕ Except Error β
  | .inl s => (pass s).map (fun (x, r) => (x, after r)) id
  | .inr r => .inr r

theorem Stage.unfold_end (pass : σ → (ι × Except Error (σ ⊕ β)) ⊕ Except Error β)
    (r : Except Error β) : Course.unfold (Stage.step pass) (.inr r) = .done r :=
  Course.unfold_of_inr rfl

def passCourse : (ι × Except Error (σ ⊕ β)) ⊕ Except Error β → Course ι (Except Error (σ ⊕ β))
  | .inl (x, r) => .cons x (.done r)
  | .inr r => .done (r.map .inr)

def Routine.goOn (body : σ → Routine ι (Except Error (σ ⊕ β))) : Stage σ β → Routine ι (Except Error β)
  | .inl s => tryLoop s body
  | .inr r => .pure r

section Passes

variable {body : σ → Routine ι (Except Error (σ ⊕ β))} {s : σ}

theorem tryLoop_leadsTo {r : Except Error (σ ⊕ β)} (h : (body s).LeadsTo (.pure r)) :
    (tryLoop s body).LeadsTo (goOn body (Stage.after r)) := by
  refine (loop_leadsTo s _ _).trans (((h.bind _).bind _).trans ?_)
  rcases r with err | s | b <;> exact .refl _

theorem tryLoop_leadsTo_yield {x : ι} {k : Except Error Unit → Routine ι (Except Error (σ ⊕ β))}
    (h : (body s).LeadsTo (.yield x k)) :
    ∃ l, (tryLoop s body).LeadsTo (.yield x l) ∧
      ∀ answer r, (k answer).LeadsTo (.pure r) → (l answer).LeadsTo (goOn body (Stage.after r)) := by
  refine ⟨_, (loop_leadsTo s _ _).trans ((h.bind _).bind _), fun answer r hk => ?_⟩
  refine ((hk.bind _).bind _).trans ?_
  rcases r with err | s | b <;> exact .refl _

end Passes

def Stage.onward {γ : Type} (loop : σ → Course ι (Except Error γ)) (rest : β → Course ι (Except Error γ)) :
    Stage σ β → Course ι (Except Error γ)
  | .inl s => loop s
  | .inr (.ok b) => rest b
  | .inr (.error err) => .done (.error err)

theorem follows_loop_bind {γ : Type} {body : σ → Attempt ι (σ ⊕ β)} {f : β → Attempt ι γ}
    (pass : σ → (ι × Except Error (σ ⊕ β)) ⊕ Except Error β) (loop : σ → Course ι (Except Error γ))
    (rest : β → Course ι (Except Error γ))
    (hbody : ∀ s, Follows .error (body s).run (passCourse (pass s)))
    (hf : ∀ b, Follows .error (f b).run (rest b))
    (hloop : ∀ s, loop s = match pass s with
      | .inl (x, r) => .cons x (Stage.onward loop rest (Stage.after r))
      | .inr r => Stage.onward loop rest (.inr r)) (s : σ) :
    Follows .error (Attempt.loop s body >>= f).run (loop s) := by
  intro n
  induction n generalizing s with
  | zero => trivial
  | succ n ih =>
      have hs := hbody s
      cases hp : pass s with
      | inr r =>
          rw [hp] at hs
          rw [hloop, hp]
          refine .of_leadsTo ((tryLoop_leadsTo (follows_done.1 hs)).bind _) ?_
          cases r with
          | error err => exact follows_pure _ _
          | ok b => exact hf b _
      | inl p =>
          obtain ⟨x, r⟩ := p
          rw [hp] at hs
          rw [hloop, hp]
          obtain ⟨k, hk, hok, herr⟩ := follows_cons.1 hs
          obtain ⟨l, hl, hrest⟩ := tryLoop_leadsTo_yield hk
          refine ⟨_, hl.bind _, ?_, fun err => ?_⟩
          · refine .of_leadsTo ((hrest (.ok ()) r (follows_done.1 hok)).bind _) ?_
            rcases r with err | s' | b
            · exact follows_pure _ n
            · exact ih s'
            · exact hf b n
          · exact .of_leadsTo ((hrest (.error err) _ (herr err)).bind _) (follows_pure _ n)

theorem follows_loop {pass : σ → (ι × Except Error (σ ⊕ β)) ⊕ Except Error β}
    {body : σ → Attempt ι (σ ⊕ β)} (hbody : ∀ s, Follows .error (body s).run (passCourse (pass s)))
    (s : σ) : Follows .error (Attempt.loop s body).run (Course.unfold (Stage.step pass) (.inl s)) := by
  have honward (stage : Stage σ β) : Course.unfold (Stage.step pass) stage =
      Stage.onward (fun s => Course.unfold (Stage.step pass) (.inl s)) (fun b => .done (.ok b)) stage := by
    rcases stage with s | err | b
    · rfl
    · exact Stage.unfold_end pass _
    · exact Stage.unfold_end pass _
  have hrun : (Attempt.loop s body >>= pure).run = (Attempt.loop s body).run := by
    refine Eq.trans (congrArg (Routine.bind _) (funext fun r => ?_)) (Routine.bind_pure _)
    cases r <;> rfl
  rw [← hrun]
  refine follows_loop_bind (f := Pure.pure) pass (fun s => Course.unfold (Stage.step pass) (.inl s))
    (fun b => .done (.ok b)) hbody (fun b => follows_pure _) (fun s => ?_) s
  simp only [← honward]
  cases hp : pass s with
  | inl p => exact Course.unfold_of_inl (by rw [Stage.step, hp]; rfl)
  | inr r =>
      have hstep : Stage.step pass (.inl s) = .inr r := by rw [Stage.step, hp]; rfl
      exact (Course.unfold_of_inr hstep).trans (Stage.unfold_end pass r).symm

end Loop

section Ranks

theorem range_eq_cons {a b : Int} (h : a < b) : Int.range a b = a :: Int.range (a + 1) b := by
  have hcount : (b - a).toNat = (b - (a + 1)).toNat + 1 := by omega
  have hshift (i : Nat) : a + (i + 1 : Nat) = a + 1 + i := by omega
  simp only [Int.range, hcount, List.range_succ_eq_map, List.map_cons, List.map_map, Function.comp_def,
    Nat.succ_eq_add_one, hshift, Int.natCast_zero, Int.add_zero]

theorem pairwise_range (a b : Int) : (Int.range a b).Pairwise (· < ·) := by
  rw [Int.range, List.pairwise_map]
  exact List.pairwise_lt_range.imp fun h => by omega

theorem getLast?_range {a b : Int} (h : a ≤ b) : (Int.range a (b + 1)).getLast? = some b := by
  have hcount : (b + 1 - a).toNat = (b - a).toNat + 1 := by omega
  rw [Int.range, hcount, List.range_succ, List.map_append, List.getLast?_append]
  simp only [List.map_cons, List.map_nil, List.getLast?_singleton, Option.some_or, Option.some_inj]
  omega

/-- Elements with a rank below the bound come before the one with the next rank. If the rest then ends in the
same way from everywhere, all ranks are taken in a row. -/
theorem Course.exists_ofList_of_ranks {ι κ β : Type} {C : κ → Course ι β} {emb : κ → ι} {I : κ → Prop}
    {rank : κ → Int} {bound stop : Int} {b : β}
    (hcons : ∀ k, I k → rank k < bound → ∃ k', C k = .cons (emb k) (C k') ∧ I k' ∧ rank k' = rank k + 1)
    (hend : ∀ k, I k → bound ≤ rank k → ∃ ks : List κ, C k = .ofList (ks.map emb) b ∧ (∀ k ∈ ks, I k) ∧
      ks.map rank = Int.range (rank k) stop)
    (hstop : bound ≤ stop) {k : κ} (hk : I k) :
    ∃ ks : List κ, C k = .ofList (ks.map emb) b ∧ (∀ k ∈ ks, I k) ∧
      ks.map rank = Int.range (rank k) stop := by
  generalize hcount : (bound - rank k).toNat = count
  induction count generalizing k with
  | zero => exact hend k hk (by omega)
  | succ count ih =>
      obtain ⟨k', hcourse, hk', hrank⟩ := hcons k hk (by omega)
      obtain ⟨ks, hrest, hks, hranks⟩ := ih hk' (by omega)
      have hlt : rank k < stop := by omega
      refine ⟨k :: ks, ?_, List.forall_mem_cons.2 ⟨hk, hks⟩, ?_⟩
      · rw [hcourse, hrest, List.map_cons, Course.ofList_cons]
      · rw [List.map_cons, hranks, hrank, range_eq_cons hlt]

end Ranks

namespace Steppable

variable {τ : Type} [Steppable τ] {next : τ → Except Error τ}

/-- The successor of an element does not depend on the session and leaves it as it is. -/
def SteadySucc (next : τ → Except Error τ) : Prop := ∀ v : τ, (succ v).run.LeadsTo (.pure (next v))

def endlessPass (next : τ → Except Error τ) (v : τ) :
    (τ × Except Error (τ ⊕ Unit)) ⊕ Except Error Unit :=
  .inl (v, (next v).map .inl)

def boundedPass (next : τ → Except Error τ) (last : τ) (excludeEnd : Bool) (v : τ) :
    (τ × Except Error (τ ⊕ Unit)) ⊕ Except Error Unit :=
  match ordering v last with
  | .error err => .inr (.error err)
  | .ok .lt => .inl (v, (next v).map .inl)
  | .ok .eq => if excludeEnd then .inr (.ok ()) else .inl (v, .ok (.inr ()))
  | .ok .gt => .inr (.ok ())

def course (next : τ → Except Error τ) (first : τ) (last? : Option τ) (excludeEnd : Bool) :
    Course τ (Except Error Unit) :=
  match last? with
  | none => .unfold (Stage.step (endlessPass next)) (.inl first)
  | some last => .unfold (Stage.step (boundedPass next last excludeEnd)) (.inl first)

theorem course_of_inr {v last : τ} {excludeEnd : Bool} {r : Except Error Unit}
    (h : boundedPass next last excludeEnd v = .inr r) :
    course next v (some last) excludeEnd = .done r :=
  Course.unfold_of_inr (by rw [Stage.step, h]; rfl)

theorem course_of_inl {v x last : τ} {excludeEnd : Bool} {r : Except Error (τ ⊕ Unit)}
    (h : boundedPass next last excludeEnd v = .inl (x, r)) :
    course next v (some last) excludeEnd =
      .cons x (.unfold (Stage.step (boundedPass next last excludeEnd)) (Stage.after r)) :=
  Course.unfold_of_inl (by rw [Stage.step, h]; rfl)

theorem boundedPass_of_lt {v last : τ} {excludeEnd : Bool} (h : compare v last = some .lt) :
    boundedPass next last excludeEnd v = .inl (v, (next v).map .inl) := by
  simp [boundedPass, ordering, h]

theorem course_of_lt {v v' last : τ} {excludeEnd : Bool} (h : compare v last = some .lt)
    (hv : next v = .ok v') :
    course next v (some last) excludeEnd = .cons v (course next v' (some last) excludeEnd) := by
  rw [course_of_inl (boundedPass_of_lt h), hv]
  rfl

theorem course_of_eq {v last : τ} {excludeEnd : Bool} (h : compare v last = some .eq) :
    course next v (some last) excludeEnd = .ofList (if excludeEnd then [] else [v]) (.ok ()) := by
  cases excludeEnd with
  | true => exact course_of_inr (by rw [boundedPass, ordering, h]; rfl)
  | false =>
      have hp : boundedPass next last false v = .inl (v, .ok (.inr ())) := by
        rw [boundedPass, ordering, h]
        rfl
      rw [course_of_inl hp, Stage.after, Stage.unfold_end]
      rfl

theorem course_of_gt {v last : τ} {excludeEnd : Bool} (h : compare v last = some .gt) :
    course next v (some last) excludeEnd = .done (.ok ()) :=
  course_of_inr (by rw [boundedPass, ordering, h])

theorem course_of_none {v last : τ} {excludeEnd : Bool} (h : compare v last = none) :
    course next v (some last) excludeEnd =
      .done (.error (.comparisonFailed (className v) (describe last))) :=
  course_of_inr (by rw [boundedPass, ordering, h])

theorem course_of_below {v v' : τ} {last? : Option τ} {excludeEnd : Bool}
    (h : ∀ last ∈ last?, compare v last = some .lt) (hv : next v = .ok v') :
    course next v last? excludeEnd = .cons v (course next v' last? excludeEnd) := by
  cases last? with
  | none => exact Course.unfold_of_inl (by rw [Stage.step, endlessPass, hv]; rfl)
  | some last => exact course_of_lt (h last rfl) hv

theorem course_of_below_error {v : τ} {last? : Option τ} {excludeEnd : Bool} {err : Error}
    (h : ∀ last ∈ last?, compare v last = some .lt) (hv : next v = .error err) :
    course next v last? excludeEnd = .cons v (.done (.error err)) := by
  cases last? with
  | none =>
      have hstep : Stage.step (endlessPass next) (.inl v) = .inl (v, .inr (.error err)) := by
        rw [Stage.step, endlessPass, hv]
        rfl
      rw [course, Course.unfold_of_inl hstep, Stage.unfold_end]
  | some last =>
      rw [course_of_inl (boundedPass_of_lt (h last rfl)), hv, Except.map, Stage.after, Stage.unfold_end]

section Ladder

variable {κ : Type} {last : τ} {emb : κ → τ} {I : κ → Prop} {rank : κ → Int} {bound : Int} {k : κ}

/-- Elements in a row, seen by their ranks: the order with the last element is that of the ranks, and
below it the successor has the next rank. -/
structure Ladder (next : τ → Except Error τ) (last : τ) (emb : κ → τ) (I : κ → Prop) (rank : κ → Int)
    (bound : Int) : Prop where
  compare_eq : ∀ k, I k → compare (emb k) last = some (Ord.compare (rank k) bound)
  next_eq : ∀ k, I k → rank k < bound → ∃ k', next (emb k) = .ok (emb k') ∧ I k' ∧ rank k' = rank k + 1

/-- Stepping up a ladder takes the ranks in a row. Only elements below the last one are asked for their
successor. -/
theorem Ladder.exists_course (h : Ladder next last emb I rank bound) (hk : I k) (excludeEnd : Bool) :
    ∃ ks : List κ, course next (emb k) (some last) excludeEnd = .ofList (ks.map emb) (.ok ()) ∧
      (∀ k ∈ ks, I k) ∧ ks.map rank = Int.range (rank k) (bound + if excludeEnd then 0 else 1) := by
  have hstop : bound ≤ bound + if excludeEnd then 0 else 1 := by split <;> omega
  refine Course.exists_ofList_of_ranks (C := fun k => course next (emb k) (some last) excludeEnd)
    (fun k hk hlt => ?_) (fun k hk hle => ?_) hstop hk
  · obtain ⟨k', hnext, hk', hrank⟩ := h.next_eq k hk hlt
    have hc : compare (emb k) last = some .lt := by rw [h.compare_eq k hk, Int.compare_eq_lt.2 hlt]
    exact ⟨k', course_of_lt hc hnext, hk', hrank⟩
  · have hc := h.compare_eq k hk
    obtain heq | hgt : rank k = bound ∨ bound < rank k := by omega
    · rw [heq, Int.compare_eq_eq.2 rfl] at hc
      rw [course_of_eq hc, heq]
      cases excludeEnd with
      | true => exact ⟨[], rfl, by simp, by simp [Int.range]⟩
      | false => exact ⟨[k], rfl, by simpa using hk, by simp [Int.range, heq]⟩
    · rw [Int.compare_eq_gt.2 hgt] at hc
      have hnone : (bound + (if excludeEnd then 0 else 1) - rank k).toNat = 0 := by split <;> omega
      exact ⟨[], course_of_gt hc, by simp, by simp [Int.range, hnone]⟩

theorem exists_course_of_error {last? : Option τ} {err : Error}
    (hbelow : ∀ k, I k → ∀ last ∈ last?, compare (emb k) last = some .lt)
    (hnext : ∀ k, I k → rank k < bound → ∃ k', next (emb k) = .ok (emb k') ∧ I k' ∧ rank k' = rank k + 1)
    (hbound : ∀ k, I k → rank k ≤ bound) (herr : ∀ k, I k → rank k = bound → next (emb k) = .error err)
    (hk : I k) (excludeEnd : Bool) :
    ∃ ks : List κ, course next (emb k) last? excludeEnd = .ofList (ks.map emb) (.error err) ∧
      (∀ k ∈ ks, I k) ∧ ks.map rank = Int.range (rank k) (bound + 1) := by
  have hstop : bound ≤ bound + 1 := by omega
  refine Course.exists_ofList_of_ranks (C := fun k => course next (emb k) last? excludeEnd)
    (fun k hk hlt => ?_) (fun k hk hle => ?_) hstop hk
  · obtain ⟨k', hk'⟩ := hnext k hk hlt
    exact ⟨k', course_of_below (hbelow k hk) hk'.1, hk'.2⟩
  · have heq : rank k = bound := Int.le_antisymm (hbound k hk) hle
    exact ⟨[k], course_of_below_error (hbelow k hk) (herr k hk heq), by simpa using hk,
      by simp [Int.range, heq]⟩

end Ladder

theorem follows_advance {β : Type} (hnext : SteadySucc next) (v : τ) :
    Follows .error (advance v : Attempt τ (τ ⊕ β)).run (.cons v (.done ((next v).map .inl))) := by
  refine follows_cons.2 ⟨_, .refl _, follows_done.2 ?_, fun err => .refl _⟩
  refine ((hnext v).lift.bind _).trans ?_
  cases next v <;> exact .refl _

theorem follows_stepEndless (hnext : SteadySucc next) (first : τ) :
    Follows .error (stepEndless first).run (course next first none false) :=
  follows_loop (fun v => follows_advance hnext v) first

def belowPass (next : τ → Except Error τ) (last v : τ) : (τ × Except Error (τ ⊕ τ)) ⊕ Except Error τ :=
  match ordering v last with
  | .error err => .inr (.error err)
  | .ok .lt => .inl (v, (next v).map .inl)
  | .ok _ => .inr (.ok v)

def finishCourse (last : τ) (excludeEnd : Bool) (v : τ) : Course τ (Except Error Unit) :=
  if excludeEnd then .done (.ok ())
  else match ordering v last with
    | .error err => .done (.error err)
    | .ok .eq => .cons v (.done (.ok ()))
    | .ok _ => .done (.ok ())

theorem follows_finish (last : τ) (excludeEnd : Bool) (v : τ) :
    Follows .error (finish last excludeEnd v).run (finishCourse last excludeEnd v) := by
  cases excludeEnd with
  | true => exact follows_pure _
  | false =>
      rw [finishCourse, finish]
      cases ordering v last with
      | error err => exact follows_pure _
      | ok o =>
          cases o with
          | lt | gt => exact follows_pure _
          | eq => exact follows_cons.2 ⟨_, .refl _, follows_pure _, fun err => .refl _⟩

/-- The loop through the elements below the last one, and the check after it, make one course. -/
theorem follows_stepTo (hnext : SteadySucc next) (first last : τ) (excludeEnd : Bool) :
    Follows .error (stepTo first last excludeEnd).run (course next first (some last) excludeEnd) := by
  refine follows_loop_bind (belowPass next last) (fun v => course next v (some last) excludeEnd)
    (finishCourse last excludeEnd) (fun v => ?_) (follows_finish last excludeEnd) (fun v => ?_) first
  · rw [belowPass, belowStep]
    cases ordering v last with
    | error err => exact follows_pure _
    | ok o =>
        cases o with
        | lt => exact follows_advance hnext v
        | eq | gt => exact follows_pure _
  · rw [belowPass, ordering]
    cases hc : compare v last with
    | none => exact course_of_none hc
    | some o =>
        cases o with
        | lt =>
            cases hv : next v with
            | ok v' => exact course_of_lt hc hv
            | error err => exact course_of_below_error (by simpa using hc) hv
        | eq =>
            rw [course_of_eq hc]
            simp only [Stage.onward, finishCourse, ordering, hc]
            cases excludeEnd <;> rfl
        | gt =>
            rw [course_of_gt hc]
            simp only [Stage.onward, finishCourse, ordering, hc, ite_self]

theorem follows_stepBounded (hnext : SteadySucc next) (first last : τ) (excludeEnd : Bool) :
    Follows .error (stepBounded first last excludeEnd).run
      (course next first (some last) excludeEnd) := by
  have hto := follows_stepTo hnext first last excludeEnd
  unfold stepBounded
  cases ho : ordering first last with
  | error err =>
      rw [course_of_inr (r := .error err) (by rw [boundedPass, ho])]
      exact follows_pure _
  | ok o =>
      cases o with
      | lt => exact hto
      | eq => exact hto
      | gt =>
          rw [course_of_inr (r := .ok ()) (by rw [boundedPass, ho])]
          exact follows_done.2 (note_leadsTo _ _)

theorem follows_stepRange (hnext : SteadySucc next) {first : τ}
    (hfirst : (respondsToSucc first).LeadsTo (.pure true)) (last? : Option τ) (excludeEnd : Bool) :
    Follows .error (stepRange first last? excludeEnd).run (course next first last? excludeEnd) := by
  have hasked : ((respondsToSucc first).bind fun b => .pure (.ok b)).LeadsTo
      (.pure (.ok true : Except Error Bool)) := hfirst.bind _
  refine .of_leadsTo (hasked.lift.bind _) ?_
  cases last? with
  | none => exact .of_leadsTo (note_leadsTo _ _) (follows_stepEndless hnext first)
  | some last => exact follows_stepBounded hnext first last excludeEnd

theorem follows_stepRange_of_not {first : τ} (hfirst : (respondsToSucc first).LeadsTo (.pure false))
    (last? : Option τ) (excludeEnd : Bool) :
    Follows .error (stepRange first last? excludeEnd).run
      (.done (.error (.cannotIterate (className first)))) := by
  have hasked : ((respondsToSucc first).bind fun b => .pure (.ok b)).LeadsTo
      (.pure (.ok false : Except Error Bool)) := hfirst.bind _
  exact .of_leadsTo (hasked.lift.bind _) (follows_pure _)

end Steppable

end Stepwise
