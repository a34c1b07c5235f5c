import Stepwise.Proofs.Stopping

namespace Stepwise

open Routine

namespace Course

variable {ι α : Type} {fail : Error → α}

def prepend (xs : List ι) (t : Course ι α) : Course ι α := xs.foldr cons t

@[simp]
theorem prepend_nil (t : Course ι α) : prepend [] t = t := rfl

@[simp]
theorem prepend_cons (x : ι) (xs : List ι) (t : Course ι α) :
    prepend (x :: xs) t = cons x (prepend xs t) := rfl

theorem prepend_done (xs : List ι) (a : α) : prepend xs (done a) = ofList xs a := rfl

theorem ofList_eq_prepend (xs : List ι) (a : α) (k : Nat) :
    ofList xs a = prepend (xs.take k) (ofList (xs.drop k) a) := by
  rw [ofList, ofList, prepend, ← List.foldr_append, List.take_append_drop]

theorem drop_prepend (xs : List ι) (t : Course ι α) : (prepend xs t).drop xs.length = t := by
  induction xs with
  | nil => exact t.drop_zero
  | cons x xs ih =>
      rw [List.length_cons, ← drop_tail, prepend_cons, tail_cons]
      exact ih

theorem after_prepend (xs : List ι) (t : Course ι α) :
    (prepend xs t).after fail (xs.map fun x => (x, .ok ())) = t := by
  induction xs with
  | nil => rfl
  | cons x xs ih => exact ih

theorem admits_succeeding_iff {xs : List ι} {t : Course ι α} :
    t.Admits fail (xs.map fun x => (x, .ok ())) ↔ ∃ u, t = prepend xs u := by
  induction xs generalizing t with
  | nil => exact iff_of_true trivial ⟨t, rfl⟩
  | cons x xs ih =>
      constructor
      · rintro ⟨hx, hrest⟩
        obtain ⟨u, hu⟩ := ih.1 hrest
        have hu : t.tail = prepend xs u := hu
        exact ⟨u, by rw [prepend_cons, ← hu]; exact eq_cons hx⟩
      · rintro ⟨u, rfl⟩
        exact ⟨rfl, ih.2 ⟨u, rfl⟩⟩

theorem exists_prepend_or_ofList (t : Course ι α) (n : Nat) :
    (∃ xs u, xs.length = n ∧ t = prepend xs u) ∨ ∃ xs a, xs.length < n ∧ t = ofList xs a := by
  induction n generalizing t with
  | zero => exact .inl ⟨[], t, rfl, rfl⟩
  | succ n ih =>
      obtain ⟨a, rfl⟩ | ⟨x, u, rfl⟩ := t.done_or_cons
      · exact .inr ⟨[], a, Nat.succ_pos n, rfl⟩
      · obtain ⟨xs, v, hlen, rfl⟩ | ⟨xs, a, hlen, rfl⟩ := ih u
        · exact .inl ⟨x :: xs, v, congrArg (· + 1) hlen, rfl⟩
        · exact .inr ⟨x :: xs, a, Nat.succ_lt_succ hlen, rfl⟩

end Course

/-- Keeps one value for each call, in the order of the calls, and never fails. -/
def recording {ι : Type} (seen args : List Value) : Routine ι (List Value × Except Error Unit) :=
  .pure (seen ++ [Value.pack args], .ok ())

theorem keepsMethods_recording {ι : Type} : KeepsMethods (recording (ι := ι)) := by
  intro s x w r w' hw h
  obtain ⟨-, rfl⟩ := reaches_pure.1 h
  exact hw

theorem invoked_recording_iff {ι : Type} {s s' : List Value} {w v : Session}
    {calls : List (List Value × Except Error Unit)} :
    Invoked (recording (ι := ι)) s w calls s' v ↔
      ∃ xs : List (List Value), calls = (xs.map fun x => (x, .ok ())) ∧
        s' = s ++ xs.map Value.pack ∧ v = w := by
  constructor
  · intro h
    induction h with
    | nil s w => exact ⟨[], rfl, by simp, rfl⟩
    | @cons s s₁ s' w w₁ w' x answer calls h _ ih =>
        obtain ⟨ho, rfl⟩ := reaches_pure.1 h
        obtain ⟨rfl, rfl⟩ := Prod.mk.inj (Progress.done.inj ho)
        obtain ⟨xs, rfl, rfl, rfl⟩ := ih
        exact ⟨x :: xs, rfl, by simp, rfl⟩
  · rintro ⟨xs, rfl, rfl, rfl⟩
    induction xs generalizing s with
    | nil => simpa using Invoked.nil s v
    | cons x xs ih =>
        have h := ih (s := s ++ [Value.pack x])
        rw [List.append_assoc] at h
        exact .cons (reaches_pure.2 ⟨rfl, rfl⟩) h

namespace Attempt

variable {α : Type}

/-- Driven with a recording block, the source ends with this result, and these values are recorded. -/
def Records (source : Attempt (List Value) α) (w : Session) (ys : List Value) (r : Except Error α) :
    Prop :=
  ∃ w', (source.withBlock [] recording : Routine Empty _).Reaches w (.done (ys, r)) w'

def RecordsFirst (source : Attempt (List Value) α) (w : Session) (ys : List Value) : Prop :=
  ∃ calls d v, Calls (recording (ι := Empty)) source.run [] w calls d ys v

variable {source : Attempt (List Value) α} {t : Course (List Value) (Except Error α)} {w : Session}
  {ys : List Value}

theorem recordsFirst_iff (h : Follows .error source.run t) (hw : w.methods = .builtin) :
    source.RecordsFirst w ys ↔ ∃ xs u, t = .prepend xs u ∧ ys = xs.map Value.pack := by
  constructor
  · rintro ⟨calls, d, v, hcalls⟩
    obtain ⟨ha, v', hinvoked, -⟩ :=
      (h.exists_calls_iff keepsMethods_recording hw).1 ⟨d, v, hcalls, rfl⟩
    obtain ⟨xs, rfl, rfl, -⟩ := invoked_recording_iff.1 hinvoked
    obtain ⟨u, hu⟩ := Course.admits_succeeding_iff.1 ha
    exact ⟨xs, u, hu, rfl⟩
  · rintro ⟨xs, u, hu, rfl⟩
    obtain ⟨d, v, hcalls, -⟩ := (h.exists_calls_iff keepsMethods_recording hw).2
      ⟨Course.admits_succeeding_iff.2 ⟨u, hu⟩, w, invoked_recording_iff.2 ⟨xs, rfl, rfl, rfl⟩, rfl⟩
    exact ⟨_, d, v, hcalls⟩

theorem records_iff (h : Follows .error source.run t) (hw : w.methods = .builtin)
    {r : Except Error α} :
    source.Records w ys r ↔ ∃ xs, t = .ofList xs r ∧ ys = xs.map Value.pack := by
  constructor
  · rintro ⟨w', hr⟩
    obtain ⟨calls, d, s, v, b, v', hcalls, hd, hk⟩ := reaches_drive_done.1 hr
    obtain ⟨ho, -⟩ := reaches_pure.1 hk
    obtain ⟨rfl, rfl⟩ := Prod.mk.inj (Progress.done.inj ho)
    obtain ⟨⟨ha, hend⟩, u, hinvoked, -⟩ :=
      (h.exists_completes_iff keepsMethods_recording hw).1 ⟨v', ⟨d, v, hcalls, hd⟩, rfl⟩
    obtain ⟨xs, rfl, rfl, -⟩ := invoked_recording_iff.1 hinvoked
    obtain ⟨u, rfl⟩ := Course.admits_succeeding_iff.1 ha
    rw [Course.after_prepend] at hend
    exact ⟨xs, by rw [Course.eq_done hend]; rfl, rfl⟩
  · rintro ⟨xs, rfl, rfl⟩
    have hend : ((Course.ofList xs r).after .error (xs.map fun x => (x, .ok ()))).event 0 = .inr r := by
      rw [← Course.prepend_done, Course.after_prepend]
      rfl
    obtain ⟨v, ⟨d, v₁, hcalls, hd⟩, -⟩ := (h.exists_completes_iff keepsMethods_recording hw).2
      ⟨⟨Course.admits_succeeding_iff.2 ⟨_, rfl⟩, hend⟩, w,
        invoked_recording_iff.2 ⟨xs, rfl, rfl, rfl⟩, rfl⟩
    exact ⟨v, reaches_drive_done.2 ⟨_, d, _, v₁, r, v, hcalls, hd, reaches_pure.2 ⟨rfl, rfl⟩⟩⟩

end Attempt

section Collecting

variable {ι α : Type} {source : Attempt (List Value) α} {xs : List (List Value)} {r : Except Error α}

theorem drive_collecting_leadsTo {β : Type} {c : Routine (List Value) (Except Error α)}
    (h : Follows .error c (.ofList xs r)) (s : List Value)
    (k : List Value → Except Error α → Routine ι β) :
    (drive c s collecting k).LeadsTo (k ((xs.map Value.pack).reverse ++ s) r) := by
  induction xs generalizing c s with
  | nil => exact ((follows_done.1 h).drive s _ _).trans (drive_pure_leadsTo r s _ _)
  | cons x xs ih =>
      obtain ⟨rest, hrest, hok, -⟩ := follows_cons.1 h
      have hs : ((x :: xs).map Value.pack).reverse ++ s =
          (xs.map Value.pack).reverse ++ (Value.pack x :: s) := by simp
      rw [hs]
      exact (hrest.drive s _ _).trans ((drive_yield_leadsTo x rest s _ _).trans (ih hok _))

theorem collect_leadsTo (h : Follows .error source.run (.ofList xs r)) :
    (Attempt.collect source : Attempt ι (List Value)).run.LeadsTo
      (.pure (r.map fun _ => xs.map Value.pack)) := by
  refine (drive_collecting_leadsTo h [] _).trans ?_
  rw [List.append_nil]
  cases r with
  | ok a =>
      rw [List.reverse_reverse]
      exact note_leadsTo _ _
  | error err => exact .refl _

end Collecting

end Stepwise
