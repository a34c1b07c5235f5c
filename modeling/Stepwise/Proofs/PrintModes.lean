import Stepwise.Proofs.Output
import Stepwise.Proofs.Recording

namespace Stepwise

open Routine

namespace Mode

def report : Except Error Value → Except Failure Unit
  | .ok _ => .ok ()
  | .error err => .error (.runtime err)

def resultLine : Except Error Value → List String
  | .ok v => ["=> " ++ v.inspect]
  | .error _ => []

def arrayLine (ys : List Value) : Except Error Value → List String
  | .ok _ => [(Value.array ys).inspect]
  | .error _ => []

def lines (ys : List Value) (r : Except Error Value) : Mode → List String
  | eager => ys.map Value.inspect ++ resultLine r
  | toArray => arrayLine ys r
  | lazy none => ys.map Value.inspect
  | lazy (some k) => (ys.take k).map Value.inspect

/-- A bounded pull does not come to the result of a call that has so many elements. -/
def outcome (ys : List Value) (r : Except Error Value) : Mode → Except Failure Unit
  | lazy (some k) => if k ≤ ys.length then .ok () else report r
  | _ => report r

/-- The lines of a source in a mode, and how printing them ends: all of a source that ends, or the first
elements of any source. -/
inductive Shows (source : Producer) (w : Session) : Mode → List String → Except Failure Unit → Prop
  | all {ys : List Value} {r : Except Error Value} (h : source.Records w ys r) (mode : Mode) :
      Shows source w mode (mode.lines ys r) (mode.outcome ys r)
  | first {ys : List Value} (h : source.RecordsFirst w ys) :
      Shows source w (.lazy (some ys.length)) (ys.map Value.inspect) (.ok ())

end Mode

def withNewline (line : String) : String := line ++ "\n"

def printed (lines : List String) : ByteArray := textBytes (lines.map withNewline)

theorem Routine.EmitsAll.finishes {ι α : Type} {c : Routine ι α} {w w' : Session} {xs : List ι} {a : α}
    (h : EmitsAll c w xs a w') : Finishes c w a w' := by
  obtain ⟨d, v, he, hd⟩ := h
  induction he with
  | nil => exact .done hd
  | cons hyield _ ih => exact .yielded hyield (ih hd)

namespace Printing

variable {α β : Type} {x : Printing α} {f : α → Printing β} {w w' v : Session}

theorem emitsAll_line (text : String) (w : Session) :
    EmitsAll (Printing.line text).run w [withNewline text] (.ok ()) w :=
  ⟨_, w, .cons (reaches_yield.2 ⟨rfl, rfl⟩) (.nil _ w), reaches_pure.2 ⟨rfl, rfl⟩⟩

theorem emitsAll_after {a : α} {texts : List String} {r : Except Failure β}
    (hx : x.run.Reaches w (.done (.ok a)) v) (h : EmitsAll (f a).run v texts r w') :
    EmitsAll (x >>= f).run w texts r w' :=
  h.of_forall_reaches fun _ _ hp => reaches_bind.2 ⟨_, _, hx, hp⟩

theorem emitsAll_error {err : Failure} (hx : x.run.Reaches w (.done (.error err)) v) :
    EmitsAll (x >>= f).run w [] (.error err) v :=
  emitsAll_of_reaches (reaches_bind.2 ⟨_, _, hx, reaches_pure.2 ⟨rfl, rfl⟩⟩)

theorem reaches_attempt_error {a : Attempt String α} {err : Error}
    (h : a.run.Reaches w (.done (.error err)) v) :
    (attempt a).run.Reaches w (.done (.error (.runtime err))) v :=
  reaches_bind.2 ⟨_, _, h, reaches_pure.2 ⟨rfl, rfl⟩⟩

end Printing

namespace Call

variable {c : Call} {w v : Session} {e : Enumerator} {t u : CallCourse} {xs : List (List Value)}
  {r : Except Error Value}

def elementLine (args : List Value) : String := withNewline (Value.pack args).inspect

theorem map_elementLine (xs : List (List Value)) :
    xs.map elementLine = ((xs.map Value.pack).map Value.inspect).map withNewline := by
  rw [List.map_map, List.map_map]
  rfl

section Eager

theorem emits_printing {d : Routine (List Value) (Except Error Value)}
    (h : Follows .error d (.prepend xs u)) (hw : w.methods = .builtin) :
    ∃ d' v, Emits (.drive d false printing conclude) w (xs.map elementLine)
      (.drive d' false printing conclude) v ∧ Follows .error d' u ∧ v.methods = .builtin := by
  induction xs generalizing d w with
  | nil => exact ⟨d, w, .nil _ w, h, hw⟩
  | cons x xs ih =>
      obtain ⟨rest, hrest, hok, -⟩ := follows_cons.1 h
      obtain ⟨w₁, hyield, hw₁⟩ := hrest.reaches hw (reaches_yield.2 ⟨rfl, rfl⟩)
      obtain ⟨d', v, hemits, hd'⟩ := ih hok ((Session.methods_of_unlogged hw₁).trans hw)
      exact ⟨d', v, .cons (reaches_drive.2 (.inr ⟨x, rest, w₁, hyield, reaches_yield.2 ⟨rfl, rfl⟩⟩))
        hemits, hd'⟩

theorem emitsAll_conclude (r : Except Error Value) (w : Session) :
    EmitsAll (conclude false r) w ((Mode.resultLine r).map withNewline) (Mode.report r) w := by
  cases r with
  | ok v => exact Printing.emitsAll_line _ w
  | error err => exact emitsAll_of_reaches (reaches_pure.2 ⟨rfl, rfl⟩)

theorem emitsAll_runEager (h : Follows .error (.invoke c.receiver c.method c.args .pure) (.ofList xs r))
    (hw : w.methods = .builtin) : ∃ w', EmitsAll c.runEager.run w
      ((Mode.eager.lines (xs.map Value.pack) r).map withNewline) (Mode.report r) w' := by
  obtain ⟨d, v, hemits, hd, hv⟩ := emits_printing (u := .done r) h hw
  obtain ⟨v', hdone, -⟩ := (follows_done.1 hd).reaches hv (reaches_pure.2 ⟨rfl, rfl⟩)
  rw [runEager_run, Mode.lines, List.map_append, ← map_elementLine]
  refine ⟨v', .of_emits hemits ((emitsAll_conclude r v').of_forall_reaches fun p u hp => ?_)⟩
  exact reaches_drive.2 (.inl ⟨r, v', hdone, hp⟩)

end Eager

theorem emitsAll_runToArray (h : c.DefersTo w e v) (he : Follows .error e.call (.ofList xs r)) :
    ∃ w', EmitsAll c.runToArray.run w ((Mode.toArray.lines (xs.map Value.pack) r).map withNewline)
      (Mode.report r) w' := by
  have hfind : v.find e.toValue "each" = some Enumerator.eachMethod := by
    rw [Session.find, h.methods]
    rfl
  obtain ⟨v', hcollect, -⟩ := (collect_leadsTo (ι := String) ((Enumerator.Drives.each hfind).follows
    he)).reaches h.methods (reaches_pure.2 ⟨rfl, rfl⟩)
  have hsent := Printing.reaches_attempt h.sent
  cases r with
  | ok a =>
      refine ⟨v', Printing.emitsAll_after hsent (Printing.emitsAll_after ?_
        (Printing.emitsAll_line _ v'))⟩
      exact Printing.reaches_attempt hcollect
  | error err =>
      refine ⟨v', Printing.emitsAll_after hsent (Printing.emitsAll_error ?_)⟩
      exact Printing.reaches_attempt_error hcollect

section Lazy

variable {take : Option Nat}

theorem emits_pulls {n p : Nat} (he : Follows .error e.call t) (h : Tracks e t w (.before p))
    (ht : t.drop p = .prepend xs u) (htake : take.all (n + xs.length ≤ ·)) :
    ∃ v, Emits (pulls e take n) w (xs.map elementLine) (pulls e take (n + xs.length)) v ∧
      Tracks e t v (.before (p + xs.length)) := by
  induction xs generalizing n p w with
  | nil => exact ⟨w, .nil _ w, h⟩
  | cons x xs ih =>
      have hx : t.event p = .inl x := congrArg (Course.event · 0) ht
      have hrest : t.drop (p + 1) = .prepend xs u := by
        rw [← Course.tail_drop, ht]
        rfl
      have hn : take.all (n < ·) := by
        cases take with
        | none => rfl
        | some k =>
            simp only [Option.all_some, List.length_cons, decide_eq_true_eq] at htake ⊢
            omega
      have hlength : n + (xs.length + 1) = n + 1 + xs.length := by omega
      have hlength' : p + (xs.length + 1) = p + 1 + xs.length := by omega
      rw [List.length_cons, hlength] at htake
      rw [List.length_cons, hlength, hlength']
      obtain ⟨k, w₁, hyield, hk, hw₁⟩ := pulls_before_end hn he h hx
      obtain ⟨v, hemits, hv⟩ := ih hw₁ hrest htake
      rw [← hk] at hemits
      exact ⟨v, .cons hyield hemits, hv⟩

theorem DefersTo.tracks (h : c.DefersTo w e v) : Tracks e t v (.before 0) := by
  refine ⟨h.methods, ?_⟩
  rw [h.fresh]
  exact .fresh

theorem emitsAll_runLazy (h : c.DefersTo w e v) {texts : List String} {o : Except Failure Nat}
    {v' : Session} (hpulls : EmitsAll (pulls e take 0) v texts o v') :
    ∃ w', EmitsAll (c.runLazy take).run w texts (o.map fun _ => ()) w' := by
  have hasked : (Printing.attempt (Attempt.ofExcept e.toValue.asEnumerator)).run.Reaches v
      (.done (.ok e)) v := reaches_pure.2 ⟨rfl, rfl⟩
  have hrest : ∃ w', EmitsAll (do
      let pulled ← (ExceptT.mk (pulls e take 0) : Printing Nat)
      Printing.attempt (Attempt.note (.pulled pulled))).run v texts (o.map fun _ => ()) w' := by
    rw [← List.append_nil texts]
    cases o with
    | ok pulled =>
        exact ⟨v'.note (.pulled pulled),
          hpulls.bind (emitsAll_of_reaches (reaches_note.2 (reaches_pure.2 ⟨rfl, rfl⟩)))⟩
    | error err => exact ⟨v', hpulls.bind (emitsAll_of_reaches (reaches_pure.2 ⟨rfl, rfl⟩))⟩
  obtain ⟨w', hw'⟩ := hrest
  exact ⟨w', Printing.emitsAll_after (Printing.reaches_attempt h.sent)
    (Printing.emitsAll_after hasked hw')⟩

theorem emitsAll_runLazy_first (h : c.DefersTo w e v) (he : Follows .error e.call (.prepend xs u)) :
    ∃ w', EmitsAll (c.runLazy (some xs.length)).run w (xs.map elementLine) (.ok ()) w' := by
  have htake : (some xs.length).all (0 + xs.length ≤ ·) := by simp
  have hfull : ¬ (some xs.length).all (0 + xs.length < ·) := by simp
  obtain ⟨v', hemits, -⟩ := emits_pulls he h.tracks (Course.drop_zero _) htake
  have hall := EmitsAll.of_emits hemits
    (emitsAll_of_reaches ((reaches_pulls_full hfull).2 ⟨rfl, rfl⟩))
  rw [List.append_nil] at hall
  exact emitsAll_runLazy h hall

theorem emitsAll_runLazy_all (h : c.DefersTo w e v) (he : Follows .error e.call (.ofList xs r))
    (hr : Genuine r) (hopen : take.all (0 + xs.length < ·)) :
    ∃ w', EmitsAll (c.runLazy take).run w (xs.map elementLine) (Mode.report r) w' := by
  have htake : take.all (0 + xs.length ≤ ·) := by
    cases take with
    | none => rfl
    | some k =>
        simp only [Option.all_some, decide_eq_true_eq] at hopen ⊢
        omega
  have hend : (Course.ofList xs r).event (0 + xs.length) = .inr r := by
    rw [Nat.zero_add]
    exact congrArg (Course.event · 0) (Course.drop_prepend xs (.done r))
  obtain ⟨v', hemits, hv'⟩ := emits_pulls (u := .done r) he h.tracks (Course.drop_zero _) htake
  obtain ⟨v'', hdone⟩ := pulls_at_end hopen he hv' hend
  have hall := EmitsAll.of_emits hemits (emitsAll_of_reaches hdone)
  have hreport : ((pullsEnd (0 + xs.length) r).map fun _ => ()) = Mode.report r := by
    cases r with
    | ok a => rfl
    | error err =>
        cases err with
        -- a pull takes this error as the end of the iteration, and not as a failure
        | stopIteration => exact absurd rfl hr
        | _ => rfl
  rw [List.append_nil] at hall
  rw [← hreport]
  exact emitsAll_runLazy h hall

end Lazy

section Run

variable {mode : Mode} {lines texts : List String} {o : Except Failure Unit}

def printMode (c : Call) : Mode → Printing Unit
  | .eager => c.runEager
  | .toArray => c.runToArray
  | .lazy take => c.runLazy take

theorem run_eq_of_bounded (hb : c.checkBounded mode = .ok ()) :
    c.run mode = (do
      Printing.attempt (Attempt.note (.running c.receiver c.method mode.form))
      c.printMode mode) := by
  unfold run
  rw [hb]
  cases mode <;> rfl

theorem emitsAll_run (hb : c.checkBounded mode = .ok ()) {w' : Session}
    (h : EmitsAll (c.printMode mode).run (w.note (.running c.receiver c.method mode.form)) texts o w') :
    EmitsAll (c.run mode).run w texts o w' := by
  rw [run_eq_of_bounded hb]
  exact Printing.emitsAll_after (reaches_note.2 (reaches_pure.2 ⟨rfl, rfl⟩)) h

theorem emitsAll_printMode_noMethod (hf : w.find c.receiver c.method = none) (mode : Mode) :
    EmitsAll (c.printMode mode).run w []
      (.error (.runtime (.noMethod c.method c.receiver.className))) w := by
  have hinvoke : (invoke c.receiver c.method c.args .pure).Reaches w
      (.done (.error (.noMethod c.method c.receiver.className))) w :=
    (reaches_invoke_none hf).2 (reaches_pure.2 ⟨rfl, rfl⟩)
  have hsend : (Attempt.send c.receiver c.method c.args : Attempt String Value).run.Reaches w
      (.done (.error (.noMethod c.method c.receiver.className))) w :=
    (reaches_send_none hf).2 (reaches_pure.2 ⟨rfl, rfl⟩)
  cases mode with
  | eager =>
      apply emitsAll_of_reaches
      exact reaches_drive.2 (.inl ⟨_, w, hinvoke, reaches_pure.2 ⟨rfl, rfl⟩⟩)
  | toArray => exact Printing.emitsAll_error (Printing.reaches_attempt_error hsend)
  | lazy take => exact Printing.emitsAll_error (Printing.reaches_attempt_error hsend)

theorem emitsAll_run_refused {f : Failure} (hb : c.checkBounded mode = .error f) (w : Session) :
    EmitsAll (c.run mode).run w [] (.error f) w := by
  unfold run
  rw [hb]
  exact emitsAll_of_reaches (reaches_pure.2 ⟨rfl, rfl⟩)

/-- What a recording block sees decides what is printed. -/
theorem emitsAll_run_of_shows (hentry : IterationEntry c.receiver c.method)
    (hargs : c.method ≠ "each" ∨ c.args = []) (hb : c.checkBounded mode = .ok ())
    (hw : w.methods = .builtin) (hx : w.externals = [])
    (h : mode.Shows (Attempt.invoke c.receiver c.method c.args) w lines o) :
    ∃ w', EmitsAll (c.run mode).run w (lines.map withNewline) o w' := by
  have hcall := follows_call c.receiver c.method c.args hentry.iterationCall
  obtain ⟨e, v, hdefers⟩ := exists_defersTo (w := w.note (.running c.receiver c.method mode.form))
    hentry hargs hw hx
  have he : Follows .error e.call (callCourse c.receiver c.method c.args) := hdefers.call ▸ hcall
  suffices hmode : ∃ w', EmitsAll (c.printMode mode).run
      (w.note (.running c.receiver c.method mode.form)) (lines.map withNewline) o w' by
    obtain ⟨w', hw'⟩ := hmode
    exact ⟨w', emitsAll_run hb hw'⟩
  have hnoted : (w.note (.running c.receiver c.method mode.form)).methods = .builtin := hw
  generalize w.note (.running c.receiver c.method mode.form) = noted at hdefers hnoted ⊢
  cases h with
  | first h =>
      obtain ⟨xs, u, hxs, rfl⟩ := (Attempt.recordsFirst_iff hcall hw).1 h
      rw [hxs] at he
      rw [← map_elementLine, List.length_map]
      exact emitsAll_runLazy_first hdefers he
  | @all ys r h =>
      obtain ⟨xs, hxs, rfl⟩ := (Attempt.records_iff hcall hw).1 h
      have hgenuine : Genuine r := by
        have hends := endsIn_callCourse c.receiver c.method c.args
        rwa [hxs, Course.endsIn_ofList] at hends
      rw [hxs] at hcall he
      cases mode with
      | eager => exact emitsAll_runEager hcall hnoted
      | toArray => exact emitsAll_runToArray hdefers he
      | lazy take =>
          cases take with
          | none =>
              rw [Mode.lines, ← map_elementLine]
              exact emitsAll_runLazy_all hdefers he hgenuine rfl
          | some k =>
              rw [Mode.lines, Mode.outcome, ← List.map_take, ← map_elementLine, List.length_map]
              by_cases hk : k ≤ xs.length
              · rw [if_pos hk]
                rw [Course.ofList_eq_prepend xs r k] at he
                have hlength : (xs.take k).length = k := List.length_take_of_le hk
                have hfirst := emitsAll_runLazy_first hdefers he
                rwa [hlength] at hfirst
              · rw [if_neg hk, List.take_of_length_le (by omega)]
                refine emitsAll_runLazy_all hdefers he hgenuine ?_
                rw [Option.all_some, decide_eq_true_eq]
                omega

end Run

section Literal

/-- A call that `times`, `upto` or `each` makes of literals. -/
inductive IsLiteral : Call → Prop
  | times (n : String) : IsLiteral (.times n)
  | upto (start bound : String) : IsLiteral (.upto start bound)
  | each {first : String} {last? : Option String} {exclusive : Bool} {c : Call}
      (h : Call.each first last? exclusive = .ok c) : IsLiteral c

def Endless (c : Call) : Prop := ∃ first excludeEnd, c.receiver = .range first .nil excludeEnd

theorem checkBounded_of_endless (h : c.Endless) {mode : Mode} (hmode : ∀ k, mode ≠ .lazy (some k)) :
    c.checkBounded mode = .error (.unbounded c.receiver.inspect) := by
  obtain ⟨first, excludeEnd, hrange⟩ := h
  unfold checkBounded
  rw [hrange]
  cases mode with
  | lazy take =>
      cases take with
      | none => rfl
      | some k => exact absurd rfl (hmode k)
  | _ => rfl

theorem checkBounded_of_not_endless (h : ¬ c.Endless) (mode : Mode) :
    c.checkBounded mode = .ok () := by
  unfold checkBounded
  split
  · rfl
  · exact absurd ⟨_, _, ‹_›⟩ h
  · rfl

theorem checkBounded_take (c : Call) (k : Nat) : c.checkBounded (.lazy (some k)) = .ok () := by
  obtain ⟨receiver, method, args⟩ := c
  cases receiver <;> rfl

theorem read_ne_range (text : String) (first last : Value) (excludeEnd : Bool) :
    Literal.read text ≠ .range first last excludeEnd := by
  unfold Literal.read
  repeat' split
  all_goals simp

theorem int_or_lookup_none (v : Value) :
    (∃ n, v = .int n) ∨ MethodTable.builtin.lookup v.classOf "times" = none ∧
      MethodTable.builtin.lookup v.classOf "upto" = none := by
  cases v with
  | int n => exact .inl ⟨n, rfl⟩
  | bool b => cases b <;> exact .inr ⟨rfl, rfl⟩
  | _ => exact .inr ⟨rfl, rfl⟩

theorem IsLiteral.entry_or_lookup_none (h : c.IsLiteral) :
    (IterationEntry c.receiver c.method ∧ (c.method ≠ "each" ∨ c.args = [])) ∨
      (MethodTable.builtin.lookup c.receiver.classOf c.method = none ∧ ¬ c.Endless) := by
  cases h with
  | times text =>
      obtain ⟨n, hn⟩ | ⟨hnone, -⟩ := int_or_lookup_none (Literal.read text)
      · exact .inl ⟨by rw [Call.times, hn]; exact .times n, .inl (by simp [Call.times])⟩
      · exact .inr ⟨hnone, fun ⟨first, excludeEnd, hr⟩ => read_ne_range text first .nil excludeEnd hr⟩
  | upto start bound =>
      obtain ⟨n, hn⟩ | ⟨-, hnone⟩ := int_or_lookup_none (Literal.read start)
      · exact .inl ⟨by rw [Call.upto, hn]; exact .upto n, .inl (by simp [Call.upto])⟩
      · exact .inr ⟨hnone, fun ⟨first, excludeEnd, hr⟩ => read_ne_range start first .nil excludeEnd hr⟩
  | each h =>
      obtain ⟨r, -, rfl⟩ := each_eq_ok_iff.1 h
      exact .inl ⟨.range r.first r.last r.excludeEnd, .inr rfl⟩

end Literal

section Ends

variable {mode : Mode}

theorem ends_callCourse_or_range {receiver : Value} {method : String}
    (h : IterationEntry receiver method) (args : List Value) :
    (callCourse receiver method args).Ends ∨ ∃ r : Range, receiver = r.toValue ∧ method = "each" := by
  cases h with
  | range first last excludeEnd => exact .inr ⟨⟨first, last, excludeEnd⟩, rfl, rfl⟩
  | times | items =>
      simp only [callCourse]
      split
      · exact .inl (Course.ends_ofList _ _)
      · exact .inl (Course.ends_done _)
  | upto n =>
      simp only [callCourse]
      split
      · split
        · exact .inl (Course.ends_ofList _ _)
        · exact .inl (Course.ends_done _)
      · exact .inl (Course.ends_done _)

theorem exists_shows_take (hentry : IterationEntry c.receiver c.method) (hw : w.methods = .builtin)
    (k : Nat) : ∃ lines o,
      (Mode.lazy (some k)).Shows (Attempt.invoke c.receiver c.method c.args) w lines o := by
  have hcall := follows_call c.receiver c.method c.args hentry.iterationCall
  obtain ⟨xs, u, hlength, hxs⟩ | ⟨xs, r, -, hxs⟩ :=
    (callCourse c.receiver c.method c.args).exists_prepend_or_ofList k
  · have hfirst := Mode.Shows.first ((Attempt.recordsFirst_iff hcall hw).2 ⟨xs, u, hxs, rfl⟩)
    rw [List.length_map, hlength] at hfirst
    exact ⟨_, _, hfirst⟩
  · exact ⟨_, _, .all ((Attempt.records_iff hcall hw).2 ⟨xs, hxs, rfl⟩) _⟩

theorem ends_of_emitsAll (hentry : IterationEntry c.receiver c.method)
    (hargs : c.method ≠ "each" ∨ c.args = []) (hb : c.checkBounded mode = .ok ())
    (hmode : ∀ k, mode ≠ .lazy (some k)) (hw : w.methods = .builtin) (hx : w.externals = [])
    {texts : List String} {o : Except Failure Unit} {w' : Session}
    (h : EmitsAll (c.run mode).run w texts o w') : (callCourse c.receiver c.method c.args).Ends := by
  obtain hends | ⟨r, hr, heach⟩ := ends_callCourse_or_range hentry c.args
  · exact hends
  · obtain ⟨receiver, method, args⟩ := c
    obtain rfl : receiver = r.toValue := hr
    obtain rfl : method = "each" := heach
    obtain rfl : args = [] := hargs.resolve_left fun hne => hne rfl
    exact (finishes_run_each_iff r hmode hw hx hb).1 ⟨o, w', h.finishes⟩

theorem exists_shows (hentry : IterationEntry c.receiver c.method)
    (hargs : c.method ≠ "each" ∨ c.args = []) (hb : c.checkBounded mode = .ok ())
    (hw : w.methods = .builtin) (hx : w.externals = []) {texts : List String}
    {o : Except Failure Unit} {w' : Session} (h : EmitsAll (c.run mode).run w texts o w') :
    ∃ lines o', mode.Shows (Attempt.invoke c.receiver c.method c.args) w lines o' := by
  by_cases hmode : ∀ k, mode ≠ .lazy (some k)
  · obtain ⟨xs, r, hxs⟩ := (ends_of_emitsAll hentry hargs hb hmode hw hx h).eq_ofList
    have hcall := follows_call c.receiver c.method c.args hentry.iterationCall
    exact ⟨_, _, .all ((Attempt.records_iff hcall hw).2 ⟨xs, hxs, rfl⟩) mode⟩
  · obtain ⟨k, rfl⟩ : ∃ k, mode = .lazy (some k) := by simpa using hmode
    exact exists_shows_take hentry hw k

end Ends

/-- Take a call that the command line makes of literals. If its receiver does not have the method, all modes
print nothing and fail alike. If it goes through an endless range, only a bounded pull is not refused.
Otherwise what a recording block sees of the call decides what each mode prints, and how it ends. A bounded
pull always ends, also where the call does not. -/
theorem IsLiteral.modes_print_alike {c : Call} (hc : c.IsLiteral) {w : Session}
    (hw : w.methods = .builtin) (hx : w.externals = []) :
    (w.find c.receiver c.method = none → ∀ mode, (c.run mode).Outputs none w .empty
      (.error (.runtime (.noMethod c.method c.receiver.className)))) ∧
    (c.Endless → ∀ mode, (∀ k, mode ≠ .lazy (some k)) → (c.run mode).Outputs none w .empty
      (.error (.unbounded c.receiver.inspect))) ∧
    (w.find c.receiver c.method ≠ none →
      (∀ mode, (c.Endless → ∃ k, mode = .lazy (some k)) → ∀ bytes o,
        (c.run mode).Outputs none w bytes o ↔
          ∃ lines, mode.Shows (Attempt.invoke c.receiver c.method c.args) w lines o ∧
            bytes = printed lines) ∧
      ∀ k, ∃ lines o, (Mode.lazy (some k)).Shows (Attempt.invoke c.receiver c.method c.args) w lines o) := by
  have hfind : w.find c.receiver c.method = MethodTable.builtin.lookup c.receiver.classOf c.method := by
    rw [Session.find, hw]
  refine ⟨?_, ?_, ?_⟩
  · intro hnone mode
    have hbounded : ¬ c.Endless := by
      obtain ⟨hentry, -⟩ | ⟨-, hbounded⟩ := hc.entry_or_lookup_none
      · obtain ⟨m, hm, -⟩ := hentry.plain_run []
        simp [hfind, hm] at hnone
      · exact hbounded
    have hfails := emitsAll_printMode_noMethod
      (w := w.note (.running c.receiver c.method mode.form)) hnone mode
    exact Printing.outputs_iff.2 ⟨[], _, emitsAll_run (checkBounded_of_not_endless hbounded mode) hfails,
      textBytes_nil.symm⟩
  · intro hendless mode hmode
    exact Printing.outputs_iff.2
      ⟨[], w, emitsAll_run_refused (checkBounded_of_endless hendless hmode) w, textBytes_nil.symm⟩
  · intro hfound
    obtain ⟨hentry, hargs⟩ := hc.entry_or_lookup_none.resolve_right fun h => hfound (hfind.trans h.1)
    refine ⟨fun mode hmode bytes o => ?_, exists_shows_take hentry hw⟩
    have hb : c.checkBounded mode = .ok () := by
      by_cases hendless : c.Endless
      · obtain ⟨k, rfl⟩ := hmode hendless
        exact checkBounded_take c k
      · exact checkBounded_of_not_endless hendless mode
    rw [Printing.outputs_iff]
    constructor
    · rintro ⟨texts, w', htexts, rfl⟩
      obtain ⟨lines, o', hshows⟩ := exists_shows hentry hargs hb hw hx htexts
      obtain ⟨v, hlines⟩ := emitsAll_run_of_shows hentry hargs hb hw hx hshows
      obtain ⟨rfl, rfl⟩ := htexts.unique hlines
      exact ⟨lines, hshows, rfl⟩
    · rintro ⟨lines, hshows, rfl⟩
      obtain ⟨w', hlines⟩ := emitsAll_run_of_shows hentry hargs hb hw hx hshows
      exact ⟨_, w', hlines, rfl⟩

theorem IsLiteral.modes_print_alike_endless :
    let c : Call := ⟨.range (.int (Int64.maxValue - 1)) .nil false, "each", []⟩
    Call.each "9223372036854775806" none false = .ok c ∧
      (c.run .toArray).Outputs none .start .empty (.error (.unbounded "9223372036854775806..")) ∧
      (c.run (.lazy (some 5))).Outputs none .start
        (printed ["9223372036854775806", "9223372036854775807"])
        (.error (.runtime (.overflow "9223372036854775807"))) := by
  intro c
  have hc : Call.each "9223372036854775806" none false = .ok c := rfl
  have hrecords : (Attempt.invoke c.receiver c.method c.args).Records .start
      [.int (Int64.maxValue - 1), .int Int64.maxValue]
      (.error (.overflow (Value.integerText Int64.maxValue))) := ⟨_, 40, rfl⟩
  obtain ⟨-, hrefused, hfound⟩ := IsLiteral.modes_print_alike (w := .start) (.each hc) rfl rfl
  have htake := ((hfound (by decide)).1 (.lazy (some 5)) (fun _ => ⟨5, rfl⟩) _ _).2
    ⟨_, .all hrecords _, rfl⟩
  exact ⟨hc, hrefused ⟨_, _, rfl⟩ .toArray nofun, htake⟩

end Call

end Stepwise
