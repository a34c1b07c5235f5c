import Stepwise.CommandLine.Program
import Stepwise.Proofs.DeferredChecks
import Stepwise.Proofs.Finishing

namespace Stepwise

open Routine

theorem Routine.exists_run_eq_iff {α : Type} {c : Routine Empty α} {w w' : Session} {a : α} :
    (∃ n, c.run n w = some (a, w')) ↔ c.Reaches w (.done a) w' := by
  refine exists_congr fun n => ?_
  rw [Routine.run]
  rcases c.resume n w with _ | ⟨b | ⟨x, _⟩, v⟩
  · simp
  · simp
  · exact nomatch x

theorem Sink.receive_reaches_iff {ι : Type} {s : Sink} (hs : s.room = none) {p : Printing Unit}
    {w : Session} : (∃ o w', (s.receive p : Routine ι _).Reaches w (.done o) w') ↔
      ∃ a w', Finishes p.run w a w' := by
  have hwrite (s : Sink) (text : String) (hs : s.room = none) : ∃ s',
      (.pure (s.write text) : Routine ι (Sink × Except Error Unit)) = .pure (s', .ok ()) ∧
        s'.room = none := by
    refine ⟨(s.write text).1, ?_, ?_⟩ <;> simp [write, hs]
  simp only [receive, reaches_drive_done, finishes_iff_calls hwrite hs]
  constructor
  · rintro ⟨o, w', calls, d, s', v, b, v', hcalls, hd, -⟩
    exact ⟨b, v', calls, d, s', v, hcalls, hd⟩
  · rintro ⟨b, v', calls, d, s', v, hcalls, hd⟩
    exact ⟨_, v', calls, d, s', v, b, v', hcalls, hd, reaches_pure.2 ⟨rfl, rfl⟩⟩

namespace Printing

variable {α β : Type} {x : Printing α} {f : α → Printing β} {w : Session}

theorem finishes_line (text : String) (w : Session) :
    Finishes (Printing.line text).run w (.ok ()) w :=
  .yielded (reaches_yield.2 ⟨rfl, rfl⟩) (.done (reaches_pure.2 ⟨rfl, rfl⟩))

theorem reaches_attempt {a : Attempt String α} {v : α} {w' : Session}
    (h : a.run.Reaches w (.done (.ok v)) w') : (attempt a).run.Reaches w (.done (.ok v)) w' :=
  reaches_bind.2 ⟨_, _, h, reaches_pure.2 ⟨rfl, rfl⟩⟩

theorem finishes_attempt_iff {a : Attempt String α} :
    (∃ r w', Finishes (attempt a).run w r w') ↔ ∃ r w', Finishes a.run w r w' := by
  refine exists_finishes_bind_iff fun r v => ?_
  cases r with
  | ok b => exact ⟨_, v, .done (reaches_pure.2 ⟨rfl, rfl⟩)⟩
  | error err => exact ⟨_, v, .done (reaches_pure.2 ⟨rfl, rfl⟩)⟩

theorem finishes_after {a : α} {v : Session} (h : x.run.Reaches w (.done (.ok a)) v) :
    (∃ r w', Finishes (x >>= f).run w r w') ↔ ∃ r w', Finishes (f a).run v r w' :=
  exists_congr fun _ => exists_congr fun _ => finishes_bind_of_reaches h

theorem finishes_before (hf : ∀ a v, ∃ r w', Finishes (f a).run v r w') :
    (∃ r w', Finishes (x >>= f).run w r w') ↔ ∃ r w', Finishes x.run w r w' := by
  refine exists_finishes_bind_iff fun r v => ?_
  cases r with
  | ok a => exact hf a v
  | error err => exact ⟨_, v, .done (reaches_pure.2 ⟨rfl, rfl⟩)⟩

end Printing

namespace Call

def printing (closed : Bool) (args : List Value) : Routine String (Bool × Except Error Unit) :=
  .yield ((Value.pack args).inspect ++ "\n") fun
    | .ok _ => .pure (closed, .ok ())
    | .error _ => .pure (true, .error (.raised "output closed"))

def conclude (closed : Bool) (result : Except Error Value) : Routine String (Except Failure Unit) :=
  if closed then .pure (.error .output)
  else match result with
    | .ok v => (Printing.line ("=> " ++ v.inspect)).run
    | .error e => .pure (.error (.runtime e))

theorem runEager_run (c : Call) :
    c.runEager.run = .drive (.invoke c.receiver c.method c.args .pure) false printing conclude := rfl

theorem finishes_printing_iff {c : Routine (List Value) (Except Error Value)} {w : Session} :
    (∃ a w', Finishes (.drive c false printing conclude) w a w') ↔ ∃ b w', Finishes c w b w' := by
  constructor
  · rintro ⟨a, w', h⟩
    generalize hd : Routine.drive c false printing conclude = d at h
    induction h generalizing c with
    | done h =>
        subst hd
        obtain ⟨b, v, hb, -⟩ | ⟨x, rest, v, -, hk⟩ := reaches_drive.1 h
        · exact ⟨b, v, .done hb⟩
        · cases (reaches_yield.1 hk).1
    | yielded h hrest ih =>
        subst hd
        obtain ⟨b, v, hb, -⟩ | ⟨x, rest, v, hx, hk⟩ := reaches_drive.1 h
        · exact ⟨b, v, .done hb⟩
        · obtain ⟨hp, rfl⟩ := reaches_yield.1 hk
          obtain ⟨rfl, rfl⟩ := Progress.yielded.inj hp
          obtain ⟨b, u, hb⟩ := ih rfl
          exact ⟨b, u, .yielded hx hb⟩
  · rintro ⟨b, w', h⟩
    induction h with
    | @done c w w' b h =>
        have hk : ∃ a v, Finishes (conclude false b) w' a v := by
          cases b with
          | ok v => exact ⟨_, _, Printing.finishes_line _ _⟩
          | error err => exact ⟨_, _, .done (reaches_pure.2 ⟨rfl, rfl⟩)⟩
        obtain ⟨a, v, ha⟩ := hk
        cases ha with
        | done hr => exact ⟨a, v, .done (reaches_drive.2 (.inl ⟨b, w', h, hr⟩))⟩
        | yielded hy hrest => exact ⟨a, v, .yielded (reaches_drive.2 (.inl ⟨b, w', h, hy⟩)) hrest⟩
    | yielded h _ ih =>
        obtain ⟨a, v, ha⟩ := ih
        exact ⟨a, v, .yielded (reaches_drive.2 (.inr ⟨_, _, _, h, reaches_yield.2 ⟨rfl, rfl⟩⟩)) ha⟩

/-- Without a block, the call is bound into an enumerator from which nothing has been pulled. -/
structure DefersTo (c : Call) (w : Session) (e : Enumerator) (v : Session) : Prop where
  sent : (Attempt.send c.receiver c.method c.args : Attempt String Value).run.Reaches w
    (.done (.ok e.toValue)) v
  call : e.call = .invoke c.receiver c.method c.args .pure
  methods : v.methods = .builtin
  fresh : v.external e = {}

theorem exists_defersTo {c : Call} (h : IterationEntry c.receiver c.method)
    (hargs : c.method ≠ "each" ∨ c.args = []) {w : Session} (hm : w.methods = .builtin)
    (hx : w.externals = []) : ∃ e v, DefersTo c w e v := by
  obtain ⟨m, hlookup, hrun⟩ := h.plain_run c.args
  rw [if_pos hargs] at hrun
  have hf : w.find c.receiver c.method = some m := by rw [Session.find, hm, hlookup]
  let u := (w.note (.sent c.receiver.classOf c.method c.args.length false)).note
    (.deferred c.receiver c.method)
  refine ⟨⟨w.created, c.receiver, c.method, c.args⟩, (u.enumerate c.receiver c.method c.args).2, ?_,
    rfl, hm, ?_⟩
  · refine (reaches_send_some hf).2 ?_
    rw [bind_pure, reaches_lift, hrun]
    exact ⟨_, reaches_note.2 (reaches_enumerate.2 (reaches_pure.2 ⟨rfl, rfl⟩)), rfl⟩
  · change (w.externals.lookup _).getD {} = {}
    rw [hx]
    rfl

section Deferred

variable {c : Call} {w v : Session} {e : Enumerator} {t : CallCourse}

theorem finishes_runEager_iff (ht : Follows .error (.invoke c.receiver c.method c.args .pure) t)
    (hw : w.methods = .builtin) : (∃ r w', Finishes c.runEager.run w r w') ↔ t.Ends := by
  rw [runEager_run, finishes_printing_iff]
  exact ht.finishes_iff hw

theorem finishes_runToArray_iff (h : c.DefersTo w e v) (ht : Follows .error e.call t) :
    (∃ r w', Finishes c.runToArray.run w r w') ↔ t.Ends := by
  have hfind : v.find e.toValue "each" = some Enumerator.eachMethod := by
    rw [Session.find, h.methods]
    rfl
  rw [runToArray, Printing.finishes_after (Printing.reaches_attempt h.sent), Printing.finishes_before,
    Printing.finishes_attempt_iff, Value.elements, finishes_collect_iff]
  · exact ((Enumerator.Drives.each hfind).follows ht).finishes_iff h.methods
  · intro items u
    exact ⟨_, _, Printing.finishes_line _ u⟩

def pulls (e : Enumerator) (take : Option Nat) (n : Nat) : Routine String (Except Failure Nat) :=
  tryLoop n fun n => (pullStep e take n).run

def pulled (e : Enumerator) (take : Option Nat) (n : Nat) :
    Except Error Value → Routine String (Except Failure Nat)
  | .ok a => .yield (a.inspect ++ "\n") fun
    | .ok _ => pulls e take (n + 1)
    | .error _ => .pure (.error .output)
  | .error .stopIteration => .pure (.ok n)
  | .error err => .pure (.error (.runtime err))

section Pulls

variable {take : Option Nat} {n : Nat}

theorem reaches_pulls (hn : take.all (n < ·)) {p : Progress String (Except Failure Nat)}
    {w' : Session} : (pulls e take n).Reaches w p w' ↔
      ∃ a v, e.NextGives w a v ∧ (pulled e take n a).Reaches v p w' := by
  refine reaches_loop.trans ((iff_of_eq (congrArg (Reaches · w p w') ?_)).trans reaches_next)
  change ((pullStep e take n).run.bind _).bind _ = _
  rw [pullStep, if_pos hn]
  change Routine.next e _ = Routine.next e _
  congr 1
  funext a
  rcases a with err | a
  · cases err <;> rfl
  · change Routine.yield _ _ = Routine.yield _ _
    congr 1
    funext answer
    cases answer <;> rfl

theorem reaches_pulls_full (hn : ¬ take.all (n < ·)) {p : Progress String (Except Failure Nat)}
    {w' : Session} : (pulls e take n).Reaches w p w' ↔ p = .done (.ok n) ∧ w' = w := by
  refine reaches_loop.trans ((iff_of_eq (congrArg (Reaches · w p w') ?_)).trans reaches_pure)
  change ((pullStep e take n).run.bind _).bind _ = _
  rw [pullStep, if_neg hn]
  rfl

def pullsEnd (n : Nat) : Except Error Value → Except Failure Nat
  | .ok _ | .error .stopIteration => .ok n
  | .error err => .error (.runtime err)

theorem pulls_at_end (hn : take.all (n < ·)) {p : Nat} (he : Follows .error e.call t)
    (h : Tracks e t w (.before p)) {r : Except Error Value} (hr : t.event p = .inr r) :
    ∃ w', (pulls e take n).Reaches w (.done (pullsEnd n r)) w' := by
  obtain ⟨w', hnext, -⟩ := h.next he
  rw [Position.pull, hr] at hnext
  refine ⟨w', (reaches_pulls hn).2 ⟨_, w', hnext, ?_⟩⟩
  cases r with
  | ok v => exact reaches_pure.2 ⟨rfl, rfl⟩
  | error err => cases err <;> exact reaches_pure.2 ⟨rfl, rfl⟩

theorem pulls_before_end (hn : take.all (n < ·)) {p : Nat} (he : Follows .error e.call t)
    (h : Tracks e t w (.before p)) {args : List Value} (hx : t.event p = .inl args) :
    ∃ k w', (pulls e take n).Reaches w (.yielded ((Value.pack args).inspect ++ "\n") k) w' ∧
      k (.ok ()) = pulls e take (n + 1) ∧ Tracks e t w' (.before (p + 1)) := by
  obtain ⟨w', hnext, -, hw'⟩ := h.next he
  rw [Position.pull, hx] at hnext
  rw [Position.next, hx] at hw'
  exact ⟨_, w', (reaches_pulls hn).2 ⟨_, w', hnext, reaches_yield.2 ⟨rfl, rfl⟩⟩, rfl, hw'⟩

end Pulls

theorem finishes_pulls_iff {p : Nat} (he : Follows .error e.call t) (h : Tracks e t w (.before p))
    (n : Nat) : (∃ r w', Finishes (pulls e none n) w r w') ↔ (t.drop p).Ends := by
  have hopen (n : Nat) : (none : Option Nat).all (n < ·) := rfl
  constructor
  · rintro ⟨r, w', hr⟩
    generalize hc : pulls e none n = c at hr
    induction hr generalizing n p with
    | done hd =>
        subst hc
        cases hx : t.event p with
        | inl args =>
            obtain ⟨k, v, hy, -⟩ := pulls_before_end (hopen n) he h hx
            cases (hd.unique hy).1
        | inr a => exact ⟨0, a, hx⟩
    | yielded hd _ ih =>
        subst hc
        cases hx : t.event p with
        | inl args =>
            obtain ⟨k, v, hy, hk, hv⟩ := pulls_before_end (hopen n) he h hx
            obtain ⟨hp, rfl⟩ := hd.unique hy
            obtain ⟨rfl, rfl⟩ := Progress.yielded.inj hp
            have hx' : (t.drop p).event 0 = .inl args := hx
            rw [Course.eq_cons hx', Course.ends_cons, Course.tail_drop]
            exact ih hv (n + 1) hk.symm
        | inr a => exact ⟨0, a, hx⟩
  · rintro ⟨m, a, hm⟩
    induction m generalizing n p w with
    | zero =>
        obtain ⟨w', hr⟩ := pulls_at_end (hopen n) he h hm
        exact ⟨_, w', .done hr⟩
    | succ m ih =>
        cases hx : t.event p with
        | inr b =>
            obtain ⟨w', hr⟩ := pulls_at_end (hopen n) he h hx
            exact ⟨_, w', .done hr⟩
        | inl args =>
            obtain ⟨k, v, hy, hk, hv⟩ := pulls_before_end (hopen n) he h hx
            have hm' : (t.drop (p + 1)).event m = .inr a := by
              rw [← Course.tail_drop]
              exact hm
            obtain ⟨r, w', hr⟩ := ih hv (n + 1) hm'
            rw [← hk] at hr
            exact ⟨r, w', .yielded hy hr⟩

theorem finishes_runLazy_iff (h : c.DefersTo w e v) (ht : Follows .error e.call t) :
    (∃ r w', Finishes (c.runLazy none).run w r w') ↔ t.Ends := by
  have hasked : (Printing.attempt (Attempt.ofExcept e.toValue.asEnumerator)).run.Reaches v
      (.done (.ok e)) v := reaches_pure.2 ⟨rfl, rfl⟩
  have htracks : Tracks e t v (.before 0) := by
    refine ⟨h.methods, ?_⟩
    rw [h.fresh]
    exact .fresh
  rw [runLazy, Printing.finishes_after (Printing.reaches_attempt h.sent),
    Printing.finishes_after hasked, Printing.finishes_before]
  · have hpulls := finishes_pulls_iff ht htracks 0
    rwa [Course.drop_zero] at hpulls
  · intro pulled u
    exact ⟨_, _, .done (reaches_note.2 (reaches_pure.2 ⟨rfl, rfl⟩))⟩

end Deferred

theorem checkBounded_each_iff {r : Range} {mode : Mode} (hmode : ∀ k, mode ≠ .lazy (some k)) :
    checkBounded ⟨r.toValue, "each", []⟩ mode = .ok () ↔ r.last ≠ .nil := by
  obtain ⟨first, last, excludeEnd⟩ := r
  cases mode with
  | eager | toArray => cases last <;> simp [checkBounded, Range.toValue]
  | lazy take =>
      cases take with
      | none => cases last <;> simp [checkBounded, Range.toValue]
      | some k => exact absurd rfl (hmode k)

theorem each_eq_ok_iff {first : String} {last? : Option String} {exclusive : Bool} {c : Call} :
    Call.each first last? exclusive = .ok c ↔
      ∃ r, Range.make (Literal.read first) ((last?.map Literal.read).getD .nil) exclusive = .ok r ∧
        c = ⟨r.toValue, "each", []⟩ := by
  rw [Call.each]
  cases Range.make (Literal.read first) ((last?.map Literal.read).getD .nil) exclusive with
  | error err => simp
  | ok r => simp [eq_comm]

/-- In every mode without a bound, an iteration over a range ends just where its course does. -/
theorem finishes_run_each_iff (r : Range) {mode : Mode} (hmode : ∀ k, mode ≠ .lazy (some k))
    {w : Session} (hm : w.methods = .builtin) (hx : w.externals = [])
    (hb : checkBounded ⟨r.toValue, "each", []⟩ mode = .ok ()) :
    (∃ a w', Finishes (run ⟨r.toValue, "each", []⟩ mode).run w a w') ↔
      (callCourse r.toValue "each" []).Ends := by
  have ht : Follows .error (.invoke r.toValue "each" [] .pure) (callCourse r.toValue "each" []) :=
    follows_call r.toValue "each" [] (by simp [Range.toValue, IterationCall, iterationNames])
  let u := w.note (.running r.toValue "each" mode.form)
  have hnoted : (Printing.attempt (Attempt.note (.running r.toValue "each" mode.form))).run.Reaches w
      (.done (.ok ())) u := reaches_note.2 (reaches_pure.2 ⟨rfl, rfl⟩)
  obtain ⟨e, v, he⟩ := exists_defersTo (c := ⟨r.toValue, "each", []⟩) (w := u)
    (.range r.first r.last r.excludeEnd) (.inr rfl) hm hx
  unfold Call.run
  rw [hb]
  refine (Printing.finishes_after hnoted).trans ?_
  cases mode with
  | eager => exact finishes_runEager_iff ht hm
  | toArray => exact finishes_runToArray_iff he (he.call ▸ ht)
  | lazy take =>
      cases take with
      | none => exact finishes_runLazy_iff he (he.call ▸ ht)
      | some k => exact absurd rfl (hmode k)

end Call

namespace Program

theorem session_methods (log? : Option String) : (session log?).methods = .builtin := by
  unfold session
  split <;> rfl

theorem session_externals (log? : Option String) : (session log?).externals = [] := by
  unfold session
  split <;> rfl

theorem exists_run_iff {i : Invocation} {log? : Option String} :
    (∃ n o, run n i log? = some o) ↔
      ∃ a w', Finishes i.command.print.run (session log?) a w' := by
  rw [← Sink.receive_reaches_iff (ι := Empty) (s := {}) rfl]
  constructor
  · rintro ⟨n, o, h⟩
    rw [run] at h
    cases hr : (Sink.receive {} i.command.print).run n (session log?) with
    | none => simp [hr] at h
    | some p => exact ⟨p.1, p.2, exists_run_eq_iff.1 ⟨n, hr⟩⟩
  · rintro ⟨a, w', h⟩
    obtain ⟨n, hn⟩ := exists_run_eq_iff.2 h
    exact ⟨n, _, by rw [run, hn]⟩

end Program

end Stepwise
