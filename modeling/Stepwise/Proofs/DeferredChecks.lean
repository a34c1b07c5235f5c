import Stepwise.Proofs.Position

namespace Stepwise

open Routine

inductive IterationEntry : Value → String → Prop
  | times (n : Int64) : IterationEntry (.int n) "times"
  | upto (n : Int64) : IterationEntry (.int n) "upto"
  | items (items : List Value) : IterationEntry (.array items) "each"
  | range (first last : Value) (excludeEnd : Bool) :
      IterationEntry (.range first last excludeEnd) "each"

/-- What is wrong with the arguments of an iteration: their number, or the bound of `upto`. -/
def argumentFailure : String → List Value → Option Error
  | "upto", [bound] =>
    match bound.asInt with
    | .ok _ => none
    | .error err => some err
  | "upto", args => some (.argumentCount "upto" 1 args.length)
  | _, [] => none
  | method, args => some (.argumentCount method 0 args.length)

def Operation.failure (err : Error) : Operation → Answer
  | next | peek => .pulled (.error err)
  | rewind => .rewound
  | drive _ _ => .driven [] (.error err)
  | toArray => .collected (.error err)

theorem Enumerator.performs_failure {e : Enumerator} {err : Error} {u : Session}
    (he : e.call.LeadsTo (.pure (.error err))) (hu : u.methods = .builtin) (hx : u.external e = {})
    (op : Operation) : ∃ u', Performs e op u (op.failure err) u' := by
  have hfollows : Follows .error e.call (.done (.error err)) := follows_done.2 he
  have hreplay := follows_done.1 (follows_replay hfollows)
  have hfresh : Tracks e (.done (.error err)) u (.before 0) := ⟨hu, by rw [hx]; exact .fresh⟩
  cases op with
  | next =>
      obtain ⟨u', hu', -⟩ := hfresh.next hfollows
      exact ⟨u', .next hu'⟩
  | peek =>
      obtain ⟨u', hu', -⟩ := hfresh.peek hfollows
      exact ⟨u', .peek hu'⟩
  | rewind => exact ⟨_, .rewind u⟩
  | drive s block =>
      obtain ⟨u', hu', -⟩ := hreplay.reaches hu (reaches_pure.2 ⟨rfl, rfl⟩)
      exact ⟨u', .drive .replay (.none _ s u) hu'⟩
  | toArray =>
      obtain ⟨u', hu', -⟩ := hreplay.reaches hu (reaches_pure.2 ⟨rfl, rfl⟩)
      exact ⟨u', .toArray .replay (reaches_drive.2 (.inl ⟨_, u', hu', reaches_pure.2 ⟨rfl, rfl⟩⟩))⟩

namespace IterationEntry

variable {receiver : Value} {method : String} {args : List Value}

theorem iterationCall (h : IterationEntry receiver method) : IterationCall receiver method := by
  cases h <;> simp [IterationCall, iterationNames]

theorem plain_run (h : IterationEntry receiver method) (args : List Value) :
    ∃ m, MethodTable.builtin.lookup receiver.classOf method = some m ∧
      (m.plain receiver args).run =
        if method ≠ "each" ∨ args = [] then .note (.deferred receiver method)
          (.enumerate receiver method args fun e => .pure (.ok e.toValue))
        else .pure (.error (.argumentCount "each" 0 args.length)) := by
  cases h with
  | times n => exact ⟨Integer.timesMethod, rfl, rfl⟩
  | upto n => exact ⟨Integer.uptoMethod, rfl, rfl⟩
  | items items => exact ⟨Items.eachMethod, rfl, by cases args <;> rfl⟩
  | range first last excludeEnd => exact ⟨Range.eachMethod, rfl, by cases args <;> rfl⟩

/-- The call is bound into the next enumerator, and nothing of it is checked. -/
def Binds (receiver : Value) (method : String) (args : List Value) (w : Session) : Prop :=
  ∃ w₁, (Attempt.send receiver method args : Attempt Empty Value).run.Reaches w
      (.done (.ok (Enumerator.toValue ⟨w.created, receiver, method, args⟩))) w₁ ∧
    w₁.unlogged = { w.unlogged with created := w.created + 1 }

def Refuses (receiver : Value) (method : String) (args : List Value) (w : Session) : Prop :=
  ∃ w₁, (Attempt.send receiver method args : Attempt Empty Value).run.Reaches w
      (.done (.error (.argumentCount method 0 args.length))) w₁ ∧ w₁.unlogged = w.unlogged

theorem Refuses.not_binds {w : Session} (h : Refuses receiver method args w) :
    ¬ Binds receiver method args w := by
  rintro ⟨w₁, hbinds, -⟩
  obtain ⟨w₂, hfails, -⟩ := h
  cases (hbinds.unique hfails).1

theorem binds (h : IterationEntry receiver method) {w : Session} (hw : w.methods = .builtin)
    (hargs : method ≠ "each" ∨ args = []) : Binds receiver method args w := by
  obtain ⟨m, hm, hrun⟩ := h.plain_run args
  rw [if_pos hargs] at hrun
  have hsend := (alikeFrom_send (w := w) (by rw [Session.find, hw, hm]) args).symm
  rw [hrun] at hsend
  exact hsend.exists (reaches_note.2 (reaches_enumerate.2 (reaches_pure.2 ⟨rfl, rfl⟩)))

theorem refuses (h : IterationEntry receiver "each") {w : Session} (hw : w.methods = .builtin)
    (hargs : args ≠ []) : Refuses receiver "each" args w := by
  obtain ⟨m, hm, hrun⟩ := h.plain_run args
  rw [if_neg (not_or.2 ⟨not_not_intro rfl, hargs⟩)] at hrun
  have hsend := (alikeFrom_send (w := w) (by rw [Session.find, hw, hm]) args).symm
  rw [hrun] at hsend
  exact hsend.exists (reaches_pure.2 ⟨rfl, rfl⟩)

theorem callCourse_of_failure {err : Error} (h : IterationEntry receiver method)
    (herr : argumentFailure method args = some err) :
    callCourse receiver method args = .done (.error err) := by
  have hcounted {failure : Error} (he : some failure = some err) :
      (Course.done (.error failure) : CallCourse) = .done (.error err) := by
    rw [Option.some.inj he]
  cases h with
  | times | items | range =>
      cases args with
      | nil => cases herr
      | cons => exact hcounted herr
  | upto n =>
      match args with
      | [] => exact hcounted herr
      | _ :: _ :: _ => exact hcounted herr
      | [bound] =>
          cases hb : bound.asInt with
          | ok => simp [argumentFailure, hb] at herr
          | error failure =>
              obtain rfl : failure = err := by simpa [argumentFailure, hb] using herr
              simp [callCourse, hb]

/-- Take an iteration of an integer, an array or a range, with arguments of any kind and number. Without
a block the call is bound into a new enumerator, and nothing is checked, unless it is `each` with
arguments: that call fails at once. Driving an enumerator that is bound to the call is the call with the
block. If the arguments are wrong the call fails without a call of the block, and a fresh enumerator
shows the failure whatever is first done with it. -/
theorem binds_iff (h : IterationEntry receiver method) (args : List Value) {w : Session}
    (hw : w.methods = .builtin) :
    (Binds receiver method args w ↔ method ≠ "each" ∨ args = []) ∧
    (method = "each" → args ≠ [] → Refuses receiver method args w) ∧
    ∀ id u, u.methods = .builtin → let e : Enumerator := ⟨id, receiver, method, args⟩
      (∀ source, e.Drives u source →
        ∀ (ι σ : Type) (block : σ → List Value → Routine ι (σ × Except Error Unit)) (s : σ),
          AlikeFrom u (source.withBlock s block)
            ((Attempt.invoke receiver method args).withBlock s block)) ∧
      ∀ err, argumentFailure method args = some err →
        (∀ (ι σ : Type) (block : σ → List Value → Routine ι (σ × Except Error Unit)) (s : σ),
          ∃ u', ((Attempt.invoke receiver method args).withBlock s block).Reaches u
            (.done (s, .error err)) u' ∧ u'.unlogged = u.unlogged) ∧
        (u.external e = {} → ∀ op, ∃ u', Performs e op u (op.failure err) u') := by
  have hrefuses (hmethod : method = "each") (hargs : args ≠ []) : Refuses receiver method args w := by
    subst hmethod
    exact h.refuses hw hargs
  refine ⟨⟨?_, h.binds hw⟩, hrefuses, fun id u hu => ⟨?_, fun err herr => ?_⟩⟩
  · intro hbinds
    by_cases hmethod : method = "each"
    · by_cases hargs : args = []
      · exact .inr hargs
      · exact absurd hbinds (hrefuses hmethod hargs).not_binds
    · exact .inl hmethod
  · intro source hsource ι σ block s
    exact hsource.alike.drive_source s block _
  · have hcall := follows_call receiver method args h.iterationCall
    rw [h.callCourse_of_failure herr, follows_done] at hcall
    refine ⟨fun ι σ block s => ?_, fun hx op =>
      Enumerator.performs_failure (e := ⟨id, receiver, method, args⟩) hcall hu hx op⟩
    obtain ⟨u', hu', he⟩ := hcall.reaches hu (reaches_pure.2 ⟨rfl, rfl⟩)
    exact ⟨u', reaches_drive.2 (.inl ⟨_, u', hu', reaches_pure.2 ⟨rfl, rfl⟩⟩), he⟩

theorem binds_iff_upto :
    let e : Enumerator := ⟨0, .int 1, "upto", [.str "x"]⟩
    Binds e.receiver e.method e.args .start ∧
      ∃ u, Performs e .toArray .start (.collected (.error (.typeMismatch "Integer" "String"))) u := by
  intro e
  obtain ⟨hbinds, -, h⟩ := binds_iff (.upto 1) [.str "x"] (w := .start) rfl
  obtain ⟨-, hfails⟩ := h 0 .start rfl
  exact ⟨hbinds.2 (.inl (by decide)), (hfails _ rfl).2 rfl .toArray⟩

/-- Arguments of `each` are counted before it is deferred. -/
theorem each_not_deferred :
    let items : Value := .array [.int 1, .int 2]
    let range : Value := .range (.int 1) (.int 2) false
    (IterationEntry items "each" ∧ Refuses items "each" [.int 1] .start ∧
      ¬ Binds items "each" [.int 1] .start) ∧
    IterationEntry range "each" ∧ Refuses range "each" [.int 1] .start ∧
      ¬ Binds range "each" [.int 1] .start := by
  intro items range
  have hitems : Refuses items "each" [.int 1] .start := refuses (.items _) rfl (by decide)
  have hrange : Refuses range "each" [.int 1] .start := refuses (.range _ _ _) rfl (by decide)
  exact ⟨⟨.items _, hitems, hitems.not_binds⟩, .range _ _ _, hrange, hrange.not_binds⟩

end IterationEntry

end Stepwise
