import Stepwise.Proofs.Finishing

namespace Stepwise

open Routine

def succeeding {κ : Type} (calls : List (κ × Except Error Unit)) : List (κ × Except Error Unit) :=
  calls.map fun c => (c.1, .ok ())

theorem succeeding_eq_self {κ : Type} {calls : List (κ × Except Error Unit)}
    (h : ∀ c ∈ calls, c.2 = .ok ()) : succeeding calls = calls := by
  induction calls with
  | nil => rfl
  | cons c calls ih =>
      obtain ⟨hc, hcalls⟩ := List.forall_mem_cons.1 h
      exact List.cons_eq_cons.2 ⟨Prod.ext rfl hc.symm, ih hcalls⟩

namespace Course

variable {ι α : Type} {fail : Error → α} {t : Course ι α} {calls : List (ι × Except Error Unit)}

theorem admits_done_iff {a : α} : (done a : Course ι α).Admits fail calls ↔ calls = [] := by
  cases calls with
  | nil => exact iff_of_true trivial rfl
  | cons c calls =>
      constructor
      · rintro ⟨h, -⟩
        cases h
      · intro h
        cases h

theorem Admits.succeeding (h : t.Admits fail calls) : t.Admits fail (succeeding calls) := by
  induction calls generalizing t with
  | nil => trivial
  | cons c calls ih =>
      obtain ⟨x, answer⟩ := c
      obtain ⟨hx, hrest⟩ := h
      cases answer with
      | ok => exact ⟨hx, ih hrest⟩
      | error err =>
          obtain rfl := admits_done_iff.1 hrest
          exact ⟨hx, trivial⟩

theorem admits_ofList (fail : Error → α) (xs : List ι) (a : α) :
    (ofList xs a).Admits fail (xs.map fun x => (x, .ok ())) ∧
      ((ofList xs a).after fail (xs.map fun x => (x, .ok ()))).event 0 = .inr a := by
  induction xs with
  | nil => exact ⟨trivial, rfl⟩
  | cons x xs ih => exact ⟨⟨rfl, ih.1⟩, ih.2⟩

end Course

namespace Routine

variable {ι κ β σ : Type} {block : σ → κ → Routine ι (σ × Except Error Unit)} {c d : Routine κ β}
  {t : Course κ β} {fail : Error → β} {s s' : σ} {w w' v : Session}
  {calls : List (κ × Except Error Unit)}

/-- The block gives these answers if it is called with these arguments one after another. -/
inductive Invoked (block : σ → κ → Routine ι (σ × Except Error Unit)) :
    σ → Session → List (κ × Except Error Unit) → σ → Session → Prop
  | nil (s : σ) (w : Session) : Invoked block s w [] s w
  | cons {s s₁ s' : σ} {w w₁ w' : Session} {x : κ} {answer : Except Error Unit}
      {calls : List (κ × Except Error Unit)} (h : (block s x).Reaches w (.done (s₁, answer)) w₁)
      (hrest : Invoked block s₁ w₁ calls s' w') : Invoked block s w ((x, answer) :: calls) s' w'

theorem Invoked.congr (h : Invoked block s w calls s' v) (hw : w'.unlogged = w.unlogged) :
    ∃ v', Invoked block s w' calls s' v' ∧ v'.unlogged = v.unlogged := by
  induction h generalizing w' with
  | nil s w => exact ⟨w', .nil s w', hw⟩
  | cons h _ ih =>
      obtain ⟨u, hu, he⟩ := h.congr hw
      obtain ⟨v', hv', hv⟩ := ih he
      exact ⟨v', .cons hu hv', hv⟩

abbrev KeepsMethods (block : σ → κ → Routine ι (σ × Except Error Unit)) : Prop :=
  Keeps (fun w => w.methods = .builtin) block

theorem Follows.of_calls_keep (hc : Follows fail c t) (hblock : KeepsMethods block)
    (hw : w.methods = .builtin) (hcalls : Calls block c s w calls d s' v) :
    v.methods = .builtin ∧ t.Admits fail calls ∧ Follows fail d (t.after fail calls) :=
  hc.of_calls (fun _ h => h) (fun _ _ hv hw => (Session.methods_of_unlogged hv).trans hw) hblock hw
    hcalls

theorem Follows.invoked_of_calls (hc : Follows fail c t) (hblock : KeepsMethods block)
    (hw : w.methods = .builtin) (hcalls : Calls block c s w calls d s' v) :
    ∃ v', Invoked block s w calls s' v' ∧ v'.unlogged = v.unlogged := by
  induction hcalls generalizing t with
  | none c s w => exact ⟨w, .nil s w, rfl⟩
  | call hyield hanswer _ ih =>
      obtain ⟨hv, -, hk⟩ := hc.of_reaches_yielded hw hyield
      have hm := hblock _ _ _ _ _ ((Session.methods_of_unlogged hv).trans hw) hanswer
      obtain ⟨v₁, hinvoked, hv₁⟩ := ih (hk _) hm
      obtain ⟨u, hu, he⟩ := hanswer.congr hv.symm
      obtain ⟨v', hv', hve⟩ := hinvoked.congr he
      exact ⟨v', .cons hu hv', hve.trans hv₁⟩

theorem Follows.calls_of_invoked (hc : Follows fail c t) (hblock : KeepsMethods block)
    (hw : w.methods = .builtin) (ha : t.Admits fail calls) (h : Invoked block s w calls s' v) :
    ∃ d v', Calls block c s w calls d s' v' ∧ v'.unlogged = v.unlogged := by
  induction h generalizing c t with
  | nil s w => exact ⟨c, w, .none c s w, rfl⟩
  | @cons s s₁ s' w w₁ w' x answer calls h _ ih =>
      obtain ⟨hx, hrest⟩ := ha
      obtain ⟨p, u, hp, hu, ht⟩ := hc.reaches hw
      cases p with
      | done b => simp [ht] at hx
      | yielded y k =>
          obtain ⟨hy, hk⟩ := ht
          obtain rfl : y = x := by simpa [hy] using hx
          obtain ⟨u₁, hanswer, hu₁⟩ := h.congr hu
          have hm := hblock _ _ _ _ _ hw h
          obtain ⟨d, v, hcalls, hv⟩ := ih (hk answer) hm hrest
          obtain ⟨v', hcalls', hv'⟩ := hcalls.congr hu₁
          exact ⟨d, v', .call hp hanswer hcalls', hv'.trans hv⟩

/-- The calls that a source makes are those that its course admits and the block answers so. -/
theorem Follows.exists_calls_iff (hc : Follows fail c t) (hblock : KeepsMethods block)
    (hw : w.methods = .builtin) {u : Session} :
    (∃ d v, Calls block c s w calls d s' v ∧ v.unlogged = u) ↔
      t.Admits fail calls ∧ ∃ v, Invoked block s w calls s' v ∧ v.unlogged = u := by
  constructor
  · rintro ⟨d, v, hcalls, rfl⟩
    exact ⟨(hc.of_calls_keep hblock hw hcalls).2.1, hc.invoked_of_calls hblock hw hcalls⟩
  · rintro ⟨ha, v, hinvoked, rfl⟩
    exact hc.calls_of_invoked hblock hw ha hinvoked

def Completes (block : σ → κ → Routine ι (σ × Except Error Unit)) (c : Routine κ β) (s : σ)
    (w : Session) (calls : List (κ × Except Error Unit)) (s' : σ) (b : β) (w' : Session) : Prop :=
  ∃ d v, Calls block c s w calls d s' v ∧ d.Reaches v (.done b) w'

theorem Follows.exists_completes_iff (hc : Follows fail c t) (hblock : KeepsMethods block)
    (hw : w.methods = .builtin) {b : β} {u : Session} :
    (∃ v, Completes block c s w calls s' b v ∧ v.unlogged = u) ↔
      (t.Admits fail calls ∧ (t.after fail calls).event 0 = .inr b) ∧
        ∃ v, Invoked block s w calls s' v ∧ v.unlogged = u := by
  constructor
  · rintro ⟨v', ⟨d, v, hcalls, hd⟩, rfl⟩
    obtain ⟨hm, ha, hfollows⟩ := hc.of_calls_keep hblock hw hcalls
    obtain ⟨hv, hb⟩ := hfollows.of_reaches_done hm hd
    obtain ⟨u, hu, he⟩ := hc.invoked_of_calls hblock hw hcalls
    exact ⟨⟨ha, hb⟩, u, hu, he.trans hv.symm⟩
  · rintro ⟨⟨ha, hb⟩, v, hinvoked, rfl⟩
    obtain ⟨d, v₁, hcalls, hv₁⟩ := hc.calls_of_invoked hblock hw ha hinvoked
    obtain ⟨hm, -, hfollows⟩ := hc.of_calls_keep hblock hw hcalls
    rw [Course.eq_done hb] at hfollows
    obtain ⟨v', hd, hv'⟩ := (follows_done.1 hfollows).reaches hm (reaches_pure.2 ⟨rfl, rfl⟩)
    exact ⟨v', ⟨d, v₁, hcalls, hd⟩, hv'.trans hv₁⟩

theorem Calls.prefix_of_completes {made : List (κ × Except Error Unit)} {s₁ : σ} {b : β}
    (h : Calls block c s w made d s₁ v) (hcompletes : Completes block c s w calls s' b w') :
    made <+: calls := by
  obtain ⟨e, u, hcalls, hend⟩ := hcompletes
  induction h generalizing calls with
  | none => exact List.nil_prefix
  | call hyield hanswer _ ih =>
      cases hcalls with
      | none => cases (hyield.unique hend).1
      | call hyield' hanswer' hrest =>
          obtain ⟨hp, rfl⟩ := hyield.unique hyield'
          obtain ⟨rfl, rfl⟩ := Progress.yielded.inj hp
          obtain ⟨ho, rfl⟩ := hanswer.unique hanswer'
          obtain ⟨rfl, rfl⟩ := Prod.mk.inj (Progress.done.inj ho)
          exact List.prefix_cons_inj _ |>.2 (ih hrest)

theorem Completes.reaches {b : β} (h : Completes block c s w calls s' b w') :
    (drive c s block fun s b => pure (s, b)).Reaches w (.done (s', b)) w' := by
  obtain ⟨d, v, hcalls, hd⟩ := h
  exact reaches_drive_done.2 ⟨calls, d, s', v, b, w', hcalls, hd, reaches_pure.2 ⟨rfl, rfl⟩⟩

theorem Completes.unique {made : List (κ × Except Error Unit)} {s'' : σ} {b b' : β}
    (h : Completes block c s w calls s' b w') (h' : Completes block c s w made s'' b' v) :
    calls = made ∧ b = b' ∧ w' = v := by
  obtain ⟨hp, hw⟩ := h.reaches.unique h'.reaches
  have hb := (Prod.mk.inj (Progress.done.inj hp)).2
  have hfirst {calls made : List (κ × Except Error Unit)} {s₁ s₂ : σ} {b₁ b₂ : β} {w₁ w₂ : Session}
      (h : Completes block c s w calls s₁ b₁ w₁) (h' : Completes block c s w made s₂ b₂ w₂) :
      calls <+: made := by
    obtain ⟨d, u, hcalls, -⟩ := h
    exact hcalls.prefix_of_completes h'
  exact ⟨(hfirst h h').eq_of_length_le (hfirst h' h).length_le, hb, hw⟩

/-- The first calls that the source makes are answered with success, so many as are given, and the next
one with the error. -/
def FailsAfter (block : σ → κ → Routine ι (σ × Except Error Unit)) (c : Routine κ β) (s : σ)
    (w : Session) (count : Nat) (err : Error) : Prop :=
  ∀ calls d s' v x rest v', Calls block c s w calls d s' v → d.Reaches v (.yielded x rest) v' →
    calls.length ≤ count →
    ∃ s₁ v₁, (block s' x).Reaches v' (.done (s₁, if calls.length < count then .ok () else .error err)) v₁

theorem FailsAfter.tail {count : Nat} {err : Error} {x : κ} {rest : Except Error Unit → Routine κ β}
    {s₁ : σ} {w₁ w₂ : Session} (h : FailsAfter block c s w (count + 1) err)
    (hyield : c.Reaches w (.yielded x rest) w₁) (hanswer : (block s x).Reaches w₁ (.done (s₁, .ok ())) w₂) :
    FailsAfter block (rest (.ok ())) s₁ w₂ count err := by
  intro calls d s' v y more v' hcalls hy hlen
  have hnext := h _ d s' v y more v' (.call hyield hanswer hcalls) hy (Nat.succ_le_succ hlen)
  simpa only [List.length_cons, Nat.add_lt_add_iff_right] using hnext

/-- A run with a block that fails after some calls comes to its end: with the error of the block, or
before the block fails. -/
theorem Follows.exists_completes_of_failsAfter (hc : Follows fail c t) (hblock : KeepsMethods block)
    (hw : w.methods = .builtin) {count : Nat} {err : Error} (h : FailsAfter block c s w count err) :
    ∃ calls s' b v, Completes block c s w calls s' b v ∧
      (calls.length = count + 1 ∧ b = fail err ∨
        calls.length ≤ count ∧ ∀ call ∈ calls, call.2 = .ok ()) := by
  induction count generalizing c t s w with
  | zero =>
      obtain ⟨p, u, hp, hu, ht⟩ := hc.reaches hw
      cases p with
      | done b => exact ⟨[], s, b, u, ⟨c, w, .none c s w, hp⟩, .inr ⟨Nat.le_refl 0, by simp⟩⟩
      | yielded x k =>
          obtain ⟨s₁, u₁, hanswer⟩ := h [] c s w x k u (.none c s w) hp (Nat.le_refl 0)
          have hm := hblock _ _ _ _ _ ((Session.methods_of_unlogged hu).trans hw) hanswer
          obtain ⟨v, hv, -⟩ := (follows_done.1 (ht.2 (.error err))).reaches hm
            (reaches_pure.2 ⟨rfl, rfl⟩)
          exact ⟨[(x, .error err)], s₁, fail err, v, ⟨_, u₁, .call hp hanswer (.none _ _ _), hv⟩,
            .inl ⟨rfl, rfl⟩⟩
  | succ count ih =>
      obtain ⟨p, u, hp, hu, ht⟩ := hc.reaches hw
      cases p with
      | done b => exact ⟨[], s, b, u, ⟨c, w, .none c s w, hp⟩, .inr ⟨Nat.zero_le _, by simp⟩⟩
      | yielded x k =>
          obtain ⟨s₁, u₁, hanswer⟩ := h [] c s w x k u (.none c s w) hp (Nat.zero_le _)
          have hm := hblock _ _ _ _ _ ((Session.methods_of_unlogged hu).trans hw) hanswer
          obtain ⟨calls, s', b, v, ⟨d, v₁, hcalls, hd⟩, hend⟩ := ih (ht.2 (.ok ())) hm (h.tail hp hanswer)
          refine ⟨(x, .ok ()) :: calls, s', b, v, ⟨d, v₁, .call hp hanswer hcalls, hd⟩, ?_⟩
          obtain ⟨hlen, hb⟩ | ⟨hlen, hok⟩ := hend
          · exact .inl ⟨congrArg (· + 1) hlen, hb⟩
          · exact .inr ⟨Nat.succ_le_succ hlen, List.forall_mem_cons.2 ⟨rfl, hok⟩⟩

theorem Succeeds.keepsMethods (h : Succeeds block) : KeepsMethods block := by
  intro s x w r w' hw hr
  obtain ⟨s₁, w₁, hs₁, hm⟩ := h s x w hw
  obtain ⟨-, rfl⟩ := hr.unique hs₁
  exact hm

theorem Succeeds.exists_invoked (h : Succeeds block) (hw : w.methods = .builtin)
    (calls : List (κ × Except Error Unit)) (s : σ) :
    ∃ s' v, Invoked block s w (succeeding calls) s' v := by
  induction calls generalizing s w with
  | nil => exact ⟨s, w, .nil s w⟩
  | cons c calls ih =>
      obtain ⟨s₁, w₁, hs₁, hm⟩ := h s c.1 w hw
      obtain ⟨s', v, hv⟩ := ih hm s₁
      exact ⟨s', v, .cons hs₁ hv⟩

theorem Succeeds.invoked_ok (h : Succeeds block) (hw : w.methods = .builtin)
    (hinvoked : Invoked block s w calls s' v) : ∀ c ∈ calls, c.2 = .ok () := by
  induction hinvoked with
  | nil => simp
  | cons hanswer _ ih =>
      obtain ⟨s₁, w₁, hs₁, hm⟩ := h _ _ _ hw
      obtain ⟨ho, rfl⟩ := hanswer.unique hs₁
      obtain ⟨-, rfl⟩ := Prod.mk.inj (Progress.done.inj ho)
      exact List.forall_mem_cons.2 ⟨rfl, ih hm⟩

theorem Follows.exists_completes_iff_ofList (hc : Follows fail c t) (hblock : Succeeds block)
    (hw : w.methods = .builtin) {b : β} :
    (∃ s' v, Completes block c s w calls s' b v) ↔
      ∃ xs, t = .ofList xs b ∧ calls = xs.map fun x => (x, .ok ()) := by
  constructor
  · rintro ⟨s', v, hcompletes⟩
    obtain ⟨⟨ha, hend⟩, v', hinvoked, -⟩ :=
      (hc.exists_completes_iff hblock.keepsMethods hw).1 ⟨v, hcompletes, rfl⟩
    have hok := hblock.invoked_ok hw hinvoked
    refine ⟨calls.map Prod.fst, ha.eq_ofList hok hend, ?_⟩
    rw [List.map_map]
    exact (succeeding_eq_self hok).symm
  · rintro ⟨xs, rfl, rfl⟩
    obtain ⟨s', v, hinvoked⟩ := hblock.exists_invoked hw (xs.map fun x => (x, .ok ())) s
    rw [succeeding_eq_self (by simp)] at hinvoked
    obtain ⟨v', hv', -⟩ := (hc.exists_completes_iff hblock.keepsMethods hw).2
      ⟨Course.admits_ofList fail xs b, v, hinvoked, rfl⟩
    exact ⟨s', v', hv'⟩

end Routine

/-- An iteration call with a block, by dispatch or by an enumerator that is bound to it. -/
inductive IterationSource : Producer → Prop
  | call (receiver : Value) (method : String) (args : List Value)
      (h : IterationCall receiver method) : IterationSource (Attempt.invoke receiver method args)
  | replay (e : Enumerator) (h : IterationCall e.receiver e.method) : IterationSource e.replay

theorem IterationSource.exists_follows {source : Producer} (h : IterationSource source) :
    ∃ t, Follows .error source.run t := by
  cases h with
  | call receiver method args h => exact ⟨_, follows_call receiver method args h⟩
  | replay e h => exact ⟨_, Enumerator.follows_replay (follows_call e.receiver e.method e.args h)⟩

/-- Take an iteration call with a block that keeps the built-in methods and fails after so many calls.
The run comes to its end and makes no other calls than those it has made then. A block that never fails
gets the same arguments, and either it gets them in the first calls of its run, the failing call is the
last one, and its error is the result, or the call ends before the block fails, and both runs are the
same. -/
theorem IterationSource.error_of_block_returned {source : Producer} (hsource : IterationSource source)
    {ι σ : Type} {block : σ → List Value → Routine ι (σ × Except Error Unit)}
    (hblock : KeepsMethods block) {s : σ} {w : Session} (hw : w.methods = .builtin) {count : Nat}
    {err : Error} (hfails : FailsAfter block source.run s w count err) :
    ∃ calls s' r v, Completes block source.run s w calls s' r v ∧
      (source.withBlock s block).Reaches w (.done (s', r)) v ∧
      (∀ made d s₁ v₁, Calls block source.run s w made d s₁ v₁ → made <+: calls) ∧
      ∀ (ι' σ' : Type) (steady : σ' → List Value → Routine ι' (σ' × Except Error Unit)) (q : σ')
        (u : Session), Succeeds steady → u.methods = .builtin →
        (calls.length = count + 1 ∧ r = .error err ∧
          ∃ d q' u', Calls steady source.run q u (succeeding calls) d q' u') ∨
        (calls.length ≤ count ∧ (∀ c ∈ calls, c.2 = .ok ()) ∧
          ∃ q' u', Completes steady source.run q u calls q' r u') := by
  obtain ⟨t, ht⟩ := hsource.exists_follows
  obtain ⟨calls, s', r, v, hcompletes, hend⟩ := ht.exists_completes_of_failsAfter hblock hw hfails
  obtain ⟨⟨ha, hafter⟩, -⟩ := (ht.exists_completes_iff hblock hw).1 ⟨v, hcompletes, rfl⟩
  refine ⟨calls, s', r, v, hcompletes, ?_, fun made d s₁ v₁ h => h.prefix_of_completes hcompletes, ?_⟩
  · obtain ⟨d, v₁, hcalls, hd⟩ := hcompletes
    exact reaches_drive_done.2 ⟨calls, d, s', v₁, r, v, hcalls, hd, reaches_pure.2 ⟨rfl, rfl⟩⟩
  · intro ι' σ' steady q u hsteady hu
    obtain ⟨q', u', hinvoked⟩ := hsteady.exists_invoked hu calls q
    obtain ⟨hlen, hr⟩ | ⟨hlen, hok⟩ := hend
    · obtain ⟨d, v', hcalls, -⟩ := ht.calls_of_invoked hsteady.keepsMethods hu ha.succeeding hinvoked
      exact .inl ⟨hlen, hr, d, q', v', hcalls⟩
    · rw [succeeding_eq_self hok] at hinvoked
      obtain ⟨v', hv', -⟩ := (ht.exists_completes_iff hsteady.keepsMethods hu).2
        ⟨⟨ha, hafter⟩, u', hinvoked, rfl⟩
      exact .inr ⟨hlen, hok, q', v', hv'⟩

/-- Two enumerators around a call that counts from one to five. The block counts its calls and reports the
end of an iteration at the third. -/
theorem IterationSource.error_of_block_returned_nested :
    let inner : Value := .enumerator 0 (.int 1) "upto" [.int 5]
    let source := Attempt.invoke (.enumerator 1 inner "each" []) "each" []
    let block (n : Nat) (_ : List Value) : Routine Empty (Nat × Except Error Unit) :=
      .pure (n + 1, if n < 2 then .ok () else .error .stopIteration)
    IterationSource source ∧ KeepsMethods block ∧
      FailsAfter block source.run 0 .start 2 .stopIteration ∧
      ∃ calls v, Completes block source.run 0 .start calls 3 (.error .stopIteration) v ∧
        calls.map Prod.fst = [[.int 1], [.int 2], [.int 3]] := by
  intro inner source block
  have hsource : IterationSource source :=
    .call _ _ _ (by simp [inner, IterationCall, iterationNames])
  have hblock : KeepsMethods block := by
    intro n x w r w' hw h
    obtain ⟨-, rfl⟩ := reaches_pure.1 h
    exact hw
  have hcount {c d : Routine (List Value) (Except Error Value)} {n m : Nat} {w v : Session}
      {calls : List (List Value × Except Error Unit)} (h : Calls block c n w calls d m v) :
      m = n + calls.length := by
    induction h with
    | none => rfl
    | call _ hanswer _ ih =>
        obtain ⟨ho, -⟩ := reaches_pure.1 hanswer
        obtain ⟨rfl, -⟩ := Prod.mk.inj (Progress.done.inj ho)
        rw [ih, List.length_cons]
        omega
  have hfails : FailsAfter block source.run 0 .start 2 .stopIteration := by
    intro calls d m v x rest v' hcalls _ _
    obtain rfl : m = calls.length := by simpa using hcount hcalls
    exact ⟨_, v', reaches_pure.2 ⟨rfl, rfl⟩⟩
  have hmade : ∃ d m v, Calls block source.run 0 .start
      [([.int 1], .ok ()), ([.int 2], .ok ()), ([.int 3], .error .stopIteration)] d m v :=
    ⟨_, _, _, .call ⟨60, rfl⟩ ⟨1, rfl⟩ (.call ⟨60, rfl⟩ ⟨1, rfl⟩ (.call ⟨60, rfl⟩ ⟨1, rfl⟩
      (.none _ _ _)))⟩
  obtain ⟨calls, m, r, v, hcompletes, -, hfirst, h⟩ :=
    IterationSource.error_of_block_returned hsource hblock rfl hfails
  obtain ⟨d, m', v', hmade⟩ := hmade
  obtain ⟨rest, rfl⟩ := hfirst _ _ _ _ hmade
  have hsteady : Succeeds fun (q : Unit) (_ : List Value) => (.pure (q, .ok ()) : Routine Empty _) :=
    fun q x w hw => ⟨q, w, reaches_pure.2 ⟨rfl, rfl⟩, hw⟩
  obtain ⟨hlen, rfl, -⟩ | ⟨hlen, -⟩ := h Empty Unit _ () .start hsteady rfl
  · obtain rfl : rest = [] := by simpa using hlen
    obtain ⟨d, u, hcalls, hend⟩ := hcompletes
    obtain rfl : m = 3 := by simpa using hcount hcalls
    exact ⟨hsource, hblock, hfails, _, v, ⟨d, u, hcalls, hend⟩, rfl⟩
  · simp at hlen

end Stepwise
