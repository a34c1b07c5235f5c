import Stepwise.Proofs.Stopping

namespace Stepwise

namespace Routine

variable {ι κ α β σ : Type}

/-- From their sessions, the one routine comes to all that the other comes to. -/
def ComesTo (c : Routine ι α) (w : Session) (d : Routine ι α) (v : Session) : Prop :=
  ∀ p u, d.Reaches v p u → c.Reaches w p u

theorem ComesTo.refl (c : Routine ι α) (w : Session) : c.ComesTo w c w := fun _ _ h => h

theorem ComesTo.trans {c d e : Routine ι α} {w v u : Session} (h : c.ComesTo w d v)
    (h' : d.ComesTo v e u) : c.ComesTo w e u :=
  fun p z he => h p z (h' p z he)

theorem ComesTo.bind {c d : Routine ι α} {w v : Session} (h : c.ComesTo w d v) (f : α → Routine ι β) :
    (c.bind f).ComesTo w (d.bind f) v := by
  intro p u hp
  obtain ⟨q, z, hq, hrest⟩ := reaches_bind.1 hp
  exact reaches_bind.2 ⟨q, z, h q z hq, hrest⟩

theorem ComesTo.of_done {c d : Routine ι α} {w v u : Session} {a : α} (h : c.Reaches w (.done a) u)
    (h' : d.Reaches v (.done a) u) : c.ComesTo w d v := by
  intro p z hp
  obtain ⟨rfl, rfl⟩ := hp.unique h'
  exact h

section Calls

variable {block : σ → κ → Routine ι (σ × Except Error Unit)} {c c' d d' : Routine κ β} {s s' s'' : σ}
  {w w' v v' : Session} {calls calls' : List (κ × Except Error Unit)} {b : β}

theorem Calls.of_comesTo (hc : c.ComesTo w c' w') (h : Calls block c' s w' calls d s' v) :
    ∃ d' v', Calls block c s w calls d' s' v' ∧ d'.ComesTo v' d v := by
  cases h with
  | none => exact ⟨c, w, .none c s w, hc⟩
  | call hyield hblock hrest => exact ⟨d, v, .call (hc _ _ hyield) hblock hrest, .refl d v⟩

theorem Calls.append (h : Calls block c s w calls d s' v) (h' : Calls block d s' v calls' d' s'' v') :
    Calls block c s w (calls ++ calls') d' s'' v' := by
  induction h with
  | none => exact h'
  | call hyield hblock _ ih => exact .call hyield hblock (ih h')

theorem Calls.prefix_of_length_le (h : Calls block c s w calls d s' v)
    (h' : Calls block c s w calls' d' s'' v') (hlen : calls.length ≤ calls'.length) : calls <+: calls' := by
  induction h generalizing calls' with
  | none => exact List.nil_prefix
  | call hyield hblock _ ih =>
      cases h' with
      | none => simp at hlen
      | call hyield' hblock' hrest =>
          obtain ⟨hp, rfl⟩ := hyield.unique hyield'
          obtain ⟨rfl, rfl⟩ := Progress.yielded.inj hp
          obtain ⟨ho, rfl⟩ := hblock.unique hblock'
          obtain ⟨rfl, rfl⟩ := Prod.mk.inj (Progress.done.inj ho)
          exact (List.prefix_cons_inj _).2 (ih hrest (by simpa using hlen))

theorem Completes.of_comesTo (hc : c.ComesTo w c' w') (h : Completes block c' s w' calls s' b v) :
    Completes block c s w calls s' b v := by
  obtain ⟨d, u, hcalls, hd⟩ := h
  obtain ⟨d', u', hcalls', hd'⟩ := hcalls.of_comesTo hc
  exact ⟨d', u', hcalls', hd' _ _ hd⟩

end Calls

section Loop

variable (body : σ → Routine ι (Except Error (σ ⊕ β))) {s : σ} {w v : Session}

theorem tryLoop_comesTo {r : Except Error (σ ⊕ β)} (h : (body s).Reaches w (.done r) v) :
    (tryLoop s body).ComesTo w (goOn body (Stage.after r)) v := by
  intro p u hp
  rcases r with err | s' | b
  all_goals
    exact reaches_loop.2 (reaches_bind.2
      ⟨_, v, reaches_bind.2 ⟨_, v, h, reaches_pure.2 ⟨rfl, rfl⟩⟩, hp⟩)

theorem exists_tryLoop_yields {x : ι} {k : Except Error Unit → Routine ι (Except Error (σ ⊕ β))}
    (h : (body s).Reaches w (.yielded x k) v) :
    ∃ l, (tryLoop s body).Reaches w (.yielded x l) v ∧
      ∀ answer u r u', (k answer).Reaches u (.done r) u' →
        (l answer).ComesTo u (goOn body (Stage.after r)) u' := by
  refine ⟨_, reaches_loop.2 (reaches_bind.2
    ⟨_, v, reaches_bind.2 ⟨.yielded x k, v, h, rfl, rfl⟩, rfl, rfl⟩), ?_⟩
  intro answer u r u' hk p z hp
  rcases r with err | s' | b
  all_goals
    exact reaches_bind.2 ⟨_, u', reaches_bind.2 ⟨_, u', hk, reaches_pure.2 ⟨rfl, rfl⟩⟩, hp⟩

end Loop

end Routine

end Stepwise
