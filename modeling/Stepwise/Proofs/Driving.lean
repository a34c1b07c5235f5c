import Stepwise.Proofs.Unlogged

namespace Stepwise.Routine

variable {ι κ α β σ : Type}

theorem reaches_lift {c : Routine Empty α} {w w' : Session} {p : Progress ι α} :
    (lift c : Routine ι α).Reaches w p w' ↔ ∃ a, c.Reaches w (.done a) w' ∧ p = .done a := by
  rw [lift, reaches_drive]
  constructor
  · rintro (⟨a, v, hc, hp⟩ | ⟨x, _⟩)
    · obtain ⟨rfl, rfl⟩ := reaches_pure.1 hp
      exact ⟨a, hc, rfl⟩
    · exact nomatch x
  · rintro ⟨a, hc, rfl⟩
    exact .inl ⟨a, w', hc, reaches_pure.2 ⟨rfl, rfl⟩⟩

/-- From one session, two routines come to the same yield or end, in sessions that differ in their
journals at most. -/
def AlikeFrom (w : Session) (c d : Routine ι α) : Prop :=
  ∀ p v, (∃ w', c.Reaches w p w' ∧ w'.unlogged = v) ↔ ∃ w', d.Reaches w p w' ∧ w'.unlogged = v

theorem AlikeFrom.symm {w : Session} {c d : Routine ι α} (h : AlikeFrom w c d) : AlikeFrom w d c :=
  fun p v => (h p v).symm

theorem AlikeFrom.exists {w w' : Session} {c d : Routine ι α} {p : Progress ι α}
    (h : AlikeFrom w c d) (hc : c.Reaches w p w') :
    ∃ v, d.Reaches w p v ∧ v.unlogged = w'.unlogged :=
  (h p w'.unlogged).1 ⟨w', hc, rfl⟩

theorem alikeFrom_of_forall {w : Session} {c d : Routine ι α}
    (h : ∀ p w', c.Reaches w p w' → ∃ v, d.Reaches w p v ∧ v.unlogged = w'.unlogged)
    (h' : ∀ p w', d.Reaches w p w' → ∃ v, c.Reaches w p v ∧ v.unlogged = w'.unlogged) :
    AlikeFrom w c d := by
  intro p v
  constructor
  · rintro ⟨w', hc, rfl⟩
    exact h p w' hc
  · rintro ⟨w', hd, rfl⟩
    exact h' p w' hd

theorem alikeFrom_note (w : Session) (n : Notice) (c : Routine ι α) : AlikeFrom w (note n c) c := by
  apply alikeFrom_of_forall
  · intro p w' h
    exact (reaches_note.1 h).congr (Session.note_unlogged w n).symm
  · intro p w' h
    obtain ⟨v, hv, he⟩ := h.congr (Session.note_unlogged w n)
    exact ⟨v, reaches_note.2 hv, he⟩

theorem AlikeFrom.trans {w : Session} {c d e : Routine ι α} (h : AlikeFrom w c d)
    (h' : AlikeFrom w d e) : AlikeFrom w c e :=
  fun p v => (h p v).trans (h' p v)

theorem AlikeFrom.drive_source {w : Session} {c d : Routine κ β} (h : AlikeFrom w c d) (s : σ)
    (block : σ → κ → Routine ι (σ × Except Error Unit)) (k : σ → β → Routine ι α) :
    AlikeFrom w (drive c s block k) (drive d s block k) := by
  have half {c d : Routine κ β} (h : AlikeFrom w c d) (p : Progress ι α) (w' : Session)
      (hc : (drive c s block k).Reaches w p w') :
      ∃ v, (drive d s block k).Reaches w p v ∧ v.unlogged = w'.unlogged := by
    obtain ⟨b, u, hb, hk⟩ | ⟨x, rest, u, hx, hk⟩ := reaches_drive.1 hc
    · obtain ⟨u', hb', hu⟩ := h.exists hb
      obtain ⟨v, hv, he⟩ := hk.congr hu
      exact ⟨v, reaches_drive.2 (.inl ⟨b, u', hb', hv⟩), he⟩
    · obtain ⟨u', hx', hu⟩ := h.exists hx
      obtain ⟨v, hv, he⟩ := hk.congr hu
      exact ⟨v, reaches_drive.2 (.inr ⟨x, rest, u', hx', hv⟩), he⟩
  exact alikeFrom_of_forall (half h) (half h.symm)

/-- Driving a source with a block makes a list of calls, each with the answer it got, and comes to the
rest of the source and a state of the block. -/
inductive Calls (block : σ → κ → Routine ι (σ × Except Error Unit)) :
    Routine κ β → σ → Session → List (κ × Except Error Unit) → Routine κ β → σ → Session → Prop
  | none (c : Routine κ β) (s : σ) (w : Session) : Calls block c s w [] c s w
  | call {c d : Routine κ β} {s s' t : σ} {w w₁ w₂ v : Session} {x : κ} {answer : Except Error Unit}
      {rest : Except Error Unit → Routine κ β} {calls : List (κ × Except Error Unit)}
      (hyield : c.Reaches w (.yielded x rest) w₁)
      (hblock : (block s x).Reaches w₁ (.done (s', answer)) w₂)
      (hrest : Calls block (rest answer) s' w₂ calls d t v) :
      Calls block c s w ((x, answer) :: calls) d t v

variable {block : σ → κ → Routine ι (σ × Except Error Unit)} {c d : Routine κ β} {s t : σ}
  {w w' v : Session} {calls : List (κ × Except Error Unit)}

theorem Calls.congr (h : Calls block c s w calls d t v) (hw : w'.unlogged = w.unlogged) :
    ∃ v', Calls block c s w' calls d t v' ∧ v'.unlogged = v.unlogged := by
  induction h generalizing w' with
  | none c s w => exact ⟨w', .none c s w', hw⟩
  | call hyield hblock _ ih =>
      obtain ⟨u₁, hy, hu₁⟩ := hyield.congr hw
      obtain ⟨u₂, hb, hu₂⟩ := hblock.congr hu₁
      obtain ⟨v', hr, hv'⟩ := ih hu₂
      exact ⟨v', .call hy hb hr, hv'⟩

theorem AlikeFrom.exists_calls {d' : Routine κ β} (h : AlikeFrom w c d')
    (hc : Calls block c s w calls d t v) :
    ∃ d v', Calls block d' s w calls d t v' ∧ v'.unlogged = v.unlogged := by
  cases hc with
  | none => exact ⟨d', w, .none d' s w, rfl⟩
  | call hyield hblock hrest =>
      obtain ⟨u₁, hy, hu₁⟩ := h.exists hyield
      obtain ⟨u₂, hb, hu₂⟩ := hblock.congr hu₁
      obtain ⟨v', hr, hv'⟩ := hrest.congr hu₂
      exact ⟨d, v', .call hy hb hr, hv'⟩

/-- A source with a block comes to something by the calls that the source makes: then the source has
ended and what follows it comes to it, or the block yields. -/
theorem exists_calls_of_resume {k : σ → β → Routine ι α} {n : Nat} {p : Progress ι α}
    (h : (drive c s block k).resume n w = some (p, w')) :
    ∃ calls d t v, Calls block c s w calls d t v ∧
      ((∃ b v', d.Reaches v (.done b) v' ∧ (k t b).Reaches v' p w') ∨
        ∃ x rest v' y l, d.Reaches v (.yielded x rest) v' ∧
          (block t x).Reaches v' (.yielded y l) w' ∧
          p = .yielded y fun r => (l r).bind fun (s, answer) => drive (rest answer) s block k) := by
  induction n using Nat.strongRecOn generalizing c s w with
  | ind n ih =>
      cases n with
      | zero => simp at h
      | succ n =>
          rw [resume_drive] at h
          cases hs : c.resume n w with
          | none => simp [hs] at h
          | some q =>
              rw [hs] at h
              rcases q with ⟨b | ⟨x, rest⟩, u⟩
              · exact ⟨[], c, s, w, .none c s w, .inl ⟨b, u, ⟨n, hs⟩, n, h⟩⟩
              · obtain ⟨q, u', hb, hq⟩ := exists_of_resume_bind _ h
                cases q with
                | yielded y l =>
                    obtain ⟨rfl, rfl⟩ := hq
                    exact ⟨[], c, s, w, .none c s w, .inr ⟨x, rest, u, y, l, ⟨n, hs⟩, hb, rfl⟩⟩
                | done o =>
                    obtain ⟨m, hm, hr⟩ := hq
                    obtain ⟨calls, d, t, v, hc, hd⟩ := ih m (by omega) hr
                    exact ⟨(x, o.2) :: calls, d, t, v, .call ⟨n, hs⟩ hb hc, hd⟩

theorem reaches_drive_done {k : σ → β → Routine ι α} {a : α} :
    (drive c s block k).Reaches w (.done a) w' ↔
      ∃ calls d t v b v', Calls block c s w calls d t v ∧ d.Reaches v (.done b) v' ∧
        (k t b).Reaches v' (.done a) w' := by
  constructor
  · rintro ⟨n, hn⟩
    obtain ⟨calls, d, t, v, hc, ⟨b, v', hb, hk⟩ | ⟨x, rest, v', y, l, -, -, hp⟩⟩ :=
      exists_calls_of_resume hn
    · exact ⟨calls, d, t, v, b, v', hc, hb, hk⟩
    · simp at hp
  · rintro ⟨calls, d, t, v, b, v', hc, hb, hk⟩
    induction hc with
    | none => exact reaches_drive.2 (.inl ⟨b, v', hb, hk⟩)
    | call hyield hblock _ ih =>
        refine reaches_drive.2 (.inr ⟨_, _, _, hyield, reaches_bind.2 ⟨_, _, hblock, ?_⟩⟩)
        exact ih hb hk

end Stepwise.Routine
