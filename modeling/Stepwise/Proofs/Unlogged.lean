import Stepwise.Proofs.Running

namespace Stepwise

namespace Session

/-- The session with an empty journal that admits nothing. -/
def unlogged (w : Session) : Session := { w with journal := {} }

@[simp]
theorem unlogged_unlogged (w : Session) : w.unlogged.unlogged = w.unlogged := rfl

@[simp]
theorem unlogged_methods (w : Session) : w.unlogged.methods = w.methods := rfl

@[simp]
theorem unlogged_external (w : Session) (e : Enumerator) : w.unlogged.external e = w.external e := rfl

@[simp]
theorem unlogged_find (w : Session) (receiver : Value) (method : String) :
    w.unlogged.find receiver method = w.find receiver method := rfl

theorem note_eq_self {w : Session} {n : Notice} (h : w.journal.record n = w.journal) : w.note n = w := by
  rw [note, h]

@[simp]
theorem note_unlogged (w : Session) (n : Notice) : (w.note n).unlogged = w.unlogged := rfl

@[simp]
theorem unlogged_note (w : Session) (n : Notice) : w.unlogged.note n = w.unlogged := rfl

@[simp]
theorem setExternal_unlogged (w : Session) (e : Enumerator) (x : External) :
    (w.setExternal e x).unlogged = w.unlogged.setExternal e x := rfl

theorem rewind_unlogged (w : Session) (e : Enumerator) :
    (w.rewind e).unlogged = w.unlogged.rewind e := rfl

end Session

universe u

def unlog {ρ : Type u} (r : ρ × Session) : ρ × Session := (r.1, r.2.unlogged)

theorem Cursor.resume_unlogged {run : Runner}
    (hrun : ∀ c w, run c w.unlogged = (run c w).map unlog) (c : Cursor) (w : Session) :
    c.resume run w.unlogged = (c.resume run w).map fun q => (q.1, q.2.1, q.2.2.unlogged) := by
  cases c with
  | finished => rfl
  | suspended rest =>
      simp only [Cursor.resume, hrun]
      rcases run rest w with _ | ⟨_ | _, _⟩ <;> rfl

namespace Enumerator

theorem cursorIn_unlogged (e : Enumerator) (w : Session) :
    e.cursorIn w.unlogged = ((e.cursorIn w).1, (e.cursorIn w).2.unlogged) := by
  unfold cursorIn
  rw [Session.unlogged_external]
  cases (w.external e).cursor <;> rfl

theorem settle_unlogged (e : Enumerator) (state : External) (r : Resumed) (c : Cursor) (w : Session) :
    e.settle state (r, c, w.unlogged) = unlog (e.settle state (r, c, w)) := by
  rcases r with _ | (_ | _) <;> rfl

variable {run : Runner} (hrun : ∀ c w, run c w.unlogged = (run c w).map unlog) (e : Enumerator)
  (w : Session)

include hrun

theorem advance_unlogged : e.advance run w.unlogged = (e.advance run w).map unlog := by
  rw [advance_eq, advance_eq, Session.unlogged_external]
  split
  · rfl
  · rw [cursorIn_unlogged, Cursor.resume_unlogged hrun, Option.map_map, Option.map_map]
    congr 1
    funext q
    exact settle_unlogged e (w.external e) q.1 q.2.1 q.2.2

theorem next_unlogged : e.next run w.unlogged = (e.next run w).map unlog := by
  unfold next
  rw [Session.unlogged_external]
  cases (w.external e).peeked with
  | some v => rfl
  | none => exact advance_unlogged hrun e w

theorem peek_unlogged : e.peek run w.unlogged = (e.peek run w).map unlog := by
  unfold peek
  rw [Session.unlogged_external, advance_unlogged hrun]
  cases (w.external e).peeked with
  | some v => rfl
  | none => rcases e.advance run w with _ | ⟨_ | _, _⟩ <;> rfl

end Enumerator

namespace Routine

variable {ι α : Type}

theorem hop_unlogged (c : Routine ι α) (w : Session) :
    c.hop w.unlogged = (c.hop w).map unlog := by
  cases c with
  | invoke receiver method args k =>
      rw [hop_invoke, hop_invoke, Session.unlogged_find]
      cases w.find receiver method <;> rfl
  | send receiver method args k =>
      rw [hop_send, hop_send, Session.unlogged_find]
      cases w.find receiver method <;> rfl
  | _ => rfl

theorem resume_unlogged (n : Nat) (c : Routine ι α) (w : Session) :
    c.resume n w.unlogged = (c.resume n w).map unlog := by
  induction n generalizing ι α c w with
  | zero => rfl
  | succ n ih =>
      cases c with
      | pure | yield => rfl
      | loop | invoke | send | define | respondsTo | enumerate | rewind | note =>
          rw [resume_of_hop ((hop_unlogged _ w).trans rfl), resume_of_hop rfl]
          exact ih _ _
      | drive source s block k =>
          rw [resume_drive, resume_drive, ih source w]
          rcases source.resume n w with _ | ⟨_ | _, v⟩
          · rfl
          · exact ih _ v
          · exact ih _ v
      | next e k =>
          rw [resume_next, resume_next, Enumerator.next_unlogged (fun c w => ih c w)]
          rcases e.next (fun r w => r.resume n w) w with _ | ⟨a, v⟩
          · rfl
          · exact ih (k a) v
      | peek e k =>
          rw [resume_peek, resume_peek, Enumerator.peek_unlogged (fun c w => ih c w)]
          rcases e.peek (fun r w => r.resume n w) w with _ | ⟨a, v⟩
          · rfl
          · exact ih (k a) v

theorem Reaches.unlogged {c : Routine ι α} {w w' : Session} {p : Progress ι α}
    (h : c.Reaches w p w') : c.Reaches w.unlogged p w'.unlogged := by
  obtain ⟨n, hn⟩ := h
  exact ⟨n, by rw [resume_unlogged, hn]; rfl⟩

theorem Reaches.of_unlogged {c : Routine ι α} {w v : Session} {p : Progress ι α}
    (h : c.Reaches w.unlogged p v) : ∃ w', c.Reaches w p w' ∧ w'.unlogged = v := by
  obtain ⟨n, hn⟩ := h
  rw [resume_unlogged, Option.map_eq_some_iff] at hn
  obtain ⟨⟨q, w'⟩, hq, he⟩ := hn
  cases he
  exact ⟨w', ⟨n, hq⟩, rfl⟩

/-- Sessions that differ in their journals only are not told apart. -/
theorem Reaches.congr {c : Routine ι α} {w v w' : Session} {p : Progress ι α}
    (h : c.Reaches w p w') (hv : v.unlogged = w.unlogged) :
    ∃ v', c.Reaches v p v' ∧ v'.unlogged = w'.unlogged :=
  Reaches.of_unlogged (hv ▸ h.unlogged)

end Routine

end Stepwise
