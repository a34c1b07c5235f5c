import Stepwise.Proofs.Printing

namespace Stepwise

namespace Routine

variable {ι α β : Type} {c d : Routine ι α} {w w' v v' : Session} {xs ys : List ι} {a : α}

/-- The routine yields these one after another, each is answered with success, and then the rest follows. -/
inductive Emits {ι α : Type} : Routine ι α → Session → List ι → Routine ι α → Session → Prop
  | nil (c : Routine ι α) (w : Session) : Emits c w [] c w
  | cons {c d : Routine ι α} {w w₁ v : Session} {x : ι} {xs : List ι}
      {rest : Except Error Unit → Routine ι α} (hyield : c.Reaches w (.yielded x rest) w₁)
      (hrest : Emits (rest (.ok ())) w₁ xs d v) : Emits c w (x :: xs) d v

def EmitsAll (c : Routine ι α) (w : Session) (xs : List ι) (a : α) (w' : Session) : Prop :=
  ∃ d v, Emits c w xs d v ∧ d.Reaches v (.done a) w'

theorem Emits.append {e : Routine ι α} {u : Session} (h : Emits c w xs d v) (h' : Emits d v ys e u) :
    Emits c w (xs ++ ys) e u := by
  induction h with
  | nil => exact h'
  | cons hyield _ ih => exact .cons hyield (ih h')

theorem Emits.bind (h : Emits c w xs d v) (f : α → Routine ι β) :
    Emits (c.bind f) w xs (d.bind f) v := by
  induction h with
  | nil c w => exact .nil _ w
  | cons hyield _ ih => exact .cons (reaches_bind.2 ⟨_, _, hyield, rfl, rfl⟩) ih

theorem emitsAll_of_reaches (h : c.Reaches w (.done a) w') : EmitsAll c w [] a w' :=
  ⟨c, w, .nil c w, h⟩

theorem EmitsAll.of_emits (h : Emits c w xs d v) (h' : EmitsAll d v ys a w') :
    EmitsAll c w (xs ++ ys) a w' := by
  obtain ⟨e, u, he, hd⟩ := h'
  exact ⟨e, u, h.append he, hd⟩

theorem EmitsAll.of_forall_reaches (h : EmitsAll d v xs a w')
    (hreaches : ∀ p u, d.Reaches v p u → c.Reaches w p u) : EmitsAll c w xs a w' := by
  obtain ⟨e, u, he, hd⟩ := h
  cases he with
  | nil => exact emitsAll_of_reaches (hreaches _ _ hd)
  | cons hyield hrest => exact ⟨e, u, .cons (hreaches _ _ hyield) hrest, hd⟩

theorem EmitsAll.bind {f : α → Routine ι β} {b : β} (h : EmitsAll c w xs a v)
    (h' : EmitsAll (f a) v ys b w') : EmitsAll (c.bind f) w (xs ++ ys) b w' := by
  obtain ⟨d, u, he, hd⟩ := h
  refine .of_emits (he.bind f) (h'.of_forall_reaches fun p u' hp => ?_)
  exact reaches_bind.2 ⟨_, _, hd, hp⟩

theorem EmitsAll.unique {b : α} (h : EmitsAll c w xs a w') (h' : EmitsAll c w ys b v') :
    xs = ys ∧ a = b := by
  obtain ⟨d, v, he, hd⟩ := h
  induction he generalizing ys with
  | nil c w =>
      obtain ⟨e, u, he', hd'⟩ := h'
      cases he' with
      | nil => exact ⟨rfl, Progress.done.inj (hd.unique hd').1⟩
      | cons hyield => cases (hd.unique hyield).1
  | cons hyield _ ih =>
      obtain ⟨e, u, he', hd'⟩ := h'
      cases he' with
      | nil => cases (hyield.unique hd').1
      | cons hyield' hrest =>
          obtain ⟨hp, rfl⟩ := hyield.unique hyield'
          obtain ⟨rfl, rfl⟩ := Progress.yielded.inj hp
          obtain ⟨rfl, hab⟩ := ih ⟨e, u, hrest, hd'⟩ hd
          exact ⟨rfl, hab⟩

end Routine

open Routine

def textBytes (texts : List String) : ByteArray := (String.join texts).toUTF8

@[simp]
theorem textBytes_nil : textBytes [] = .empty := by
  rw [textBytes, String.join_nil, String.toUTF8_eq_toByteArray, String.toByteArray_empty]

@[simp]
theorem textBytes_cons (text : String) (texts : List String) :
    textBytes (text :: texts) = text.toUTF8 ++ textBytes texts := by
  simp only [textBytes, String.join_cons, String.toUTF8_eq_toByteArray, String.toByteArray_append]

namespace Sink

variable {ι α : Type} {c d : Routine String α} {w v : Session} {s s' : Sink} {texts : List String}

def accept (s : Sink) (text : String) : Routine ι (Sink × Except Error Unit) := .pure (s.write text)

theorem receive_eq_drive (s : Sink) (p : Printing Unit) :
    (s.receive p : Routine ι _) = .drive p.run s accept fun s r => .pure (s, r) := rfl

def Fits (s : Sink) (bytes : ByteArray) : Prop := ∀ room, s.room = some room → bytes.size ≤ room

def after (s : Sink) (bytes : ByteArray) : Sink := ⟨s.room.map (· - bytes.size), s.written ++ bytes⟩

theorem write_of_fits {text : String} (h : s.Fits text.toUTF8) :
    s.write text = (s.after text.toUTF8, .ok ()) := by
  rcases s with ⟨_ | room, written⟩
  · rfl
  · simp only [write, if_pos (h room rfl)]
    rfl

theorem fits_append {a b : ByteArray} : s.Fits (a ++ b) ↔ s.Fits a ∧ (s.after a).Fits b := by
  rcases s with ⟨_ | room, written⟩
  · simp [Fits, after]
  · simp only [Fits, after, Option.map_some, Option.some_inj, forall_eq', ByteArray.size_append]
    omega

theorem after_append (s : Sink) (a b : ByteArray) : s.after (a ++ b) = (s.after a).after b := by
  rcases s with ⟨_ | room, written⟩
  · simp [after, ByteArray.append_assoc]
  · simp [after, ByteArray.append_assoc, ByteArray.size_append, Nat.sub_sub]

theorem after_empty (s : Sink) : s.after .empty = s := by
  rcases s with ⟨_ | room, written⟩ <;> simp [after]

theorem calls_of_emits (h : Emits c w texts d v) (hs : s.Fits (textBytes texts)) :
    Calls (accept (ι := ι)) c s w (texts.map fun text => (text, .ok ())) d (s.after (textBytes texts))
      v := by
  induction h generalizing s with
  | nil c w =>
      rw [textBytes_nil, after_empty]
      exact .none c s w
  | cons hyield _ ih =>
      rw [textBytes_cons] at hs
      obtain ⟨hfits, hrest⟩ := fits_append.1 hs
      rw [textBytes_cons, after_append]
      exact .call hyield (reaches_pure.2 ⟨by rw [write_of_fits hfits], rfl⟩) (ih hrest)

theorem emits_of_calls {calls : List (String × Except Error Unit)} (hs : s.room = none)
    (h : Calls (accept (ι := ι)) c s w calls d s' v) :
    ∃ texts, Emits c w texts d v ∧ s' = s.after (textBytes texts) := by
  induction h with
  | none c s w => exact ⟨[], .nil c w, by rw [textBytes_nil, after_empty]⟩
  | @call c d s s₁ s' w w₁ w₂ v text answer rest calls hyield hblock _ ih =>
      have hfits : s.Fits text.toUTF8 := by simp [Fits, hs]
      obtain ⟨ho, rfl⟩ := reaches_pure.1 hblock
      rw [write_of_fits hfits] at ho
      obtain ⟨rfl, rfl⟩ := Prod.mk.inj (Progress.done.inj ho)
      obtain ⟨texts, hemits, rfl⟩ := ih (by simp [after, hs])
      exact ⟨text :: texts, .cons hyield hemits, by rw [textBytes_cons, after_append]⟩

end Sink

namespace Printing

variable {p : Printing Unit} {w : Session} {bytes : ByteArray} {r : Except Failure Unit}

/-- Printing into an empty sink of this room ends with the bytes written and with a result. -/
def Outputs (p : Printing Unit) (room : Option Nat) (w : Session) (bytes : ByteArray)
    (r : Except Failure Unit) : Prop :=
  ∃ room' w', ((Sink.mk room .empty).receive p : Routine Empty _).Reaches w
    (.done (⟨room', bytes⟩, r)) w'

/-- Printing into an empty sink without a limit comes to where these bytes are written. -/
def OutputsFirst (p : Printing Unit) (w : Session) (bytes : ByteArray) : Prop :=
  ∃ calls d s v, Calls (Sink.accept (ι := Empty)) p.run {} w calls d s v ∧ s.written = bytes

theorem Outputs.unique {room : Option Nat} {bytes' : ByteArray} {r' : Except Failure Unit}
    (h : p.Outputs room w bytes r) (h' : p.Outputs room w bytes' r') : bytes = bytes' ∧ r = r' := by
  obtain ⟨room₁, w₁, h⟩ := h
  obtain ⟨room₂, w₂, h'⟩ := h'
  obtain ⟨hs, hr⟩ := Prod.mk.inj (Progress.done.inj (h.unique h').1)
  exact ⟨(Sink.mk.inj hs).2, hr⟩

theorem outputs_iff :
    p.Outputs none w bytes r ↔ ∃ texts w', EmitsAll p.run w texts r w' ∧ bytes = textBytes texts := by
  constructor
  · rintro ⟨room', w', h⟩
    rw [Sink.receive_eq_drive] at h
    obtain ⟨calls, d, s, v, b, v', hcalls, hd, hk⟩ := reaches_drive_done.1 h
    obtain ⟨texts, hemits, rfl⟩ := Sink.emits_of_calls rfl hcalls
    obtain ⟨ho, -⟩ := reaches_pure.1 hk
    obtain ⟨hs, rfl⟩ := Prod.mk.inj (Progress.done.inj ho)
    refine ⟨texts, v', ⟨d, v, hemits, hd⟩, ?_⟩
    have hwritten : bytes = .empty ++ textBytes texts := (Sink.mk.inj hs).2
    rwa [ByteArray.empty_append] at hwritten
  · rintro ⟨texts, w', ⟨d, v, hemits, hd⟩, rfl⟩
    have hcalls := Sink.calls_of_emits (ι := Empty) (s := {}) hemits (by simp [Sink.Fits])
    refine ⟨none, w', reaches_drive_done.2 ⟨_, d, _, v, r, w', hcalls, hd, reaches_pure.2 ⟨?_, rfl⟩⟩⟩
    simp [Sink.after]

theorem outputsFirst_iff :
    p.OutputsFirst w bytes ↔ ∃ texts d v, Emits p.run w texts d v ∧ bytes = textBytes texts := by
  constructor
  · rintro ⟨calls, d, s, v, hcalls, rfl⟩
    obtain ⟨texts, hemits, rfl⟩ := Sink.emits_of_calls rfl hcalls
    exact ⟨texts, d, v, hemits, ByteArray.empty_append⟩
  · rintro ⟨texts, d, v, hemits, rfl⟩
    have hcalls := Sink.calls_of_emits (ι := Empty) (s := {}) hemits (by simp [Sink.Fits])
    exact ⟨_, d, _, v, hcalls, ByteArray.empty_append⟩

end Printing

theorem Routine.Reaches.journal_eq {ι α : Type} {c : Routine ι α} {p : Progress ι α} {w : Session}
    (h : c.Reaches .start p w) : w.journal = {} :=
  congrArg Session.journal (h.unique h.unlogged).2

/-- A program run without a log filter leaves its output, and the report of its result. -/
theorem Program.exists_run_eq_some_iff {i : Invocation} {o : Output} :
    (∃ n, run n i none = some o) ↔ ∃ bytes r, i.command.print.Outputs none .start bytes r ∧
      o = ⟨exitCode r, bytes, report (theme i.color false) r⟩ := by
  have herr {w : Session} (hw : w.journal = {}) (text : String) : w.journal.text ++ text = text := by
    rw [hw]
    exact String.empty_append
  constructor
  · rintro ⟨n, h⟩
    rw [run] at h
    cases hr : (Sink.receive {} i.command.print).run n (session none) with
    | none => simp [hr] at h
    | some p =>
        obtain ⟨⟨⟨room, bytes⟩, r⟩, w⟩ := p
        have hreaches := exists_run_eq_iff.1 ⟨n, hr⟩
        rw [hr] at h
        refine ⟨bytes, r, ⟨room, w, hreaches⟩, ?_⟩
        rw [← Option.some.inj h, herr hreaches.journal_eq]
  · rintro ⟨bytes, r, ⟨room, w, hreaches⟩, rfl⟩
    obtain ⟨n, hn⟩ := exists_run_eq_iff.2 hreaches
    refine ⟨n, ?_⟩
    have hn' : (Sink.receive {} i.command.print).run n (session none) = _ := hn
    rw [run, hn']
    simp only [herr hreaches.journal_eq]

end Stepwise
