import Stepwise.Proofs.PrintModes

namespace Stepwise

open Routine

namespace Routine

variable {ι α β : Type} {c d : Routine ι α} {w v : Session} {fail : α}

/-- Wherever the routine is on its way, its next yield ends it with the failure if it is answered with an
error. -/
def Abandons (fail : α) (c : Routine ι α) (w : Session) : Prop :=
  ∀ xs d v x rest v', Emits c w xs d v → d.Reaches v (.yielded x rest) v' →
    ∀ err, ∃ u, (rest (.error err)).Reaches v' (.done fail) u

def Silent (c : Routine ι α) (w : Session) : Prop := ∀ x rest v, ¬ c.Reaches w (.yielded x rest) v

theorem Abandons.yielded (h : Abandons fail c w) {x : ι} {rest : Except Error Unit → Routine ι α}
    (hyield : c.Reaches w (.yielded x rest) v) : Abandons fail (rest (.ok ())) v ∧
      ∀ err, ∃ u, (rest (.error err)).Reaches v (.done fail) u := by
  constructor
  · intro xs d u y rest' u' hemits
    exact h (x :: xs) d u y rest' u' (.cons hyield hemits)
  · exact h [] c w x rest v (.nil c w) hyield

theorem abandons_of_invariant {I : Routine ι α → Session → Prop}
    (hstep : ∀ c w x rest v, I c w → c.Reaches w (.yielded x rest) v →
      (I (rest (.ok ())) v ∨ Abandons fail (rest (.ok ())) v) ∧
        ∀ err, ∃ u, (rest (.error err)).Reaches v (.done fail) u) (h : I c w) : Abandons fail c w := by
  intro xs d v x rest v' hemits hyield
  induction hemits with
  | nil c w => exact (hstep c w x rest v' h hyield).2
  | cons hyield' hrest ih =>
      obtain hkept | habandons := (hstep _ _ _ _ _ h hyield').1
      · exact ih hkept hyield
      · exact habandons _ _ _ x rest v' hrest hyield

theorem Silent.abandons (h : Silent c w) : Abandons fail c w := by
  intro xs d v x rest v' hemits hyield
  cases hemits with
  | nil => exact absurd hyield (h x rest v')
  | cons hyield' => exact absurd hyield' (h _ _ _)

theorem Abandons.of_forall_reaches (h : Abandons fail d v)
    (hreaches : ∀ p u, c.Reaches w p u → d.Reaches v p u) : Abandons fail c w := by
  intro xs e u x rest u' hemits hyield
  cases hemits with
  | nil => exact h [] d v x rest u' (.nil d v) (hreaches _ _ hyield)
  | cons hyield' hrest => exact h _ e u x rest u' (.cons (hreaches _ _ hyield') hrest) hyield

theorem abandons_yield {x : ι} {k : Except Error Unit → Routine ι α}
    (hok : Abandons fail (k (.ok ())) w) (herr : ∀ err, k (.error err) = .pure fail) :
    Abandons fail (.yield x k) w := by
  intro xs d v y rest v' hemits hyield
  cases hemits with
  | nil =>
      obtain ⟨hp, rfl⟩ := reaches_yield.1 hyield
      obtain ⟨rfl, rfl⟩ := Progress.yielded.inj hp
      intro err
      exact ⟨v', by rw [herr]; exact reaches_pure.2 ⟨rfl, rfl⟩⟩
  | cons hyield' hrest =>
      obtain ⟨hp, rfl⟩ := reaches_yield.1 hyield'
      obtain ⟨rfl, rfl⟩ := Progress.yielded.inj hp
      exact hok _ d v y rest v' hrest hyield

theorem Abandons.bind {g : α → Routine ι β} {fail' : β} (h : Abandons fail c w)
    (hfail : g fail = .pure fail') (hg : ∀ a v, Abandons fail' (g a) v) :
    Abandons fail' (c.bind g) w := by
  apply abandons_of_invariant (I := fun c' w => ∃ c, c' = c.bind g ∧ Abandons fail c w)
  · rintro c' w x rest v ⟨c, rfl, hc⟩ hyield
    obtain ⟨q, u, hq, hcontinues⟩ := reaches_bind.1 hyield
    cases q with
    | done a =>
        obtain ⟨hrest, herr⟩ := (hg a u).yielded hcontinues
        exact ⟨.inr hrest, herr⟩
    | yielded y l =>
        obtain ⟨hp, rfl⟩ := hcontinues
        obtain ⟨rfl, rfl⟩ := Progress.yielded.inj hp
        obtain ⟨hrest, herr⟩ := hc.yielded hq
        refine ⟨.inl ⟨_, rfl, hrest⟩, fun err => ?_⟩
        obtain ⟨u, hu⟩ := herr err
        have hend : (g fail).Reaches u (.done fail') u := by
          rw [hfail]
          exact reaches_pure.2 ⟨rfl, rfl⟩
        exact ⟨u, reaches_bind.2 ⟨_, _, hu, hend⟩⟩
  · exact ⟨c, rfl, h⟩

theorem silent_pure (a : α) (w : Session) : Silent (.pure a : Routine ι α) w := by
  intro x rest v h
  cases (reaches_pure.1 h).1

theorem silent_note (n : Notice) (a : α) (w : Session) : Silent (.note n (.pure a) : Routine ι α) w :=
  fun x rest v h => silent_pure a _ x rest v (reaches_note.1 h)

theorem Silent.bind {g : α → Routine ι β} (h : Silent c w) (hg : ∀ a v, Silent (g a) v) :
    Silent (c.bind g) w := by
  intro x rest v hyield
  obtain ⟨q, u, hq, hcontinues⟩ := reaches_bind.1 hyield
  cases q with
  | done a => exact hg a u x rest v hcontinues
  | yielded y l => exact h y l u hq

theorem silent_drive {κ σ : Type} {source : Routine κ β}
    {block : σ → κ → Routine ι (σ × Except Error Unit)} {k : σ → β → Routine ι α}
    (hblock : ∀ s x v, Silent (block s x) v) (hk : ∀ s b v, Silent (k s b) v) (s : σ) (w : Session) :
    Silent (drive source s block k) w := by
  rintro x rest v ⟨n, hn⟩
  obtain ⟨calls, d, t, u, -, ⟨b, u', -, hend⟩ | ⟨y, rest', u', z, l, -, hyield, -⟩⟩ :=
    exists_calls_of_resume hn
  · exact hk t b u' x rest v hend
  · exact hblock t y u' z l v hyield

end Routine

section Room

theorem extract_of_size_le {a : ByteArray} {n : Nat} (h : a.size ≤ n) : a.extract 0 n = a := by
  have ha := ByteArray.extract_zero_max_size (a := a) (i := n)
  rwa [Nat.max_eq_left h] at ha

theorem extract_append_of_le {a b : ByteArray} {n : Nat} (h : a.size ≤ n) :
    (a ++ b).extract 0 n = a ++ b.extract 0 (n - a.size) := by
  rw [ByteArray.extract_append, extract_of_size_le h, Nat.zero_sub]

theorem extract_append_of_lt {a b : ByteArray} {n : Nat} (h : n < a.size) :
    (a ++ b).extract 0 n = a.extract 0 n := by
  rw [ByteArray.extract_append, Nat.zero_sub, Nat.sub_eq_zero_of_le (Nat.le_of_lt h),
    ByteArray.extract_same, ByteArray.append_empty]

variable {ι : Type} {c d : Routine String (Except Failure Unit)} {w v : Session} {s : Sink}
  {texts : List String} {room : Nat}

theorem Sink.write_of_lt {text : String} (hs : s.room = some room) (h : room < text.toUTF8.size) :
    s.write text = (⟨some 0, s.written ++ text.toUTF8.extract 0 room⟩,
      .error (.raised "broken pipe")) := by
  obtain ⟨_, written⟩ := s
  subst hs
  simp only [write, if_neg (Nat.not_le_of_lt h)]

/-- The text that does not fit is written in part, and with it the output is given up. -/
theorem Sink.exceeded (h : Emits c w texts d v) (habandons : Abandons (.error .output) c w)
    (hs : s.room = some room) (hsize : room < (textBytes texts).size) :
    ∃ w', (.drive c s accept fun s r => .pure (s, r) : Routine ι _).Reaches w
      (.done (⟨some 0, s.written ++ (textBytes texts).extract 0 room⟩, .error .output)) w' := by
  induction h generalizing s room with
  | nil c w => simp at hsize
  | @cons c d w w₁ v text texts rest hyield _ ih =>
      obtain ⟨hrest, herr⟩ := habandons.yielded hyield
      rw [textBytes_cons, ByteArray.size_append] at hsize
      rw [textBytes_cons]
      by_cases hfits : text.toUTF8.size ≤ room
      · have hwrite : s.write text = (s.after text.toUTF8, .ok ()) := by
          apply write_of_fits
          intro room' hroom'
          cases hs.symm.trans hroom'
          exact hfits
        have haccept : (s.accept text : Routine ι _).Reaches w₁
            (.done (s.after text.toUTF8, .ok ())) w₁ := reaches_pure.2 ⟨by rw [hwrite], rfl⟩
        have hafter : (s.after text.toUTF8).room = some (room - text.toUTF8.size) := by
          simp only [after, hs, Option.map_some]
        obtain ⟨w', hw'⟩ := ih hrest hafter (by omega)
        rw [extract_append_of_le hfits, ← ByteArray.append_assoc]
        exact ⟨w', reaches_drive.2 (.inr ⟨text, rest, w₁, hyield,
          reaches_bind.2 ⟨_, w₁, haccept, hw'⟩⟩)⟩
      · have hlt := Nat.lt_of_not_le hfits
        have haccept : (s.accept text : Routine ι _).Reaches w₁
            (.done (⟨some 0, s.written ++ text.toUTF8.extract 0 room⟩,
              .error (.raised "broken pipe"))) w₁ := reaches_pure.2 ⟨by rw [write_of_lt hs hlt], rfl⟩
        obtain ⟨w', hw'⟩ := herr (.raised "broken pipe")
        rw [extract_append_of_lt hlt]
        refine ⟨w', reaches_drive.2 (.inr ⟨text, rest, w₁, hyield,
          reaches_bind.2 ⟨_, w₁, haccept, ?_⟩⟩)⟩
        exact reaches_drive.2 (.inl ⟨_, w', hw', reaches_pure.2 ⟨rfl, rfl⟩⟩)

end Room

namespace Printing

variable {p : Printing Unit} {w : Session} {bytes : ByteArray} {r : Except Failure Unit} {room : Nat}

theorem OutputsFirst.limited (h : p.OutputsFirst w bytes)
    (habandons : Abandons (.error .output) p.run w) (hroom : room < bytes.size) :
    p.Outputs (some room) w (bytes.extract 0 room) (.error .output) := by
  obtain ⟨texts, d, v, hemits, rfl⟩ := outputsFirst_iff.1 h
  obtain ⟨w', hw'⟩ := Sink.exceeded (s := ⟨some room, .empty⟩) hemits habandons rfl hroom
  rw [ByteArray.empty_append] at hw'
  exact ⟨some 0, w', hw'⟩

theorem Outputs.limited (h : p.Outputs none w bytes r) (habandons : Abandons (.error .output) p.run w)
    (room : Nat) : p.Outputs (some room) w (bytes.extract 0 room)
      (if bytes.size ≤ room then r else .error .output) := by
  obtain ⟨texts, w', ⟨d, v, hemits, hd⟩, rfl⟩ := outputs_iff.1 h
  split
  · rename_i hfits
    have hcalls := Sink.calls_of_emits (ι := Empty) (s := ⟨some room, .empty⟩) hemits
      (by simpa only [Sink.Fits, Option.some.injEq, forall_eq'] using hfits)
    refine ⟨some (room - (textBytes texts).size), w', reaches_drive_done.2
      ⟨_, d, _, v, r, w', hcalls, hd, reaches_pure.2 ⟨?_, rfl⟩⟩⟩
    rw [extract_of_size_le hfits, Sink.after, ByteArray.empty_append]
    rfl
  · exact OutputsFirst.limited (outputsFirst_iff.2 ⟨texts, d, v, hemits, rfl⟩) habandons
      (Nat.lt_of_not_le ‹_›)

end Printing

namespace Attempt

theorem silent_send (receiver : Value) (method : String) (args : List Value) (w : Session) :
    Silent (Attempt.send receiver method args : Attempt String Value).run w := by
  intro x rest v h
  cases hf : w.find receiver method with
  | none => exact silent_pure _ w x rest v ((reaches_send_none hf).1 h)
  | some m =>
      have hlift := (reaches_send_some hf).1 h
      rw [bind_pure, reaches_lift] at hlift
      obtain ⟨a, -, hp⟩ := hlift
      cases hp

theorem silent_collect {α : Type} (source : Attempt (List Value) α) (w : Session) :
    Silent (Attempt.collect source : Attempt String (List Value)).run w := by
  refine silent_drive (fun s x v => silent_pure _ v) (fun s r v => ?_) [] w
  cases r with
  | ok a => exact silent_note _ _ v
  | error err => exact silent_pure _ v

end Attempt

namespace Printing

variable {α β : Type} {x : Printing α} {f : α → Printing β} {w : Session}

theorem abandons_bind (hx : Abandons (.error .output) x.run w)
    (hf : ∀ a v, Abandons (.error .output) (f a).run v) :
    Abandons (.error .output) (x >>= f).run w := by
  refine Abandons.bind hx rfl fun r v => ?_
  cases r with
  | ok a => exact hf a v
  | error err => exact (silent_pure _ v).abandons

theorem abandons_line (text : String) (w : Session) :
    Abandons (.error .output) (Printing.line text).run w :=
  abandons_yield (silent_pure _ w).abandons fun _ => rfl

theorem abandons_attempt {a : Attempt String α} (h : Silent a.run w) :
    Abandons (.error .output) (attempt a).run w := by
  refine (h.bind fun r v => ?_).abandons
  cases r <;> exact silent_pure _ v

end Printing

namespace Call

variable {c : Call} {w : Session}

theorem abandons_runToArray (c : Call) (w : Session) : Abandons (.error .output) c.runToArray.run w := by
  apply Printing.abandons_bind (Printing.abandons_attempt (Attempt.silent_send _ _ _ w))
  intro v u
  apply Printing.abandons_bind (Printing.abandons_attempt (Attempt.silent_collect _ u))
  intro items u'
  exact Printing.abandons_line _ u'

theorem abandons_pulls (e : Enumerator) (take : Option Nat) (n : Nat) (w : Session) :
    Abandons (.error .output) (pulls e take n) w := by
  apply abandons_of_invariant (I := fun c _ => ∃ n, c = pulls e take n)
  · rintro c w x rest v ⟨n, rfl⟩ hyield
    by_cases hn : take.all (n < ·)
    · obtain ⟨r, u, -, hpulled⟩ := (reaches_pulls hn).1 hyield
      cases r with
      | ok a =>
          obtain ⟨hp, rfl⟩ := reaches_yield.1 hpulled
          obtain ⟨rfl, rfl⟩ := Progress.yielded.inj hp
          exact ⟨.inl ⟨n + 1, rfl⟩, fun err => ⟨v, reaches_pure.2 ⟨rfl, rfl⟩⟩⟩
      | error err => cases err <;> cases (reaches_pure.1 hpulled).1
    · cases ((reaches_pulls_full hn).1 hyield).1
  · exact ⟨n, rfl⟩

theorem abandons_runLazy (c : Call) (take : Option Nat) (w : Session) :
    Abandons (.error .output) (c.runLazy take).run w := by
  apply Printing.abandons_bind (Printing.abandons_attempt (Attempt.silent_send _ _ _ w))
  intro v u
  apply Printing.abandons_bind (Printing.abandons_attempt (silent_pure _ u))
  intro e u'
  apply Printing.abandons_bind (abandons_pulls e take 0 u')
  intro n u''
  exact Printing.abandons_attempt (silent_note _ _ u'')

theorem abandons_printing {d : Routine (List Value) (Except Error Value)} {t : CallCourse}
    (hd : Follows .error d t) (hw : w.methods = .builtin) :
    Abandons (.error .output) (.drive d false printing conclude) w := by
  apply abandons_of_invariant (I := fun c w =>
    ∃ d t, c = .drive d false printing conclude ∧ Follows .error d t ∧ w.methods = .builtin)
  · rintro c w x rest v ⟨d, t, rfl, hd, hw⟩ hyield
    obtain ⟨r, u, -, hconclude⟩ | ⟨y, rest', u, hy, hprinting⟩ := reaches_drive.1 hyield
    · cases r with
      | ok a =>
          obtain ⟨hrest, herr⟩ := (Printing.abandons_line _ u).yielded hconclude
          exact ⟨.inr hrest, herr⟩
      | error err => cases (reaches_pure.1 hconclude).1
    · obtain ⟨hp, rfl⟩ := reaches_yield.1 hprinting
      obtain ⟨rfl, rfl⟩ := Progress.yielded.inj hp
      obtain ⟨hu, -, hrest⟩ := hd.of_reaches_yielded hw hy
      have hv : v.methods = .builtin := (Session.methods_of_unlogged hu).trans hw
      refine ⟨.inl ⟨_, _, rfl, hrest (.ok ()), hv⟩, fun _ => ?_⟩
      -- the call ends with the error of the block, but the state of the block is what is reported
      obtain ⟨v', hdone, -⟩ := (follows_done.1 (hrest (.error (.raised "output closed")))).reaches hv
        (reaches_pure.2 ⟨rfl, rfl⟩)
      exact ⟨v', reaches_drive.2 (.inl ⟨_, v', hdone, reaches_pure.2 ⟨rfl, rfl⟩⟩)⟩
  · exact ⟨d, t, rfl, hd, hw⟩

theorem IsLiteral.exists_follows (h : c.IsLiteral) :
    ∃ t, Follows .error (.invoke c.receiver c.method c.args .pure) t := by
  obtain ⟨hentry, -⟩ | ⟨hnone, -⟩ := h.entry_or_lookup_none
  · exact ⟨_, follows_call c.receiver c.method c.args hentry.iterationCall⟩
  · exact ⟨_, follows_done.2 (invoke_leadsTo_none c.args hnone)⟩

/-- Every mode gives up at the first line that cannot be written. -/
theorem IsLiteral.abandons_run (h : c.IsLiteral) (mode : Mode) (hw : w.methods = .builtin) :
    Abandons (.error .output) (c.run mode).run w := by
  cases hb : c.checkBounded mode with
  | error f =>
      unfold run
      rw [hb]
      exact (silent_pure _ w).abandons
  | ok a =>
      let noted := w.note (.running c.receiver c.method mode.form)
      have hmode : Abandons (.error .output) (c.printMode mode).run noted := by
        cases mode with
        | eager =>
            obtain ⟨t, ht⟩ := h.exists_follows
            exact abandons_printing ht hw
        | toArray => exact abandons_runToArray c noted
        | lazy take => exact abandons_runLazy c take noted
      rw [run_eq_of_bounded hb]
      exact hmode.of_forall_reaches fun p u hp => reaches_note.1 hp

/-- Let the command line make a call of literals and print it in some mode. If the output without a limit
ends, then with a limit the first bytes of it are written, as many as there is room for: the result is the
same if that is all of them, and otherwise it is the failure of the output. So it is also if the output
without a limit does not end, or has not ended yet, but is too much. -/
theorem IsLiteral.output_cut (hc : c.IsLiteral) (mode : Mode) (hw : w.methods = .builtin) (room : Nat) :
    (∀ bytes o, (c.run mode).Outputs none w bytes o → (c.run mode).Outputs (some room) w
      (bytes.extract 0 room) (if bytes.size ≤ room then o else .error .output)) ∧
    ∀ bytes, (c.run mode).OutputsFirst w bytes → room < bytes.size →
      (c.run mode).Outputs (some room) w (bytes.extract 0 room) (.error .output) := by
  have habandons := hc.abandons_run mode hw
  constructor
  · intro bytes o h
    exact h.limited habandons room
  · intro bytes h hroom
    exact h.limited habandons hroom

/-- From `Z` on no text passes `a`, so that only the lack of room ends the output. Where there is none for the
whole line with the result, its beginning is written. -/
theorem IsLiteral.output_cut_going_on :
    let c : Call := ⟨.range (.str "Z") (.str "a") false, "each", []⟩
    let d : Call := ⟨.range (.int 1) (.int 2) false, "each", []⟩
    (Call.each "Z" (some "a") false = .ok c ∧
      (c.run .eager).OutputsFirst .start "\"Z\"\n\"AA\"\n".toUTF8 ∧
      (c.run .eager).Outputs (some 5) .start "\"Z\"\n\"".toUTF8 (.error .output)) ∧
    Call.each "1" (some "2") false = .ok d ∧
      (d.run .eager).Outputs none .start "1\n2\n=> 1..2\n".toUTF8 (.ok ()) ∧
      (d.run .eager).Outputs (some 6) .start "1\n2\n=>".toUTF8 (.error .output) ∧
      (d.run .eager).Outputs (some 12) .start "1\n2\n=> 1..2\n".toUTF8 (.ok ()) := by
  intro c d
  have hc : Call.each "Z" (some "a") false = .ok c := rfl
  have hd : Call.each "1" (some "2") false = .ok d := rfl
  have hbytes : "\"Z\"\n\"AA\"\n".toUTF8 = textBytes ["\"Z\"\n", "\"AA\"\n"] := rfl
  have hfirst : (c.run .eager).OutputsFirst .start "\"Z\"\n\"AA\"\n".toUTF8 :=
    Printing.outputsFirst_iff.2 ⟨_, _, _, .cons ⟨60, rfl⟩ (.cons ⟨60, rfl⟩ (.nil _ _)), hbytes⟩
  have hcut := (IsLiteral.output_cut (w := .start) (.each hc) .eager rfl 5).2 _ hfirst (by decide)
  have hextract : "\"Z\"\n\"AA\"\n".toUTF8.extract 0 5 = "\"Z\"\n\"".toUTF8 := by decide
  rw [hextract] at hcut
  have hlines : "1\n2\n=> 1..2\n".toUTF8 = textBytes ["1\n", "2\n", "=> 1..2\n"] := rfl
  have hall : (d.run .eager).Outputs none .start "1\n2\n=> 1..2\n".toUTF8 (.ok ()) :=
    Printing.outputs_iff.2 ⟨_, _, ⟨_, _, .cons ⟨60, rfl⟩ (.cons ⟨60, rfl⟩ (.cons ⟨60, rfl⟩ (.nil _ _))),
      ⟨60, rfl⟩⟩, hlines⟩
  have hd₆ := (IsLiteral.output_cut (w := .start) (.each hd) .eager rfl 6).1 _ _ hall
  have hd₁₂ := (IsLiteral.output_cut (w := .start) (.each hd) .eager rfl 12).1 _ _ hall
  have hextract₆ : "1\n2\n=> 1..2\n".toUTF8.extract 0 6 = "1\n2\n=>".toUTF8 := by decide
  have hextract₁₂ : "1\n2\n=> 1..2\n".toUTF8.extract 0 12 = "1\n2\n=> 1..2\n".toUTF8 := by decide
  rw [hextract₆, if_neg (by decide)] at hd₆
  rw [hextract₁₂, if_pos (by decide)] at hd₁₂
  exact ⟨⟨hc, hfirst, hcut⟩, hd, hall, hd₆, hd₁₂⟩

end Call

end Stepwise
