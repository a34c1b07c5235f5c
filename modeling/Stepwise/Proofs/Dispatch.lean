import Stepwise.Proofs.Events
import Stepwise.Proofs.Locality

namespace Stepwise

open Routine

abbrev Definition := Class × String × Method

def Event.definition? : Event → Option Definition
  | defined c name m => some (c, name, m)
  | _ => none

def definitions (es : List Event) : List Definition := es.filterMap Event.definition?

section Last

variable (start ds : List Definition) (c : Class) (name : String) (m : Method)

def Lacks : Prop := ∀ m, (c, name, m) ∉ ds

def IsLast : Prop := ∃ before after, ds = before ++ (c, name, m) :: after ∧ Lacks after c name

/-- The method that counts after these definitions in a table that started with others. -/
def Counts : Prop := IsLast ds c name m ∨ Lacks ds c name ∧ (c, name, m) ∈ start

end Last

variable {ds : List Definition} {c : Class} {name : String} {m : Method}

theorem lacks_cons {d : Definition} : Lacks (d :: ds) c name ↔ (∀ m, d ≠ (c, name, m)) ∧ Lacks ds c name := by
  simp only [Lacks, List.mem_cons, not_or, forall_and, ne_comm, ne_eq]

theorem isLast_cons {d : Definition} :
    IsLast (d :: ds) c name m ↔ IsLast ds c name m ∨ d = (c, name, m) ∧ Lacks ds c name := by
  constructor
  · rintro ⟨before, after, hsplit, hafter⟩
    cases before with
    | nil =>
        obtain ⟨rfl, rfl⟩ := List.cons.inj hsplit
        exact .inr ⟨rfl, hafter⟩
    | cons b before =>
        obtain ⟨rfl, rfl⟩ := List.cons.inj hsplit
        exact .inl ⟨before, after, rfl, hafter⟩
  · rintro (⟨before, after, rfl, hafter⟩ | ⟨rfl, hlacks⟩)
    · exact ⟨d :: before, after, rfl, hafter⟩
    · exact ⟨[], ds, rfl, hlacks⟩

theorem IsLast.mem (h : IsLast ds c name m) : (c, name, m) ∈ ds := by
  obtain ⟨before, after, rfl, -⟩ := h
  exact List.mem_append_right before List.mem_cons_self

theorem isLast_of_mem (hnodup : (ds.map fun d => (d.1, d.2.1)).Nodup) (h : (c, name, m) ∈ ds) :
    IsLast ds c name m := by
  obtain ⟨before, after, rfl⟩ := List.append_of_mem h
  refine ⟨before, after, rfl, fun m' hm' => ?_⟩
  rw [List.map_append, List.map_cons] at hnodup
  obtain ⟨-, hnodup, -⟩ := List.nodup_append.1 hnodup
  exact (List.nodup_cons.1 hnodup).1 (List.mem_map.2 ⟨_, hm', rfl⟩)

namespace MethodTable

theorem lookup_defineAll (t : MethodTable) (ds : List Definition) :
    (t.defineAll ds).lookup c name = some m ↔
      IsLast ds c name m ∨ Lacks ds c name ∧ t.lookup c name = some m := by
  induction ds generalizing t with
  | nil => simp [defineAll, IsLast, Lacks]
  | cons d ds ih =>
      obtain ⟨c', name', m'⟩ := d
      rw [isLast_cons, lacks_cons]
      refine (ih (t.define c' name' m')).trans ?_
      by_cases h : (c, name) = (c', name')
      · obtain ⟨rfl, rfl⟩ := Prod.mk.inj h
        rw [lookup_define, if_pos ⟨rfl, rfl⟩]
        constructor
        · rintro (hlast | ⟨hlacks, hm⟩)
          · exact .inl (.inl hlast)
          · cases hm
            exact .inl (.inr ⟨rfl, hlacks⟩)
        · rintro ((hlast | ⟨hd, hlacks⟩) | ⟨⟨hd, -⟩, -⟩)
          · exact .inl hlast
          · cases hd
            exact .inr ⟨hlacks, rfl⟩
          · exact absurd rfl (hd m')
      · have hd (m : Method) : (c', name', m') ≠ (c, name, m) := by
          intro he
          cases he
          exact h rfl
        rw [lookup_define, if_neg fun hkey => h (Prod.ext hkey.1 hkey.2)]
        constructor
        · rintro (hlast | ⟨hlacks, hm⟩)
          · exact .inl (.inl hlast)
          · exact .inr ⟨⟨hd, hlacks⟩, hm⟩
        · rintro ((hlast | ⟨he, -⟩) | ⟨⟨-, hlacks⟩, hm⟩)
          · exact .inl hlast
          · exact absurd he (hd m)
          · exact .inr ⟨hlacks, hm⟩

theorem defineAll_append (t : MethodTable) (ds es : List Definition) :
    t.defineAll (ds ++ es) = (t.defineAll ds).defineAll es :=
  List.foldl_append

theorem exists_lookup_defineAll {t : MethodTable} (h : ∃ m, t.lookup c name = some m)
    (ds : List Definition) : ∃ m, (t.defineAll ds).lookup c name = some m := by
  induction ds generalizing t with
  | nil => exact h
  | cons d ds ih =>
      refine ih (t := t.define d.1 d.2.1 d.2.2) ?_
      rw [lookup_define]
      split
      · exact ⟨_, rfl⟩
      · exact h

theorem nodup_builtinMethods : (builtinMethods.map fun d => (d.1, d.2.1)).Nodup := by decide

theorem lookup_builtin_iff : builtin.lookup c name = some m ↔ (c, name, m) ∈ builtinMethods :=
  ⟨mem_builtinMethods, fun h => (lookup_defineAll _ _).2 (.inl (isLast_of_mem nodup_builtinMethods h))⟩

theorem lookup_defineAll_start {start : List Definition} (hstart : start = [] ∨ start = builtinMethods)
    (ds : List Definition) :
    (defineAll {} (start ++ ds)).lookup c name = some m ↔ Counts start ds c name m := by
  have hlookup : (defineAll {} start).lookup c name = some m ↔ (c, name, m) ∈ start := by
    obtain rfl | rfl := hstart
    · exact iff_of_false (by rintro ⟨⟩) List.not_mem_nil
    · exact lookup_builtin_iff
  rw [defineAll_append, lookup_defineAll, hlookup, Counts]

end MethodTable

variable {w v u : Session} {es fs : List Event} {start : List Definition}

theorem History.methods (h : History w es v) : v.methods = w.methods.defineAll (definitions es) := by
  induction h with
  | nil => rfl
  | cons hev _ ih =>
      rw [ih]
      cases hev <;> rfl

/-- Routines are run one after another, each to its end or to some point at which it is cut off. What is defined
between them is defined by such a routine too. -/
inductive Evolves : Session → List Event → Session → Prop
  | refl (w : Session) : Evolves w [] w
  | run {ι α : Type} {c : Routine ι α} {w v u : Session} {es fs : List Event} (h : Evolves w es v)
      (hc : c.Traverses v fs u) : Evolves w (es ++ fs) u

theorem Routine.Traverses.evolves {ι α : Type} {c : Routine ι α} (hc : c.Traverses w es v) : Evolves w es v :=
  .run (.refl w) hc

theorem Evolves.history (h : Evolves w es v) : History w es v := by
  induction h with
  | refl w => exact .nil w
  | run _ hc ih => exact ih.append hc.2

def Event.Obeys (start ds : List Definition) : Event → Prop
  | ran receiver name _ _ m => Counts start ds receiver.classOf name m
  | refused receiver name => ∀ m, ¬ Counts start ds receiver.classOf name m
  | asked receiver name answer => answer = true ↔ ∃ m, Counts start ds receiver.classOf name m
  | _ => True

theorem Happens.obeys {ev : Event} (h : Happens w ev v)
    (hw : ∀ c name m, w.methods.lookup c name = some m ↔ Counts start ds c name m) :
    ev.Obeys start ds := by
  cases h with
  | noted | defined | bound | resumed | remembered | rewound => trivial
  | ran args hasBlock h => exact (hw _ _ _).1 h
  | @refused receiver name h =>
      intro m hm
      rw [← hw] at hm
      exact absurd (h.symm.trans hm) (by simp)
  | asked receiver name =>
      simp only [Event.Obeys, ← hw, ← Option.isSome_iff_exists]
      rfl

namespace Routine

variable {ι α : Type}

/-- The routine comes from yield to yield and then to something more. At each yield the driver leaves a session of
its own making, in which it may have defined anything, and gives an answer. -/
inductive Proceeds : Routine ι α → Session → List (ι × Session × Except Error Unit) → Progress ι α →
    Session → Prop
  | reaches {c : Routine ι α} {w v : Session} {p : Progress ι α} (h : c.Reaches w p v) : Proceeds c w [] p v
  | answered {c : Routine ι α} {w w₁ v u : Session} {x : ι} {rest : Except Error Unit → Routine ι α}
      {answer : Except Error Unit} {xs : List (ι × Session × Except Error Unit)} {p : Progress ι α}
      (hyield : c.Reaches w (.yielded x rest) w₁) (hrest : Proceeds (rest answer) v xs p u) :
      Proceeds c w ((x, v, answer) :: xs) p u

theorem Proceeds.of_reaches {c d : Routine ι α} {xs : List (ι × Session × Except Error Unit)}
    {p : Progress ι α} (hcd : ∀ p u, c.Reaches w p u → d.Reaches v p u) (h : c.Proceeds w xs p u) :
    d.Proceeds v xs p u := by
  cases h with
  | reaches h => exact .reaches (hcd _ _ h)
  | answered hyield hrest => exact .answered (hcd _ _ hyield) hrest

end Routine

namespace Session

/-- The call runs the method: with a block and without one, it starts with the method and comes to exactly what the
method comes to, whatever is defined until its end. -/
structure Runs (w : Session) (v : Value) (name : String) (args : List Value) (m : Method) : Prop where
  events : ∀ n, (invoke v name args .pure).events (n + 1) w = .ran v name args true m ::
    (m.withBlock v args).run.events n (w.note (.sent v.classOf name args.length true))
  proceeds : ∀ xs p u, (invoke v name args .pure).Proceeds w xs p u ↔
    (m.withBlock v args).run.Proceeds (w.note (.sent v.classOf name args.length true)) xs p u
  eventsPlain : ∀ (ι : Type) n, (send v name args .pure : Routine ι _).events (n + 1) w =
    .ran v name args false m ::
      ((m.plain v args).run.lift : Routine ι _).events n (w.note (.sent v.classOf name args.length false))
  reachesPlain : ∀ (ι : Type) p u, (send v name args .pure : Routine ι _).Reaches w p u ↔
    ((m.plain v args).run.lift : Routine ι _).Reaches (w.note (.sent v.classOf name args.length false)) p u

structure Refuses (w : Session) (v : Value) (name : String) (args : List Value) : Prop where
  events : ∀ n, (invoke v name args .pure).events (n + 1) w = [.refused v name]
  reaches : ∀ p u, (invoke v name args .pure).Reaches w p u ↔
    p = .done (.error (.noMethod name v.className)) ∧ u = w
  eventsPlain : ∀ (ι : Type) n, (send v name args .pure : Routine ι _).events (n + 1) w = [.refused v name]
  reachesPlain : ∀ (ι : Type) p u, (send v name args .pure : Routine ι _).Reaches w p u ↔
    p = .done (.error (.noMethod name v.className)) ∧ u = w

variable {x : Value} {args : List Value}

theorem runs_of_find (h : w.find x name = some m) : w.Runs x name args m where
  events n := by rw [events_invoke_some n h, Routine.bind_pure]
  proceeds xs p u := by
    have hreaches (p : Progress (List Value) (Except Error Value)) (u : Session) :
        (invoke x name args .pure).Reaches w p u ↔
          (m.withBlock x args).run.Reaches (w.note (.sent x.classOf name args.length true)) p u := by
      rw [reaches_invoke_some h, Routine.bind_pure]
    exact ⟨.of_reaches fun p u => (hreaches p u).1, .of_reaches fun p u => (hreaches p u).2⟩
  eventsPlain ι n := by rw [events_send_some n h, Routine.bind_pure]
  reachesPlain ι p u := by rw [reaches_send_some h, Routine.bind_pure]

theorem refuses_of_find (h : w.find x name = none) : w.Refuses x name args where
  events n := by rw [events_invoke_none n h, events_pure]
  reaches p u := by rw [reaches_invoke_none h, reaches_pure]
  eventsPlain ι n := by rw [events_send_none n h, events_pure]
  reachesPlain ι p u := by rw [reaches_send_none h, reaches_pure]

theorem find_eq_some_iff : w.find x name = some m ↔ w.Runs x name args m := by
  refine ⟨runs_of_find, fun h => ?_⟩
  have hstart := h.events 0
  cases hfind : w.find x name with
  | none => simp [events_invoke_none 0 hfind] at hstart
  | some m' =>
      rw [events_invoke_some 0 hfind] at hstart
      simpa using hstart

theorem find_eq_none_iff : w.find x name = none ↔ w.Refuses x name args := by
  refine ⟨refuses_of_find, fun h => ?_⟩
  have hstart := h.events 0
  cases hfind : w.find x name with
  | none => rfl
  | some m => simp [events_invoke_some 0 hfind] at hstart

end Session

/-- Take a table that starts empty or with the built-in methods, and any definitions. By itself, the table finds the
method that counts. In a session with such a table, after any routines were run, wholly or in part, the
definitions are those that the routines, their blocks and methods have made so far; every call and every question
on the way has gone by the method that counted at that moment, and so do those that follow. A call that finds a
method runs just this one to its end. What is once found is found for ever. -/
theorem Evolves.dispatch_follows_definitions (hstart : start = [] ∨ start = builtinMethods) :
    (∀ ds c name m,
      (MethodTable.defineAll {} (start ++ ds)).lookup c name = some m ↔ Counts start ds c name m) ∧
    ∀ w₀ es w, w₀.methods = MethodTable.defineAll {} start → Evolves w₀ es w →
      (∀ c name m, w.methods.lookup c name = some m ↔ Counts start (definitions es) c name m) ∧
      (∀ before ev after, es = before ++ ev :: after → ev.Obeys start (definitions before)) ∧
      (∀ v name,
        (∀ (ι : Type) b u, (respondsTo v name .pure : Routine ι Bool).Reaches w (.done b) u ↔
          (b = true ↔ ∃ m, w.methods.lookup v.classOf name = some m) ∧ u = w) ∧
        (∀ args m, w.methods.lookup v.classOf name = some m ↔ w.Runs v name args m) ∧
        ∀ args, w.methods.lookup v.classOf name = none ↔ w.Refuses v name args) ∧
      ∀ fs u, Evolves w fs u → ∀ c name, (∃ m, w.methods.lookup c name = some m) →
        ∃ m, u.methods.lookup c name = some m := by
  refine ⟨fun ds c name m => MethodTable.lookup_defineAll_start hstart ds, fun w₀ es w h₀ h => ?_⟩
  have hcounts {es : List Event} {w : Session} (h : History w₀ es w) (c : Class) (name : String)
      (m : Method) : w.methods.lookup c name = some m ↔ Counts start (definitions es) c name m := by
    rw [h.methods, h₀, ← MethodTable.defineAll_append, MethodTable.lookup_defineAll_start hstart]
  refine ⟨hcounts h.history, fun before ev after hsplit => ?_, fun v name => ⟨fun ι b u => ?_, ?_, ?_⟩, ?_⟩
  · have hhistory := h.history
    rw [hsplit, History.append_iff] at hhistory
    obtain ⟨v, hbefore, hafter⟩ := hhistory
    cases hafter with
    | cons hev _ => exact hev.obeys (hcounts hbefore)
  · rw [reaches_respondsTo, reaches_pure, Progress.done.injEq, ← Option.isSome_iff_exists, ← Bool.eq_iff_iff]
    rfl
  · exact fun args m => Session.find_eq_some_iff
  · exact fun args => Session.find_eq_none_iff
  · intro fs u hu c name hfound
    rw [hu.history.methods]
    exact MethodTable.exists_lookup_defineAll hfound _

/-- The block of a call redefines the method that is running. The call goes on with the old one, the next call runs
the new one, and the other classes and names are as before. -/
theorem Evolves.dispatch_follows_definitions_redefined :
    let second : Method := .blockless fun _ _ => pure (.int 2)
    let first : Method := ⟨fun _ _ => do
      Attempt.yield [.int 0]
      Attempt.yield [.int 1]
      return .nil, fun _ _ => pure (.int 1)⟩
    let block (seen : List (List Value)) (args : List Value) : Routine Empty (_ × Except Error Unit) := do
      let r ← (Attempt.define .nil "answer" second).run
      return (seen ++ [args], r)
    let c : Routine Empty (List (List Value) × Except Error Value) := do
      let _ ← (Attempt.define .nil "answer" first).run
      let r ← (Attempt.invoke .nil "answer" []).withBlock [] block
      let answer ← (Attempt.send .nil "answer" []).run
      return (r.1, answer)
    ∃ es w, c.Reaches .start (.done ([[.int 0], [.int 1]], .ok (.int 2))) w ∧ Evolves .start es w ∧
      definitions es = [(.nil, "answer", first), (.nil, "answer", second), (.nil, "answer", second)] ∧
      w.Runs .nil "answer" [] second ∧ w.Runs (.int 3) "times" [] Integer.timesMethod ∧
      w.Refuses (.int 3) "answer" [] := by
  intro second first block c
  have hrun : ∃ w, c.resume 40 .start = some (.done ([[.int 0], [.int 1]], .ok (.int 2)), w) := ⟨_, rfl⟩
  obtain ⟨w, hw⟩ := hrun
  have hevolves := (traverses_of_resume hw).evolves
  have hdefinitions : definitions (c.events 40 .start) =
      [(.nil, "answer", first), (.nil, "answer", second), (.nil, "answer", second)] := rfl
  obtain ⟨hcounts, -, hcalls, -⟩ := (dispatch_follows_definitions (.inr rfl)).2 .start _ w rfl hevolves
  rw [hdefinitions] at hcounts
  refine ⟨_, w, ⟨40, hw⟩, hevolves, hdefinitions, ?_, ?_, ?_⟩
  · refine ((hcalls .nil "answer").2.1 [] second).1 ((hcounts _ _ _).2 (.inl ?_))
    exact ⟨[(.nil, "answer", first), (.nil, "answer", second)], [], rfl, by simp [Lacks]⟩
  · refine ((hcalls (.int 3) "times").2.1 [] _).1 ((hcounts _ _ _).2 (.inr ⟨?_, ?_⟩))
    · simp [Lacks, Value.classOf]
    · exact List.mem_cons_self
  · refine ((hcalls (.int 3) "answer").2.2 []).1 (Option.eq_none_iff_forall_ne_some.2 fun m hm => ?_)
    obtain hlast | ⟨-, hmem⟩ := (hcounts _ _ _).1 hm
    · simpa [Value.classOf] using hlast.mem
    · have hnone := MethodTable.lookup_builtin_iff.2 hmem
      cases hnone

end Stepwise
