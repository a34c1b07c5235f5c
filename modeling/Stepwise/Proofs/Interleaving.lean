import Stepwise.Proofs.Locality
import Stepwise.Proofs.Peeking
import Stepwise.Proofs.Stopping

namespace Stepwise

open Routine

namespace Routine

variable {ι κ β σ : Type} {block : σ → κ → Routine ι (σ × Except Error Unit)} {c d : Routine κ β}
  {s s' : σ} {w w' : Session} {calls : List (κ × Except Error Unit)} {b : β}

theorem Completes.of_alike (h : AlikeFrom w c d) (hc : Completes block c s w calls s' b w') :
    ∃ v, Completes block d s w calls s' b v ∧ v.unlogged = w'.unlogged := by
  obtain ⟨rest, u, hcalls, hend⟩ := hc
  cases hcalls with
  | none =>
      obtain ⟨v, hv, he⟩ := h.exists hend
      exact ⟨v, ⟨d, w, .none d s w, hv⟩, he⟩
  | call hyield hanswer hrest =>
      obtain ⟨u₁, hy, hu₁⟩ := h.exists hyield
      obtain ⟨u₂, ha, hu₂⟩ := hanswer.congr hu₁
      obtain ⟨u₃, hr, hu₃⟩ := hrest.congr hu₂
      obtain ⟨v, hv, he⟩ := hend.congr hu₃
      exact ⟨v, ⟨rest, u₃, .call hy ha hr, hv⟩, he⟩

end Routine

/-- If the operation drives the enumerator, it does so with a block that is confined to the set. A block that
only records what it gets is confined to every set. -/
def Operation.Within (S : Nat → Prop) : Operation → Prop
  | drive _ block => ∀ s x, (block s x).Confined S
  | _ => True

section Single

variable {e : Enumerator} {op : Operation} {a b : Answer} {S : Nat → Prop} {w w' v v' : Session}

theorem Performs.unique (h : Performs e op w a w') (h' : Performs e op w b v') :
    a = b ∧ w'.unlogged = v'.unlogged := by
  cases h with
  | next h =>
      cases h' with
      | next h' =>
          obtain ⟨rfl, rfl⟩ := h.unique h'
          exact ⟨rfl, rfl⟩
  | peek h =>
      cases h' with
      | peek h' =>
          obtain ⟨rfl, rfl⟩ := h.unique h'
          exact ⟨rfl, rfl⟩
  | rewind =>
      cases h'
      exact ⟨rfl, rfl⟩
  | drive hsource hcalls hend =>
      cases h' with
      | drive hsource' hcalls' hend' =>
          obtain ⟨u, hu, he⟩ := Completes.of_alike (hsource.alike.trans hsource'.alike.symm)
            ⟨_, _, hcalls, hend⟩
          obtain ⟨rfl, rfl, rfl⟩ := hu.unique ⟨_, _, hcalls', hend'⟩
          exact ⟨rfl, he.symm⟩
  | toArray hsource hr =>
      cases h' with
      | toArray hsource' hr' =>
          have halike := hsource.alike.trans hsource'.alike.symm
          obtain ⟨u, hu, he⟩ := (halike.drive_source [] _ _).exists hr
          obtain ⟨hp, rfl⟩ := hu.unique hr'
          obtain rfl := Progress.done.inj hp
          exact ⟨rfl, he.symm⟩

theorem Run.unique {ops : List Operation} {answers answers' : List Answer}
    (h : Run (Performs e) ops w answers w') (h' : Run (Performs e) ops w answers' v') :
    answers = answers' := by
  induction h generalizing answers' v' with
  | nil =>
      cases h'
      rfl
  | cons hstep _ ih =>
      cases h' with
      | cons hstep' hrest' =>
          obtain ⟨rfl, hu⟩ := hstep.unique hstep'
          obtain ⟨v, hv, -⟩ := hrest'.congr hu
          rw [ih hv]

theorem Enumerator.Drives.of_agree {source : Producer} (hsource : e.Drives w source) (h : Agree S w v) :
    e.Drives v source := by
  cases hsource with
  | replay => exact .replay
  | each heach => exact .each ((h.find _ _).trans heach)

theorem Enumerator.Drives.confined {source : Producer} (hsource : e.Drives w source)
    (he : ∀ id ∈ e.footprint, S id) : source.run.Confined S := by
  have htouched : TouchesOnly S e.receiver e.method e.args := fun id hid => he id (List.mem_cons_of_mem _ hid)
  cases hsource with
  | replay => exact ⟨htouched, fun _ => trivial⟩
  | each => exact ⟨htouched, fun _ => trivial⟩

/-- From sessions that agree on its footprint, an enumerator answers an operation in the same way. -/
theorem Performs.of_agree (hp : Performs e op w a w') (he : ∀ id ∈ e.footprint, S id)
    (hop : op.Within S) (h : Agree S w v) : ∃ v', Performs e op v a v' ∧ Advances S w v w' v' := by
  cases hp with
  | next hp =>
      obtain ⟨v', hv', hadvances, -⟩ :=
        (Enumerator.nextGives_iff_reaches.1 hp).of_agree ⟨he, fun _ => trivial⟩ h
      exact ⟨v', .next (Enumerator.nextGives_iff_reaches.2 hv'), hadvances⟩
  | peek hp =>
      obtain ⟨v', hv', hadvances, -⟩ :=
        (Enumerator.peekGives_iff_reaches.1 hp).of_agree ⟨he, fun _ => trivial⟩ h
      exact ⟨v', .peek (Enumerator.peekGives_iff_reaches.2 hv'), hadvances⟩
  | rewind => exact ⟨v.rewind e, .rewind v, (Advances.refl h).rewind (he e.id List.mem_cons_self)⟩
  | drive hsource hcalls hend =>
      obtain ⟨v₁, hv₁, hfirst, hrest⟩ := hcalls.of_agree hop (hsource.confined he) h
      obtain ⟨v', hv', hlast, -⟩ := hend.of_agree hrest hfirst.agree
      exact ⟨v', .drive (hsource.of_agree h) hv₁ hv', hfirst.trans hlast⟩
  | toArray hsource hr =>
      obtain ⟨v', hv', hadvances, -⟩ := hr.of_agree (confined_collect (hsource.confined he)) h
      exact ⟨v', .toArray (hsource.of_agree h) hv', hadvances⟩

end Single

universe u

section Own

variable {ι : Type} [DecidableEq ι] {α : Type u}

def own (i : ι) (xs : List (ι × α)) : List α := (xs.filter (·.1 = i)).map (·.2)

@[simp]
theorem own_nil (i : ι) : own i ([] : List (ι × α)) = [] := rfl

@[simp]
theorem own_cons_self (i : ι) (x : α) (xs : List (ι × α)) : own i ((i, x) :: xs) = x :: own i xs := by
  simp [own]

theorem own_cons_of_ne {i j : ι} (h : j ≠ i) (x : α) (xs : List (ι × α)) :
    own i ((j, x) :: xs) = own i xs := by
  simp [own, h]

end Own

inductive Interleaves {ι : Type} (family : ι → Enumerator) :
    List (ι × Operation) → Session → List (ι × Answer) → Session → Prop
  | nil (w : Session) : Interleaves family [] w [] w
  | cons {i : ι} {op : Operation} {ops : List (ι × Operation)} {w w₁ w' : Session} {a : Answer}
      {answers : List (ι × Answer)} (h : Performs (family i) op w a w₁)
      (hrest : Interleaves family ops w₁ answers w') :
      Interleaves family ((i, op) :: ops) w ((i, a) :: answers) w'

def DisjointFootprints {ι : Type} (family : ι → Enumerator) : Prop :=
  ∀ i j, i ≠ j → ∀ id ∈ (family i).footprint, id ∉ (family j).footprint

theorem touched_of_iterationCall : (receiver : Value) → (method : String) → (args : List Value) →
    IterationCall receiver method → touched receiver method args = []
  | .enumerator id receiver method bound, name, args, h => by
      obtain ⟨hname, hbound⟩ := h
      simp only [iterationNames, List.mem_cons, List.not_mem_nil, or_false] at hname
      obtain rfl | rfl | rfl := hname
      · rfl
      · rfl
      · cases args with
        | nil => exact touched_of_iterationCall receiver method bound hbound
        | cons => rfl
  | .nil, _, _, _ | .bool _, _, _, _ | .int _, _, _, _ | .float _, _, _, _ | .str _, _, _, _
  | .array _, _, _, _ | .range _ _ _, _, _, _ => rfl

theorem disjointFootprints_of_iterationCall {ι : Type} {family : ι → Enumerator}
    (hids : ∀ i j, (family i).id = (family j).id → i = j)
    (hcalls : ∀ i, IterationCall (family i).receiver (family i).method) : DisjointFootprints family := by
  have hfootprint (i : ι) : (family i).footprint = [(family i).id] := by
    rw [Enumerator.footprint, touched_of_iterationCall _ _ _ (hcalls i)]
  intro i j hij id hi hj
  rw [hfootprint, List.mem_singleton] at hi hj
  exact hij (hids i j (hi.symm.trans hj))

section Family

variable {ι : Type} [DecidableEq ι] {family : ι → Enumerator} {ops : List (ι × Operation)}
  {answers : List (ι × Answer)} {w w' : Session} {v : ι → Session}

theorem agree_update (hdisjoint : DisjointFootprints family) {j : ι} {w₁ u : Session}
    (hv : ∀ i, Agree (· ∈ (family i).footprint) w (v i))
    (hj : Agree (· ∈ (family j).footprint) w₁ u) (hleaves : Leaves (· ∈ (family j).footprint) w w₁)
    (i : ι) : Agree (· ∈ (family i).footprint) w₁ (if i = j then u else v i) := by
  split
  · rename_i h
    rwa [h]
  · rename_i h
    exact (hv i).frame hj.left hleaves (hdisjoint i j h)

/-- Beside the interleaved run, each member has a session of its own in which only its own operations are
performed. -/
theorem Interleaves.own_run (hdisjoint : DisjointFootprints family)
    (hops : ∀ x ∈ ops, x.2.Within (· ∈ (family x.1).footprint))
    (h : Interleaves family ops w answers w')
    (hv : ∀ i, Agree (· ∈ (family i).footprint) w (v i)) (i : ι) :
    ∃ u, Run (Performs (family i)) (own i ops) (v i) (own i answers) u := by
  induction h generalizing v with
  | nil => exact ⟨v i, .nil _⟩
  | @cons j op ops w w₁ w' a answers h _ ih =>
      obtain ⟨hop, hops⟩ := List.forall_mem_cons.1 hops
      obtain ⟨u, hu, hadvances⟩ := h.of_agree (fun _ => id) hop (hv j)
      obtain ⟨u', hu'⟩ := ih hops (agree_update hdisjoint hv hadvances.agree hadvances.left)
      by_cases hi : i = j
      · subst hi
        rw [if_pos rfl] at hu'
        rw [own_cons_self, own_cons_self]
        exact ⟨u', .cons hu hu'⟩
      · rw [if_neg hi] at hu'
        rw [own_cons_of_ne (Ne.symm hi), own_cons_of_ne (Ne.symm hi)]
        exact ⟨u', hu'⟩

theorem exists_interleaves (hdisjoint : DisjointFootprints family)
    (hops : ∀ x ∈ ops, x.2.Within (· ∈ (family x.1).footprint))
    (hv : ∀ i, Agree (· ∈ (family i).footprint) w (v i))
    (hruns : ∀ i, ∃ bs u, Run (Performs (family i)) (own i ops) (v i) bs u) :
    ∃ answers w', Interleaves family ops w answers w' := by
  induction ops generalizing w v with
  | nil => exact ⟨[], w, .nil w⟩
  | cons x ops ih =>
      obtain ⟨j, op⟩ := x
      obtain ⟨hop, hops⟩ := List.forall_mem_cons.1 hops
      obtain ⟨bs, u', hj⟩ := hruns j
      rw [own_cons_self] at hj
      cases hj with
      | @cons _ _ _ u _ a _ hstep hrest =>
          obtain ⟨w₁, hw₁, hadvances⟩ := hstep.of_agree (fun _ => id) hop (hv j).symm
          have hruns' (i : ι) :
              ∃ bs u', Run (Performs (family i)) (own i ops) (if i = j then u else v i) bs u' := by
            by_cases hi : i = j
            · subst hi
              rw [if_pos rfl]
              exact ⟨_, u', hrest⟩
            · rw [if_neg hi, ← own_cons_of_ne (Ne.symm hi) op ops]
              exact hruns i
          obtain ⟨answers, w', hrun⟩ :=
            ih hops (agree_update hdisjoint hv hadvances.agree.symm hadvances.right) hruns'
          exact ⟨(j, a) :: answers, w', .cons hw₁ hrun⟩

/-- Take a family of enumerators in which nothing has been pulled yet, and operations on its members whose
blocks stay within the footprint of the member that they drive. Different enumerators whose calls iterate have
disjoint footprints. Wherever the footprints are disjoint, the operations can be performed one after another
just where those on each member can be performed by themselves, and then each member gives the answers that it
gives to its own operations alone. -/
theorem interleaves_own_answers (hw : w.methods = .builtin)
    (hfresh : ∀ i (f : Enumerator), f.id ∈ (family i).footprint → w.external f = {})
    (hops : ∀ x ∈ ops, x.2.Within (· ∈ (family x.1).footprint)) :
    ((∀ i j, (family i).id = (family j).id → i = j) →
      (∀ i, IterationCall (family i).receiver (family i).method) → DisjointFootprints family) ∧
    (DisjointFootprints family →
      ((∃ answers w', Interleaves family ops w answers w') ↔
        ∀ i, ∃ bs u, Run (Performs (family i)) (own i ops) w bs u) ∧
      ∀ answers w', Interleaves family ops w answers w' → ∀ i bs,
        (∃ u, Run (Performs (family i)) (own i ops) w bs u) ↔ bs = own i answers) := by
  refine ⟨disjointFootprints_of_iterationCall, fun hdisjoint => ?_⟩
  have hagree (i : ι) : Agree (· ∈ (family i).footprint) w w := by
    refine ⟨hw, hw, fun _ _ => rfl, fun f hf => ?_⟩
    rw [hfresh i f hf]
    exact nofun
  have hown {answers : List (ι × Answer)} {w' : Session} (h : Interleaves family ops w answers w')
      (i : ι) : ∃ u, Run (Performs (family i)) (own i ops) w (own i answers) u :=
    h.own_run hdisjoint hops hagree i
  refine ⟨⟨?_, exists_interleaves hdisjoint hops hagree⟩, fun answers w' h i bs => ⟨?_, ?_⟩⟩
  · rintro ⟨answers, w', h⟩ i
    exact ⟨_, hown h i⟩
  · rintro ⟨u, hu⟩
    obtain ⟨u', hu'⟩ := hown h i
    exact hu.unique hu'
  · rintro rfl
    exact hown h i

/-- An enumerator that counts to two, one that is bound to it, and one whose call pulls another counter that
nobody else uses. Each is used while the others are in the middle of their elements. Also two enumerators of the
same call. -/
theorem interleaves_own_answers_nested :
    let g : Enumerator := ⟨0, .int 2, "times", []⟩
    let e : Enumerator := ⟨1, g.toValue, "each", []⟩
    let p : Enumerator := ⟨2, .enumerator 3 (.enumerator 4 (.int 5) "times" []) "next" [], "each", []⟩
    let family (i : Fin 3) : Enumerator := [g, e, p].get i
    let block (s : List (List Value)) (x : List Value) : Routine Empty (_ × Except Error Unit) :=
      .pure (x :: s, .ok ())
    let ops : List (Fin 3 × Operation) := [(1, .next), (0, .peek), (2, .next), (1, .next),
      (0, .drive [] block), (2, .drive [] block), (0, .next), (1, .toArray), (0, .next), (1, .next)]
    let twins (b : Bool) : Enumerator := ⟨if b then 1 else 0, .int 2, "times", []⟩
    let pulls : List (Bool × Operation) := [(true, .next), (false, .peek), (true, .next), (false, .next)]
    (∃ answers w', Interleaves twins pulls .start answers w') ∧
    (∃ u, Run (Performs (twins false)) [.peek, .next] .start
      [.pulled (.ok (.int 0)), .pulled (.ok (.int 0))] u) ∧
    DisjointFootprints family ∧
    (∃ answers w', Interleaves family ops .start answers w') ∧
    (∃ u, Run (Performs g) [.peek, .drive [] block, .next, .next] .start
      [.pulled (.ok (.int 0)), .driven [([.int 0], .ok ()), ([.int 1], .ok ())] (.ok (.int 2)),
        .pulled (.ok (.int 0)), .pulled (.ok (.int 1))] u) ∧
    ∃ u, Run (Performs p) [.next, .drive [] block] .start
      [.pulled (.error .stopIteration), .driven [] (.ok (.int 1))] u := by
  intro g e p family block ops twins pulls
  have htwins : ∃ w', Interleaves twins pulls .start [(true, .pulled (.ok (.int 0))),
      (false, .pulled (.ok (.int 0))), (true, .pulled (.ok (.int 1))), (false, .pulled (.ok (.int 0)))] w' :=
    ⟨_, .cons (.next ⟨50, rfl⟩) (.cons (.peek ⟨50, rfl⟩) (.cons (.next ⟨50, rfl⟩) (.cons (.next ⟨50, rfl⟩)
      (.nil _))))⟩
  obtain ⟨v, hv⟩ := htwins
  have hpulls : ∀ x ∈ pulls, x.2.Within (· ∈ (twins x.1).footprint) := by
    simp [pulls, Operation.Within]
  obtain ⟨htwins, hown⟩ := interleaves_own_answers (w := .start) rfl (fun _ _ _ => rfl) hpulls
  have hdifferent := htwins (by decide) fun _ => by simp [twins, IterationCall, iterationNames]
  refine ⟨⟨_, v, hv⟩, ((hown hdifferent).2 _ v hv false _).2 rfl, ?_⟩
  have hdisjoint : DisjointFootprints family := by
    unfold DisjointFootprints
    decide
  have hops : ∀ x ∈ ops, x.2.Within (· ∈ (family x.1).footprint) := by
    simp only [ops, List.forall_mem_cons, List.not_mem_nil, false_imp_iff, implies_true,
      Operation.Within, and_self, and_true, true_and]
    exact ⟨fun _ _ => trivial, fun _ _ => trivial⟩
  have hrun : ∃ w', Interleaves family ops .start
      [(1, .pulled (.ok (.int 0))), (0, .pulled (.ok (.int 0))), (2, .pulled (.error .stopIteration)),
        (1, .pulled (.ok (.int 1))), (0, .driven [([.int 0], .ok ()), ([.int 1], .ok ())] (.ok (.int 2))),
        (2, .driven [] (.ok (.int 1))), (0, .pulled (.ok (.int 0))), (1, .collected (.ok [.int 0, .int 1])),
        (0, .pulled (.ok (.int 1))), (1, .pulled (.error .stopIteration))] w' :=
    ⟨_, .cons (.next ⟨50, rfl⟩) (.cons (.peek ⟨50, rfl⟩) (.cons (.next ⟨50, rfl⟩) (.cons (.next ⟨50, rfl⟩)
      (.cons (.drive .replay (.call ⟨50, rfl⟩ ⟨1, rfl⟩ (.call ⟨50, rfl⟩ ⟨1, rfl⟩ (.none _ _ _))) ⟨50, rfl⟩)
      (.cons (.drive .replay (.none _ _ _) ⟨50, rfl⟩)
      (.cons (.next ⟨50, rfl⟩) (.cons (.toArray .replay ⟨50, rfl⟩) (.cons (.next ⟨50, rfl⟩)
      (.cons (.next ⟨50, rfl⟩) (.nil _))))))))))⟩
  obtain ⟨w', hw'⟩ := hrun
  obtain ⟨-, h⟩ := (interleaves_own_answers (w := .start) rfl (fun _ _ _ => rfl) hops).2 hdisjoint
  exact ⟨hdisjoint, ⟨_, w', hw'⟩, (h _ w' hw' 0 _).2 rfl, (h _ w' hw' 2 _).2 rfl⟩

/-- An enumerator that replays a pull of another one takes an element from it. -/
theorem interleaves_moved :
    let g : Enumerator := ⟨0, .int 3, "times", []⟩
    let e : Enumerator := ⟨2, .enumerator 1 g.toValue "next" [], "each", []⟩
    let family (b : Bool) : Enumerator := if b then e else g
    let ops : List (Bool × Operation) := [(true, .next), (false, .next)]
    (∀ i, (family i).method ∈ iterationNames) ∧ (∀ i, Session.start.external (family i) = {}) ∧
    ∃ answers w', Interleaves family ops .start answers w' ∧
      own false answers = [.pulled (.ok (.int 1))] ∧
      ∃ u, Run (Performs g) (own false ops) .start [.pulled (.ok (.int 0))] u := by
  intro g e family ops
  have hrun : ∃ w', Interleaves family ops .start
      [(true, .pulled (.error .stopIteration)), (false, .pulled (.ok (.int 1)))] w' :=
    ⟨_, .cons (.next ⟨50, rfl⟩) (.cons (.next ⟨50, rfl⟩) (.nil _))⟩
  obtain ⟨w', hw'⟩ := hrun
  refine ⟨by decide, fun _ => rfl, _, w', hw', rfl, _, .cons (.next ⟨50, rfl⟩) (.nil _)⟩

end Family

end Stepwise
