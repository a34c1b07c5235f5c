import Stepwise.Builtins
import Stepwise.Proofs.Driving

namespace Stepwise

/-- The event at each position is a yield, or the end at every position that is not reached. -/
structure Course (ι α : Type) where
  event : Nat → ι ⊕ α
  lasting : ∀ k a, event k = .inr a → event (k + 1) = .inr a

namespace Course

variable {ι κ α β σ : Type}

theorem ext {t u : Course ι α} (h : ∀ k, t.event k = u.event k) : t = u := by
  cases t
  cases u
  simpa using funext h

def done (a : α) : Course ι α := ⟨fun _ => .inr a, fun _ _ h => h⟩

def cons (x : ι) (t : Course ι α) : Course ι α where
  event
    | 0 => .inl x
    | k + 1 => t.event k
  lasting k a h := by
    cases k with
    | zero => simp at h
    | succ k => exact t.lasting k a h

def tail (t : Course ι α) : Course ι α := ⟨fun k => t.event (k + 1), fun k => t.lasting (k + 1)⟩

def drop (t : Course ι α) (n : Nat) : Course ι α where
  event k := t.event (n + k)
  lasting k := t.lasting (n + k)

def ofList (xs : List ι) (a : α) : Course ι α := xs.foldr cons (done a)

def map (f : ι → κ) (g : α → β) (t : Course ι α) : Course κ β where
  event k := (t.event k).map f g
  lasting k b h := by
    cases ht : t.event k with
    | inl x => simp [ht] at h
    | inr a => simpa [ht, t.lasting k a ht] using h

@[simp]
theorem event_done (a : α) (k : Nat) : (done a : Course ι α).event k = .inr a := rfl

@[simp]
theorem event_cons_zero (x : ι) (t : Course ι α) : (cons x t).event 0 = .inl x := rfl

@[simp]
theorem event_cons_succ (x : ι) (t : Course ι α) (k : Nat) :
    (cons x t).event (k + 1) = t.event k := rfl

@[simp]
theorem tail_cons (x : ι) (t : Course ι α) : (cons x t).tail = t := rfl

@[simp]
theorem ofList_nil (a : α) : (ofList [] a : Course ι α) = done a := rfl

@[simp]
theorem ofList_cons (x : ι) (xs : List ι) (a : α) : ofList (x :: xs) a = cons x (ofList xs a) := rfl

@[simp]
theorem map_done (f : ι → κ) (g : α → β) (a : α) : (done a).map f g = done (g a) := rfl

@[simp]
theorem map_cons (f : ι → κ) (g : α → β) (x : ι) (t : Course ι α) :
    (cons x t).map f g = cons (f x) (t.map f g) := by
  apply ext
  intro k
  cases k <;> rfl

theorem map_ofList (f : ι → κ) (g : α → β) (xs : List ι) (a : α) :
    (ofList xs a).map f g = ofList (xs.map f) (g a) := by
  induction xs with
  | nil => rfl
  | cons x xs ih => simp [ih]

theorem map_map {κ' β' : Type} (f : ι → κ) (g : α → β) (f' : κ → κ') (g' : β → β') (t : Course ι α) :
    (t.map f g).map f' g' = t.map (f' ∘ f) (g' ∘ g) :=
  ext fun k => Sum.map_map f' g' f g (t.event k)

theorem event_of_event_zero {t : Course ι α} {a : α} (h : t.event 0 = .inr a) (k : Nat) :
    t.event k = .inr a := by
  induction k with
  | zero => exact h
  | succ k ih => exact t.lasting k a ih

theorem eq_done {t : Course ι α} {a : α} (h : t.event 0 = .inr a) : t = done a :=
  ext (event_of_event_zero h)

theorem eq_cons {t : Course ι α} {x : ι} (h : t.event 0 = .inl x) : t = cons x t.tail := by
  apply ext
  intro k
  cases k with
  | zero => exact h
  | succ k => rfl

theorem done_or_cons (t : Course ι α) : (∃ a, t = done a) ∨ ∃ x u, t = cons x u := by
  cases h : t.event 0 with
  | inr a => exact .inl ⟨a, eq_done h⟩
  | inl x => exact .inr ⟨x, t.tail, eq_cons h⟩

def unfoldEvent (step : σ → (ι × σ) ⊕ α) : Nat → σ → ι ⊕ α
  | 0, s => (step s).map Prod.fst id
  | k + 1, s =>
    match step s with
    | .inl (_, s') => unfoldEvent step k s'
    | .inr a => .inr a

def unfold (step : σ → (ι × σ) ⊕ α) (s : σ) : Course ι α where
  event k := unfoldEvent step k s
  lasting k a h := by
    induction k generalizing s with
    | zero =>
        cases hs : step s with
        | inl p => simp [unfoldEvent, hs] at h
        | inr b => simpa [unfoldEvent, hs] using h
    | succ k ih =>
        rw [unfoldEvent] at h ⊢
        cases hs : step s with
        | inl p => rw [hs] at h; exact ih p.2 h
        | inr b => rw [hs] at h; exact h

theorem unfold_of_inl {step : σ → (ι × σ) ⊕ α} {s s' : σ} {x : ι} (h : step s = .inl (x, s')) :
    unfold step s = cons x (unfold step s') := by
  apply ext
  intro k
  cases k <;> simp [unfold, unfoldEvent, h]

theorem unfold_of_inr {step : σ → (ι × σ) ⊕ α} {s : σ} {a : α} (h : step s = .inr a) :
    unfold step s = done a := by
  apply ext
  intro k
  cases k <;> simp [unfold, unfoldEvent, h]

/-- The course after the answer to its first yield: it goes on, or ends with the failure. -/
def respond (fail : Error → α) (t : Course ι α) : Except Error Unit → Course ι α
  | .ok _ => t.tail
  | .error err => done (fail err)

def after (fail : Error → α) : Course ι α → List (ι × Except Error Unit) → Course ι α
  | t, [] => t
  | t, (_, answer) :: calls => (t.respond fail answer).after fail calls

/-- Each call is the yield that the course has at that point. -/
def Admits (fail : Error → α) : Course ι α → List (ι × Except Error Unit) → Prop
  | _, [] => True
  | t, (x, answer) :: calls => t.event 0 = .inl x ∧ (t.respond fail answer).Admits fail calls

theorem drop_zero (t : Course ι α) : t.drop 0 = t :=
  ext fun k => congrArg t.event (Nat.zero_add k)

theorem tail_drop (t : Course ι α) (n : Nat) : (t.drop n).tail = t.drop (n + 1) :=
  ext fun k => congrArg t.event (by omega)

theorem drop_tail (t : Course ι α) (n : Nat) : t.tail.drop n = t.drop (n + 1) :=
  ext fun k => congrArg t.event (by omega)

theorem Admits.event_of_succeed {fail : Error → α} {t : Course ι α}
    {calls : List (ι × Except Error Unit)} (h : t.Admits fail calls)
    (hok : ∀ c ∈ calls, c.2 = .ok ()) (i : Nat) (hi : i < calls.length) :
    t.event i = .inl calls[i].1 := by
  induction calls generalizing t i with
  | nil => exact absurd hi (Nat.not_lt_zero i)
  | cons c calls ih =>
      obtain ⟨hx, hrest⟩ := h
      have hc : c.2 = .ok () := hok c List.mem_cons_self
      rw [hc, respond] at hrest
      cases i with
      | zero => exact hx
      | succ i =>
          exact ih hrest (fun d hd => hok d (List.mem_cons_of_mem c hd)) i (Nat.lt_of_succ_lt_succ hi)

theorem Admits.eq_ofList {fail : Error → α} {t : Course ι α} {calls : List (ι × Except Error Unit)}
    {a : α} (h : t.Admits fail calls) (hok : ∀ c ∈ calls, c.2 = .ok ())
    (hend : (t.after fail calls).event 0 = .inr a) : t = ofList (calls.map Prod.fst) a := by
  induction calls generalizing t with
  | nil => exact eq_done hend
  | cons c calls ih =>
      obtain ⟨hx, hrest⟩ := h
      have hc : c.2 = .ok () := hok c List.mem_cons_self
      rw [after, hc, respond] at hend
      rw [hc, respond] at hrest
      rw [List.map_cons, ofList_cons, ← ih hrest (fun d hd => hok d (List.mem_cons_of_mem c hd)) hend]
      exact eq_cons hx

end Course

namespace Routine

variable {ι κ α β σ : Type}

/-- In every session with the built-in methods, a routine comes to all that another comes to from the
same session. -/
def LeadsTo (c d : Routine ι α) : Prop :=
  ∀ w : Session, w.methods = .builtin → ∀ p w', d.Reaches w.unlogged p w' → c.Reaches w.unlogged p w'

theorem LeadsTo.refl (c : Routine ι α) : c.LeadsTo c := fun _ _ _ _ h => h

theorem LeadsTo.trans {c d e : Routine ι α} (h : c.LeadsTo d) (h' : d.LeadsTo e) : c.LeadsTo e :=
  fun w hw p w' he => h w hw p w' (h' w hw p w' he)

theorem leadsTo_of_hop {c d : Routine ι α}
    (h : ∀ w : Session, w.methods = .builtin → c.hop w.unlogged = some (d, w.unlogged)) :
    c.LeadsTo d :=
  fun w hw _ _ hd => (reaches_of_hop (h w hw)).2 hd

theorem note_leadsTo (n : Notice) (c : Routine ι α) : (note n c).LeadsTo c :=
  leadsTo_of_hop fun _ _ => rfl

theorem loop_leadsTo (s : σ) (body : σ → Routine ι (σ ⊕ β)) (k : β → Routine ι α) :
    (loop s body k).LeadsTo ((body s).bind fun
      | .inl s => loop s body k
      | .inr b => k b) :=
  leadsTo_of_hop fun _ _ => rfl

theorem respondsTo_leadsTo (receiver : Value) (method : String) (k : Bool → Routine ι α) :
    (respondsTo receiver method k).LeadsTo
      (k (MethodTable.builtin.lookup receiver.classOf method).isSome) :=
  leadsTo_of_hop fun w hw => by
    rw [← hw, ← Session.unlogged_methods]
    rfl

theorem send_leadsTo {receiver : Value} {method : String} {m : Method} (args : List Value)
    (hm : MethodTable.builtin.lookup receiver.classOf method = some m) :
    (send receiver method args pure : Routine ι _).LeadsTo (m.plain receiver args).run.lift :=
  leadsTo_of_hop fun w hw => by
    rw [hop_send, Session.find, Session.unlogged_methods, hw, hm]
    simp only [bind_pure, Session.unlogged_note]

theorem send_leadsTo_none {receiver : Value} {method : String} (args : List Value)
    (hm : MethodTable.builtin.lookup receiver.classOf method = none) :
    (send receiver method args pure : Routine ι _).LeadsTo
      (pure (.error (.noMethod method receiver.className))) :=
  leadsTo_of_hop fun w hw => by rw [hop_send, Session.find, Session.unlogged_methods, hw, hm]

theorem invoke_leadsTo {receiver : Value} {method : String} {m : Method} (args : List Value)
    (hm : MethodTable.builtin.lookup receiver.classOf method = some m) :
    (invoke receiver method args pure).LeadsTo (m.withBlock receiver args).run :=
  leadsTo_of_hop fun w hw => by
    rw [hop_invoke, Session.find, Session.unlogged_methods, hw, hm]
    simp only [bind_pure, Session.unlogged_note]

theorem invoke_leadsTo_none {receiver : Value} {method : String} (args : List Value)
    (hm : MethodTable.builtin.lookup receiver.classOf method = none) :
    (invoke receiver method args pure).LeadsTo
      (pure (.error (.noMethod method receiver.className))) :=
  leadsTo_of_hop fun w hw => by rw [hop_invoke, Session.find, Session.unlogged_methods, hw, hm]

theorem LeadsTo.bind {c d : Routine ι α} (h : c.LeadsTo d) (f : α → Routine ι β) :
    (c.bind f).LeadsTo (d.bind f) := by
  intro w hw p w' hd
  obtain ⟨q, v, hq, hf⟩ := reaches_bind.1 hd
  exact reaches_bind.2 ⟨q, v, h w hw q v hq, hf⟩

theorem LeadsTo.drive {c d : Routine κ β} (h : c.LeadsTo d) (s : σ)
    (block : σ → κ → Routine ι (σ × Except Error Unit)) (k : σ → β → Routine ι α) :
    (drive c s block k).LeadsTo (drive d s block k) := by
  intro w hw p w' hd
  obtain ⟨b, v, hb, hk⟩ | ⟨x, rest, v, hx, hk⟩ := reaches_drive.1 hd
  · exact reaches_drive.2 (.inl ⟨b, v, h w hw _ v hb, hk⟩)
  · exact reaches_drive.2 (.inr ⟨x, rest, v, h w hw _ v hx, hk⟩)

theorem drive_pure_leadsTo (b : β) (s : σ) (block : σ → κ → Routine ι (σ × Except Error Unit))
    (k : σ → β → Routine ι α) : (drive (pure b) s block k).LeadsTo (k s b) :=
  fun w _ _ _ h => reaches_drive.2 (.inl ⟨b, w.unlogged, reaches_pure.2 ⟨rfl, rfl⟩, h⟩)

theorem drive_yield_leadsTo (x : κ) (rest : Except Error Unit → Routine κ β) (s : σ)
    (block : σ → κ → Routine ι (σ × Except Error Unit)) (k : σ → β → Routine ι α) :
    (drive (yield x rest) s block k).LeadsTo
      ((block s x).bind fun (s, answer) => drive (rest answer) s block k) :=
  fun w _ _ _ h => reaches_drive.2 (.inr ⟨x, rest, w.unlogged, reaches_yield.2 ⟨rfl, rfl⟩, h⟩)

theorem LeadsTo.lift {c : Routine Empty α} {a : α} (h : c.LeadsTo (pure a)) :
    (c.lift : Routine ι α).LeadsTo (pure a) :=
  (h.drive () _ _).trans (drive_pure_leadsTo a () _ _)

theorem LeadsTo.reaches {c d : Routine ι α} (h : c.LeadsTo d) {w v : Session} {p : Progress ι α}
    (hw : w.methods = .builtin) (hd : d.Reaches w.unlogged p v) :
    ∃ w', c.Reaches w p w' ∧ w'.unlogged = v :=
  (h w hw p v hd).of_unlogged

theorem LeadsTo.yield_unique {c : Routine ι α} {x y : ι} {k l : Except Error Unit → Routine ι α}
    (h : c.LeadsTo (yield x k)) (h' : c.LeadsTo (yield y l)) : x = y ∧ k = l := by
  have hk := h .start rfl _ _ (reaches_yield.2 ⟨rfl, rfl⟩)
  have hl := h' .start rfl _ _ (reaches_yield.2 ⟨rfl, rfl⟩)
  simpa using (hk.unique hl).1

variable {fail : Error → α}

def FollowsFor (fail : Error → α) : Nat → Routine ι α → Course ι α → Prop
  | 0, _, _ => True
  | d + 1, c, t =>
    match t.event 0 with
    | .inl x => ∃ k, c.LeadsTo (yield x k) ∧ FollowsFor fail d (k (.ok ())) t.tail ∧
        ∀ err, FollowsFor fail d (k (.error err)) (.done (fail err))
    | .inr a => c.LeadsTo (pure a)

/-- The routine yields and ends as its course says if all its yields are answered with success, and
ends with the failure at the first that is answered with an error. -/
def Follows (fail : Error → α) (c : Routine ι α) (t : Course ι α) : Prop := ∀ d, FollowsFor fail d c t

theorem followsFor_cons {d : Nat} {c : Routine ι α} {x : ι} {t : Course ι α} :
    FollowsFor fail (d + 1) c (.cons x t) ↔ ∃ k, c.LeadsTo (yield x k) ∧
      FollowsFor fail d (k (.ok ())) t ∧
      ∀ err, FollowsFor fail d (k (.error err)) (.done (fail err)) :=
  Iff.rfl

theorem followsFor_done {d : Nat} {c : Routine ι α} {a : α} :
    FollowsFor fail (d + 1) c (.done a) ↔ c.LeadsTo (pure a) :=
  Iff.rfl

theorem FollowsFor.of_leadsTo {n : Nat} {c d : Routine ι α} {t : Course ι α} (h : c.LeadsTo d)
    (hd : FollowsFor fail n d t) : FollowsFor fail n c t := by
  cases n with
  | zero => trivial
  | succ n =>
      obtain ⟨a, rfl⟩ | ⟨x, u, rfl⟩ := t.done_or_cons
      · exact h.trans hd
      · obtain ⟨k, hk, hok, herr⟩ := followsFor_cons.1 hd
        exact ⟨k, h.trans hk, hok, herr⟩

theorem Follows.of_leadsTo {c d : Routine ι α} {t : Course ι α} (h : c.LeadsTo d)
    (hd : Follows fail d t) : Follows fail c t :=
  fun n => (hd n).of_leadsTo h

theorem follows_done {c : Routine ι α} {a : α} : Follows fail c (.done a) ↔ c.LeadsTo (pure a) := by
  constructor
  · intro h
    exact h 1
  · intro h n
    cases n with
    | zero => trivial
    | succ n => exact h

theorem follows_cons {c : Routine ι α} {x : ι} {t : Course ι α} :
    Follows fail c (.cons x t) ↔ ∃ k, c.LeadsTo (yield x k) ∧ Follows fail (k (.ok ())) t ∧
      ∀ err, (k (.error err)).LeadsTo (pure (fail err)) := by
  constructor
  · intro h
    obtain ⟨k, hk, -⟩ := followsFor_cons.1 (h 1)
    refine ⟨k, hk, fun n => ?_, fun err => ?_⟩
    · obtain ⟨l, hl, hok, -⟩ := followsFor_cons.1 (h (n + 1))
      rwa [(hk.yield_unique hl).2]
    · obtain ⟨l, hl, -, herr⟩ := followsFor_cons.1 (h 2)
      rw [(hk.yield_unique hl).2]
      exact herr err
  · rintro ⟨k, hk, hok, herr⟩ n
    cases n with
    | zero => trivial
    | succ n => exact ⟨k, hk, hok n, fun err => follows_done.2 (herr err) n⟩

theorem follows_pure (a : α) : Follows fail (pure a : Routine ι α) (.done a) :=
  follows_done.2 (.refl _)

theorem Follows.map_result {fail' : Error → β} {g : α → β} (hg : ∀ err, g (fail err) = fail' err)
    {c : Routine ι α} {t : Course ι α} (h : Follows fail c t) :
    Follows fail' (c.bind fun a => pure (g a)) (t.map id g) := by
  intro n
  induction n generalizing c t with
  | zero => trivial
  | succ n ih =>
      obtain ⟨a, rfl⟩ | ⟨x, u, rfl⟩ := t.done_or_cons
      · rw [Course.map_done, followsFor_done]
        exact (follows_done.1 h).bind _
      · obtain ⟨k, hk, hok, herr⟩ := follows_cons.1 h
        rw [Course.map_cons]
        refine ⟨_, hk.bind _, ih hok, fun err => ?_⟩
        have he := ih (follows_done.2 (herr err))
        rwa [Course.map_done, hg] at he

theorem Follows.forEach {c : Attempt κ α} {t : Course κ (Except Error α)} (notice : κ → Notice)
    (f : κ → ι) (h : Follows .error c.run t) :
    Follows .error (c.forEach fun x => do
      Attempt.note (notice x)
      Attempt.yield (f x) : Attempt ι α).run (t.map f id) := by
  intro n
  induction n generalizing c t with
  | zero => trivial
  | succ n ih =>
      obtain ⟨a, rfl⟩ | ⟨x, u, rfl⟩ := t.done_or_cons
      · exact ((follows_done.1 h).drive () _ _).trans (drive_pure_leadsTo a () _ _)
      · obtain ⟨k, hk, hok, herr⟩ := follows_cons.1 h
        rw [Course.map_cons]
        refine ⟨_, (hk.drive () _ _).trans ((drive_yield_leadsTo x k () _ _).trans (note_leadsTo _ _)),
          ih (c := k (.ok ())) hok, fun err => ?_⟩
        exact ih (c := k (.error err)) (follows_done.2 (herr err))

theorem Follows.respond {c : Routine ι α} {x : ι} {t : Course ι α}
    {k : Except Error Unit → Routine ι α} (h : Follows fail c (.cons x t))
    (hk : c.LeadsTo (yield x k)) (answer : Except Error Unit) :
    Follows fail (k answer) ((Course.cons x t).respond fail answer) := by
  obtain ⟨l, hl, hok, herr⟩ := follows_cons.1 h
  rw [(hk.yield_unique hl).2]
  cases answer with
  | ok => exact hok
  | error err => exact follows_done.2 (herr err)

theorem Follows.reaches {c : Routine ι α} {t : Course ι α} (h : Follows fail c t) {w : Session}
    (hw : w.methods = .builtin) :
    ∃ p w', c.Reaches w p w' ∧ w'.unlogged = w.unlogged ∧ match p with
      | .done a => t.event 0 = .inr a
      | .yielded x k =>
          t.event 0 = .inl x ∧ ∀ answer, Follows fail (k answer) (t.respond fail answer) := by
  obtain ⟨a, rfl⟩ | ⟨x, u, rfl⟩ := t.done_or_cons
  · obtain ⟨w', hr, hu⟩ := (follows_done.1 h).reaches hw (reaches_pure.2 ⟨rfl, rfl⟩)
    exact ⟨.done a, w', hr, hu, rfl⟩
  · obtain ⟨k, hk, -⟩ := follows_cons.1 h
    obtain ⟨w', hr, hu⟩ := hk.reaches hw (reaches_yield.2 ⟨rfl, rfl⟩)
    exact ⟨.yielded x k, w', hr, hu, rfl, h.respond hk⟩

theorem Follows.of_reaches_done {c : Routine ι α} {t : Course ι α} (h : Follows fail c t)
    {w w' : Session} {a : α} (hw : w.methods = .builtin) (hc : c.Reaches w (.done a) w') :
    w'.unlogged = w.unlogged ∧ t.event 0 = .inr a := by
  obtain ⟨p, v, hp, hv, ht⟩ := h.reaches hw
  obtain ⟨rfl, rfl⟩ := hp.unique hc
  exact ⟨hv, ht⟩

theorem Follows.of_reaches_yielded {c : Routine ι α} {t : Course ι α} (h : Follows fail c t)
    {w w' : Session} {x : ι} {k : Except Error Unit → Routine ι α} (hw : w.methods = .builtin)
    (hc : c.Reaches w (.yielded x k) w') :
    w'.unlogged = w.unlogged ∧ t.event 0 = .inl x ∧
      ∀ answer, Follows fail (k answer) (t.respond fail answer) := by
  obtain ⟨p, v, hp, hv, ht⟩ := h.reaches hw
  obtain ⟨rfl, rfl⟩ := hp.unique hc
  exact ⟨hv, ht⟩

def Keeps (P : Session → Prop) (block : σ → κ → Routine ι (σ × Except Error Unit)) : Prop :=
  ∀ s x w r w', P w → (block s x).Reaches w (.done r) w' → P w'

/-- A source that follows a course makes the calls that the course admits, and goes on as the course
does after them. What the block keeps is kept. -/
theorem Follows.of_calls {fail : Error → β} {block : σ → κ → Routine ι (σ × Except Error Unit)}
    {c d : Routine κ β} {s s' : σ} {w w' : Session} {calls : List (κ × Except Error Unit)}
    {t : Course κ β} (h : Follows fail c t) {P : Session → Prop}
    (hP : ∀ w, P w → w.methods = .builtin) (hlog : ∀ w v, v.unlogged = w.unlogged → P w → P v)
    (hblock : Keeps P block) (hw : P w) (hcalls : Calls block c s w calls d s' w') :
    P w' ∧ t.Admits fail calls ∧ Follows fail d (t.after fail calls) := by
  induction hcalls generalizing t with
  | none => exact ⟨hw, trivial, h⟩
  | call hyield hanswer _ ih =>
      obtain ⟨hv, hx, hk⟩ := h.of_reaches_yielded (hP _ hw) hyield
      have hw₂ := hblock _ _ _ _ _ (hlog _ _ hv hw) hanswer
      obtain ⟨hw', ha, hd⟩ := ih (hk _) hw₂
      exact ⟨hw', ⟨hx, ha⟩, hd⟩

end Routine

end Stepwise
