import Stepwise.Routine

namespace Stepwise

/-- What a method does when called with a block, and when called without one. -/
structure Method where
  withBlock : Value → List Value → Producer
  plain : Value → List Value → Attempt Empty Value

def Method.blockless (body : Value → List Value → Attempt Empty Value) : Method where
  withBlock receiver args := (body receiver args).lift
  plain := body

universe u

/-- A finite map by its entries, in the order in which the keys came. -/
structure Dictionary (κ : Type) (α : Type u) where
  entries : List (κ × α) := []

namespace Dictionary

variable {κ : Type} {α : Type u} [DecidableEq κ]

def get? (d : Dictionary κ α) (k : κ) : Option α := d.entries.lookup k

def insertInto (k : κ) (a : α) : List (κ × α) → List (κ × α)
  | [] => [(k, a)]
  | (l, b) :: entries => if k = l then (k, a) :: entries else (l, b) :: insertInto k a entries

def insert (d : Dictionary κ α) (k : κ) (a : α) : Dictionary κ α := ⟨insertInto k a d.entries⟩

theorem lookup_cons_eq_ite (k l : κ) (a : α) (entries : List (κ × α)) :
    List.lookup l ((k, a) :: entries) = if l = k then some a else entries.lookup l := by
  by_cases h : l = k
  · rw [List.lookup_cons, beq_iff_eq.2 h, if_pos h]
  · rw [List.lookup_cons, beq_eq_false_iff_ne.2 h, if_neg h]

theorem lookup_insertInto (k l : κ) (a : α) (entries : List (κ × α)) :
    (insertInto k a entries).lookup l = if l = k then some a else entries.lookup l := by
  induction entries with
  | nil => exact lookup_cons_eq_ite k l a []
  | cons entry entries ih =>
      obtain ⟨k', b⟩ := entry
      rw [insertInto]
      by_cases hk : k = k'
      · subst hk
        rw [if_pos rfl, lookup_cons_eq_ite, lookup_cons_eq_ite]
        split <;> rfl
      · rw [if_neg hk, lookup_cons_eq_ite, lookup_cons_eq_ite, ih]
        by_cases h : l = k'
        · rw [if_pos h, if_pos h, if_neg fun hl => hk (hl.symm.trans h)]
        · rw [if_neg h, if_neg h]

theorem get?_insert (d : Dictionary κ α) (k l : κ) (a : α) :
    (d.insert k a).get? l = if l = k then some a else d.get? l :=
  lookup_insertInto k l a d.entries

end Dictionary

abbrev ClassMethods := Dictionary String Method

structure MethodTable where
  classes : Dictionary Class ClassMethods := {}

namespace MethodTable

def define (t : MethodTable) (c : Class) (name : String) (m : Method) : MethodTable :=
  ⟨t.classes.insert c (((t.classes.get? c).getD {}).insert name m)⟩

def lookup (t : MethodTable) (c : Class) (name : String) : Option Method :=
  (t.classes.get? c).bind fun methods => methods.get? name

theorem lookup_define (t : MethodTable) (c d : Class) (name other : String) (m : Method) :
    (t.define c name m).lookup d other = if d = c ∧ other = name then some m else t.lookup d other := by
  rw [lookup, define, Dictionary.get?_insert]
  by_cases hd : d = c
  · subst hd
    rw [if_pos rfl, Option.bind_some, Dictionary.get?_insert]
    by_cases hname : other = name
    · simp [hname]
    · rw [if_neg hname, if_neg fun h => hname h.2, lookup]
      cases t.classes.get? d <;> rfl
  · rw [if_neg hd, if_neg fun h => hd h.1, lookup]

def defineAll (t : MethodTable) (ms : List (Class × String × Method)) : MethodTable :=
  ms.foldl (fun t (c, name, m) => t.define c name m) t

def form (t : MethodTable) : String :=
  let classes := t.classes.entries.map fun (c, methods) =>
    c.name ++ ": \x7b" ++ ", ".intercalate (methods.entries.map fun (name, _) => Quoted.text name) ++ "\x7d"
  "MethodTable \x7b classes: \x7b" ++ ", ".intercalate classes ++ "\x7d \x7d"

end MethodTable

def Attempt.define {ι : Type} (c : Class) (name : String) (m : Method) : Attempt ι Unit :=
  ExceptT.mk (.define c name (fun r as => (m.withBlock r as).run) (fun r as => (m.plain r as).run)
    (.pure (.ok ())))

end Stepwise
