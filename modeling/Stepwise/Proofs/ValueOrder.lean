import Mathlib.Algebra.Order.Ring.Int
import Mathlib.Data.Option.NAry
import Stepwise.Proofs.RangeFailures

namespace Stepwise

inductive Rank
  | number (units : Int)
  | text (s : String)
  | nothing

namespace Rank

variable {x y z : Rank} {o o' : Ordering}

def compare : Rank → Rank → Option Ordering
  | number a, number b => some (Ord.compare a b)
  | text s, text t => some (Ord.compare s t)
  | nothing, nothing => some .eq
  | _, _ => none

theorem compare_swap (x y : Rank) : y.compare x = (x.compare y).map Ordering.swap := by
  cases x with
  | number a =>
      cases y with
      | number b => exact congrArg some Std.OrientedOrd.eq_swap
      | _ => rfl
  | text s =>
      cases y with
      | text t => exact congrArg some Std.OrientedOrd.eq_swap
      | _ => rfl
  | nothing => cases y <;> rfl

theorem compare_eq_iff : x.compare y = some .eq ↔ x = y := by
  cases x <;> cases y <;> simp [compare]

theorem ordering_trans {α : Type} [Ord α] [Std.TransOrd α] {a b c : α} (h : Ord.compare a b ≠ .gt)
    (h' : Ord.compare b c ≠ .gt) :
    Ord.compare a c = if Ord.compare a b = .eq ∧ Ord.compare b c = .eq then .eq else .lt := by
  cases hab : Ord.compare a b with
  | gt => exact absurd hab h
  | lt =>
      cases hbc : Ord.compare b c with
      | gt => exact absurd hbc h'
      | lt => exact Std.TransCmp.lt_trans hab hbc
      | eq => exact Std.TransCmp.lt_of_lt_of_eq hab hbc
  | eq =>
      cases hbc : Ord.compare b c with
      | gt => exact absurd hbc h'
      | lt => exact Std.TransCmp.lt_of_eq_of_lt hab hbc
      | eq => exact Std.TransCmp.eq_trans hab hbc

theorem compare_trans (h : x.compare y = some o) (h' : y.compare z = some o') (ho : o ≠ .gt)
    (ho' : o' ≠ .gt) : x.compare z = some (if o = .eq ∧ o' = .eq then .eq else .lt) := by
  cases x with
  | number a =>
      cases y with
      | number b =>
          cases z with
          | number c =>
              obtain rfl := Option.some.inj h
              obtain rfl := Option.some.inj h'
              exact congrArg some (ordering_trans ho ho')
          | _ => cases h'
      | _ => cases h
  | text s =>
      cases y with
      | text t =>
          cases z with
          | text u =>
              obtain rfl := Option.some.inj h
              obtain rfl := Option.some.inj h'
              exact congrArg some (ordering_trans ho ho')
          | _ => cases h'
      | _ => cases h
  | nothing =>
      cases y with
      | nothing =>
          cases z with
          | nothing =>
              obtain rfl := Option.some.inj h
              obtain rfl := Option.some.inj h'
              rfl
          | _ => cases h'
      | _ => cases h

end Rank

namespace Value

variable {a b c : Value}

/-- There is none for what is no number, and for values that have no order at all. -/
def rank : Value → Option Rank
  | int n => some (.number (n.toInt * Binary64.unitsPerOne))
  | float x => if x.isNaN then none else some (.number x.units)
  | str s => some (.text s)
  | nil => some .nothing
  | _ => none

theorem compare_mul_unitsPerOne (m n : Int) :
    Ord.compare (m * Binary64.unitsPerOne) (n * Binary64.unitsPerOne) = Ord.compare m n := by
  have hpos : (0 : Int) < Binary64.unitsPerOne := Int.natCast_pos.2 Binary64.unitsPerOne_pos
  rw [← cmp_eq_compare, ← cmp_eq_compare, cmp_mul_pos_right hpos]

theorem compare_eq_bind_rank (a b : Value) :
    compare a b = a.rank.bind fun x => b.rank.bind fun y => x.compare y := by
  cases a with
  | int n =>
      cases b with
      | int m => exact congrArg some (compare_mul_unitsPerOne n.toInt m.toInt).symm
      | float y =>
          rw [compare, Binary64.compareInt_eq, rank, rank]
          cases y.isNaN <;> rfl
      | _ => rfl
  | float x =>
      cases b with
      | int m =>
          rw [compare, Binary64.compareInt_eq, rank, rank]
          cases x.isNaN with
          | true => rfl
          | false => exact congrArg some Std.OrientedOrd.eq_swap.symm
      | float y =>
          rw [compare, Binary64.compare, rank, rank]
          cases x.isNaN <;> cases y.isNaN <;> rfl
      | _ =>
          rw [rank]
          cases x.isNaN <;> rfl
  | str s | nil =>
      cases b with
      | float y =>
          rw [rank, rank]
          cases y.isNaN <;> rfl
      | _ => rfl
  | _ => rfl

theorem compare_swap (a b : Value) : compare b a = (compare a b).map Ordering.swap := by
  rw [compare_eq_bind_rank, compare_eq_bind_rank a]
  cases a.rank with
  | none => cases b.rank <;> rfl
  | some x =>
      cases b.rank with
      | none => rfl
      | some y => exact x.compare_swap y

theorem compare_eq_some_iff {o : Ordering} : compare a b = some o ↔
    ∃ x y, a.rank = some x ∧ b.rank = some y ∧ x.compare y = some o := by
  rw [compare_eq_bind_rank]
  simp [Option.bind_eq_some_iff]

theorem compare_trans {o o' : Ordering} (h : compare a b = some o) (h' : compare b c = some o') (ho : o ≠ .gt)
    (ho' : o' ≠ .gt) : compare a c = some (if o = .eq ∧ o' = .eq then .eq else .lt) := by
  obtain ⟨x, y, hx, hy, hxy⟩ := compare_eq_some_iff.1 h
  obtain ⟨y', z, hy', hz, hyz⟩ := compare_eq_some_iff.1 h'
  obtain rfl : y = y' := Option.some.inj (hy.symm.trans hy')
  exact compare_eq_some_iff.2 ⟨x, z, hx, hz, Rank.compare_trans hxy hyz ho ho'⟩

end Value

/-- What the equality of a value goes by: a tree of ranks, in which enumerators are leaves. -/
inductive Key
  | bool (b : Bool)
  | rank (x : Rank)
  | array (items : List Key)
  | range (first last : Key) (excludeEnd : Bool)
  | enumerator (id : Nat)

def Key.rank? : Key → Option Rank
  | rank x => some x
  | _ => none

namespace Value

variable {a b c : Value}

section Parts

/-- The first value is the second one or a part of it, where the parts of an enumerator do not count. -/
inductive OccursIn (v : Value) : Value → Prop
  | self : OccursIn v v
  | item {items : List Value} {u : Value} (hu : u ∈ items) (h : OccursIn v u) : OccursIn v (.array items)
  | first {f l : Value} {excludeEnd : Bool} (h : OccursIn v f) : OccursIn v (.range f l excludeEnd)
  | last {f l : Value} {excludeEnd : Bool} (h : OccursIn v l) : OccursIn v (.range f l excludeEnd)

variable {P : Value → Prop}

mutual

/-- Induction over the parts of a value, down to those without parts that count. -/
theorem forall_of_parts (harray : ∀ items, (∀ v ∈ items, P v) → P (.array items))
    (hrange : ∀ f l excludeEnd, P f → P l → P (.range f l excludeEnd))
    (hleaf : ∀ v, (∀ items, v ≠ .array items) → (∀ f l excludeEnd, v ≠ .range f l excludeEnd) → P v) :
    (v : Value) → P v
  | .array items => harray items (forall_mem_of_parts harray hrange hleaf items)
  | .range f l excludeEnd =>
      hrange f l excludeEnd (forall_of_parts harray hrange hleaf f) (forall_of_parts harray hrange hleaf l)
  | .nil | .bool _ | .int _ | .float _ | .str _ | .enumerator _ _ _ _ => hleaf _ (by simp) (by simp)

theorem forall_mem_of_parts (harray : ∀ items, (∀ v ∈ items, P v) → P (.array items))
    (hrange : ∀ f l excludeEnd, P f → P l → P (.range f l excludeEnd))
    (hleaf : ∀ v, (∀ items, v ≠ .array items) → (∀ f l excludeEnd, v ≠ .range f l excludeEnd) → P v) :
    (items : List Value) → ∀ v ∈ items, P v
  | [] => by simp
  | v :: vs => List.forall_mem_cons.2
      ⟨forall_of_parts harray hrange hleaf v, forall_mem_of_parts harray hrange hleaf vs⟩

end

end Parts

mutual

/-- There is none if some part is no number. -/
def key : Value → Option Key
  | bool b => some (.bool b)
  | array items => (keys items).map .array
  | range first last excludeEnd => Option.map₂ (Key.range · · excludeEnd) (key first) (key last)
  | enumerator id _ _ _ => some (.enumerator id)
  | v => v.rank.map .rank

def keys : List Value → Option (List Key)
  | [] => some []
  | v :: vs => Option.map₂ List.cons (key v) (keys vs)

end

section Keys

theorem rank_eq_bind_key (v : Value) : v.rank = v.key.bind Key.rank? := by
  cases v with
  | array items =>
      rw [key]
      cases keys items <;> rfl
  | range first last excludeEnd =>
      rw [key]
      cases key first <;> cases key last <;> rfl
  | float x =>
      change rank (float x) = ((rank (float x)).map Key.rank).bind Key.rank?
      cases rank (float x) <;> rfl
  | _ => rfl

theorem key_eq_rank_iff {x : Rank} : key a = some (.rank x) ↔ a.rank = some x := by
  rw [rank_eq_bind_key]
  cases key a with
  | none => simp
  | some k => cases k <;> simp [Key.rank?]

theorem keys_eq_none_iff {items : List Value} : keys items = none ↔ ∃ v ∈ items, key v = none := by
  induction items with
  | nil => simp [keys]
  | cons v vs ih => rw [keys, Option.map₂_eq_none_iff, ih, List.exists_mem_cons_iff]

theorem exists_map₂_eq_iff {α β γ : Type} {f : α → β → γ} (hf : Function.Injective2 f) {x x' : Option α}
    {y y' : Option β} : (∃ m, Option.map₂ f x y = some m ∧ Option.map₂ f x' y' = some m) ↔
      (∃ k, x = some k ∧ x' = some k) ∧ ∃ l, y = some l ∧ y' = some l := by
  constructor
  · rintro ⟨m, hm, hm'⟩
    obtain ⟨k, l, hk, hl, rfl⟩ := Option.map₂_eq_some_iff.1 hm
    obtain ⟨k', l', hk', hl', he⟩ := Option.map₂_eq_some_iff.1 hm'
    obtain ⟨rfl, rfl⟩ := hf he
    exact ⟨⟨k', hk, hk'⟩, l', hl, hl'⟩
  · rintro ⟨⟨k, rfl, rfl⟩, l, rfl, rfl⟩
    exact ⟨f k l, rfl, rfl⟩

theorem equalAll_iff_keys {as : List Value}
    (h : ∀ a ∈ as, ∀ b, equal a b = true ↔ ∃ k, key a = some k ∧ key b = some k) (bs : List Value) :
    equalAll as bs = true ↔ ∃ ks, keys as = some ks ∧ keys bs = some ks := by
  induction as generalizing bs with
  | nil => cases bs <;> simp [equalAll, keys, Option.map₂_eq_some_iff]
  | cons a as ih =>
      obtain ⟨ha, has⟩ := List.forall_mem_cons.1 h
      cases bs with
      | nil => simp [equalAll, keys, Option.map₂_eq_some_iff]
      | cons b bs =>
          have hinj : Function.Injective2 (List.cons (α := Key)) := fun _ _ _ _ he => List.cons.inj he
          rw [equalAll, Bool.and_eq_true, ha b, ih has bs, keys, keys, exists_map₂_eq_iff hinj]

theorem equal_iff_key_of_rank (hequal : equal a b = (compare a b == some .eq))
    (hkey : key a = a.rank.map .rank) : equal a b = true ↔ ∃ k, key a = some k ∧ key b = some k := by
  rw [hequal, beq_iff_eq, compare_eq_some_iff, hkey]
  constructor
  · rintro ⟨x, y, hx, hy, hxy⟩
    obtain rfl := Rank.compare_eq_iff.1 hxy
    exact ⟨.rank x, by rw [hx, Option.map_some], key_eq_rank_iff.2 hy⟩
  · rintro ⟨k, hk, hb⟩
    obtain ⟨x, hx, rfl⟩ := Option.map_eq_some_iff.1 hk
    exact ⟨x, x, hx, key_eq_rank_iff.1 hb, Rank.compare_eq_iff.2 rfl⟩

/-- Values are equal just if they have the same key. -/
theorem equal_iff_key (a b : Value) : equal a b = true ↔ ∃ k, key a = some k ∧ key b = some k := by
  revert b
  refine forall_of_parts (P := fun a => ∀ b, equal a b = true ↔ ∃ k, key a = some k ∧ key b = some k)
    (fun items ih b => ?_) (fun f l excludeEnd hf hl b => ?_) (fun a harray hrange b => ?_) a
  · cases b with
    | array others =>
        rw [equal, equalAll_iff_keys ih]
        simp [key]
    | _ => exact iff_of_false Bool.false_ne_true (by simp [key, Option.map₂_eq_some_iff])
  · cases b with
    | range f' l' excludeEnd' =>
        have hinj : Function.Injective2 (Key.range · · excludeEnd) := by
          rintro k k' m m' ⟨⟩
          exact ⟨rfl, rfl⟩
        rw [equal, Bool.and_eq_true, Bool.and_eq_true, hf, hl, beq_iff_eq, key, key]
        constructor
        · rintro ⟨hparts, rfl⟩
          exact (exists_map₂_eq_iff hinj).2 hparts
        · rintro ⟨k, hk, hk'⟩
          obtain ⟨_, _, _, _, rfl⟩ := Option.map₂_eq_some_iff.1 hk
          obtain ⟨_, _, _, _, he⟩ := Option.map₂_eq_some_iff.1 hk'
          obtain rfl := (Key.range.inj he).2.2
          exact ⟨(exists_map₂_eq_iff hinj).1 ⟨_, hk, hk'⟩, rfl⟩
    | _ => exact iff_of_false Bool.false_ne_true (by simp [key, Option.map₂_eq_some_iff])
  · cases a with
    | array items => exact absurd rfl (harray items)
    | range f l excludeEnd => exact absurd rfl (hrange f l excludeEnd)
    | bool x =>
        cases b with
        | bool y => simpa [equal, key] using eq_comm
        | _ => exact iff_of_false Bool.false_ne_true (by simp [key, Option.map₂_eq_some_iff])
    | enumerator id receiver method args =>
        cases b with
        | enumerator id' receiver' method' args' => simpa [equal, key] using eq_comm
        | _ => exact iff_of_false Bool.false_ne_true (by simp [key, Option.map₂_eq_some_iff])
    | _ => exact equal_iff_key_of_rank (by cases b <;> rfl) rfl

theorem key_eq_none_iff (a : Value) : key a = none ↔ ∃ x, OccursIn (.float x) a ∧ x.isNaN = true := by
  refine forall_of_parts (P := fun a => key a = none ↔ ∃ x, OccursIn (.float x) a ∧ x.isNaN = true)
    (fun items ih => ?_) (fun f l excludeEnd hf hl => ?_) (fun a harray hrange => ?_) a
  · rw [key, Option.map_eq_none_iff, keys_eq_none_iff]
    constructor
    · rintro ⟨v, hv, hnone⟩
      obtain ⟨x, hx, hnan⟩ := (ih v hv).1 hnone
      exact ⟨x, .item hv hx, hnan⟩
    · rintro ⟨x, hx, hnan⟩
      cases hx with
      | item hv hx => exact ⟨_, hv, (ih _ hv).2 ⟨x, hx, hnan⟩⟩
  · rw [key, Option.map₂_eq_none_iff, hf, hl]
    constructor
    · rintro (⟨x, hx, hnan⟩ | ⟨x, hx, hnan⟩)
      · exact ⟨x, .first hx, hnan⟩
      · exact ⟨x, .last hx, hnan⟩
    · rintro ⟨x, hx, hnan⟩
      cases hx with
      | first hx => exact .inl ⟨x, hx, hnan⟩
      | last hx => exact .inr ⟨x, hx, hnan⟩
  · cases a with
    | array items => exact absurd rfl (harray items)
    | range f l excludeEnd => exact absurd rfl (hrange f l excludeEnd)
    | float y =>
        have hkey : key (float y) = none ↔ y.isNaN = true := by
          change (if y.isNaN then none else some (Rank.number y.units)).map Key.rank = none ↔ _
          cases y.isNaN <;> simp
        rw [hkey]
        constructor
        · exact fun hnan => ⟨y, .self, hnan⟩
        · rintro ⟨x, hx, hnan⟩
          cases hx
          exact hnan
    | _ => exact iff_of_false (Option.some_ne_none _) (by rintro ⟨x, ⟨⟩, -⟩)

end Keys

theorem equal_of_compare (h : compare a b = some .eq) : a.equal b = true := by
  obtain ⟨x, y, hx, hy, hxy⟩ := compare_eq_some_iff.1 h
  obtain rfl := Rank.compare_eq_iff.1 hxy
  exact (equal_iff_key a b).2 ⟨.rank x, key_eq_rank_iff.2 hx, key_eq_rank_iff.2 hy⟩

theorem equal_comm (a b : Value) : a.equal b = b.equal a := by
  rw [Bool.eq_iff_iff, equal_iff_key, equal_iff_key]
  exact exists_congr fun k => and_comm

theorem equal_trans (h : a.equal b = true) (h' : b.equal c = true) : a.equal c = true := by
  obtain ⟨k, ha, hb⟩ := (equal_iff_key a b).1 h
  obtain ⟨k', hb', hc⟩ := (equal_iff_key b c).1 h'
  obtain rfl : k = k' := Option.some.inj (hb.symm.trans hb')
  exact (equal_iff_key a c).2 ⟨k, ha, hc⟩

theorem equal_self_iff (a : Value) :
    a.equal a = true ↔ ∀ x, OccursIn (.float x) a → x.isNaN = false := by
  have hkey : a.equal a = true ↔ ¬ key a = none := by
    rw [equal_iff_key]
    cases key a <;> simp
  rw [hkey, key_eq_none_iff]
  simp

theorem rank_eq_of_equal (h : a.equal b = true) : a.rank = b.rank := by
  obtain ⟨k, ha, hb⟩ := (equal_iff_key a b).1 h
  rw [rank_eq_bind_key, ha, rank_eq_bind_key, hb]

/-- The order and the equality of values of all kinds. The order of two values the other way round is the reverse.
It goes on over a third value. Values with the same place in the order are equal. The equality is symmetric and
transitive, and a value is equal to itself unless what is no number occurs in it. Equal values have the same
order with every value. -/
theorem order_lawful (a b c : Value) :
    compare b a = (compare a b).map Ordering.swap ∧
    (∀ o o', compare a b = some o → compare b c = some o' → o ≠ .gt → o' ≠ .gt →
      compare a c = some (if o = .eq ∧ o' = .eq then .eq else .lt)) ∧
    (compare a b = some .eq → a.equal b = true) ∧
    a.equal b = b.equal a ∧
    (a.equal b = true → b.equal c = true → a.equal c = true) ∧
    (a.equal a = true ↔ ∀ x, OccursIn (.float x) a → x.isNaN = false) ∧
    (a.equal b = true → compare a c = compare b c ∧ compare c a = compare c b) := by
  refine ⟨compare_swap a b, fun o o' h h' ho ho' => compare_trans h h' ho ho', equal_of_compare,
    equal_comm a b, equal_trans, equal_self_iff a, fun h => ?_⟩
  have hrank := rank_eq_of_equal h
  constructor
  · rw [compare_eq_bind_rank, hrank, ← compare_eq_bind_rank]
  · rw [compare_eq_bind_rank, hrank, ← compare_eq_bind_rank]

theorem order_lawful_mixed :
    let lower : Value := .int 9007199254740992
    let number : Value := .float ⟨0x4340000000000000⟩
    let upper : Value := .int 9007199254740993
    let nan : Value := .float ⟨0x7ff8000000000000⟩
    let endless : Value := .array [.range nan .nil false]
    let bound : Value := .array [.enumerator 0 nan "each" [nan]]
    (compare lower number = some .eq ∧ compare number upper = some .lt) ∧ compare lower upper = some .lt ∧
      (lower.equal number = true ∧ compare lower upper = compare number upper) ∧
      endless.equal endless = false ∧ bound.equal bound = true := by
  intro lower number upper nan endless bound
  have hlower : compare lower number = some .eq := by decide +kernel
  have hupper : compare number upper = some .lt := by decide +kernel
  obtain ⟨-, htrans, hequal, -, -, -, halike⟩ := order_lawful lower number upper
  obtain ⟨-, -, -, -, -, hself, -⟩ := order_lawful endless endless endless
  obtain ⟨-, -, -, -, -, hself', -⟩ := order_lawful bound bound bound
  refine ⟨⟨hlower, hupper⟩, htrans _ _ hlower hupper (by decide) (by decide),
    ⟨hequal hlower, (halike (hequal hlower)).1⟩, ?_, hself'.2 fun x hx => ?_⟩
  · rw [← Bool.not_eq_true, hself]
    intro h
    have hnan := h ⟨0x7ff8000000000000⟩ (.item List.mem_cons_self (.first .self))
    exact absurd hnan (by decide +kernel)
  · have hx : OccursIn (.float x) (.array [.enumerator 0 nan "each" [nan]]) := hx
    cases hx with
    | item hu hx =>
        obtain rfl := List.mem_singleton.1 hu
        cases hx

end Value

end Stepwise
