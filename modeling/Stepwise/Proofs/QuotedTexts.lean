import Stepwise.Proofs.DecimalTexts
import Stepwise.Text.Quoted

namespace Stepwise.Quoted

section Hexadecimal

def hexDigit (c : Char) : Nat := if c.toNat < 97 then c.toNat - 48 else c.toNat - 87

def hexNumber (cs : List Char) : Nat := cs.foldl (fun n c => 16 * n + hexDigit c) 0

theorem hexDigit_digitChar {n : Nat} (h : n < 16) : hexDigit n.digitChar = n := by
  have hall : ∀ k < 16, hexDigit k.digitChar = k := by decide
  exact hall n h

theorem digitChar_ne_brace {n : Nat} (h : n < 16) : n.digitChar ≠ '\x7d' ∧ n.digitChar ≠ '\n' := by
  have hall : ∀ k < 16, k.digitChar ≠ '\x7d' ∧ k.digitChar ≠ '\n' := by decide
  exact hall n h

theorem hexNumber_toDigits (n : Nat) : hexNumber (Nat.toDigits 16 n) = n := by
  induction n using Nat.strongRecOn with
  | ind n ih =>
      rw [Nat.toDigits_eq_if (by decide)]
      split
      · rename_i h
        rw [hexNumber, List.foldl_cons, hexDigit_digitChar h]
        simp
      · rename_i h
        have hdigit := hexDigit_digitChar (Nat.mod_lt n (show 0 < 16 by decide))
        have hrest := ih (n / 16) (by omega)
        rw [hexNumber] at hrest ⊢
        rw [List.foldl_append, hrest, List.foldl_cons, List.foldl_nil, hdigit]
        omega

theorem mem_toDigits {n : Nat} {c : Char} (h : c ∈ Nat.toDigits 16 n) : c ≠ '\x7d' ∧ c ≠ '\n' := by
  induction n using Nat.strongRecOn with
  | ind n ih =>
      rw [Nat.toDigits_eq_if (by decide)] at h
      split at h
      · rename_i hn
        obtain rfl := List.mem_singleton.1 h
        exact digitChar_ne_brace hn
      · obtain h | h := List.mem_append.1 h
        · exact ih (n / 16) (by omega) h
        · obtain rfl := List.mem_singleton.1 h
          exact digitChar_ne_brace (Nat.mod_lt n (by decide))

end Hexadecimal

section Escapes

def escaped? : List Char → Option (Char × List Char)
  | [] => none
  | c :: cs =>
    if c = '0' then some ('\x00', cs)
    else if c = 't' then some ('\t', cs)
    else if c = 'r' then some ('\r', cs)
    else if c = 'n' then some ('\n', cs)
    else if c = 'u' then
      let parts := (cs.drop 1).span (· ≠ '\x7d')
      some (Char.ofNat (hexNumber parts.1), parts.2.drop 1)
    else some (c, cs)

def unescape? : List Char → Option (Char × List Char)
  | [] => none
  | c :: cs => if c = '\\' then escaped? cs else some (c, cs)

theorem unescape_numeric (c : Char) (cs : List Char) : unescape? (numeric c ++ cs) = some (c, cs) := by
  have hspan : (Nat.toDigits 16 c.toNat ++ '\x7d' :: cs).span (· ≠ '\x7d') =
      (Nat.toDigits 16 c.toNat, '\x7d' :: cs) :=
    span_eq_iff.2 ⟨rfl, fun d hd => by simpa using (mem_toDigits hd).1, by simp⟩
  have hlist : numeric c ++ cs = '\\' :: 'u' :: '\x7b' :: (Nat.toDigits 16 c.toNat ++ '\x7d' :: cs) := by
    simp [numeric]
  rw [hlist]
  change some (Char.ofNat (hexNumber (List.span _ _).1), (List.span _ _).2.drop 1) = some (c, cs)
  rw [List.drop_one, List.tail_cons, hspan, hexNumber_toDigits, Char.ofNat_toNat]
  rfl

def letters : List (Char × Char) :=
  [('\x00', '0'), ('\t', 't'), ('\r', 'r'), ('\n', 'n'), ('"', '"'), ('\\', '\\')]

theorem escape_of_mem_letters {c l : Char} (h : (c, l) ∈ letters) (cs : List Char) :
    escape '"' c = ['\\', l] ∧ escaped? (l :: cs) = some (c, cs) := by
  simp only [letters, List.mem_cons, Prod.mk.injEq, List.not_mem_nil, or_false] at h
  obtain ⟨rfl, rfl⟩ | ⟨rfl, rfl⟩ | ⟨rfl, rfl⟩ | ⟨rfl, rfl⟩ | ⟨rfl, rfl⟩ | ⟨rfl, rfl⟩ := h
  all_goals exact ⟨rfl, rfl⟩

theorem escape_cases (c : Char) : (∃ l, escape '"' c = ['\\', l] ∧ (c, l) ∈ letters) ∨ escape '"' c = numeric c ∨
    (escape '"' c = [c] ∧ c ≠ '\\' ∧ c ≠ '\n') := by
  by_cases hc : c ∈ letters.map Prod.fst
  · left
    obtain ⟨⟨c, l⟩, h, rfl⟩ := List.mem_map.1 hc
    exact ⟨l, (escape_of_mem_letters h []).1, h⟩
  · right
    simp only [letters, List.map_cons, List.map_nil, List.mem_cons, List.not_mem_nil, or_false, not_or] at hc
    obtain ⟨h0, ht, hr, hn, hmark, hslash⟩ := hc
    rw [escape, if_neg h0, if_neg ht, if_neg hr, if_neg hn, if_neg (by simp [hmark, hslash])]
    split
    · exact .inl rfl
    · exact .inr ⟨rfl, hslash, hn⟩

theorem unescape_escape (c : Char) (cs : List Char) : unescape? (escape '"' c ++ cs) = some (c, cs) := by
  obtain ⟨l, h, hl⟩ | h | ⟨h, hc, -⟩ := escape_cases c
  · rw [h]
    exact (escape_of_mem_letters hl cs).2
  · rw [h]
    exact unescape_numeric c cs
  · rw [h]
    exact if_neg hc

theorem escape_ne_nil (c : Char) : escape '"' c ≠ [] := by
  intro h
  have hread := unescape_escape c []
  rw [h] at hread
  cases hread

theorem escape_append_inj {c d : Char} {cs ds : List Char} (h : escape '"' c ++ cs = escape '"' d ++ ds) :
    c = d ∧ cs = ds := by
  have hread := unescape_escape c cs
  rw [h, unescape_escape] at hread
  obtain ⟨rfl, rfl⟩ := Prod.mk.inj (Option.some.inj hread)
  exact ⟨rfl, rfl⟩

theorem escape_append_ne (c : Char) (cs ds : List Char) : escape '"' c ++ cs ≠ '"' :: ds := by
  intro h
  have hread := unescape_escape c cs
  rw [h] at hread
  obtain ⟨rfl, -⟩ := Prod.mk.inj (Option.some.inj hread)
  cases h

theorem newline_notMem_escape (c : Char) : '\n' ∉ escape '"' c := by
  obtain ⟨l, h, hl⟩ | h | ⟨h, -, hc⟩ := escape_cases c
  · have hletters : ∀ o ∈ letters, '\n' ∉ ['\\', o.2] := by decide
    rw [h]
    exact hletters (c, l) hl
  · have hdigits : '\n' ∉ Nat.toDigits 16 c.toNat := fun h => (mem_toDigits h).2 rfl
    simp [h, numeric, hdigits]
  · simpa [h] using Ne.symm hc

end Escapes

section Texts

variable {s t : String} {cs ds : List Char}

theorem toList_text (s : String) : (text s).toList = '"' :: (s.toList.flatMap (escape '"') ++ ['"']) :=
  String.toList_ofList

/-- A quoted text ends where its mark is, so that anything may follow it. -/
theorem flatMap_escape_append_inj {xs ys : List Char}
    (h : xs.flatMap (escape '"') ++ '"' :: cs = ys.flatMap (escape '"') ++ '"' :: ds) : xs = ys ∧ cs = ds := by
  induction xs generalizing ys with
  | nil =>
      cases ys with
      | nil => exact ⟨rfl, (List.cons.inj h).2⟩
      | cons y ys =>
          rw [List.flatMap_cons, List.append_assoc] at h
          exact absurd h.symm (escape_append_ne y _ _)
  | cons x xs ih =>
      cases ys with
      | nil =>
          rw [List.flatMap_cons, List.append_assoc] at h
          exact absurd h (escape_append_ne x _ _)
      | cons y ys =>
          rw [List.flatMap_cons, List.flatMap_cons, List.append_assoc, List.append_assoc] at h
          obtain ⟨rfl, hrest⟩ := escape_append_inj h
          obtain ⟨rfl, rfl⟩ := ih hrest
          exact ⟨rfl, rfl⟩

theorem text_append_inj (h : (text s).toList ++ cs = (text t).toList ++ ds) : s = t ∧ cs = ds := by
  rw [toList_text, toList_text, List.cons_append, List.cons_append, List.append_assoc, List.append_assoc] at h
  obtain ⟨hlist, rfl⟩ := flatMap_escape_append_inj (List.cons.inj h).2
  exact ⟨String.toList_inj.1 hlist, rfl⟩

theorem newline_notMem_text (s : String) : '\n' ∉ (text s).toList := by
  rw [toList_text]
  simp only [List.mem_cons, List.mem_append, List.mem_flatMap, List.not_mem_nil, or_false, not_or]
  refine ⟨by decide, ?_, by decide⟩
  rintro ⟨c, -, hc⟩
  exact newline_notMem_escape c hc

theorem length_lt_length_text (s : String) : s.length < (text s).length := by
  have hle (xs : List Char) : xs.length ≤ (xs.flatMap (escape '"')).length := by
    induction xs with
    | nil => exact le_rfl
    | cons x xs ih =>
        have hpos := List.length_pos_iff.2 (escape_ne_nil x)
        rw [List.flatMap_cons, List.length_append, List.length_cons]
        omega
  have hs := hle s.toList
  rw [← String.length_toList, ← String.length_toList, toList_text, List.length_cons, List.length_append]
  omega

end Texts

end Stepwise.Quoted
