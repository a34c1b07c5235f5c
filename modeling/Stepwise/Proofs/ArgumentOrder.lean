import Stepwise.Proofs.Literals
import Stepwise.Proofs.Scanning

namespace Stepwise

def Color.name : Color → String
  | auto => "auto"
  | always => "always"
  | never => "never"

namespace Arguments

section Texts

/-- Digits, with a point and an exponent at most once each. Neither stands first, the exponent does not stand last,
and no point stands after it. -/
structure IsNumber (cs : List Char) : Prop where
  ne_nil : cs ≠ []
  chars : ∀ c ∈ cs, Decimal.isDigit c = true ∨ c = '.' ∨ c = 'e' ∨ c = 'E'
  point : ∀ xs ys, cs = xs ++ '.' :: ys → xs ≠ [] ∧ '.' ∉ ys ∧ 'e' ∉ xs ∧ 'E' ∉ xs
  exponent : ∀ xs c ys, c = 'e' ∨ c = 'E' → cs = xs ++ c :: ys → xs ≠ [] ∧ ys ≠ [] ∧ 'e' ∉ ys ∧ 'E' ∉ ys

/-- A text that is no option: it has no dash in front, or else nothing or a number follows. -/
def IsPositional (text : String) : Prop := ∀ cs, text.toList = '-' :: cs → cs = [] ∨ IsNumber cs

def IsCount (text : String) (k : UInt64) : Prop :=
  ∃ (s : Sign) (ds : List Char), s ≠ .minus ∧ Decimal.IsNumeral ds ∧ text.toList = s.chars ++ ds ∧
    Decimal.number ds = k.toNat

variable {cs : List Char} {text : String}

theorem isMantissa_of_point (hne : cs ≠ []) (hchars : ∀ c ∈ cs, Decimal.isDigit c = true ∨ c = '.')
    (hpoint : ∀ xs ys, cs = xs ++ '.' :: ys → xs ≠ [] ∧ '.' ∉ ys) : isMantissa cs = true := by
  obtain ⟨ds, rest, hspan⟩ : ∃ ds rest, cs.span Decimal.isDigit = (ds, rest) := ⟨_, _, rfl⟩
  obtain ⟨rfl, hdigits, hrest⟩ := span_eq_iff.1 hspan
  rw [isMantissa, hspan]
  cases rest with
  | nil =>
      cases ds with
      | nil => exact absurd rfl hne
      | cons => rfl
  | cons c rest =>
      have hc : c = '.' := by
        refine (hchars c (List.mem_append_right ds List.mem_cons_self)).resolve_left ?_
        rw [hrest c rfl]
        decide
      subst hc
      obtain ⟨hds, hrest'⟩ := hpoint ds rest rfl
      obtain ⟨d, ds, rfl⟩ := List.exists_cons_of_ne_nil hds
      refine List.all_eq_true.2 fun c hc => ?_
      refine (hchars c (List.mem_append_right _ (List.mem_cons_of_mem _ hc))).resolve_right ?_
      rintro rfl
      exact hrest' hc

theorem IsNumber.isMantissa {m rest : List Char} (h : IsNumber (m ++ rest)) (hne : m ≠ [])
    (hm : ∀ c ∈ m, c ≠ 'e' ∧ c ≠ 'E') : isMantissa m = true := by
  refine isMantissa_of_point hne (fun c hc => ?_) fun xs ys hxs => ?_
  · obtain hdigit | hpoint | he | he := h.chars c (List.mem_append_left rest hc)
    · exact .inl hdigit
    · exact .inr hpoint
    · exact absurd he (hm c hc).1
    · exact absurd he (hm c hc).2
  · obtain ⟨hxs, hys, -⟩ := h.point xs (ys ++ rest) (by rw [hxs, List.append_assoc]; rfl)
    exact ⟨hxs, fun hmem => hys (List.mem_append_left rest hmem)⟩

theorem IsNumber.isDigit_exponent {m ds : List Char} {c : Char} (h : IsNumber (m ++ c :: ds))
    (hc : c = 'e' ∨ c = 'E') : ∀ d ∈ ds, Decimal.isDigit d = true := by
  obtain ⟨-, -, he, hE⟩ := h.exponent m c ds hc rfl
  intro d hd
  obtain hdigit | rfl | rfl | rfl := h.chars d (List.mem_append_right m (List.mem_cons_of_mem c hd))
  · exact hdigit
  · obtain ⟨xs, ys, rfl⟩ := List.append_of_mem hd
    obtain ⟨-, -, hxe, hxE⟩ := h.point (m ++ c :: xs) ys (by rw [List.append_assoc]; rfl)
    obtain rfl | rfl := hc
    · exact absurd (List.mem_append_right m List.mem_cons_self) hxe
    · exact absurd (List.mem_append_right m List.mem_cons_self) hxE
  · exact absurd hd he
  · exact absurd hd hE

theorem IsNumber.isNumeric (h : IsNumber cs) : isNumeric cs = true := by
  obtain ⟨m, rest, hspan⟩ : ∃ m rest, cs.span (fun c => c ≠ 'e' && c ≠ 'E') = (m, rest) := ⟨_, _, rfl⟩
  obtain ⟨rfl, hmantissa, hrest⟩ := span_eq_iff.1 hspan
  have hm : ∀ c ∈ m, c ≠ 'e' ∧ c ≠ 'E' := fun c hc => by simpa using hmantissa c hc
  rw [Arguments.isNumeric, hspan]
  cases rest with
  | nil =>
      have hne := h.ne_nil
      rw [List.append_nil] at hne
      exact h.isMantissa hne hm
  | cons c ds =>
      have hc : c = 'e' ∨ c = 'E' := by
        have hc := hrest c rfl
        rw [Bool.and_eq_false_iff] at hc
        simpa using hc
      obtain ⟨hne, hds, -⟩ := h.exponent m c ds hc rfl
      simp only [h.isMantissa hne hm, List.isEmpty_eq_false_iff.2 hds,
        List.all_eq_true.2 (h.isDigit_exponent hc)]
      rfl

theorem IsPositional.takes (h : IsPositional text) {l : Level} (hl : l.iterates = true) : l.Takes text :=
  takes_of_dash fun cs hcs => (h cs hcs).imp_right fun hnumber => ⟨hl, hnumber.isNumeric⟩

theorem takes_of_undashed (h : ∀ cs, text.toList ≠ '-' :: cs) (l : Level) : l.Takes text :=
  takes_of_dash fun cs hcs => absurd hcs (h cs)

theorem IsCount.count {k : UInt64} (h : IsCount text k) : count? text = some k.toNat := by
  obtain ⟨s, ds, hs, hds, htext, hk⟩ := h
  apply count_of_natural
  rw [htext, ← hk, ← Decimal.digitsValue_eq_number]
  cases s with
  | none => exact hds.natural
  | plus =>
      change Decimal.natural? ('+' :: ds) = _
      simp only [Decimal.natural?, hds.isEmpty_eq_false, hds.all_isDigit]
      rfl
  | minus => exact absurd rfl hs

theorem IsCount.undashed {k : UInt64} (h : IsCount text k) : ∀ cs, text.toList ≠ '-' :: cs := by
  obtain ⟨s, ds, hs, hds, htext, -⟩ := h
  intro cs hcs
  rw [htext] at hcs
  cases s with
  | none => exact hds.head_ne (by decide) cs hcs
  | plus => exact absurd (List.cons.inj hcs).1 (by decide)
  | minus => exact absurd rfl hs

end Texts

/-- How a command is to iterate. A count asks for the first values with or without the flag. -/
inductive Ask
  | eager
  | toArray
  | lazy
  | take (k : UInt64) (flagged : Bool)

namespace Ask

def mode : Ask → Mode
  | eager => .eager
  | toArray => .toArray
  | lazy => .lazy none
  | take k _ => .lazy (some k.toNat)

def flags : Ask → List Flag
  | toArray => [.toArray]
  | lazy | take _ true => [.lazy]
  | eager | take _ false => []

def take? : Ask → Option UInt64
  | take k _ => some k
  | _ => none

theorem nodup_flags (ask : Ask) : ask.flags.Nodup := by
  rcases ask with _ | _ | _ | ⟨k, _ | _⟩ <;> simp [flags]

theorem eq_of_mem_flags {ask : Ask} {f : Flag} (h : f ∈ ask.flags) : f = .toArray ∨ f = .lazy := by
  rcases ask with _ | _ | _ | ⟨k, _ | _⟩ <;> simp_all [flags]

theorem mode_eq (ask : Ask) {s : Scan} (hflags : ∀ f, f ≠ .exclusive → (f ∈ s.flags ↔ f ∈ ask.flags))
    (htake : s.take = ask.take?.map UInt64.toNat) :
    (decide (.toArray ∈ s.flags) && (decide (.lazy ∈ s.flags) || s.take.isSome)) = false ∧ s.mode = ask.mode := by
  have htoArray := hflags .toArray (by decide)
  have hlazy := hflags .lazy (by decide)
  rcases ask with _ | _ | _ | ⟨k, _ | _⟩ <;> simp_all [Scan.mode, flags, take?, mode]

end Ask

inductive Request
  | times (n : String) (ask : Ask)
  | upto (start bound : String) (ask : Ask)
  | each (first : String) (last? : Option String) (exclusive : Bool) (ask : Ask)
  | version

namespace Request

def command : Request → Command
  | times n ask => .times n ask.mode
  | upto start bound ask => .upto start bound ask.mode
  | each first last? exclusive ask => .each first last? exclusive ask.mode
  | version => .version

def subcommand : Request → Subcommand
  | times .. => .times
  | upto .. => .upto
  | each .. => .each
  | version => .version

def name : Request → String
  | times .. => "times"
  | upto .. => "upto"
  | each .. => "each"
  | version => "version"

def positionals : Request → List String
  | times n _ => [n]
  | upto start bound _ => [start, bound]
  | each first last? _ _ => first :: last?.toList
  | version => []

def flags : Request → List Flag
  | times _ ask | upto _ _ ask | each _ _ false ask => ask.flags
  | each _ _ true ask => .exclusive :: ask.flags
  | version => []

def take? : Request → Option UInt64
  | times _ ask | upto _ _ ask | each _ _ _ ask => ask.take?
  | version => none

variable {r : Request}

theorem named_name (r : Request) : Subcommand.named? r.name = some r.subcommand := by
  cases r <;> rfl

theorem length_positionals (r : Request) :
    r.subcommand.required ≤ r.positionals.length ∧ r.positionals.length ≤ r.subcommand.positionals := by
  cases r with
  | each first last? exclusive ask =>
      cases last? with
      | none => exact ⟨Nat.le_refl 1, Nat.le_succ 1⟩
      | some last => exact ⟨Nat.le_succ 1, Nat.le_refl 2⟩
  | _ => exact ⟨Nat.le_refl _, Nat.le_refl _⟩

theorem iterates_of_mem_positionals {text : String} (h : text ∈ r.positionals) :
    (Level.sub r.subcommand).iterates = true := by
  cases r with
  | version => cases h
  | _ => rfl

theorem nodup_flags (r : Request) : r.flags.Nodup := by
  cases r with
  | times n ask | upto start bound ask => exact ask.nodup_flags
  | each first last? exclusive ask =>
      cases exclusive with
      | false => exact ask.nodup_flags
      | true =>
          refine List.nodup_cons.2 ⟨fun h => ?_, ask.nodup_flags⟩
          obtain h | h := Ask.eq_of_mem_flags h <;> cases h
  | version => exact List.nodup_nil

theorem long_of_mem_flags {f : Flag} (h : f ∈ r.flags) :
    (Level.sub r.subcommand).long? (Named.flag f).longName = some (.flag f) := by
  cases r with
  | times n ask | upto start bound ask => obtain rfl | rfl := Ask.eq_of_mem_flags h <;> rfl
  | each first last? exclusive ask => cases f <;> rfl
  | version => cases h

theorem long_take {k : UInt64} (h : r.take? = some k) :
    (Level.sub r.subcommand).long? (Named.valued .take).longName = some (.valued .take) := by
  cases r with
  | version => cases h
  | _ => rfl

theorem each_eq {s : Scan} {first : String} {last? : Option String} {exclusive : Bool} {ask : Ask}
    (hflags : ∀ f, f ∈ s.flags ↔ f ∈ (each first last? exclusive ask).flags)
    (hpositionals : s.positionals = first :: last?.toList) :
    (∀ f, f ≠ .exclusive → (f ∈ s.flags ↔ f ∈ ask.flags)) ∧
      decide (.exclusive ∈ s.flags) = exclusive ∧ s.positionals[1]? = last? := by
  refine ⟨fun f hf => ?_, ?_, ?_⟩
  · rw [hflags]
    cases exclusive with
    | false => rfl
    | true => exact List.mem_cons.trans (or_iff_right hf)
  · cases exclusive with
    | true => exact decide_eq_true ((hflags _).2 List.mem_cons_self)
    | false =>
        refine decide_eq_false fun hmem => ?_
        obtain h | h := Ask.eq_of_mem_flags ((hflags _).1 hmem) <;> cases h
  · rw [hpositionals]
    cases last? <;> rfl

theorem command_scan {s : Scan} (hflags : ∀ f, f ∈ s.flags ↔ f ∈ r.flags)
    (htake : s.take = r.take?.map UInt64.toNat) (hpositionals : s.positionals = r.positionals) :
    s.command r.subcommand = .ok r.command := by
  have hrequired : ¬ s.positionals.length < r.subcommand.required := by
    rw [hpositionals]
    exact r.length_positionals.1.not_gt
  cases r with
  | times n ask | upto start bound ask =>
      obtain ⟨hagree, hmode⟩ := ask.mode_eq (fun f _ => hflags f) htake
      rw [Scan.command, hagree, if_neg (by decide), if_neg hrequired, hpositionals]
      dsimp only [subcommand, command]
      rw [hmode]
      rfl
  | each first last? exclusive ask =>
      obtain ⟨hask, hexclusive, hlast⟩ := each_eq hflags hpositionals
      obtain ⟨hagree, hmode⟩ := ask.mode_eq hask htake
      rw [Scan.command, hagree, if_neg (by decide), if_neg hrequired]
      dsimp only [subcommand, command]
      rw [hmode, hexclusive, hlast, hpositionals]
      rfl
  | version =>
      have hnone : .toArray ∉ s.flags := fun hmem => by cases (hflags _).1 hmem
      rw [Scan.command, if_neg (by simp [hnone]), if_neg hrequired]
      rfl

end Request

/-- Arguments that ask for a request, by their parts: the color before the name of the command, the words after
it, and the positionals after `--`. Options have their value in the same argument or in the next one. -/
structure Spelling (r : Request) where
  early? : Option (Color × Bool)
  words : List Word
  late? : Option Color
  escaped? : Option (List String)
  positionals : words.filterMap Word.plain? ++ escaped?.getD [] = r.positionals
  undashed : ∀ text ∈ words.filterMap Word.plain?, IsPositional text
  flags : (words.filterMap Word.flag?).Perm r.flags
  take : List.Forall₂ IsCount (words.filterMap (Word.value? .take)) r.take?.toList
  color : words.filterMap (Word.value? .color) = late?.toList.map Color.name

namespace Spelling

variable {r : Request} (sp : Spelling r)

def earlyTexts : List String := sp.early?.elim [] fun early => (Word.valued .color early.1.name early.2).texts

def argv : List String :=
  sp.earlyTexts ++ r.name :: (sp.words.flatMap Word.texts ++ sp.escaped?.elim [] ("--" :: ·))

/-- The color after the name of the command takes precedence. -/
def asked : Color := (sp.late?.or (sp.early?.map Prod.fst)).getD .auto

theorem take_cases : (sp.words.filterMap (Word.value? .take) = [] ∧ r.take? = none) ∨
    ∃ text k, sp.words.filterMap (Word.value? .take) = [text] ∧ r.take? = some k ∧ IsCount text k := by
  have h := sp.take
  cases hk : r.take? with
  | none =>
      rw [hk] at h
      exact .inl ⟨List.forall₂_nil_right_iff.1 h, rfl⟩
  | some k =>
      rw [hk] at h
      obtain ⟨text, rest, hcount, hrest, hvalues⟩ := List.forall₂_cons_right_iff.1 h
      obtain rfl := List.forall₂_nil_right_iff.1 hrest
      exact .inr ⟨text, k, hvalues, rfl, hcount⟩

theorem fits : ∀ word ∈ sp.words, word.Fits (.sub r.subcommand) := by
  intro word hword
  cases word with
  | plain text =>
      have hplain : text ∈ sp.words.filterMap Word.plain? := List.mem_filterMap.2 ⟨_, hword, rfl⟩
      have hposition : text ∈ r.positionals := by
        rw [← sp.positionals]
        exact List.mem_append_left _ hplain
      exact (sp.undashed text hplain).takes (Request.iterates_of_mem_positionals hposition)
  | flag f =>
      apply Request.long_of_mem_flags
      rw [← sp.flags.mem_iff]
      exact List.mem_filterMap.2 ⟨_, hword, rfl⟩
  | valued v text joined =>
      have hvalue : text ∈ sp.words.filterMap (Word.value? v) := List.mem_filterMap.2 ⟨_, hword, if_pos rfl⟩
      cases v with
      | color =>
          rw [sp.color] at hvalue
          obtain ⟨color, -, rfl⟩ := List.mem_map.1 hvalue
          refine ⟨rfl, fun _ => takes_of_undashed (fun cs hcs => ?_) _⟩
          cases color <;> exact absurd (List.cons.inj hcs).1 (by decide)
      | take =>
          obtain ⟨hnone, -⟩ | ⟨count, k, hsome, hk, hcount⟩ := sp.take_cases
          · rw [hnone] at hvalue
            cases hvalue
          · rw [hsome] at hvalue
            obtain rfl := List.mem_singleton.1 hvalue
            exact ⟨Request.long_take hk, fun _ => takes_of_undashed hcount.undashed _⟩

theorem parseSub_eq : parseSub r.subcommand (sp.words.flatMap Word.texts ++ sp.escaped?.elim [] ("--" :: ·)) =
    .ok (r.command, sp.late?) := by
  have hcolor : (sp.words.filterMap (Word.value? .color)).map Color.read? = sp.late?.toList.map some := by
    have hread : ∀ color : Color, Color.read? color.name = some color := by
      intro color
      cases color <;> rfl
    rw [sp.color, List.map_map]
    exact List.map_congr_left fun color _ => hread color
  have htake : (sp.words.filterMap (Word.value? .take)).map count? =
      (r.take?.map UInt64.toNat).toList.map some := by
    obtain ⟨hnone, hk⟩ | ⟨text, k, hsome, hk, hcount⟩ := sp.take_cases
    · rw [hnone, hk]
      rfl
    · rw [hsome, hk]
      exact congrArg ([·]) hcount.count
  refine parseSub_words sp.fits sp.positionals r.length_positionals.2 (sp.flags.nodup_iff.2 r.nodup_flags)
    hcolor htake (Request.command_scan (fun f => ?_) rfl rfl)
  rw [List.mem_reverse, sp.flags.mem_iff]

theorem parseTop_earlyTexts (rest : List String) : ∃ s t : Scan, Settles s t ∧
    t.color = sp.early?.map Prod.fst ∧ parseTop {} (sp.earlyTexts ++ rest) = parseTop s rest := by
  rw [earlyTexts]
  rcases sp.early? with _ | ⟨color, joined⟩
  · exact ⟨{}, {}, ⟨rfl, rfl, rfl⟩, rfl, rfl⟩
  · cases color <;> cases joined <;> exact ⟨_, _, ⟨rfl, rfl, rfl⟩, rfl, rfl⟩

/-- Whatever the order of its arguments, a spelling is read as what it asks for. -/
theorem parse_argv : parse sp.argv = .ok ⟨r.command, sp.asked⟩ := by
  obtain ⟨s, t, hs, hcolor, hearly⟩ := sp.parseTop_earlyTexts
    (r.name :: (sp.words.flatMap Word.texts ++ sp.escaped?.elim [] ("--" :: ·)))
  rw [parse, argv, hearly, hs.parseTop r.named_name sp.parseSub_eq, hcolor]
  rfl

theorem isPositional_exponent : IsPositional "-1e5" := by
  intro cs hcs
  obtain rfl : ['1', 'e', '5'] = cs := (List.cons.inj hcs).2
  refine .inr ⟨by decide, by simp [Decimal.isDigit], fun xs ys h => ?_, fun xs c ys hc h => ?_⟩
  · have hmem : '.' ∈ ['1', 'e', '5'] := by
      rw [h]
      exact List.mem_append_right xs List.mem_cons_self
    exact absurd hmem (by decide)
  · have hsplit : ['1'] ++ 'e' :: ['5'] = xs ++ c :: ys := h
    have hfirst : c ∉ ['1'] ∧ c ∉ ['5'] := by obtain rfl | rfl := hc <;> decide
    obtain ⟨rfl, -, rfl⟩ := (List.append_cons_inj_of_notMem hfirst.1 hfirst.2).1 hsplit
    decide

/-- Options stand on both sides of a negative number, and another option stands for a text. -/
theorem parse_argv_each :
    let argv := ["--color", "never", "each", "--take=+03", "-1e5", "--exclusive", "--color", "always", "--lazy",
      "--", "--take"]
    (∃ sp : Spelling (.each "-1e5" (some "--take") true (.take 3 true)), sp.argv = argv) ∧
      parse argv = .ok ⟨.each "-1e5" (some "--take") true (.lazy (some 3)), .always⟩ := by
  have hcount : IsCount "+03" 3 := ⟨.plus, ['0', '3'], by simp, ⟨by decide, by simp [Decimal.isDigit]⟩, rfl, rfl⟩
  let sp : Spelling (.each "-1e5" (some "--take") true (.take 3 true)) := {
    early? := some (.never, false)
    words := [.valued .take "+03" true, .plain "-1e5", .flag .exclusive, .valued .color "always" false, .flag .lazy]
    late? := some .always
    escaped? := some ["--take"]
    positionals := rfl
    undashed := List.forall_mem_singleton.2 isPositional_exponent
    flags := .refl _
    take := .cons hcount .nil
    color := rfl }
  exact ⟨⟨sp, rfl⟩, sp.parse_argv⟩

end Spelling

end Arguments

end Stepwise
