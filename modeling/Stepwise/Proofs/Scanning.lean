import Stepwise.Proofs.DecimalTexts

namespace Stepwise.Arguments

/-- An argument that is no option of a command that iterates: if it begins with a dash, a number follows. -/
def Plain (text : String) : Prop := ∀ cs, text.toList = '-' :: cs → isNumeric cs

theorem plain_toString_nat (n : Nat) : Plain (toString n) := by
  intro cs h
  rw [Decimal.toList_toString_nat] at h
  exact absurd h ((Decimal.isNumeral_toDigits n).head_ne (by decide) cs)

theorem plain_toString_int (n : Int) : Plain (toString n) := by
  intro cs h
  rw [Decimal.toList_toString_int] at h
  split at h
  · exact absurd h ((Decimal.isNumeral_toDigits _).head_ne (by decide) cs)
  · obtain ⟨-, rfl⟩ := List.cons.inj h
    exact (Decimal.isNumeral_toDigits _).isNumeric

def Named.longName : Named → String
  | flag .toArray => "to-a"
  | flag .lazy => "lazy"
  | flag .exclusive => "exclusive"
  | valued .color => "color"
  | valued .take => "take"
  | help => "help"
  | version => "version"

def Level.Takes (l : Level) (text : String) : Prop :=
  ∀ s : Scan, s.trailing = false → s.token l text = s.positional l text

inductive Word
  | plain (text : String)
  | flag (f : Flag)
  | valued (v : Valued) (text : String) (joined : Bool)

namespace Word

def texts : Word → List String
  | plain text => [text]
  | flag f => ["--" ++ (Named.flag f).longName]
  | valued v text true => ["--" ++ (Named.valued v).longName ++ "=" ++ text]
  | valued v text false => ["--" ++ (Named.valued v).longName, text]

def Fits (l : Level) : Word → Prop
  | plain text => l.Takes text
  | flag f => l.long? (Named.flag f).longName = some (.flag f)
  | valued v text joined =>
    l.long? (Named.valued v).longName = some (.valued v) ∧ (joined = false → l.Takes text)

def plain? : Word → Option String
  | plain text => some text
  | _ => none

def flag? : Word → Option Flag
  | flag f => some f
  | _ => none

def value? (v : Valued) : Word → Option String
  | valued v' text _ => if v' = v then some text else none
  | _ => none

end Word

def Scan.say (s : Scan) : Word → Except UsageError Scan
  | .plain text => .ok { s with positionals := s.positionals ++ [text] }
  | .flag f => s.setFlag f
  | .valued v text _ => s.setValue v text

/-- All values have been given. The last one may be still to be read, and then the second scan is left. -/
structure Settles (s t : Scan) : Prop where
  settle : s.settle = .ok t
  awaiting : s.awaiting? = none
  trailing : s.trailing = false

theorem isNumeric_dash (cs : List Char) : isNumeric ('-' :: cs) = false := by
  have hmantissa (ds : List Char) : isMantissa ('-' :: ds) = false := by
    have hspan : ('-' :: ds).span Decimal.isDigit = ([], '-' :: ds) := by
      simp [List.span_eq_takeWhile_dropWhile, Decimal.isDigit]
    rw [isMantissa, hspan]
  have hspan : ('-' :: cs).span (fun c => c ≠ 'e' && c ≠ 'E') =
      ('-' :: cs.takeWhile (fun c => c ≠ 'e' && c ≠ 'E'), cs.dropWhile fun c => c ≠ 'e' && c ≠ 'E') := by
    simp [List.span_eq_takeWhile_dropWhile]
  rw [isNumeric, hspan]
  cases cs.dropWhile fun c => c ≠ 'e' && c ≠ 'E' with
  | nil => exact hmantissa _
  | cons c ds => simp only [hmantissa, Bool.false_and]

section Token

variable {l : Level} {s t u : Scan} {text : String}

/-- A dash begins no option if nothing follows it, or a number after a command that iterates. -/
theorem takes_of_dash (h : ∀ cs, text.toList = '-' :: cs → cs = [] ∨ l.iterates = true ∧ isNumeric cs = true) :
    l.Takes text := by
  intro s hs
  unfold Scan.token
  rw [if_neg (by simp [hs])]
  split
  · rename_i heq
    obtain hnil | ⟨-, hnumeric⟩ := h _ heq
    · cases hnil
    · exact absurd hnumeric (by decide)
  · rename_i heq
    obtain hnil | ⟨-, hnumeric⟩ := h _ heq
    · cases hnil
    · exact absurd hnumeric (by simp [isNumeric_dash])
  · rename_i c cs _ heq
    obtain hnil | ⟨hl, hnumeric⟩ := h _ heq
    · cases hnil
    · rw [if_pos (by simp [hl, hnumeric])]
  · rfl

theorem takes_of_plain (hl : l.iterates = true) (h : Plain text) : l.Takes text :=
  takes_of_dash fun cs hcs => .inr ⟨hl, h cs hcs⟩

theorem token_long (name : Named) (hs : s.trailing = false) :
    s.token l ("--" ++ name.longName) = s.long l name.longName none := by
  unfold Scan.token
  rw [if_neg (by simp [hs])]
  rcases name with f | v | _ | _
  · cases f <;> rfl
  · cases v <;> rfl
  · rfl
  · rfl

theorem splitLong_joined {cs : List Char} (h : ∀ c ∈ cs, c ≠ '=') (text : String) :
    splitLong (cs ++ '=' :: text.toList) = (String.ofList cs, some text) := by
  have hspan : (cs ++ '=' :: text.toList).span (· ≠ '=') = (cs, '=' :: text.toList) :=
    span_eq_iff.2 ⟨rfl, fun c hc => by simpa using h c hc, by simp⟩
  rw [splitLong, hspan]
  simp

theorem longName_chars (name : Named) :
    name.longName.toList ≠ [] ∧ ∀ c ∈ name.longName.toList, c ≠ '=' := by
  rcases name with f | v | _ | _
  · cases f <;> simp [Named.longName]
  · cases v <;> simp [Named.longName]
  · simp [Named.longName]
  · simp [Named.longName]

theorem token_joined (name : Named) (text : String) (hs : s.trailing = false) :
    s.token l ("--" ++ name.longName ++ "=" ++ text) = s.long l name.longName (some text) := by
  obtain ⟨hne, hchars⟩ := longName_chars name
  obtain ⟨c, cs, hname⟩ := List.exists_cons_of_ne_nil hne
  rw [hname] at hchars
  have hlist : ("--" ++ name.longName ++ "=" ++ text).toList =
      '-' :: '-' :: (c :: cs ++ '=' :: text.toList) := by
    simp [String.toList_append, hname]
  have hlong : s.long l (splitLong (c :: cs ++ '=' :: text.toList)).1
      (splitLong (c :: cs ++ '=' :: text.toList)).2 = s.long l name.longName (some text) := by
    rw [splitLong_joined hchars, ← hname, String.ofList_toList]
  unfold Scan.token
  rw [if_neg (by simp [hs]), hlist]
  exact hlong

theorem token_awaiting (h : l.Takes text) (hs : s.trailing = false) (v : Valued) :
    ({ s with pending := some (v, none) } : Scan).token l text =
      .ok { s with pending := some (v, some text) } := by
  rw [h { s with pending := some (v, none) } hs]
  simp only [Scan.positional, Scan.awaiting?, hs]

end Token

section Frame

variable {s t : Scan}

structure Ready (s : Scan) : Prop where
  pending : s.pending = none
  trailing : s.trailing = false

theorem setValue_frame {v : Valued} {text : String} (h : s.setValue v text = .ok t) :
    t.positionals = s.positionals ∧ t.pending = s.pending ∧ t.trailing = s.trailing := by
  unfold Scan.setValue at h
  split at h
  all_goals
    split at h
    · cases h
    · split at h
      · cases h
        exact ⟨rfl, rfl, rfl⟩
      · cases h

theorem Ready.setValue (hs : Ready s) {v : Valued} {text : String} (h : s.setValue v text = .ok t) :
    Ready t := by
  obtain ⟨-, hpending, htrailing⟩ := setValue_frame h
  exact ⟨hpending.trans hs.pending, htrailing.trans hs.trailing⟩

theorem setFlag_eq_ok_iff {f : Flag} :
    s.setFlag f = .ok t ↔ f ∉ s.flags ∧ t = { s with flags := f :: s.flags } := by
  rw [Scan.setFlag]
  split
  · simp [*]
  · simp [*, eq_comm]

theorem Ready.setFlag (hs : Ready s) {f : Flag} (h : s.setFlag f = .ok t) : Ready t := by
  obtain ⟨-, rfl⟩ := setFlag_eq_ok_iff.1 h
  exact ⟨hs.pending, hs.trailing⟩

theorem Ready.settles (hs : Ready s) : Settles s s := by
  refine ⟨?_, ?_, hs.trailing⟩
  · rw [Scan.settle, hs.pending]
  · rw [Scan.awaiting?, hs.pending]

theorem settle_frame (h : s.settle = .ok t) :
    t.positionals = s.positionals ∧ t.pending = none ∧ t.trailing = s.trailing := by
  rw [Scan.settle] at h
  rcases hp : s.pending with _ | ⟨v, _ | text⟩
  · rw [hp] at h
    obtain rfl := Except.ok.inj h
    exact ⟨rfl, hp, rfl⟩
  · rw [hp] at h
    cases h
  · rw [hp] at h
    exact setValue_frame h

theorem Settles.ready (h : Settles s t) : Ready t ∧ t.positionals = s.positionals := by
  obtain ⟨hpositionals, hpending, htrailing⟩ := settle_frame h.settle
  exact ⟨⟨hpending, htrailing.trans h.trailing⟩, hpositionals⟩

end Frame

section Long

variable {l : Level} {s t : Scan} {name : String}

theorem Settles.long_flag (h : Settles s t) {f : Flag} (hname : l.long? name = some (.flag f)) :
    s.long l name none = t.setFlag f := by
  unfold Scan.long
  rw [hname, h.settle]
  rfl

theorem Settles.long_joined (h : Settles s t) {v : Valued} (hname : l.long? name = some (.valued v))
    (text : String) : s.long l name (some text) = t.setValue v text := by
  unfold Scan.long
  rw [hname, h.settle]
  rfl

theorem Settles.long_valued (h : Settles s t) {v : Valued} (hname : l.long? name = some (.valued v)) :
    s.long l name none = .ok { t with pending := some (v, none) } := by
  unfold Scan.long
  rw [hname, h.settle]
  rfl

theorem Settles.positional (h : Settles s t) (hplace : t.positionals.length < l.positionals)
    (text : String) :
    s.positional l text = .ok { t with positionals := t.positionals ++ [text] } := by
  have hlength : s.positionals.length < l.positionals := by rwa [← h.ready.2]
  unfold Scan.positional
  rw [h.awaiting, if_pos hlength, h.settle]
  rfl

end Long

theorem Settles.word {l : Level} {s t u : Scan} (h : Settles s t) {word : Word} (hword : word.Fits l)
    (hplace : word.plain?.isSome → t.positionals.length < l.positionals) (hsay : t.say word = .ok u) :
    ∃ s', word.texts.foldlM (Scan.token l) s = .ok s' ∧ Settles s' u := by
  have hready := h.ready.1
  cases word with
  | plain text =>
      have hread : s.token l text = .ok u := by
        rw [hword s h.trailing, h.positional (hplace rfl)]
        exact hsay
      have hu : Ready u := by
        obtain rfl := Except.ok.inj hsay
        exact ⟨hready.pending, hready.trailing⟩
      exact ⟨u, by rw [Word.texts, List.foldlM_cons, hread]; rfl, hu.settles⟩
  | flag f =>
      have hread : s.token l ("--" ++ (Named.flag f).longName) = .ok u := by
        rw [token_long (.flag f) h.trailing, h.long_flag hword]
        exact hsay
      exact ⟨u, by rw [Word.texts, List.foldlM_cons, hread]; rfl, (hready.setFlag hsay).settles⟩
  | valued v text joined =>
      obtain ⟨hname, hplain⟩ := hword
      cases joined with
      | true =>
          have hread : s.token l ("--" ++ (Named.valued v).longName ++ "=" ++ text) = .ok u := by
            rw [token_joined (.valued v) text h.trailing, h.long_joined hname]
            exact hsay
          exact ⟨u, by rw [Word.texts, List.foldlM_cons, hread]; rfl, (hready.setValue hsay).settles⟩
      | false =>
          have hfirst : s.token l ("--" ++ (Named.valued v).longName) =
              .ok { t with pending := some (v, none) } := by
            rw [token_long (.valued v) h.trailing, h.long_valued hname]
          have hsecond := token_awaiting (hplain rfl) hready.trailing v
          refine ⟨{ t with pending := some (v, some text) }, ?_, ?_, rfl, hready.trailing⟩
          · simp only [Word.texts, List.foldlM_cons, List.foldlM_nil, hfirst, bind, Except.bind, hsecond]
            rfl
          · have ht : { t with pending := none } = t := by rw [← hready.pending]
            change ({ t with pending := none } : Scan).setValue v text = _
            rw [ht]
            exact hsay

theorem positionals_say {s t : Scan} {word : Word} (h : s.say word = .ok t) :
    t.positionals = s.positionals ++ word.plain?.toList := by
  cases word with
  | plain text =>
      obtain rfl := Except.ok.inj h
      rfl
  | flag f =>
      obtain ⟨-, rfl⟩ := setFlag_eq_ok_iff.1 h
      exact (List.append_nil _).symm
  | valued v text joined =>
      rw [(setValue_frame h).1]
      exact (List.append_nil _).symm

/-- However the words are ordered, they are read as they say, one after another. -/
theorem Settles.words {l : Level} {words : List Word}
    (hwords : ∀ word ∈ words, word.Fits l) {s t u : Scan} (h : Settles s t)
    (hplaces : t.positionals.length + (words.filterMap Word.plain?).length ≤ l.positionals)
    (hsay : words.foldlM Scan.say t = .ok u) :
    ∃ s', (words.flatMap Word.texts).foldlM (Scan.token l) s = .ok s' ∧ Settles s' u := by
  induction words generalizing s t with
  | nil =>
      obtain rfl := Except.ok.inj hsay
      exact ⟨s, rfl, h⟩
  | cons word words ih =>
      rw [List.foldlM_cons] at hsay
      cases hfirst : t.say word with
      | error err =>
          rw [hfirst] at hsay
          cases hsay
      | ok t₁ =>
          rw [hfirst] at hsay
          obtain ⟨hplace, hrest⟩ : (word.plain?.isSome → t.positionals.length < l.positionals) ∧
              t₁.positionals.length + (words.filterMap Word.plain?).length ≤ l.positionals := by
            rw [positionals_say hfirst]
            cases hplain : word.plain? with
            | none => simpa [hplain] using hplaces
            | some text =>
                rw [List.filterMap_cons_some hplain, List.length_cons] at hplaces
                rw [Option.toList_some, List.length_append, List.length_singleton]
                exact ⟨fun _ => by omega, by omega⟩
          obtain ⟨s₁, hread, hs₁⟩ := h.word (hwords word List.mem_cons_self) hplace hfirst
          obtain ⟨s', hread', hs'⟩ := ih (fun word' h' => hwords word' (List.mem_cons_of_mem word h')) hs₁
            hrest hsay
          refine ⟨s', ?_, hs'⟩
          rw [List.flatMap_cons, List.foldlM_append, hread]
          exact hread'

section Saying

theorem eq_nil_of_append_cons {α : Type} {o o' x : Option α} {xs : List (Option α)}
    (h : o.toList.map some ++ x :: xs = o'.toList.map some) :
    o = none ∧ xs = [] ∧ ∃ a, x = some a ∧ o' = some a := by
  cases o <;> cases o' <;> simp_all

theorem foldlM_say {words : List Word} {s : Scan} {color : Option Color} {take : Option Nat}
    (hflags : (words.filterMap Word.flag? ++ s.flags).Nodup)
    (hcolor : s.color.toList.map some ++ (words.filterMap (Word.value? .color)).map Color.read? =
      color.toList.map some)
    (htake : s.take.toList.map some ++ (words.filterMap (Word.value? .take)).map count? =
      take.toList.map some) :
    words.foldlM Scan.say s = .ok { s with
      color := color
      take := take
      flags := (words.filterMap Word.flag?).reverse ++ s.flags
      positionals := s.positionals ++ words.filterMap Word.plain? } := by
  induction words generalizing s with
  | nil =>
      obtain rfl : s.color = color := by
        cases hs : s.color <;> cases color <;> simp_all
      obtain rfl : s.take = take := by
        cases hs : s.take <;> cases take <;> simp_all
      rw [List.filterMap_nil, List.filterMap_nil, List.reverse_nil, List.nil_append, List.append_nil]
      rfl
  | cons word words ih =>
      rw [List.foldlM_cons]
      cases word with
      | plain text =>
          refine (ih (s := { s with positionals := s.positionals ++ [text] }) hflags hcolor htake).trans ?_
          rw [List.append_assoc]
          rfl
      | flag f =>
          have hnodup : (f :: (words.filterMap Word.flag? ++ s.flags)).Nodup := hflags
          have hf : f ∉ s.flags := fun hmem => (List.nodup_cons.1 hnodup).1 (List.mem_append_right _ hmem)
          have hset : s.say (.flag f) = .ok { s with flags := f :: s.flags } :=
            setFlag_eq_ok_iff.2 ⟨hf, rfl⟩
          rw [hset]
          refine (ih (s := { s with flags := f :: s.flags })
            (List.perm_middle.nodup_iff.2 hnodup) hcolor htake).trans ?_
          have hreverse : ((Word.flag f :: words).filterMap Word.flag?).reverse ++ s.flags =
              (words.filterMap Word.flag?).reverse ++ f :: s.flags := by
            simp [Word.flag?]
          rw [hreverse]
          rfl
      | valued v text joined =>
          cases v with
          | color =>
              obtain ⟨hnone, hvalues, c, hread, rfl⟩ := eq_nil_of_append_cons hcolor
              have hset : s.say (.valued .color text joined) = .ok { s with color := some c } := by
                simp only [Scan.say, Scan.setValue, hnone, hread]
                rfl
              rw [hset]
              exact ih (s := { s with color := some c }) hflags (by rw [hvalues, List.append_nil]) htake
          | take =>
              obtain ⟨hnone, hvalues, k, hread, rfl⟩ := eq_nil_of_append_cons htake
              have hset : s.say (.valued .take text joined) = .ok { s with take := some k } := by
                simp only [Scan.say, Scan.setValue, hnone, hread]
                rfl
              rw [hset]
              exact ih (s := { s with take := some k }) hflags hcolor (by rw [hvalues, List.append_nil])

end Saying

section Escaped

variable {l : Level} {s t : Scan}

structure Trails (s t : Scan) : Prop where
  settle : s.settle = .ok t
  awaiting : s.awaiting? = none
  trailing : s.trailing = true

theorem setValue_trailing (s : Scan) (v : Valued) (text : String) :
    ({ s with trailing := true } : Scan).setValue v text =
      (s.setValue v text).map fun t => { t with trailing := true } := by
  unfold Scan.setValue
  cases v
  all_goals
    dsimp only
    split
    · rfl
    · split <;> rfl

theorem settle_trailing (s : Scan) :
    ({ s with trailing := true } : Scan).settle = s.settle.map fun t => { t with trailing := true } := by
  obtain ⟨color, take, flags, positionals, _ | ⟨v, _ | text⟩, trailing⟩ := s
  · rfl
  · rfl
  · exact setValue_trailing ⟨color, take, flags, positionals, none, trailing⟩ v text

theorem Settles.escape (h : Settles s t) : s.token l "--" = .ok { s with trailing := true } ∧
    Trails { s with trailing := true } { t with trailing := true } := by
  refine ⟨?_, ?_, h.awaiting, rfl⟩
  · unfold Scan.token
    rw [if_neg (by simp [h.trailing])]
    rfl
  · rw [settle_trailing, h.settle]
    rfl

theorem Trails.token (h : Trails s t) (hplace : t.positionals.length < l.positionals) (text : String) :
    ∃ s', s.token l text = .ok s' ∧ Trails s' { t with positionals := t.positionals ++ [text] } := by
  obtain ⟨hpositionals, hpending, htrailing⟩ := settle_frame h.settle
  refine ⟨{ t with positionals := t.positionals ++ [text] }, ?_, ?_, ?_, htrailing.trans h.trailing⟩
  · unfold Scan.token Scan.positional
    rw [if_pos h.trailing, h.awaiting, if_pos (by rwa [← hpositionals]), h.settle]
    rfl
  · rw [Scan.settle, hpending]
  · rw [Scan.awaiting?, hpending]

theorem Trails.tokens (h : Trails s t) {texts : List String}
    (hplaces : t.positionals.length + texts.length ≤ l.positionals) :
    ∃ s', texts.foldlM (Scan.token l) s = .ok s' ∧ Trails s' { t with positionals := t.positionals ++ texts } := by
  induction texts generalizing s t with
  | nil =>
      rw [List.append_nil]
      exact ⟨s, rfl, h⟩
  | cons text texts ih =>
      rw [List.length_cons] at hplaces
      obtain ⟨s₁, hread, hs₁⟩ := h.token (l := l) (by omega) text
      obtain ⟨s', hrest, hs'⟩ := ih hs₁ (by rw [List.length_append, List.length_singleton]; omega)
      refine ⟨s', ?_, ?_⟩
      · rw [List.foldlM_cons, hread]
        exact hrest
      · rwa [List.append_assoc] at hs'

end Escaped

theorem parseSub_eq_ok {c : Subcommand} {args : List String} {s t : Scan}
    (hread : args.foldlM (Scan.token (.sub c)) {} = .ok s) (hsettle : s.settle = .ok t) {command : Command}
    (hcommand : t.command c = .ok command) : parseSub c args = .ok (command, t.color) := by
  unfold parseSub
  rw [hread]
  change (do let s ← s.settle; return (← s.command c, s.color)) = _
  rw [hsettle]
  change (do return (← t.command c, t.color)) = _
  rw [hcommand]
  rfl

theorem parseSub_words {c : Subcommand} {words : List Word} (hwords : ∀ word ∈ words, word.Fits (.sub c))
    {escaped? : Option (List String)} {positionals : List String}
    (hpositionals : words.filterMap Word.plain? ++ escaped?.getD [] = positionals)
    (hplaces : positionals.length ≤ c.positionals) (hflags : (words.filterMap Word.flag?).Nodup)
    {color : Option Color} {take : Option Nat}
    (hcolor : (words.filterMap (Word.value? .color)).map Color.read? = color.toList.map some)
    (htake : (words.filterMap (Word.value? .take)).map count? = take.toList.map some) {command : Command}
    (hcommand : Scan.command c
      { color := color
        take := take
        flags := (words.filterMap Word.flag?).reverse
        positionals := positionals } = .ok command) :
    parseSub c (words.flatMap Word.texts ++ escaped?.elim [] ("--" :: ·)) = .ok (command, color) := by
  have hstart : Settles {} {} := ⟨rfl, rfl, rfl⟩
  have hsay := foldlM_say (s := {}) (by rwa [List.append_nil]) hcolor htake
  rw [List.append_nil, List.nil_append] at hsay
  rw [← hpositionals, List.length_append] at hplaces
  rw [← hpositionals] at hcommand
  obtain ⟨s, hread, hs⟩ := Settles.words (l := .sub c) hwords hstart
    (by rw [List.length_nil, Nat.zero_add]; exact (Nat.le_add_right _ _).trans hplaces) hsay
  cases escaped? with
  | none =>
      rw [Option.getD_none, List.append_nil] at hcommand
      rw [Option.elim_none, List.append_nil]
      exact parseSub_eq_ok hread hs.settle hcommand
  | some texts =>
      obtain ⟨hescape, htrails⟩ := hs.escape (l := .sub c)
      obtain ⟨s', hrest, hs'⟩ := htrails.tokens (l := .sub c) hplaces
      refine parseSub_eq_ok (s := s') ?_ hs'.settle hcommand
      rw [List.foldlM_append, hread]
      change ("--" :: texts).foldlM (Scan.token (.sub c)) s = .ok s'
      rw [List.foldlM_cons, hescape]
      exact hrest

theorem Settles.parseTop {s t : Scan} (h : Settles s t) {name : String} {c : Subcommand}
    (hname : Subcommand.named? name = some c) {rest : List String} {command : Command} {color : Option Color}
    (hsub : parseSub c rest = .ok (command, color)) :
    parseTop s (name :: rest) = .ok ⟨command, (color.or t.color).getD .auto⟩ := by
  have hready : (!s.trailing && s.awaiting?.isNone) = true := by rw [h.trailing, h.awaiting]; rfl
  simp only [Arguments.parseTop, hname, hready, if_true, hsub]
  change (do let s ← s.settle; return (⟨command, (color.or s.color).getD .auto⟩ : Invocation)) = _
  rw [h.settle]
  rfl

end Stepwise.Arguments
