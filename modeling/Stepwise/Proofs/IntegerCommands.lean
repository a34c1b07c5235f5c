import Stepwise.Proofs.IntegerSteppers
import Stepwise.Proofs.PrintModes
import Stepwise.Proofs.Scanning

namespace Stepwise

open Routine

inductive IntegerCommand
  | times (n : Int64)
  | upto (start bound : Int64)
  | each (first last : Int64) (exclusive : Bool)

namespace IntegerCommand

open Arguments

/-- How the integers are printed: each in a line of its own and then the result, all in one line, or the
first ones without the result. -/
inductive Style
  | lines
  | array
  | first (k : UInt64)

variable (c : IntegerCommand) (style : Style)

def subcommand : IntegerCommand → Subcommand
  | times _ => .times
  | upto _ _ => .upto
  | each _ _ _ => .each

def name : IntegerCommand → String
  | times _ => "times"
  | upto _ _ => "upto"
  | each _ _ _ => "each"

def numerals : IntegerCommand → List String
  | times n => [toString n.toInt]
  | upto start bound => [toString start.toInt, toString bound.toInt]
  | each first last _ => [toString first.toInt, toString last.toInt]

def flags : IntegerCommand → List Flag
  | each _ _ true => [.exclusive]
  | _ => []

def elements : IntegerCommand → List Int
  | times n => Int.range 0 n.toInt
  | upto start bound => Int.range start.toInt (bound.toInt + 1)
  | each first last exclusive =>
    Int.range first.toInt (if exclusive then last.toInt else last.toInt + 1)

def result : IntegerCommand → String
  | times n => toString n.toInt
  | upto start _ => toString start.toInt
  | each first last exclusive =>
    toString first.toInt ++ (if exclusive then "..." else "..") ++ toString last.toInt

namespace Style

def flags : Style → List Flag
  | array => [.toArray]
  | _ => []

def take : Style → Option UInt64
  | first k => some k
  | _ => none

def mode : Style → Mode
  | lines => .eager
  | array => .toArray
  | first k => .lazy (some k.toNat)

def print (numerals : List String) (result : String) : Style → List String
  | lines => numerals ++ ["=> " ++ result]
  | array => ["[" ++ ", ".intercalate numerals ++ "]"]
  | first k => numerals.take k.toNat

end Style

/-- The words ask for the command on its integers and for the style. Options may stand before, between
and after the integers. -/
structure Spells (words : List Word) : Prop where
  numerals : words.filterMap Word.plain? = c.numerals
  flags : (words.filterMap Word.flag?).Perm (c.flags ++ style.flags)
  take : words.filterMap (Word.value? .take) = style.take.toList.map fun k => toString k.toNat
  color : words.filterMap (Word.value? .color) = []

def usual : List Word :=
  c.numerals.map .plain ++ (c.flags ++ style.flags).map .flag ++
    style.take.toList.map fun k => .valued .take (toString k.toNat) false

theorem spells_usual : Spells c style (usual c style) := by
  rcases c with n | ⟨start, bound⟩ | ⟨first, last, _ | _⟩
  all_goals cases style <;> exact ⟨rfl, .refl _, rfl, rfl⟩

section Reading

variable {c : IntegerCommand} {style : Style} {words : List Word}

theorem iterates_subcommand (c : IntegerCommand) : (Level.sub c.subcommand).iterates = true := by
  cases c <;> rfl

theorem plain_of_mem_numerals {text : String} (h : text ∈ c.numerals) : Plain text := by
  have hinteger : ∃ n : Int, text = toString n := by
    cases c <;> simp only [numerals, List.mem_cons, List.not_mem_nil, or_false] at h
    case times => exact ⟨_, h⟩
    all_goals exact h.elim (⟨_, ·⟩) (⟨_, ·⟩)
  obtain ⟨n, rfl⟩ := hinteger
  exact plain_toString_int n

theorem long_of_mem_flags {f : Flag} (h : f ∈ c.flags ++ style.flags) :
    (Level.sub c.subcommand).long? (Named.flag f).longName = some (.flag f) := by
  rcases c with n | ⟨start, bound⟩ | ⟨first, last, _ | _⟩
  all_goals cases style <;> cases f <;> simp [flags, Style.flags] at h <;> rfl

theorem Spells.fits (h : Spells c style words) : ∀ word ∈ words, word.Fits (.sub c.subcommand) := by
  intro word hword
  cases word with
  | plain text =>
      refine takes_of_plain (iterates_subcommand c) (plain_of_mem_numerals (c := c) ?_)
      rw [← h.numerals]
      exact List.mem_filterMap.2 ⟨_, hword, rfl⟩
  | flag f =>
      apply long_of_mem_flags
      rw [← h.flags.mem_iff]
      exact List.mem_filterMap.2 ⟨_, hword, rfl⟩
  | valued v text joined =>
      have hvalue : text ∈ words.filterMap (Word.value? v) :=
        List.mem_filterMap.2 ⟨_, hword, if_pos rfl⟩
      cases v with
      | color =>
          rw [h.color] at hvalue
          cases hvalue
      | take =>
          rw [h.take] at hvalue
          obtain ⟨k, -, rfl⟩ := List.mem_map.1 hvalue
          exact ⟨by cases c <;> rfl, fun _ => takes_of_plain (iterates_subcommand c) (plain_toString_nat _)⟩

def command (mode : Mode) : IntegerCommand → Command
  | times n => .times (toString n.toInt) mode
  | upto start bound => .upto (toString start.toInt) (toString bound.toInt) mode
  | each first last exclusive => .each (toString first.toInt) (some (toString last.toInt)) exclusive mode

theorem command_scan {flags : List Flag} (h : ∀ f, f ∈ flags ↔ f ∈ c.flags ++ style.flags) :
    Scan.command c.subcommand
      { take := style.take.map UInt64.toNat, flags := flags, positionals := c.numerals } =
        .ok (c.command style.mode) := by
  rcases c with n | ⟨start, bound⟩ | ⟨first, last, _ | _⟩
  all_goals
    cases style <;> simp [Scan.command, Scan.mode, h, IntegerCommand.flags, Style.flags, Style.take,
      Style.mode, command, subcommand, numerals, Subcommand.required]

theorem nodup_flags : (c.flags ++ style.flags).Nodup := by
  rcases c with n | ⟨start, bound⟩ | ⟨first, last, _ | _⟩
  all_goals cases style <;> simp [flags, Style.flags]

theorem Spells.parse (h : Spells c style words) :
    Arguments.parse (c.name :: words.flatMap Word.texts) = .ok ⟨c.command style.mode, .auto⟩ := by
  have hname : Subcommand.named? c.name = some c.subcommand := by
    cases c <;> rfl
  have hplaces : c.numerals.length ≤ c.subcommand.positionals := by
    cases c <;> exact Nat.le_refl _
  have hcolor : (words.filterMap (Word.value? .color)).map Color.read? =
      (none : Option Color).toList.map some := by
    rw [h.color]
    rfl
  have htake : (words.filterMap (Word.value? .take)).map count? =
      (style.take.map UInt64.toNat).toList.map some := by
    rw [h.take]
    cases style with
    | first k => exact congrArg ([·]) (count_toString k)
    | _ => rfl
  have hflags : ∀ f, f ∈ (words.filterMap Word.flag?).reverse ↔ f ∈ c.flags ++ style.flags := by
    intro f
    rw [List.mem_reverse, h.flags.mem_iff]
  have hnumerals : words.filterMap Word.plain? ++ (none : Option (List String)).getD [] = c.numerals := by
    rw [h.numerals]
    exact List.append_nil _
  have hsub := parseSub_words h.fits hnumerals hplaces (h.flags.nodup_iff.2 nodup_flags) hcolor htake
    (command_scan hflags)
  rw [Option.elim_none, List.append_nil] at hsub
  have hstart : Settles {} {} := ⟨rfl, rfl, rfl⟩
  exact hstart.parseTop hname hsub

end Reading

section Printing

def call : IntegerCommand → Call
  | times n => ⟨.int n, "times", []⟩
  | upto start bound => ⟨.int start, "upto", [.int bound]⟩
  | each first last exclusive => ⟨.range (.int first) (.int last) exclusive, "each", []⟩

theorem print_command (mode : Mode) : (c.command mode).print = c.call.run mode := by
  have hread (n : Int64) : Literal.read (toString n.toInt) = .int n := Literal.read_integerText n
  cases c with
  | times n => rw [command, Command.print, Call.times, hread, Call.print, call]
  | upto start bound => rw [command, Command.print, Call.upto, hread, hread, Call.print, call]
  | each first last exclusive =>
      have heach : Call.each (toString first.toInt) (some (toString last.toInt)) exclusive =
          .ok (call (.each first last exclusive)) := by
        rw [Call.each, Option.map_some, hread, hread]
        rfl
      rw [command, Command.print, heach, Call.print]

theorem iterationEntry_call : IterationEntry c.call.receiver c.call.method := by
  cases c with
  | times n => exact .times n
  | upto start bound => exact .upto start
  | each first last exclusive => exact .range (.int first) (.int last) exclusive

theorem exists_callCourse_eq : ∃ ns : List Int64, ns.map Int64.toInt = c.elements ∧
    callCourse c.call.receiver c.call.method c.call.args =
      .ofList (ns.map fun n => [.int n]) (.ok c.call.receiver) := by
  cases c with
  | times n => exact ⟨_, Integer.map_toInt_numbers_times n, rfl⟩
  | upto start bound => exact ⟨_, Integer.map_toInt_numbers_upto start bound, rfl⟩
  | each first last exclusive =>
      have hlast := last.toInt_le
      have hstop : last.toInt + (if exclusive then 0 else 1) =
          if exclusive then last.toInt else last.toInt + 1 := by
        cases exclusive <;> simp
      refine ⟨_, ?_, callCourse_integerRange first last exclusive⟩
      rw [hstop]
      refine Integer.map_toInt_numbers_toNat first.minValue_le_toInt ?_ first.toInt_le
      split <;> omega

theorem checkBounded_call (mode : Mode) : c.call.checkBounded mode = .ok () := by
  apply Call.checkBounded_of_not_endless
  rintro ⟨first, excludeEnd, hrange⟩
  cases c <;> cases hrange

theorem lines_mode {ns : List Int64} (hns : ns.map Int64.toInt = c.elements) :
    style.mode.lines ((ns.map fun n => [.int n]).map Value.pack) (.ok c.call.receiver) =
      style.print (c.elements.map toString) c.result := by
  have hnumerals : ((ns.map fun n => [.int n]).map Value.pack).map Value.inspect =
      c.elements.map toString := by
    rw [← hns, List.map_map, List.map_map, List.map_map]
    rfl
  have hresult : c.call.receiver.inspect = c.result := by
    cases c <;> rfl
  cases style with
  | lines => rw [Style.mode, Mode.lines, Mode.resultLine, hnumerals, hresult, Style.print]
  | array => rw [Style.mode, Mode.lines, Mode.arrayLine, Value.inspect_array, hnumerals, Style.print]
  | first k => rw [Style.mode, Mode.lines, List.map_take, hnumerals, Style.print]

theorem outputs_call : (c.call.run style.mode).Outputs none .start
    (printed (style.print (c.elements.map toString) c.result)) (.ok ()) := by
  have hentry := c.iterationEntry_call
  obtain ⟨ns, hns, hcourse⟩ := c.exists_callCourse_eq
  have hrecords := (Attempt.records_iff (w := .start)
    (follows_call _ _ c.call.args hentry.iterationCall) rfl).2 ⟨_, hcourse, rfl⟩
  have hargs : c.call.method ≠ "each" ∨ c.call.args = [] := by
    cases c <;> simp [call]
  obtain ⟨w', h⟩ := Call.emitsAll_run_of_shows hentry hargs (c.checkBounded_call style.mode) rfl rfl
    (.all hrecords style.mode)
  rw [lines_mode c style hns] at h
  have houtcome : style.mode.outcome ((ns.map fun n => [.int n]).map Value.pack) (.ok c.call.receiver) =
      .ok () := by
    cases style with
    | first k => exact ite_self _
    | _ => rfl
  rw [houtcome] at h
  exact Printing.outputs_iff.2 ⟨_, w', h, rfl⟩

end Printing

/-- Let the arguments be a command on integers in decimal, with the options of a style in any places. The
arguments are read, and the program run comes to its end with exit code zero and no report. What it prints
is just the integers that the command goes through, in this style. -/
theorem run_prints_elements :
    Spells c style (usual c style) ∧ ∀ words, Spells c style words →
      ∃ i, Arguments.parse (c.name :: words.flatMap Word.texts) = .ok i ∧
        ∀ o, (∃ n, Program.run n i none = some o) ↔
          o = ⟨0, printed (style.print (c.elements.map toString) c.result), ""⟩ := by
  refine ⟨spells_usual c style, fun words hwords => ⟨_, hwords.parse, fun o => ?_⟩⟩
  rw [Program.exists_run_eq_some_iff, print_command]
  have houtputs := outputs_call c style
  constructor
  · rintro ⟨bytes, r, h, rfl⟩
    obtain ⟨rfl, rfl⟩ := h.unique houtputs
    rfl
  · rintro rfl
    exact ⟨_, _, houtputs, rfl⟩

theorem run_prints_elements_smallest :
    let c := each Int64.minValue (Int64.minValue + 2) true
    let words : List Word := [.plain "-9223372036854775808", .flag .exclusive, .valued .take "5" true,
      .plain "-9223372036854775806"]
    Spells c (.first 5) words ∧ ∃ i n, Arguments.parse
        ["each", "-9223372036854775808", "--exclusive", "--take=5", "-9223372036854775806"] = .ok i ∧
      Program.run n i none =
        some ⟨0, printed ["-9223372036854775808", "-9223372036854775807"], ""⟩ := by
  intro c words
  have hspells : Spells c (.first 5) words :=
    ⟨by decide +kernel, .refl _, by decide +kernel, rfl⟩
  obtain ⟨i, hi, hrun⟩ := (run_prints_elements c (.first 5)).2 words hspells
  have hlines : Style.print (c.elements.map toString) c.result (.first 5) =
      ["-9223372036854775808", "-9223372036854775807"] := by
    decide +kernel
  rw [hlines] at hrun
  obtain ⟨n, hn⟩ := (hrun _).2 rfl
  exact ⟨hspells, i, n, hi, hn⟩

end IntegerCommand

end Stepwise
