/-
This file proves what a command line comes to. Its arguments settle which texts are to be
refused, which are to be accepted, and which names to look at, and every choice of these can
be asked for. The checks that are selected keep their order, and the exit code says whether
one of them found something. The builtin checks never do, so it is the texts that decide.
-/

import EcmaCore.CommandLine
import EcmaCore.Proofs.Conformance.Judging
import EcmaCore.Proofs.Conformance.Reports
import Mathlib.Data.List.Infix

namespace EcmaCore

/-- A pattern occurs in a text if it is a stretch of it. -/
theorem occursIn_iff {pattern text : List Char} :
    occursIn pattern text = true ↔ pattern <:+: text := by
  induction text with
  | nil => rw [occursIn, List.isEmpty_iff, List.infix_nil]
  | cons char rest inductionHypothesis =>
    rw [occursIn, Bool.or_eq_true, List.isPrefixOf_iff_prefix, inductionHypothesis,
      List.infix_cons_iff]

namespace CommandLine

variable {options : Options} {rest : List String}

/-! ### Arguments -/

/-- The long name of a setting. -/
def Setting.name : Setting → String
  | .filter => "filter"
  | .reject => "json-reject"
  | .accept => "json-accept"
  | .format => "format"

/-- The argument that gives a setting its value. -/
def Setting.argument (setting : Setting) (value : String) : String :=
  "--" ++ setting.name ++ "=" ++ value

/-- The name of a form of a report. -/
def Format.name : Format → String
  | .text => "text"
  | .json => "json"

/-- Arguments that ask for what the options say. -/
def Options.arguments (options : Options) : List String :=
  options.filter.toList.map Setting.filter.argument ++
    ((if options.list then ["--list"] else []) ++
      (options.rejects.map Setting.reject.argument ++
        (options.accepts.map Setting.accept.argument ++
          options.format.toList.map fun format => Setting.format.argument format.name)))

/-- A value that is attached to the long name of a setting is stored, whatever it looks like. -/
theorem reaction_argument (options : Options) (setting : Setting) (value : String) :
    reaction options (setting.argument value) = .ofOptions (options.store? value setting) := by
  have spelled : (setting.argument value).toList =
      '-' :: '-' :: (setting.name.toList ++ '=' :: value.toList) := by
    simp [Setting.argument]
  rw [reaction, spelled]
  cases setting <;> simp [Setting.name, long, setting?]

theorem readArguments_argument (setting : Setting) (value : String) :
    readArguments options (setting.argument value :: rest) =
      match options.store? value setting with
      | some stored => readArguments stored rest
      | none => .misuse := by
  rw [readArguments.eq_def]
  simp only [reaction_argument]
  cases options.store? value setting <;> rfl

theorem readArguments_list (options : Options) :
    readArguments options ("--list" :: rest) =
      match options.withList? with
      | some listing => readArguments listing rest
      | none => .misuse := by
  have read : reaction options "--list" = .ofOptions options.withList? := rfl
  rw [readArguments.eq_def]
  simp only [read]
  cases options.withList? <;> rfl

/-- The values of a setting that is a list are added one after another. -/
theorem readArguments_values {setting : Setting} (stored : List String → Options)
    (stores : ∀ before value, (stored before).store? value setting =
      some (stored (before ++ [value]))) (before values : List String) :
    readArguments (stored before) (values.map setting.argument ++ rest) =
      readArguments (stored (before ++ values)) rest := by
  induction values generalizing before with
  | nil => rw [List.append_nil, List.map_nil, List.nil_append]
  | cons value values inductionHypothesis =>
    rw [List.map_cons, List.cons_append, readArguments_argument, stores]
    simp only
    rw [inductionHypothesis, List.append_assoc, List.singleton_append]

/-- Every choice of options can be asked for. -/
theorem readArguments_arguments (options : Options) :
    readArguments {} options.arguments = .run options := by
  obtain ⟨filter, list, rejects, accepts, format⟩ := options
  have filtered (rest : List String) :
      readArguments {} (filter.toList.map Setting.filter.argument ++ rest) =
        readArguments { filter } rest := by
    cases filter with
    | none => rfl
    | some pattern => exact readArguments_argument .filter pattern
  have listed (rest : List String) :
      readArguments { filter } ((if list then ["--list"] else []) ++ rest) =
        readArguments { filter, list } rest := by
    cases list with
    | false => rfl
    | true => exact readArguments_list { filter }
  have rejected (rest : List String) :
      readArguments { filter, list } (rejects.map Setting.reject.argument ++ rest) =
        readArguments { filter, list, rejects } rest :=
    readArguments_values (fun rejects => { filter, list, rejects }) (fun _ _ => rfl) [] rejects
  have accepted (rest : List String) :
      readArguments { filter, list, rejects } (accepts.map Setting.accept.argument ++ rest) =
        readArguments { filter, list, rejects, accepts } rest :=
    readArguments_values (fun accepts => { filter, list, rejects, accepts }) (fun _ _ => rfl) []
      accepts
  rw [Options.arguments, filtered, listed, rejected, accepted]
  cases format with
  | none => rfl
  | some format =>
    refine (readArguments_argument .format format.name).trans ?_
    cases format <;> rfl

/-! ### The selected checks -/

/-- The options let a name through: it holds the filter, if there is one. -/
def Options.Selects (options : Options) (name : String) : Prop :=
  ∀ pattern ∈ options.filter, pattern.toList <:+: name.toList

instance (options : Options) (name : String) : Decidable (options.Selects name) :=
  inferInstanceAs (Decidable (∀ pattern ∈ options.filter, pattern.toList <:+: name.toList))

/-- The checks that options select are some of all, in their order. -/
theorem checks_suite (options : Options) (warns : Bool) :
    (options.suite warns).checks =
      ((Suite.builtin warns).checks ++ (options.rejects.map Check.invalidJson ++
        options.accepts.map Check.validJson)).filter fun check => options.Selects check.name := by
  rw [Options.suite, Suite.append]
  cases given : options.filter with
  | none =>
    refine (List.filter_eq_self.mpr fun check _ => decide_eq_true fun pattern same => ?_).symm
    rw [given] at same
    cases same
  | some pattern =>
    refine List.filter_congr fun check _ => ?_
    rw [Bool.eq_iff_iff, occursIn_iff, decide_eq_true_iff, Options.Selects, given]
    exact ⟨fun occurs _ same => Option.some.inj same ▸ occurs, fun occurs => occurs pattern rfl⟩

/-- The run of the selected checks is a success exactly if the texts are what they are given as. -/
theorem isSuccess_run_suite (options : Options) (warns : Bool) :
    ((options.suite warns).run depth).isSuccess = true ↔
      (∀ text ∈ options.rejects, options.Selects (Check.invalidJson text).name →
        Json.Refuses .syntaxError text) ∧
      ∀ text ∈ options.accepts, options.Selects (Check.validJson text).name →
        Json.Accepts text := by
  have builtin : ∀ check ∈ (Suite.builtin warns).checks, options.Selects check.name →
      (check.conduct depth).passed = true := fun check member _ =>
    Suite.passed_builtin 998 warns check member
  have deep : depth = 999 + 1 := rfl
  rw [Report.isSuccess_iff, Suite.run, List.forall_mem_map, checks_suite]
  simp only [List.mem_filter, decide_eq_true_iff, and_imp, List.forall_mem_append,
    List.forall_mem_map, deep, Check.passed_invalidJson, Check.passed_validJson]
  exact and_iff_right builtin

/-- The code of a run is one if some selected text is not what it is given as, and else zero. -/
theorem code_execute {options : Options} (runs : options.list = false) (warns : Bool) :
    (execute options warns).code =
      if ((options.suite warns).run depth).isSuccess then 0 else 1 := by
  rw [execute, runs]
  rfl

/-- To show warnings is no matter of names. -/
theorem names_builtin (warns : Bool) :
    (Suite.builtin warns).names = Suite.builtin.names := by
  simp only [Suite.names, Suite.builtin, List.map_append, List.map_singleton, Check.mapping]

/-- The names of the selected checks: the builtin ones, those of the texts to refuse, those of the
texts to accept. -/
theorem names_suite (options : Options) (warns : Bool) :
    (options.suite warns).names =
      (Suite.builtin.names ++ (options.rejects.map ("JSON.parse rejects " ++ ·) ++
        options.accepts.map ("JSON.parse accepts " ++ ·))).filter fun name =>
          options.Selects name := by
  rw [← names_builtin warns, Suite.names, Suite.names, checks_suite, List.filter_append,
    List.filter_append, List.map_append, List.map_append, List.filter_append, List.filter_append,
    List.filter_map, List.filter_map, List.filter_map, List.filter_map, List.filter_map,
    List.map_map, List.map_map]
  rfl

/-! ### What a command line comes to -/

/-- Some selected text is not what it is given as: one to refuse is accepted or only goes too deep,
or one to accept is not accepted. -/
def Options.Exposes (options : Options) : Prop :=
  (∃ text ∈ options.rejects, options.Selects ("JSON.parse rejects " ++ text) ∧
    (Json.Accepts text ∨ Json.Refuses .rangeError text)) ∨
  ∃ text ∈ options.accepts, options.Selects ("JSON.parse accepts " ++ text) ∧
    ¬ Json.Accepts text

theorem exposes_iff (options : Options) (warns : Bool) :
    options.Exposes ↔ ((options.suite warns).run depth).isSuccess = false := by
  rw [← Bool.not_eq_true, isSuccess_run_suite, not_and_or]
  simp only [not_forall, exists_prop, Json.not_refuses_syntaxError_iff]
  rfl

/-- Every choice of options can be asked for on the command line. If a list of names is asked for,
the names of the selected checks are written, in order, and the exit code is zero. If not, then in
either form of the report the code is one if some selected text is not what it is given as, and
zero in all other cases. The builtin checks have no part in this, since they pass, and it makes no
difference whether warnings are shown. A check of a text to accept passes for the texts of the
grammar that nest at most 512 deep, one of a text to refuse for those that are refused with an error
of syntax. No text passes as both, and it passes as neither if it is refused for going too deep. -/
theorem run_verdict :
    (∀ options, ∃ arguments, readArguments {} arguments = .run options) ∧
    (∀ arguments options warns, readArguments {} arguments = .run options →
      (options.list = false →
        ((run arguments warns).code = 1 ↔ options.Exposes) ∧
        ((run arguments warns).code = 0 ↔ ¬ options.Exposes)) ∧
      (options.list = true → run arguments warns = ⟨0, String.join (((Suite.builtin.names ++
        (options.rejects.map ("JSON.parse rejects " ++ ·) ++
          options.accepts.map ("JSON.parse accepts " ++ ·))).filter fun name =>
            options.Selects name).map (· ++ "\n"))⟩)) ∧
    (∀ warns, ∀ check ∈ (Suite.builtin warns).checks, (check.conduct depth).passed = true) ∧
    ∀ text,
      (((Check.validJson text).conduct depth).passed = true ↔
        ∃ tree, Json.Grammar.Document tree (unitsOf text) ∧ tree.depth ≤ 512) ∧
      (((Check.invalidJson text).conduct depth).passed = true ↔ Json.Refuses .syntaxError text) ∧
      ¬ (((Check.validJson text).conduct depth).passed = true ∧
        ((Check.invalidJson text).conduct depth).passed = true) ∧
      (((Check.validJson text).conduct depth).passed = false ∧
        ((Check.invalidJson text).conduct depth).passed = false ↔ Json.Refuses .rangeError text) ∧
      (Json.Refuses .rangeError text ↔ Json.Grammar.TooDeep (unitsOf text)) := by
  refine ⟨fun options => ⟨options.arguments, readArguments_arguments options⟩,
    fun arguments options warns accepted => ⟨fun runs => ?_, fun lists => ?_⟩,
    Suite.passed_builtin 998, fun text => ?_⟩
  · rw [run, accepted]
    simp only [code_execute runs, exposes_iff options warns]
    cases ((options.suite warns).run depth).isSuccess <;> decide
  · rw [run, accepted]
    simp only [execute, lists, if_true, names_suite]
  · have valid : ((Check.validJson text).conduct depth).passed = true ↔ Json.Accepts text :=
      Check.passed_validJson 999 text
    have invalid : ((Check.invalidJson text).conduct depth).passed = true ↔
        Json.Refuses .syntaxError text := Check.passed_invalidJson 999 text
    refine ⟨valid.trans Json.accepts_iff_document, invalid, ?_, ?_, Json.refuses_rangeError_iff⟩
    · rintro ⟨passes, passesToo⟩
      exact (valid.mp passes).not_refuses (invalid.mp passesToo)
    · rw [← Bool.not_eq_true, ← Bool.not_eq_true, valid.not, invalid.not,
        Json.not_refuses_syntaxError_iff]
      constructor
      · rintro ⟨refused, accepts | deep⟩
        · exact absurd accepts refused
        · exact deep
      · exact fun deep => ⟨fun accepts => accepts.not_refuses deep, Or.inr deep⟩

/-- A text to refuse is accepted, and the command says so unless it is to look at other names or
only to list the names. -/
theorem run_verdict_on_accepted_text :
    (run ["--json-reject", "[]"]).code = 1 ∧
      (run ["--json-reject", "[]", "--filter=accepts"]).code = 0 ∧
      (run ["-l", "--filter=map", "--json-reject=a map"]) =
        ⟨0, "Array.prototype.map ignores inherited index accessor\nJSON.parse rejects a map\n"⟩ := by
  obtain ⟨_, verdict, _⟩ := run_verdict
  have accepts : Json.Accepts "[]" := Json.accepts_iff.mpr ⟨.array [], rfl⟩
  refine ⟨?_, ?_, ?_⟩
  · obtain ⟨runs, _⟩ := verdict ["--json-reject", "[]"] { rejects := ["[]"] } false
      (by decide +kernel)
    exact (runs rfl).1.mpr (Or.inl ⟨"[]", List.mem_singleton_self _, nofun, Or.inl accepts⟩)
  · obtain ⟨runs, _⟩ := verdict ["--json-reject", "[]", "--filter=accepts"]
      { rejects := ["[]"], filter := some "accepts" } false (by decide +kernel)
    refine (runs rfl).2.mpr ?_
    rintro (⟨text, member, selected, _⟩ | ⟨text, member, _⟩)
    · rw [List.mem_singleton.mp member] at selected
      exact absurd selected (by decide +kernel)
    · cases member
  · obtain ⟨_, lists⟩ := verdict ["-l", "--filter=map", "--json-reject=a map"]
      { rejects := ["a map"], filter := some "map", list := true } false (by decide +kernel)
    rw [lists rfl]
    decide +kernel

end CommandLine

end EcmaCore
