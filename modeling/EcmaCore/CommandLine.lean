/-
This file holds the command line: what its arguments ask for, and the output and exit
code of what they ask for. Arguments are taken in order. An option that takes a value
has it attached or as the next argument, which must not look like an option itself;
the options that are not lists may be given once. The first argument that breaks a
rule ends the reading, and so does a request for the version or for help.
-/

import EcmaCore.Conformance.Suite

namespace EcmaCore.CommandLine

/-- The forms of a report. -/
inductive Format
  | text
  | json
deriving DecidableEq, Repr

/-- What the arguments have set so far. -/
structure Options where
  filter : Option String := none
  list : Bool := false
  rejects : List String := []
  accepts : List String := []
  format : Option Format := none
deriving DecidableEq, Repr

/-- An option that takes a value. -/
inductive Setting
  | filter
  | reject
  | accept
  | format
deriving DecidableEq, Repr

/-- The options with a setting's value stored. A list takes any number of values; anything else is
stored once. -/
def Options.store? (options : Options) (value : String) : Setting → Option Options
  | .filter => if options.filter.isSome then none else some { options with filter := some value }
  | .reject => some { options with rejects := options.rejects ++ [value] }
  | .accept => some { options with accepts := options.accepts ++ [value] }
  | .format =>
    if options.format.isSome then none
    else if value = "text" then some { options with format := some .text }
    else if value = "json" then some { options with format := some .json }
    else none

/-- The options with the flag for the list of names set, which may be done once. -/
def Options.withList? (options : Options) : Option Options :=
  if options.list then none else some { options with list := true }

/-- What one argument comes to. -/
inductive Reaction
  | settled (options : Options)
  | awaits (setting : Setting) (options : Options)
  | ends
  | version
  | help
  | misuse

/-- The options are settled, or a rule is broken. -/
def Reaction.ofOptions : Option Options → Reaction
  | some options => .settled options
  | none => .misuse

/-- The setting that a long name names. -/
def setting? (name : String) : Option Setting :=
  if name = "filter" then some .filter
  else if name = "json-reject" then some .reject
  else if name = "json-accept" then some .accept
  else if name = "format" then some .format
  else none

/-- The reaction to a long option without its dashes. -/
def long (options : Options) (text : List Char) : Reaction :=
  let name := String.ofList (text.takeWhile (· ≠ '='))
  let attached := match text.dropWhile (· ≠ '=') with
    | [] => none
    | _ :: value => some (String.ofList value)
  match setting? name, attached with
  | some setting, some value => .ofOptions (options.store? value setting)
  | some setting, none => .awaits setting options
  | none, some _ => .misuse
  | none, none =>
    if name = "list" then .ofOptions options.withList?
    else if name = "version" then .version
    else if name = "help" then .help
    else .misuse

/-- The reaction to the letters after a single dash. The letter of an option that takes a value
takes all that follows it. -/
def short (options : Options) : List Char → Reaction
  | [] => .settled options
  | 'V' :: _ => .version
  | 'h' :: _ => .help
  | 'l' :: rest =>
    match options.withList? with
    | some options => short options rest
    | none => .misuse
  | 'f' :: rest =>
    match rest with
    | [] => .awaits .filter options
    | '=' :: value => .ofOptions (options.store? (String.ofList value) .filter)
    | value => .ofOptions (options.store? (String.ofList value) .filter)
  | _ => .misuse

/-- The reaction to an argument that is not the value of an option. -/
def reaction (options : Options) (argument : String) : Reaction :=
  match argument.toList with
  | ['-', '-'] => .ends
  | '-' :: '-' :: text => long options text
  | '-' :: letter :: rest => short options (letter :: rest)
  | _ => .misuse

/-- The argument cannot be the value of an option that stands before it. -/
def looksLikeOption (argument : String) : Bool :=
  match argument.toList with
  | '-' :: _ :: _ => true
  | _ => false

/-- What a command line asks for. -/
inductive Request
  | run (options : Options)
  | version
  | help
  | misuse
deriving DecidableEq, Repr

/-- Reads the arguments after what was set so far. -/
def readArguments (options : Options) : List String → Request
  | [] => .run options
  | argument :: rest =>
    match reaction options argument with
    | .settled options => readArguments options rest
    | .awaits setting options =>
      match rest with
      | [] => .misuse
      | value :: others =>
        if looksLikeOption value then .misuse
        else match options.store? value setting with
          | some options => readArguments options others
          | none => .misuse
    | .ends => if rest.isEmpty then .run options else .misuse
    | .version => .version
    | .help => .help
    | .misuse => .misuse

/-- The suite that options select: the builtin checks, then the texts to refuse, then the texts to
accept, as far as their names hold the filter. -/
def Options.suite (options : Options) (warns : Bool := false) : Suite :=
  let all := (Suite.builtin warns).append
    (options.rejects.map Check.invalidJson ++ options.accepts.map Check.validJson)
  match options.filter with
  | some pattern => all.filter pattern
  | none => all

/-- How a command ends: its exit code and what it writes. -/
structure Ending where
  code : Nat
  output : String
deriving DecidableEq, Repr

/-- The levels of calls that the checks of a command may use. -/
def depth : Nat := 1000

/-- What the command can be asked, as it says on request. -/
def helpText : String := String.join
  ["Run JSON.parse and Array.prototype.map conformance checks\n\n",
    "Usage: js-conform [OPTIONS]\n\n",
    "Options:\n",
    "  -f, --filter <FILTER>     Run only checks whose name contains this text\n",
    "  -l, --list                Print the check names and exit\n",
    "      --json-reject <TEXT>  Extra text that JSON.parse must reject (repeatable)\n",
    "      --json-accept <TEXT>  Extra text that JSON.parse must accept (repeatable)\n",
    "      --format <FORMAT>     Report format [default: text] [possible values: text, json]\n",
    "  -h, --help                Print help\n",
    "  -V, --version             Print version\n"]

/-- Runs the suite that options select, or lists its names. -/
def execute (options : Options) (warns : Bool := false) : Ending :=
  let suite := options.suite warns
  if options.list then ⟨0, String.join (suite.names.map (· ++ "\n"))⟩
  else
    let report := suite.run depth
    let text := match options.format.getD .text with
      | .text => report.text
      | .json => report.document
    ⟨if report.isSuccess then 0 else 1, text ++ "\n"⟩

/-- Does what a command line asks for. Misuse has the exit code 2. Whether the checks show warnings
is set outside the command line. -/
def run (arguments : List String) (warns : Bool := false) : Ending :=
  match readArguments {} arguments with
  | .run options => execute options warns
  | .version => ⟨0, "js-conform 0.1.0\n"⟩
  | .help => ⟨0, helpText⟩
  | .misuse => ⟨2, ""⟩

end EcmaCore.CommandLine
