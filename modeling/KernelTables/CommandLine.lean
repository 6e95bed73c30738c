/-!
# The command line

A command line names one command.  Options may stand before the command or behind it; where one
stands in both places, the one behind wins.

* An option with a value takes it from its own word (`--output=FILE`, `-oFILE`) or from the next
  one.  The value is never empty and, as a word of its own, never looks like an option.
* On one side of the command, an option with a value is given once, and asking for more and for
  less diagnostic output excludes each other.
* Options are written out in full; only one-letter options may be run together.
-/

namespace KernelTables

/-- What a command line asks for. -/
inductive Command
  /-- The task report, perhaps in the short layout. -/
  | tasks (basic : Bool)
  /-- The report of open files. -/
  | files
  /-- The symbol report. -/
  | symbols
  /-- All three, one after another. -/
  | all
  deriving DecidableEq, Repr

/-- Options that come with a value. -/
inductive ValueOption
  /-- Where the configuration is. -/
  | config
  /-- Where the process table is. -/
  | procRoot
  /-- Where the records go. -/
  | output
  deriving DecidableEq, Repr

/-- The values given for a command. -/
structure Settings where
  /-- The configuration file. -/
  config : Option String := none
  /-- The root of the process table. -/
  procRoot : Option String := none
  /-- The output file. -/
  output : Option String := none
  deriving DecidableEq, Repr

/-- What is wrong with a command line. -/
inductive UsageError
  /-- No command is named. -/
  | noCommand
  /-- A word is neither a command nor an option. -/
  | unknownWord (word : String)
  /-- There is no such option here. -/
  | unknownOption (word : String)
  /-- An option lacks its value. -/
  | noValue (option : ValueOption)
  /-- An option that takes no value has one. -/
  | needlessValue (word : String)
  /-- An option is given twice. -/
  | repeated (word : String)
  /-- More and less diagnostic output are asked for at once. -/
  | contradictory
  deriving DecidableEq, Repr

/-- A command line that can be acted upon. -/
inductive Invocation
  /-- Explain the command line. -/
  | help
  /-- Carry out a command. -/
  | run (settings : Settings) (command : Command)
  deriving DecidableEq, Repr

namespace CommandLine

/-- The long name of an option with a value. -/
def optionName : ValueOption → String
  | .config => "--config"
  | .procRoot => "--proc-root"
  | .output => "--output"

/-- The options on one side of the command. -/
structure Side where
  /-- The values given. -/
  settings : Settings := {}
  /-- Whether the short layout is asked for. -/
  basic : Bool := false
  /-- Whether more diagnostic output is asked for. -/
  verbose : Bool := false
  /-- Whether less diagnostic output is asked for. -/
  quiet : Bool := false

/-- What reading a word came to. -/
inductive Step
  /-- Reading goes on. -/
  | next (side : Side)
  /-- The next word is the value of an option. -/
  | await (side : Side) (option : ValueOption)
  /-- Help is asked for, and nothing else matters. -/
  | help

/-! ## Single options -/

/-- The value given so far for an option. -/
def valueOf (settings : Settings) : ValueOption → Option String
  | .config => settings.config
  | .procRoot => settings.procRoot
  | .output => settings.output

/-- Sets the value of an option. -/
def withValue (settings : Settings) (value : String) : ValueOption → Settings
  | .config => { settings with config := some value }
  | .procRoot => { settings with procRoot := some value }
  | .output => { settings with output := some value }

/-- Takes in the value of an option. -/
def setValue (side : Side) (option : ValueOption) (value : String) : Except UsageError Side :=
  if value.isEmpty then .error (.noValue option)
  else if (valueOf side.settings option).isSome then .error (.repeated (optionName option))
  else .ok { side with settings := withValue side.settings value option }

/-- An option that has its value in its own word, or else waits for the next one. -/
def valued (side : Side) (option : ValueOption) : Option String → Except UsageError Step
  | none => .ok (.await side option)
  | some value => (setValue side option value).map .next

/-- An option without a value. -/
def plain (word : String) (step : Step) : Option String → Except UsageError Step
  | none => .ok step
  | some _ => .error (.needlessValue word)

/-- Takes in an option written out in full, with the value behind its equals sign.  The short
layout can be asked for only where `command` is the task report. -/
def longOption (command : Option Command) (side : Side) (name : String) (value : Option String) :
    Except UsageError Step :=
  match name with
  | "config" => valued side .config value
  | "proc-root" => valued side .procRoot value
  | "output" => valued side .output value
  | "verbose" => plain name (.next { side with verbose := true }) value
  | "quiet" => plain name (.next { side with quiet := true }) value
  | "help" => plain name .help value
  | "basic" =>
    match command with
    | some (.tasks _) =>
      if side.basic then .error (.repeated name)
      else plain name (.next { side with basic := true }) value
    | _ => .error (.unknownOption name)
  | _ => .error (.unknownOption name)

/-- Takes in one-letter options that are run together.  The value of an option may follow its
letter, with or without an equals sign. -/
def letters (side : Side) : List Char → Except UsageError Step
  | [] => .ok (.next side)
  | 'v' :: rest => letters { side with verbose := true } rest
  | 'q' :: rest => letters { side with quiet := true } rest
  | 'h' :: _ => .ok .help
  | 'o' :: [] => .ok (.await side .output)
  | 'o' :: '=' :: rest => valued side .output (some (String.ofList rest))
  | 'o' :: rest => valued side .output (some (String.ofList rest))
  | c :: _ => .error (.unknownOption (String.ofList ['-', c]))

/-! ## Words -/

/-- How a word of a command line reads. -/
inductive Word
  /-- Two dashes: only operands follow. -/
  | endOfOptions
  /-- An option written out in full. -/
  | long (name : String) (value : Option String)
  /-- One-letter options. -/
  | short (letters : List Char)
  /-- Anything else; a lone dash is no option. -/
  | operand (text : String)

/-- Reads a word. -/
def Word.of (word : String) : Word :=
  match word.toList with
  | ['-', '-'] => endOfOptions
  | '-' :: '-' :: rest =>
    match rest.span (· != '=') with
    | (name, []) => long (String.ofList name) none
    | (name, _ :: value) => long (String.ofList name) (some (String.ofList value))
  | '-' :: c :: rest => short (c :: rest)
  | _ => operand word

/-- The command of a name. -/
def command? : String → Option Command
  | "tasks" => some (.tasks false)
  | "files" => some .files
  | "ksyms" => some .symbols
  | "all" => some .all
  | _ => none

/-- Checks one side of the command once all of it has been read. -/
def finish (side : Side) : Except UsageError Side :=
  if side.verbose && side.quiet then .error .contradictory else .ok side

/-- Reads the words behind a command.  `waiting` is the option that the next word belongs to.  The
answer is `none` if help is asked for. -/
def behind (command : Command) (side : Side) (waiting : Option ValueOption) :
    List String → Except UsageError (Option Side)
  | [] =>
    match waiting with
    | some option => .error (.noValue option)
    | none => (finish side).map some
  | word :: words =>
    let go : Except UsageError Step → Except UsageError (Option Side)
      | .error e => .error e
      | .ok .help => .ok none
      | .ok (.next side) => behind command side none words
      | .ok (.await side option) => behind command side (some option) words
    match Word.of word, waiting with
    | .operand text, some option => go ((setValue side option text).map .next)
    | .operand text, none => .error (.unknownWord text)
    | _, some option => .error (.noValue option)
    | .long name value, none => go (longOption (some command) side name value)
    | .short cs, none => go (letters side cs)
    | .endOfOptions, none =>
      match words with
      | [] => (finish side).map some
      | operand :: _ => .error (.unknownWord operand)

/-- Puts the settings behind a command over those before it. -/
def Settings.overlay (outer inner : Settings) : Settings where
  config := inner.config.or outer.config
  procRoot := inner.procRoot.or outer.procRoot
  output := inner.output.or outer.output

/-- Completes a command once both sides of it have been read.  What is wrong behind the command
counts before what is wrong in front of it. -/
def complete (outer : Side) (command : Command) (words : List String) :
    Except UsageError Invocation := do
  match ← behind command {} none words with
  | none => return .help
  | some inner =>
    let outer ← finish outer
    let command := match command with
      | .tasks _ => .tasks inner.basic
      | command => command
    return .run (Settings.overlay outer.settings inner.settings) command

/-- Reads the words behind a request for help on a command. -/
def helpOn : List String → Except UsageError Invocation
  | [] => .ok .help
  | [word] =>
    if (command? word).isSome || word == "help" then .ok .help else .error (.unknownWord word)
  | word :: next :: _ =>
    if (command? word).isSome || word == "help" then .error (.unknownWord next)
    else .error (.unknownWord word)

/-- Reads a command line from the words before its command. -/
def before (side : Side) (waiting : Option ValueOption) :
    List String → Except UsageError Invocation
  | [] =>
    match waiting with
    | some option => .error (.noValue option)
    | none => .error .noCommand
  | word :: words =>
    let go : Except UsageError Step → Except UsageError Invocation
      | .error e => .error e
      | .ok .help => .ok .help
      | .ok (.next side) => before side none words
      | .ok (.await side option) => before side (some option) words
    match Word.of word, waiting with
    | .operand text, some option => go ((setValue side option text).map .next)
    | .operand text, none =>
      match command? text with
      | some command => complete side command words
      | none => if text = "help" then helpOn words else .error (.unknownWord text)
    | _, some option => .error (.noValue option)
    | .long name value, none => go (longOption none side name value)
    | .short cs, none => go (letters side cs)
    | .endOfOptions, none =>
      match words with
      | [] => .error .noCommand
      | operand :: _ => .error (.unknownWord operand)

end CommandLine

/-- Reads a command line. -/
def Invocation.parse (words : List String) : Except UsageError Invocation :=
  CommandLine.before {} none words

/-- The wording of a usage error. -/
def UsageError.message : UsageError → String
  | noCommand => "no command is given"
  | unknownWord word => "unexpected argument: " ++ word
  | unknownOption word => "unknown option: " ++ word
  | noValue option => "a value is required for " ++ CommandLine.optionName option
  | needlessValue word => "no value is expected for " ++ word
  | repeated word => "given more than once: " ++ word
  | contradictory => "more and less verbosity exclude each other"

end KernelTables
