import KernelTables.CommandLine
import KernelTables.Config
import KernelTables.Host
import KernelTables.Report.Live
import KernelTables.WriteBuffer

/-!
# The program

A run of the program reads its command line and its configuration, makes its output file if one is
asked for, and writes the reports the command stands for to one stream, one after another.  What is
written reaches the output, which is that file or else the standard output, through a buffer.  The
first failure ends the run, but what was written before it is kept.
-/

namespace KernelTables

/-! ## Failures -/

/-- Why the program gives up. -/
inductive Failure
  /-- The configuration cannot be read as text. -/
  | readingConfig (path : String)
  /-- The configuration is no document, or its values do not fit. -/
  | parsingConfig (path : String)
  /-- The output file cannot be made. -/
  | creatingOutput (path : String)
  /-- The symbol table cannot be opened. -/
  | openingSymbols (path : String)
  /-- A report ended early. -/
  | reporting (root : String) (error : RunError)
  /-- The output does not take what is left in the buffer. -/
  | flushingOutput
  deriving DecidableEq, Repr

namespace Failure

/-- What the program was doing. -/
def context : Failure → String
  | readingConfig path => "reading config from " ++ path
  | parsingConfig path => "parsing config from " ++ path
  | creatingOutput path => "creating " ++ path
  | openingSymbols path => "opening " ++ path
  | reporting root error => error.context root
  | flushingOutput => "flushing output"

/-- What went wrong below it, where the program knows. -/
def cause? : Failure → Option String
  | reporting _ error => error.cause?
  | _ => none

/-- How the program shows a failure. -/
def diagnostic (failure : Failure) : String :=
  "Error: " ++ failure.context ++
    match failure.cause? with
    | none => "\n"
    | some cause => "\n\nCaused by:\n    " ++ cause ++ "\n"

end Failure

/-! ## Configuration -/

namespace Config

/-- The configuration in the file at `path`, whose content is `content` if it could be read, and
whose text means what `read?` says. -/
def loadAs (read? : List Char → Option Config) (path : String) (content : Option Bytes) :
    Except Failure Config :=
  match content.bind decode? with
  | none => .error (.readingConfig path)
  | some text =>
    match read? text with
    | none => .error (.parsingConfig path)
    | some config => .ok config

/-- The configuration in the file at `path`, whose content is `content` if it could be read. -/
def load : String → Option Bytes → Except Failure Config := loadAs parse?

/-- Where the configuration is, below the user's configuration files, if the command line does not
say. -/
def defaultPath (directory : String) : String :=
  ["kscan", "config.toml"].foldl Path.join directory

/-- The configuration with what the command line says put over it. -/
def override (config : Config) (settings : Settings) (command : Command) : Config :=
  { config with
    procRoot := settings.procRoot.getD config.procRoot
    taskFormat := if command = .tasks true then .basic else config.taskFormat }

end Config

/-! ## What is read -/

/-- How a command line and a configuration are read.  The program leaves both to others, and all
that it does is the same whatever they accept. -/
structure Reading where
  /-- What the words of a command line ask for, or why they make no sense. -/
  commandLine : List String → Except String Invocation
  /-- The configuration in a text. -/
  config : List Char → Option Config

/-- Command lines and configurations as the program's users know them. -/
def Reading.usual : Reading where
  commandLine words := (Invocation.parse words).mapError UsageError.message
  config := Config.parse?

/-! ## Reports -/

/-- One of the program's reports. -/
inductive Report
  /-- The processes. -/
  | tasks
  /-- Their open files. -/
  | files
  /-- The kernel's symbols. -/
  | symbols
  deriving DecidableEq, Repr

/-- The reports a command stands for, in order. -/
def Command.reports : Command → List Report
  | tasks _ => [.tasks]
  | files => [.files]
  | symbols => [.symbols]
  | all => [.tasks, .files, .symbols]

namespace Report

variable {m : Type → Type} [Monad m]

/-- What a run comes to for the program. -/
def settle {σ : Type} (root : String) (run : Run σ) : Stream × Except Failure Unit :=
  (run.stream, (run.result.mapError (.reporting root)).map fun _ => ())

/-- The process table at a path, and the output through a buffer. -/
def live (host : Host m) (hand : Bytes → m Nat) (root : String) : Live (StateT WriteBuffer m) where
  look inquiry := host.procView root inquiry
  deliver stream := WriteBuffer.advance hand stream

/-- Writes one report with a reporter that has seen nothing yet. -/
def write (host : Host m) (hand : Bytes → m Nat) (config : Config) (report : Report)
    (stream : Stream) : StateT WriteBuffer m (Stream × Except Failure Unit) := do
  let root := config.procRoot
  let live := live host hand root
  match report with
  | tasks =>
    let reporter := TaskReporter.new config.taskFormat config.tasksReuse
    return settle root (← reporter.follow live stream)
  | files =>
    let reporter := FileReporter.new config.filesReuse
    return settle root (← reporter.follow live stream)
  | symbols =>
    let path := Path.join root "kallsyms"
    match ← host.openTable path with
    | none => return (stream, .error (.openingSymbols path))
    | some table => return settle root (← SymbolReporter.follow live {} table stream)

/-- Writes reports one after another until one fails. -/
def writeAll (host : Host m) (hand : Bytes → m Nat) (config : Config) :
    List Report → Stream → StateT WriteBuffer m (Stream × Except Failure Unit)
  | [], stream => return (stream, .ok ())
  | report :: reports, stream => do
    match ← write host hand config report stream with
    | (stream, .error e) => return (stream, .error e)
    | (stream, .ok ()) => writeAll host hand config reports stream

/-- Writes reports one after another, and flushes the buffer unless one fails. -/
def writeAndFlush (host : Host m) (hand : Bytes → m Nat) (config : Config)
    (reports : List Report) : StateT WriteBuffer m (Stream × Except Failure Unit) := do
  match ← writeAll host hand config reports {} with
  | (stream, .error e) => return (stream, .error e)
  | (stream, .ok ()) =>
    if ← WriteBuffer.flush hand stream.sink.taken then return (stream, .ok ())
    else return (stream, .error .flushingOutput)

/-- Writes reports through a buffer of their own, and tells what the output has taken in the end.
When the buffer is dropped, what is still in it is handed on once more, whatever comes of it. -/
def writeThrough (host : Host m) (hand : Bytes → m Nat) (config : Config)
    (reports : List Report) : m (Bytes × Except Failure Unit) := do
  let ((stream, result), buffer) ← (writeAndFlush host hand config reports).run {}
  let (_, buffer) ← (WriteBuffer.flush hand stream.sink.taken).run buffer
  return (stream.text.take buffer.settled, result)

end Report

/-! ## Runs of the program -/

/-- How a run of the program ends. -/
structure Completion where
  /-- The exit code: zero, one for a failure, two for a command line that makes no sense. -/
  exitCode : Nat := 0
  /-- What the standard output has taken. -/
  output : Bytes := []
  /-- What is shown to the user. -/
  diagnostics : String := ""
  deriving DecidableEq, Repr

namespace Program

variable {m : Type → Type} [Monad m]

/-- A run that ends with a failure, after `output`. -/
def failed (failure : Failure) (output : Bytes) : Completion :=
  ⟨1, output, failure.diagnostic⟩

/-- The configuration that the command line names, or else the user's own, or else the defaults. -/
def loadConfig (reading : Reading) (host : Host m) (named : Option String) :
    m (Except Failure Config) := do
  match named with
  | some path => return Config.loadAs reading.config path (← host.readFile path)
  | none =>
    let path := Config.defaultPath (← host.configDirectory)
    if ← host.pathExists path then
      return Config.loadAs reading.config path (← host.readFile path)
    else return .ok {}

/-- Writes a command's reports to where its output goes. -/
def runCommand (host : Host m) (config : Config) (settings : Settings) (command : Command) :
    m Completion := do
  let complete (result : Except Failure Unit) (output : Bytes) : Completion :=
    match result with
    | .ok () => { output }
    | .error failure => failed failure output
  match settings.output with
  | none =>
    let (output, result) ← Report.writeThrough host host.print config command.reports
    return complete result output
  | some path =>
    match ← host.createFile path with
    | none => return failed (.creatingOutput path) []
    | some hand =>
      let (_, result) ← Report.writeThrough host hand config command.reports
      return complete result []

/-- The words that explain the command line. -/
def usage : String :=
  "Usage: [--config FILE] [--proc-root DIR] [-o FILE] [-v | -q] (tasks [--basic] | files | ksyms " ++
    "| all)\n"

/-- Runs the program on a command line, with the given reading. -/
def runAs (reading : Reading) (host : Host m) (words : List String) : m Completion := do
  match reading.commandLine words with
  | .error message => return ⟨2, [], "error: " ++ message ++ "\n" ++ usage⟩
  | .ok .help => return { diagnostics := usage }
  | .ok (.run settings command) =>
    match ← loadConfig reading host settings.config with
    | .error failure => return failed failure []
    | .ok config => runCommand host (config.override settings command) settings command

/-- Runs the program on a command line. -/
def run : Host m → List String → m Completion := runAs .usual

end Program

end KernelTables
