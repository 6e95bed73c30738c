import KernelTables.Proc.View
import KernelTables.Report.File
import KernelTables.Report.Symbol
import KernelTables.Report.Task
import KernelTables.Symbol.Table

/-!
# Whole reports

A run feeds every object of one table to its reporter, in order, and tallies the outcomes.  It ends
at the first error; what was written until then stays written.
-/

namespace KernelTables

/-! ## Tallies and errors -/

/-- How many objects a run has visited and what came of them. -/
structure Stats where
  /-- All objects visited. -/
  visited : Nat := 0
  /-- Those whose record was written. -/
  emitted : Nat := 0
  /-- Those that left no trace. -/
  skipped : Nat := 0
  deriving DecidableEq, Repr

/-- Counts one outcome.  A visit for the header's sake alone counts for nothing. -/
def Stats.tally (stats : Stats) : Outcome → Stats
  | .emitted => { stats with visited := stats.visited + 1, emitted := stats.emitted + 1 }
  | .skipped => { stats with visited := stats.visited + 1, skipped := stats.skipped + 1 }
  | .headerOnly => stats

/-- What was being written when a sink refused. -/
inductive Written
  /-- A task line. -/
  | taskRecord
  /-- A file line, or the header before the first. -/
  | fileRecord
  /-- The header of the symbol report. -/
  | symbolHeader
  /-- One of a symbol's two lines. -/
  | symbolRecord
  deriving DecidableEq, Repr

/-- The words for what was being written. -/
def Written.label : Written → String
  | .taskRecord => "task record"
  | .fileRecord => "file record"
  | .symbolHeader => "symbol header"
  | .symbolRecord => "symbol record"

/-- Why a run ended early. -/
inductive RunError
  /-- The process table could not be listed. -/
  | listing
  /-- A line could not be written. -/
  | writing (what : Written) (cause : SinkError)
  /-- The symbol table could not be read on. -/
  | readingSymbols (cause : String)
  deriving DecidableEq, Repr

namespace RunError

/-- What the program was doing, for a process table at `root`. -/
def context (root : String) : RunError → String
  | listing => "reading " ++ root
  | writing what _ => "writing " ++ what.label
  | readingSymbols _ => "reading kallsyms"

/-- What went wrong below it, where the program knows. -/
def cause? : RunError → Option String
  | listing => none
  | writing _ cause => some cause.message
  | readingSymbols cause => some cause

/-- The whole chain in one line. -/
def message (root : String) (error : RunError) : String :=
  match error.cause? with
  | none => error.context root
  | some cause => error.context root ++ ": " ++ cause

end RunError

/-! ## Running -/

/-- A run of a report. -/
abbrev Run (σ : Type) := Progress σ RunError Stats

namespace Run

/-- A visit as a step of a run. -/
def step {σ : Type} (what : Written) (visit : Visit σ) : Progress σ RunError Outcome :=
  { visit with result := visit.result.mapError (.writing what) }

/-- Steps through objects until one fails. -/
def visitAll {σ α : Type} (visit : σ → α → Stream → Progress σ RunError Outcome) :
    σ → Stream → Stats → List α → Run σ
  | reporter, stream, stats, [] => ⟨reporter, stream, .ok stats⟩
  | reporter, stream, stats, object :: objects =>
    match visit reporter object stream with
    | ⟨reporter, stream, .error e⟩ => ⟨reporter, stream, .error e⟩
    | ⟨reporter, stream, .ok outcome⟩ => visitAll visit reporter stream (stats.tally outcome) objects

/-- Visiting what a function makes of objects is visiting the objects through it. -/
theorem visitAll_map {σ α β : Type} (visit : σ → α → Stream → Progress σ RunError Outcome)
    (f : β → α) (reporter : σ) (stream : Stream) (stats : Stats) (objects : List β) :
    visitAll visit reporter stream stats (objects.map f) =
      visitAll (fun reporter object => visit reporter (f object)) reporter stream stats
        objects := by
  induction objects generalizing reporter stream stats with
  | nil => rfl
  | cons object objects ih =>
    simp only [List.map_cons, visitAll]
    split
    · rfl
    · exact ih ..

end Run

/-! ## The three tables -/

namespace ProcView

/-- Every thread of the given processes. -/
def allTasks (proc : ProcView) (pids : List Int32) : List (Option Task) :=
  pids.flatMap fun pid => (proc.threads pid).map (proc.task? pid)

/-- Every descriptor of the given processes, each beside its process.  The process is read once for
all its descriptors. -/
def allFiles (proc : ProcView) (pids : List Int32) : List (Option Task × Option OpenFile) :=
  pids.flatMap fun pid =>
    let task := proc.task? pid pid
    (proc.descriptors pid).map fun fd => (task, proc.file? pid fd)

end ProcView

namespace TaskReporter

/-- Reports every thread of every process. -/
def run (reporter : TaskReporter) (proc : ProcView) (stream : Stream) : Run TaskReporter :=
  match proc.pids? with
  | none => ⟨reporter, stream, .error .listing⟩
  | some pids =>
    Run.visitAll (fun reporter task stream => Run.step .taskRecord (reporter.visit task stream))
      reporter stream {} (proc.allTasks pids)

end TaskReporter

namespace FileReporter

/-- Visits a numbered descriptor beside its process. -/
def visitNumbered (reporter : FileReporter) (entry : (Option Task × Option OpenFile) × Nat)
    (stream : Stream) : Progress FileReporter RunError Outcome :=
  Run.step .fileRecord (reporter.visit entry.2 entry.1.1 entry.1.2 stream)

/-- Reports every descriptor of every process, numbered from zero. -/
def run (reporter : FileReporter) (proc : ProcView) (stream : Stream) : Run FileReporter :=
  match proc.pids? with
  | none => ⟨reporter, stream, .error .listing⟩
  | some pids => Run.visitAll visitNumbered reporter stream {} (proc.allFiles pids).zipIdx

end FileReporter

namespace SymbolReporter

/-- Visits one entry of the symbol table, or stops where reading it failed. -/
def visitEntry (reporter : SymbolReporter) (entry : Except String Symbol × Nat)
    (stream : Stream) : Progress SymbolReporter RunError Outcome :=
  match entry with
  | (.error message, _) => ⟨reporter, stream, .error (.readingSymbols message)⟩
  | (.ok symbol, number) => Run.step .symbolRecord (reporter.visit number (some symbol) stream)

/-- Reports a symbol table from a fresh start.  The header goes first, as visit zero, so that the
symbols are numbered from one. -/
def run (reporter : SymbolReporter) (table : Table) (stream : Stream) : Run SymbolReporter :=
  match Run.step .symbolHeader (reporter.reset.visit 0 none stream) with
  | ⟨reporter, stream, .error e⟩ => ⟨reporter, stream, .error e⟩
  | ⟨reporter, stream, .ok outcome⟩ =>
    Run.visitAll visitEntry reporter stream (Stats.tally {} outcome) (table.symbols.zipIdx 1)

end SymbolReporter

end KernelTables
