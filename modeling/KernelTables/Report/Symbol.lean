import KernelTables.Object
import KernelTables.Record
import KernelTables.Report.Progress

/-!
# The symbol report

Two lines for each symbol, the distance from the symbol before it and the entry itself.  The
report remembers the last address it has shown, where a hidden address counts as zero; a distance
from zero is left empty.
-/

namespace KernelTables

/-- The state of a symbol report. -/
structure SymbolReporter where
  /-- The address shown last, or zero. -/
  lastValue : UInt64 := 0
  deriving DecidableEq, Repr

namespace SymbolReporter

/-- Forgets the last address, so that the next distance is left empty. -/
def reset (_ : SymbolReporter) : SymbolReporter := {}

/-- Takes in a symbol and composes its record.  The distance is that of the address in the table,
but what is shown and remembered is the address that may be shown. -/
def compose (reporter : SymbolReporter) (symbol : Symbol) : SymbolReporter × SymbolRecord :=
  (⟨symbol.shownValue⟩,
    { delta := .between reporter.lastValue symbol.value
      address := symbol.shownValue
      code := symbol.code
      name := symbol.name.contents
      moduleName := symbol.moduleName.contents
      kind := symbol.kind })

/-- Visits a symbol.  Visit number zero writes the column heads and nothing else. -/
def visit (reporter : SymbolReporter) (number : Nat) (symbol : Option Symbol)
    (stream : Stream) : Visit SymbolReporter :=
  if number = 0 then
    let (stream, written) := stream.writeLine SymbolRecord.header
    ⟨reporter, stream, written.map fun _ => .headerOnly⟩
  else
    match symbol with
    | none => ⟨reporter, stream, .ok .skipped⟩
    | some symbol =>
      let (reporter, record) := reporter.compose symbol
      match stream.print (Line.empty.push record.deltaText) with
      | (stream, .error e) => ⟨reporter, stream, .error e⟩
      | (stream, .ok ()) => .printing reporter stream record.entryText

end SymbolReporter

end KernelTables
