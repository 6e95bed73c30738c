import KernelTables.Proofs.Line
import KernelTables.Proofs.Report.Session

/-!
# Every line fits its buffer

A line is composed in a buffer of fixed size.  What does not fit is dropped, the line is flagged,
and a stream counts the flagged lines it is handed.  This file shows that the buffer is large
enough for everything that is ever composed in it.

* `Line.Keeps` — what it means that the buffer is large enough for a text;
* `Stream.Reaches.truncated` — the count of flagged lines stays as it is, whatever short lines are
  written or refused;
* `nothing_truncated` — the three reports, on any objects, from any state and in any order.
-/

namespace KernelTables

namespace Line

/-! ## Texts that fit -/

/-- Whether the buffer is large enough for a text. -/
structure Keeps (text : Bytes) : Prop where
  /-- The text is no longer than the buffer. -/
  fits : text.length ≤ lineCapacity
  /-- In whatever pieces it is put on a fresh line, the line is that text and is not flagged. -/
  whole : ∀ pieces : List Bytes, pieces.flatten = text →
    (empty.put pieces).bytes = text ∧ (empty.put pieces).truncated = false

theorem keeps_of_length_le {text : Bytes} (h : text.length ≤ lineCapacity) : Keeps text := by
  refine ⟨h, ?_⟩
  rintro pieces rfl
  rw [put_eq_push]
  exact push_empty h

end Line

/-! ## Streams -/

namespace Stream

theorem truncated_writeLine (stream : Stream) (bytes : Bytes) :
    (stream.writeLine bytes).1.truncated = stream.truncated := by
  unfold writeLine
  rcases stream.sink.write bytes with ⟨sink, e | _⟩
  · rfl
  · dsimp only
    rcases sink.write [newline] with ⟨sink, e | _⟩ <;> rfl

/-- A stream counts a line that it is handed with its flag up, also when the sink then refuses
it. -/
theorem truncated_print (stream : Stream) (line : Line) :
    (stream.print line).1.truncated = stream.truncated + line.truncated.toNat := by
  rw [print, truncated_writeLine]

theorem truncated_print_of_keeps (stream : Stream) {text : Bytes} (h : Line.Keeps text) :
    (stream.print (Line.empty.push text)).1.truncated = stream.truncated := by
  obtain ⟨-, hdown⟩ := Line.push_empty h.fits
  rw [truncated_print, hdown]
  rfl

/-- No flagged line is among those that a stream takes between two states. -/
theorem Reaches.truncated {stream later : Stream} (h : stream.Reaches later) :
    later.truncated = stream.truncated := by
  induction h with
  | start => rfl
  | @line later before text hline ih => rw [truncated_writeLine, ih]
  | limit _ room ih => exact ih

end Stream

/-! ## Visits -/

namespace SymbolReporter

theorem keeps_entryText (reporter : SymbolReporter) (symbol : Symbol) :
    Line.Keeps (reporter.compose symbol).2.entryText :=
  Line.keeps_of_length_le <| SymbolRecord.length_entryText_le
    (Field.length_contents_le symbol.name) (Field.length_contents_le symbol.moduleName)

/-- A visit hands over no flagged line, also where a symbol's name has newlines in it. -/
theorem truncated_visit (reporter : SymbolReporter) (number : Nat) (symbol : Option Symbol)
    (stream : Stream) : (reporter.visit number symbol stream).stream.truncated =
      stream.truncated := by
  unfold visit
  by_cases hnumber : number = 0
  · rw [if_pos hnumber]
    exact stream.truncated_writeLine SymbolRecord.header
  · rw [if_neg hnumber]
    cases symbol with
    | none => rfl
    | some symbol =>
      have hdelta := stream.truncated_print_of_keeps
        (Line.keeps_of_length_le (reporter.compose symbol).2.length_deltaText_le)
      have hentry := reporter.keeps_entryText symbol
      dsimp only
      rcases hwritten : stream.print (Line.empty.push (reporter.compose symbol).2.deltaText)
        with ⟨begun, e | _⟩
      · rw [hwritten] at hdelta
        exact hdelta
      · rw [hwritten] at hdelta
        exact (begun.truncated_print_of_keeps hentry).trans hdelta

end SymbolReporter

/-- **No line is ever cut short.**  The flag of a line tells exactly whether something was dropped.
Whatever a report composes, from any state, for any task, file or symbol, fits the buffer and stands
on the line as it is.  A visit therefore hands its stream no flagged line, and none is counted by a
new stream through any reports on any tables, however often its sink is full. -/
theorem nothing_truncated :
    (∀ pieces : List Bytes, (Line.empty.put pieces).truncated = false ↔
      (Line.empty.put pieces).bytes = pieces.flatten) ∧
    (∀ (reporter : TaskReporter) (task : Task), Line.Keeps (reporter.compose task).2) ∧
    (∀ (reporter : FileReporter) (task : Task) (file : OpenFile),
      Line.Keeps (reporter.compose task file).2.text) ∧
    (∀ (reporter : SymbolReporter) (symbol : Symbol),
      Line.Keeps (reporter.compose symbol).2.deltaText ∧
        Line.Keeps (reporter.compose symbol).2.entryText) ∧
    (∀ (reporter : TaskReporter) (task : Option Task) (stream : Stream),
      (reporter.visit task stream).stream.truncated = stream.truncated) ∧
    (∀ (reporter : FileReporter) (number : Nat) (task : Option Task) (file : Option OpenFile)
      (stream : Stream),
      (reporter.visit number task file stream).stream.truncated = stream.truncated) ∧
    (∀ (reporter : SymbolReporter) (number : Nat) (symbol : Option Symbol) (stream : Stream),
      (reporter.visit number symbol stream).stream.truncated = stream.truncated) ∧
    ∀ (sink : Sink) (steps : List SessionStep),
      (({ sink } : Stream).performAll steps).truncated = 0 := by
  refine ⟨Line.truncated_put_iff, ?_, ?_, ?_, ?_, ?_, SymbolReporter.truncated_visit, ?_⟩
  · intro reporter task
    exact Line.keeps_of_length_le (reporter.compose_line task).2
  · intro reporter task file
    exact Line.keeps_of_length_le (reporter.compose_line task file).2.1
  · intro reporter symbol
    exact ⟨Line.keeps_of_length_le (reporter.compose symbol).2.length_deltaText_le,
      reporter.keeps_entryText symbol⟩
  · intro reporter task stream
    exact (reporter.reaches_visit task stream).truncated
  · intro reporter number task file stream
    exact (reporter.reaches_visit number task file stream).truncated
  · intro sink steps
    exact (({ sink } : Stream).reaches_performAll steps).truncated

end KernelTables
