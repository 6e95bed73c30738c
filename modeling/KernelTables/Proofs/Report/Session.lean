import Mathlib.Data.List.Infix
import KernelTables.Proofs.Report.File
import KernelTables.Proofs.Report.Symbol

/-!
# Reports that share a stream

Any number of reports may be written to one stream, one after another, while its sink is full at
times and has room at others.  This file says once and for all what they do to the stream, and
derives what a reader of it can rely on.

* `Stream.Reaches` — **all that ever happens to a stream**: lines are written, each of them plain
  and short enough (`IsLine`), and some of them are refused by the sink in part.
* `reaches_visit`, `reaches_visitAll`, `SessionReport.reaches_write` — a visit, a run, and a report
  of any of the three tables does nothing else, wherever it fails.
* `lines_eq_count_newline` — **framing**: the stream's count of lines is the number of newlines that
  its sink has taken.  So nothing that stands in a table can make one line look like two, and a line
  that is refused is not counted.
-/

namespace KernelTables

/-- Whether a text can stand on a line of its own. -/
structure IsLine (text : Bytes) : Prop where
  /-- It is not too long to be composed. -/
  fits : text.length ≤ lineCapacity
  /-- It has no newline in it. -/
  plain : newline ∉ text

/-! ## What a sink takes -/

/-- A sink takes a beginning of what it is given, and refuses to go on only where that is not all
of it. -/
theorem Sink.exists_taken (sink : Sink) (bytes : Bytes) :
    ∃ part, part <+: bytes ∧ (sink.write bytes).1.text = sink.text ++ part ∧
      ((sink.write bytes).2 = .ok () ↔ part = bytes) := by
  cases hroom : sink.room with
  | none =>
    obtain ⟨htext, -, hresult⟩ := sink.write_of_unlimited bytes hroom
    exact ⟨bytes, List.prefix_rfl, htext, by simp [hresult]⟩
  | some n =>
    obtain ⟨htext, -, hresult⟩ := sink.write_of_limited bytes hroom
    refine ⟨bytes.take n, List.take_prefix n bytes, htext, ?_⟩
    rw [hresult, List.take_eq_self_iff]
    by_cases hfits : bytes.length ≤ n
    · simp [hfits]
    · simp [hfits]

namespace Stream

/-- **The two ways a line can go.**  It is written whole, with its newline, and counted; or the sink
takes a beginning of it, at most all of it but the newline, and it is not counted. -/
theorem writeLine_cases (stream : Stream) (bytes : Bytes) :
    ((stream.writeLine bytes).2 = .ok () ∧
      (stream.writeLine bytes).1.text = stream.text ++ (bytes ++ [newline]) ∧
      (stream.writeLine bytes).1.lines = stream.lines + 1) ∨
    ∃ e part, (stream.writeLine bytes).2 = .error e ∧ part <+: bytes ∧
      (stream.writeLine bytes).1.text = stream.text ++ part ∧
      (stream.writeLine bytes).1.lines = stream.lines := by
  obtain ⟨part, hpart, htext, hresult⟩ := stream.sink.exists_taken bytes
  rcases hwrite : stream.sink.write bytes with ⟨sink, e | _⟩
  · rw [hwrite] at htext
    rw [writeLine, hwrite]
    exact .inr ⟨e, part, rfl, hpart, htext, rfl⟩
  · rw [hwrite] at htext hresult
    obtain rfl := hresult.mp rfl
    obtain ⟨ending, hending, htext', hresult'⟩ := sink.exists_taken [newline]
    have htogether : (sink.write [newline]).1.text = stream.text ++ (part ++ ending) := by
      rw [htext', ← List.append_assoc]
      exact congrArg (· ++ ending) htext
    rw [writeLine, hwrite]
    dsimp only
    rcases hwrite' : sink.write [newline] with ⟨sink', e | _⟩
    · -- the sink stopped between the line and its newline
      rw [hwrite'] at htogether hresult'
      have hempty : ending = [] := by
        have hshort : ending ≠ [newline] := by simpa using hresult'
        simpa [List.prefix_cons_iff, hshort] using hending
      rw [hempty, List.append_nil] at htogether
      exact .inr ⟨e, part, rfl, List.prefix_rfl, htogether, rfl⟩
    · rw [hwrite'] at htogether hresult'
      obtain rfl := hresult'.mp rfl
      exact .inl ⟨rfl, htogether, rfl⟩

/-- **What writing a plain line comes to.**  If it succeeds there is one newline more in the sink
and the line is counted; if it fails there is none, wherever the sink had to stop, and it is not. -/
theorem exists_written_writeLine (stream : Stream) {bytes : Bytes} (h : newline ∉ bytes) :
    ∃ added, (stream.writeLine bytes).1.text = stream.text ++ added ∧
      (stream.writeLine bytes).1.lines = stream.lines + added.count newline ∧
      added.count newline = if (stream.writeLine bytes).2 = .ok () then 1 else 0 := by
  rcases stream.writeLine_cases bytes with
    ⟨hok, htext, hlines⟩ | ⟨e, part, he, hpart, htext, hlines⟩
  · have hcount : (bytes ++ [newline]).count newline = 1 := by
      rw [List.count_append, List.count_eq_zero.mpr h]
      rfl
    exact ⟨bytes ++ [newline], htext, by rw [hlines, hcount], by rw [hcount, if_pos hok]⟩
  · have hcount : part.count newline = 0 := List.count_eq_zero.mpr fun hn => h (hpart.subset hn)
    exact ⟨part, htext, by rw [hlines, hcount, Nat.add_zero], by rw [hcount, he]; rfl⟩

/-! ## All that happens to a stream -/

/-- Whether a stream can have come about from an earlier one by writing lines, whatever its sink had
room for each time. -/
inductive Reaches (stream : Stream) : Stream → Prop
  /-- Nothing has been written. -/
  | start : Reaches stream stream
  /-- One more line has been written, or refused. -/
  | line {later : Stream} (before : Reaches stream later) {text : Bytes} (h : IsLine text) :
      Reaches stream (later.writeLine text).1
  /-- The sink has been given another limit. -/
  | limit {later : Stream} (before : Reaches stream later) (room : Option Nat) :
      Reaches stream (later.limit room)

variable {stream middle later : Stream}

theorem Reaches.trans (first : stream.Reaches middle) (second : middle.Reaches later) :
    stream.Reaches later := by
  induction second with
  | start => exact first
  | line _ h ih => exact ih.line h
  | limit _ room ih => exact ih.limit room

theorem reaches_writeLine (stream : Stream) {text : Bytes} (h : IsLine text) :
    stream.Reaches (stream.writeLine text).1 :=
  Reaches.start.line h

/-- A line that is not too long is printed as it is. -/
theorem print_of_isLine (stream : Stream) {text : Bytes} (h : IsLine text) :
    stream.print (Line.empty.push text) = stream.writeLine text := by
  obtain ⟨hbytes, htruncated⟩ := Line.push_empty h.fits
  rw [print, hbytes, htruncated]
  rfl

/-- **Framing.**  The lines that have been counted are the newlines that have been taken. -/
theorem Reaches.exists_written (h : stream.Reaches later) :
    ∃ written, later.text = stream.text ++ written ∧
      later.lines = stream.lines + written.count newline := by
  induction h with
  | start => exact ⟨[], by simp, by simp⟩
  | @line later before text hline ih =>
    obtain ⟨written, htext, hlines⟩ := ih
    obtain ⟨added, htext', hlines', -⟩ := later.exists_written_writeLine hline.plain
    refine ⟨written ++ added, ?_, ?_⟩
    · rw [htext', htext, List.append_assoc]
    · rw [hlines', hlines, List.count_append, Nat.add_assoc]
  | limit _ room ih => exact ih

end Stream

/-! ## Visits -/

theorem Visit.reaches_printing {σ : Type} (reporter : σ) (stream : Stream) {text : Bytes}
    (h : IsLine text) : stream.Reaches (Visit.printing reporter stream text).stream := by
  rw [printing, stream.print_of_isLine h]
  exact stream.reaches_writeLine h

theorem TaskReporter.reaches_visit (reporter : TaskReporter) (task : Option Task)
    (stream : Stream) : stream.Reaches (reporter.visit task stream).stream := by
  cases task with
  | none => exact .start
  | some task =>
    rw [visit]
    by_cases hleader : task.isLeader = true
    · rw [if_pos hleader]
      exact Visit.reaches_printing _ stream
        ⟨(reporter.compose_line task).2, reporter.newline_notMem_compose task⟩
    · rw [if_neg hleader]
      exact .start

theorem FileRecord.isLine_header : IsLine header := ⟨by decide, by decide⟩

theorem FileReporter.reaches_visit (reporter : FileReporter) (number : Nat) (task : Option Task)
    (file : Option OpenFile) (stream : Stream) :
    stream.Reaches (reporter.visit number task file stream).stream := by
  have hheads : stream.Reaches
      (if number = 0 then stream.writeLine FileRecord.header else (stream, .ok ())).1 := by
    by_cases hnumber : number = 0
    · rw [if_pos hnumber]
      exact stream.reaches_writeLine FileRecord.isLine_header
    · rw [if_neg hnumber]
      exact .start
  rw [visit]
  rcases hwritten : (if number = 0 then stream.writeLine FileRecord.header else (stream, .ok ()))
    with ⟨begun, e | _⟩
  · rw [hwritten] at hheads
    exact hheads
  · rw [hwritten] at hheads
    cases task with
    | none => exact hheads
    | some task =>
      cases file with
      | none => exact hheads
      | some file =>
        obtain ⟨-, hfits, hplain⟩ := reporter.compose_line task file
        exact hheads.trans (Visit.reaches_printing _ begun ⟨hfits, hplain⟩)

namespace SymbolRecord

theorem isLine_header : IsLine header := ⟨by decide, by decide⟩

theorem isLine_deltaText (record : SymbolRecord) : IsLine record.deltaText :=
  ⟨record.length_deltaText_le, record.newline_notMem_deltaText⟩

end SymbolRecord

namespace SymbolReporter

theorem isLine_entryText (reporter : SymbolReporter) {symbol : Symbol} (h : symbol.Plain) :
    IsLine (reporter.compose symbol).2.entryText where
  fits := SymbolRecord.length_entryText_le (Field.length_contents_le symbol.name)
    (Field.length_contents_le symbol.moduleName)
  plain := SymbolRecord.newline_notMem_entryText h.code h.name h.moduleName

theorem reaches_visit (reporter : SymbolReporter) (number : Nat) {symbol : Option Symbol}
    (h : ∀ s ∈ symbol, s.Plain) (stream : Stream) :
    stream.Reaches (reporter.visit number symbol stream).stream := by
  unfold visit
  by_cases hnumber : number = 0
  · rw [if_pos hnumber]
    exact stream.reaches_writeLine SymbolRecord.isLine_header
  · rw [if_neg hnumber]
    cases symbol with
    | none => exact .start
    | some symbol =>
      have hdelta := (reporter.compose symbol).2.isLine_deltaText
      have hentry := reporter.isLine_entryText (h symbol rfl)
      have hfirst := stream.reaches_writeLine hdelta
      simp only [stream.print_of_isLine hdelta]
      rcases hwritten : stream.writeLine (reporter.compose symbol).2.deltaText
        with ⟨begun, e | _⟩
      · rw [hwritten] at hfirst
        exact hfirst
      · rw [hwritten] at hfirst
        exact hfirst.trans (Visit.reaches_printing _ begun hentry)

end SymbolReporter

/-! ## Runs -/

/-- A run does to its stream what its visits do. -/
theorem Run.reaches_visitAll {σ α : Type} {visit : σ → α → Stream → Progress σ RunError Outcome}
    {objects : List α}
    (h : ∀ object ∈ objects, ∀ (reporter : σ) (stream : Stream),
      stream.Reaches (visit reporter object stream).stream)
    (reporter : σ) (stream : Stream) (stats : Stats) :
    stream.Reaches (visitAll visit reporter stream stats objects).stream := by
  induction objects generalizing reporter stream stats with
  | nil => exact .start
  | cons object objects ih =>
    have hstep := h object List.mem_cons_self reporter stream
    rw [visitAll]
    rcases hvisit : visit reporter object stream with ⟨next, reached, e | outcome⟩
    · rw [hvisit] at hstep
      exact hstep
    · rw [hvisit] at hstep
      exact hstep.trans (ih (fun o ho => h o (List.mem_cons_of_mem _ ho)) next reached _)

/-- A report of one of the tables, by a reporter in any state, on the table as it stands then. -/
inductive SessionReport
  /-- The threads of a process table. -/
  | tasks (reporter : TaskReporter) (proc : ProcView)
  /-- The descriptors of a process table. -/
  | files (reporter : FileReporter) (proc : ProcView)
  /-- A symbol table. -/
  | symbols (reporter : SymbolReporter) (table : Table)

namespace SessionReport

/-- The stream that a report leaves behind, whether or not it came to its end. -/
def write : SessionReport → Stream → Stream
  | tasks reporter proc, stream => (reporter.run proc stream).stream
  | files reporter proc, stream => (reporter.run proc stream).stream
  | symbols reporter table, stream => (reporter.run table stream).stream

/-- Every symbol that is read from a table is free of newlines. -/
theorem plain_of_mem_symbols {table : Table} {symbol : Symbol} (h : .ok symbol ∈ table.symbols) :
    symbol.Plain :=
  Table.plain_of_mem_yielded (List.mem_filterMap.mpr ⟨.ok symbol, h, rfl⟩)

/-- **A report does nothing to a stream but write lines to it**, on any table, from any state and
wherever it fails. -/
theorem reaches_write (report : SessionReport) (stream : Stream) :
    stream.Reaches (report.write stream) := by
  cases report with
  | tasks reporter proc =>
    rw [write, TaskReporter.run]
    cases proc.pids? with
    | none => exact .start
    | some pids =>
      refine Run.reaches_visitAll ?_ reporter stream {}
      intro task _ reporter stream
      exact reporter.reaches_visit task stream
  | files reporter proc =>
    rw [write, FileReporter.run]
    cases proc.pids? with
    | none => exact .start
    | some pids =>
      refine Run.reaches_visitAll ?_ reporter stream {}
      intro entry _ reporter stream
      exact reporter.reaches_visit entry.2 entry.1.1 entry.1.2 stream
  | symbols reporter table =>
    have hheads : stream.Reaches (reporter.reset.visit 0 none stream).stream :=
      reporter.reset.reaches_visit 0 (by simp) stream
    have hentries : ∀ entry ∈ table.symbols.zipIdx 1, ∀ (reporter : SymbolReporter)
        (stream : Stream), stream.Reaches (reporter.visitEntry entry stream).stream := by
      rintro ⟨message | symbol, number⟩ hentry reporter stream
      · exact .start
      · have hsymbol : Except.ok symbol ∈ table.symbols := List.fst_mem_of_mem_zipIdx hentry
        refine reporter.reaches_visit number ?_ stream
        rintro s ⟨⟩
        exact plain_of_mem_symbols hsymbol
    rw [write, SymbolReporter.run, Run.step]
    rcases hvisit : reporter.reset.visit 0 none stream with ⟨next, reached, e | outcome⟩
    · rw [hvisit] at hheads
      exact hheads
    · rw [hvisit] at hheads
      exact hheads.trans (Run.reaches_visitAll hentries next reached _)

end SessionReport

/-! ## Sessions -/

/-- What may be done with a stream. -/
inductive SessionStep
  /-- A report is written to it. -/
  | report (report : SessionReport)
  /-- Its sink is given room for so many more bytes, or for any number. -/
  | limit (room : Option Nat)

namespace Stream

/-- The stream after one step. -/
def perform (stream : Stream) : SessionStep → Stream
  | .report report => report.write stream
  | .limit room => stream.limit room

/-- The stream after any steps. -/
def performAll (stream : Stream) (steps : List SessionStep) : Stream := steps.foldl perform stream

theorem reaches_performAll (stream : Stream) (steps : List SessionStep) :
    stream.Reaches (stream.performAll steps) := by
  induction steps generalizing stream with
  | nil => exact .start
  | cons step steps ih =>
    have hstep : stream.Reaches (stream.perform step) := by
      cases step with
      | report report => exact report.reaches_write stream
      | limit room => exact Reaches.start.limit room
    exact hstep.trans (ih (stream.perform step))

/-- **Every newline in a stream ends one of its lines.**  Write any reports to a new stream, by
reporters in any state and on any tables, while its sink has room for as much as it may each time.
However many of them fail, the number of lines that the stream has counted is the number of newlines
that its sink has taken since.  One write that fails adds no newline and is not counted; one that
succeeds adds one and is. -/
theorem lines_eq_count_newline (sink : Sink) (steps : List SessionStep) :
    (∃ written, (({ sink } : Stream).performAll steps).text = sink.text ++ written ∧
      (({ sink } : Stream).performAll steps).lines = written.count newline) ∧
    ∀ (stream : Stream) (bytes : Bytes), newline ∉ bytes → ∃ added,
      (stream.writeLine bytes).1.text = stream.text ++ added ∧
      (stream.writeLine bytes).1.lines = stream.lines + added.count newline ∧
      added.count newline = if (stream.writeLine bytes).2 = .ok () then 1 else 0 := by
  obtain ⟨written, htext, hlines⟩ := (({ sink } : Stream).reaches_performAll steps).exists_written
  refine ⟨⟨written, htext, ?_⟩, fun stream bytes h => stream.exists_written_writeLine h⟩
  rw [hlines]
  exact Nat.zero_add _

/-- A session that reports a symbol with room for the column heads, the empty distance and a part of
the entry, and then reports it once more with room for everything. -/
def refusedOnce : List SessionStep :=
  [.limit (some 60), .report (.symbols {} [.data (utf8 "10 t a\n")]), .limit none,
    .report (.symbols {} [.data (utf8 "10 t a\n")])]

/-- Two lines get through and then three more, the first of which the refused part stands in front
of.  A line of one byte and its newline do not fit where there is room for the byte alone. -/
theorem lines_eq_count_newline_refusedOnce :
    (({} : Stream).performAll refusedOnce).lines = 5 ∧
      (({} : Stream).performAll refusedOnce).text.count newline = 5 ∧ newline ∉ utf8 "a" ∧
      ∃ added, (((({} : Stream).limit (some 1)).writeLine (utf8 "a")).1.text = added ∧
        added.count newline = 0) := by
  obtain ⟨⟨written, htext, hlines⟩, hwrite⟩ := lines_eq_count_newline {} refusedOnce
  have hfive : (({} : Stream).performAll refusedOnce).lines = 5 := by decide
  have hplain : newline ∉ utf8 "a" := by decide
  obtain ⟨added, hadded, -, hcount⟩ := hwrite (({} : Stream).limit (some 1)) (utf8 "a") hplain
  have hrefused : ((({} : Stream).limit (some 1)).writeLine (utf8 "a")).2 ≠ .ok () := by decide
  rw [if_neg hrefused] at hcount
  refine ⟨hfive, ?_, hplain, added, hadded, hcount⟩
  rw [htext, ← hfive, hlines]
  rfl

end Stream

end KernelTables
