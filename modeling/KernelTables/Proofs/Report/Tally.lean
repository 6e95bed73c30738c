import KernelTables.Proofs.Report.Addition
import KernelTables.Proofs.Report.Session
import KernelTables.Proofs.Symbol.Splitting

/-!
# The statistics of a report and its lines

A run counts the objects that it has visited, its stream counts the lines that it has taken, and a
reader can count the lines of the text.  Where a run succeeds these counts agree, whatever the sink
below it and whatever the reporter has seen before.

* `not_isHeads_of_prefix` — **no record looks like column heads**: these begin with a space or a
  capital letter, a record with neither;
* `Effect.tally_of_tallied` — the tally of steps, each of which adds as many lines as it is counted
  for;
* `Run.Agrees` — what it means for the counts to agree, and `counts_agree` that they do.
-/

namespace KernelTables

/-! ## Column heads and records -/

/-- Whether a line is the column heads of a report. -/
def IsHeads (line : Bytes) : Prop := line = FileRecord.header ∨ line = SymbolRecord.header

/-- Column heads are recognised by their first byte. -/
theorem not_isHeads_of_prefix {line text : Bytes} (hline : line <+: text)
    (hspace : text.head? ≠ some 0x20) (hcapital : text.head? ≠ some 0x41) : ¬IsHeads line := by
  obtain ⟨rest, rfl⟩ := hline
  rintro (rfl | rfl)
  · exact hspace rfl
  · exact hcapital rfl

/-- Whether neither a text nor any beginning of it is the column heads of a report. -/
def NeverHeads (text : Bytes) : Prop := ∀ line, line <+: text → ¬IsHeads line

theorem NeverHeads.of_head?_eq {text : Bytes} {b : UInt8} (h : text.head? = some b)
    (hspace : b ≠ 0x20) (hcapital : b ≠ 0x41) : NeverHeads text := by
  intro line hline
  refine not_isHeads_of_prefix hline ?_ ?_
  · rw [h]
    exact fun heq => hspace (Option.some.inj heq)
  · rw [h]
    exact fun heq => hcapital (Option.some.inj heq)

theorem TaskRecord.neverHeads_basicText (record : TaskRecord) : NeverHeads record.basicText :=
  .of_head?_eq (b := 0x70) rfl (by decide) (by decide)

theorem TaskRecord.neverHeads_enrichedText (record : TaskRecord) :
    NeverHeads record.enrichedText :=
  .of_head?_eq (b := 0x70) rfl (by decide) (by decide)

theorem FileRecord.neverHeads_text (record : FileRecord) : NeverHeads record.text :=
  .of_head?_eq (b := 0x70) rfl (by decide) (by decide)

namespace SymbolRecord

/-- A distance is empty, or begins with a digit or a sign. -/
theorem neverHeads_deltaText (record : SymbolRecord) : NeverHeads record.deltaText := by
  rw [deltaText]
  cases record.delta with
  | unknown =>
    intro line hline
    exact not_isHeads_of_prefix hline (by decide) (by decide)
  | forward distance => exact .of_head?_eq (b := 0x30) rfl (by decide) (by decide)
  | backward distance => exact .of_head?_eq (b := 0x2D) rfl (by decide) (by decide)

theorem neverHeads_entryText (record : SymbolRecord) : NeverHeads record.entryText :=
  .of_head?_eq (b := 0x61) rfl (by decide) (by decide)

end SymbolRecord

/-- Whether a line can be the line of a record. -/
structure IsRecordLine (line : Bytes) : Prop where
  /-- It has no newline in it. -/
  plain : newline ∉ line
  /-- It is not taken for column heads. -/
  notHeads : ¬IsHeads line

theorem NeverHeads.isRecordLine {line : Bytes} (h : NeverHeads line) (hplain : newline ∉ line) :
    IsRecordLine line :=
  ⟨hplain, h line List.prefix_rfl⟩

/-! ## Tallies -/

namespace Effect

variable {σ α : Type}

/-- Whether a step adds as many lines as it is counted for: `k` for a record, none for an object
that is left out. -/
def Tallied (k : Nat) (effect : Effect σ) : Prop :=
  (effect.outcome = .emitted ∧ effect.lines.length = k) ∨
    (effect.outcome = .skipped ∧ effect.lines = [])

/-- **The tally of steps.**  Every object is visited, and either emitted or skipped; the lines are
those of the objects that are emitted. -/
theorem tally_of_tallied {k : Nat} {effects : List (Effect σ)} (h : ∀ e ∈ effects, Tallied k e)
    (stats : Stats) :
    (tally stats effects).visited = stats.visited + effects.length ∧
      (tally stats effects).emitted + (tally stats effects).skipped =
        stats.emitted + stats.skipped + effects.length ∧
      k * (tally stats effects).emitted = k * stats.emitted + (allLines effects).length := by
  induction effects generalizing stats with
  | nil => exact ⟨rfl, rfl, rfl⟩
  | cons effect effects ih =>
    have hrest := ih (fun e he => h e (List.mem_cons_of_mem effect he)) (stats.tally effect.outcome)
    have htally : tally stats (effect :: effects) =
        tally (stats.tally effect.outcome) effects := rfl
    have hlines : (allLines (effect :: effects)).length =
        effect.lines.length + (allLines effects).length := by
      rw [allLines, List.flatMap_cons, List.length_append, allLines]
    rw [htally, hlines, List.length_cons]
    rcases h effect List.mem_cons_self with ⟨houtcome, hlength⟩ | ⟨houtcome, hnone⟩
    · rw [houtcome] at hrest ⊢
      simp only [Stats.tally, Nat.mul_add, Nat.mul_one] at hrest ⊢
      omega
    · rw [houtcome] at hrest ⊢
      rw [hnone, List.length_nil]
      simp only [Stats.tally] at hrest ⊢
      omega

/-- The same for a run, which begins to count at zero. -/
theorem tally_run_of_tallied {k : Nat} {effects : List (Effect σ)}
    (h : ∀ e ∈ effects, Tallied k e) :
    (tally {} effects).visited = effects.length ∧
      (tally {} effects).visited = (tally {} effects).emitted + (tally {} effects).skipped ∧
      (allLines effects).length = k * (tally {} effects).emitted := by
  obtain ⟨hvisited, hsum, hlines⟩ := tally_of_tallied h {}
  simp only [Nat.mul_zero, Nat.zero_add] at hvisited hsum hlines
  exact ⟨hvisited, hvisited.trans hsum.symm, hlines.symm⟩

/-- What holds of the effect of every object on every reporter holds of all effects in a
sequence. -/
theorem forall_mem_sequence {effect : σ → α → Effect σ} {P : Effect σ → Prop}
    (h : ∀ reporter object, P (effect reporter object)) (reporter : σ) (objects : List α) :
    ∀ e ∈ sequence effect reporter objects, P e := by
  induction objects generalizing reporter with
  | nil => simp
  | cons object objects ih =>
    rw [sequence_cons, List.forall_mem_cons]
    exact ⟨h reporter object, ih _⟩

/-- What holds of every line that a step adds holds of all lines of a sequence. -/
theorem forall_mem_allLines {effect : σ → α → Effect σ} {P : Bytes → Prop}
    (h : ∀ reporter object, ∀ line ∈ (effect reporter object).lines, P line) (reporter : σ)
    (objects : List α) : ∀ line ∈ allLines (sequence effect reporter objects), P line := by
  intro line hline
  obtain ⟨e, he, hmem⟩ := List.mem_flatMap.mp hline
  exact forall_mem_sequence (P := fun e => ∀ line ∈ e.lines, P line) h reporter objects e he line hmem

end Effect

/-! ## Runs that succeed -/

/-- Whether a run that came to the given statistics has done what they say: it has added the given
column heads, and then `perRecord` lines for each record that it counts. -/
structure Run.Agrees {σ : Type} (run : Run σ) (stream : Stream) (stats : Stats)
    (heads : List Bytes) (perRecord : Nat) : Prop where
  /-- Every object that was visited was emitted or skipped. -/
  visited : stats.visited = stats.emitted + stats.skipped
  /-- The stream has counted these lines. -/
  count : run.stream.lines = stream.lines + (heads.length + perRecord * stats.emitted)
  /-- They are what is read back from the text of the run, and no line but the heads is taken for
  column heads. -/
  text : ∃ written data, run.stream.text = stream.text ++ written ∧
    endedLines written = heads ++ data ∧ unendedLine written = [] ∧
    data.length = perRecord * stats.emitted ∧ ∀ line ∈ data, ¬IsHeads line

/-- The lines that a run has added, against its statistics. -/
theorem Stream.Gains.agrees {σ : Type} {run : Run σ} {stream : Stream} {stats : Stats}
    {heads data : List Bytes} {perRecord : Nat}
    (hgains : stream.Gains run.stream (heads ++ data))
    (hvisited : stats.visited = stats.emitted + stats.skipped)
    (hlength : data.length = perRecord * stats.emitted)
    (hheads : ∀ line ∈ heads, newline ∉ line) (hdata : ∀ line ∈ data, IsRecordLine line) :
    run.Agrees stream stats heads perRecord := by
  have hplain : ∀ line ∈ heads ++ data, newline ∉ line := by
    rw [List.forall_mem_append]
    exact ⟨hheads, fun line hline => (hdata line hline).plain⟩
  obtain ⟨hended, hunended⟩ := endedLines_ofLines_append hplain List.not_mem_nil
  rw [List.append_nil] at hended hunended
  refine ⟨hvisited, ?_, ofLines (heads ++ data), data, hgains.text, hended, hunended, hlength,
    fun line hline => (hdata line hline).notHeads⟩
  rw [hgains.count, List.length_append, hlength]

/-! ## Tasks -/

namespace TaskReporter

theorem tallied_effect (reporter : TaskReporter) (task : Option Task) :
    (reporter.effect task).Tallied 1 := by
  cases task with
  | none => exact .inr ⟨rfl, rfl⟩
  | some task =>
    rw [effect]
    by_cases hleader : task.isLeader = true
    · rw [if_pos hleader]
      exact .inl ⟨rfl, rfl⟩
    · rw [if_neg hleader]
      exact .inr ⟨rfl, rfl⟩

theorem isRecordLine_compose (reporter : TaskReporter) (task : Task) :
    IsRecordLine (reporter.compose task).2 := by
  have hplain := reporter.newline_notMem_compose task
  obtain ⟨format, credentials, exeInode, exePath⟩ := reporter
  cases format with
  | basic => exact (TaskRecord.neverHeads_basicText _).isRecordLine hplain
  | enriched => exact (TaskRecord.neverHeads_enrichedText _).isRecordLine hplain

theorem isRecordLine_of_mem_effect (reporter : TaskReporter) (task : Option Task) :
    ∀ line ∈ (reporter.effect task).lines, IsRecordLine line := by
  cases task with
  | none => simp [effect]
  | some task =>
    rw [effect]
    split
    · simpa using reporter.isRecordLine_compose task
    · simp

/-- A task report that succeeds has visited every thread listed, and has added a line for each that
it has emitted. -/
theorem agrees_of_ok {reporter : TaskReporter} {proc : ProcView} {stream : Stream} {stats : Stats}
    (h : (reporter.run proc stream).result = .ok stats) :
    (reporter.run proc stream).Agrees stream stats [] 1 ∧
      stats.visited = (proc.listed proc.pids).length := by
  cases hpids : proc.pids? with
  | none =>
    rw [run, hpids] at h
    exact absurd h (by simp)
  | some pids =>
    let effects := Effect.sequence effect reporter (proc.allTasks pids)
    have hadds : Progress.Adds (reporter.run proc) _ (Effect.allLines effects)
        (.ok (Effect.tally {} effects)) :=
      fun stream hroom => reporter.run_eq_of_unlimited hpids hroom
    obtain ⟨-, hstats, hgains⟩ := (reporter.cuttable_run proc).of_ok hadds h
    obtain rfl : Effect.tally {} effects = stats := Except.ok.inj hstats
    have htallied : ∀ e ∈ effects, e.Tallied 1 :=
      Effect.forall_mem_sequence tallied_effect reporter _
    obtain ⟨hvisited, hsum, hlines⟩ := Effect.tally_run_of_tallied htallied
    have hdata : ∀ line ∈ Effect.allLines effects, IsRecordLine line :=
      Effect.forall_mem_allLines isRecordLine_of_mem_effect reporter _
    rw [← List.nil_append (Effect.allLines effects)] at hgains
    refine ⟨hgains.agrees hsum hlines (by simp) hdata, ?_⟩
    rw [hvisited, Effect.length_sequence, proc.allTasks_eq, List.length_map, ProcView.pids, hpids,
      Option.getD_some]

end TaskReporter

/-! ## Files -/

namespace FileReporter

theorem tallied_effect (reporter : FileReporter) (entry : Option Task × Option OpenFile) :
    (reporter.effect entry).Tallied 1 := by
  rcases entry with ⟨_ | task, _ | file⟩
  · exact .inr ⟨rfl, rfl⟩
  · exact .inr ⟨rfl, rfl⟩
  · exact .inr ⟨rfl, rfl⟩
  · exact .inl ⟨rfl, rfl⟩

theorem isRecordLine_of_mem_effect (reporter : FileReporter)
    (entry : Option Task × Option OpenFile) :
    ∀ line ∈ (reporter.effect entry).lines, IsRecordLine line := by
  rcases entry with ⟨_ | task, _ | file⟩
  · simp [effect]
  · simp [effect]
  · simp [effect]
  · obtain ⟨-, -, hplain⟩ := reporter.compose_line task file
    simpa [effect] using (FileRecord.neverHeads_text _).isRecordLine hplain

/-- The column heads do not change what is counted. -/
theorem tally_numbered (reporter : FileReporter) (objects : List (Option Task × Option OpenFile))
    (number : Nat) (stats : Stats) :
    Effect.tally stats (Effect.sequence numberedEffect reporter (objects.zipIdx number)) =
      Effect.tally stats (Effect.sequence effect reporter objects) := by
  induction objects generalizing reporter number stats with
  | nil => rfl
  | cons object objects ih =>
    rw [List.zipIdx_cons, Effect.tally_cons, Effect.tally_cons]
    exact ih (reporter.effect object).reporter (number + 1) _

/-- A file report that succeeds has visited every descriptor listed, and has added a line for each
that it has emitted, behind the column heads if there is any descriptor. -/
theorem agrees_of_ok {reporter : FileReporter} {proc : ProcView} {stream : Stream} {stats : Stats}
    (h : (reporter.run proc stream).result = .ok stats) :
    (reporter.run proc stream).Agrees stream stats
        (if stats.visited = 0 then [] else [FileRecord.header]) 1 ∧
      stats.visited = (proc.listedFiles proc.pids).length := by
  cases hpids : proc.pids? with
  | none =>
    rw [run, hpids] at h
    exact absurd h (by simp)
  | some pids =>
    let effects := Effect.sequence effect reporter (proc.allFiles pids)
    obtain ⟨-, hstats, hgains⟩ := (reporter.cuttable_run proc).of_ok
      (fun stream hroom => reporter.run_eq_of_unlimited hpids hroom) h
    rw [tally_numbered] at hstats
    obtain rfl : Effect.tally {} effects = stats := Except.ok.inj hstats
    have htallied : ∀ e ∈ effects, e.Tallied 1 :=
      Effect.forall_mem_sequence tallied_effect reporter _
    obtain ⟨hvisited, hsum, hlines⟩ := Effect.tally_run_of_tallied htallied
    have hdata : ∀ line ∈ Effect.allLines effects, IsRecordLine line :=
      Effect.forall_mem_allLines isRecordLine_of_mem_effect reporter _
    have hlength : (Effect.tally {} effects).visited = (proc.allFiles pids).length := by
      rw [hvisited, Effect.length_sequence]
    have hheads : (if (proc.allFiles pids).isEmpty then [] else [FileRecord.header]) =
        if (Effect.tally {} effects).visited = 0 then [] else [FileRecord.header] := by
      simp only [hlength, List.length_eq_zero_iff, List.isEmpty_iff]
    rw [allLines_numbered, hheads] at hgains
    refine ⟨hgains.agrees hsum hlines ?_ hdata, ?_⟩
    · have hplain := FileRecord.isLine_header.plain
      split <;> simp [hplain]
    · rw [hlength, proc.allFiles_eq, List.length_map, ProcView.pids, hpids, Option.getD_some]

end FileReporter

/-! ## Symbols -/

namespace SymbolReporter

theorem isRecordLine_of_mem_records {symbols : List Symbol} (h : ∀ symbol ∈ symbols, symbol.Plain)
    (reporter : SymbolReporter) :
    ∀ line ∈ (records reporter symbols).flatMap SymbolRecord.lines, IsRecordLine line := by
  induction symbols generalizing reporter with
  | nil => simp [records]
  | cons symbol symbols ih =>
    have hentry := (reporter.isLine_entryText (h symbol List.mem_cons_self)).plain
    rw [records, List.flatMap_cons, List.forall_mem_append]
    refine ⟨?_, ih (fun s hs => h s (List.mem_cons_of_mem symbol hs)) _⟩
    simp only [SymbolRecord.lines, List.forall_mem_cons]
    exact ⟨(SymbolRecord.neverHeads_deltaText _).isRecordLine
        (SymbolRecord.newline_notMem_deltaText _),
      (SymbolRecord.neverHeads_entryText _).isRecordLine hentry, by simp⟩

theorem length_lines_records (reporter : SymbolReporter) (symbols : List Symbol) :
    ((records reporter symbols).flatMap SymbolRecord.lines).length = 2 * symbols.length := by
  induction symbols generalizing reporter with
  | nil => rfl
  | cons symbol symbols ih =>
    rw [records, List.flatMap_cons, List.length_append, ih, List.length_cons, SymbolRecord.lines,
      List.length_cons, List.length_singleton]
    omega

/-- A run over the entries of a table that succeeds has come across no failed read. -/
theorem symbols_of_visitAll_ok {table : Table} {reporter : SymbolReporter} {stream : Stream}
    {stats total : Stats}
    (h : (Run.visitAll visitEntry reporter stream stats (table.symbols.zipIdx 1)).result =
      .ok total) : table.symbols = table.yielded.map .ok := by
  have hread : ∀ item ∈ table.symbols, ∃ symbol, item = .ok symbol := by
    intro item hitem
    obtain ⟨number, hnumber⟩ : ∃ number, (item, number) ∈ table.symbols.zipIdx 1 := by
      rw [← List.zipIdx_map_fst 1 table.symbols] at hitem
      obtain ⟨⟨_, number⟩, hmem, rfl⟩ := List.mem_map.mp hitem
      exact ⟨number, hmem⟩
    obtain ⟨reporter, stream, outcome, hok⟩ := Run.forall_ok_of_visitAll h _ hnumber
    cases item with
    | error message => exact absurd hok (by simp [visitEntry])
    | ok symbol => exact ⟨symbol, rfl⟩
  rw [Table.yielded]
  generalize table.symbols = items at hread
  induction items with
  | nil => rfl
  | cons item items ih =>
    obtain ⟨symbol, rfl⟩ := hread item List.mem_cons_self
    have hitems := ih fun i hi => hread i (List.mem_cons_of_mem _ hi)
    exact congrArg (Except.ok symbol :: ·) hitems

/-- A symbol report that succeeds has emitted every line of the table that parses, in two lines
each, behind the column heads. -/
theorem agrees_of_ok {reporter : SymbolReporter} {table : Table} {stream : Stream} {stats : Stats}
    (h : (reporter.run table stream).result = .ok stats) :
    (reporter.run table stream).Agrees stream stats [SymbolRecord.header] 2 ∧
      stats.skipped = 0 ∧
      stats.emitted = table.lines.countP fun line => (Table.entry? line).isSome := by
  have hheads : Progress.Cuttable (.writing .symbolHeader .full) reporter.heads :=
    ((reporter.reset.cuttable_visit 0 none).step .symbolHeader)
  rw [run_eq_andThen] at h ⊢
  rcases hbegun : reporter.heads stream with ⟨next, begun, e | outcome⟩
  · rw [hbegun] at h
    exact absurd h (by simp [Progress.andThen])
  · -- the column heads have been written, and then the entries of the table
    have hok : (reporter.heads stream).result = .ok outcome := by rw [hbegun]
    obtain ⟨hnext, houtcome, hfirst⟩ := hheads.of_ok reporter.adds_heads hok
    rw [hbegun] at h hfirst hnext
    obtain rfl : next = {} := hnext
    obtain rfl : Outcome.headerOnly = outcome := Except.ok.inj houtcome
    simp only [Progress.andThen, Stats.tally] at h ⊢
    have hsymbols := symbols_of_visitAll_ok h
    rw [hsymbols] at h ⊢
    have hcut := Progress.Cuttable.visitAll cuttable_visitEntry {} {}
      ((table.yielded.map .ok).zipIdx 1)
    obtain ⟨-, hstats, hrest⟩ := hcut.of_ok
      (fun stream hroom => visitAll_of_unlimited {} table.yielded hroom {}) h
    obtain rfl := Except.ok.inj hstats
    have hlength := length_lines_records {} table.yielded
    have hplain : ∀ symbol ∈ table.yielded, symbol.Plain := fun _ => Table.plain_of_mem_yielded
    have hdata := isRecordLine_of_mem_records hplain {}
    refine ⟨(hfirst.trans hrest).agrees rfl (by rw [hlength, Nat.zero_add]) ?_ hdata, rfl, ?_⟩
    · simpa using SymbolRecord.isLine_header.plain
    · rw [Nat.zero_add, Table.length_yielded, Table.entries, List.length_filterMap_eq_countP]

end SymbolReporter

/-- **Statistics, lines and column heads agree.**  Let a run succeed, on any table and any stream,
from any state.  What it has visited is what it has emitted and what it has skipped.  A task report
has visited every thread listed and added a line for each one emitted; a file report has visited
every descriptor listed and added a line for each one emitted, behind one line of column heads unless
there is no descriptor; a symbol report has skipped nothing, emitted every line of the table that
parses, and added two lines for each behind one line of column heads.  No other line is taken for
column heads, since no record and no part of one at its beginning can be. -/
theorem counts_agree :
    (∀ (reporter : TaskReporter) (proc : ProcView) (stream : Stream) (stats : Stats),
      (reporter.run proc stream).result = .ok stats →
        (reporter.run proc stream).Agrees stream stats [] 1 ∧
        stats.visited = (proc.listed proc.pids).length) ∧
    (∀ (reporter : FileReporter) (proc : ProcView) (stream : Stream) (stats : Stats),
      (reporter.run proc stream).result = .ok stats →
        (reporter.run proc stream).Agrees stream stats
          (if stats.visited = 0 then [] else [FileRecord.header]) 1 ∧
        stats.visited = (proc.listedFiles proc.pids).length) ∧
    (∀ (reporter : SymbolReporter) (table : Table) (stream : Stream) (stats : Stats),
      (reporter.run table stream).result = .ok stats →
        (reporter.run table stream).Agrees stream stats [SymbolRecord.header] 2 ∧
        stats.skipped = 0 ∧
        stats.emitted = table.lines.countP fun line => (Table.entry? line).isSome) ∧
    (∀ record : TaskRecord, NeverHeads record.basicText ∧ NeverHeads record.enrichedText) ∧
    (∀ record : FileRecord, NeverHeads record.text) ∧
    ∀ record : SymbolRecord, NeverHeads record.deltaText ∧ NeverHeads record.entryText := by
  refine ⟨?_, ?_, ?_, ?_, FileRecord.neverHeads_text, ?_⟩
  · intro reporter proc stream stats h
    exact TaskReporter.agrees_of_ok h
  · intro reporter proc stream stats h
    exact FileReporter.agrees_of_ok h
  · intro reporter table stream stats h
    exact SymbolReporter.agrees_of_ok h
  · intro record
    exact ⟨record.neverHeads_basicText, record.neverHeads_enrichedText⟩
  · intro record
    exact ⟨record.neverHeads_deltaText, record.neverHeads_entryText⟩

/-- A process table with one process, which has closed one of its two descriptors since they were
listed. -/
def ProcView.closing : ProcView where
  names? path := some (if path = [utf8 "1", utf8 "fd"] then [utf8 "3", utf8 "4"] else [utf8 "1"])
  read? path := if path = statusPath 1 1 then some (utf8 "Pid:\t1\nTgid:\t1\n") else none
  readLink? path :=
    if path = [utf8 "1", utf8 "fd", utf8 "4"] then some (utf8 "pipe:[7]", none) else none
  ownNodeName := none

/-- Three reports on sinks with room for 300 bytes each: one of a task; one of two descriptors, the
first of which is gone; and one of a symbol table with a line that does not parse. -/
theorem counts_agree_closing :
    let stream := ({} : Stream).limit (some 300)
    let table : Table := [.data (utf8 "10 T a\nno symbol\n0"), .interrupted, .data (utf8 " t b\n")]
    let tasks := (TaskReporter.new .basic false).run .closing stream
    let files := (FileReporter.new false).run .closing stream
    let symbols := ({} : SymbolReporter).run table stream
    (tasks.result = .ok ⟨1, 1, 0⟩ ∧ tasks.stream.lines = 1) ∧
      (files.result = .ok ⟨2, 1, 1⟩ ∧ files.stream.lines = 2) ∧
      symbols.result = .ok ⟨2, 2, 0⟩ ∧ symbols.stream.lines = 5 := by
  intro stream table tasks files symbols
  have hpids : ProcView.closing.pids? = some [1] := by
    rw [ProcView.pids?]
    exact congrArg some (List.mergeSort_of_pairwise (by decide +kernel))
  have hthreads : ProcView.closing.threads 1 = [1] := List.mergeSort_of_pairwise (by decide +kernel)
  have hdescriptors : ProcView.closing.descriptors 1 = [3, 4] :=
    List.mergeSort_of_pairwise (by decide +kernel)
  have htasks : tasks.result = .ok ⟨1, 1, 0⟩ := by
    simp only [tasks, TaskReporter.run, hpids, ProcView.allTasks, List.flatMap_cons, hthreads]
    decide +kernel
  have hfiles : files.result = .ok ⟨2, 1, 1⟩ := by
    simp only [files, FileReporter.run, hpids, ProcView.allFiles, List.flatMap_cons, hdescriptors]
    decide +kernel
  have hsymbols : symbols.result = .ok ⟨2, 2, 0⟩ := by decide +kernel
  obtain ⟨htally, hfileTally, hsymbolTally, -⟩ := counts_agree
  obtain ⟨htask, -⟩ := htally _ _ _ _ htasks
  obtain ⟨hfile, -⟩ := hfileTally _ _ _ _ hfiles
  obtain ⟨hsymbol, -⟩ := hsymbolTally _ _ _ _ hsymbols
  exact ⟨⟨htasks, htask.count⟩, ⟨hfiles, hfile.count⟩, hsymbols, hsymbol.count⟩

end KernelTables
