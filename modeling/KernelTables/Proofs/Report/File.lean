import KernelTables.Proofs.Report.Task

/-!
# What a file report writes

A report of open files on a stream that takes everything: one line of column heads if there is any
descriptor at all, and one line for each descriptor that is there and belongs to a process that is
there (`run_of_unlimited`).  Every such line begins with the ids and the descriptor's number, fits,
and has no newline in it (`compose_line`).
-/

namespace KernelTables

namespace ProcView

/-- The descriptors listed for some processes, each with the process it is listed for. -/
def listedFiles (proc : ProcView) (pids : List Int32) : List (Int32 × UInt32) :=
  pids.flatMap fun pid => (proc.descriptors pid).map (pid, ·)

/-- What is found of a descriptor and of its process. -/
def lookUp (proc : ProcView) (entry : Int32 × UInt32) : Option Task × Option OpenFile :=
  (proc.task? entry.1 entry.1, proc.file? entry.1 entry.2)

theorem allFiles_eq (proc : ProcView) (pids : List Int32) :
    proc.allFiles pids = (proc.listedFiles pids).map proc.lookUp := by
  simp only [allFiles, listedFiles, List.map_flatMap, List.map_map]
  rfl

end ProcView

namespace FileReporter

/-- The columns that every line begins with. -/
def leadingColumns (pid tgid : Int32) (fd : UInt32) : Bytes :=
  column "pid" (idText pid) ++ utf8 " " ++ column "ppid" (idText tgid) ++ utf8 " " ++
    column "fd" (Numeral.decimal fd.toNat) ++ utf8 " "

/-- Every line begins with the ids and the descriptor's number, fits, and is one line. -/
theorem compose_line (reporter : FileReporter) (task : Task) (file : OpenFile) :
    leadingColumns task.pid task.tgid file.fd <+: (reporter.compose task file).2.text ∧
      (reporter.compose task file).2.text.length ≤ lineCapacity ∧
      newline ∉ (reporter.compose task file).2.text := by
  refine ⟨?_, ?_, ?_⟩
  · simp only [FileRecord.text, row_cons_cons, leadingColumns, ← List.append_assoc]
    simp only [compose, List.append_assoc, List.prefix_append_right_inj]
    exact List.prefix_append _ _
  · exact FileRecord.length_text_le (Field.length_contents_le _) (Field.length_contents_le _)
      (Field.length_contents_le _) (Field.length_contents_le _)
  · apply FileRecord.newline_notMem_text <;>
      simp only [compose, FileScratch.fill, Field.contents_sanitized, newline_notMem_sanitize,
        not_false_eq_true]

/-- What a report does with a descriptor, on a stream that takes everything. -/
def effect (reporter : FileReporter) : Option Task × Option OpenFile → Effect FileReporter
  | (some task, some file) =>
    ⟨(reporter.compose task file).1.wiped, [(reporter.compose task file).2.text], .emitted⟩
  | _ => ⟨reporter, [], .skipped⟩

/-- The same for a numbered descriptor; the first one has the column heads before it. -/
def numberedEffect (reporter : FileReporter) (entry : (Option Task × Option OpenFile) × Nat) :
    Effect FileReporter :=
  { reporter.effect entry.1 with
    lines := (if entry.2 = 0 then [FileRecord.header] else []) ++ (reporter.effect entry.1).lines }

theorem visit_of_unlimited (reporter : FileReporter) (number : Nat) (task : Option Task)
    (file : Option OpenFile) {stream : Stream} (hroom : stream.sink.room = none) :
    reporter.visit number task file stream =
      (reporter.numberedEffect ((task, file), number)).on stream := by
  let heads := if number = 0 then [FileRecord.header] else []
  have hheads : (if number = 0 then stream.writeLine FileRecord.header else (stream, .ok ())) =
      (stream.append heads, .ok ()) := by
    by_cases hnumber : number = 0
    · simp only [heads, if_pos hnumber, Stream.writeLine_of_unlimited hroom]
    · simp only [heads, if_neg hnumber, Stream.append_nil]
  have hroom' : (stream.append heads).sink.room = none := by
    rw [Stream.room_append, hroom]
  rw [visit, hheads]
  cases task with
  | none => simp only [numberedEffect, effect, Effect.on, List.append_nil, heads]
  | some task =>
    cases file with
    | none => simp only [numberedEffect, effect, Effect.on, List.append_nil, heads]
    | some file =>
      obtain ⟨-, hfits, -⟩ := reporter.compose_line task file
      simp only [Visit.printing, Stream.print_of_unlimited hroom' hfits, Stream.append_append]
      rfl

theorem visitNumbered_of_unlimited (reporter : FileReporter)
    (entry : (Option Task × Option OpenFile) × Nat) {stream : Stream}
    (hroom : stream.sink.room = none) :
    reporter.visitNumbered entry stream = (reporter.numberedEffect entry).on stream := by
  rw [visitNumbered, reporter.visit_of_unlimited _ _ _ hroom]
  rfl

/-- Behind the first descriptor there are no column heads. -/
theorem allLines_numbered_of_pos (reporter : FileReporter)
    (objects : List (Option Task × Option OpenFile)) {number : Nat} (h : number ≠ 0) :
    Effect.allLines (Effect.sequence numberedEffect reporter (objects.zipIdx number)) =
      Effect.allLines (Effect.sequence effect reporter objects) := by
  induction objects generalizing reporter number with
  | nil => rfl
  | cons object objects ih =>
    have hlines : (reporter.numberedEffect (object, number)).lines =
        (reporter.effect object).lines := by
      simp only [numberedEffect, if_neg h, List.nil_append]
    have hrest := ih (reporter.effect object).reporter (Nat.succ_ne_zero number)
    rw [List.zipIdx_cons, Effect.allLines_cons, Effect.allLines_cons, hlines]
    exact congrArg _ hrest

/-- The column heads go before everything else, if there is anything at all. -/
theorem allLines_numbered (reporter : FileReporter)
    (objects : List (Option Task × Option OpenFile)) :
    Effect.allLines (Effect.sequence numberedEffect reporter objects.zipIdx) =
      (if objects.isEmpty then [] else [FileRecord.header]) ++
        Effect.allLines (Effect.sequence effect reporter objects) := by
  cases objects with
  | nil => rfl
  | cons object objects =>
    have hrest := allLines_numbered_of_pos (reporter.effect object).reporter objects
      Nat.one_ne_zero
    rw [List.zipIdx_cons, Effect.allLines_cons, Effect.allLines_cons]
    exact congrArg (FileRecord.header :: (reporter.effect object).lines ++ ·) hrest

/-- A file report visits the descriptors of the table one after another, by number. -/
theorem run_eq_of_unlimited (reporter : FileReporter) {proc : ProcView} {pids : List Int32}
    (hpids : proc.pids? = some pids) {stream : Stream} (hroom : stream.sink.room = none) :
    reporter.run proc stream =
      ⟨Effect.last numberedEffect reporter (proc.allFiles pids).zipIdx,
        stream.append (Effect.allLines
          (Effect.sequence numberedEffect reporter (proc.allFiles pids).zipIdx)),
        .ok (Effect.tally {} (Effect.sequence numberedEffect reporter
          (proc.allFiles pids).zipIdx))⟩ := by
  rw [run, hpids]
  exact Run.visitAll_of_unlimited
    (fun entry _ reporter _ hroom => reporter.visitNumbered_of_unlimited entry hroom) reporter hroom
    {}

/-- **A file report is a line for each descriptor that is there**, behind one line of column
heads. -/
theorem run_of_unlimited (reporter : FileReporter) {proc : ProcView} {pids : List Int32}
    (hpids : proc.pids? = some pids) {stream : Stream} (hroom : stream.sink.room = none) :
    (reporter.run proc stream).stream = stream.append
      ((if (proc.listedFiles pids).isEmpty then [] else [FileRecord.header]) ++
        Effect.allLines (Effect.sequence (fun reporter entry => effect reporter (proc.lookUp entry))
          reporter (proc.listedFiles pids))) := by
  rw [reporter.run_eq_of_unlimited hpids hroom, allLines_numbered, proc.allFiles_eq,
    List.isEmpty_map, Effect.sequence_map]

/-- The same for any table: where it cannot be listed, nothing is added. -/
theorem stream_run (reporter : FileReporter) (proc : ProcView) {stream : Stream}
    (hroom : stream.sink.room = none) :
    (reporter.run proc stream).stream = stream.append
      ((if (proc.listedFiles proc.pids).isEmpty then [] else [FileRecord.header]) ++
        Effect.allLines (Effect.sequence (fun reporter entry => effect reporter (proc.lookUp entry))
          reporter (proc.listedFiles proc.pids))) := by
  cases hpids : proc.pids? with
  | none =>
    rw [run, ProcView.pids, hpids]
    exact stream.append_nil.symm
  | some pids => rw [reporter.run_of_unlimited hpids hroom, ProcView.pids, hpids, Option.getD_some]

end FileReporter

end KernelTables
