import KernelTables.Proofs.Proc.Status
import KernelTables.Proofs.Record
import KernelTables.Proofs.Report.Effect

/-!
# Which processes a task report leaves out

A process is reported if its status file can be read.  The command name in that file is chosen by
the process, and may be any bytes but a newline; the file is read as text.

* `task?_eq_none_iff` — a thread is passed over exactly if its status file is gone, is not text, or
  lacks one of its ids;
* `run_of_unlimited` — a report is a line for each leader that is not passed over;
* `StatusFile.reported_iff_isText` — what that means for a file as the kernel writes it: the process
  is reported with its own ids and credentials exactly if its name, and every other field, is text.
  A name that is not hides it.
-/

namespace KernelTables

/-! ## Looking up a thread -/

namespace ProcView

/-- The path of a thread's status file. -/
def statusPath (pid tid : Int32) : NamePath := [idText pid, utf8 "task", idText tid, utf8 "status"]

/-- A thread whose status file is text that names both ids has these ids and the credentials given
there. -/
theorem task?_of_status {proc : ProcView} {pid tid id tgid : Int32} {bytes : Bytes}
    {credentials : Option Credentials} (hread : proc.read? (statusPath pid tid) = some bytes)
    (htext : IsText bytes)
    (hparse : Status.parse (lossy bytes) = ⟨some id, some tgid, credentials⟩) :
    ∃ task, proc.task? pid tid = some task ∧ task.pid = id ∧ task.tgid = tgid ∧
      task.credentials = credentials := by
  have hstatus : (proc.read? ([idText pid, utf8 "task", idText tid] ++ [utf8 "status"])).bind
      decode? = some (lossy bytes) :=
    Option.bind_eq_some_iff.mpr ⟨bytes, hread, decode?_of_isText htext⟩
  rw [task?]
  simp only [hstatus, Option.bind_eq_bind, Option.bind_some, hparse]
  exact ⟨_, rfl, rfl, rfl, rfl⟩

/-- A thread whose status file is not text is not there. -/
theorem task?_of_not_isText {proc : ProcView} {pid tid : Int32} {bytes : Bytes}
    (hread : proc.read? (statusPath pid tid) = some bytes) (htext : ¬IsText bytes) :
    proc.task? pid tid = none := by
  have hdecode : decode? bytes = none := by
    rwa [isText_iff_decode?, Option.not_isSome_iff_eq_none] at htext
  have hstatus : (proc.read? ([idText pid, utf8 "task", idText tid] ++ [utf8 "status"])).bind
      decode? = none := by
    rw [← hdecode]
    exact congrArg (Option.bind · decode?) hread
  rw [task?]
  simp only [hstatus, Option.bind_eq_bind, Option.bind_none]

/-- **Why a thread is passed over**: its status file cannot be read, is not text, or lacks an id. -/
theorem task?_eq_none_iff (proc : ProcView) (pid tid : Int32) :
    proc.task? pid tid = none ↔ ∀ bytes, proc.read? (statusPath pid tid) = some bytes →
      ¬IsText bytes ∨ (Status.parse (lossy bytes)).pid = none ∨
        (Status.parse (lossy bytes)).tgid = none := by
  constructor
  · intro hnone bytes hread
    by_cases htext : IsText bytes
    · right
      cases hid : (Status.parse (lossy bytes)).pid with
      | none => exact Or.inl rfl
      | some id =>
        cases htgid : (Status.parse (lossy bytes)).tgid with
        | none => exact Or.inr rfl
        | some tgid =>
          obtain ⟨task, htask, -⟩ := task?_of_status hread htext
            (by rw [← hid, ← htgid] : Status.parse (lossy bytes) =
              ⟨some id, some tgid, (Status.parse (lossy bytes)).credentials⟩)
          rw [htask] at hnone
          exact absurd hnone (by simp)
    · exact Or.inl htext
  · intro h
    rw [Option.eq_none_iff_forall_not_mem]
    intro task htask
    obtain ⟨text, htext, htask⟩ := Option.bind_eq_some_iff.mp htask
    obtain ⟨bytes, hread, hdecode⟩ := Option.bind_eq_some_iff.mp htext
    obtain ⟨id, hid, htask⟩ := Option.bind_eq_some_iff.mp htask
    obtain ⟨tgid, htgid, -⟩ := Option.bind_eq_some_iff.mp htask
    obtain rfl := decode?_eq_some_iff.mp hdecode
    have hcases := h _ hread
    rw [lossy_encode, hid, htgid] at hcases
    simp [isText_encode] at hcases

/-- The processes of a table, ascending; none if it cannot be listed. -/
def pids (proc : ProcView) : List Int32 := proc.pids?.getD []

/-- The threads of some processes, each with the process it is found under. -/
def listed (proc : ProcView) (pids : List Int32) : List (Int32 × Int32) :=
  pids.flatMap fun pid => (proc.threads pid).map (pid, ·)

theorem allTasks_eq (proc : ProcView) (pids : List Int32) :
    proc.allTasks pids = (proc.listed pids).map fun entry => proc.task? entry.1 entry.2 := by
  simp only [allTasks, listed, List.map_flatMap, List.map_map]
  rfl

end ProcView

/-! ## The task report on a stream that takes everything -/

namespace TaskReporter

/-- The columns with the ids of a task, which every line begins with. -/
def idColumns (pid tgid : Int32) : Bytes :=
  column "pid" (idText pid) ++ utf8 " " ++ column "ppid" (idText tgid) ++ utf8 " "

/-- Every line begins with the ids, and fits. -/
theorem compose_line (reporter : TaskReporter) (task : Task) :
    idColumns task.pid task.tgid <+: (reporter.compose task).2 ∧
      (reporter.compose task).2.length ≤ lineCapacity := by
  have hcomm : task.comm.sanitized.contents.length ≤ 16 := Field.length_contents_le _
  obtain ⟨format, credentials, exeInode, exePath⟩ := reporter
  cases format with
  | basic => exact ⟨prefix_row _ _ _ _, TaskRecord.length_basicText_le hcomm⟩
  | enriched =>
    exact ⟨prefix_row _ _ _ _,
      TaskRecord.length_enrichedText_le hcomm (Field.length_contents_le _)⟩

/-- No line is broken by what is in it. -/
theorem newline_notMem_compose (reporter : TaskReporter) (task : Task) :
    newline ∉ (reporter.compose task).2 := by
  have hplain {capacity : Nat} (field : Field capacity) : newline ∉ field.sanitized.contents := by
    rw [Field.contents_sanitized]
    exact newline_notMem_sanitize _
  obtain ⟨format, credentials, exeInode, exePath⟩ := reporter
  cases format with
  | basic => exact TaskRecord.newline_notMem_basicText (hplain _)
  | enriched => exact TaskRecord.newline_notMem_enrichedText (hplain _) (hplain _)

/-- What a report does with a task, on a stream that takes everything. -/
def effect (reporter : TaskReporter) : Option Task → Effect TaskReporter
  | none => ⟨reporter, [], .skipped⟩
  | some task =>
    if task.isLeader then ⟨(reporter.compose task).1, [(reporter.compose task).2], .emitted⟩
    else ⟨reporter, [], .skipped⟩

theorem visit_of_unlimited (reporter : TaskReporter) (task : Option Task) {stream : Stream}
    (hroom : stream.sink.room = none) :
    reporter.visit task stream = (reporter.effect task).on stream := by
  cases task with
  | none =>
    rw [visit, effect, Effect.on, Stream.append_nil]
  | some task =>
    rw [visit, effect]
    by_cases hleader : task.isLeader = true
    · rw [if_pos hleader, if_pos hleader]
      simp only [Visit.printing, Stream.print_of_unlimited hroom (reporter.compose_line task).2]
      rfl
    · rw [if_neg hleader, if_neg hleader, Effect.on, Stream.append_nil]

theorem step_visit_of_unlimited (reporter : TaskReporter) (task : Option Task) {stream : Stream}
    (hroom : stream.sink.room = none) :
    Run.step .taskRecord (reporter.visit task stream) = (reporter.effect task).on stream := by
  rw [reporter.visit_of_unlimited task hroom]
  rfl

/-- A task report visits the threads of the table one after another. -/
theorem run_eq_of_unlimited (reporter : TaskReporter) {proc : ProcView} {pids : List Int32}
    (hpids : proc.pids? = some pids) {stream : Stream} (hroom : stream.sink.room = none) :
    reporter.run proc stream =
      ⟨Effect.last effect reporter (proc.allTasks pids),
        stream.append (Effect.allLines (Effect.sequence effect reporter (proc.allTasks pids))),
        .ok (Effect.tally {} (Effect.sequence effect reporter (proc.allTasks pids)))⟩ := by
  rw [run, hpids]
  exact Run.visitAll_of_unlimited
    (fun task _ reporter _ hroom => reporter.step_visit_of_unlimited task hroom) reporter hroom {}

/-- **A task report is a line for each leader**, in the order of the processes and their threads. -/
theorem run_of_unlimited (reporter : TaskReporter) {proc : ProcView} {pids : List Int32}
    (hpids : proc.pids? = some pids) {stream : Stream} (hroom : stream.sink.room = none) :
    (reporter.run proc stream).stream = stream.append (Effect.allLines
      (Effect.sequence (fun reporter entry => effect reporter (proc.task? entry.1 entry.2))
        reporter (proc.listed pids))) := by
  rw [reporter.run_eq_of_unlimited hpids hroom, proc.allTasks_eq, Effect.sequence_map]

/-- The same for any table: where it cannot be listed, nothing is added. -/
theorem stream_run (reporter : TaskReporter) (proc : ProcView) {stream : Stream}
    (hroom : stream.sink.room = none) :
    (reporter.run proc stream).stream = stream.append (Effect.allLines
      (Effect.sequence (fun reporter entry => effect reporter (proc.task? entry.1 entry.2))
        reporter (proc.listed proc.pids))) := by
  cases hpids : proc.pids? with
  | none =>
    rw [run, ProcView.pids, hpids]
    exact stream.append_nil.symm
  | some pids => rw [reporter.run_of_unlimited hpids hroom, ProcView.pids, hpids, Option.getD_some]

/-- What a report writes for a process that is there. -/
theorem effect_of_leader (reporter : TaskReporter) {task : Task} (h : task.pid = task.tgid) :
    ∃ line, (reporter.effect (some task)).lines = [line] ∧ idColumns task.pid task.pid <+: line := by
  have hleader : task.isLeader = true := beq_iff_eq.mpr h
  have hcolumns := (reporter.compose_line task).1
  rw [← h] at hcolumns
  rw [effect, if_pos hleader]
  exact ⟨_, rfl, hcolumns⟩

end TaskReporter

/-! ## A process and its name -/

namespace StatusFile

/-- **A process is reported exactly if its status file is text**, and then with the ids and the
credentials given there.  One line of it is the command name, so a process with a name that is not
text is neither found nor reported, although its ids are there to be read. -/
theorem reported_iff_isText {pid : Int32} {credentials : Credentials}
    (file : StatusFile pid pid credentials) {proc : ProcView}
    (hread : proc.read? (ProcView.statusPath pid pid) = some file.bytes) :
    (file.IsText → ∃ task, proc.task? pid pid = some task ∧ task.pid = pid ∧ task.tgid = pid ∧
      task.credentials = some credentials) ∧
    (¬file.IsText → proc.task? pid pid = none) ∧
    (∀ (reporter : TaskReporter) (stream : Stream) (pids : List Int32),
      proc.pids? = some pids → stream.sink.room = none → ∃ lines : List (List Bytes),
        (reporter.run proc stream).stream.text = stream.text ++ ofLines lines.flatten ∧
        lines.length = (proc.listed pids).length ∧
        ∀ own, ((pid, pid), own) ∈ (proc.listed pids).zip lines →
          (file.IsText → ∃ line, own = [line] ∧ TaskReporter.idColumns pid pid <+: line) ∧
          (¬file.IsText → own = [])) ∧
    ∀ pid tid, proc.task? pid tid = none ↔
      ∀ bytes, proc.read? (ProcView.statusPath pid tid) = some bytes →
        ¬KernelTables.IsText bytes ∨ (Status.parse (lossy bytes)).pid = none ∨
          (Status.parse (lossy bytes)).tgid = none := by
  have hfound (htext : file.IsText) := ProcView.task?_of_status hread
    (file.isText_bytes.mpr htext) (file.parse_bytes htext)
  have hgone (htext : ¬file.IsText) :=
    ProcView.task?_of_not_isText hread (mt file.isText_bytes.mp htext)
  refine ⟨hfound, hgone, ?_, proc.task?_eq_none_iff⟩
  intro reporter stream pids hpids hroom
  let effects := Effect.sequence
    (fun reporter entry => TaskReporter.effect reporter (proc.task? entry.1 entry.2))
    reporter (proc.listed pids)
  refine ⟨effects.map (·.lines), ?_, ?_, ?_⟩
  · rw [reporter.run_of_unlimited hpids hroom, Stream.text_append, Effect.allLines,
      List.flatMap_def]
  · rw [List.length_map, Effect.length_sequence]
  · intro own hown
    rw [List.zip_map_right, List.mem_map] at hown
    obtain ⟨⟨entry, done⟩, hmem, heq⟩ := hown
    obtain ⟨rfl, rfl⟩ := Prod.mk.inj heq
    obtain ⟨reporter, hdone⟩ := Effect.exists_of_mem_zip_sequence hmem
    have hlines : done.lines = (reporter.effect (proc.task? pid pid)).lines := by rw [hdone]
    refine ⟨fun htext => ?_, fun htext => ?_⟩
    · obtain ⟨task, htask, hid, htgid, -⟩ := hfound htext
      obtain ⟨line, hline, hcolumns⟩ := reporter.effect_of_leader (hid.trans htgid.symm)
      rw [htask, hline] at hlines
      rw [hid] at hcolumns
      exact ⟨line, hlines, hcolumns⟩
    · rw [hgone htext] at hlines
      exact hlines

/-- What stands behind the name in the status file of a process. -/
def ownFields : List (Bytes × Bytes) :=
  [(utf8 "Tgid", utf8 "1"), (utf8 "Pid", utf8 "1"), (utf8 "Uid", utf8 "5\t5\t5\t5"),
    (utf8 "Gid", utf8 "6\t6\t6\t6")]

/-- The status file of that process with a given name. -/
def named (name : Bytes) (h : newline ∉ name) : StatusFile 1 1 ⟨5, 6⟩ where
  name := name
  fields := ownFields
  newline_name := h
  plain := by decide +kernel
  says_id := by decide +kernel
  says_tgid := by decide +kernel
  says_uid := by decide +kernel
  says_gid := by decide +kernel

end StatusFile

/-- A process table with one process in it. -/
def ProcView.showing (status : Bytes) : ProcView where
  names? _ := some [utf8 "1"]
  read? path := if path = statusPath 1 1 then some status else none
  readLink? _ := none
  ownNodeName := none

namespace StatusFile

/-- A process may go by the name of another field, and is found; a single byte that is not text
hides it. -/
theorem reported_iff_isText_named :
    (∃ (h : newline ∉ utf8 "Pid:\t2\r") (task : Task),
      (ProcView.showing (named (utf8 "Pid:\t2\r") h).bytes).task? 1 1 = some task ∧
        task.pid = 1 ∧ task.tgid = 1 ∧ task.credentials = some ⟨5, 6⟩) ∧
    ∃ h : newline ∉ [(0xFF : UInt8)],
      (ProcView.showing (named [0xFF] h).bytes).read? (ProcView.statusPath 1 1) =
          some (named [0xFF] h).bytes ∧
        (ProcView.showing (named [0xFF] h).bytes).task? 1 1 = none := by
  have hread (status : Bytes) :
      (ProcView.showing status).read? (ProcView.statusPath 1 1) = some status := by
    simp [ProcView.showing]
  have hfields : ∀ field ∈ ownFields, Status.FieldIsText field := by decide
  refine ⟨?_, ?_⟩
  · have hplain : newline ∉ utf8 "Pid:\t2\r" := by decide
    obtain ⟨hfound, -⟩ := reported_iff_isText (named _ hplain) (hread _)
    obtain ⟨task, htask⟩ := hfound ⟨isText_encode _, hfields⟩
    exact ⟨hplain, task, htask⟩
  · have hplain : newline ∉ [(0xFF : UInt8)] := by decide
    have hname : ¬KernelTables.IsText [0xFF] := by decide
    obtain ⟨-, hgone, -⟩ := reported_iff_isText (named _ hplain) (hread _)
    exact ⟨hplain, hread _, hgone fun htext => hname htext.1⟩

end StatusFile

end KernelTables
