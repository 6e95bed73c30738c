import KernelTables.Proofs.Proc.Listing
import KernelTables.Proofs.Report.File

/-!
# Every process and every descriptor once

On a process table as the kernel makes it, a report has one line for each process, and a report of
open files one for each descriptor, in ascending order of their numbers; nothing that can be looked
up is lost on the way from the directories to the lines, and nothing comes up twice.

* `ProcView.processes`, `ProcView.opened` — the processes and the descriptors that there is
  something to say of, with `pairwise_processes`, `mem_processes` and the same for descriptors: each
  of them once, in ascending order, wherever its name stands in its directory;
* `TaskReporter.forall₂_lines`, `FileReporter.forall₂_lines` — the lines are theirs, one each;
* `FileSystem.census` — both for the table in any file system, and that reordering its listings
  changes neither report.
-/

namespace KernelTables

/-! ## Processes and descriptors -/

namespace ProcView

variable (proc : ProcView)

/-- Whether a listed thread stands for its process, and there is something to say of it. -/
def leads (entry : Int32 × Int32) : Bool :=
  entry.2 = entry.1 && (proc.task? entry.1 entry.2).isSome

/-- The processes that have a line, in order. -/
def processes : List Int32 := ((proc.listed proc.pids).filter proc.leads).map (·.1)

/-- Whether there is something to say of a listed descriptor and of its process. -/
def known (entry : Int32 × UInt32) : Bool :=
  (proc.lookUp entry).1.isSome && (proc.lookUp entry).2.isSome

/-- The descriptors that have a line, in order, each with its process. -/
def opened : List (Int32 × UInt32) := (proc.listedFiles proc.pids).filter proc.known

variable {proc} (h : proc.IsRegular) (htree : proc.IsTree)

include h htree

theorem mem_pids {pid : Int32} : pid ∈ proc.pids ↔ idText pid ∈ proc.listing [] :=
  (h.pids_ascending htree).2 pid

/-- The processes that have a line are those with a name in the table and a leader to read. -/
theorem mem_processes {pid : Int32} :
    pid ∈ proc.processes ↔ idText pid ∈ proc.listing [] ∧ (proc.task? pid pid).isSome := by
  simp only [processes, List.mem_map, List.mem_filter, Prod.exists, leads, listed, mem_pairs,
    Bool.and_eq_true, decide_eq_true_eq]
  constructor
  · rintro ⟨pid, tid, ⟨⟨hpid, -⟩, rfl, hfound⟩, rfl⟩
    exact ⟨(mem_pids h htree).mp hpid, hfound⟩
  · rintro ⟨hpid, hfound⟩
    refine ⟨pid, pid, ⟨⟨(mem_pids h htree).mpr hpid, ?_⟩, rfl, hfound⟩, rfl⟩
    exact ((h.threads_ascending htree hpid).2 pid).mpr (htree.listed hfound)

theorem pairwise_processes : proc.processes.Pairwise (· < ·) := by
  have hlisted : (proc.listed proc.pids).Pairwise (Prod.Lex (· < ·) (· < ·)) := by
    refine pairwise_lex_pairs (h.pids_ascending htree).1 ?_
    intro pid hpid
    exact (h.threads_ascending htree ((mem_pids h htree).mp hpid)).1
  rw [processes, List.pairwise_map]
  refine (hlisted.filter _).imp_of_mem ?_
  intro first second hfirst hsecond hlex
  simp only [leads, List.mem_filter, Bool.and_eq_true, decide_eq_true_eq] at hfirst hsecond
  rcases Prod.lex_def.mp hlex with hlt | ⟨heq, hlt⟩
  · exact hlt
  · -- two leaders of one process would be two threads of the same number
    rw [hfirst.2.1, hsecond.2.1, heq] at hlt
    exact absurd hlt (Std.lt_irrefl)

theorem mem_opened {pid : Int32} {fd : UInt32} :
    (pid, fd) ∈ proc.opened ↔ idText pid ∈ proc.listing [] ∧
      Numeral.decimal fd.toNat ∈ proc.listing (below pid ["fd"]) ∧ (proc.task? pid pid).isSome ∧
      (proc.readLink? [idText pid, utf8 "fd", Numeral.decimal fd.toNat]).isSome := by
  have hlink : (proc.file? pid fd).isSome =
      (proc.readLink? [idText pid, utf8 "fd", Numeral.decimal fd.toNat]).isSome := by
    rw [file?, Option.isSome_map]
  simp only [opened, List.mem_filter, known, lookUp, listedFiles, mem_pairs, Bool.and_eq_true,
    hlink]
  constructor
  · rintro ⟨⟨hpid, hfd⟩, hfound, hread⟩
    have hpid := (mem_pids h htree).mp hpid
    exact ⟨hpid, ((h.descriptors_ascending htree hpid).2 fd).mp hfd, hfound, hread⟩
  · rintro ⟨hpid, hfd, hfound, hread⟩
    exact ⟨⟨(mem_pids h htree).mpr hpid, ((h.descriptors_ascending htree hpid).2 fd).mpr hfd⟩,
      hfound, hread⟩

/-- Whether any process has a descriptor to list, whatever can be read of it. -/
theorem isEmpty_listedFiles :
    (proc.listedFiles proc.pids).isEmpty = false ↔ ∃ (pid : Int32) (fd : UInt32),
      idText pid ∈ proc.listing [] ∧
        Numeral.decimal fd.toNat ∈ proc.listing (below pid ["fd"]) := by
  rw [List.isEmpty_eq_false_iff_exists_mem]
  constructor
  · rintro ⟨⟨pid, fd⟩, hentry⟩
    obtain ⟨hpid, hfd⟩ := mem_pairs.mp hentry
    have hpid := (mem_pids h htree).mp hpid
    exact ⟨pid, fd, hpid, ((h.descriptors_ascending htree hpid).2 fd).mp hfd⟩
  · rintro ⟨pid, fd, hpid, hfd⟩
    exact ⟨(pid, fd), mem_pairs.mpr ⟨(mem_pids h htree).mpr hpid,
      ((h.descriptors_ascending htree hpid).2 fd).mpr hfd⟩⟩

theorem pairwise_opened : proc.opened.Pairwise (Prod.Lex (· < ·) (· < ·)) := by
  refine List.Pairwise.filter _ (pairwise_lex_pairs (h.pids_ascending htree).1 ?_)
  intro pid hpid
  exact (h.descriptors_ascending htree ((mem_pids h htree).mp hpid)).1

end ProcView

/-! ## Their lines -/

namespace TaskReporter

/-- Whether a line is what a report writes of a process: one line that begins with the ids. -/
structure IsLineOf (proc : ProcView) (pid : Int32) (line : Bytes) : Prop where
  /-- Nothing in it breaks the line. -/
  unbroken : newline ∉ line
  /-- It begins with the ids. -/
  ids : idColumns pid pid <+: line
  /-- It is the line of what is known of the process. -/
  composed : ∃ (reporter : TaskReporter) (task : Task),
    proc.task? pid pid = some task ∧ line = (reporter.compose task).2

/-- A leader of a process that is listed has its line, whatever the report has seen. -/
theorem effect_of_leads {proc : ProcView} (h : proc.IsRegular) (htree : proc.IsTree)
    {entry : Int32 × Int32} (hlisted : entry.1 ∈ proc.pids) (hleads : proc.leads entry = true)
    (reporter : TaskReporter) :
    ∃ line, (reporter.effect (proc.task? entry.1 entry.2)).lines = [line] ∧
      IsLineOf proc entry.1 line := by
  obtain ⟨pid, tid⟩ := entry
  obtain ⟨rfl, hfound⟩ : tid = pid ∧ (proc.task? pid tid).isSome := by
    simpa [ProcView.leads] using hleads
  obtain ⟨task, htask⟩ := Option.isSome_iff_exists.mp hfound
  obtain ⟨hid, htgid⟩ := h.own_of_listed htree ((ProcView.mem_pids h htree).mp hlisted) htask
  have hleader : task.isLeader = true := beq_iff_eq.mpr (hid.trans htgid.symm)
  have hids := (reporter.compose_line task).1
  rw [hid, htgid] at hids
  refine ⟨(reporter.compose task).2, ?_, reporter.newline_notMem_compose task, hids,
    reporter, task, htask, rfl⟩
  rw [htask, effect, if_pos hleader]

/-- Any other thread that is listed has none. -/
theorem effect_of_not_leads {proc : ProcView} (h : proc.IsRegular) (htree : proc.IsTree)
    {entry : Int32 × Int32} (hlisted : entry.1 ∈ proc.pids) (hleads : proc.leads entry = false)
    (reporter : TaskReporter) : (reporter.effect (proc.task? entry.1 entry.2)).lines = [] := by
  obtain ⟨pid, tid⟩ := entry
  cases htask : proc.task? pid tid with
  | none => rfl
  | some task =>
    obtain ⟨hid, htgid⟩ := h.own_of_listed htree ((ProcView.mem_pids h htree).mp hlisted) htask
    have hleader : ¬task.isLeader = true := by
      rw [Task.isLeader, hid, htgid, beq_iff_eq]
      rintro rfl
      simp [ProcView.leads, htask] at hleads
    rw [effect, if_neg hleader]

/-- **The lines of a task report are those of the processes**, one each. -/
theorem forall₂_lines {proc : ProcView} (h : proc.IsRegular) (htree : proc.IsTree)
    (reporter : TaskReporter) {stream : Stream} (hroom : stream.sink.room = none) :
    ∃ lines, (reporter.run proc stream).stream = stream.append lines ∧
      List.Forall₂ (IsLineOf proc) proc.processes lines := by
  refine ⟨_, reporter.stream_run proc hroom, ?_⟩
  rw [ProcView.processes, List.forall₂_map_left_iff]
  apply Effect.forall₂_allLines
  · intro entry hentry hleads reporter
    exact effect_of_not_leads h htree (mem_pairs.mp hentry).1 hleads reporter
  · intro entry hentry hleads reporter
    exact effect_of_leads h htree (mem_pairs.mp hentry).1 hleads reporter

/-- The order of listings makes no difference to a task report. -/
theorem run_reordered {proc other : ProcView} (h : proc.Reordered other) (reporter : TaskReporter)
    (stream : Stream) : reporter.run other stream = reporter.run proc stream := by
  have hthreads : other.threads = proc.threads := funext h.threads_eq
  have htasks : other.allTasks = proc.allTasks := by
    funext pids
    rw [ProcView.allTasks, ProcView.allTasks, hthreads, h.task?_eq]
  rw [run, run, h.pids?_eq, htasks]

end TaskReporter

namespace FileReporter

/-- Whether a line is what a report writes of a descriptor: one line that begins with the ids of
its process and with its number. -/
structure IsLineOf (proc : ProcView) (entry : Int32 × UInt32) (line : Bytes) : Prop where
  /-- Nothing in it breaks the line. -/
  unbroken : newline ∉ line
  /-- It begins with the ids and the number. -/
  ids : leadingColumns entry.1 entry.1 entry.2 <+: line
  /-- It is the line of what is known of the two. -/
  composed : ∃ (reporter : FileReporter) (task : Task) (file : OpenFile),
    proc.lookUp entry = (some task, some file) ∧ line = (reporter.compose task file).2.text

/-- A descriptor that is known has its line. -/
theorem effect_of_known {proc : ProcView} (h : proc.IsRegular) (htree : proc.IsTree)
    {entry : Int32 × UInt32} (hlisted : entry.1 ∈ proc.pids) (hknown : proc.known entry = true)
    (reporter : FileReporter) :
    ∃ line, (reporter.effect (proc.lookUp entry)).lines = [line] ∧ IsLineOf proc entry line := by
  obtain ⟨pid, fd⟩ := entry
  obtain ⟨hfound, hopen⟩ : (proc.task? pid pid).isSome ∧ (proc.file? pid fd).isSome := by
    simpa [ProcView.known, ProcView.lookUp] using hknown
  obtain ⟨task, htask⟩ := Option.isSome_iff_exists.mp hfound
  obtain ⟨file, hfile⟩ := Option.isSome_iff_exists.mp hopen
  obtain ⟨hid, htgid⟩ := h.own_of_listed htree ((ProcView.mem_pids h htree).mp hlisted) htask
  have hfd : file.fd = fd := by
    obtain ⟨link, -, rfl⟩ := Option.map_eq_some_iff.mp hfile
    rfl
  have hboth : proc.lookUp (pid, fd) = (some task, some file) := by
    rw [ProcView.lookUp, htask, hfile]
  obtain ⟨hids, -, hunbroken⟩ := reporter.compose_line task file
  rw [hid, htgid, hfd] at hids
  refine ⟨(reporter.compose task file).2.text, ?_, hunbroken, hids, reporter, task, file, hboth, rfl⟩
  rw [hboth, effect]

/-- Any other has none. -/
theorem effect_of_not_known {proc : ProcView} {entry : Int32 × UInt32}
    (hknown : proc.known entry = false) (reporter : FileReporter) :
    (reporter.effect (proc.lookUp entry)).lines = [] := by
  rw [ProcView.known] at hknown
  generalize proc.lookUp entry = found at hknown
  obtain ⟨_ | task, _ | file⟩ := found
  · rfl
  · rfl
  · rfl
  · simp at hknown

/-- **The lines of a report of open files are those of the descriptors**, one each, behind the
column heads; the heads are there if any process has a descriptor to list. -/
theorem forall₂_lines {proc : ProcView} (h : proc.IsRegular) (htree : proc.IsTree)
    (reporter : FileReporter) {stream : Stream} (hroom : stream.sink.room = none) :
    ∃ lines, (reporter.run proc stream).stream = stream.append
        ((if (proc.listedFiles proc.pids).isEmpty then [] else [FileRecord.header]) ++ lines) ∧
      List.Forall₂ (IsLineOf proc) proc.opened lines := by
  refine ⟨_, reporter.stream_run proc hroom, ?_⟩
  apply Effect.forall₂_allLines
  · intro entry _ hknown reporter
    exact effect_of_not_known hknown reporter
  · intro entry hentry hknown reporter
    exact effect_of_known h htree (mem_pairs.mp hentry).1 hknown reporter

/-- The order of listings makes no difference to a report of open files. -/
theorem run_reordered {proc other : ProcView} (h : proc.Reordered other) (reporter : FileReporter)
    (stream : Stream) : reporter.run other stream = reporter.run proc stream := by
  have hdescriptors : other.descriptors = proc.descriptors := funext h.descriptors_eq
  have hfiles : other.allFiles = proc.allFiles := by
    funext pids
    rw [ProcView.allFiles, ProcView.allFiles, hdescriptors, h.task?_eq, h.file?_eq]
  rw [run, run, h.pids?_eq, hfiles]

end FileReporter

/-! ## The table in a file system -/

namespace FileSystem

/-- **Every process and every descriptor once, in order.**  Take the process table in any file
system whose directories list no name twice, made as the kernel makes it, and let a report in any
state write to a stream that takes everything.

The report of tasks adds one line for each process with a name in the table and a leader to read,
and no other; the report of open files adds, behind the column heads, one line for each descriptor
with a name in the directory of such a process and a link to read.  Their numbers ascend strictly.
The heads are there if any process has a descriptor to list.  And if the listings come in another
order, both reports do as they did, on any stream. -/
theorem census {fs : FileSystem} {nodeName : Option NodeName} {path : String}
    (hdistinct : fs.root.Distinct) (hregular : (fs.procView nodeName path).IsRegular) :
    let proc := fs.procView nodeName path
    let Listed (pid : Int32) := idText pid ∈ proc.listing []
    let HasDescriptor (pid : Int32) (fd : UInt32) :=
      Numeral.decimal fd.toNat ∈ proc.listing (ProcView.below pid ["fd"])
    ∃ (processes : List Int32) (opened : List (Int32 × UInt32)),
      processes.Pairwise (· < ·) ∧
      (∀ pid, pid ∈ processes ↔ Listed pid ∧ (proc.task? pid pid).isSome) ∧
      opened.Pairwise (Prod.Lex (· < ·) (· < ·)) ∧
      (∀ pid fd, (pid, fd) ∈ opened ↔
        Listed pid ∧ HasDescriptor pid fd ∧ (proc.task? pid pid).isSome ∧
          (proc.readLink? [idText pid, utf8 "fd", Numeral.decimal fd.toNat]).isSome) ∧
      (∀ (reporter : TaskReporter) (stream : Stream), stream.sink.room = none →
        ∃ lines, (reporter.run proc stream).stream.text = stream.text ++ ofLines lines ∧
          List.Forall₂ (TaskReporter.IsLineOf proc) processes lines) ∧
      (∀ (reporter : FileReporter) (stream : Stream), stream.sink.room = none →
        ∃ heads lines,
          (reporter.run proc stream).stream.text = stream.text ++ ofLines (heads ++ lines) ∧
          List.Forall₂ (FileReporter.IsLineOf proc) opened lines ∧
          ((∃ pid fd, Listed pid ∧ HasDescriptor pid fd) → heads = [FileRecord.header]) ∧
          ((¬∃ pid fd, Listed pid ∧ HasDescriptor pid fd) → heads = [])) ∧
      ∀ root, fs.root.Reordered root →
        (∀ (reporter : TaskReporter) (stream : Stream),
          reporter.run ({ fs with root }.procView nodeName path) stream =
            reporter.run proc stream) ∧
        ∀ (reporter : FileReporter) (stream : Stream),
          reporter.run ({ fs with root }.procView nodeName path) stream =
            reporter.run proc stream := by
  intro proc Listed HasDescriptor
  have htree : proc.IsTree := isTree_procView hdistinct nodeName path
  refine ⟨proc.processes, proc.opened, ProcView.pairwise_processes hregular htree,
    fun pid => ProcView.mem_processes hregular htree, ProcView.pairwise_opened hregular htree,
    fun pid fd => ProcView.mem_opened hregular htree, ?_, ?_, ?_⟩
  · intro reporter stream hroom
    obtain ⟨lines, hstream, hlines⟩ := TaskReporter.forall₂_lines hregular htree reporter hroom
    exact ⟨lines, by rw [hstream, Stream.text_append], hlines⟩
  · intro reporter stream hroom
    obtain ⟨lines, hstream, hlines⟩ := FileReporter.forall₂_lines hregular htree reporter hroom
    have hany := ProcView.isEmpty_listedFiles hregular htree
    refine ⟨_, lines, by rw [hstream, Stream.text_append], hlines, ?_, ?_⟩
    · intro hexists
      rw [hany.mpr hexists]
      rfl
    · intro hnone
      have hempty : (proc.listedFiles proc.pids).isEmpty = true := by
        simpa only [Bool.not_eq_false] using mt hany.mp hnone
      rw [hempty]
      rfl
  · intro root hroot
    have hreordered := procView_reordered hroot nodeName path
    exact ⟨fun reporter stream => reporter.run_reordered hreordered stream,
      fun reporter stream => reporter.run_reordered hreordered stream⟩

/-- What a process table with two processes has in its root, the greater number first. -/
def twoProcesses : List (Bytes × FileTree) :=
  [(utf8 "10", process "10" "11" ["10", "9"]), (utf8 "9", process "9" "12" []),
    (utf8 "uptime", .file [] none)]
where
  /-- A process's directory: its leader, a second thread, and descriptors. -/
  process (id second : String) (descriptors : List String) : FileTree :=
    .directory [(utf8 "task", .directory [(utf8 second, thread second id), (utf8 id, thread id id)]),
      (utf8 "fd", .directory (descriptors.map fun fd => (utf8 fd, .link (utf8 "pipe:[5]"))))]
  /-- A thread's directory. -/
  thread (id tgid : String) : FileTree :=
    .directory [(utf8 "status", .file (utf8 ("Pid:\t" ++ id ++ "\nTgid:\t" ++ tgid ++ "\n")) none)]

/-- The file system with nothing else in it. -/
def holding (entries : List (Bytes × FileTree)) : FileSystem where
  root := .directory entries
  workingDirectory := []

theorem isRegular_twoProcesses : ((holding twoProcesses).procView none "/").IsRegular := by
  have hpids : ProcView.numbers Numeral.int32?
      (((holding twoProcesses).procView none "/").listing []) = [10, 9] := by
    decide +kernel
  have hthreads : ProcView.numbers Numeral.int32?
      (((holding twoProcesses).procView none "/").listing (ProcView.below 10 ["task"])) =
        [11, 10] := by
    decide +kernel
  have hthreads' : ProcView.numbers Numeral.int32?
      (((holding twoProcesses).procView none "/").listing (ProcView.below 9 ["task"])) =
        [12, 9] := by
    decide +kernel
  constructor
  · decide +kernel
  · rw [hpids, List.forall_mem_cons, List.forall_mem_singleton]
    decide +kernel
  · rw [hpids, List.forall_mem_cons, List.forall_mem_singleton]
    decide +kernel
  · rw [hpids, List.forall_mem_cons, List.forall_mem_singleton, hthreads, hthreads',
      List.forall_mem_cons, List.forall_mem_singleton, List.forall_mem_cons,
      List.forall_mem_singleton]
    decide +kernel

/-- Nine comes before ten, whichever of them is listed first, and neither has a line for its second
thread. -/
theorem census_twoProcesses :
    (holding twoProcesses).root.Distinct ∧ ((holding twoProcesses).procView none "/").IsRegular ∧
      ∃ (processes : List Int32) (opened : List (Int32 × UInt32)) (lines : List Bytes),
        processes.Pairwise (· < ·) ∧ (9 ∈ processes ∧ 10 ∈ processes ∧ 11 ∉ processes) ∧
        ((10, 9) ∈ opened ∧ (10, 10) ∈ opened ∧ (9, 9) ∉ opened) ∧
        ((TaskReporter.new .basic false).run
          ((holding twoProcesses.reverse).procView none "/") {}).stream.text = ofLines lines ∧
        List.Forall₂ (TaskReporter.IsLineOf ((holding twoProcesses).procView none "/"))
          processes lines := by
  have hdistinct : (holding twoProcesses).root.Distinct := by
    simp [holding, twoProcesses, twoProcesses.process, twoProcesses.thread]
    decide
  have hregular := isRegular_twoProcesses
  obtain ⟨processes, opened, hascending, hprocesses, -, hopened, htasks, -, hreordered⟩ :=
    census hdistinct hregular
  have hturned : (holding twoProcesses).root.Reordered (.directory twoProcesses.reverse) :=
    .of_perm (List.reverse_perm _).symm (by decide)
  obtain ⟨lines, htext, hlines⟩ := htasks (.new .basic false) {} rfl
  refine ⟨hdistinct, hregular, processes, opened, lines, hascending, ⟨?_, ?_, ?_⟩, ⟨?_, ?_, ?_⟩, ?_,
    hlines⟩
  · exact (hprocesses 9).mpr (by decide +kernel)
  · exact (hprocesses 10).mpr (by decide +kernel)
  · exact mt (hprocesses 11).mp (by decide +kernel)
  · exact (hopened 10 9).mpr (by decide +kernel)
  · exact (hopened 10 10).mpr (by decide +kernel)
  · exact mt (hopened 9 9).mp (by decide +kernel)
  · have hsame := (hreordered _ hturned).1 (.new .basic false) {}
    exact (congrArg (·.stream.text) hsame).trans htext

end FileSystem

end KernelTables
