import KernelTables.Proofs.Proc.Listing
import KernelTables.Proofs.Report.File
import KernelTables.Proofs.Report.TaskHistory

/-!
# No process shows in another's lines

A report that carries nothing over is put together from pieces, one for each process, and a piece
depends on nothing but what is found below the process's own directory and on what all processes
are told of the system: its node name and the name of its own UTS namespace.

* `ProcView.AgreesBelow` — two tables that agree on all this for one process;
* `TaskReporter.contribution`, `FileReporter.contribution` — the pieces; `contribution_congr` says
  that they depend on one process, and `text_run_eq_contributions` that there is nothing else;
* `ProcView.DifferOnlyAt` — two texts that differ in the pieces of one process;
* `ProcView.separation` — what all this means for whole reports.
-/

namespace KernelTables

/-! ## One process in two tables -/

/-- Whether two tables agree on a process: on everything that is found by a path through its
directory, which for a link is its target and the inode it leads to, and on what they tell every
process of the system. -/
structure ProcView.AgreesBelow (pid : Int32) (proc other : ProcView) : Prop where
  /-- The directories below the process list the same. -/
  names : ∀ path, other.names? (idText pid :: path) = proc.names? (idText pid :: path)
  /-- The files below the process read the same. -/
  read : ∀ path, other.read? (idText pid :: path) = proc.read? (idText pid :: path)
  /-- The links below the process have the same targets and lead to the same inodes. -/
  readLink : ∀ path, other.readLink? (idText pid :: path) = proc.readLink? (idText pid :: path)
  /-- The system is in the same UTS namespace. -/
  ownNamespace : (other.readLink? (["self", "ns", "uts"].map utf8)).map (·.1) =
    (proc.readLink? (["self", "ns", "uts"].map utf8)).map (·.1)
  /-- The system has the same node name. -/
  ownNodeName : other.ownNodeName = proc.ownNodeName

namespace ProcView.AgreesBelow

variable {pid : Int32} {proc other : ProcView} (h : proc.AgreesBelow pid other)

include h

theorem threads_eq : other.threads pid = proc.threads pid := by
  rw [threads, threads, below, h.names]

theorem descriptors_eq : other.descriptors pid = proc.descriptors pid := by
  rw [descriptors, descriptors, below, h.names]

theorem exe?_eq : other.exe? pid = proc.exe? pid := by
  rw [exe?, exe?, below, h.readLink]

theorem nodeName?_eq : other.nodeName? pid = proc.nodeName? pid := by
  have hfile : nodeName?.fromFile other pid = nodeName?.fromFile proc pid := by
    rw [nodeName?.fromFile, nodeName?.fromFile, below, h.read]
  have hown := h.ownNamespace
  simp only [nodeName?, below, h.readLink, h.ownNodeName, hfile]
  -- only the name of the system's own namespace matters, not the inode behind it
  generalize other.readLink? (["self", "ns", "uts"].map utf8) = theirs at hown ⊢
  generalize proc.readLink? (["self", "ns", "uts"].map utf8) = ours at hown ⊢
  cases theirs with
  | none =>
    rw [Option.map_eq_none_iff.mp hown.symm]
  | some own =>
    obtain ⟨own', rfl, heq⟩ := Option.map_eq_some_iff.mp hown.symm
    simp only [heq]

theorem task?_eq (tid : Int32) : other.task? pid tid = proc.task? pid tid := by
  simp only [task?, List.cons_append, h.read, h.exe?_eq, h.nodeName?_eq]

theorem file?_eq (fd : UInt32) : other.file? pid fd = proc.file? pid fd := by
  rw [file?, file?, h.readLink]

end ProcView.AgreesBelow

/-! ## The contribution of one process -/

theorem ofLines_flatMap_pairs {α β : Type} (ids : List α) (below : α → List β)
    (lines : α × β → List Bytes) :
    ofLines ((ids.flatMap fun id => (below id).map (id, ·)).flatMap lines) =
      ids.flatMap fun id => ofLines ((below id).flatMap fun x => lines (id, x)) := by
  simp only [ofLines, List.flatMap_assoc, List.flatMap_map]

namespace TaskReporter

/-- What a process contributes to a report of tasks: the lines that a fresh report has for its
threads. -/
def contribution (format : TaskFormat) (proc : ProcView) (pid : Int32) : Bytes :=
  ofLines ((proc.threads pid).flatMap fun tid =>
    ((new format false).effect (proc.task? pid tid)).lines)

/-- It depends on that process alone. -/
theorem contribution_congr {pid : Int32} {proc other : ProcView} (h : proc.AgreesBelow pid other)
    (format : TaskFormat) : contribution format other pid = contribution format proc pid := by
  rw [contribution, contribution, h.threads_eq]
  simp only [h.task?_eq]

/-- A report that carries nothing over writes of a task what a fresh report writes, whatever it has
seen. -/
theorem effect_carrying (format : TaskFormat) (known : KnownValues) (task : Option Task) :
    (∃ known', ((carrying format false known).effect task).reporter =
        carrying format false known') ∧
      ((carrying format false known).effect task).lines =
        ((new format false).effect task).lines := by
  cases task with
  | none => exact ⟨⟨known, rfl⟩, rfl⟩
  | some task =>
    have hline := compose_eq_fresh format false known task
    simp only [Bool.false_eq_true, if_false, Task.filledIn_empty] at hline
    rw [effect, effect]
    split
    · exact ⟨⟨_, reporter_compose format false known task⟩, congrArg (fun line => [line]) hline⟩
    · exact ⟨⟨known, rfl⟩, rfl⟩

/-- **A report of tasks is put together from contributions.** -/
theorem text_run_eq_contributions (format : TaskFormat) (history : List TaskVisit) (proc : ProcView)
    {stream : Stream} (hroom : stream.sink.room = none) :
    ((after format false history).run proc stream).stream.text =
      stream.text ++ proc.pids.flatMap (contribution format proc) := by
  have hlines : Effect.allLines (Effect.sequence
      (fun reporter entry => TaskReporter.effect reporter (proc.task? entry.1 entry.2))
      (after format false history) (proc.listed proc.pids)) =
      (proc.listed proc.pids).flatMap fun entry =>
        ((new format false).effect (proc.task? entry.1 entry.2)).lines := by
    apply Effect.allLines_of_invariant
      (P := fun reporter => ∃ known, reporter = carrying format false known)
    · rintro _ entry ⟨known, rfl⟩
      exact effect_carrying format known (proc.task? entry.1 entry.2)
    · exact ⟨_, after_eq format false history⟩
  rw [stream_run _ proc hroom, Stream.text_append, hlines, ProcView.listed, ofLines_flatMap_pairs]
  rfl

end TaskReporter

namespace FileReporter

/-- What a process contributes to a report of open files: the lines that a fresh report has for its
descriptors. -/
def contribution (proc : ProcView) (pid : Int32) : Bytes :=
  ofLines ((proc.descriptors pid).flatMap fun fd =>
    ((new false).effect (proc.lookUp (pid, fd))).lines)

/-- The column heads, which are there if any process has a descriptor to list. -/
def heading (proc : ProcView) : Bytes :=
  if ∃ pid ∈ proc.pids, proc.descriptors pid ≠ [] then ofLines [FileRecord.header] else []

theorem contribution_congr {pid : Int32} {proc other : ProcView} (h : proc.AgreesBelow pid other) :
    contribution other pid = contribution proc pid := by
  rw [contribution, contribution, h.descriptors_eq]
  simp only [ProcView.lookUp, h.task?_eq, h.file?_eq]

theorem effect_carrying (last : Option Credentials) (entry : Option Task × Option OpenFile) :
    (∃ last', ((carrying false last).effect entry).reporter = carrying false last') ∧
      ((carrying false last).effect entry).lines = ((new false).effect entry).lines := by
  obtain ⟨_ | task, _ | file⟩ := entry
  · exact ⟨⟨last, rfl⟩, rfl⟩
  · exact ⟨⟨last, rfl⟩, rfl⟩
  · exact ⟨⟨last, rfl⟩, rfl⟩
  · have hrecord := compose_eq_fresh false last task file
    have htask : task.withCredentials none = task := by simp [Task.withCredentials]
    simp only [Bool.false_eq_true, if_false, htask] at hrecord
    exact ⟨⟨_, wiped_compose false last task file⟩,
      congrArg (fun record => [FileRecord.text record]) hrecord⟩

theorem ofLines_heads (proc : ProcView) :
    ofLines (if (proc.listedFiles proc.pids).isEmpty then [] else [FileRecord.header]) =
      heading proc := by
  have hnone : proc.listedFiles proc.pids = [] ↔
      ¬∃ pid ∈ proc.pids, proc.descriptors pid ≠ [] := by
    simp [ProcView.listedFiles, List.flatMap_eq_nil_iff]
  unfold heading
  by_cases hany : ∃ pid ∈ proc.pids, proc.descriptors pid ≠ []
  · have hne : ¬(proc.listedFiles proc.pids).isEmpty = true := by
      rw [List.isEmpty_iff, hnone]
      exact not_not.mpr hany
    rw [if_neg hne, if_pos hany]
  · have hempty : (proc.listedFiles proc.pids).isEmpty = true := by
      rw [List.isEmpty_iff, hnone]
      exact hany
    rw [if_pos hempty, if_neg hany, ofLines_nil]

/-- **A report of open files is put together from contributions**, behind the column heads. -/
theorem text_run_eq_contributions (history : List FileVisit) (proc : ProcView) {stream : Stream}
    (hroom : stream.sink.room = none) :
    ((after false history).run proc stream).stream.text =
      stream.text ++ heading proc ++ proc.pids.flatMap (contribution proc) := by
  have hlines : Effect.allLines (Effect.sequence
      (fun reporter entry => FileReporter.effect reporter (proc.lookUp entry))
      (after false history) (proc.listedFiles proc.pids)) =
      (proc.listedFiles proc.pids).flatMap fun entry =>
        ((new false).effect (proc.lookUp entry)).lines := by
    apply Effect.allLines_of_invariant
      (P := fun reporter => ∃ last, reporter = carrying false last)
    · rintro _ entry ⟨last, rfl⟩
      exact effect_carrying last (proc.lookUp entry)
    · exact ⟨_, after_eq false history⟩
  rw [stream_run _ proc hroom, Stream.text_append, hlines, ofLines_append, ofLines_heads,
    ProcView.listedFiles, ofLines_flatMap_pairs, List.append_assoc]
  rfl

end FileReporter

/-! ## One process more, less or changed -/

namespace ProcView

theorem pairwise_pids (proc : ProcView) : proc.pids.Pairwise (· ≤ ·) := by
  rw [pids_eq]
  exact pairwise_le_ascending _

/-- Whether two texts, each put together from the pieces of some numbers, differ in the pieces of
one number only: what stands before these is the same in both, and so is what stands behind. -/
def DifferOnlyAt (q : Int32) (ids others : List Int32) (f g : Int32 → Bytes) : Prop :=
  ∃ before behind,
    ids.flatMap f = before ++ (List.replicate (ids.count q) (f q)).flatten ++ behind ∧
    others.flatMap g = before ++ (List.replicate (others.count q) (g q)).flatten ++ behind

/-- Ascending lists of the same numbers but for one give such texts. -/
theorem differOnlyAt_of_filter_eq {ids others : List Int32} (hids : ids.Pairwise (· ≤ ·))
    (hothers : others.Pairwise (· ≤ ·)) {q : Int32}
    (hsame : others.filter (· ≠ q) = ids.filter (· ≠ q)) {f g : Int32 → Bytes}
    (hpieces : ∀ id ∈ ids, id ≠ q → g id = f id) : DifferOnlyAt q ids others f g := by
  -- a part of the list that the number is not in is the same part of the other list
  have hpart {p : Int32 → Bool} (hp : ∀ id, p id = true → id ≠ q) :
      (others.filter p).flatMap g = (ids.filter p).flatMap f := by
    have hboth (list : List Int32) : list.filter p = (list.filter (· ≠ q)).filter p := by
      rw [List.filter_filter]
      refine List.filter_congr fun id _ => ?_
      cases hid : p id with
      | false => rfl
      | true => simpa using hp id hid
    rw [hboth others, hboth ids, hsame, ← hboth ids]
    refine List.flatMap_congr fun id hid => ?_
    obtain ⟨hid, hpid⟩ := List.mem_filter.mp hid
    exact hpieces id hid (hp id hpid)
  have hbefore := hpart (p := (· < q)) (by simpa using fun id => Std.ne_of_lt)
  have hbehind := hpart (p := (q < ·)) (by simpa using fun id hlt => (Std.ne_of_lt hlt).symm)
  refine ⟨(ids.filter (· < q)).flatMap f, (ids.filter (q < ·)).flatMap f, ?_, ?_⟩
  · conv_lhs => rw [← before_append_behind hids q]
    rw [List.flatMap_append, List.flatMap_append, List.flatMap_replicate, List.append_assoc]
  · conv_lhs => rw [← before_append_behind hothers q]
    rw [List.flatMap_append, List.flatMap_append, List.flatMap_replicate, List.append_assoc,
      hbefore, hbehind]

/-- **Processes do not interfere.**  Take reports that carry nothing over, after any visits, and let
them write to a stream that takes everything.  A report of tasks writes the contributions of the
processes, in ascending order of their numbers, and so does a report of open files, behind the
column heads, which are there exactly if a listed process has a descriptor to list.

The contribution of a process is the same in any table that agrees on what its own directory leads
to, on the system's UTS namespace and on its node name.  So in a table that differs in one process
only, be it there or not, changed or not, the reports differ in that process's contribution only. -/
theorem separation (format : TaskFormat) (tasks : List TaskVisit) (files : List FileVisit)
    (proc : ProcView) :
    proc.pids.Pairwise (· ≤ ·) ∧
    (∀ stream : Stream, stream.sink.room = none →
      ((TaskReporter.after format false tasks).run proc stream).stream.text =
        stream.text ++ proc.pids.flatMap (TaskReporter.contribution format proc) ∧
      ((FileReporter.after false files).run proc stream).stream.text =
        stream.text ++ FileReporter.heading proc ++
          proc.pids.flatMap (FileReporter.contribution proc)) ∧
    (∀ pid other, proc.AgreesBelow pid other →
      TaskReporter.contribution format other pid = TaskReporter.contribution format proc pid ∧
      FileReporter.contribution other pid = FileReporter.contribution proc pid) ∧
    ∀ q other, other.pids.filter (· ≠ q) = proc.pids.filter (· ≠ q) →
      (∀ pid ∈ proc.pids, pid ≠ q → proc.AgreesBelow pid other) →
      DifferOnlyAt q proc.pids other.pids (TaskReporter.contribution format proc)
        (TaskReporter.contribution format other) ∧
      DifferOnlyAt q proc.pids other.pids (FileReporter.contribution proc)
        (FileReporter.contribution other) := by
  refine ⟨proc.pairwise_pids, ?_, ?_, ?_⟩
  · intro stream hroom
    exact ⟨TaskReporter.text_run_eq_contributions format tasks proc hroom,
      FileReporter.text_run_eq_contributions files proc hroom⟩
  · intro pid other h
    exact ⟨TaskReporter.contribution_congr h format, FileReporter.contribution_congr h⟩
  · intro q other hsame hagree
    constructor
    · refine differOnlyAt_of_filter_eq proc.pairwise_pids other.pairwise_pids hsame ?_
      intro pid hpid hne
      exact TaskReporter.contribution_congr (hagree pid hpid hne) format
    · refine differOnlyAt_of_filter_eq proc.pairwise_pids other.pairwise_pids hsame ?_
      intro pid hpid hne
      exact FileReporter.contribution_congr (hagree pid hpid hne)

/-- A table of processes that have nothing but a leader each. -/
def ofLeaders (names : List String) : ProcView where
  names?
    | [] => some (names.map utf8)
    | [pid, directory] =>
      if directory = utf8 "task" ∧ pid ∈ names.map utf8 then some [pid] else none
    | _ => none
  read?
    | [] => none
    | pid :: path =>
      if path = [utf8 "task", pid, utf8 "status"] ∧ pid ∈ names.map utf8 then
        some (utf8 "Pid:\t" ++ pid ++ utf8 "\nTgid:\t" ++ pid ++ utf8 "\n")
      else none
  readLink? _ := none
  ownNodeName := none

theorem agreesBelow_ofLeaders {names others : List String} {pid : Int32}
    (h : idText pid ∈ others.map utf8 ↔ idText pid ∈ names.map utf8) :
    (ofLeaders names).AgreesBelow pid (ofLeaders others) where
  names path := by
    rcases path with _ | ⟨directory, _ | ⟨name, path⟩⟩
    · rfl
    · simp only [ofLeaders, h]
    · rfl
  read path := by simp only [ofLeaders, h]
  readLink path := rfl
  ownNamespace := rfl
  ownNodeName := rfl

/-- Taking a process out of a table takes its line out of the report. -/
theorem separation_ofLeaders :
    ∃ before line behind, line = utf8 "pid=2 ppid=2 comm=\n" ∧
      ((TaskReporter.new .basic false).run (ofLeaders ["1", "2", "10"]) {}).stream.text =
        before ++ line ++ behind ∧
      ((TaskReporter.new .basic false).run (ofLeaders ["1", "10"]) {}).stream.text =
        before ++ behind := by
  have hpids : (ofLeaders ["1", "2", "10"]).pids = [1, 2, 10] := by
    rw [pids_eq, List.mergeSort_of_pairwise (by decide +kernel)]
    decide +kernel
  have hpids' : (ofLeaders ["1", "10"]).pids = [1, 10] := by
    rw [pids_eq, List.mergeSort_of_pairwise (by decide +kernel)]
    decide +kernel
  have hline : TaskReporter.contribution .basic (ofLeaders ["1", "2", "10"]) 2 =
      utf8 "pid=2 ppid=2 comm=\n" := by
    rw [TaskReporter.contribution, threads, List.mergeSort_of_pairwise (by decide +kernel)]
    decide +kernel
  obtain ⟨-, htext, -, hdiffer⟩ := separation .basic [] [] (ofLeaders ["1", "2", "10"])
  obtain ⟨-, htext', -⟩ := separation .basic [] [] (ofLeaders ["1", "10"])
  have hothers : (ofLeaders ["1", "10"]).pids.filter (· ≠ 2) =
      (ofLeaders ["1", "2", "10"]).pids.filter (· ≠ 2) := by
    rw [hpids, hpids']
    decide
  have hagree : ∀ pid ∈ (ofLeaders ["1", "2", "10"]).pids, pid ≠ 2 →
      (ofLeaders ["1", "2", "10"]).AgreesBelow pid (ofLeaders ["1", "10"]) := by
    intro pid hpid hne
    apply agreesBelow_ofLeaders
    rw [hpids] at hpid
    simp only [List.mem_cons, List.not_mem_nil, or_false] at hpid
    rcases hpid with rfl | rfl | rfl
    · decide +kernel
    · exact absurd rfl hne
    · decide +kernel
  obtain ⟨⟨before, behind, htasks, htasks'⟩, -⟩ := hdiffer 2 _ hothers hagree
  refine ⟨before, _, behind, rfl, ?_, ?_⟩
  · refine (htext {} rfl).1.trans ?_
    rw [htasks, hpids, hline]
    simp [Stream.text, Sink.text]
  · refine (htext' {} rfl).1.trans ?_
    rw [htasks', hpids']
    simp [Stream.text, Sink.text]

end ProcView

end KernelTables
