import KernelTables.Proofs.Report.FileHistory
import KernelTables.Report.Task

/-!
# What a task report carries over

In the full layout a task report may fill a value that cannot be read with one from an earlier
leader.  It does so for three values, each on its own.  This file says that such a report is a plain
report of tasks that have been filled in beforehand.

* `after_eq` — **the memory** of a report that has made any visits, on any streams, with writes that
  may have failed: of each of the three values, the one that the last leader to have it had
  (`TaskVisit.lastKnown`).  The short layout remembers nothing.
* `compose_eq_fresh` — a line with carried values is the line that a fresh report composes for the
  task with these values filled in.
* `visit_eq_filledIn` — both together, for a visit after any others; and what is no leader leaves no
  trace, neither on the stream nor in the memory.
-/

namespace KernelTables

/-- A visit of a thread, with the stream it comes upon: whatever earlier visits have left of it,
under whatever limit it has been given since. -/
structure TaskVisit where
  /-- The thread, unless it has gone. -/
  task : Option Task
  /-- The stream as the visit finds it. -/
  stream : Stream

/-- The values of a task that a report may carry over, as far as they are known. -/
structure KnownValues where
  /-- Who the task runs as. -/
  credentials : Option Credentials := none
  /-- The inode of its executable. -/
  exeInode : Option UInt64 := none
  /-- The path of its executable, as it was read. -/
  exePath : Option PathText := none

namespace KnownValues

/-- What a task itself has of them. -/
def ofTask (task : Task) : KnownValues :=
  ⟨task.credentials, task.exe.bind (·.inode), task.exe.bind (·.path)⟩

/-- The values known from either source, field by field; the first one counts where both have one. -/
def or (first second : KnownValues) : KnownValues :=
  ⟨first.credentials.or second.credentials, first.exeInode.or second.exeInode,
    first.exePath.or second.exePath⟩

@[simp] theorem or_empty (known : KnownValues) : known.or {} = known := by
  simp [or]

@[simp] theorem empty_or (known : KnownValues) : ({} : KnownValues).or known = known := by
  simp [or]

end KnownValues

/-- The task with known values in the place of those that it misses. -/
def Task.filledIn (task : Task) (known : KnownValues) : Task :=
  { task with
    credentials := task.credentials.or known.credentials
    exe :=
      match known.exeInode, known.exePath with
      | none, none => task.exe
      | inode, path =>
        some ⟨(task.exe.bind (·.inode)).or inode, (task.exe.bind (·.path)).or path⟩ }

/-- Filling in nothing changes nothing. -/
@[simp] theorem Task.filledIn_empty (task : Task) : task.filledIn {} = task := by
  simp [filledIn]

/-- What is known of a filled-in task. -/
theorem KnownValues.ofTask_filledIn (task : Task) (known : KnownValues) :
    ofTask (task.filledIn known) = (ofTask task).or known := by
  obtain ⟨credentials, inode, path⟩ := known
  cases inode <;> cases path <;> simp [ofTask, Task.filledIn, KnownValues.or]

namespace TaskVisit

/-- The thread that is visited, if it leads its group. -/
def leader? (visit : TaskVisit) : Option Task := visit.task.filter (·.isLeader)

/-- The values that a visit brings: those of a leader. -/
def known (visit : TaskVisit) : KnownValues := (visit.leader?.map .ofTask).getD {}

/-- The same visit with known values for a task that misses some. -/
def filledIn (visit : TaskVisit) (known : KnownValues) : TaskVisit :=
  { visit with task := visit.task.map (·.filledIn known) }

@[simp] theorem filledIn_empty (visit : TaskVisit) : visit.filledIn {} = visit := by
  obtain ⟨task, stream⟩ := visit
  cases task <;> simp [filledIn]

/-- The value that the most recent leader to have one had. -/
def last {α : Type} (field : Task → Option α) (history : List TaskVisit) : Option α :=
  history.reverse.findSome? fun visit => visit.leader?.bind field

/-- The last value of each kind, however far apart the leaders are that had them. -/
def lastKnown (history : List TaskVisit) : KnownValues where
  credentials := last (·.credentials) history
  exeInode := last (fun task => task.exe.bind (·.inode)) history
  exePath := last (fun task => task.exe.bind (·.path)) history

theorem last_concat {α : Type} (field : Task → Option α) (history : List TaskVisit)
    (visit : TaskVisit) :
    last field (history ++ [visit]) = (visit.leader?.bind field).or (last field history) := by
  rw [last, List.reverse_append, List.findSome?_append]
  cases h : visit.leader?.bind field <;> simp [h, last]

theorem lastKnown_concat (history : List TaskVisit) (visit : TaskVisit) :
    lastKnown (history ++ [visit]) = visit.known.or (lastKnown history) := by
  simp only [lastKnown, last_concat, known]
  cases visit.leader? <;> simp [KnownValues.or, KnownValues.ofTask]

end TaskVisit

namespace TaskReporter

/-- Makes a visit. -/
def meet (reporter : TaskReporter) (visit : TaskVisit) : Visit TaskReporter :=
  reporter.visit visit.task visit.stream

/-- A report that has made the given visits, in order, whatever came of them. -/
def after (format : TaskFormat) (reuse : Bool) (history : List TaskVisit) : TaskReporter :=
  history.foldl (fun reporter visit => (reporter.meet visit).reporter) (new format reuse)

/-- The report that carries the given values. -/
def carrying (format : TaskFormat) (reuse : Bool) (known : KnownValues) : TaskReporter :=
  ⟨format, ⟨reuse, known.credentials⟩, ⟨reuse, known.exeInode⟩, ⟨reuse, known.exePath⟩⟩

/-- What a layout remembers of what is known: the short one has no place for it. -/
def remembered (format : TaskFormat) (known : KnownValues) : KnownValues :=
  match format with
  | .basic => {}
  | .enriched => known

@[simp] theorem remembered_basic (known : KnownValues) : remembered .basic known = {} := rfl

@[simp] theorem remembered_enriched (known : KnownValues) : remembered .enriched known = known := rfl

theorem remembered_or (format : TaskFormat) (first second : KnownValues) :
    remembered format (first.or second) =
      (remembered format first).or (remembered format second) := by
  cases format <;> simp

theorem after_concat (format : TaskFormat) (reuse : Bool) (history : List TaskVisit)
    (visit : TaskVisit) :
    after format reuse (history ++ [visit]) =
      ((after format reuse history).meet visit).reporter := by
  rw [after, List.foldl_append]
  rfl

/-! ## One visit -/

/-- A visit that does not find a leader does nothing at all. -/
theorem meet_of_leader?_eq_none {visit : TaskVisit} (h : visit.leader? = none)
    (reporter : TaskReporter) :
    reporter.meet visit = ⟨reporter, visit.stream, .ok .skipped⟩ := by
  obtain ⟨_ | task, stream⟩ := visit
  · rfl
  · have hleader : ¬task.isLeader = true := by
      intro hleader
      simp [TaskVisit.leader?, hleader] at h
    rw [meet, TaskReporter.visit, if_neg hleader]

/-- A visit that finds a leader composes its line and prints it. -/
theorem meet_of_leader?_eq_some {visit : TaskVisit} {task : Task} (h : visit.leader? = some task)
    (reporter : TaskReporter) :
    reporter.meet visit =
      .printing (reporter.compose task).1 visit.stream (reporter.compose task).2 := by
  obtain ⟨htask, hleader⟩ := Option.filter_eq_some_iff.mp h
  rw [meet, htask]
  exact if_pos hleader

/-- Filling in makes no leader of a thread, and none of another's. -/
theorem leader?_filledIn (visit : TaskVisit) (known : KnownValues) :
    (visit.filledIn known).leader? = visit.leader?.map (·.filledIn known) := by
  obtain ⟨_ | task, stream⟩ := visit
  · rfl
  · have hleader : (task.filledIn known).isLeader = task.isLeader := rfl
    simp only [TaskVisit.leader?, TaskVisit.filledIn, Option.map_some, Option.filter_some, hleader]
    split <;> rfl

/-- Composing a line takes in the values of the task, and leaves those carried before where it has
none. -/
theorem reporter_compose (format : TaskFormat) (reuse : Bool) (known : KnownValues) (task : Task) :
    ((carrying format reuse known).compose task).1 =
      carrying format reuse ((remembered format (.ofTask task)).or known) := by
  cases format with
  | basic => simp [compose, carrying]
  | enriched =>
    obtain ⟨pid, tgid, comm, credentials, _ | ⟨inode, path⟩, nodeName⟩ := task
    · cases credentials <;> simp [compose, carrying, KnownValues.ofTask, KnownValues.or]
    · cases credentials <;> cases inode <;> cases path <;>
        simp [compose, carrying, KnownValues.ofTask, KnownValues.or]

/-- The values that a carry answers with. -/
theorem resolve_snd {α : Type} (reuse : Bool) (last read : Option α) :
    ((⟨reuse, last⟩ : Carry α).resolve read).2 = read.or (if reuse then last else none) := by
  cases read <;> simp

/-- A line of the full layout, by the values that are printed. -/
theorem compose_enriched (reuse : Bool) (known : KnownValues) (task : Task) :
    ((carrying .enriched reuse known).compose task).2 =
      let values := (KnownValues.ofTask task).or (if reuse then known else {})
      TaskRecord.enrichedText
        ⟨task.pid, task.tgid, task.comm.sanitized.contents, values.exeInode,
          values.credentials.map (·.uid), values.credentials.map (·.gid),
          (values.exePath.getD .empty).sanitized.contents⟩ := by
  have hinode : (task.exe.getD {}).inode = task.exe.bind (·.inode) := by cases task.exe <;> rfl
  have hpath : (task.exe.getD {}).path = task.exe.bind (·.path) := by cases task.exe <;> rfl
  simp only [compose, carrying, resolve_snd, hinode, hpath]
  cases reuse <;> rfl

/-- **A line with carried values** is a fresh report's line for the task with these values filled
in. -/
theorem compose_eq_fresh (format : TaskFormat) (reuse : Bool) (known : KnownValues) (task : Task) :
    ((carrying format reuse known).compose task).2 =
      ((new format false).compose (task.filledIn (if reuse then known else {}))).2 := by
  cases format with
  | basic => rfl
  | enriched =>
    have hnew : new .enriched false = carrying .enriched false {} := rfl
    rw [hnew, compose_enriched, compose_enriched, KnownValues.ofTask_filledIn]
    simp only [Bool.false_eq_true, if_false, KnownValues.or_empty]
    rfl

/-- **What one visit leaves behind**, also where its line did not get through: the values of a
leader, and of those it misses the ones carried before. -/
theorem reporter_meet (format : TaskFormat) (reuse : Bool) (known : KnownValues)
    (visit : TaskVisit) :
    ((carrying format reuse known).meet visit).reporter =
      carrying format reuse ((remembered format visit.known).or known) := by
  cases h : visit.leader? with
  | none =>
    have hknown : remembered format visit.known = {} := by
      rw [TaskVisit.known, h]
      cases format <;> rfl
    rw [meet_of_leader?_eq_none h, hknown, KnownValues.empty_or]
  | some task =>
    have hknown : visit.known = .ofTask task := by rw [TaskVisit.known, h]; rfl
    rw [meet_of_leader?_eq_some h, hknown]
    exact reporter_compose format reuse known task

/-- A visit shows what a fresh report shows once the values its task misses are filled in. -/
theorem meet_eq_fresh (format : TaskFormat) (reuse : Bool) (known : KnownValues)
    (visit : TaskVisit) :
    ((carrying format reuse known).meet visit).shown =
      ((new format false).meet (visit.filledIn (if reuse then known else {}))).shown := by
  have hleader := leader?_filledIn visit (if reuse then known else {})
  cases h : visit.leader? with
  | none =>
    rw [h] at hleader
    rw [meet_of_leader?_eq_none h, meet_of_leader?_eq_none hleader]
    rfl
  | some task =>
    rw [h] at hleader
    rw [meet_of_leader?_eq_some h, meet_of_leader?_eq_some hleader]
    simp only [Visit.printing, Progress.shown, compose_eq_fresh format reuse known]
    rfl

/-! ## Any number of visits -/

/-- **The memory of a report.**  After any visits, in the full layout, each of the three values is
the one that the last leader to have it had. -/
theorem after_eq (format : TaskFormat) (reuse : Bool) (history : List TaskVisit) :
    after format reuse history =
      carrying format reuse (remembered format (TaskVisit.lastKnown history)) := by
  -- induction from the end: the values of the last leader count first
  induction history using List.reverseRecOn with
  | nil => cases format <;> rfl
  | append_singleton history visit ih =>
    rw [after_concat, ih, reporter_meet, TaskVisit.lastKnown_concat, remembered_or]

/-- Visits that do not find a leader can be left out of a history. -/
theorem after_filter_leader (format : TaskFormat) (reuse : Bool) (history : List TaskVisit) :
    after format reuse (history.filter (·.leader?.isSome)) = after format reuse history := by
  induction history using List.reverseRecOn with
  | nil => rfl
  | append_singleton history visit ih =>
    cases h : visit.leader? with
    | none =>
      have hkept : (history ++ [visit]).filter (·.leader?.isSome) =
          history.filter (·.leader?.isSome) := by simp [h]
      rw [hkept, ih, after_concat, meet_of_leader?_eq_none h]
    | some task =>
      have hkept : (history ++ [visit]).filter (·.leader?.isSome) =
          history.filter (·.leader?.isSome) ++ [visit] := by simp [h]
      rw [hkept, after_concat, after_concat, ih]

/-- **A report that fills in is a plain report of filled-in tasks.**  Take any visits on any
streams, whatever came of them, and one more.  It leaves the stream, and gives the result, that a
fresh report would with the task in which each of the three values that is missing is, in the full
layout and where reuse is asked for, the one that the last leader to have it had.  A visit that
finds no leader writes nothing and is skipped, and none of those before had any part in this.
Without reuse, and in the short layout, the visits before make no difference. -/
theorem visit_eq_filledIn (format : TaskFormat) (reuse : Bool) (history : List TaskVisit)
    (visit : TaskVisit) :
    ((after format reuse history).meet visit).shown =
      ((new format false).meet (visit.filledIn
        (if reuse ∧ format = .enriched then TaskVisit.lastKnown history else {}))).shown ∧
    (visit.leader? = none →
      ((after format reuse history).meet visit).shown = (visit.stream, .ok .skipped)) ∧
    after format reuse (history.filter (·.leader?.isSome)) = after format reuse history ∧
    (reuse = false ∨ format = .basic →
      ((after format reuse history).meet visit).shown =
        ((new format false).meet visit).shown) := by
  have hshown : ((after format reuse history).meet visit).shown =
      ((new format false).meet (visit.filledIn
        (if reuse ∧ format = .enriched then TaskVisit.lastKnown history else {}))).shown := by
    rw [after_eq, meet_eq_fresh]
    cases format <;> simp
  refine ⟨hshown, ?_, after_filter_leader format reuse history, ?_⟩
  · intro hidle
    rw [meet_of_leader?_eq_none hidle]
    rfl
  · intro hplain
    have hnone : ¬(reuse = true ∧ format = .enriched) := by
      rintro ⟨rfl, rfl⟩
      simp at hplain
    rw [hshown, if_neg hnone, TaskVisit.filledIn_empty]

end TaskReporter

namespace TaskVisit

/-- A leader of which everything is known, on a stream that takes nothing. -/
def refused : TaskVisit where
  task := some
    { pid := 1
      tgid := 1
      comm := .ofBytes (utf8 "init")
      credentials := some ⟨7, 8⟩
      exe := some ⟨some 131, some (.ofBytes (utf8 "/sbin/a\nb"))⟩
      nodeName := none }
  stream := { sink := { room := some 0 } }

/-- A thread that leads no group, with credentials of its own. -/
def follower : TaskVisit where
  task := some
    { pid := 11
      tgid := 10
      comm := .ofBytes (utf8 "worker")
      credentials := some ⟨1, 1⟩
      exe := none
      nodeName := none }
  stream := {}

/-- A leader of which nothing but its name is known. -/
def kernelThread : TaskVisit where
  task := some
    { pid := 2
      tgid := 2
      comm := .ofBytes (utf8 "kthreadd")
      credentials := none
      exe := none
      nodeName := none }
  stream := {}

end TaskVisit

/-- The values of a leader whose line was refused are carried past a thread that leads no group. -/
theorem TaskReporter.visit_eq_filledIn_kernelThread :
    ((after .enriched true [.refused, .follower]).meet .kernelThread).shown.1.text =
        utf8 "pid=2 ppid=2 inode=131 uid=7 gid=8 comm=kthreadd exe=/sbin/a_b\n" ∧
      TaskVisit.follower.leader? = none ∧
      ((after .enriched true [.refused]).meet .follower).shown = ({}, .ok .skipped) ∧
      ((after .basic true [.refused]).meet .kernelThread).shown =
        ((new .basic false).meet .kernelThread).shown := by
  obtain ⟨hfilled, -⟩ := visit_eq_filledIn .enriched true [.refused, .follower] .kernelThread
  obtain ⟨-, hidle, -⟩ := visit_eq_filledIn .enriched true [.refused] .follower
  obtain ⟨-, -, -, hplain⟩ := visit_eq_filledIn .basic true [.refused] .kernelThread
  refine ⟨?_, rfl, hidle rfl, hplain (Or.inr rfl)⟩
  rw [hfilled]
  decide +kernel

end KernelTables
