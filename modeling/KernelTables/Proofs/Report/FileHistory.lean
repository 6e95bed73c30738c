import Mathlib.Data.List.Induction
import KernelTables.Report.File

/-!
# No record of an open file depends on another

A report of open files has a memory: a scratch area that every record is put together in, and the
credentials it carries.  This file says how far back that memory reaches.

* `after_eq` — **the whole memory** of a report that has made any visits, on any streams, with
  writes that may have failed: the scratch area is zero, and the credentials it carries are those
  of the last visit that had any to give (`lastCredentials`).
* `meet_eq_fresh` — a visit shows what a fresh report would show, had the missing credentials of
  its task been filled in.
* `visit_independent` — both together, with what they say of a report that carries nothing over.
-/

namespace KernelTables

/-- A visit of an open file, with the stream it comes upon: whatever earlier visits have left of
it, under whatever limit it has been given since. -/
structure FileVisit where
  /-- The number of the visit. -/
  number : Nat
  /-- The process, unless it has gone. -/
  task : Option Task
  /-- The descriptor, unless it has been closed. -/
  file : Option OpenFile
  /-- The stream as the visit finds it. -/
  stream : Stream

/-- What a visit shows: the stream it leaves, with its bytes and its counts, and its result. -/
def Progress.shown {σ ε α : Type} (progress : Progress σ ε α) : Stream × Except ε α :=
  (progress.stream, progress.result)

/-- The task with credentials filled in if it has none. -/
def Task.withCredentials (task : Task) (credentials : Option Credentials) : Task :=
  { task with credentials := task.credentials.or credentials }

namespace FileVisit

/-- The stream once the column heads are on it, if this visit writes them, and whether that
succeeded. -/
def opened (visit : FileVisit) : Stream × Except SinkError Unit :=
  if visit.number = 0 then visit.stream.writeLine FileRecord.header else (visit.stream, .ok ())

/-- The credentials that a visit comes to know: those of its task, if it gets past the column heads
and both its objects are there. -/
def credentials? (visit : FileVisit) : Option Credentials :=
  match visit.opened.2, visit.task, visit.file with
  | .ok (), some task, some _ => task.credentials
  | _, _, _ => none

/-- The same visit with credentials for a task that has none. -/
def filledIn (visit : FileVisit) (credentials : Option Credentials) : FileVisit :=
  { visit with task := visit.task.map (·.withCredentials credentials) }

/-- The credentials of the most recent visit that came to know any. -/
def lastCredentials (history : List FileVisit) : Option Credentials :=
  history.reverse.findSome? credentials?

theorem lastCredentials_concat (history : List FileVisit) (visit : FileVisit) :
    lastCredentials (history ++ [visit]) = visit.credentials?.or (lastCredentials history) := by
  rw [lastCredentials, List.reverse_append, List.findSome?_append]
  cases h : visit.credentials? <;> simp [h, lastCredentials]

/-- Filling in nothing changes nothing. -/
@[simp] theorem filledIn_none (visit : FileVisit) : visit.filledIn none = visit := by
  obtain ⟨number, task, file, stream⟩ := visit
  cases task <;> simp [filledIn, Task.withCredentials]

@[simp] theorem opened_filledIn (visit : FileVisit) (credentials : Option Credentials) :
    (visit.filledIn credentials).opened = visit.opened := rfl

end FileVisit

namespace FileReporter

/-- Makes a visit. -/
def meet (reporter : FileReporter) (visit : FileVisit) : Visit FileReporter :=
  reporter.visit visit.number visit.task visit.file visit.stream

/-- A report that has made the given visits, in order, whatever came of them. -/
def after (reuse : Bool) (history : List FileVisit) : FileReporter :=
  history.foldl (fun reporter visit => (reporter.meet visit).reporter) (new reuse)

/-- The report with nothing in its scratch area that carries the given credentials. -/
def carrying (reuse : Bool) (last : Option Credentials) : FileReporter := ⟨{}, ⟨reuse, last⟩⟩

theorem after_concat (reuse : Bool) (history : List FileVisit) (visit : FileVisit) :
    after reuse (history ++ [visit]) = ((after reuse history).meet visit).reporter := by
  rw [after, List.foldl_append]
  rfl

/-! ## One visit -/

/-- A visit in two steps, the column heads and the record. -/
theorem meet_eq (reporter : FileReporter) (visit : FileVisit) :
    reporter.meet visit =
      match visit.opened with
      | (stream, .error e) => ⟨reporter, stream, .error e⟩
      | (stream, .ok ()) =>
        match visit.task, visit.file with
        | some task, some file =>
          .printing (reporter.compose task file).1.wiped stream (reporter.compose task file).2.text
        | _, _ => ⟨reporter, stream, .ok .skipped⟩ := rfl

/-- Taking in a task's credentials and wiping the scratch area leaves a report that carries them, or
else those it carried before. -/
theorem wiped_compose (reuse : Bool) (last : Option Credentials) (task : Task) (file : OpenFile) :
    ((carrying reuse last).compose task file).1.wiped =
      carrying reuse (task.credentials.or last) := by
  cases h : task.credentials <;> simp [compose, wiped, carrying, h]

/-- The record of a task and a file: a report that carries credentials uses them in the two columns
for the user and the group, and only where the task has none. -/
theorem compose_carrying (reuse : Bool) (last : Option Credentials) (task : Task)
    (file : OpenFile) :
    ((carrying reuse last).compose task file).2 =
      let credentials := task.credentials.or (if reuse then last else none)
      { ((new false).compose task file).2 with
        uid := credentials.map (·.uid)
        gid := credentials.map (·.gid) } := by
  cases h : task.credentials <;> simp [compose, carrying, new, h]

/-- The same record is that of a fresh report and a task whose credentials are filled in. -/
theorem compose_eq_fresh (reuse : Bool) (last : Option Credentials) (task : Task)
    (file : OpenFile) :
    ((carrying reuse last).compose task file).2 =
      ((new false).compose (task.withCredentials (if reuse then last else none)) file).2 := by
  rw [compose_carrying]
  cases h : task.credentials.or (if reuse then last else none) <;>
    simp [compose, new, Task.withCredentials, h, FileScratch.fill]

/-- **What one visit leaves behind**, on each of its four ways out: a scratch area without a trace of
the record, and the credentials it came to know. -/
theorem reporter_meet (reuse : Bool) (last : Option Credentials) (visit : FileVisit) :
    ((carrying reuse last).meet visit).reporter =
      carrying reuse (visit.credentials?.or last) := by
  rw [meet_eq, FileVisit.credentials?]
  rcases visit.opened with ⟨stream, e | _⟩
  · -- the column heads did not get through
    rfl
  · cases visit.task with
    | none => rfl
    | some task =>
      cases visit.file with
      | none => rfl
      | some file =>
        -- printed or not, the record leaves the report as it was wiped before
        exact wiped_compose reuse last task file

/-- A visit shows what a fresh report shows once its task's credentials are filled in. -/
theorem meet_eq_fresh (reuse : Bool) (last : Option Credentials) (visit : FileVisit) :
    ((carrying reuse last).meet visit).shown =
      ((new false).meet (visit.filledIn (if reuse then last else none))).shown := by
  rw [meet_eq, meet_eq, FileVisit.opened_filledIn]
  rcases visit.opened with ⟨stream, e | _⟩
  · rfl
  · rw [FileVisit.filledIn]
    cases visit.task with
    | none => rfl
    | some task =>
      cases visit.file with
      | none => rfl
      | some file =>
        simp only [Option.map_some, Visit.printing, Progress.shown, compose_eq_fresh reuse last]

/-! ## Any number of visits -/

/-- **The memory of a report.**  After any visits the scratch area is zero throughout, and the
credentials it carries are those of the last visit that came to know any. -/
theorem after_eq (reuse : Bool) (history : List FileVisit) :
    after reuse history = carrying reuse (FileVisit.lastCredentials history) := by
  -- induction from the end: the visit made last is the one whose credentials count first
  induction history using List.reverseRecOn with
  | nil => rfl
  | append_singleton history visit ih =>
    rw [after_concat, ih, reporter_meet, FileVisit.lastCredentials_concat]

/-- **No record leaks into another.**  Take any visits on any streams, whatever came of them, and one
more.  Before and after it the scratch area is zero.  It leaves the stream, and gives the result,
that it would with a fresh report, but for the credentials of a task that has none: where reuse is
asked for, they are those of the most recent visit that came to know any.  Without reuse the visits
before it make no difference, and with it they make none to any other column. -/
theorem visit_independent (reuse : Bool) (history : List FileVisit) (visit : FileVisit) :
    (after reuse history).scratch = {} ∧
    ((after reuse history).meet visit).reporter.scratch = {} ∧
    ((after reuse history).meet visit).shown =
      ((new false).meet (visit.filledIn
        (if reuse then FileVisit.lastCredentials history else none))).shown ∧
    ((after false history).meet visit).shown = ((new false).meet visit).shown ∧
    ∀ task file, ((after reuse history).compose task file).2 =
      let credentials :=
        task.credentials.or (if reuse then FileVisit.lastCredentials history else none)
      { ((new false).compose task file).2 with
        uid := credentials.map (·.uid)
        gid := credentials.map (·.gid) } := by
  refine ⟨?_, ?_, ?_, ?_, ?_⟩
  · rw [after_eq]
    rfl
  · rw [after_eq, reporter_meet]
    rfl
  · rw [after_eq]
    exact meet_eq_fresh reuse _ visit
  · have h := meet_eq_fresh false (FileVisit.lastCredentials history) visit
    rw [after_eq, h]
    simp
  · intro task file
    rw [after_eq]
    exact compose_carrying reuse _ task file

end FileReporter

end KernelTables
