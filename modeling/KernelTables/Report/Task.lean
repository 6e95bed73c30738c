import KernelTables.Object
import KernelTables.Record
import KernelTables.Report.Carry
import KernelTables.Report.Progress

/-!
# The task report

One line for each thread-group leader; other threads leave no trace.  In the full layout three
values may be carried over from an earlier leader where they cannot be read: the credentials, the
executable's inode and its path, each on its own.
-/

namespace KernelTables

/-- Which layout a task line has. -/
inductive TaskFormat
  /-- Ids and command name. -/
  | basic
  /-- The same with the executable and the credentials. -/
  | enriched
  deriving DecidableEq, Repr, Inhabited

/-- The state of a task report. -/
structure TaskReporter where
  /-- The layout of its lines. -/
  format : TaskFormat
  /-- The credentials read last. -/
  credentials : Carry Credentials
  /-- The executable's inode read last. -/
  exeInode : Carry UInt64
  /-- The executable's path read last, as it was read. -/
  exePath : Carry PathText
  deriving DecidableEq, Repr

namespace TaskReporter

/-- A report that has seen no task. -/
def new (format : TaskFormat) (reuse : Bool) : TaskReporter :=
  ⟨format, ⟨reuse, none⟩, ⟨reuse, none⟩, ⟨reuse, none⟩⟩

/-- Takes in a leader and composes its line. -/
def compose (reporter : TaskReporter) (task : Task) : TaskReporter × Bytes :=
  let comm := task.comm.sanitized.contents
  match reporter.format with
  | .basic =>
    (reporter, TaskRecord.basicText ⟨task.pid, task.tgid, comm, none, none, none, []⟩)
  | .enriched =>
    let exe := task.exe.getD {}
    let (credentials, cred) := reporter.credentials.resolve task.credentials
    let (exeInode, inode) := reporter.exeInode.resolve exe.inode
    let (exePath, path) := reporter.exePath.resolve exe.path
    ({ reporter with credentials, exeInode, exePath },
      TaskRecord.enrichedText
        ⟨task.pid, task.tgid, comm, inode, cred.map (·.uid), cred.map (·.gid),
          (path.getD .empty).sanitized.contents⟩)

/-- Visits a task, or the place where one has gone. -/
def visit (reporter : TaskReporter) (task : Option Task) (stream : Stream) :
    Visit TaskReporter :=
  match task with
  | none => ⟨reporter, stream, .ok .skipped⟩
  | some task =>
    if task.isLeader then
      let (reporter, text) := reporter.compose task
      .printing reporter stream text
    else ⟨reporter, stream, .ok .skipped⟩

end TaskReporter

end KernelTables
