import KernelTables.Object
import KernelTables.Record
import KernelTables.Report.Carry
import KernelTables.Report.Progress

/-!
# The report of open files

One line for each open descriptor, after one line of column heads.  A record is filled in over a
scratch area that is wiped after every line, whether or not the line got through, so that a value
missing in one record is never that of the record before.  Only credentials may be carried over,
and only where that is asked for.
-/

namespace KernelTables

/-- Where a file record's larger values are put together. -/
structure FileScratch where
  /-- What the descriptor refers to. -/
  path : PathText := .empty
  /-- The path of the process's executable. -/
  exePath : PathText := .empty
  /-- The inode of the process's executable. -/
  exeInode : Option UInt64 := none
  deriving DecidableEq, Repr

namespace FileScratch

/-- Fills in what is known of a task's executable and a descriptor, without newlines. -/
def fill (scratch : FileScratch) (task : Task) (file : OpenFile) : FileScratch where
  path := (file.path.getD scratch.path).sanitized
  exePath := ((task.exe.bind (·.path)).getD scratch.exePath).sanitized
  exeInode := (task.exe.map (·.inode)).getD scratch.exeInode

end FileScratch

/-- The state of a report of open files. -/
structure FileReporter where
  /-- The scratch area. -/
  scratch : FileScratch := {}
  /-- The credentials read last. -/
  credentials : Carry Credentials
  deriving DecidableEq, Repr

namespace FileReporter

/-- A report that has seen no file. -/
def new (reuse : Bool) : FileReporter where
  credentials := ⟨reuse, none⟩

/-- Takes in a task and one of its files and composes their record. -/
def compose (reporter : FileReporter) (task : Task) (file : OpenFile) :
    FileReporter × FileRecord :=
  let (credentials, cred) := reporter.credentials.resolve task.credentials
  let scratch := reporter.scratch.fill task file
  ({ scratch, credentials },
    { pid := task.pid
      tgid := task.tgid
      fd := file.fd
      inode := file.inode
      uid := cred.map (·.uid)
      gid := cred.map (·.gid)
      host := (task.nodeName.getD .empty).sanitized.contents
      path := scratch.path.contents
      comm := task.comm.sanitized.contents
      exe := scratch.exePath.contents })

/-- The same report with its scratch area wiped. -/
def wiped (reporter : FileReporter) : FileReporter := { reporter with scratch := {} }

/-- Visits a descriptor that belongs to `task`.  The first visit, number zero, writes the column
heads before it looks at either. -/
def visit (reporter : FileReporter) (number : Nat) (task : Option Task) (file : Option OpenFile)
    (stream : Stream) : Visit FileReporter :=
  match if number = 0 then stream.writeLine FileRecord.header else (stream, .ok ()) with
  | (stream, .error e) => ⟨reporter, stream, .error e⟩
  | (stream, .ok ()) =>
    match task, file with
    | some task, some file =>
      let (reporter, record) := reporter.compose task file
      .printing reporter.wiped stream record.text
    | _, _ => ⟨reporter, stream, .ok .skipped⟩

end FileReporter

end KernelTables
