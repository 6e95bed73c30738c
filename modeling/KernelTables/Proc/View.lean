import KernelTables.FileTree
import KernelTables.Object
import KernelTables.Path
import KernelTables.Proc.Status
import KernelTables.Record

/-!
# The process table as a directory tree

The kernel shows every process as a directory named by its number, with its threads under `task`
and its open descriptors under `fd`.  A view of that tree answers which numbers there are and what
is known of each.  The table changes while it is read, so whatever cannot be read is `none`; only a
missing root is an error.
-/

namespace KernelTables

/-- What can be read of a process table at one moment. -/
structure ProcView where
  /-- The names in a directory of the table, if it can be listed. -/
  names? : NamePath → Option (List Bytes)
  /-- The bytes of a file of the table, if it can be read. -/
  read? : NamePath → Option Bytes
  /-- The target of a link of the table, with the inode found behind it. -/
  readLink? : NamePath → Option (Bytes × Option UInt64)
  /-- The system's own node name, if it can be had. -/
  ownNodeName : Option NodeName

/-- One of the questions a report asks of a process table. -/
inductive Inquiry
  /-- Which processes there are. -/
  | processes
  /-- Which threads a process has. -/
  | threads (pid : Int32)
  /-- What is known of a thread. -/
  | task (pid tid : Int32)
  /-- Which descriptors a process has. -/
  | descriptors (pid : Int32)
  /-- What is known of a descriptor. -/
  | file (pid : Int32) (fd : UInt32)
  deriving DecidableEq, Repr

namespace ProcView

/-- The path of something below a process's directory. -/
def below (pid : Int32) (rest : List String) : NamePath := idText pid :: rest.map utf8

/-- The numbers among a directory's names. -/
def numbers {α : Type} (read : List Char → Option α) (names : List Bytes) : List α :=
  names.filterMap fun name => (decode? name).bind read

/-! ## Listings -/

/-- The process ids, ascending; `none` if the table cannot be listed. -/
def pids? (proc : ProcView) : Option (List Int32) :=
  (proc.names? []).map fun names => (numbers Numeral.int32? names).mergeSort (· ≤ ·)

/-- The thread ids of a process, ascending. -/
def threads (proc : ProcView) (pid : Int32) : List Int32 :=
  (numbers Numeral.int32? ((proc.names? (below pid ["task"])).getD [])).mergeSort (· ≤ ·)

/-- The descriptors of a process, ascending. -/
def descriptors (proc : ProcView) (pid : Int32) : List UInt32 :=
  (numbers Numeral.uint32? ((proc.names? (below pid ["fd"])).getD [])).mergeSort (· ≤ ·)

/-! ## Tasks -/

/-- A byte string without the newline that may end it. -/
def dropNewline (bytes : Bytes) : Bytes :=
  if bytes.getLast? = some newline then bytes.dropLast else bytes

/-- The executable of a process. -/
def exe? (proc : ProcView) (pid : Int32) : Option Executable :=
  (proc.readLink? (below pid ["exe"])).map fun (target, inode) =>
    { inode, path := some (.ofBytes target) }

/-- The node name a process sees: the system's own if it shares its UTS namespace, otherwise what
the host-name file under its root says. -/
def nodeName? (proc : ProcView) (pid : Int32) : Option NodeName := do
  let (target, _) ← proc.readLink? (below pid ["ns", "uts"])
  match proc.readLink? (["self", "ns", "uts"].map utf8) with
  | some (own, _) => if Path.same own target then proc.ownNodeName else fromFile
  | none => fromFile
where
  fromFile : Option NodeName :=
    (proc.read? (below pid ["root", "etc", "hostname"])).map fun bytes =>
      .ofBytes (trimBoth isAsciiBlank bytes)

/-- A thread of a process.  Its status file has to be there and name both its ids; the executable
and the node name are looked up only for the leader. -/
def task? (proc : ProcView) (pid tid : Int32) : Option Task := do
  let directory := [idText pid, utf8 "task", idText tid]
  let text ← (proc.read? (directory ++ [utf8 "status"])).bind decode?
  let status := Status.parse text
  let id ← status.pid
  let tgid ← status.tgid
  some
    { pid := id
      tgid := tgid
      comm := .ofBytes (dropNewline ((proc.read? (directory ++ [utf8 "comm"])).getD []))
      credentials := status.credentials
      exe := if id = tgid then proc.exe? pid else none
      nodeName := if id = tgid then proc.nodeName? pid else none }

/-! ## Descriptors -/

/-- The inode number in the name of an anonymous file such as `socket:[1234]`: what stands between
the first bracket and one at the very end. -/
def anonymousInode? (target : Bytes) : Option UInt64 := do
  let (_, rest) ← cutAt? 0x5B target
  if rest.getLast? = some 0x5D then (decode? rest.dropLast).bind (Numeral.uint64? 10) else none

/-- A descriptor of a process. -/
def file? (proc : ProcView) (pid : Int32) (fd : UInt32) : Option OpenFile :=
  (proc.readLink? [idText pid, utf8 "fd", Numeral.decimal fd.toNat]).map fun (target, inode) =>
    { fd, inode := inode.or (anonymousInode? target), path := some (.ofBytes target) }

end ProcView

end KernelTables
