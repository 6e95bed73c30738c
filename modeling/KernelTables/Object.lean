import KernelTables.Field
import KernelTables.Symbol.Section

/-!
# The kernel's objects

What the tables hold, as it was found when it was read.  Every `Option` stands for something that
could not be read at that moment: a task without credentials, a kernel thread without an
executable, an executable whose inode could not be reached.
-/

namespace KernelTables

/-- The real user and group ids of a task. -/
structure Credentials where
  /-- The real user id. -/
  uid : UInt32
  /-- The real group id. -/
  gid : UInt32
  deriving DecidableEq, Repr

/-- The executable behind a task's address space. -/
structure Executable where
  /-- Its inode number. -/
  inode : Option UInt64 := none
  /-- Its path. -/
  path : Option PathText := none
  deriving DecidableEq, Repr

/-- A thread. -/
structure Task where
  /-- The thread's id. -/
  pid : Int32
  /-- The id of its thread group. -/
  tgid : Int32
  /-- Its command name. -/
  comm : CommandName
  /-- Who it runs as. -/
  credentials : Option Credentials
  /-- What it runs. -/
  exe : Option Executable
  /-- The node name of its UTS namespace. -/
  nodeName : Option NodeName
  deriving DecidableEq, Repr

/-- Whether a thread leads its group, and so stands for the process. -/
def Task.isLeader (task : Task) : Bool := task.pid == task.tgid

/-- An open descriptor. -/
structure OpenFile where
  /-- The descriptor's number. -/
  fd : UInt32
  /-- The inode of what it refers to. -/
  inode : Option UInt64
  /-- What it refers to. -/
  path : Option PathText
  deriving DecidableEq, Repr

/-- An entry of the symbol table. -/
structure Symbol where
  /-- The address as the table gives it. -/
  value : UInt64
  /-- Whether the address may be shown. -/
  shown : Bool
  /-- The type letter. -/
  code : UInt8
  /-- The symbol's name. -/
  name : SymbolName
  /-- The module it belongs to; empty for the core kernel. -/
  moduleName : ModuleName
  /-- Where in the table it was read. -/
  cursor : Cursor
  deriving DecidableEq, Repr

namespace Symbol

/-- The address as it may be shown: zero for a hidden one. -/
def shownValue (symbol : Symbol) : UInt64 := if symbol.shown then symbol.value else 0

/-- The section the symbol was read in. -/
def kind (symbol : Symbol) : Section := symbol.cursor.classify

end Symbol

end KernelTables
