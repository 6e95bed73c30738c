import KernelTables.Line
import KernelTables.Symbol.Section
import KernelTables.Symbol.Delta

/-!
# Record layouts

One record is one line of labelled columns, `label=value`, with a space between columns.  An
unavailable number leaves its column empty.  A symbol takes two lines, its address delta and its
entry; the entry ends in a column for a size that no table fills in.
-/

namespace KernelTables

/-! ## Columns -/

/-- A labelled column. -/
def column (label : String) (value : Bytes) : Bytes := utf8 label ++ utf8 "=" ++ value

/-- Columns side by side. -/
def row (columns : List Bytes) : Bytes := (utf8 " ").intercalate columns

/-- A number that may be unavailable. -/
def optional (n : Option Nat) : Bytes := n.elim [] Numeral.decimal

/-- A process or thread id. -/
def idText (id : Int32) : Bytes := Numeral.signedDecimal id.toInt

/-! ## Processes -/

/-- One process, as seen on its thread-group leader. -/
structure TaskRecord where
  /-- The thread id, which is the process id on a leader. -/
  pid : Int32
  /-- The thread-group id, written in the column `ppid`. -/
  tgid : Int32
  /-- The command name. -/
  comm : Bytes
  /-- The inode of the executable. -/
  exeInode : Option UInt64
  /-- The real user id. -/
  uid : Option UInt32
  /-- The real group id. -/
  gid : Option UInt32
  /-- The path of the executable. -/
  exe : Bytes
  deriving DecidableEq, Repr

namespace TaskRecord

/-- The short layout: ids and command name. -/
def basicText (record : TaskRecord) : Bytes :=
  row [column "pid" (idText record.pid), column "ppid" (idText record.tgid),
    column "comm" record.comm]

/-- The full layout. -/
def enrichedText (record : TaskRecord) : Bytes :=
  row [column "pid" (idText record.pid), column "ppid" (idText record.tgid),
    column "inode" (optional (record.exeInode.map (·.toNat))),
    column "uid" (optional (record.uid.map (·.toNat))),
    column "gid" (optional (record.gid.map (·.toNat))),
    column "comm" record.comm, column "exe" record.exe]

end TaskRecord

/-! ## Open files -/

/-- One open descriptor of one process. -/
structure FileRecord where
  /-- The process. -/
  pid : Int32
  /-- Its thread group, written in the column `ppid`. -/
  tgid : Int32
  /-- The descriptor's number. -/
  fd : UInt32
  /-- The inode of what the descriptor refers to. -/
  inode : Option UInt64
  /-- The process's real user id. -/
  uid : Option UInt32
  /-- The process's real group id. -/
  gid : Option UInt32
  /-- The node name of the process's UTS namespace. -/
  host : Bytes
  /-- What the descriptor refers to. -/
  path : Bytes
  /-- The process's command name. -/
  comm : Bytes
  /-- The path of the process's executable. -/
  exe : Bytes
  deriving DecidableEq, Repr

namespace FileRecord

/-- The column header that precedes the first file record. -/
def header : Bytes := utf8 "    pid      tgid       fd      inode      file      exe"

/-- The layout of an open file. -/
def text (record : FileRecord) : Bytes :=
  row [column "pid" (idText record.pid), column "ppid" (idText record.tgid),
    column "fd" (Numeral.decimal record.fd.toNat),
    column "inode" (optional (record.inode.map (·.toNat))),
    column "uid" (optional (record.uid.map (·.toNat))),
    column "gid" (optional (record.gid.map (·.toNat))),
    column "host" record.host, column "file" record.path,
    column "comm" record.comm, column "exe" record.exe]

end FileRecord

/-! ## Symbols -/

/-- One kernel symbol. -/
structure SymbolRecord where
  /-- The offset from the symbol before it. -/
  delta : AddressDelta
  /-- The address, zero if it is hidden. -/
  address : UInt64
  /-- The type letter of the symbol. -/
  code : UInt8
  /-- The symbol's name. -/
  name : Bytes
  /-- Its module; empty for the core kernel. -/
  moduleName : Bytes
  /-- The section it was read in. -/
  kind : Section
  /-- A size that no table fills in. -/
  maxSize : Option UInt64 := none
  deriving DecidableEq, Repr

namespace SymbolRecord

/-- The column header at the start of a symbol run. -/
def header : Bytes := utf8 "ADDR TYPE NAME MODULE_NAME KIND MAX_SIZE"

/-- What stands for the module of a symbol that has none. -/
def noModule : Bytes := utf8 "none"

/-- The first of a symbol's two lines. -/
def deltaText (record : SymbolRecord) : Bytes := record.delta.text

/-- The second of a symbol's two lines.  The type byte is shown as the character of that number. -/
def entryText (record : SymbolRecord) : Bytes :=
  row [column "addr" (Numeral.prefixedHex record.address.toNat),
    column "atype" (encode [Char.ofNat record.code.toNat]),
    column "func" record.name,
    column "name" (if record.moduleName.isEmpty then noModule else record.moduleName),
    column "type" (utf8 record.kind.label),
    record.maxSize.elim [] fun size => Numeral.prefixedHex size.toNat]

end SymbolRecord

end KernelTables
