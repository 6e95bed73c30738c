import KernelTables.Text.Utf8

/-!
# Sections of the symbol table

The kernel lists its symbols in four sections, one after another: core and module symbols, then
the symbols of three pseudo-modules.  Only the pseudo-modules' names give a section away, so a
reader keeps a *cursor*: its position and the boundaries it has passed.  A boundary of zero has
not been met yet.
-/

namespace KernelTables

/-- A section of the symbol table, in the order of the table. -/
inductive Section
  /-- Core kernel and loadable modules. -/
  | modules
  /-- Trampolines of the function tracer. -/
  | ftrace
  /-- Compiled packet-filter programs. -/
  | bpf
  /-- Instruction slots of kernel probes. -/
  | kprobes
  deriving DecidableEq, Repr

namespace Section

/-- The name a section has in an entry line. -/
def label : Section → String
  | modules => "MOD"
  | ftrace => "FTRACE_MOD"
  | bpf => "BPF"
  | kprobes => "KPROBE"

/-- The place of a section in the table. -/
def rank : Section → Nat
  | modules => 0
  | ftrace => 1
  | bpf => 2
  | kprobes => 3

/-- The section that holds the symbols of a module: a pseudo-module has its own, any other module
belongs to the first. -/
def ofModule (name : Bytes) : Section :=
  if name = utf8 "__builtin__ftrace" then ftrace
  else if name = utf8 "bpf" then bpf
  else if name = utf8 "__builtin__kprobes" then kprobes
  else modules

end Section

/-- Where a reader stands in the symbol table and which section boundaries lie behind it. -/
structure Cursor where
  /-- The position of the symbol read last. -/
  position : Nat := 0
  /-- Where the first section ended, or zero. -/
  modulesEnd : Nat := 0
  /-- Where the tracer's section ended, or zero. -/
  ftraceEnd : Nat := 0
  /-- Where the packet filters' section ended, or zero. -/
  bpfEnd : Nat := 0
  deriving DecidableEq, Repr, Inhabited

namespace Cursor

/-- A boundary after `position` has been passed: one that was set before stays. -/
def closeAt (position boundary : Nat) : Nat := if boundary = 0 then position else boundary

/-- Moves to `position`, which lies in `within`, and closes every earlier section there. -/
def enter (cursor : Cursor) (position : Nat) (within : Section) : Cursor where
  position := position
  modulesEnd := if 0 < within.rank then closeAt position cursor.modulesEnd else cursor.modulesEnd
  ftraceEnd := if 1 < within.rank then closeAt position cursor.ftraceEnd else cursor.ftraceEnd
  bpfEnd := if 2 < within.rank then closeAt position cursor.bpfEnd else cursor.bpfEnd

/-- Whether a boundary is unset or still ahead of the cursor. -/
def isAhead (cursor : Cursor) (boundary : Nat) : Bool :=
  boundary == 0 || cursor.position < boundary

/-- The section the cursor is in: the first one whose end is still ahead. -/
def classify (cursor : Cursor) : Section :=
  if cursor.isAhead cursor.modulesEnd then .modules
  else if cursor.isAhead cursor.ftraceEnd then .ftrace
  else if cursor.isAhead cursor.bpfEnd then .bpf
  else .kprobes

end Cursor

end KernelTables
