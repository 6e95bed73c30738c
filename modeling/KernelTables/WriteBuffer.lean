import KernelTables.Stream

/-!
# Writing through a buffer

Output leaves the program through a buffer: a write that fits is held back, and one that does not has
the buffer flushed first.  What an output does not take goes on waiting in the buffer.

A buffer here knows no bytes.  It stands between two places of the text that is written through it:
the output has taken what is before the one, and the other is where writing goes on.  That matters
to a program that can come across its own output.
-/

namespace KernelTables

/-- How far the text that is written through a buffer has come. -/
structure WriteBuffer where
  /-- How many bytes the output has taken. -/
  settled : Nat := 0
  /-- How many bytes behind them are held back. -/
  held : Nat := 0
  deriving DecidableEq, Repr

namespace WriteBuffer

/-- How many bytes a buffer holds. -/
def capacity : Nat := 8192

/-- How many bytes have been written in all. -/
def total (buffer : WriteBuffer) : Nat := buffer.settled + buffer.held

variable {m : Type → Type} [Monad m]

/-- Hands on what is held back, and tells whether all of it was taken. -/
def flush (hand : Bytes → m Nat) (text : Array UInt8) : StateT WriteBuffer m Bool := do
  let buffer ← get
  if buffer.held = 0 then return true
  let taken ← hand (text.extract buffer.settled buffer.total).toList
  set (⟨buffer.settled + taken, buffer.held - taken⟩ : WriteBuffer)
  return buffer.held ≤ taken

/-- Makes room for a write of so many bytes, if it does not fit behind what is held back. -/
def makeRoom (hand : Bytes → m Nat) (text : Array UInt8) (count : Nat) :
    StateT WriteBuffer m Bool := do
  if capacity < (← get).held + count then flush hand text else return true

/-- One write of so many bytes, for which there is room.  A write as large as the buffer does not
wait in it. -/
def put (hand : Bytes → m Nat) (text : Array UInt8) (count : Nat) : StateT WriteBuffer m Bool := do
  let buffer ← get
  if count < capacity then
    set { buffer with held := buffer.held + count }
    return true
  let taken ← hand (text.extract buffer.total (buffer.total + count)).toList
  set { buffer with settled := buffer.settled + taken }
  return count ≤ taken

/-- Writes of so many bytes each, one after another until one fails. -/
def writeAll (hand : Bytes → m Nat) (text : Array UInt8) : List Nat → StateT WriteBuffer m Bool
  | [] => return true
  | count :: counts => do
    if !(← makeRoom hand text count) then return false
    if !(← put hand text count) then return false
    writeAll hand text counts

/-- The writes that a text of lines comes in: each line, and the newline behind it. -/
def writes (text : Bytes) : List Nat :=
  let lines := text.splitOn newline
  lines.dropLast.flatMap (fun line => [line.length, 1]) ++ [(lines.getLast?.getD []).length]

/-- Writes what has been added to a stream since. -/
def advance (hand : Bytes → m Nat) (stream : Stream) : StateT WriteBuffer m Bool := do
  let text := stream.sink.taken
  writeAll hand text (writes (text.extract (← get).total text.size).toList)

end WriteBuffer

end KernelTables
