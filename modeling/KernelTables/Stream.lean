import KernelTables.Line

/-!
# The record stream and the sink below it

Records leave the program as lines on a stream.  The stream writes each line to a sink in two
pieces, the line's bytes and then a newline, and counts the lines that got through.  A sink may
have room for only so many more bytes: it keeps the part of a piece that fits and then fails.

Here and wherever else the program counts what it has done or how far it has come, as among the
symbols of a table, the count is a natural number.  The program has 64 bits for it, and no run takes
that many steps.
-/

namespace KernelTables

/-- Why a sink refuses a write. -/
inductive SinkError
  /-- It has taken all the bytes it has room for. -/
  | full
  deriving DecidableEq, Repr

/-- The wording of a refusal. -/
def SinkError.message : SinkError → String
  | .full => "sink full"

/-- Where a stream's bytes end up. -/
structure Sink where
  /-- Every byte taken so far. -/
  taken : Array UInt8 := #[]
  /-- How many more bytes fit, if there is a limit. -/
  room : Option Nat := none
  deriving DecidableEq, Repr

namespace Sink

/-- The bytes taken so far, in order. -/
def text (sink : Sink) : Bytes := sink.taken.toList

/-- Writes `bytes`.  Where they do not fit, the sink keeps those that do, is full from then on and
fails; writing nothing always succeeds. -/
def write (sink : Sink) (bytes : Bytes) : Sink × Except SinkError Unit :=
  match sink.room with
  | none => ({ sink with taken := sink.taken ++ bytes }, .ok ())
  | some room =>
    ({ taken := sink.taken ++ bytes.take room, room := some (room - bytes.length) },
      if bytes.length ≤ room then .ok () else .error .full)

theorem write_of_unlimited (sink : Sink) (bytes : Bytes) (h : sink.room = none) :
    (sink.write bytes).1.text = sink.text ++ bytes ∧ (sink.write bytes).1.room = none ∧
      (sink.write bytes).2 = .ok () := by
  obtain ⟨taken, room⟩ := sink
  subst h
  simp [write, text]

theorem write_of_limited (sink : Sink) (bytes : Bytes) {n : Nat} (h : sink.room = some n) :
    (sink.write bytes).1.text = sink.text ++ bytes.take n ∧
      (sink.write bytes).1.room = some (n - bytes.length) ∧
      (sink.write bytes).2 = if bytes.length ≤ n then .ok () else .error .full := by
  obtain ⟨taken, room⟩ := sink
  subst h
  simp [write, text]

end Sink

/-- A sequence of lines on its way into a sink. -/
structure Stream where
  /-- Where the lines go. -/
  sink : Sink := {}
  /-- How many lines have been written whole. -/
  lines : Nat := 0
  /-- How many of the lines handed in had been truncated. -/
  truncated : Nat := 0
  deriving DecidableEq, Repr

namespace Stream

/-- Everything the stream's sink has taken. -/
def text (stream : Stream) : Bytes := stream.sink.text

/-- The same stream with room for `room` more bytes, or for any number. -/
def limit (stream : Stream) (room : Option Nat) : Stream :=
  { stream with sink := { stream.sink with room } }

/-- Writes bytes and the newline that ends them.  The line counts once both are written. -/
def writeLine (stream : Stream) (bytes : Bytes) : Stream × Except SinkError Unit :=
  match stream.sink.write bytes with
  | (sink, .error e) => ({ stream with sink }, .error e)
  | (sink, .ok ()) =>
    match sink.write [newline] with
    | (sink, .error e) => ({ stream with sink }, .error e)
    | (sink, .ok ()) => ({ stream with sink, lines := stream.lines + 1 }, .ok ())

/-- Prints a composed line.  A truncated line is counted as such when it is handed in. -/
def print (stream : Stream) (line : Line) : Stream × Except SinkError Unit :=
  { stream with truncated := stream.truncated + line.truncated.toNat }.writeLine line.bytes

end Stream

end KernelTables
