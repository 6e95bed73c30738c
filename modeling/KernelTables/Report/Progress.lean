import KernelTables.Stream

/-!
# Reporting, step by step

A reporter is handed one object at a time, writes the lines it takes to a stream and keeps what it
needs for later objects.  A step yields the reporter and the stream as the step left them, also
where it failed, beside its result.
-/

namespace KernelTables

/-- What one visit of an object wrote. -/
inductive Outcome
  /-- The object's record. -/
  | emitted
  /-- Nothing for this object: it is absent, or of a kind the report leaves out. -/
  | skipped
  /-- The column header alone. -/
  | headerOnly
  deriving DecidableEq, Repr

/-- The state a step of a report leaves behind, and its result. -/
structure Progress (σ ε α : Type) where
  /-- The reporter after the step. -/
  reporter : σ
  /-- The stream after the step. -/
  stream : Stream
  /-- What the step came to. -/
  result : Except ε α

/-- A visit of one object. -/
abbrev Visit (σ : Type) := Progress σ SinkError Outcome

/-- A visit that prints the object's record as one line. -/
def Visit.printing {σ : Type} (reporter : σ) (stream : Stream) (text : Bytes) : Visit σ :=
  let (stream, written) := stream.print (Line.empty.push text)
  ⟨reporter, stream, written.map fun _ => .emitted⟩

end KernelTables
