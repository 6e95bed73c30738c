import KernelTables.Text.Utf8

/-!
# The line under composition

A line is composed in a buffer of fixed size.  What does not fit is dropped and the line is marked
as truncated; composing never fails.  The newline that ends a line belongs to the stream it is
printed on and is not part of it.
-/

namespace KernelTables

/-- An upper bound on the length of a line. -/
def lineCapacity : Nat := 4096

/-- A line under composition. -/
structure Line where
  /-- What has been composed so far. -/
  bytes : Bytes
  /-- Whether anything has been dropped. -/
  truncated : Bool
  /-- The buffer is never overrun. -/
  fits : bytes.length ≤ lineCapacity
  deriving DecidableEq, Repr

namespace Line

/-- The line with nothing on it. -/
def empty : Line := ⟨[], false, Nat.zero_le _⟩

instance : Inhabited Line := ⟨empty⟩

/-- How many more bytes the line takes. -/
def room (line : Line) : Nat := lineCapacity - line.bytes.length

/-- Appends as much of `more` as there is room for. -/
def push (line : Line) (more : Bytes) : Line where
  bytes := line.bytes ++ more.take line.room
  truncated := line.truncated || line.room < more.length
  fits := by
    have := line.fits
    simp [room]
    omega

/-- A line is the beginning of everything that was pushed. -/
theorem bytes_push (line : Line) (more : Bytes) :
    (line.push more).bytes = (line.bytes ++ more).take lineCapacity := by
  rw [List.take_append, List.take_of_length_le line.fits]
  rfl

theorem truncated_push (line : Line) (more : Bytes) :
    (line.push more).truncated = (line.truncated || line.room < more.length) := rfl

/-- Appends a formatted text that arrives in pieces. -/
def put (line : Line) (pieces : List Bytes) : Line := pieces.foldl push line

/-- The number of bytes on the line. -/
def length (line : Line) : Nat := line.bytes.length

/-- Whether nothing is on the line. -/
def isEmpty (line : Line) : Bool := line.bytes.isEmpty

end Line

end KernelTables
