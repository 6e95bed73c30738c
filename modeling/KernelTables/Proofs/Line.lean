import Mathlib.Data.List.DropRight
import Mathlib.Data.List.TakeDrop
import KernelTables.Line
import KernelTables.Proofs.Memory

/-!
# A line holds the beginning of what it was given

A line is pushed to, put to and cleared in any order.  It is then the beginning of everything that
has come since it was last cleared, and its flag tells exactly whether that is all of it.  A line
that is kept in an array, with a count of the cells in use, comes to the same without ever looking
outside of the array; what earlier lines left behind the count is never seen.

* `push_push`, `put_eq_push` — the pieces that a text comes in do not matter;
* `truncated_put_iff` — the flag is down as long as the line is all that was put on it;
* `composed_eq` — **any steps** come to one push of what came since the last clearing;
* `LineMemory.Holds.exists_push?` — **a push into the array** is in bounds and does what a push to
  the line does, and so does every other step (`LineMemory.Holds.exists_perform?`);
* `LineMemory.beginning_of_appended` — what a line and its array hold after any steps.
-/

namespace KernelTables

namespace Line

/-! ## Pieces -/

@[simp] theorem push_nil (line : Line) : line.push [] = line := by
  obtain ⟨bytes, truncated, fits⟩ := line
  simp [push]

/-- A text may be pushed in two parts.  Once the first part has been cut there is no room, so the
second adds nothing. -/
theorem push_push (line : Line) (first rest : Bytes) :
    (line.push first).push rest = line.push (first ++ rest) := by
  have hbytes : ((line.push first).push rest).bytes = (line.push (first ++ rest)).bytes := by
    simp only [bytes_push, ← List.append_assoc]
    generalize line.bytes ++ first = start
    have hroom : lineCapacity - min lineCapacity start.length = lineCapacity - start.length := by
      omega
    rw [List.take_append, List.take_append, List.take_take, Nat.min_self, List.length_take, hroom]
  have htruncated : ((line.push first).push rest).truncated =
      (line.push (first ++ rest)).truncated := by
    have hfits := line.fits
    simp only [truncated_push, Bool.or_assoc, ← Bool.decide_or]
    congr 2
    simp only [room, bytes_push, List.length_take, List.length_append, eq_iff_iff]
    omega
  rcases hleft : (line.push first).push rest with ⟨bytes, truncated, fits⟩
  rcases hright : line.push (first ++ rest) with ⟨bytes', truncated', fits'⟩
  rw [hleft, hright] at hbytes htruncated
  obtain rfl : bytes = bytes' := hbytes
  obtain rfl : truncated = truncated' := htruncated
  rfl

/-- **The pieces of a text do not matter**, only what they make together. -/
theorem put_eq_push (line : Line) (pieces : List Bytes) :
    line.put pieces = line.push pieces.flatten := by
  rw [put]
  induction pieces generalizing line with
  | nil => exact line.push_nil.symm
  | cons piece pieces ih => rw [List.foldl_cons, ih, push_push, List.flatten_cons]

/-- **The flag is exact.**  On a fresh line it is down exactly if the line is all that was put on
it. -/
theorem truncated_put_iff (pieces : List Bytes) :
    (empty.put pieces).truncated = false ↔ (empty.put pieces).bytes = pieces.flatten := by
  rw [put_eq_push, truncated_push, bytes_push, empty, Bool.false_or, List.nil_append,
    List.take_eq_self_iff, decide_eq_false_iff_not, Nat.not_lt]
  rfl

end Line

/-! ## Steps -/

/-- What can be done with a line. -/
inductive LineStep
  /-- Bytes are pushed. -/
  | push (bytes : Bytes)
  /-- A text is pushed. -/
  | pushText (text : String)
  /-- A text is put, in the pieces that formatting makes of it. -/
  | put (pieces : List String)
  /-- The line is cleared. -/
  | clear
  deriving DecidableEq

namespace LineStep

/-- What a step appends to the line. -/
def appended : LineStep → Bytes
  | push bytes => bytes
  | pushText text => utf8 text
  | put pieces => utf8 (String.join pieces)
  | clear => []

end LineStep

/-- Everything that some steps have appended since the last of them that cleared the line. -/
def sinceCleared (steps : List LineStep) : Bytes :=
  (steps.rtakeWhile fun step => step ≠ .clear).flatMap LineStep.appended

@[simp] theorem sinceCleared_nil : sinceCleared [] = [] := rfl

@[simp] theorem sinceCleared_concat_clear (steps : List LineStep) :
    sinceCleared (steps ++ [.clear]) = [] := by
  simp [sinceCleared]

theorem sinceCleared_concat {step : LineStep} (h : step ≠ .clear) (steps : List LineStep) :
    sinceCleared (steps ++ [step]) = sinceCleared steps ++ step.appended := by
  simp [sinceCleared, h]

theorem utf8_join (pieces : List String) :
    utf8 (String.join pieces) = (pieces.map utf8).flatten := by
  induction pieces with
  | nil => rfl
  | cons piece pieces ih =>
    rw [String.join_cons, List.map_cons, List.flatten_cons, ← ih]
    simp [utf8]

namespace Line

/-- Takes a step. -/
def perform (line : Line) : LineStep → Line
  | .push bytes => line.push bytes
  | .pushText text => line.push (utf8 text)
  | .put pieces => line.put (pieces.map utf8)
  | .clear => empty

/-- The line that a fresh one becomes by some steps. -/
def composed (steps : List LineStep) : Line := steps.foldl perform empty

theorem perform_eq_push (line : Line) {step : LineStep} (h : step ≠ .clear) :
    line.perform step = line.push step.appended := by
  cases step with
  | push bytes => rfl
  | pushText text => rfl
  | put pieces => rw [perform, put_eq_push, LineStep.appended, utf8_join]
  | clear => exact absurd rfl h

/-- **Any steps come to one push.** -/
theorem composed_eq (steps : List LineStep) : composed steps = empty.push (sinceCleared steps) := by
  -- from the end: the last step either clears the line or adds to the one push so far
  induction steps using List.reverseRecOn with
  | nil => exact empty.push_nil.symm
  | append_singleton steps step ih =>
    have hlast : composed (steps ++ [step]) = (composed steps).perform step := by
      rw [composed, List.foldl_append]
      rfl
    by_cases hclear : step = .clear
    · rw [hlast, hclear, sinceCleared_concat_clear, push_nil]
      rfl
    · rw [hlast, perform_eq_push _ hclear, ih, push_push, sinceCleared_concat hclear]

theorem bytes_composed (steps : List LineStep) :
    (composed steps).bytes = (sinceCleared steps).take lineCapacity := by
  rw [composed_eq, bytes_push]
  rfl

theorem truncated_composed_iff (steps : List LineStep) :
    (composed steps).truncated = true ↔ lineCapacity < (sinceCleared steps).length := by
  rw [composed_eq, truncated_push, empty, Bool.false_or, decide_eq_true_iff]
  rfl

end Line

/-! ## The array below a line -/

/-- The memory that a line is kept in. -/
structure LineMemory where
  /-- All the cells. -/
  cells : Bytes
  /-- Their number never changes. -/
  length_cells : cells.length = lineCapacity
  /-- How many of them are in use. -/
  count : Nat
  /-- Whether anything has been dropped. -/
  truncated : Bool

namespace LineMemory

/-- The memory of a line that has just been made. -/
def new : LineMemory where
  cells := List.replicate lineCapacity 0
  length_cells := List.length_replicate
  count := 0
  truncated := false

/-- The cells in use. -/
def bytes? (memory : LineMemory) : Option Bytes := slice? memory.cells 0 memory.count

/-- No cell is in use any more.  The cells keep what is in them. -/
def clear (memory : LineMemory) : LineMemory := { memory with count := 0, truncated := false }

/-- Copies what there is room for behind the cells in use. -/
def push? (memory : LineMemory) (more : Bytes) : Option LineMemory := do
  let room ← remaining? lineCapacity memory.count
  let n := min more.length room
  let kept ← slice? more 0 n
  let after ← overwrite? memory.cells memory.count (memory.count + n) kept
  return {
    cells := after.1
    length_cells := after.2.trans memory.length_cells
    count := memory.count + n
    truncated := memory.truncated || n < more.length }

/-- Takes a step. -/
def perform? (memory : LineMemory) : LineStep → Option LineMemory
  | .push bytes => memory.push? bytes
  | .pushText text => memory.push? (utf8 text)
  | .put pieces => (pieces.map utf8).foldlM push? memory
  | .clear => some memory.clear

/-- The memory of a line that was new before some steps. -/
def composed? (steps : List LineStep) : Option LineMemory := steps.foldlM perform? new

/-- Whether a memory is that of a line: the line can be read off it, with its flag. -/
structure Holds (memory : LineMemory) (line : Line) : Prop where
  /-- The line is in the cells in use. -/
  bytes : memory.bytes? = some line.bytes
  /-- They agree on whether anything has been dropped. -/
  truncated : memory.truncated = line.truncated

variable {memory : LineMemory} {line : Line}

theorem Holds.take_count (h : memory.Holds line) : memory.cells.take memory.count = line.bytes :=
  (slice?_zero_eq_some_iff.mp h.bytes).2

theorem Holds.count_le (h : memory.Holds line) : memory.count ≤ lineCapacity := by
  have hle := (slice?_zero_eq_some_iff.mp h.bytes).1
  rwa [memory.length_cells] at hle

theorem Holds.count_eq (h : memory.Holds line) : memory.count = line.length := by
  have hle := h.count_le
  rw [Line.length, ← h.take_count, List.length_take, memory.length_cells]
  omega

theorem holds_new : new.Holds .empty :=
  ⟨slice?_zero_eq_some_iff.mpr ⟨Nat.zero_le _, rfl⟩, rfl⟩

theorem holds_clear (memory : LineMemory) : memory.clear.Holds .empty :=
  ⟨slice?_zero_eq_some_iff.mpr ⟨Nat.zero_le _, rfl⟩, rfl⟩

/-- While the cells in use are no more than there are, a push is in bounds: it leaves them as they
are and puts behind them what there is room for. -/
theorem exists_push?_eq_some (hle : memory.count ≤ lineCapacity) (more : Bytes) :
    ∃ after, memory.push? more = some after ∧
      after.bytes? = some (memory.cells.take memory.count ++
        more.take (lineCapacity - memory.count)) ∧
      after.truncated = (memory.truncated || lineCapacity - memory.count < more.length) := by
  have hsize := memory.length_cells
  obtain ⟨room, hroom⟩ : ∃ room, lineCapacity - memory.count = room := ⟨_, rfl⟩
  rw [hroom]
  have hfits : memory.count + room ≤ memory.cells.length := by omega
  obtain ⟨after, hafter, hcells⟩ := exists_overwrite?_fitting hfits more
  refine ⟨⟨after.1, after.2.trans hsize, memory.count + min more.length room,
    memory.truncated || min more.length room < more.length⟩, ?_, ?_, ?_⟩
  · simp only [push?, remaining?_of_le hle, hroom, slice?_zero_min, hafter, Option.bind_eq_bind,
      Option.bind_some]
    rfl
  · apply slice?_zero_eq_some_iff.mpr
    refine ⟨?_, ?_⟩
    · show memory.count + min more.length room ≤ after.1.length
      rw [after.2]
      omega
    · -- what lies behind the new count, from an earlier line perhaps, is cut off again
      have hused : (memory.cells.take memory.count ++ more.take room).length =
          memory.count + min more.length room := by
        rw [List.length_append, List.length_take, List.length_take]
        omega
      show after.1.take (memory.count + min more.length room) = _
      rw [hcells, List.take_left' hused]
  · show (memory.truncated || decide (min more.length room < more.length)) = _
    congr 2
    rw [eq_iff_iff]
    omega

/-- **A push into the memory of a line** has a result, which is that of the line pushed to. -/
theorem Holds.exists_push? (h : memory.Holds line) (more : Bytes) :
    ∃ after, memory.push? more = some after ∧ after.Holds (line.push more) := by
  obtain ⟨after, hafter, hbytes, htruncated⟩ := exists_push?_eq_some h.count_le more
  rw [h.take_count, h.count_eq] at hbytes
  rw [h.truncated, h.count_eq] at htruncated
  exact ⟨after, hafter, hbytes, htruncated⟩

/-- A step in the memory of a line has a result, which is that of the line that takes the step. -/
theorem Holds.exists_perform? (h : memory.Holds line) (step : LineStep) :
    ∃ after, memory.perform? step = some after ∧ after.Holds (line.perform step) := by
  cases step with
  | push bytes => exact h.exists_push? bytes
  | pushText text => exact h.exists_push? (utf8 text)
  | put pieces => exact exists_foldlM_eq_some Holds.exists_push? (pieces.map utf8) h
  | clear => exact ⟨memory.clear, rfl, memory.holds_clear⟩

/-- **A line is the beginning of what was appended since it was last cleared**, as much of it as a
line can be long, and its flag is up exactly if that is not all.  A text that was put counts whole,
in whatever pieces it came.  In memory the same steps have a result too: no size gets negative, no
slice is out of bounds, neither where the line is written nor where it is read, and what can be read
is the line. -/
theorem beginning_of_appended (steps : List LineStep) :
    let total := sinceCleared steps
    let line := Line.composed steps
    line.bytes = total.take lineCapacity ∧
    (line.truncated = true ↔ lineCapacity < total.length) ∧
    ∃ memory, composed? steps = some memory ∧
      memory.bytes? = some (total.take lineCapacity) ∧
      memory.count = min total.length lineCapacity ∧
      (memory.truncated = true ↔ lineCapacity < total.length) := by
  intro total line
  have hbytes : line.bytes = total.take lineCapacity := Line.bytes_composed steps
  have htruncated : line.truncated = true ↔ lineCapacity < total.length :=
    Line.truncated_composed_iff steps
  obtain ⟨memory, hmemory, hholds⟩ :=
    exists_foldlM_eq_some Holds.exists_perform? steps holds_new
  have hline : memory.Holds line := hholds
  refine ⟨hbytes, htruncated, memory, hmemory, ?_, ?_, ?_⟩
  · rw [hline.bytes, hbytes]
  · rw [hline.count_eq, Line.length, hbytes, List.length_take, Nat.min_comm]
  · rw [hline.truncated]
    exact htruncated

end LineMemory

end KernelTables
