import KernelTables.Text.Utf8

/-!
# Fixed-capacity fields

A field holds one name or path in a buffer of fixed size.  Its *contents* run up to the
first NUL byte; the bytes behind that are still there, and still count when two fields are
compared.  What is copied in is cut to one byte less than the capacity, so a copied field always
ends in a NUL.

* **Copying** forgets what the field held (`ofBytes` has no old field to look at).
* **Sanitizing** replaces newlines in the whole buffer, so it changes no length.
-/

namespace KernelTables

/-- A byte string in which every newline is replaced by an underscore. -/
def sanitize (bytes : Bytes) : Bytes := bytes.map fun b => if b = newline then 0x5F else b

@[simp] theorem length_sanitize (bytes : Bytes) : (sanitize bytes).length = bytes.length := by
  simp [sanitize]

/-- No newline is left in a sanitized string. -/
theorem newline_notMem_sanitize (bytes : Bytes) : newline ∉ sanitize bytes := by
  intro h
  obtain ⟨b, -, hb⟩ := List.mem_map.mp h
  by_cases hn : b = newline
  · rw [if_pos hn] at hb
    exact absurd hb (by decide)
  · rw [if_neg hn] at hb
    exact hn hb

/-- Sanitizing makes no NUL and removes none. -/
theorem takeWhile_sanitize (bytes : Bytes) :
    (sanitize bytes).takeWhile (· != 0) = sanitize (bytes.takeWhile (· != 0)) := by
  induction bytes with
  | nil => rfl
  | cons b bs ih =>
    have hb : ((if b = newline then 0x5F else b) != 0) = (b != 0) := by
      by_cases hn : b = newline
      · rw [if_pos hn, hn]
        rfl
      · rw [if_neg hn]
    rw [sanitize] at ih ⊢
    rw [List.map_cons, List.takeWhile_cons, List.takeWhile_cons, hb, ih]
    cases b != 0 <;> rfl

/-- A buffer of `capacity` bytes that holds a NUL-terminated string. -/
structure Field (capacity : Nat) where
  /-- Every byte of the buffer, those behind the terminator included. -/
  cells : Bytes
  /-- The buffer has its full size at all times. -/
  length_cells : cells.length = capacity
  deriving DecidableEq, Repr

namespace Field

variable {capacity : Nat}

/-- The field that is zero throughout. -/
def empty : Field capacity := ⟨List.replicate capacity 0, by simp⟩

instance : Inhabited (Field capacity) := ⟨empty⟩

/-- A field that holds `bytes`, cut to leave room for a terminator, and zeros behind them. -/
def ofBytes (bytes : Bytes) : Field capacity :=
  let kept := bytes.take (capacity - 1)
  ⟨kept ++ List.replicate (capacity - kept.length) 0, by
    have : kept.length ≤ capacity - 1 := List.length_take_le _ _
    rw [List.length_append, List.length_replicate]
    omega⟩

/-- The string a field holds: its bytes up to the first NUL. -/
def contents (field : Field capacity) : Bytes := field.cells.takeWhile (· != 0)

/-- The number of bytes before the first NUL. -/
def length (field : Field capacity) : Nat := field.contents.length

/-- Whether the first byte is NUL, or there is none. -/
def isEmpty (field : Field capacity) : Bool := field.cells.head?.getD 0 == 0

/-- Replaces every newline of the buffer, also behind the terminator. -/
def sanitized (field : Field capacity) : Field capacity :=
  ⟨sanitize field.cells, by simp [field.length_cells]⟩

/-- Writes one byte of the buffer; an index outside of it changes nothing. -/
def poke (field : Field capacity) (index : Nat) (byte : UInt8) : Field capacity :=
  ⟨field.cells.set index byte, by simp [field.length_cells]⟩

@[simp] theorem cells_sanitized (field : Field capacity) :
    field.sanitized.cells = sanitize field.cells := rfl

/-! ## What the operations do to the contents -/

theorem takeWhile_replicate_zero (n : Nat) :
    (List.replicate n (0 : UInt8)).takeWhile (· != 0) = [] := by
  cases n <;> rfl

@[simp] theorem contents_empty : (empty : Field capacity).contents = [] :=
  takeWhile_replicate_zero capacity

/-- A copied field holds what fits of the copied string, up to its first NUL. -/
theorem contents_ofBytes (bytes : Bytes) :
    (ofBytes bytes : Field capacity).contents =
      (bytes.take (capacity - 1)).takeWhile (· != 0) := by
  rw [contents, ofBytes, List.takeWhile_append, takeWhile_replicate_zero, List.append_nil]
  split
  next h => exact ((List.takeWhile_prefix _).eq_of_length h).symm
  next => rfl

/-- What is in a copied field was in what was copied. -/
theorem mem_of_mem_contents_ofBytes {bytes : Bytes} {b : UInt8}
    (h : b ∈ (ofBytes bytes : Field capacity).contents) : b ∈ bytes := by
  rw [contents_ofBytes] at h
  exact List.mem_of_mem_take ((List.takeWhile_subset _) h)

@[simp] theorem contents_sanitized (field : Field capacity) :
    field.sanitized.contents = sanitize field.contents :=
  takeWhile_sanitize field.cells

theorem length_contents_le (field : Field capacity) : field.contents.length ≤ capacity := by
  have h := (List.takeWhile_prefix (l := field.cells) (· != 0)).length_le
  rwa [field.length_cells] at h

/-- A field is empty exactly if it holds the empty string. -/
theorem isEmpty_iff (field : Field capacity) : field.isEmpty = true ↔ field.contents = [] := by
  obtain ⟨cells, -⟩ := field
  cases cells with
  | nil => simp [isEmpty, contents]
  | cons b bs =>
    by_cases h : b = 0 <;> simp [isEmpty, contents, h]

end Field

/-! ## The fields of the kernel's objects -/

/-- A task's command name. -/
abbrev CommandName := Field 16

/-- A resolved path. -/
abbrev PathText := Field 1024

/-- The node name of a UTS namespace. -/
abbrev NodeName := Field 65

/-- The name of a kernel symbol. -/
abbrev SymbolName := Field 512

/-- The name of a kernel module. -/
abbrev ModuleName := Field 56

end KernelTables
