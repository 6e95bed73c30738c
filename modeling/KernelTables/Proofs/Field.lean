import KernelTables.Field
import KernelTables.Proofs.Memory

/-!
# What can be relied on of a field

A field is filled, filled anew, cleared and sanitized in any order, and its cells may also have been
written to directly, with no NUL left among them.  The capacity may be any, also zero, where there is
no room even for a NUL.

* `set?_eq` — **filling a field in memory** is in bounds, and leaves nothing of what was there;
* `bytes?_eq` — what is read off the cells are the contents, NUL or no NUL;
* `terminated_performed` — after any steps the last cell is a NUL;
* `replaces_iff` — what sanitizing does, letter by letter;
* `ofBytes_sanitize` — sanitizing before copying or after it comes to the same field;
* `terminated_and_sanitized` — all of this, for any capacity.
-/

namespace KernelTables

/-! ## Sanitizing -/

/-- What stands for a newline in a sanitized string. -/
def underscore : UInt8 := 0x5F

/-- Whether one string is another one with an underscore in place of each newline. -/
structure Replaces (before after : Bytes) : Prop where
  /-- It is as long. -/
  length_eq : after.length = before.length
  /-- It has an underscore where the other one has a newline. -/
  newlines : ∀ i : Nat, before[i]? = some newline → after[i]? = some underscore
  /-- It is the same everywhere else. -/
  others : ∀ i : Nat, before[i]? ≠ some newline → after[i]? = before[i]?

theorem replaces_sanitize (bytes : Bytes) : Replaces bytes (sanitize bytes) where
  length_eq := length_sanitize bytes
  newlines i h := by
    rw [sanitize, List.getElem?_map, h]
    rfl
  others i h := by
    rw [sanitize, List.getElem?_map]
    cases hbyte : bytes[i]? with
    | none => rfl
    | some b =>
      have hne : b ≠ newline := by
        rintro rfl
        exact h hbyte
      rw [Option.map_some, if_neg hne]

/-- There is only one such string. -/
theorem replaces_iff {before after : Bytes} : Replaces before after ↔ after = sanitize before := by
  constructor
  · intro h
    apply List.ext_getElem?
    intro i
    have hsanitize := replaces_sanitize before
    by_cases hnewline : before[i]? = some newline
    · rw [h.newlines i hnewline, hsanitize.newlines i hnewline]
    · rw [h.others i hnewline, hsanitize.others i hnewline]
  · rintro rfl
    exact replaces_sanitize before

/-- A string without newlines stays as it is. -/
theorem sanitize_of_notMem {bytes : Bytes} (h : newline ∉ bytes) : sanitize bytes = bytes := by
  symm
  rw [← replaces_iff]
  refine ⟨rfl, ?_, fun _ _ => rfl⟩
  intro i hi
  exact absurd (List.mem_of_getElem? hi) h

theorem sanitize_sanitize (bytes : Bytes) : sanitize (sanitize bytes) = sanitize bytes :=
  sanitize_of_notMem (newline_notMem_sanitize bytes)

theorem sanitize_append (first rest : Bytes) :
    sanitize (first ++ rest) = sanitize first ++ sanitize rest :=
  List.map_append

theorem sanitize_take (n : Nat) (bytes : Bytes) :
    sanitize (bytes.take n) = (sanitize bytes).take n :=
  List.map_take

theorem newline_notMem_zeros (n : Nat) : newline ∉ List.replicate n (0 : UInt8) := by
  intro h
  exact absurd (List.eq_of_mem_replicate h) (by decide)

namespace Field

variable {capacity : Nat} {field : Field capacity}

theorem ext_cells {other : Field capacity} (h : field.cells = other.cells) : field = other := by
  obtain ⟨cells, hcells⟩ := field
  obtain ⟨others, hothers⟩ := other
  obtain rfl : cells = others := h
  rfl

theorem cells_ofBytes (bytes : Bytes) :
    (ofBytes bytes : Field capacity).cells =
      bytes.take (capacity - 1) ++
        List.replicate (capacity - (bytes.take (capacity - 1)).length) 0 :=
  rfl

theorem sanitized_sanitized (field : Field capacity) :
    field.sanitized.sanitized = field.sanitized := by
  apply ext_cells
  rw [cells_sanitized, cells_sanitized, sanitize_sanitize]

/-- It makes no difference whether a string is sanitized before it is copied or after. -/
theorem ofBytes_sanitize (bytes : Bytes) :
    (ofBytes (sanitize bytes) : Field capacity) = (ofBytes bytes).sanitized := by
  apply ext_cells
  rw [cells_sanitized, cells_ofBytes, cells_ofBytes, sanitize_append, sanitize_take,
    sanitize_of_notMem (newline_notMem_zeros _), List.length_take, List.length_take, length_sanitize]

/-! ## The array below a field -/

/-- Writes zero to every cell. -/
def zeroed (field : Field capacity) : Field capacity :=
  ⟨field.cells.map fun _ => 0, by rw [List.length_map, field.length_cells]⟩

/-- Fills a field: the cells are zeroed, and as much as leaves room for a NUL is copied to the
front. -/
def set? (field : Field capacity) (bytes : Bytes) : Option (Field capacity) := do
  let n := min bytes.length (capacity - 1)
  let kept ← slice? bytes 0 n
  let after ← overwrite? field.zeroed.cells 0 n kept
  return ⟨after.1, after.2.trans field.zeroed.length_cells⟩

/-- The cells in front of the first NUL, or all of them if there is none. -/
def bytes? (field : Field capacity) : Option Bytes :=
  slice? field.cells 0 ((field.cells.findIdx? (· == 0)).getD capacity)

theorem zeroed_eq (field : Field capacity) : field.zeroed = empty := by
  apply ext_cells
  show field.cells.map (fun _ => 0) = List.replicate capacity 0
  rw [List.map_const', field.length_cells]

/-- **Filling a field in memory** is in bounds, and what was there before makes no difference. -/
theorem set?_eq (field : Field capacity) (bytes : Bytes) :
    field.set? bytes = some (ofBytes bytes) := by
  have hsize := field.zeroed.length_cells
  obtain ⟨after, hafter, hcells⟩ :=
    exists_overwrite?_fitting (by omega : 0 + (capacity - 1) ≤ field.zeroed.cells.length) bytes
  rw [Nat.zero_add] at hafter hcells
  have hfield : field.set? bytes = some ⟨after.1, after.2.trans hsize⟩ := by
    simp only [set?, slice?_zero_min, hafter, Option.bind_eq_bind, Option.bind_some]
    rfl
  rw [hfield]
  congr 1
  apply ext_cells
  show after.1 = _
  rw [hcells, cells_ofBytes, List.length_take, zeroed_eq, Nat.min_comm]
  -- what is left of the zeroed cells are the zeros that a new field has there
  show [] ++ bytes.take (capacity - 1) ++ (List.replicate capacity 0).drop _ = _
  rw [List.nil_append, List.drop_replicate]

/-- What is read off the cells are the contents.  There is always something to read, also where no
cell is a NUL. -/
theorem bytes?_eq (field : Field capacity) : field.bytes? = some field.contents := by
  have hend : (field.cells.findIdx? (· == 0)).getD capacity = field.cells.findIdx (· == 0) := by
    rw [List.findIdx_eq_getD_findIdx?, field.length_cells]
  have hnul : (fun b : UInt8 => !(b != 0)) = (· == 0) := by
    funext b
    exact Bool.not_not _
  have hcontents : field.contents = field.cells.take (field.cells.findIdx (· == 0)) := by
    rw [contents, List.takeWhile_eq_take_findIdx_not, hnul]
  rw [bytes?, hend, slice?_zero_eq_some_iff, hcontents]
  exact ⟨List.findIdx_le_length, rfl⟩

end Field

/-! ## Steps -/

/-- What can be done with a field. -/
inductive FieldStep
  /-- It is filled. -/
  | set (bytes : Bytes)
  /-- A new field takes its place that is made of some bytes. -/
  | ofBytes (bytes : Bytes)
  /-- It is cleared. -/
  | clear
  /-- It is sanitized. -/
  | sanitize

namespace Field

variable {capacity : Nat} {field : Field capacity}

/-- Takes a step. -/
def perform (field : Field capacity) : FieldStep → Field capacity
  | .set bytes => .ofBytes bytes
  | .ofBytes bytes => .ofBytes bytes
  | .clear => .empty
  | .sanitize => field.sanitized

/-- Takes a step in memory. -/
def perform? (field : Field capacity) : FieldStep → Option (Field capacity)
  | .set bytes => field.set? bytes
  | .ofBytes bytes => empty.set? bytes
  | .clear => some field.zeroed
  | .sanitize => some field.sanitized

/-- The field that an empty one becomes by some steps. -/
def performed (steps : List FieldStep) : Field capacity := steps.foldl perform empty

/-- The same, in memory. -/
def performed? (steps : List FieldStep) : Option (Field capacity) := steps.foldlM perform? empty

theorem perform?_eq (field : Field capacity) (step : FieldStep) :
    field.perform? step = some (field.perform step) := by
  cases step with
  | set bytes => exact field.set?_eq bytes
  | ofBytes bytes => exact empty.set?_eq bytes
  | clear => exact congrArg some field.zeroed_eq
  | sanitize => rfl

theorem performed?_eq (steps : List FieldStep) :
    (performed? steps : Option (Field capacity)) = some (performed steps) := by
  have hperform : (perform? : Field capacity → _) = fun field step => pure (field.perform step) := by
    funext field step
    exact field.perform?_eq step
  rw [performed?, hperform]
  exact List.foldlM_pure

/-- Whether the last cell is a NUL.  A field without cells has none. -/
def Terminated (field : Field capacity) : Prop :=
  0 < capacity → field.cells.getLast? = some 0

theorem terminated_ofBytes (bytes : Bytes) : (ofBytes bytes : Field capacity).Terminated := by
  intro hpos
  have hkept : (bytes.take (capacity - 1)).length ≤ capacity - 1 := List.length_take_le _ _
  have hzeros : capacity - (bytes.take (capacity - 1)).length ≠ 0 := by omega
  rw [cells_ofBytes, List.getLast?_append, List.getLast?_replicate, if_neg hzeros]
  rfl

theorem terminated_empty : (empty : Field capacity).Terminated := by
  intro hpos
  show (List.replicate capacity 0).getLast? = some 0
  rw [List.getLast?_replicate, if_neg (Nat.ne_of_gt hpos)]

theorem Terminated.sanitized (h : field.Terminated) : field.sanitized.Terminated := by
  intro hpos
  rw [cells_sanitized, sanitize, List.getLast?_map, h hpos]
  rfl

theorem nul_notMem_contents (field : Field capacity) : (0 : UInt8) ∉ field.contents := by
  intro h
  have hne := List.all_eq_true.mp List.all_takeWhile 0 h
  exact absurd hne (by decide)

/-- The contents of a field end before its last cell if that is a NUL. -/
theorem Terminated.length_le (h : field.Terminated) : field.length ≤ capacity - 1 := by
  have hle : field.length ≤ capacity := field.length_contents_le
  by_cases hpos : 0 < capacity
  · have hne : field.length ≠ capacity := by
      -- contents as long as the array would have the last cell in them, and with it a NUL
      intro hlength
      have hprefix : field.contents <+: field.cells := List.takeWhile_prefix _
      have hall : field.contents = field.cells :=
        hprefix.eq_of_length (hlength.trans field.length_cells.symm)
      apply field.nul_notMem_contents
      rw [hall]
      exact List.mem_of_getLast? (h hpos)
    omega
  · omega

/-- Every step leaves a NUL in the last cell. -/
theorem Terminated.perform (h : field.Terminated) (step : FieldStep) :
    (field.perform step).Terminated := by
  cases step with
  | set bytes => exact terminated_ofBytes bytes
  | ofBytes bytes => exact terminated_ofBytes bytes
  | clear => exact terminated_empty
  | sanitize => exact h.sanitized

theorem terminated_performed (steps : List FieldStep) :
    (performed steps : Field capacity).Terminated :=
  List.foldlRecOn steps Field.perform terminated_empty fun _ h step _ => h.perform step

theorem length_sanitized (field : Field capacity) : field.sanitized.length = field.length := by
  rw [length, contents_sanitized, length_sanitize, length]

theorem isEmpty_iff_length (field : Field capacity) : field.isEmpty = true ↔ field.length = 0 := by
  rw [isEmpty_iff, length, List.length_eq_zero_iff]

/-- **What can be relied on of a field of any capacity.**  Filled, replaced, cleared and sanitized
in any order, it ends in a NUL, with the contents in front of it, as soon as it has a cell at all.
Whatever its cells hold, filling it leaves what was filled in, cut to leave room for a NUL and then
at its first NUL.  And whatever its cells hold, with a NUL among them or not, sanitizing changes
nothing but newlines, leaves none of them in any cell, does no more when it is done again, and may
as well be done before copying; the field counts as empty exactly if its length is zero.  In memory
no slice is ever out of bounds, and the same comes of it. -/
theorem terminated_and_sanitized (capacity : Nat) :
    (∀ steps : List FieldStep,
      let field : Field capacity := performed steps
      performed? steps = some field ∧
        (0 < capacity → field.cells.getLast? = some 0 ∧ field.length ≤ capacity - 1)) ∧
    (∀ (field : Field capacity) (bytes : Bytes),
      field.set? bytes = some (ofBytes bytes) ∧
        (ofBytes bytes : Field capacity).bytes? =
          some ((bytes.take (capacity - 1)).takeWhile (· != 0))) ∧
    (∀ field : Field capacity,
      field.bytes? = some field.contents ∧
      field.sanitized.length = field.length ∧
      Replaces field.contents field.sanitized.contents ∧
      newline ∉ field.sanitized.cells ∧
      field.sanitized.sanitized = field.sanitized ∧
      (field.isEmpty = true ↔ field.length = 0)) ∧
    ∀ bytes : Bytes, (ofBytes (sanitize bytes) : Field capacity) = (ofBytes bytes).sanitized := by
  refine ⟨?_, ?_, ?_, ofBytes_sanitize⟩
  · intro steps field
    have hterminated : field.Terminated := terminated_performed steps
    exact ⟨performed?_eq steps, fun hpos => ⟨hterminated hpos, hterminated.length_le⟩⟩
  · intro field bytes
    refine ⟨field.set?_eq bytes, ?_⟩
    rw [bytes?_eq, contents_ofBytes]
  · intro field
    refine ⟨field.bytes?_eq, field.length_sanitized, ?_, ?_, field.sanitized_sanitized,
      field.isEmpty_iff_length⟩
    · rw [replaces_iff, contents_sanitized]
    · exact newline_notMem_sanitize field.cells

/-- A field is filled with two lines of text and then sanitized. -/
def twoLines : List FieldStep := [.set [0x61, newline, 0x62, 0x63, 0x64], .sanitize]

/-- A field whose three cells have all been written to directly. -/
def unterminated : Field 3 := ⟨[0x61, newline, 0x62], rfl⟩

/-- Of five bytes four cells hold three and a NUL.  Three cells without one are all contents. -/
theorem terminated_and_sanitized_twoLines :
    0 < 4 ∧ (performed twoLines : Field 4).cells = [0x61, underscore, 0x62, 0] ∧
      (performed twoLines : Field 4).cells.getLast? = some 0 ∧
      (performed twoLines : Field 4).length ≤ 3 ∧
      unterminated.length = 3 ∧ unterminated.sanitized.length = unterminated.length := by
  obtain ⟨hsteps, -, -, -⟩ := terminated_and_sanitized 4
  obtain ⟨-, hend⟩ := hsteps twoLines
  obtain ⟨hlast, hlength⟩ := hend (by decide)
  obtain ⟨-, -, hcells, -⟩ := terminated_and_sanitized 3
  obtain ⟨-, hkept, -⟩ := hcells unterminated
  exact ⟨by decide, rfl, hlast, hlength, rfl, hkept⟩

end Field

end KernelTables
