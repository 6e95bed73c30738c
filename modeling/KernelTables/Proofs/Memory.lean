import KernelTables.Text.Utf8

/-!
# Arrays of fixed size

Lines and fields are kept in arrays that never grow.  Such an array is read a slice at a time and
copied into a slice at a time, and sizes are taken from one another to find out how much may be
copied.  Where a size would be negative or a slice is not all inside of its array, there is no
result.  So wherever there is one, nothing was out of bounds.

* `remaining?`, `slice?`, `overwrite?` — the three, each with the condition under which it has a
  result;
* `exists_foldlM_eq_some` — a run has a result if every step of it has, and ends where a run does
  that it keeps step with.
-/

namespace KernelTables

/-- How much of `size` is left when `used` of it is taken away. -/
def remaining? (size used : Nat) : Option Nat :=
  if used ≤ size then some (size - used) else none

theorem remaining?_of_le {size used : Nat} (h : used ≤ size) :
    remaining? size used = some (size - used) :=
  if_pos h

/-- The cells from `start` up to `stop`. -/
def slice? (cells : Bytes) (start stop : Nat) : Option Bytes :=
  if start ≤ stop ∧ stop ≤ cells.length then some ((cells.take stop).drop start) else none

/-- A slice at the front can be read exactly if there are as many cells. -/
theorem slice?_zero_eq_some_iff {cells bytes : Bytes} {stop : Nat} :
    slice? cells 0 stop = some bytes ↔ stop ≤ cells.length ∧ cells.take stop = bytes := by
  simp [slice?]

/-- As much of a string as there is room for can always be read. -/
theorem slice?_zero_min (bytes : Bytes) (room : Nat) :
    slice? bytes 0 (min bytes.length room) = some (bytes.take room) := by
  rw [slice?_zero_eq_some_iff, Nat.min_comm, ← List.take_eq_take_min]
  exact ⟨Nat.min_le_right _ _, rfl⟩

/-- Copies `source` over the cells from `start` up to `stop`, which must be as many as it has bytes.
The array keeps its size. -/
def overwrite? (cells : Bytes) (start stop : Nat) (source : Bytes) :
    Option { after : Bytes // after.length = cells.length } :=
  if h : (start ≤ stop ∧ stop ≤ cells.length) ∧ source.length = stop - start then
    some ⟨cells.take start ++ source ++ cells.drop stop, by
      simp only [List.length_append, List.length_take, List.length_drop]
      omega⟩
  else none

/-- As much of a string as there is room for can be copied behind the first `start` cells.  They
stay as they are, and so do those that are further behind. -/
theorem exists_overwrite?_fitting {cells : Bytes} {start room : Nat}
    (h : start + room ≤ cells.length) (source : Bytes) :
    ∃ after, overwrite? cells start (start + min source.length room) (source.take room) =
        some after ∧
      after.1 = cells.take start ++ source.take room ++
        cells.drop (start + min source.length room) := by
  have hbounds : (start ≤ start + min source.length room ∧
        start + min source.length room ≤ cells.length) ∧
      (source.take room).length = start + min source.length room - start := by
    rw [List.length_take]
    omega
  exact ⟨_, dif_pos hbounds, rfl⟩

/-- Where every step has a result and keeps step with one that always has, so does the run. -/
theorem exists_foldlM_eq_some {σ τ α : Type} {keeps : σ → τ → Prop} {step? : σ → α → Option σ}
    {step : τ → α → τ}
    (hstep : ∀ {s t}, keeps s t → ∀ a, ∃ s', step? s a = some s' ∧ keeps s' (step t a))
    (as : List α) {s : σ} {t : τ} (h : keeps s t) :
    ∃ s', as.foldlM step? s = some s' ∧ keeps s' (as.foldl step t) := by
  induction as generalizing s t with
  | nil => exact ⟨s, rfl, h⟩
  | cons a as ih =>
    obtain ⟨next, hnext, hkeeps⟩ := hstep h a
    obtain ⟨last, hlast, hend⟩ := ih hkeeps
    refine ⟨last, ?_, hend⟩
    rw [List.foldlM_cons, hnext]
    exact hlast

end KernelTables
