import Mathlib.Data.List.TakeWhile
import Mathlib.Order.Bounds.Basic
import Mathlib.Order.MinMax
import KernelTables.Proofs.Symbol.Reader

/-!
# The section a symbol is put in

The sections of a table stand in a fixed order, and a reader puts a symbol in the latest section
that it has met.  A cursor says which one that is by its boundaries, where zero means that a
boundary has not been met.

* `Cursor.Tracks` — **the invariant**: a boundary is set exactly if the latest section lies behind
  it, and lies ahead of no position.  Entering a section at any position but zero keeps it
  (`Tracks.enter`).
* Position zero is different.  A boundary passed there is set to zero, and so not at all
  (`enter_zero`): a section that begins with the very first symbol of a table is not noticed until
  another symbol of it, or of a later one, is read.
* `kind_getElem_yielded` — what this comes to for a whole table.
-/

namespace KernelTables

namespace Section

theorem rank_injective : Function.Injective rank := by
  intro s t h
  cases s <;> cases t <;> first | rfl | simp [rank] at h

/-- Sections are ordered as they stand in the table. -/
instance : LinearOrder Section := LinearOrder.lift' rank rank_injective

theorem rank_max (s t : Section) : (max s t).rank = max s.rank t.rank := by
  cases s <;> cases t <;> rfl

@[simp] theorem modules_le (s : Section) : modules ≤ s := Nat.zero_le s.rank

/-- The latest of some sections, the first section of the table if there are none. -/
def latest (sections : List Section) : Section := sections.foldl max modules

@[simp] theorem latest_nil : latest [] = modules := rfl

theorem latest_cons (s : Section) (rest : List Section) : latest (s :: rest) = max s (latest rest) := by
  rw [latest, List.foldl_cons, max_comm, List.foldl_assoc, latest]

/-- The latest of some sections is the greatest of them. -/
theorem isGreatest_latest {sections : List Section} (h : sections ≠ []) :
    IsGreatest {s | s ∈ sections} (latest sections) := by
  induction sections with
  | nil => exact absurd rfl h
  | cons s rest ih =>
    rw [latest_cons]
    by_cases hrest : rest = []
    · subst hrest
      simp [IsGreatest, upperBounds]
    · obtain ⟨hmem, hupper⟩ := ih hrest
      refine ⟨?_, ?_⟩
      · rcases max_choice s (latest rest) with hmax | hmax
        · rw [hmax]
          exact List.mem_cons_self
        · rw [hmax]
          exact List.mem_cons_of_mem _ hmem
      · intro t ht
        rcases List.mem_cons.mp ht with rfl | ht
        · exact le_max_left _ _
        · exact le_trans (hupper ht) (le_max_right _ _)

end Section

namespace Cursor

/-! ## The invariant -/

/-- What a boundary says of the latest section: it is set exactly if that section lies behind the
boundary's place in the table, and it has been passed. -/
def Marks (cursor : Cursor) (within : Section) (place boundary : Nat) : Prop :=
  (boundary ≠ 0 ↔ place < within.rank) ∧ boundary ≤ cursor.position

/-- Whether a cursor shows that `within` is the latest section it has entered. -/
structure Tracks (cursor : Cursor) (within : Section) : Prop where
  /-- The end of the first section. -/
  modulesEnd : cursor.Marks within 0 cursor.modulesEnd
  /-- The end of the tracer's section. -/
  ftraceEnd : cursor.Marks within 1 cursor.ftraceEnd
  /-- The end of the packet filters' section. -/
  bpfEnd : cursor.Marks within 2 cursor.bpfEnd

theorem Marks.isAhead {cursor : Cursor} {within : Section} {place boundary : Nat}
    (h : cursor.Marks within place boundary) :
    cursor.isAhead boundary = decide (within.rank ≤ place) := by
  obtain ⟨hset, hpassed⟩ := h
  by_cases hb : boundary = 0
  · have hplace : within.rank ≤ place := by
      have := mt hset.mpr (not_not.mpr hb)
      omega
    simp [Cursor.isAhead, hb, hplace]
  · have hplace : ¬within.rank ≤ place := by
      have := hset.mp hb
      omega
    simp [Cursor.isAhead, hb, hplace, hpassed]

/-- A cursor classifies a symbol by the latest section it has entered. -/
theorem Tracks.classify {cursor : Cursor} {within : Section} (h : cursor.Tracks within) :
    cursor.classify = within := by
  rw [Cursor.classify, h.modulesEnd.isAhead, h.ftraceEnd.isAhead, h.bpfEnd.isAhead]
  cases within <;> rfl

/-- A boundary keeps its meaning when a section is entered: it is set if it was, or if that section
lies behind it. -/
theorem Marks.enter {cursor : Cursor} {within : Section} {place boundary : Nat}
    (h : cursor.Marks within place boundary) {position : Nat} (hpos : 0 < position)
    (hle : cursor.position ≤ position) (next : Section) :
    (cursor.enter position next).Marks (max within next) place
      (if place < next.rank then closeAt position boundary else boundary) := by
  obtain ⟨hset, hpassed⟩ := h
  rw [Marks, Section.rank_max]
  have hposition : (cursor.enter position next).position = position := rfl
  rw [hposition, closeAt]
  by_cases hnext : place < next.rank
  · rw [if_pos hnext]
    by_cases hb : boundary = 0
    · rw [if_pos hb]
      omega
    · rw [if_neg hb]
      omega
  · rw [if_neg hnext]
    omega

/-- **Entering a section keeps the invariant**, at any position but zero. -/
theorem Tracks.enter {cursor : Cursor} {within : Section} (h : cursor.Tracks within)
    {position : Nat} (hpos : 0 < position) (hle : cursor.position ≤ position) (next : Section) :
    (cursor.enter position next).Tracks (max within next) where
  modulesEnd := h.modulesEnd.enter hpos hle next
  ftraceEnd := h.ftraceEnd.enter hpos hle next
  bpfEnd := h.bpfEnd.enter hpos hle next

/-- A cursor that has not moved is in the first section. -/
theorem tracks_default : ({} : Cursor).Tracks .modules := by
  constructor <;> simp [Marks, Section.rank]

/-- What is entered at position zero leaves no trace, since a boundary of zero is not set. -/
theorem enter_zero (next : Section) : ({} : Cursor).enter 0 next = {} := by
  cases next <;> rfl

/-- Passing symbols of any sections keeps the invariant, from position one on. -/
theorem Tracks.passing {cursor : Cursor} {within : Section} (h : cursor.Tracks within)
    {position : Nat} (hpos : 0 < position) (hle : cursor.position ≤ position)
    (sections : List Section) :
    (cursor.passing position sections).Tracks (sections.foldl max within) := by
  induction sections generalizing cursor within position with
  | nil => exact h
  | cons next rest ih =>
    exact ih (h.enter hpos hle next) (Nat.succ_pos position) (Nat.le_succ position)

/-- The cursor at a symbol of a table shows the latest section of the symbols up to it, but for the
very first. -/
theorem classify_passing (sections : List Section) :
    (({} : Cursor).passing 0 sections).classify = Section.latest sections.tail := by
  cases sections with
  | nil => rfl
  | cons first rest =>
    rw [Cursor.passing, enter_zero]
    exact (tracks_default.passing Nat.one_pos (Nat.zero_le 1) rest).classify

end Cursor

/-! ## Stored names of modules -/

/-- A module's name may be cut short to fit its field, but is not taken for another section's by
that. -/
theorem ofModule_contents {name : Bytes} (h : (0 : UInt8) ∉ name) :
    Section.ofModule (Field.ofBytes name : ModuleName).contents = Section.ofModule name := by
  have hcontents : (Field.ofBytes name : ModuleName).contents = name.take 55 := by
    rw [Field.contents_ofBytes, List.takeWhile_eq_self_iff]
    intro b hb
    have : b ≠ 0 := fun h0 => h (h0 ▸ List.mem_of_mem_take hb)
    simpa using this
  rw [hcontents]
  by_cases hlong : name.length ≤ 55
  · rw [List.take_of_length_le hlong]
  · -- too long to be the name of a pseudo-module, and what is kept of it is too
    have hne (pseudo : Bytes) (hp : pseudo.length < 55) : name ≠ pseudo ∧ name.take 55 ≠ pseudo := by
      refine ⟨?_, ?_⟩
      · rintro rfl
        omega
      · rintro rfl
        rw [List.length_take] at hp
        omega
    have h₁ := hne (utf8 "__builtin__ftrace") (by decide)
    have h₂ := hne (utf8 "bpf") (by decide)
    have h₃ := hne (utf8 "__builtin__kprobes") (by decide)
    simp only [Section.ofModule, if_neg h₁.1, if_neg h₁.2, if_neg h₂.1, if_neg h₂.2,
      if_neg h₃.1, if_neg h₃.2]

/-! ## Whole tables -/

namespace Table

/-- The sections of a table's symbols, each judged by the name of its module. -/
def sections (table : Table) : List Section := table.entries.map TableEntry.sectionOf

/-- **The kind of a symbol** is the latest section of the symbols up to it, where the very first
symbol of the table does not count.  So it is the greatest section of all of them exactly if the
first symbol's section is no later than the latest of the others.  (The sections are judged by the
names as they stand in the table; those that the symbols keep make no difference, unless one holds
a NUL.) -/
theorem kind_getElem_yielded (table : Table) (i : Nat) (hi : i < table.yielded.length) :
    table.yielded[i].kind = Section.latest (table.sections.take (i + 1)).tail ∧
    (IsGreatest {s | s ∈ table.sections.take (i + 1)} table.yielded[i].kind ↔
      ∀ first ∈ table.sections.head?,
        first ≤ Section.latest (table.sections.take (i + 1)).tail) ∧
    ((∀ entry ∈ table.entries, (0 : UInt8) ∉ encode entry.moduleName) →
      table.sections = table.yielded.map fun symbol => .ofModule symbol.moduleName.contents) := by
  have hentries : i < table.entries.length := by simpa using hi
  have hkind : table.yielded[i].kind = Section.latest (table.sections.take (i + 1)).tail := by
    simp only [yielded_eq, TableEntry.getElem_symbolsFrom, Symbol.kind, TableEntry.toSymbol,
      sections, ← List.map_take]
    exact Cursor.classify_passing _
  refine ⟨hkind, ?_, ?_⟩
  · -- the first symbol's section is what the kind leaves out
    obtain ⟨first, rest, hsections⟩ : ∃ first rest, table.sections = first :: rest := by
      refine List.exists_cons_of_length_pos ?_
      rw [sections, List.length_map]
      omega
    have hgreatest := Section.isGreatest_latest (List.cons_ne_nil first (rest.take i))
    rw [hkind, hsections, List.take_succ_cons, List.tail_cons]
    rw [Section.latest_cons] at hgreatest
    constructor
    · intro h
      rw [h.unique hgreatest]
      simp
    · intro h
      rwa [max_eq_right (h first rfl)] at hgreatest
  · intro hplain
    have hstored : (TableEntry.symbolsFrom 0 {} table.entries).map
          (fun symbol => Section.ofModule symbol.moduleName.contents) =
        table.entries.map fun entry =>
          .ofModule (Field.ofBytes (encode entry.moduleName) : ModuleName).contents :=
      TableEntry.map_symbolsFrom (fun _ _ => rfl) 0 {} table.entries
    rw [yielded_eq, hstored, sections]
    refine List.map_congr_left fun entry hentry => ?_
    exact (ofModule_contents (hplain entry hentry)).symm

/-- A table whose very first symbol belongs to a later section. -/
def lateStart : Table := [.data (utf8 "0000000000001000 t a\t[bpf]\n")]

/-- Its symbol is put in the first section all the same. -/
theorem kind_lateStart :
    ∃ h : 0 < lateStart.yielded.length,
      lateStart.sections = [.bpf] ∧ lateStart.yielded[0].kind = .modules ∧
        ¬IsGreatest {s | s ∈ lateStart.sections.take 1} lateStart.yielded[0].kind := by
  have hlength : 0 < lateStart.yielded.length := by decide
  obtain ⟨hkind, hgreatest, -⟩ := kind_getElem_yielded lateStart 0 hlength
  refine ⟨hlength, by decide, ?_, ?_⟩
  · rw [hkind]
    decide
  · rw [hgreatest]
    decide

end Table

end KernelTables
