import Mathlib.Data.List.Infix
import KernelTables.Proofs.Record
import KernelTables.Proofs.Symbol.Grammar
import KernelTables.Proofs.Symbol.Reader

/-!
# Newlines and the symbol table

The table is cut into lines before anything in it is looked at, so no newline gets into an entry
(`Table.plain_of_mem_entries`), into the symbol made of it, or into the two lines that report that
symbol (`newline_notMem_entryText`).
-/

namespace KernelTables

/-! ## Lines of the table -/

theorem Table.newline_notMem_of_mem_linesFrom {table : Table} {begun line : Bytes}
    (hbegun : newline ∉ begun) (h : .ok line ∈ table.linesFrom begun) : newline ∉ line := by
  induction table generalizing begun with
  | nil =>
    rw [linesFrom] at h
    split at h
    · exact absurd h List.not_mem_nil
    · obtain rfl : line = begun := Except.ok.inj (List.mem_singleton.mp h)
      exact hbegun
  | cons segment rest ih =>
    cases segment with
    | interrupted => exact ih hbegun h
    | failure message =>
      rcases List.mem_cons.mp h with h | h
      · exact absurd h (by simp)
      · exact ih List.not_mem_nil h
    | data bytes =>
      rcases List.mem_append.mp h with h | h
      · obtain ⟨piece, hpiece, hline⟩ := List.mem_map.mp h
        obtain rfl : piece = line := Except.ok.inj hline
        exact notMem_of_mem_splitOn (List.mem_of_mem_dropLast hpiece)
      · exact ih (notMem_getLast?_splitOn newline (begun ++ bytes)) h

/-! ## Entries -/

namespace TableEntry

/-- Whether an entry holds no newline. -/
structure Plain (entry : TableEntry) : Prop where
  /-- The type letter is none. -/
  code : entry.code ≠ newline
  /-- The name has none. -/
  name : '\n' ∉ entry.name
  /-- The module's name has none. -/
  moduleName : '\n' ∉ entry.moduleName

section Parsed

variable {line : List Char} {entry : TableEntry}

/-- No white space is a type letter. -/
theorem code_ne_of_isBlank (h : parse? line = some entry) {b : UInt8} (hlt : b.toNat < 0x80)
    (hb : isBlank (Char.ofNat b.toNat) = true) : entry.code ≠ b := by
  obtain ⟨columns, address, kind, further, -, hwords, -, hcode⟩ := parse?_eq_some_iff.mp h
  have hkind : kind ∈ words columns := by
    rw [hwords]
    simp
  rintro rfl
  have hmem : entry.code ∈ encode kind := List.mem_of_mem_head? hcode
  rw [mem_encode_iff hlt] at hmem
  exact absurd hb (by simp [((mem_words hkind).2 _ hmem).1])

/-- There is no white space in a name. -/
theorem isBlank_of_mem_name (h : parse? line = some entry) :
    ∀ c ∈ entry.name, isBlank c = false := by
  obtain ⟨columns, address, kind, further, -, hwords, -, -⟩ := parse?_eq_some_iff.mp h
  have hname : entry.name ∈ words columns := by
    rw [hwords]
    simp
  exact fun c hc => ((mem_words hname).2 c hc).1

/-- A module's name stands on the line. -/
theorem mem_of_mem_moduleName (h : parse? line = some entry) :
    ∀ c ∈ entry.moduleName, c ∈ line := by
  obtain ⟨columns, address, kind, further, hsplit, -⟩ := parse?_eq_some_iff.mp h
  obtain ⟨-, bracketed, rfl, hmodule⟩ := split?_eq_some_iff.mp hsplit
  intro c hc
  rw [hmodule] at hc
  cases bracketed with
  | none => exact absurd hc List.not_mem_nil
  | some bracketed =>
    have hname : c ∈ bracketed.name := hc
    simp [BracketedName.ending, BracketedName.text, hname]

/-- A line without a newline makes an entry without one. -/
theorem plain_of_parse? (hline : '\n' ∉ line) (h : parse? line = some entry) : entry.Plain where
  code := code_ne_of_isBlank h newline_lt (by decide)
  name hname := absurd (isBlank_of_mem_name h _ hname) (by decide)
  moduleName hmodule := hline (mem_of_mem_moduleName h _ hmodule)

end Parsed

end TableEntry

/-- Every entry of a table stands on a line that could be read. -/
theorem Table.exists_line_of_mem_entries {table : Table} {entry : TableEntry}
    (h : entry ∈ table.entries) :
    ∃ line, .ok (encode line) ∈ table.lines ∧ TableEntry.parse? line = some entry := by
  obtain ⟨read, hread, hentry⟩ := List.mem_filterMap.mp h
  cases read with
  | error message => exact absurd hentry (by simp)
  | ok bytes =>
    rw [Table.entry?_ok] at hentry
    obtain ⟨line, hline, hparse⟩ := Option.bind_eq_some_iff.mp hentry
    exact ⟨line, decode?_eq_some_iff.mp hline ▸ hread, hparse⟩

/-- **No entry of a table holds a newline.** -/
theorem Table.plain_of_mem_entries {table : Table} {entry : TableEntry}
    (h : entry ∈ table.entries) : entry.Plain := by
  obtain ⟨line, hline, hparse⟩ := Table.exists_line_of_mem_entries h
  have hbytes := Table.newline_notMem_of_mem_linesFrom List.not_mem_nil hline
  rw [mem_encode_iff newline_lt] at hbytes
  exact TableEntry.plain_of_parse? hbytes hparse

/-! ## Symbols and their lines -/

namespace Symbol

/-- Whether a symbol holds no newline. -/
structure Plain (symbol : Symbol) : Prop where
  /-- The type letter is none. -/
  code : symbol.code ≠ newline
  /-- The name has none. -/
  name : newline ∉ symbol.name.contents
  /-- The module's name has none. -/
  moduleName : newline ∉ symbol.moduleName.contents

end Symbol

theorem TableEntry.Plain.toSymbol {entry : TableEntry} (h : entry.Plain) (cursor : Cursor) :
    (entry.toSymbol cursor).Plain where
  code := h.code
  name hname :=
    h.name ((mem_encode_iff newline_lt _).mp (Field.mem_of_mem_contents_ofBytes hname))
  moduleName hmodule :=
    h.moduleName ((mem_encode_iff newline_lt _).mp (Field.mem_of_mem_contents_ofBytes hmodule))

namespace SymbolRecord

theorem newline_notMem_deltaText (record : SymbolRecord) : newline ∉ record.deltaText := by
  rw [deltaText]
  cases record.delta with
  | unknown => exact List.not_mem_nil
  | forward distance => exact Numeral.newline_notMem_prefixedHex distance.toNat
  | backward distance =>
    simp only [AddressDelta.text, List.mem_append, not_or]
    exact ⟨by decide, Numeral.newline_notMem_prefixedHex distance.toNat⟩

/-- An entry line holds no newline unless the symbol's own texts do. -/
theorem newline_notMem_entryText {record : SymbolRecord} (hcode : record.code ≠ newline)
    (hname : newline ∉ record.name) (hmodule : newline ∉ record.moduleName) :
    newline ∉ record.entryText := by
  have hcode' : newline ∉ encode [Char.ofNat record.code.toNat] := by
    rw [mem_encode_iff newline_lt, List.mem_singleton]
    intro h
    have hnumber := congrArg Char.toNat h
    rw [toNat_ofNat_byte, toNat_ofNat_byte] at hnumber
    exact hcode (UInt8.toNat_inj.mp hnumber.symm)
  have hmodule' : newline ∉ if record.moduleName.isEmpty then noModule else record.moduleName := by
    split
    · decide
    · exact hmodule
  have hkind : newline ∉ utf8 record.kind.label := by
    cases record.kind <;> decide
  have hsize : newline ∉ record.maxSize.elim [] fun size => Numeral.prefixedHex size.toNat := by
    cases record.maxSize with
    | none => exact List.not_mem_nil
    | some size => exact Numeral.newline_notMem_prefixedHex size.toNat
  refine notMem_row (by decide) fun c hc => ?_
  simp only [List.mem_cons, List.not_mem_nil, or_false] at hc
  rcases hc with rfl | rfl | rfl | rfl | rfl | rfl
  · exact notMem_column (by decide) (by decide) (Numeral.newline_notMem_prefixedHex _)
  · exact notMem_column (by decide) (by decide) hcode'
  · exact notMem_column (by decide) (by decide) hname
  · exact notMem_column (by decide) (by decide) hmodule'
  · exact notMem_column (by decide) (by decide) hkind
  · exact hsize

end SymbolRecord

end KernelTables
