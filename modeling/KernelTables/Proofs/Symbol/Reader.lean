import KernelTables.Symbol.Table

/-!
# What a reader makes of a table

A reader goes through the lines of a table with a position and a cursor.  This file separates what
the lines say (`Table.entries`) from what the reader adds to it, the cursor:

* `yielded_eq` — the symbols of a table are its entries, each with the cursor that has passed the
  sections of all entries up to it (`getElem_symbolsFrom`);
* `symbols_of_readable` — where no read fails there is nothing but symbols.
-/

namespace KernelTables

/-- The cursor after the symbols of the given sections, read from `position` on. -/
def Cursor.passing (position : Nat) (cursor : Cursor) : List Section → Cursor
  | [] => cursor
  | within :: rest => passing (position + 1) (cursor.enter position within) rest

namespace TableReader

variable {line : Bytes}

/-- A line that holds no entry is passed over. -/
theorem read_of_none (h : (decode? line).bind TableEntry.parse? = none) (reader : TableReader) :
    reader.read (.ok line) = reader := by
  simp only [read, h]

/-- A line that holds one moves the reader on. -/
theorem read_of_some {entry : TableEntry} (h : (decode? line).bind TableEntry.parse? = some entry)
    (reader : TableReader) :
    reader.read (.ok line) =
      { position := reader.position + 1
        cursor := reader.cursor.enter reader.position entry.sectionOf
        items := reader.items.push
          (.ok (entry.toSymbol (reader.cursor.enter reader.position entry.sectionOf))) } := by
  simp only [read, h]

end TableReader

namespace TableEntry

/-- The symbols that entries describe, read from `position` on with the cursor at the symbol
before. -/
def symbolsFrom (position : Nat) (cursor : Cursor) : List TableEntry → List Symbol
  | [] => []
  | entry :: entries =>
    let cursor := cursor.enter position entry.sectionOf
    entry.toSymbol cursor :: symbolsFrom (position + 1) cursor entries

@[simp] theorem length_symbolsFrom (position : Nat) (cursor : Cursor)
    (entries : List TableEntry) : (symbolsFrom position cursor entries).length = entries.length := by
  induction entries generalizing position cursor with
  | nil => rfl
  | cons entry entries ih => simp [symbolsFrom, ih]

/-- What does not depend on the cursor is the same of the symbols as of the entries. -/
theorem map_symbolsFrom {β : Type} {ofSymbol : Symbol → β} {ofEntry : TableEntry → β}
    (h : ∀ entry cursor, ofSymbol (entry.toSymbol cursor) = ofEntry entry) (position : Nat)
    (cursor : Cursor) (entries : List TableEntry) :
    (symbolsFrom position cursor entries).map ofSymbol = entries.map ofEntry := by
  induction entries generalizing position cursor with
  | nil => rfl
  | cons entry entries ih => rw [symbolsFrom, List.map_cons, List.map_cons, h, ih]

/-- Every symbol is its entry, with the cursor past the sections of the entries up to it. -/
theorem getElem_symbolsFrom (position : Nat) (cursor : Cursor) (entries : List TableEntry)
    (i : Nat) (h : i < (symbolsFrom position cursor entries).length) :
    (symbolsFrom position cursor entries)[i] =
      (entries.get ⟨i, by simpa using h⟩).toSymbol
        (cursor.passing position ((entries.take (i + 1)).map sectionOf)) := by
  induction entries generalizing position cursor i with
  | nil => simp at h
  | cons entry entries ih =>
    cases i with
    | zero => rfl
    | succ i =>
      simp only [symbolsFrom, List.getElem_cons_succ, List.take_succ_cons, List.map_cons,
        Cursor.passing]
      exact ih _ _ i _

end TableEntry

namespace Table

/-- What a line says, if it could be read and is of the right form. -/
def entry? (line : Except String Bytes) : Option TableEntry :=
  line.toOption.bind fun bytes => (decode? bytes).bind TableEntry.parse?

@[simp] theorem entry?_error (message : String) : entry? (.error message) = none := rfl

@[simp] theorem entry?_ok (bytes : Bytes) :
    entry? (.ok bytes) = (decode? bytes).bind TableEntry.parse? := rfl

/-- The entries of a table in order. -/
def entries (table : Table) : List TableEntry := table.lines.filterMap entry?

/-- The symbols of a table in order, without the failures between them. -/
def yielded (table : Table) : List Symbol := table.symbols.filterMap Except.toOption

/-- Whether no read of a table fails. -/
def Readable (table : Table) : Prop := ∀ message, .failure message ∉ table

/-! ## From lines to symbols -/

/-- The symbols that a reader adds are those of the entries on the lines it reads. -/
theorem filterMap_foldl_read (reader : TableReader) (lines : List (Except String Bytes)) :
    (lines.foldl TableReader.read reader).items.toList.filterMap Except.toOption =
      reader.items.toList.filterMap Except.toOption ++
        TableEntry.symbolsFrom reader.position reader.cursor (lines.filterMap entry?) := by
  induction lines generalizing reader with
  | nil => simp [TableEntry.symbolsFrom]
  | cons line lines ih =>
    rw [List.foldl_cons, ih]
    cases line with
    | error message =>
      rw [List.filterMap_cons, entry?_error]
      simp [TableReader.read, Except.toOption]
    | ok bytes =>
      rw [List.filterMap_cons, entry?_ok]
      cases h : (decode? bytes).bind TableEntry.parse? with
      | none => rw [TableReader.read_of_none h]
      | some entry =>
        rw [TableReader.read_of_some h]
        simp [TableEntry.symbolsFrom, Except.toOption]

/-- **The symbols of a table are its entries**, read one after another from position zero. -/
theorem yielded_eq (table : Table) : table.yielded = TableEntry.symbolsFrom 0 {} table.entries := by
  rw [yielded, symbols, filterMap_foldl_read]
  rfl

@[simp] theorem length_yielded (table : Table) : table.yielded.length = table.entries.length := by
  rw [yielded_eq, TableEntry.length_symbolsFrom]

/-! ## Tables without failures -/

theorem linesFrom_of_readable {table : Table} (h : table.Readable) (begun : Bytes) :
    ∃ lines : List Bytes, table.linesFrom begun = lines.map .ok := by
  induction table generalizing begun with
  | nil =>
    rw [linesFrom]
    by_cases hbegun : begun.isEmpty = true
    · exact ⟨[], by rw [if_pos hbegun]; rfl⟩
    · exact ⟨[begun], by rw [if_neg hbegun]; rfl⟩
  | cons segment rest ih =>
    have hrest : Readable rest := fun message hm => h message (List.mem_cons_of_mem _ hm)
    cases segment with
    | data bytes =>
      obtain ⟨lines, hlines⟩ := ih hrest (((begun ++ bytes).splitOn newline).getLast?.getD [])
      refine ⟨((begun ++ bytes).splitOn newline).dropLast ++ lines, ?_⟩
      simp only [linesFrom, hlines, List.map_append]
    | failure message => exact absurd List.mem_cons_self (h message)
    | interrupted => exact ih hrest begun

/-- A reader of lines that could all be read adds nothing but symbols. -/
theorem foldl_read_ok (reader : TableReader) (lines : List Bytes) :
    ((lines.map .ok).foldl TableReader.read reader).items.toList =
      reader.items.toList ++ (TableEntry.symbolsFrom reader.position reader.cursor
        ((lines.map .ok).filterMap entry?)).map .ok := by
  induction lines generalizing reader with
  | nil => simp [TableEntry.symbolsFrom]
  | cons line lines ih =>
    rw [List.map_cons, List.foldl_cons, List.filterMap_cons, entry?_ok, ih]
    cases h : (decode? line).bind TableEntry.parse? with
    | none => rw [TableReader.read_of_none h]
    | some entry =>
      rw [TableReader.read_of_some h]
      simp [TableEntry.symbolsFrom]

/-- **Where no read fails there is nothing but symbols.** -/
theorem symbols_of_readable {table : Table} (h : table.Readable) :
    table.symbols = table.yielded.map .ok := by
  obtain ⟨lines, hlines⟩ := linesFrom_of_readable h []
  rw [yielded_eq, entries, symbols, Table.lines, hlines, foldl_read_ok]
  rfl

end Table

end KernelTables
