import KernelTables.Proofs.Symbol.Reader
import KernelTables.Proofs.Text.Words

/-!
# The symbol table, one symbol at a time

A report does not wait for the whole table.  It asks for the next symbol, and the table is read as
far as that takes: up to the end of the first line that holds a symbol, or to the next failed read.
What has been read of a segment behind that newline is left for the next request.

* `size_takeLine?` — every line that is taken uses up some of the table, so that a search for the
  next symbol comes to an end;
* `linesFrom_eq_takeLine?` — the lines of a table are those that can be taken from it one by one;
* `yields_symbols` — whoever asks until there is nothing more gets `Table.symbols`.
-/

namespace KernelTables

namespace Table

/-! ## Taking one line -/

/-- How much of a table there is left to read: its bytes, and its reads. -/
def size : Table → Nat
  | [] => 0
  | .data bytes :: rest => bytes.length + 1 + size rest
  | .failure _ :: rest => 1 + size rest
  | .interrupted :: rest => 1 + size rest

/-- Reads to the end of a line, on top of the bytes that have been gathered of it, and leaves the
rest of the table unread.  A failed read takes the place of the line that it falls in.  At the end
of the table what has been gathered is a line of its own, unless that is nothing. -/
def takeLine? (gathered : Bytes) : Table → Option (Except String Bytes × Table)
  | [] => if gathered.isEmpty then none else some (.ok gathered, [])
  | .interrupted :: rest => takeLine? gathered rest
  | .failure message :: rest => some (.error message, rest)
  | .data bytes :: rest =>
    match cutAt? newline bytes with
    | none => takeLine? (gathered ++ bytes) rest
    | some (line, left) => some (.ok (gathered ++ line), .data left :: rest)

/-- **Every line that is taken uses up some of the table**, or of what had been gathered of it. -/
theorem size_takeLine? {table rest : Table} {gathered : Bytes} {line : Except String Bytes}
    (h : table.takeLine? gathered = some (line, rest)) :
    rest.size < gathered.length + table.size := by
  induction table generalizing gathered with
  | nil =>
    by_cases hgathered : gathered.isEmpty = true
    · rw [takeLine?, if_pos hgathered] at h
      exact absurd h (by simp)
    · rw [takeLine?, if_neg hgathered] at h
      obtain ⟨-, rfl⟩ := Prod.mk.inj (Option.some.inj h)
      have hpos := List.length_pos_iff.mpr (mt List.isEmpty_iff.mpr hgathered)
      simpa [size] using hpos
  | cons segment later ih =>
    cases segment with
    | interrupted =>
      have hrest := ih h
      rw [size]
      omega
    | failure message =>
      obtain ⟨-, rfl⟩ := Prod.mk.inj (Option.some.inj h)
      rw [size]
      omega
    | data bytes =>
      rw [takeLine?] at h
      cases hcut : cutAt? newline bytes with
      | none =>
        rw [hcut] at h
        have hrest := ih h
        rw [List.length_append] at hrest
        rw [size]
        omega
      | some parts =>
        obtain ⟨begun, left⟩ := parts
        rw [hcut] at h
        obtain ⟨-, rfl⟩ := Prod.mk.inj (Option.some.inj h)
        have hbytes := congrArg List.length (eq_of_cutAt? hcut)
        rw [List.length_append, List.length_cons] at hbytes
        rw [size, size]
        omega

/-- **The lines of a table are those that can be taken from it**, one after another. -/
theorem linesFrom_eq_takeLine? {table : Table} {gathered : Bytes} (h : newline ∉ gathered) :
    table.linesFrom gathered =
      match table.takeLine? gathered with
      | none => []
      | some (line, rest) => line :: rest.linesFrom [] := by
  induction table generalizing gathered with
  | nil =>
    by_cases hgathered : gathered.isEmpty = true
    · rw [linesFrom, takeLine?, if_pos hgathered, if_pos hgathered]
    · rw [linesFrom, takeLine?, if_neg hgathered, if_neg hgathered]
      rfl
  | cons segment later ih =>
    cases segment with
    | interrupted => exact ih h
    | failure message => rfl
    | data bytes =>
      rw [takeLine?]
      cases hcut : cutAt? newline bytes with
      | none =>
        -- no line ends in this segment
        have hbytes : newline ∉ gathered ++ bytes := by
          rw [List.mem_append, not_or]
          exact ⟨h, cutAt?_eq_none_iff.mp hcut⟩
        have hsplit : (gathered ++ bytes).splitOn newline = [gathered ++ bytes] :=
          List.splitOn_eq_singleton hbytes
        rw [linesFrom, hsplit]
        exact ih hbytes
      | some parts =>
        -- one ends here, and what is left behind it is split as if it stood alone
        obtain ⟨begun, left⟩ := parts
        have hline : newline ∉ gathered ++ begun := by
          rw [List.mem_append, not_or]
          exact ⟨h, notMem_of_cutAt? hcut⟩
        have hsplit : (gathered ++ bytes).splitOn newline =
            (gathered ++ begun) :: left.splitOn newline := by
          rw [eq_of_cutAt? hcut, ← List.append_assoc,
            List.splitOn_append_cons_self_of_not_mem hline]
        have hne := List.splitOn_ne_nil newline left
        rw [linesFrom, hsplit, List.dropLast_cons_of_ne_nil hne, List.getLast?_cons_of_ne_nil hne]
        rfl

end Table

/-! ## Asking for symbols -/

/-- A table that is being read. -/
structure SymbolIterator where
  /-- The reads still to come. -/
  unread : Table
  /-- How many symbols have been read. -/
  position : Nat := 0
  /-- The cursor at the last symbol. -/
  cursor : Cursor := {}

namespace SymbolIterator

/-- The next symbol or failure, with the iterator behind it.  Lines that hold no symbol are passed
over. -/
def next? (iterator : SymbolIterator) : Option (Except String Symbol × SymbolIterator) :=
  match h : iterator.unread.takeLine? [] with
  | none => none
  | some (.error message, unread) => some (.error message, { iterator with unread })
  | some (.ok line, unread) =>
    match (decode? line).bind TableEntry.parse? with
    | none =>
      have : unread.size < iterator.unread.size := by simpa using Table.size_takeLine? h
      next? { iterator with unread }
    | some entry =>
      let cursor := iterator.cursor.enter iterator.position entry.sectionOf
      some (.ok (entry.toSymbol cursor), ⟨unread, iterator.position + 1, cursor⟩)
termination_by iterator.unread.size

/-- Whether an iterator gives the items one after another and then comes to its end. -/
inductive Yields : SymbolIterator → List (Except String Symbol) → Prop
  /-- There is nothing more. -/
  | done {iterator : SymbolIterator} (h : iterator.next? = none) : Yields iterator []
  /-- There is one item, and the others behind it. -/
  | item {iterator later : SymbolIterator} {item : Except String Symbol}
      {items : List (Except String Symbol)} (h : iterator.next? = some (item, later))
      (rest : Yields later items) : Yields iterator (item :: items)

variable {iterator : SymbolIterator}

/-- What an iterator gives is determined by where it stands. -/
theorem Yields.unique {items others : List (Except String Symbol)} (h : iterator.Yields items)
    (h' : iterator.Yields others) : items = others := by
  induction h generalizing others with
  | done hend =>
    cases h' with
    | done _ => rfl
    | item hnext _ =>
      rw [hend] at hnext
      exact absurd hnext (by simp)
  | item hnext _ ih =>
    cases h' with
    | done hend =>
      rw [hend] at hnext
      exact absurd hnext (by simp)
    | item hnext' hrest' =>
      rw [hnext] at hnext'
      obtain ⟨rfl, rfl⟩ := Prod.mk.inj (Option.some.inj hnext')
      rw [ih hrest']

/-- **One request**: the next line is taken, and decides what it comes to. -/
theorem next?_eq (iterator : SymbolIterator) :
    iterator.next? =
      match iterator.unread.takeLine? [] with
      | none => none
      | some (.error message, unread) => some (.error message, { iterator with unread })
      | some (.ok line, unread) =>
        match (decode? line).bind TableEntry.parse? with
        | none => next? { iterator with unread }
        | some entry =>
          let cursor := iterator.cursor.enter iterator.position entry.sectionOf
          some (.ok (entry.toSymbol cursor), ⟨unread, iterator.position + 1, cursor⟩) := by
  rw [next?]
  split <;> rename_i hline <;> simp only [hline]

/-! ### All requests -/

/-- An iterator has the same items to give as a reader that goes on from where it stands. -/
def remaining (iterator : SymbolIterator) : List (Except String Symbol) :=
  ((iterator.unread.linesFrom []).foldl TableReader.read
    ⟨iterator.position, iterator.cursor, #[]⟩).items.toList

/-- Passing over a line changes nothing of what is still to come. -/
theorem Yields.of_next?_eq {other : SymbolIterator} {items : List (Except String Symbol)}
    (h : iterator.next? = other.next?) (hother : other.Yields items) : iterator.Yields items := by
  cases hother with
  | done hend => exact .done (h.trans hend)
  | item hnext hrest => exact .item (h.trans hnext) hrest

theorem yields_remaining (iterator : SymbolIterator) : iterator.Yields iterator.remaining := by
  -- on how much of the table is left: every request, and every line passed over, uses some up
  induction hsize : iterator.unread.size using Nat.strongRecOn generalizing iterator with
  | _ size ih =>
    have hnext := iterator.next?_eq
    rw [remaining, Table.linesFrom_eq_takeLine? (List.not_mem_nil)]
    cases hline : iterator.unread.takeLine? [] with
    | none =>
      rw [hline] at hnext
      exact .done hnext
    | some taken =>
      obtain ⟨line, unread⟩ := taken
      have hless : unread.size < size := by
        rw [← hsize]
        simpa using Table.size_takeLine? hline
      rw [hline] at hnext
      cases line with
      | error message =>
        have hrest := ih unread.size hless { iterator with unread } rfl
        rw [List.foldl_cons, TableReader.foldl_read, Array.toList_append]
        exact .item hnext hrest
      | ok bytes =>
        cases hentry : (decode? bytes).bind TableEntry.parse? with
        | none =>
          simp only [hentry] at hnext
          rw [List.foldl_cons, TableReader.read_of_none hentry]
          exact (ih unread.size hless { iterator with unread } rfl).of_next?_eq hnext
        | some entry =>
          simp only [hentry] at hnext
          let cursor := iterator.cursor.enter iterator.position entry.sectionOf
          have hrest := ih unread.size hless ⟨unread, iterator.position + 1, cursor⟩ rfl
          rw [List.foldl_cons, TableReader.read_of_some hentry, TableReader.foldl_read,
            Array.toList_append]
          exact .item hnext hrest

/-- **Asking until there is nothing more gives the symbols of the table**, and the failures between
them. -/
theorem yields_symbols (table : Table) :
    ({ unread := table } : SymbolIterator).Yields table.symbols :=
  yields_remaining { unread := table }

end SymbolIterator

end KernelTables
