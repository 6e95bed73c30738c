import KernelTables.Proofs.Stream
import KernelTables.Proofs.Symbol.Iterator

/-!
# The symbol table as one text

A symbol table arrives in reads, and a reader takes it in as it arrives.  What it makes of the
table can be said without either of them.

Put the reads between two failures together, and leave out the interruptions: that is a stretch of
text (`Table.stretches`).  Split every stretch at its newlines.  What a newline ends is a line.  The
rest of a stretch is a line at the end of the table, unless it is empty; before a failure it is lost,
and the failure stands in its place (`Stretch.lines`).  A line that can be read is a symbol, and its
cursor has passed the sections of the symbols up to it, wherever the failures are
(`Table.symbolsOfStretches`).

* `lines_eq_flatMap` — the lines of a table are those of its stretches;
* `yields_iff_eq_symbolsOfStretches` — **streaming is splitting**: whoever asks for one symbol after
  another gets these symbols and failures and comes to an end, and how the reads cut the table makes
  no difference.
-/

namespace KernelTables

/-! ## Splitting a text at its newlines -/

/-- The lines of a text that a newline ends. -/
def endedLines (text : Bytes) : List Bytes := (text.splitOn newline).dropLast

/-- What stands behind the last newline of a text. -/
def unendedLine (text : Bytes) : Bytes := (text.splitOn newline).getLast?.getD []

theorem endedLines_of_notMem {text : Bytes} (h : newline ∉ text) : endedLines text = [] := by
  rw [endedLines, List.splitOn_eq_singleton h]
  rfl

theorem unendedLine_of_notMem {text : Bytes} (h : newline ∉ text) : unendedLine text = text := by
  rw [unendedLine, List.splitOn_eq_singleton h]
  rfl

theorem newline_notMem_unendedLine (text : Bytes) : newline ∉ unendedLine text :=
  notMem_getLast?_splitOn newline text

theorem endedLines_append (text more : Bytes) :
    endedLines (text ++ more) = endedLines text ++ endedLines (unendedLine text ++ more) := by
  have hne := List.splitOn_ne_nil newline (unendedLine text ++ more)
  rw [endedLines, splitOn_append]
  exact List.dropLast_append_of_ne_nil hne

theorem unendedLine_append (text more : Bytes) :
    unendedLine (text ++ more) = unendedLine (unendedLine text ++ more) := by
  have hne := List.splitOn_ne_nil newline (unendedLine text ++ more)
  have hlast := List.getLast?_eq_some_getLast hne
  have hsplit : unendedLine (text ++ more) =
      (endedLines text ++ (unendedLine text ++ more).splitOn newline).getLast?.getD [] :=
    congrArg (·.getLast?.getD []) (splitOn_append newline text more)
  rw [hsplit, List.getLast?_append, hlast, Option.some_or, ← hlast]
  rfl

theorem splitOn_ofLines_append {lines : List Bytes} (h : ∀ line ∈ lines, newline ∉ line)
    (rest : Bytes) : (ofLines lines ++ rest).splitOn newline = lines ++ rest.splitOn newline := by
  induction lines with
  | nil => rfl
  | cons line lines ih =>
    have hline := List.splitOn_eq_singleton (h line List.mem_cons_self)
    have hrest := ih fun l hl => h l (List.mem_cons_of_mem line hl)
    rw [ofLines_cons, List.append_assoc, List.cons_append, List.splitOn_append_cons_self, hline,
      hrest]
    rfl

/-- Lines without a newline are read back as they were written, and so is what stands behind
them. -/
theorem endedLines_ofLines_append {lines : List Bytes} (h : ∀ line ∈ lines, newline ∉ line)
    {rest : Bytes} (hrest : newline ∉ rest) :
    endedLines (ofLines lines ++ rest) = lines ∧ unendedLine (ofLines lines ++ rest) = rest := by
  rw [endedLines, unendedLine, splitOn_ofLines_append h, List.splitOn_eq_singleton hrest,
    List.dropLast_concat, List.getLast?_concat]
  exact ⟨rfl, rfl⟩

theorem ofLines_append_eq_intercalate (lines : List Bytes) (rest : Bytes) :
    ofLines lines ++ rest = [newline].intercalate (lines ++ [rest]) := by
  induction lines with
  | nil => exact (List.intercalate_singleton).symm
  | cons line lines ih =>
    have hne : lines ++ [rest] ≠ [] := List.concat_ne_nil rest lines
    rw [List.cons_append, List.intercalate_cons_of_ne_nil hne, ← ih, ofLines_cons]
    simp

/-- Every text is its lines, each with its newline, and what stands behind them. -/
theorem ofLines_endedLines_append (text : Bytes) :
    ofLines (endedLines text) ++ unendedLine text = text := by
  have hpieces : endedLines text ++ [unendedLine text] = text.splitOn newline := by
    have hne := List.splitOn_ne_nil newline text
    rw [endedLines, unendedLine, List.getLast?_eq_some_getLast hne, Option.getD_some,
      List.dropLast_append_getLast hne]
  rw [ofLines_append_eq_intercalate, hpieces, List.intercalate_splitOn]

/-! ## Stretches -/

/-- The text between two failed reads. -/
structure Stretch where
  /-- The text. -/
  text : Bytes
  /-- The failure behind it, or none at the end of the table. -/
  failure : Option String
  deriving DecidableEq, Repr

namespace Stretch

/-- A stretch with some text before it. -/
def prepend (begun : Bytes) (stretch : Stretch) : Stretch :=
  { stretch with text := begun ++ stretch.text }

/-- What takes the place of the line that no newline ends: the failure, if one follows, and the line
itself at the end of the table, unless there is nothing of it. -/
def ending (stretch : Stretch) : List (Except String Bytes) :=
  match stretch.failure, unendedLine stretch.text with
  | some message, _ => [.error message]
  | none, [] => []
  | none, line => [.ok line]

/-- The lines of a stretch, with the failure behind it. -/
def lines (stretch : Stretch) : List (Except String Bytes) :=
  (endedLines stretch.text).map .ok ++ stretch.ending

/-- Lines that end in what stands before a stretch can be taken off it. -/
theorem lines_prepend (begun : Bytes) (stretch : Stretch) :
    (stretch.prepend begun).lines =
      (endedLines begun).map .ok ++ (stretch.prepend (unendedLine begun)).lines := by
  have hending : (stretch.prepend begun).ending = (stretch.prepend (unendedLine begun)).ending := by
    have hline : unendedLine (stretch.prepend begun).text =
        unendedLine (stretch.prepend (unendedLine begun)).text :=
      unendedLine_append begun stretch.text
    rw [ending, ending, hline]
    rfl
  rw [lines, lines, hending, ← List.append_assoc, ← List.map_append]
  congr 2
  exact endedLines_append begun stretch.text

end Stretch

/-- The message of a failed read. -/
def Segment.failure? : Segment → Option String
  | .failure message => some message
  | _ => none

/-- The bytes that a read gives. -/
def Segment.data? : Segment → Option Bytes
  | .data bytes => some bytes
  | _ => none

namespace Table

/-- The failures of a table in order. -/
def failures (table : Table) : List String := table.filterMap Segment.failure?

/-- The stretches of text that a table is cut into by its failures. -/
def stretches (table : Table) : List Stretch :=
  List.zipWith (fun reads failure => ⟨(reads.filterMap Segment.data?).flatten, failure⟩)
    (table.splitOnP fun segment => segment.failure?.isSome) (table.failures.map some ++ [none])

/-- A segment that is no failure belongs to the first stretch. -/
theorem stretches_cons_of_readable {segment : Segment} (h : segment.failure? = none)
    (rest : Table) :
    stretches (segment :: rest) =
      (stretches rest).modifyHead (.prepend (segment.data?.getD [])) := by
  obtain ⟨first, others, hsplit⟩ := List.exists_cons_of_ne_nil
    (List.splitOnP_ne_nil (fun segment : Segment => segment.failure?.isSome) rest)
  obtain ⟨ending, endings, hendings⟩ : ∃ ending endings,
      (failures rest).map some ++ [none] = ending :: endings :=
    List.exists_cons_of_ne_nil (by simp)
  have hfailures : failures (segment :: rest) = failures rest := List.filterMap_cons_none h
  rw [stretches, stretches, List.splitOnP_cons_eq_if_modifyHead, if_neg (by simp [h]), hfailures,
    hsplit, hendings]
  cases hdata : segment.data? with
  | none => simp [Stretch.prepend, hdata]
  | some bytes => simp [Stretch.prepend, hdata]

@[simp] theorem stretches_nil : stretches [] = [⟨[], none⟩] := rfl

@[simp] theorem stretches_interrupted (rest : Table) :
    stretches (.interrupted :: rest) = stretches rest := by
  rw [stretches_cons_of_readable rfl]
  cases stretches rest <;> rfl

@[simp] theorem stretches_data (bytes : Bytes) (rest : Table) :
    stretches (.data bytes :: rest) = (stretches rest).modifyHead (.prepend bytes) :=
  stretches_cons_of_readable rfl rest

@[simp] theorem stretches_failure (message : String) (rest : Table) :
    stretches (.failure message :: rest) = ⟨[], some message⟩ :: stretches rest := by
  have hfailures : failures (.failure message :: rest) = message :: failures rest := rfl
  rw [stretches, List.splitOnP_cons_eq_if_modifyHead, if_pos (by rfl), hfailures]
  rfl

theorem stretches_ne_nil (table : Table) : table.stretches ≠ [] := by
  induction table with
  | nil => simp
  | cons segment rest ih =>
    cases segment with
    | interrupted => simpa using ih
    | failure message => simp
    | data bytes => simpa using ih

/-- Splitting goes on wherever in a line it is: what has been read of the line is put before the
first stretch. -/
theorem linesFrom_eq_flatMap {begun : Bytes} (h : newline ∉ begun) (table : Table) :
    table.linesFrom begun =
      (table.stretches.modifyHead (.prepend begun)).flatMap Stretch.lines := by
  induction table generalizing begun with
  | nil =>
    have hlines : (Stretch.prepend begun ⟨[], none⟩).lines =
        if begun.isEmpty then [] else [.ok begun] := by
      rw [Stretch.lines, Stretch.ending, Stretch.prepend, List.append_nil, endedLines_of_notMem h,
        unendedLine_of_notMem h]
      cases begun <;> rfl
    rw [linesFrom, stretches_nil, List.modifyHead_cons, List.flatMap_cons, hlines,
      List.flatMap_nil, List.append_nil]
  | cons segment rest ih =>
    cases segment with
    | interrupted =>
      rw [linesFrom, stretches_interrupted]
      exact ih h
    | failure message =>
      have hlines : (Stretch.prepend begun ⟨[], some message⟩).lines = [.error message] := by
        rw [Stretch.lines, Stretch.prepend, List.append_nil, endedLines_of_notMem h]
        rfl
      have hrest : (stretches rest).modifyHead (.prepend []) = stretches rest := by
        cases stretches rest <;> rfl
      rw [linesFrom, ih List.not_mem_nil, hrest, stretches_failure, List.modifyHead_cons,
        List.flatMap_cons, hlines]
      rfl
    | data bytes =>
      -- the lines that end in this segment, and then the stretch without them
      have hrest := ih (newline_notMem_unendedLine (begun ++ bytes))
      have hstretches : (stretches (.data bytes :: rest)).modifyHead (.prepend begun) =
          (stretches rest).modifyHead (.prepend (begun ++ bytes)) := by
        rw [stretches_data, List.modifyHead_modifyHead]
        congr 1
        funext stretch
        simp [Stretch.prepend]
      have htaken : ((stretches rest).modifyHead (.prepend (begun ++ bytes))).flatMap
          Stretch.lines = (endedLines (begun ++ bytes)).map .ok ++
            ((stretches rest).modifyHead (.prepend (unendedLine (begun ++ bytes)))).flatMap
              Stretch.lines := by
        obtain ⟨first, others, hfirst⟩ := List.exists_cons_of_ne_nil (stretches_ne_nil rest)
        rw [hfirst, List.modifyHead_cons, List.modifyHead_cons, List.flatMap_cons,
          List.flatMap_cons, Stretch.lines_prepend, List.append_assoc]
      rw [hstretches, htaken, ← hrest]
      rfl

/-- **The lines of a table are those of its stretches.** -/
theorem lines_eq_flatMap (table : Table) : table.lines = table.stretches.flatMap Stretch.lines := by
  have hprepend : table.stretches.modifyHead (.prepend []) = table.stretches := by
    cases table.stretches <;> rfl
  rw [lines, linesFrom_eq_flatMap List.not_mem_nil, hprepend]

/-! ## Symbols -/

/-- What a line comes to.  A line that is not text, or not of the right form, comes to nothing. -/
def parsed? : Except String Bytes → Option (Except String TableEntry)
  | .error message => some (.error message)
  | .ok line => ((decode? line).bind TableEntry.parse?).map .ok

/-- The sections of the entries among entries and failures. -/
def sectionsOf (items : List (Except String TableEntry)) : List Section :=
  (items.filterMap Except.toOption).map TableEntry.sectionOf

/-- Entries and failures with a cursor for every entry: the one that has passed, from `position` on,
the sections of the entries up to it. -/
def located (position : Nat) (cursor : Cursor) (items : List (Except String TableEntry)) :
    List (Except String Symbol) :=
  items.mapIdx fun i item => item.map fun entry =>
    entry.toSymbol (cursor.passing position (sectionsOf (items.take (i + 1))))

@[simp] theorem located_nil (position : Nat) (cursor : Cursor) : located position cursor [] = [] :=
  rfl

/-- A failure moves neither the position nor the cursor. -/
@[simp] theorem located_error (position : Nat) (cursor : Cursor) (message : String)
    (items : List (Except String TableEntry)) :
    located position cursor (.error message :: items) =
      .error message :: located position cursor items :=
  List.mapIdx_cons

/-- A symbol moves both. -/
@[simp] theorem located_ok (position : Nat) (cursor : Cursor) (entry : TableEntry)
    (items : List (Except String TableEntry)) :
    located position cursor (.ok entry :: items) =
      .ok (entry.toSymbol (cursor.enter position entry.sectionOf)) ::
        located (position + 1) (cursor.enter position entry.sectionOf) items :=
  List.mapIdx_cons

/-- What a reader adds to its items is what the lines come to, located from where it stands. -/
theorem foldl_read_eq_located (reader : TableReader) (lines : List (Except String Bytes)) :
    (lines.foldl TableReader.read reader).items.toList =
      reader.items.toList ++ located reader.position reader.cursor (lines.filterMap parsed?) := by
  induction lines generalizing reader with
  | nil => simp
  | cons line lines ih =>
    rw [List.foldl_cons, ih]
    cases line with
    | error message =>
      have hparsed : parsed? (.error message) = some (.error message) := rfl
      rw [List.filterMap_cons_some hparsed, located_error]
      simp [TableReader.read]
    | ok bytes =>
      cases hentry : (decode? bytes).bind TableEntry.parse? with
      | none =>
        have hparsed : parsed? (.ok bytes) = none := by rw [parsed?, hentry]; rfl
        rw [List.filterMap_cons_none hparsed, TableReader.read_of_none hentry]
      | some entry =>
        have hparsed : parsed? (.ok bytes) = some (.ok entry) := by rw [parsed?, hentry]; rfl
        rw [List.filterMap_cons_some hparsed, located_ok, TableReader.read_of_some hentry]
        simp

/-- The symbols and failures that the stretches of a table come to. -/
def symbolsOfStretches (table : Table) : List (Except String Symbol) :=
  located 0 {} ((table.stretches.flatMap Stretch.lines).filterMap parsed?)

/-- **The symbols of a table are those of its stretches**, each with the cursor of its place among
them. -/
theorem symbols_eq_symbolsOfStretches (table : Table) :
    table.symbols = table.symbolsOfStretches := by
  rw [symbols, foldl_read_eq_located, lines_eq_flatMap]
  rfl

end Table

/-- **Streaming is splitting.**  Ask for one symbol after another: there is exactly one sequence of
symbols and failures that can come of it before the end, and it is that of the stretches of the
table, which is also what a report goes through.  Tables of the same stretches, however their reads
cut them and however often these are interrupted, give the same. -/
theorem SymbolIterator.yields_iff_eq_symbolsOfStretches (table : Table) :
    (∀ items, ({ unread := table } : SymbolIterator).Yields items ↔
      items = table.symbolsOfStretches) ∧
    table.symbols = table.symbolsOfStretches ∧
    ∀ other : Table, other.stretches = table.stretches →
      ({ unread := other } : SymbolIterator).Yields table.symbolsOfStretches := by
  have hyields (table : Table) :
      ({ unread := table } : SymbolIterator).Yields table.symbolsOfStretches := by
    rw [← table.symbols_eq_symbolsOfStretches]
    exact yields_symbols table
  refine ⟨fun items => ⟨fun h => h.unique (hyields table), ?_⟩,
    table.symbols_eq_symbolsOfStretches, fun other hstretches => ?_⟩
  · rintro rfl
    exact hyields table
  · have hsymbols : other.symbolsOfStretches = table.symbolsOfStretches := by
      rw [Table.symbolsOfStretches, hstretches]
      rfl
    exact hsymbols ▸ hyields other

namespace Table

/-- A table of three symbols and a failure, with its lines read whole. -/
def readWhole : Table :=
  [.data (utf8 "10 t a\n20 t b\nnothing\n30 t"), .failure "lost", .data (utf8 " c\n40 t d")]

/-- The same table, with other cuts and an interruption. -/
def readInParts : Table :=
  [.data (utf8 "10 t a\n2"), .interrupted, .data (utf8 "0 t b\nnoth"), .data (utf8 "ing\n30 t"),
    .failure "lost", .interrupted, .data (utf8 " c\n40"), .data (utf8 " t d")]

end Table

/-- Both come to the same three symbols, and to the failure before the last. -/
theorem SymbolIterator.yields_readInParts :
    Table.readInParts.stretches = Table.readWhole.stretches ∧
      Table.readWhole.symbolsOfStretches.map (fun item => item.toOption.map (·.value)) =
        [some 0x10, some 0x20, none, some 0x40] ∧
      ({ unread := Table.readInParts } : SymbolIterator).Yields
        Table.readWhole.symbolsOfStretches := by
  have hstretches : Table.readInParts.stretches = Table.readWhole.stretches := by decide
  obtain ⟨-, -, hother⟩ := yields_iff_eq_symbolsOfStretches Table.readWhole
  exact ⟨hstretches, by decide, hother Table.readInParts hstretches⟩

end KernelTables
