import KernelTables.Object
import KernelTables.Text.Blank
import KernelTables.Text.Numeral

/-!
# Reading the symbol table

The table is text, one symbol a line: an address, a type letter and a name, then, for a symbol of a
module, a tab and the module's name in brackets.  Reading takes the table as it comes, in stretches
of data with failed reads between them.

* A line that is not text or not of this form is passed over; it moves neither the position nor
  the cursor.
* A failed read loses the line it fell in.  Reading may go on behind it, and the position and the
  cursor with it.
* An interrupted read is tried again and leaves no trace.
-/

namespace KernelTables

/-! ## Lines -/

/-- One read of the table. -/
inductive Segment
  /-- Some bytes. -/
  | data (bytes : Bytes)
  /-- A failure, in the words of the system. -/
  | failure (message : String)
  /-- An interruption. -/
  | interrupted
  deriving DecidableEq, Repr

/-- A symbol table as a sequence of reads. -/
abbrev Table := List Segment

namespace Table

/-- The lines still to come when `begun` has been read of the current one, with failures where
they happened.  What stands before a newline is a line, and so is a nonempty rest at the end. -/
def linesFrom (begun : Bytes) : Table → List (Except String Bytes)
  | [] => if begun.isEmpty then [] else [.ok begun]
  | .interrupted :: rest => linesFrom begun rest
  | .failure message :: rest => .error message :: linesFrom [] rest
  | .data bytes :: rest =>
    let pieces := (begun ++ bytes).splitOn newline
    pieces.dropLast.map .ok ++ linesFrom (pieces.getLast?.getD []) rest

/-- The lines of a table, with failures where they happened. -/
def lines (table : Table) : List (Except String Bytes) := table.linesFrom []

end Table

/-! ## One line -/

/-- What a line of the table says. -/
structure TableEntry where
  /-- The address. -/
  address : UInt64
  /-- The type letter. -/
  code : UInt8
  /-- The symbol's name. -/
  name : List Char
  /-- The module's name, empty if none is given. -/
  moduleName : List Char
  deriving DecidableEq, Repr

namespace TableEntry

/-- The text between brackets, white space around them aside. -/
def bracketed? (text : List Char) : Option (List Char) :=
  match trim text with
  | '[' :: rest => if rest.getLast? = some ']' then some rest.dropLast else none
  | _ => none

/-- Cuts a line at its first tab into its columns and the module's name. -/
def split? (line : List Char) : Option (List Char × List Char) :=
  match cutAt? '\t' line with
  | none => some (line, [])
  | some (columns, tail) => (bracketed? tail).map (columns, ·)

/-- Reads a line.  The type letter is the first byte of the second column. -/
def parse? (line : List Char) : Option TableEntry := do
  let (columns, moduleName) ← split? line
  match words columns with
  | address :: kind :: name :: _ =>
    let address ← Numeral.uint64? 16 address
    let code ← (encode kind).head?
    some { address, code, name, moduleName }
  | _ => none

/-- The section the entry's module puts it in. -/
def sectionOf (entry : TableEntry) : Section := .ofModule (encode entry.moduleName)

/-- The symbol an entry describes, read at `cursor`.  The kernel writes an address that is to be
hidden as zero. -/
def toSymbol (entry : TableEntry) (cursor : Cursor) : Symbol where
  value := entry.address
  shown := entry.address != 0
  code := entry.code
  name := .ofBytes (encode entry.name)
  moduleName := .ofBytes (encode entry.moduleName)
  cursor := cursor

end TableEntry

/-! ## The whole table -/

/-- A reader on its way through a table. -/
structure TableReader where
  /-- How many symbols have been read. -/
  position : Nat := 0
  /-- The cursor at the last symbol. -/
  cursor : Cursor := {}
  /-- The symbols and failures met so far. -/
  items : Array (Except String Symbol) := #[]

namespace TableReader

/-- Takes in one line or failure. -/
def read (reader : TableReader) : Except String Bytes → TableReader
  | .error message => { reader with items := reader.items.push (.error message) }
  | .ok line =>
    match (decode? line).bind TableEntry.parse? with
    | none => reader
    | some entry =>
      let cursor := reader.cursor.enter reader.position entry.sectionOf
      { position := reader.position + 1
        cursor := cursor
        items := reader.items.push (.ok (entry.toSymbol cursor)) }

/-- What a reader adds to its items does not depend on those it has already. -/
theorem foldl_read (reader : TableReader) (lines : List (Except String Bytes)) :
    (lines.foldl read reader).items =
      reader.items ++ (lines.foldl read { reader with items := #[] }).items := by
  induction lines generalizing reader with
  | nil => simp
  | cons line lines ih =>
    rw [List.foldl_cons, List.foldl_cons, ih (read reader line),
      ih (read { reader with items := #[] } line)]
    cases line with
    | error message => simp [read]
    | ok bytes =>
      simp only [read]
      cases (decode? bytes).bind TableEntry.parse? <;> simp

end TableReader

/-- The symbols of a table in order, with failures where they happened. -/
def Table.symbols (table : Table) : List (Except String Symbol) :=
  (table.lines.foldl TableReader.read {}).items.toList

end KernelTables
