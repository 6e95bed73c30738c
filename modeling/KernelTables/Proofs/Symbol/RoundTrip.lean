import KernelTables.Proofs.Symbol.Grammar
import KernelTables.Proofs.Symbol.Splitting

/-!
# Reading undoes the kernel's rendering

The kernel writes a symbol as its address in sixteen hexadecimal digits, its type letter and its
name, and behind a tab the module in brackets if there is one.  A reader cuts the line at its first
tab, trims what is behind it, takes a bracket off either end and splits the rest at white space.
This file shows that it gets back what was written, whatever a name or a module is made of.

* `ListedSymbol`, `Listing` — what the kernel writes: symbols with the conditions that their texts
  meet, and lines with either ending, the last of which may have none;
* `ListedSymbol.tableLine` — the parts of such a line; a module may have brackets, spaces and tabs in
  it, since the first tab of a line and its outermost brackets are never the module's own;
* `parse?_line` — **one line**, also with a carriage return behind it;
* `asRead_injective` — two symbols are not read alike unless they are the same;
* `yields_listing` — **the whole table**, however it arrives.
-/

namespace KernelTables

/-! ## Padded numerals -/

namespace Numeral

/-- A zero in front of a numeral does not change its value. -/
theorem natural?_zero_cons {base : Nat} (h : 0 < base) {digits : List Char} (hne : digits ≠ []) :
    natural? base ('0' :: digits) = natural? base digits := by
  have hvalue : digitValue '0' = some 0 := by decide
  have hzero : digitOf base '0' = some 0 := by
    rw [digitOf, hvalue, Option.filter_some, if_pos (by simpa using h)]
  rw [natural?, natural?, if_neg (by simp), if_neg (by simpa using hne), List.foldlM_cons, hzero,
    Option.map_some, Nat.zero_mul]
  rfl

theorem natural?_leftpad {base : Nat} (h : 0 < base) (width : Nat) {digits : List Char}
    (hne : digits ≠ []) : natural? base (digits.leftpad width '0') = natural? base digits := by
  rw [List.leftpad]
  induction width - digits.length with
  | zero => rfl
  | succ k ih => rw [List.replicate_succ, List.cons_append, natural?_zero_cons h (by simp [hne]), ih]

/-- Leading zeros do not change what a numeral stands for. -/
theorem isNumeral_leftpad (width n : Nat) :
    IsNumeral 16 ((Nat.toDigits 16 n).leftpad width '0') n := by
  rw [← natural?_eq_some_iff (by omega), natural?_leftpad (by omega) width Nat.toDigits_ne_nil,
    natural?_toDigits (by omega) (by omega)]

end Numeral

/-! ## What the kernel writes -/

/-- Whether a text can be the name of a module. -/
structure IsModuleText (text : List Char) : Prop where
  /-- It is not empty. -/
  ne_nil : text ≠ []
  /-- It has no newline in it. -/
  newline_notMem : '\n' ∉ text
  /-- It has no NUL in it. -/
  nul_notMem : '\x00' ∉ text
  /-- It fits the kernel's buffer. -/
  fits : (encode text).length ≤ 55

/-- A symbol as the kernel lists it. -/
structure ListedSymbol where
  /-- Its address. -/
  address : UInt64
  /-- Its type letter. -/
  code : Char
  /-- Its name. -/
  name : List Char
  /-- The module it belongs to, if it is not one of the core kernel. -/
  moduleName : Option (List Char)
  /-- The type letter is an ASCII character. -/
  ascii_code : code.toNat < 0x80
  /-- It is no white space. -/
  notBlank_code : isBlank code = false
  /-- The name is not empty. -/
  name_ne_nil : name ≠ []
  /-- There is no white space in it. -/
  notBlank_name : ∀ c ∈ name, isBlank c = false
  /-- There is no NUL in it. -/
  nul_notMem_name : '\x00' ∉ name
  /-- It fits the kernel's buffer. -/
  name_fits : (encode name).length ≤ 511
  /-- The module has a name that can be one. -/
  isModuleText : ∀ text ∈ moduleName, IsModuleText text

namespace ListedSymbol

/-- The address in sixteen digits at least. -/
def digits (symbol : ListedSymbol) : List Char :=
  (Nat.toDigits 16 symbol.address.toNat).leftpad 16 '0'

/-- The columns that every line has. -/
def columns (symbol : ListedSymbol) : List Char :=
  symbol.digits ++ ' ' :: symbol.code :: ' ' :: symbol.name

/-- The line of a symbol. -/
def line (symbol : ListedSymbol) : List Char :=
  match symbol.moduleName with
  | none => symbol.columns
  | some text => symbol.columns ++ '\t' :: '[' :: (text ++ [']'])

/-- The entry that its line is to be read as. -/
def entry (symbol : ListedSymbol) : TableEntry where
  address := symbol.address
  code := UInt8.ofNat symbol.code.toNat
  name := symbol.name
  moduleName := symbol.moduleName.getD []

end ListedSymbol

/-- How a line ends. -/
inductive LineEnding
  /-- With a newline. -/
  | newline
  /-- With a carriage return and a newline. -/
  | carriageReturn
  deriving DecidableEq, Repr

/-- What stands between a line and its newline. -/
def LineEnding.carriage : LineEnding → List Char
  | .newline => []
  | .carriageReturn => ['\r']

/-- A list of symbols as the kernel writes it. -/
structure Listing where
  /-- The symbols whose lines are ended, with their endings. -/
  ended : List (ListedSymbol × LineEnding)
  /-- A last symbol whose line is not. -/
  unended : Option ListedSymbol := none

namespace Listing

/-- All symbols of a list. -/
def symbols (listing : Listing) : List ListedSymbol :=
  listing.ended.map (·.1) ++ listing.unended.toList

/-- The text of a list. -/
def text (listing : Listing) : List Char :=
  listing.ended.flatMap (fun entry => entry.1.line ++ entry.2.carriage ++ ['\n']) ++
    listing.unended.elim [] ListedSymbol.line

end Listing

/-! ## One line -/

namespace ListedSymbol

theorem isNumeral_digits (symbol : ListedSymbol) :
    Numeral.IsNumeral 16 symbol.digits symbol.address.toNat :=
  Numeral.isNumeral_leftpad 16 symbol.address.toNat

theorem isWord_digits (symbol : ListedSymbol) : IsWord symbol.digits :=
  ⟨symbol.isNumeral_digits.1, symbol.isNumeral_digits.notBlank (by omega)⟩

/-- White space other than the two spaces does not occur in the columns. -/
theorem notMem_columns (symbol : ListedSymbol) {c : Char} (hblank : isBlank c = true)
    (hspace : c ≠ ' ') : c ∉ symbol.columns := by
  have hnot {text : List Char} (h : ∀ d ∈ text, isBlank d = false) : c ∉ text := by
    intro hc
    exact absurd hblank (by simp [h c hc])
  have hcode : c ≠ symbol.code := by
    rintro rfl
    exact absurd hblank (by simp [symbol.notBlank_code])
  simp only [columns, List.mem_append, List.mem_cons, not_or]
  exact ⟨hnot symbol.isWord_digits.notBlank, hspace, hcode, hspace, hnot symbol.notBlank_name⟩

theorem encode_code (symbol : ListedSymbol) :
    encode [symbol.code] = [UInt8.ofNat symbol.code.toNat] :=
  encode_singleton_of_ascii symbol.ascii_code

/-- The line of a symbol taken apart, with white space behind it.  That is white space behind the
name, or behind the brackets if the symbol has a module. -/
def tableLine (symbol : ListedSymbol) {behind : List Char} (h : IsGap behind) : TableLine where
  indent := []
  plus := false
  digits := symbol.digits
  firstGap := [' ']
  kind := [symbol.code]
  secondGap := [' ']
  name := symbol.name
  behind := if symbol.moduleName.isSome then [] else behind
  bracketed := symbol.moduleName.map fun text =>
    ⟨[], text, behind, List.forall_mem_nil _, fun c hc => (h c hc).1⟩
  isGap_indent := List.forall_mem_nil _
  isWord_digits := symbol.isWord_digits
  isGap_firstGap := List.forall_mem_singleton.mpr (by decide)
  firstGap_ne_nil := List.cons_ne_nil _ _
  isWord_kind := ⟨List.cons_ne_nil _ _, List.forall_mem_singleton.mpr symbol.notBlank_code⟩
  isGap_secondGap := List.forall_mem_singleton.mpr (by decide)
  secondGap_ne_nil := List.cons_ne_nil _ _
  isWord_name := ⟨symbol.name_ne_nil, symbol.notBlank_name⟩
  blank_behind := by
    intro c hc
    split at hc
    next => exact absurd hc (by simp)
    next => exact (h c (List.mem_of_mem_head? hc)).1
  tab_notMem_behind := by
    split
    next => exact List.not_mem_nil
    next => exact fun htab => (h _ htab).2 rfl

theorem text_tableLine (symbol : ListedSymbol) {behind : List Char} (h : IsGap behind) :
    (symbol.tableLine h).text = symbol.line ++ behind := by
  cases hmodule : symbol.moduleName with
  | none =>
    simp [TableLine.text, TableLine.columns, TableLine.address, tableLine, line, columns, hmodule,
      Numeral.withPlus, BracketedName.ending]
  | some text =>
    simp [TableLine.text, TableLine.columns, TableLine.address, tableLine, line, columns, hmodule,
      Numeral.withPlus, BracketedName.ending, BracketedName.text]

theorem says_tableLine (symbol : ListedSymbol) {behind : List Char} (h : IsGap behind) :
    (symbol.tableLine h).Says symbol.entry where
  address := symbol.isNumeral_digits
  code := by
    rw [tableLine, symbol.encode_code]
    rfl
  name := rfl
  moduleName := by
    cases hmodule : symbol.moduleName <;>
      simp [entry, tableLine, BracketedName.moduleName, hmodule]

/-- **A line is read as the symbol that it was written for**, also with white space behind it that a
carriage return has left. -/
theorem parse?_line (symbol : ListedSymbol) {behind : List Char} (h : IsGap behind) :
    TableEntry.parse? (symbol.line ++ behind) = some symbol.entry := by
  rw [← symbol.text_tableLine h]
  exact (symbol.says_tableLine h).parse?

/-- No line has a newline in it. -/
theorem newline_notMem_line (symbol : ListedSymbol) : '\n' ∉ symbol.line := by
  have hcolumns : '\n' ∉ symbol.columns := symbol.notMem_columns (by decide) (by decide)
  rw [line]
  cases hmodule : symbol.moduleName with
  | none => exact hcolumns
  | some text =>
    have htext := (symbol.isModuleText text hmodule).newline_notMem
    simpa using ⟨hcolumns, htext⟩

end ListedSymbol

/-- What stands before the newline of a line is white space, and no tab. -/
theorem LineEnding.blank_carriage (ending : LineEnding) :
    ∀ c ∈ ending.carriage, isBlank c = true ∧ c ≠ '\t' := by
  cases ending with
  | newline => exact List.forall_mem_nil _
  | carriageReturn => exact List.forall_mem_singleton.mpr (by decide)

/-! ## What is read of a symbol -/

/-- The columns of a symbol that its line says something about. -/
structure SymbolColumns where
  /-- The address. -/
  value : UInt64
  /-- Whether the address may be shown. -/
  shown : Bool
  /-- The type letter. -/
  code : UInt8
  /-- The name. -/
  name : Bytes
  /-- The module's name, empty if there is none. -/
  moduleName : Bytes
  deriving DecidableEq, Repr

/-- The columns of a symbol that has been read. -/
def Symbol.columns (symbol : Symbol) : SymbolColumns where
  value := symbol.value
  shown := symbol.shown
  code := symbol.code
  name := symbol.name.contents
  moduleName := symbol.moduleName.contents

/-- A text without a NUL that is not longer than a field holds is held by it as it is. -/
theorem Field.contents_ofBytes_encode {capacity : Nat} {text : List Char} (hnul : '\x00' ∉ text)
    (hfits : (encode text).length ≤ capacity - 1) :
    (Field.ofBytes (encode text) : Field capacity).contents = encode text := by
  have hbytes : ∀ b ∈ encode text, (b != 0) = true := by
    intro b hb
    rw [bne_iff_ne]
    rintro rfl
    exact hnul ((mem_encode_iff (by decide) text).mp hb)
  have hkept : (encode text ++ []).takeWhile (· != 0) = encode text ++ [].takeWhile (· != 0) :=
    List.takeWhile_append_of_pos hbytes
  rw [List.takeWhile_nil, List.append_nil] at hkept
  rw [Field.contents_ofBytes, List.take_of_length_le hfits, hkept]

namespace ListedSymbol

/-- The columns that a listed symbol is to be read with. -/
def asRead (symbol : ListedSymbol) : SymbolColumns where
  value := symbol.address
  shown := symbol.address != 0
  code := UInt8.ofNat symbol.code.toNat
  name := encode symbol.name
  moduleName := encode (symbol.moduleName.getD [])

/-- Name and module are kept whole. -/
theorem columns_toSymbol (symbol : ListedSymbol) (cursor : Cursor) :
    (symbol.entry.toSymbol cursor).columns = symbol.asRead := by
  have hname : (Field.ofBytes (encode symbol.name) : SymbolName).contents = encode symbol.name :=
    Field.contents_ofBytes_encode symbol.nul_notMem_name symbol.name_fits
  have hmodule : (Field.ofBytes (encode (symbol.moduleName.getD [])) : ModuleName).contents =
      encode (symbol.moduleName.getD []) := by
    cases hsome : symbol.moduleName with
    | none => exact Field.contents_ofBytes_encode List.not_mem_nil (Nat.zero_le _)
    | some text =>
      have htext := symbol.isModuleText text hsome
      exact Field.contents_ofBytes_encode htext.nul_notMem htext.fits
  simp only [Symbol.columns, TableEntry.toSymbol, entry, hname, hmodule, asRead]

/-- Two symbols that are read alike are the same. -/
theorem asRead_injective : Function.Injective asRead := by
  intro first second h
  have hcode : first.code = second.code := by
    have hsame : encode [first.code] = encode [second.code] := by
      rw [first.encode_code, second.encode_code]
      exact congrArg (fun columns => [columns.code]) h
    exact List.singleton_inj.mp (encode_injective hsame)
  have hname : first.name = second.name := encode_injective (congrArg SymbolColumns.name h)
  have hmodule : first.moduleName = second.moduleName := by
    have hsame : first.moduleName.getD [] = second.moduleName.getD [] :=
      encode_injective (congrArg SymbolColumns.moduleName h)
    have hfirst := first.isModuleText
    have hsecond := second.isModuleText
    generalize first.moduleName = m at hsame hfirst
    generalize second.moduleName = m' at hsame hsecond
    -- no module has an empty name
    cases m with
    | none =>
      cases m' with
      | none => rfl
      | some text => exact absurd hsame.symm (hsecond text rfl).ne_nil
    | some text =>
      cases m' with
      | none => exact absurd hsame (hfirst text rfl).ne_nil
      | some text' => exact congrArg some hsame
  have haddress : first.address = second.address := congrArg SymbolColumns.value h
  cases first
  cases second
  simp_all

end ListedSymbol

/-! ## The whole table -/

namespace Table

/-- A table that can be read is one stretch of text. -/
theorem stretches_of_readable {table : Table} (h : table.Readable) :
    table.stretches = [⟨(table.filterMap Segment.data?).flatten, none⟩] := by
  have hnone : ∀ segment ∈ table, segment.failure? = none := by
    rintro (bytes | message | _) hsegment
    · rfl
    · exact absurd hsegment (h message)
    · rfl
  have hfailures : table.failures = [] := by
    rw [failures, List.filterMap_eq_nil_iff]
    exact hnone
  have hsplit : table.splitOnP (fun segment => segment.failure?.isSome) = [table] :=
    List.splitOnP_eq_singleton fun segment hsegment => by rw [hnone segment hsegment]; rfl
  rw [stretches, hfailures, hsplit]
  rfl

end Table

namespace Listing

/-- The text of a list, line by line. -/
theorem encode_text (listing : Listing) :
    encode listing.text =
      ofLines (listing.ended.map fun entry => encode (entry.1.line ++ entry.2.carriage)) ++
        encode (listing.unended.elim [] ListedSymbol.line) := by
  have hnewline : encode ['\n'] = [newline] := by decide
  rw [text, encode_append]
  congr 1
  induction listing.ended with
  | nil => rfl
  | cons entry entries ih =>
    rw [List.flatMap_cons, encode_append, ih, List.map_cons, ofLines_cons, encode_append, hnewline]
    simp

theorem newline_notMem_encode {text : List Char} (h : '\n' ∉ text) : newline ∉ encode text :=
  mt (mem_encode_iff newline_lt text).mp h

/-- **The entries of a table with the text of a list** are those of the symbols of the list. -/
theorem entries_eq (listing : Listing) {table : Table} (hreadable : table.Readable)
    (htext : (table.filterMap Segment.data?).flatten = encode listing.text) :
    table.entries = listing.symbols.map ListedSymbol.entry := by
  have hended : ∀ line ∈ listing.ended.map fun entry => encode (entry.1.line ++ entry.2.carriage),
      newline ∉ line := by
    rw [List.forall_mem_map]
    rintro ⟨symbol, ending⟩ -
    have hcarriage : '\n' ∉ ending.carriage := by cases ending <;> decide
    refine newline_notMem_encode ?_
    rw [List.mem_append, not_or]
    exact ⟨symbol.newline_notMem_line, hcarriage⟩
  have hrest : newline ∉ encode (listing.unended.elim [] ListedSymbol.line) := by
    cases listing.unended with
    | none => exact List.not_mem_nil
    | some symbol => exact newline_notMem_encode symbol.newline_notMem_line
  obtain ⟨hlines, hlast⟩ := endedLines_ofLines_append hended hrest
  have hread (symbol : ListedSymbol) {behind : List Char}
      (h : ∀ c ∈ behind, isBlank c = true ∧ c ≠ '\t') :
      Table.entry? (.ok (encode (symbol.line ++ behind))) = some symbol.entry := by
    rw [Table.entry?_ok, decode?_encode, Option.bind_some, symbol.parse?_line h]
  rw [Table.entries, Table.lines_eq_flatMap, Table.stretches_of_readable hreadable, htext,
    encode_text, List.flatMap_singleton, Stretch.lines, Stretch.ending, hlines, hlast, symbols,
    List.filterMap_append, List.map_append]
  congr 1
  · rw [List.map_map, List.filterMap_map, List.map_map, ← List.filterMap_eq_map]
    refine List.filterMap_congr ?_
    rintro ⟨symbol, ending⟩ -
    exact hread symbol ending.blank_carriage
  · cases listing.unended with
    | none => rfl
    | some symbol =>
      have hline : Table.entry? (.ok (encode (symbol.line ++ []))) = some symbol.entry :=
        hread symbol (by simp)
      rw [List.append_nil] at hline
      have hne : encode symbol.line ≠ [] := by
        intro hnil
        rw [hnil] at hline
        exact absurd hline (by simp [TableEntry.parse?, TableEntry.split?, cutAt?, words])
      obtain ⟨b, bytes, hbytes⟩ := List.exists_cons_of_ne_nil hne
      simp only [Option.elim_some, hbytes, Option.toList_some, List.map_cons, List.map_nil] at hline ⊢
      rw [List.filterMap_cons_some hline]
      rfl

end Listing

/-- **Reading undoes the kernel's rendering.**  Take any list of symbols as the kernel writes it, and
let its text arrive in any reads, interrupted or not.  Whoever asks for one symbol after another gets
one for each symbol of the list, in order, with its address, whether this may be shown, its type
letter, its name and its module, and then comes to the end.  No other list is read so. -/
theorem SymbolIterator.yields_listing (listing : Listing) {table : Table}
    (hreadable : table.Readable)
    (htext : (table.filterMap Segment.data?).flatten = encode listing.text) :
    ∃ symbols : List Symbol,
      (∀ items, ({ unread := table } : SymbolIterator).Yields items ↔ items = symbols.map .ok) ∧
      table.symbols = symbols.map .ok ∧
      symbols.map Symbol.columns = listing.symbols.map ListedSymbol.asRead ∧
      ∀ other : List ListedSymbol,
        symbols.map Symbol.columns = other.map ListedSymbol.asRead → other = listing.symbols := by
  have hsymbols : table.symbols = table.yielded.map .ok := Table.symbols_of_readable hreadable
  have hyields := yields_symbols table
  have hcolumns : table.yielded.map Symbol.columns = listing.symbols.map ListedSymbol.asRead := by
    have hcursor (entry : TableEntry) (cursor : Cursor) :
        (entry.toSymbol cursor).columns = (entry.toSymbol {}).columns := rfl
    rw [Table.yielded_eq, listing.entries_eq hreadable htext, TableEntry.map_symbolsFrom hcursor,
      List.map_map]
    exact List.map_congr_left fun symbol _ => symbol.columns_toSymbol {}
  refine ⟨table.yielded, fun items => ⟨fun h => ?_, ?_⟩, hsymbols, hcolumns, fun other h => ?_⟩
  · rw [← hsymbols]
    exact h.unique hyields
  · rintro rfl
    rw [← hsymbols]
    exact hyields
  · rw [hcolumns] at h
    exact (List.map_injective_iff.mpr ListedSymbol.asRead_injective h).symm

namespace Listing

/-- No letter of a text is white space if a search through the text finds none. -/
theorem notBlank_of_all {cs : List Char} (h : cs.all (!isBlank ·) = true) :
    ∀ c ∈ cs, isBlank c = false := by
  simpa using h

/-- A symbol of the core kernel with a hidden address. -/
def hidden : ListedSymbol where
  address := 0
  code := 'T'
  name := "_text".toList
  moduleName := none
  ascii_code := by decide
  notBlank_code := by decide
  name_ne_nil := by decide
  notBlank_name := notBlank_of_all (by decide)
  nul_notMem_name := by decide
  name_fits := by decide
  isModuleText := by simp

/-- A symbol at the last address, of a module with everything in its name that could mislead a
reader. -/
def bracketed : ListedSymbol where
  address := 0xffffffffffffffff
  code := '?'
  name := "[é]".toList
  moduleName := some "] [\t\r".toList
  ascii_code := by decide
  notBlank_code := by decide
  name_ne_nil := by decide
  notBlank_name := notBlank_of_all (by decide)
  nul_notMem_name := by decide
  name_fits := by decide
  isModuleText := by
    rintro text ⟨⟩
    exact ⟨by decide, by decide, by decide, by decide⟩

/-- Three lines, one with each ending. -/
def mixed : Listing where
  ended := [(hidden, .carriageReturn), (bracketed, .newline)]
  unended := some bracketed

/-- The text of that list, in two reads with an interruption between them. -/
def mixedTable : Table :=
  [.data (utf8 "0000000000000000 T _text\r\nffffffffffff"), .interrupted,
    .data (utf8 "ffff ? [é]\t[] [\t\r]\nffffffffffffffff ? [é]\t[] [\t\r]")]

end Listing

/-- All three symbols are read as they were written. -/
theorem SymbolIterator.yields_listing_mixed :
    ∃ symbols : List Symbol,
      ({ unread := Listing.mixedTable } : SymbolIterator).Yields (symbols.map .ok) ∧
      symbols.map Symbol.columns =
        [⟨0, false, 0x54, utf8 "_text", []⟩,
          ⟨0xffffffffffffffff, true, 0x3F, utf8 "[é]", utf8 "] [\t\r"⟩,
          ⟨0xffffffffffffffff, true, 0x3F, utf8 "[é]", utf8 "] [\t\r"⟩] := by
  have hreadable : Listing.mixedTable.Readable := by
    intro message h
    simp [Listing.mixedTable] at h
  have htext : (Listing.mixedTable.filterMap Segment.data?).flatten =
      encode Listing.mixed.text := by decide +kernel
  obtain ⟨symbols, hyields, -, hcolumns, -⟩ := yields_listing Listing.mixed hreadable htext
  exact ⟨symbols, (hyields _).mpr rfl, hcolumns.trans (by decide +kernel)⟩

end KernelTables
