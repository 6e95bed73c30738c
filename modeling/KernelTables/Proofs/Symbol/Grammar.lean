import KernelTables.Proofs.Text.Numeral
import KernelTables.Proofs.Text.Words
import KernelTables.Symbol.Table

/-!
# The lines of the symbol table

A line of the table is an address, a type letter and a name, and behind a tab the module in brackets
if there is one.  This file says exactly which lines are read, and as what.

* `bracketed?_eq_some_iff`, `split?_eq_some_iff`, `parse?_eq_some_iff` — **one lemma for each step of
  reading**, which says what it accepts and what it makes of it;
* `TableLine` — a line taken apart, with the conditions that make its columns unambiguous
  (`TableLine.agrees`);
* `read_iff_exists_parts` — **the lines that are read**, and which of them are as documented: a plus
  sign, a type of more than one character or further columns are not, and get through all the same.
-/

namespace KernelTables

/-! ## The steps of reading -/

/-- A module's name in brackets, with white space around them. -/
structure BracketedName where
  /-- What stands in front of the brackets. -/
  before : List Char
  /-- What stands in them, whatever it is. -/
  name : List Char
  /-- What stands behind them. -/
  after : List Char
  /-- There is only white space in front of them. -/
  blank_before : ∀ c ∈ before, isBlank c = true
  /-- There is only white space behind them. -/
  blank_after : ∀ c ∈ after, isBlank c = true

namespace BracketedName

/-- The whole of it. -/
def text (bracketed : BracketedName) : List Char :=
  bracketed.before ++ '[' :: (bracketed.name ++ ']' :: bracketed.after)

/-- The tab and what follows it, for a line that has a tab. -/
def ending : Option BracketedName → List Char
  | none => []
  | some bracketed => '\t' :: bracketed.text

/-- The name of the module, empty if there is none. -/
def moduleName (bracketed : Option BracketedName) : List Char := bracketed.elim [] name

end BracketedName

namespace TableEntry

/-- White space is taken off around the brackets, and only the outermost brackets are. -/
theorem bracketed?_eq_some_iff {text inner : List Char} :
    bracketed? text = some inner ↔
      ∃ bracketed : BracketedName, text = bracketed.text ∧ inner = bracketed.name := by
  constructor
  · intro h
    obtain ⟨before, after, htext, hbefore, hafter⟩ := exists_around_trimBoth isBlank text
    rw [bracketed?, trim] at h
    split at h
    next rest htrim =>
      split at h
      next hlast =>
        obtain rfl := Option.some.inj h
        obtain ⟨inner, rfl⟩ := List.getLast?_eq_some_iff.mp hlast
        refine ⟨⟨before, inner, after, hbefore, hafter⟩, ?_, List.dropLast_concat⟩
        rw [htext, htrim, BracketedName.text]
        simp
      next => exact absurd h (by simp)
    next => exact absurd h (by simp)
  · rintro ⟨⟨before, inner, after, hbefore, hafter⟩, rfl, rfl⟩
    have htrim : trim (before ++ '[' :: (inner ++ ']' :: after)) = '[' :: (inner ++ [']']) :=
      trimBoth_around (by decide) (by decide) inner hbefore hafter
    rw [bracketed?, BracketedName.text, htrim]
    simp

/-- A line is cut at its first tab, or has no tab and no module. -/
theorem split?_eq_some_iff {line columns moduleName : List Char} :
    split? line = some (columns, moduleName) ↔ '\t' ∉ columns ∧ ∃ bracketed,
      line = columns ++ BracketedName.ending bracketed ∧
        moduleName = BracketedName.moduleName bracketed := by
  constructor
  · intro h
    rw [split?] at h
    cases hcut : cutAt? '\t' line with
    | none =>
      rw [hcut] at h
      obtain ⟨rfl, rfl⟩ := Prod.mk.inj (Option.some.inj h)
      exact ⟨cutAt?_eq_none_iff.mp hcut, none, (List.append_nil line).symm, rfl⟩
    | some parts =>
      obtain ⟨front, tail⟩ := parts
      rw [hcut] at h
      obtain ⟨inner, hinner, heq⟩ := Option.map_eq_some_iff.mp h
      obtain ⟨rfl, rfl⟩ := Prod.mk.inj heq
      obtain ⟨bracketed, rfl, rfl⟩ := bracketed?_eq_some_iff.mp hinner
      exact ⟨notMem_of_cutAt? hcut, some bracketed, eq_of_cutAt? hcut, rfl⟩
  · rintro ⟨htab, bracketed, rfl, rfl⟩
    cases bracketed with
    | none =>
      rw [split?, BracketedName.ending, List.append_nil, cutAt?_eq_none_iff.mpr htab]
      rfl
    | some bracketed =>
      have hinner : bracketed? bracketed.text = some bracketed.name :=
        bracketed?_eq_some_iff.mpr ⟨bracketed, rfl, rfl⟩
      rw [split?, BracketedName.ending, cutAt?_append_cons htab]
      simp only [hinner, Option.map_some]
      rfl

/-- **What the columns of a line have to be**: three words or more, a numeral, the type and the
name. -/
theorem parse?_eq_some_iff {line : List Char} {entry : TableEntry} :
    parse? line = some entry ↔ ∃ columns address kind further,
      split? line = some (columns, entry.moduleName) ∧
        words columns = address :: kind :: entry.name :: further ∧
        Numeral.uint64? 16 address = some entry.address ∧ (encode kind).head? = some entry.code := by
  constructor
  · intro h
    obtain ⟨⟨columns, moduleName⟩, hsplit, h⟩ := Option.bind_eq_some_iff.mp h
    dsimp only at h
    split at h
    next address kind name further hwords =>
      obtain ⟨value, hvalue, h⟩ := Option.bind_eq_some_iff.mp h
      obtain ⟨code, hcode, h⟩ := Option.bind_eq_some_iff.mp h
      obtain rfl := Option.some.inj h
      exact ⟨columns, address, kind, further, hsplit, hwords, hvalue, hcode⟩
    next => exact absurd h (by simp)
  · rintro ⟨columns, address, kind, further, hsplit, hwords, hvalue, hcode⟩
    simp [parse?, hsplit, hwords, hvalue, hcode]

end TableEntry

/-! ## A line taken apart -/

/-- Whether a text can stand between columns: white space, but no tab, which ends the columns. -/
def IsGap (text : List Char) : Prop := ∀ c ∈ text, isBlank c = true ∧ c ≠ '\t'

/-- A line of the table taken apart. -/
structure TableLine where
  /-- The white space in front of the address. -/
  indent : List Char
  /-- Whether a plus sign stands in front of the address. -/
  plus : Bool
  /-- The digits of the address. -/
  digits : List Char
  /-- What stands between the address and the type. -/
  firstGap : List Char
  /-- The column for the type. -/
  kind : List Char
  /-- What stands between the type and the name. -/
  secondGap : List Char
  /-- The name. -/
  name : List Char
  /-- What follows the name in front of the tab. -/
  behind : List Char
  /-- What follows the tab, if there is one. -/
  bracketed : Option BracketedName
  /-- The indent is white space. -/
  isGap_indent : IsGap indent
  /-- The digits are a word. -/
  isWord_digits : IsWord digits
  /-- The first gap is white space. -/
  isGap_firstGap : IsGap firstGap
  /-- It separates two words. -/
  firstGap_ne_nil : firstGap ≠ []
  /-- The type is a word. -/
  isWord_kind : IsWord kind
  /-- The second gap is white space. -/
  isGap_secondGap : IsGap secondGap
  /-- It separates two words. -/
  secondGap_ne_nil : secondGap ≠ []
  /-- The name is a word. -/
  isWord_name : IsWord name
  /-- The name ends where the rest begins. -/
  blank_behind : ∀ c ∈ behind.head?, isBlank c = true
  /-- The first tab of the line comes later. -/
  tab_notMem_behind : '\t' ∉ behind

namespace TableLine

/-- The column for the address. -/
def address (parts : TableLine) : List Char := Numeral.withPlus parts.plus parts.digits

/-- The columns in front of the tab. -/
def columns (parts : TableLine) : List Char :=
  parts.indent ++ (parts.address ++
    (parts.firstGap ++ (parts.kind ++ (parts.secondGap ++ (parts.name ++ parts.behind)))))

/-- The line itself. -/
def text (parts : TableLine) : List Char := parts.columns ++ BracketedName.ending parts.bracketed

/-- Whether an entry holds what a line says: the number that the digits stand for, the first byte of
the type, the name and the module. -/
structure Says (parts : TableLine) (entry : TableEntry) : Prop where
  /-- The digits are those of the address, which fits its word. -/
  address : Numeral.IsNumeral 16 parts.digits entry.address.toNat
  /-- The type letter begins the column for the type. -/
  code : (encode parts.kind).head? = some entry.code
  /-- The name is the whole word. -/
  name : entry.name = parts.name
  /-- The module is all that stands in the brackets. -/
  moduleName : entry.moduleName = BracketedName.moduleName parts.bracketed

/-- Whether a line has nothing on it but what the documentation names: the address in digits, the
type in one ASCII character and the name. -/
structure IsDocumented (parts : TableLine) : Prop where
  /-- There is no sign. -/
  plus : parts.plus = false
  /-- The type is a letter that a byte holds. -/
  kind : ∃ c, parts.kind = [c] ∧ c.toNat < 0x80
  /-- There are no further columns. -/
  behind : ∀ c ∈ parts.behind, isBlank c = true

variable {parts other : TableLine} {entry : TableEntry}

theorem isWord_address (parts : TableLine) : IsWord parts.address := by
  have hdigits := parts.isWord_digits
  rw [address]
  cases hplus : parts.plus with
  | false => exact hdigits
  | true =>
    refine ⟨List.cons_ne_nil _ _, List.forall_mem_cons.mpr ⟨by decide, hdigits.notBlank⟩⟩

/-- The words of the columns are the first three columns and whatever follows them. -/
theorem words_columns (parts : TableLine) :
    words parts.columns =
      parts.address :: parts.kind :: parts.name :: words parts.behind := by
  have hblank {gap : List Char} (h : IsGap gap) : ∀ c ∈ gap, isBlank c = true :=
    fun c hc => (h c hc).1
  have hhead {gap : List Char} (h : IsGap gap) (hne : gap ≠ []) (rest : List Char) :
      ∀ c ∈ (gap ++ rest).head?, isBlank c = true := by
    rw [List.head?_append_of_ne_nil gap hne]
    exact fun c hc => hblank h c (List.mem_of_mem_head? hc)
  rw [columns, words_blank_append (hblank parts.isGap_indent),
    words_word_append parts.isWord_address (hhead parts.isGap_firstGap parts.firstGap_ne_nil _),
    words_blank_append (hblank parts.isGap_firstGap),
    words_word_append parts.isWord_kind (hhead parts.isGap_secondGap parts.secondGap_ne_nil _),
    words_blank_append (hblank parts.isGap_secondGap),
    words_word_append parts.isWord_name parts.blank_behind]

theorem tab_notMem_columns (parts : TableLine) : '\t' ∉ parts.columns := by
  have hgap {gap : List Char} (h : IsGap gap) : '\t' ∉ gap := fun htab => (h _ htab).2 rfl
  have hword {word : List Char} (h : IsWord word) : '\t' ∉ word := fun htab =>
    absurd (h.notBlank _ htab) (by decide)
  simp only [columns, List.mem_append, not_or]
  exact ⟨hgap parts.isGap_indent, hword parts.isWord_address, hgap parts.isGap_firstGap,
    hword parts.isWord_kind, hgap parts.isGap_secondGap, hword parts.isWord_name,
    parts.tab_notMem_behind⟩

theorem split?_text (parts : TableLine) :
    TableEntry.split? parts.text =
      some (parts.columns, BracketedName.moduleName parts.bracketed) :=
  TableEntry.split?_eq_some_iff.mpr ⟨parts.tab_notMem_columns, parts.bracketed, rfl, rfl⟩

/-- **A line can be taken apart in one way only**, as far as its columns go. -/
theorem agrees (h : parts.text = other.text) :
    parts.address = other.address ∧ parts.kind = other.kind ∧ parts.name = other.name ∧
      words parts.behind = words other.behind := by
  have hsplit := parts.split?_text
  rw [h, split?_text] at hsplit
  have hwords := congrArg words (Prod.mk.inj (Option.some.inj hsplit)).1.symm
  rw [words_columns, words_columns] at hwords
  simpa only [List.cons.injEq] using hwords

/-- Whether a line is as documented does not depend on how it is taken apart. -/
theorem IsDocumented.of_text_eq {entry' : TableEntry} (h : parts.IsDocumented)
    (heq : parts.text = other.text) (hentry : parts.Says entry) (hentry' : other.Says entry') :
    other.IsDocumented := by
  obtain ⟨hplus, hkind, -, hbehind⟩ := agrees heq
  obtain ⟨hplus, -⟩ := Numeral.withPlus_inj (by omega) hentry.address hentry'.address hplus
  refine ⟨hplus ▸ h.plus, hkind ▸ h.kind, ?_⟩
  rw [← words_eq_nil_iff, ← hbehind, words_eq_nil_iff]
  exact h.behind

/-- The type letter of such a line is the whole column. -/
theorem IsDocumented.kind_eq (h : parts.IsDocumented) (hentry : parts.Says entry) :
    parts.kind = [Char.ofNat entry.code.toNat] := by
  obtain ⟨c, hkind, hascii⟩ := h.kind
  have hcode := hentry.code
  rw [hkind, encode_singleton_of_ascii hascii, List.head?_cons, Option.some.injEq] at hcode
  have hnumber : entry.code.toNat = c.toNat := by
    rw [← hcode]
    exact UInt8.toNat_ofNat_of_lt' (by rw [UInt8.size]; omega)
  rw [hkind, hnumber, Char.ofNat_toNat]

/-- **A line that says something is read** as what it says. -/
theorem Says.parse? (h : parts.Says entry) : TableEntry.parse? parts.text = some entry := by
  have hsplit : TableEntry.split? parts.text = some (parts.columns, entry.moduleName) := by
    rw [split?_text, h.moduleName]
  have hwords : words parts.columns =
      parts.address :: parts.kind :: entry.name :: words parts.behind := by
    rw [words_columns, h.name]
  have haddress : Numeral.uint64? 16 parts.address = some entry.address :=
    (Numeral.uint64?_eq_some_iff (by omega)).mpr ⟨parts.plus, parts.digits, rfl, h.address⟩
  exact TableEntry.parse?_eq_some_iff.mpr ⟨_, _, _, _, hsplit, hwords, haddress, h.code⟩

/-- Between two words there is something. -/
theorem gap_ne_nil {gap word rest : List Char} (hword : IsWord word)
    (h : ∀ c ∈ (gap ++ (word ++ rest)).head?, isBlank c = true) : gap ≠ [] := by
  rintro rfl
  obtain ⟨c, word, rfl⟩ := List.exists_cons_of_ne_nil hword.ne_nil
  have hblank := hword.notBlank c List.mem_cons_self
  exact absurd (h c rfl) (by simp [hblank])

/-- **A line that is read can be taken apart.** -/
theorem exists_of_parse? {line : List Char} (h : TableEntry.parse? line = some entry) :
    ∃ parts : TableLine, parts.text = line ∧ parts.Says entry := by
  obtain ⟨columns, address, kind, further, hsplit, hwords, haddress, hcode⟩ :=
    TableEntry.parse?_eq_some_iff.mp h
  obtain ⟨htab, bracketed, rfl, hmodule⟩ := TableEntry.split?_eq_some_iff.mp hsplit
  obtain ⟨plus, digits, rfl, hdigits⟩ := (Numeral.uint64?_eq_some_iff (by omega)).mp haddress
  -- the first three words, one after another
  obtain ⟨indent, rest, rfl, hindent, -, hrest, hwords⟩ := words_eq_cons_iff.mp hwords
  obtain ⟨firstGap, rest, rfl, hfirstGap, hkind, hrest', hwords⟩ := words_eq_cons_iff.mp hwords
  obtain ⟨secondGap, behind, rfl, hsecondGap, hname, hbehind, -⟩ := words_eq_cons_iff.mp hwords
  have hgap {gap : List Char} (hblank : ∀ c ∈ gap, isBlank c = true) (htab : '\t' ∉ gap) :
      IsGap gap := fun c hc => ⟨hblank c hc, fun heq => htab (heq ▸ hc)⟩
  simp only [List.mem_append, not_or] at htab
  obtain ⟨htab₁, -, htab₂, -, htab₃, -, htab₄⟩ := htab
  exact ⟨{ indent, plus, digits, firstGap, kind, secondGap, name := entry.name, behind, bracketed
           isGap_indent := hgap hindent htab₁
           isWord_digits := ⟨hdigits.1, hdigits.notBlank (by omega)⟩
           isGap_firstGap := hgap hfirstGap htab₂
           firstGap_ne_nil := gap_ne_nil hkind hrest
           isWord_kind := hkind
           isGap_secondGap := hgap hsecondGap htab₃
           secondGap_ne_nil := gap_ne_nil hname hrest'
           isWord_name := hname
           blank_behind := hbehind
           tab_notMem_behind := htab₄ }, rfl, ⟨hdigits, hcode, rfl, hmodule⟩⟩

end TableLine

/-- **The lines that are read** are those that can be taken apart into white space, an address in
hexadecimal digits of either case that fits its word, with a plus sign or without, a type, a name,
further columns or none, and behind the first tab, if there is one, a module in brackets; what is read
are these columns, of the type its first byte.  So the lines that the documentation names are read, the
type as it stands, and what is read else has a plus sign, a type that is not one ASCII character, or
further columns. -/
theorem TableEntry.read_iff_exists_parts (line : List Char) (entry : TableEntry) :
    (TableEntry.parse? line = some entry ↔
        ∃ parts : TableLine, parts.text = line ∧ parts.Says entry) ∧
      ((∃ parts : TableLine, parts.text = line ∧ parts.Says entry ∧ parts.IsDocumented ∧
          parts.kind = [Char.ofNat entry.code.toNat]) ↔
        TableEntry.parse? line = some entry ∧
          ∀ parts : TableLine, parts.text = line → parts.Says entry → parts.IsDocumented) := by
  have hread : TableEntry.parse? line = some entry ↔
      ∃ parts : TableLine, parts.text = line ∧ parts.Says entry := by
    constructor
    · exact TableLine.exists_of_parse?
    · rintro ⟨parts, rfl, hentry⟩
      exact hentry.parse?
  refine ⟨hread, ?_⟩
  constructor
  · rintro ⟨parts, hline, hentry, hdocumented, -⟩
    refine ⟨hread.mpr ⟨parts, hline, hentry⟩, fun other hother hentry' => ?_⟩
    exact hdocumented.of_text_eq (hline.trans hother.symm) hentry hentry'
  · rintro ⟨hparse, hall⟩
    obtain ⟨parts, hline, hentry⟩ := hread.mp hparse
    have hdocumented := hall parts hline hentry
    exact ⟨parts, hline, hentry, hdocumented, hdocumented.kind_eq hentry⟩

example : TableEntry.parse? "+1000 TT a b".toList = some ⟨0x1000, 0x54, ['a'], []⟩ := by decide

end KernelTables
