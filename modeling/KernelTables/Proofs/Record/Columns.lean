import KernelTables.Proofs.Record
import KernelTables.Proofs.Text.Separator

/-!
# Columns read back

A collector has nothing but lines, and wants the records they were written for.  What stands in front
of the texts is no difficulty: a number holds no space, so the column ends at the next one
(`row_column_inj`), and a number is known by its numeral.  A text of any bytes ends where the label of
the next column begins, and that label may stand in the text as well (`row_column_cases`).

* `TaskRecord.basicText_inj` — a line of the short layout tells its record;
* `TaskRecord.enrichedText_inj`, `FileRecord.text_inj` — the other lines tell the numbers of their
  records, and all their texts as one;
* `TaskRecord.texts_cases`, `FileRecord.SameNumbers.eq_or_confusable` — **what the texts as one tell
  of each**: all of it, unless a label stands in one of them;
* `SymbolRecord.eq_of_entryText_eq` — an entry line is read from both ends, and what is left in the
  middle is the module, whatever stands in its name.
-/

namespace KernelTables

/-! ## Numbers -/

/-- A number that may be unavailable is read back, and so is its being unavailable. -/
theorem natural?_optional (n : Option Nat) :
    (decode? (optional n)).bind (Numeral.natural? 10) = n := by
  cases n with
  | none => rfl
  | some n =>
    have hn : Numeral.natural? 10 (Nat.toDigits 10 n) = some n :=
      Numeral.natural?_toDigits (by omega) (by omega) n
    rw [optional, Option.elim_some, Numeral.decimal, decode?_encode, Option.bind_some, hn]

theorem optional_injective : Function.Injective optional := by
  intro m n h
  rw [← natural?_optional m, ← natural?_optional n, h]

theorem optional_uint32_inj {m n : Option UInt32} :
    optional (m.map (·.toNat)) = optional (n.map (·.toNat)) ↔ m = n := by
  rw [optional_injective.eq_iff]
  exact (Option.map_injective fun _ _ => UInt32.toNat_inj.mp).eq_iff

theorem optional_uint64_inj {m n : Option UInt64} :
    optional (m.map (·.toNat)) = optional (n.map (·.toNat)) ↔ m = n := by
  rw [optional_injective.eq_iff]
  exact (Option.map_injective fun _ _ => UInt64.toNat_inj.mp).eq_iff

theorem decimal_uint32_inj {m n : UInt32} :
    Numeral.decimal m.toNat = Numeral.decimal n.toNat ↔ m = n := by
  constructor
  · intro h
    have hm := Numeral.uint32?_decimal m
    rw [h, Numeral.uint32?_decimal] at hm
    exact (Option.some.inj hm).symm
  · rintro rfl
    rfl

theorem prefixedHex_inj {m n : UInt64} :
    Numeral.prefixedHex m.toNat = Numeral.prefixedHex n.toNat ↔ m = n := by
  constructor
  · intro h
    have hm := Numeral.prefixedHex?_prefixedHex m.toNat
    rw [h, Numeral.prefixedHex?_prefixedHex] at hm
    exact (UInt64.toNat_inj.mp (Option.some.inj hm)).symm
  · rintro rfl
    rfl

theorem idText_inj {i j : Int32} : idText i = idText j ↔ i = j := by
  constructor
  · intro h
    have hi := Numeral.int32?_signedDecimal i
    rw [← idText, h, idText, Numeral.int32?_signedDecimal] at hi
    exact (Option.some.inj hi).symm
  · rintro rfl
    rfl

/-! ## One column after another -/

/-- The byte between two columns. -/
def space : UInt8 := 0x20

/-- The byte between the label of a column and its value. -/
def mark : UInt8 := 0x3D

theorem utf8_space : utf8 " " = [space] := by decide

theorem space_lt : space.toNat < 0x80 := by decide

theorem space_notMem_decimal (n : Nat) : space ∉ Numeral.decimal n :=
  Numeral.notMem_decimal space_lt (by decide) n

theorem space_notMem_idText (id : Int32) : space ∉ idText id :=
  Numeral.notMem_signedDecimal space_lt (by decide) (by decide) id.toInt

theorem space_notMem_optional (n : Option Nat) : space ∉ optional n := by
  cases n with
  | none => exact List.not_mem_nil
  | some n => exact space_notMem_decimal n

/-- What stands between the value of a column and the value of the next one. -/
def separator (label : String) : Bytes := utf8 " " ++ utf8 label ++ utf8 "="

theorem isSeparator_separator {label : String} (h : space ∉ utf8 label) :
    IsSeparator (separator label) := by
  refine ⟨space, utf8 label ++ utf8 "=", ?_, ?_⟩
  · rw [separator, utf8_space]
    rfl
  · rw [List.mem_append, not_or]
    exact ⟨h, by decide⟩

section Row

variable {label next : String} {value value' more more' c c' : Bytes} {rest rest' : List Bytes}

/-- **A column without a space** is told from what follows it. -/
theorem row_column_inj (h : space ∉ value) (h' : space ∉ value') :
    row (column label value :: c :: rest) = row (column label value' :: c' :: rest') ↔
      value = value' ∧ row (c :: rest) = row (c' :: rest') := by
  simp only [row_cons_cons, column, List.append_assoc, utf8_space, List.append_cancel_left_eq,
    List.singleton_append]
  exact append_cons_inj h h'

theorem exists_row_column (label : String) (value : Bytes) (rest : List Bytes) :
    ∃ behind, row (column label value :: rest) = utf8 label ++ (utf8 "=" ++ behind) := by
  cases rest with
  | nil => exact ⟨value, by simp [column]⟩
  | cons d rest => exact ⟨value ++ (utf8 " " ++ row (d :: rest)), by simp [column]⟩

/-- **A column of any bytes** is told from the next one, unless it goes on behind another value with
the label of the next. -/
theorem row_column_cases (hnext : space ∉ utf8 next)
    (h : row (column label value :: column next more :: rest) =
      row (column label value' :: column next more' :: rest')) :
    value = value' ∧ row (column next more :: rest) = row (column next more' :: rest') ∨
      Extends (separator next) value value' := by
  obtain ⟨behind, hbehind⟩ := exists_row_column next more rest
  obtain ⟨behind', hbehind'⟩ := exists_row_column next more' rest'
  rw [row_cons_cons, row_cons_cons, hbehind, hbehind'] at h
  have hcut : value ++ (separator next ++ behind) = value' ++ (separator next ++ behind') := by
    simpa only [column, separator, List.append_assoc, List.append_cancel_left_eq] using h
  rcases (isSeparator_separator hnext).eq_or_extends hcut with ⟨rfl, rfl⟩ | hextends
  · exact Or.inl ⟨rfl, hbehind.trans hbehind'.symm⟩
  · exact Or.inr hextends

theorem row_column_last :
    row [column label value] = row [column label value'] ↔ value = value' := by
  simp only [row_singleton, column, List.append_cancel_left_eq]

end Row

/-! ## Task lines -/

namespace TaskRecord

variable {record other : TaskRecord}

/-- **A line of the short layout** tells its record from any other. -/
theorem basicText_inj : record.basicText = other.basicText ↔
    record.pid = other.pid ∧ record.tgid = other.tgid ∧ record.comm = other.comm := by
  rw [basicText, basicText, row_column_inj (space_notMem_idText _) (space_notMem_idText _),
    row_column_inj (space_notMem_idText _) (space_notMem_idText _), row_column_last, idText_inj,
    idText_inj]

/-- The two texts at the end of a line of the full layout. -/
def texts (record : TaskRecord) : Bytes :=
  row [column "comm" record.comm, column "exe" record.exe]

theorem enrichedText_inj : record.enrichedText = other.enrichedText ↔
    record.pid = other.pid ∧ record.tgid = other.tgid ∧ record.exeInode = other.exeInode ∧
      record.uid = other.uid ∧ record.gid = other.gid ∧ record.texts = other.texts := by
  rw [enrichedText, enrichedText, row_column_inj (space_notMem_idText _) (space_notMem_idText _),
    row_column_inj (space_notMem_idText _) (space_notMem_idText _),
    row_column_inj (space_notMem_optional _) (space_notMem_optional _),
    row_column_inj (space_notMem_optional _) (space_notMem_optional _),
    row_column_inj (space_notMem_optional _) (space_notMem_optional _), idText_inj,
    idText_inj, optional_uint64_inj, optional_uint32_inj, optional_uint32_inj]
  rfl

theorem texts_cases (h : record.texts = other.texts) :
    record.comm = other.comm ∧ record.exe = other.exe ∨
      Extends (separator "exe") record.comm other.comm := by
  rcases row_column_cases (by decide) h with ⟨hcomm, hrest⟩ | hextends
  · exact Or.inl ⟨hcomm, row_column_last.mp hrest⟩
  · exact Or.inr hextends

end TaskRecord

/-! ## File lines -/

namespace FileRecord

variable {record other : FileRecord}

/-- Whether two records agree in every number, also where it is not available. -/
structure SameNumbers (record other : FileRecord) : Prop where
  /-- The process. -/
  pid : record.pid = other.pid
  /-- Its thread group. -/
  tgid : record.tgid = other.tgid
  /-- The descriptor. -/
  fd : record.fd = other.fd
  /-- The inode. -/
  inode : record.inode = other.inode
  /-- The user. -/
  uid : record.uid = other.uid
  /-- The group. -/
  gid : record.gid = other.gid

/-- The four texts at the end of a line. -/
def texts (record : FileRecord) : Bytes :=
  row [column "host" record.host, column "file" record.path, column "comm" record.comm,
    column "exe" record.exe]

/-- **A line tells the numbers of its record**, and the four texts as one. -/
theorem text_inj :
    record.text = other.text ↔ record.SameNumbers other ∧ record.texts = other.texts := by
  have hnumbers : record.SameNumbers other ↔ record.pid = other.pid ∧ record.tgid = other.tgid ∧
      record.fd = other.fd ∧ record.inode = other.inode ∧ record.uid = other.uid ∧
      record.gid = other.gid :=
    ⟨fun ⟨pid, tgid, fd, inode, uid, gid⟩ => ⟨pid, tgid, fd, inode, uid, gid⟩,
      fun ⟨pid, tgid, fd, inode, uid, gid⟩ => ⟨pid, tgid, fd, inode, uid, gid⟩⟩
  rw [text, text, row_column_inj (space_notMem_idText _) (space_notMem_idText _),
    row_column_inj (space_notMem_idText _) (space_notMem_idText _),
    row_column_inj (space_notMem_decimal _) (space_notMem_decimal _),
    row_column_inj (space_notMem_optional _) (space_notMem_optional _),
    row_column_inj (space_notMem_optional _) (space_notMem_optional _),
    row_column_inj (space_notMem_optional _) (space_notMem_optional _), idText_inj, idText_inj,
    decimal_uint32_inj, optional_uint64_inj, optional_uint32_inj, optional_uint32_inj, hnumbers]
  simp only [and_assoc]
  rfl

/-- How the texts of two records may differ although the same stands on their lines.  In the first
text in which they differ, one goes on behind the other with the label of the next column. -/
inductive Confusable (record other : FileRecord) : Prop
  /-- The label of the path stands in a node name. -/
  | host (host : Extends (separator "file") record.host other.host)
  /-- The label of the command name stands in a path. -/
  | path (host : record.host = other.host) (path : Extends (separator "comm") record.path other.path)
  /-- The label of the executable stands in a command name. -/
  | comm (host : record.host = other.host) (path : record.path = other.path)
    (comm : Extends (separator "exe") record.comm other.comm)

/-- Whether no text of a record holds the label of the column behind it. -/
structure Separated (record : FileRecord) : Prop where
  /-- The node name holds no ` file=`. -/
  host : ¬separator "file" <:+: record.host
  /-- The path holds no ` comm=`. -/
  path : ¬separator "comm" <:+: record.path
  /-- The command name holds no ` exe=`. -/
  comm : ¬separator "exe" <:+: record.comm

theorem Separated.not_confusable (h : record.Separated) (h' : other.Separated) :
    ¬record.Confusable other := by
  rintro (hhost | ⟨-, hpath⟩ | ⟨-, -, hcomm⟩)
  · exact hhost.isInfix.elim h.host h'.host
  · exact hpath.isInfix.elim h.path h'.path
  · exact hcomm.isInfix.elim h.comm h'.comm

/-- **Where the four texts are the same side by side**, each of them is, unless labels stand in
them. -/
theorem SameNumbers.eq_or_confusable (hnumbers : record.SameNumbers other)
    (h : record.texts = other.texts) : record = other ∨ record.Confusable other := by
  rcases row_column_cases (by decide) h with ⟨hhost, h⟩ | hextends
  swap
  · exact Or.inr (.host hextends)
  rcases row_column_cases (by decide) h with ⟨hpath, h⟩ | hextends
  swap
  · exact Or.inr (.path hhost hextends)
  rcases row_column_cases (by decide) h with ⟨hcomm, h⟩ | hextends
  swap
  · exact Or.inr (.comm hhost hpath hextends)
  have hexe := row_column_last.mp h
  obtain ⟨hpid, htgid, hfd, hinode, huid, hgid⟩ := hnumbers
  left
  cases record
  cases other
  rw [mk.injEq]
  exact ⟨hpid, htgid, hfd, hinode, huid, hgid, hhost, hpath, hcomm, hexe⟩

end FileRecord

/-! ## Symbol lines -/

/-- A section is known by its name. -/
theorem Section.utf8_label_inj {kind other : Section} :
    utf8 kind.label = utf8 other.label ↔ kind = other := by
  cases kind <;> cases other <;> decide

namespace SymbolRecord

variable {record other : SymbolRecord}

/-- What stands in the column for the module. -/
def shownModule (record : SymbolRecord) : Bytes :=
  if record.moduleName.isEmpty then noModule else record.moduleName

/-- No module looks like a module with the name that stands for none, and like no other. -/
theorem moduleName_of_shownModule_eq (h : record.shownModule = other.shownModule) :
    record.moduleName = other.moduleName ∨
      record.moduleName ∈ [[], noModule] ∧ other.moduleName ∈ [[], noModule] := by
  rw [shownModule, shownModule] at h
  simp only [List.isEmpty_iff] at h
  by_cases hempty : record.moduleName = [] <;> by_cases hempty' : other.moduleName = []
  · exact Or.inl (hempty.trans hempty'.symm)
  · rw [if_pos hempty, if_neg hempty'] at h
    exact Or.inr ⟨by simp [hempty], by simp [← h]⟩
  · rw [if_neg hempty, if_pos hempty'] at h
    exact Or.inr ⟨by simp [h], by simp [hempty']⟩
  · rw [if_neg hempty, if_neg hempty'] at h
    exact Or.inl h

/-- What stands in the column for the size. -/
def sizeText (record : SymbolRecord) : Bytes :=
  record.maxSize.elim [] fun size => Numeral.prefixedHex size.toNat

/-- No mark stands behind the one in front of the section. -/
theorem mark_notMem_kind (record : SymbolRecord) :
    mark ∉ utf8 record.kind.label ++ space :: record.sizeText := by
  have hkind : mark ∉ utf8 record.kind.label := by
    cases record.kind <;> decide
  have hsize : mark ∉ record.sizeText := by
    rw [sizeText]
    cases record.maxSize with
    | none => exact List.not_mem_nil
    | some size => exact Numeral.notMem_prefixedHex (by decide) (by decide) (by decide) size.toNat
  rw [List.mem_append, List.mem_cons, not_or, not_or]
  exact ⟨hkind, by decide, hsize⟩

/-- The columns for the module and the section, read from the end of the line. -/
theorem row_module_inj
    (h : row [column "name" record.shownModule, column "type" (utf8 record.kind.label),
        record.sizeText] =
      row [column "name" other.shownModule, column "type" (utf8 other.kind.label),
        other.sizeText]) :
    record.shownModule = other.shownModule ∧ record.kind = other.kind := by
  have hrow (record : SymbolRecord) :
      row [column "name" record.shownModule, column "type" (utf8 record.kind.label),
          record.sizeText] =
        utf8 "name=" ++ record.shownModule ++ utf8 " type" ++
          mark :: (utf8 record.kind.label ++ space :: record.sizeText) := by
    have hname : utf8 "name=" = utf8 "name" ++ utf8 "=" := by decide
    have htype : utf8 " type" = utf8 " " ++ utf8 "type" := by decide
    have hmark : utf8 "=" = [mark] := by decide
    simp [column, hname, htype, hmark, utf8_space]
  have hspace (record : SymbolRecord) : space ∉ utf8 record.kind.label := by
    cases record.kind <;> decide
  rw [hrow, hrow, append_cons_inj_last record.mark_notMem_kind other.mark_notMem_kind] at h
  obtain ⟨hmodule, hkind⟩ := h
  rw [append_cons_inj (hspace record) (hspace other)] at hkind
  refine ⟨?_, Section.utf8_label_inj.mp hkind.1⟩
  exact List.append_cancel_left (List.append_cancel_right hmodule)

/-- A type letter is known by the character that shows it. -/
theorem encode_code_inj {code code' : UInt8} :
    encode [Char.ofNat code.toNat] = encode [Char.ofNat code'.toNat] ↔ code = code' := by
  constructor
  · intro h
    have hnumber := congrArg Char.toNat (List.singleton_inj.mp (encode_injective h))
    rw [toNat_ofNat_byte, toNat_ofNat_byte] at hnumber
    exact UInt8.toNat_inj.mp hnumber
  · rintro rfl
    rfl

/-- **An entry line tells its record**, whatever the name of the module is made of, if no space
stands in the columns in front of it. -/
theorem eq_of_entryText_eq (hcode : record.code ≠ space) (hname : space ∉ record.name)
    (hcode' : other.code ≠ space) (hname' : space ∉ other.name)
    (h : record.entryText = other.entryText) :
    record.address = other.address ∧ record.code = other.code ∧ record.name = other.name ∧
      record.shownModule = other.shownModule ∧ record.kind = other.kind := by
  have haddress (address : UInt64) : space ∉ Numeral.prefixedHex address.toNat :=
    Numeral.notMem_prefixedHex space_lt (by decide) (by decide) address.toNat
  have hletter {code : UInt8} (hcode : code ≠ space) :
      space ∉ encode [Char.ofNat code.toNat] := by
    rw [mem_encode_iff space_lt, List.mem_singleton]
    intro hspace
    have hnumber := congrArg Char.toNat hspace
    rw [toNat_ofNat_byte, toNat_ofNat_byte] at hnumber
    exact hcode (UInt8.toNat_inj.mp hnumber).symm
  rw [entryText, entryText, row_column_inj (haddress _) (haddress _),
    row_column_inj (hletter hcode) (hletter hcode'), row_column_inj hname hname',
    prefixedHex_inj, encode_code_inj] at h
  obtain ⟨haddress, hcode, hname, hrest⟩ := h
  exact ⟨haddress, hcode, hname, row_module_inj hrest⟩

end SymbolRecord

end KernelTables
