import KernelTables.Record
import KernelTables.Proofs.Text.Numeral

/-!
# Rows of columns

What holds of a row because it holds of its columns: which bytes do not occur (`notMem_row`) and
how long it is at most (`length_row_le`).  From the bounds of the values in them, every line fits
the buffer that it is composed in, so that none of them is cut short; and a line has no newline in
it if its names and paths have none.
-/

namespace KernelTables

/-! ## Columns side by side -/

@[simp] theorem row_nil : row [] = [] := rfl

@[simp] theorem row_singleton (c : Bytes) : row [c] = c := by
  simp [row, List.intercalate]

@[simp] theorem row_cons_cons (c d : Bytes) (rest : List Bytes) :
    row (c :: d :: rest) = c ++ utf8 " " ++ row (d :: rest) := by
  simp [row, List.intercalate]

/-- A row begins with its columns, each with the space behind it. -/
theorem prefix_row (c d e : Bytes) (rest : List Bytes) :
    c ++ utf8 " " ++ d ++ utf8 " " <+: row (c :: d :: e :: rest) :=
  ⟨row (e :: rest), by simp only [row_cons_cons, List.append_assoc]⟩

/-- A byte that occurs in no column occurs in no row, but for the space between columns. -/
theorem notMem_row {b : UInt8} (hb : b ∉ utf8 " ") {columns : List Bytes}
    (h : ∀ c ∈ columns, b ∉ c) : b ∉ row columns := by
  induction columns with
  | nil => simp
  | cons c rest ih =>
    have hc := h c List.mem_cons_self
    have hrest := ih fun d hd => h d (List.mem_cons_of_mem c hd)
    cases rest with
    | nil => simpa using hc
    | cons d rest =>
      rw [row_cons_cons]
      simp only [List.mem_append, not_or]
      exact ⟨⟨hc, hb⟩, hrest⟩

/-- A row is as long as its columns with a space each, at most. -/
theorem length_row_le (columns : List Bytes) :
    (row columns).length ≤ (columns.map fun c => c.length + 1).sum := by
  induction columns with
  | nil => simp
  | cons c rest ih =>
    cases rest with
    | nil => simp
    | cons d rest =>
      have hspace : (utf8 " ").length = 1 := by decide
      rw [row_cons_cons, List.length_append, List.length_append, hspace, List.map_cons,
        List.sum_cons]
      omega

theorem notMem_column {b : UInt8} {label : String} {value : Bytes} (hlabel : b ∉ utf8 label)
    (hb : b ∉ utf8 "=") (hvalue : b ∉ value) : b ∉ column label value := by
  simp only [column, List.mem_append, not_or]
  exact ⟨⟨hlabel, hb⟩, hvalue⟩

theorem length_column (label : String) (value : Bytes) :
    (column label value).length = (utf8 label).length + 1 + value.length := by
  have heq : (utf8 "=").length = 1 := by decide
  rw [column, List.length_append, List.length_append, heq]

theorem length_optional_le {n : Option Nat} {k : Nat} (h : ∀ m ∈ n, (Numeral.decimal m).length ≤ k) :
    (optional n).length ≤ k := by
  cases n with
  | none => exact Nat.zero_le k
  | some m => exact h m rfl

theorem length_optional_uint32_le (n : Option UInt32) :
    (optional (n.map (·.toNat))).length ≤ 10 := by
  refine length_optional_le fun m hm => ?_
  obtain ⟨n, -, rfl⟩ := Option.map_eq_some_iff.mp hm
  exact Numeral.length_decimal_uint32_le n

theorem length_optional_uint64_le (n : Option UInt64) :
    (optional (n.map (·.toNat))).length ≤ 20 := by
  refine length_optional_le fun m hm => ?_
  obtain ⟨n, -, rfl⟩ := Option.map_eq_some_iff.mp hm
  exact Numeral.length_decimal_uint64_le n

theorem newline_notMem_decimal (n : Nat) : newline ∉ Numeral.decimal n :=
  Numeral.notMem_decimal newline_lt (by decide) n

theorem newline_notMem_idText (id : Int32) : newline ∉ idText id :=
  Numeral.notMem_signedDecimal newline_lt (by decide) (by decide) id.toInt

theorem newline_notMem_optional (n : Option Nat) : newline ∉ optional n := by
  cases n with
  | none => exact List.not_mem_nil
  | some n => exact newline_notMem_decimal n

/-- A column has a newline in it only if its value has one. -/
theorem newline_notMem_column {label : String} (hlabel : newline ∉ utf8 label) {value : Bytes}
    (hvalue : newline ∉ value) : newline ∉ column label value :=
  notMem_column hlabel (by decide) hvalue

/-! ## Task lines -/

namespace TaskRecord

theorem newline_notMem_basicText {record : TaskRecord} (hcomm : newline ∉ record.comm) :
    newline ∉ record.basicText := by
  refine notMem_row (by decide) ?_
  simp only [List.forall_mem_cons]
  refine ⟨newline_notMem_column (by decide) (newline_notMem_idText _),
    newline_notMem_column (by decide) (newline_notMem_idText _),
    newline_notMem_column (by decide) hcomm, by simp⟩

theorem newline_notMem_enrichedText {record : TaskRecord} (hcomm : newline ∉ record.comm)
    (hexe : newline ∉ record.exe) : newline ∉ record.enrichedText := by
  refine notMem_row (by decide) ?_
  simp only [List.forall_mem_cons]
  refine ⟨newline_notMem_column (by decide) (newline_notMem_idText _),
    newline_notMem_column (by decide) (newline_notMem_idText _),
    newline_notMem_column (by decide) (newline_notMem_optional _),
    newline_notMem_column (by decide) (newline_notMem_optional _),
    newline_notMem_column (by decide) (newline_notMem_optional _),
    newline_notMem_column (by decide) hcomm, newline_notMem_column (by decide) hexe, by simp⟩

theorem length_basicText_le {record : TaskRecord} (hcomm : record.comm.length ≤ 16) :
    record.basicText.length ≤ lineCapacity := by
  have hpid := Numeral.length_signedDecimal_le record.pid
  have htgid := Numeral.length_signedDecimal_le record.tgid
  refine Nat.le_trans (length_row_le _) ?_
  have h₁ : (utf8 "pid").length = 3 := by decide
  have h₂ : (utf8 "ppid").length = 4 := by decide
  have h₃ : (utf8 "comm").length = 4 := by decide
  simp only [List.map_cons, List.map_nil, List.sum_cons, List.sum_nil, length_column, idText,
    h₁, h₂, h₃, lineCapacity]
  omega

theorem length_enrichedText_le {record : TaskRecord} (hcomm : record.comm.length ≤ 16)
    (hexe : record.exe.length ≤ 1024) : record.enrichedText.length ≤ lineCapacity := by
  have hpid := Numeral.length_signedDecimal_le record.pid
  have htgid := Numeral.length_signedDecimal_le record.tgid
  have hinode := length_optional_uint64_le record.exeInode
  have huid := length_optional_uint32_le record.uid
  have hgid := length_optional_uint32_le record.gid
  refine Nat.le_trans (length_row_le _) ?_
  have h₁ : (utf8 "pid").length = 3 := by decide
  have h₂ : (utf8 "ppid").length = 4 := by decide
  have h₃ : (utf8 "inode").length = 5 := by decide
  have h₄ : (utf8 "uid").length = 3 := by decide
  have h₅ : (utf8 "gid").length = 3 := by decide
  have h₆ : (utf8 "comm").length = 4 := by decide
  have h₇ : (utf8 "exe").length = 3 := by decide
  simp only [List.map_cons, List.map_nil, List.sum_cons, List.sum_nil, length_column, idText,
    h₁, h₂, h₃, h₄, h₅, h₆, h₇, lineCapacity]
  omega

end TaskRecord

/-! ## File lines -/

namespace FileRecord

theorem newline_notMem_text {record : FileRecord} (hhost : newline ∉ record.host)
    (hpath : newline ∉ record.path) (hcomm : newline ∉ record.comm)
    (hexe : newline ∉ record.exe) : newline ∉ record.text := by
  refine notMem_row (by decide) ?_
  simp only [List.forall_mem_cons]
  refine ⟨newline_notMem_column (by decide) (newline_notMem_idText _),
    newline_notMem_column (by decide) (newline_notMem_idText _),
    newline_notMem_column (by decide) (newline_notMem_decimal _),
    newline_notMem_column (by decide) (newline_notMem_optional _),
    newline_notMem_column (by decide) (newline_notMem_optional _),
    newline_notMem_column (by decide) (newline_notMem_optional _),
    newline_notMem_column (by decide) hhost, newline_notMem_column (by decide) hpath,
    newline_notMem_column (by decide) hcomm, newline_notMem_column (by decide) hexe, by simp⟩

theorem length_text_le {record : FileRecord} (hhost : record.host.length ≤ 65)
    (hpath : record.path.length ≤ 1024) (hcomm : record.comm.length ≤ 16)
    (hexe : record.exe.length ≤ 1024) : record.text.length ≤ lineCapacity := by
  have hpid := Numeral.length_signedDecimal_le record.pid
  have htgid := Numeral.length_signedDecimal_le record.tgid
  have hfd := Numeral.length_decimal_uint32_le record.fd
  have hinode := length_optional_uint64_le record.inode
  have huid := length_optional_uint32_le record.uid
  have hgid := length_optional_uint32_le record.gid
  refine Nat.le_trans (length_row_le _) ?_
  have h₁ : (utf8 "pid").length = 3 := by decide
  have h₂ : (utf8 "ppid").length = 4 := by decide
  have h₃ : (utf8 "fd").length = 2 := by decide
  have h₄ : (utf8 "inode").length = 5 := by decide
  have h₅ : (utf8 "uid").length = 3 := by decide
  have h₆ : (utf8 "gid").length = 3 := by decide
  have h₇ : (utf8 "host").length = 4 := by decide
  have h₈ : (utf8 "file").length = 4 := by decide
  have h₉ : (utf8 "comm").length = 4 := by decide
  have h₁₀ : (utf8 "exe").length = 3 := by decide
  simp only [List.map_cons, List.map_nil, List.sum_cons, List.sum_nil, length_column, idText,
    h₁, h₂, h₃, h₄, h₅, h₆, h₇, h₈, h₉, h₁₀, lineCapacity]
  omega

end FileRecord

/-! ## Symbol lines -/

theorem AddressDelta.length_text_le (delta : AddressDelta) : delta.text.length ≤ 19 := by
  have hsign : (utf8 "-").length = 1 := by decide
  cases delta with
  | unknown => exact Nat.zero_le 19
  | forward distance =>
    exact Nat.le_succ_of_le (Numeral.length_prefixedHex_le distance)
  | backward distance =>
    have := Numeral.length_prefixedHex_le distance
    rw [text, List.length_append, hsign]
    omega

namespace SymbolRecord

theorem length_deltaText_le (record : SymbolRecord) : record.deltaText.length ≤ lineCapacity :=
  Nat.le_trans record.delta.length_text_le (by decide)

theorem length_entryText_le {record : SymbolRecord} (hname : record.name.length ≤ 512)
    (hmodule : record.moduleName.length ≤ 56) : record.entryText.length ≤ lineCapacity := by
  have haddr := Numeral.length_prefixedHex_le record.address
  have hcode : (encode [Char.ofNat record.code.toNat]).length ≤ 4 := by
    have := (Char.ofNat record.code.toNat).utf8Size_le_four
    simpa using this
  have hmodule' : (if record.moduleName.isEmpty then noModule else record.moduleName).length ≤ 56 := by
    split
    · decide
    · exact hmodule
  have hkind : (utf8 record.kind.label).length ≤ 10 := by
    cases record.kind <;> decide
  have hsize : (record.maxSize.elim [] fun size => Numeral.prefixedHex size.toNat).length ≤ 18 := by
    cases record.maxSize with
    | none => exact Nat.zero_le 18
    | some size => exact Numeral.length_prefixedHex_le size
  refine Nat.le_trans (length_row_le _) ?_
  have h₁ : (utf8 "addr").length = 4 := by decide
  have h₂ : (utf8 "atype").length = 5 := by decide
  have h₃ : (utf8 "func").length = 4 := by decide
  have h₄ : (utf8 "name").length = 4 := by decide
  have h₅ : (utf8 "type").length = 4 := by decide
  simp only [List.map_cons, List.map_nil, List.sum_cons, List.sum_nil, length_column,
    h₁, h₂, h₃, h₄, h₅, lineCapacity]
  omega

end SymbolRecord

end KernelTables
