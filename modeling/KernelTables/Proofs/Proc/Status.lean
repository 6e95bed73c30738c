import KernelTables.Proc.View
import KernelTables.Proofs.Stream
import KernelTables.Proofs.Text.Numeral
import KernelTables.Proofs.Text.Words

/-!
# Status files as the kernel writes them

A status file is a line for every field, its key, a colon and a tab, and its value.  The first
value is the command name, which the task itself chooses: any bytes but a newline.

* `isText_fileOf` — such a file is text exactly if every key and every value is;
* `Says.word?_eq` — in a file that is text, a key is answered with the word that its line says,
  whatever the other lines hold;
* `parse_bytes` — so the ids and the credentials of the task are read back.
-/

namespace KernelTables

namespace Status

/-! ## Fields and lines -/

/-- The colon behind a key. -/
def colon : UInt8 := 0x3A

/-- The tab before a value. -/
def tab : UInt8 := 0x09

/-- The line of a field. -/
def line (field : Bytes × Bytes) : Bytes := field.1 ++ colon :: tab :: field.2

/-- The bytes of a status file with the given fields. -/
def fileOf (fields : List (Bytes × Bytes)) : Bytes := ofLines (fields.map line)

/-- Whether a field stays within its line, and its key within the part before the colon. -/
structure Plain (field : Bytes × Bytes) : Prop where
  /-- The key has no newline. -/
  newline_key : newline ∉ field.1
  /-- The key has no colon. -/
  colon_key : colon ∉ field.1
  /-- The value has no newline. -/
  newline_value : newline ∉ field.2

instance (field : Bytes × Bytes) : Decidable (Plain field) :=
  decidable_of_iff (newline ∉ field.1 ∧ colon ∉ field.1 ∧ newline ∉ field.2)
    ⟨fun h => ⟨h.1, h.2.1, h.2.2⟩, fun h => ⟨h.newline_key, h.colon_key, h.newline_value⟩⟩

/-- Whether a value begins with a word: nothing or white space comes behind it. -/
def BeginsWith (word value : Bytes) : Prop :=
  word <+: value ∧ ∀ b ∈ (value.drop word.length).head?, isAsciiBlank b = true

instance (word value : Bytes) : Decidable (BeginsWith word value) :=
  inferInstanceAs (Decidable (_ ∧ _))

/-- Whether a key is there, and is there with `word` alone. -/
def Says (fields : List (Bytes × Bytes)) (key : String) (word : Bytes) : Prop :=
  (∃ field ∈ fields, field.1 = utf8 key) ∧
    ∀ field ∈ fields, field.1 = utf8 key → BeginsWith word field.2

instance (fields : List (Bytes × Bytes)) (key : String) (word : Bytes) :
    Decidable (Says fields key word) :=
  inferInstanceAs (Decidable (_ ∧ _))

/-- Whether a field is text. -/
def FieldIsText (field : Bytes × Bytes) : Prop := IsText field.1 ∧ IsText field.2

instance (field : Bytes × Bytes) : Decidable (FieldIsText field) :=
  inferInstanceAs (Decidable (_ ∧ _))

theorem isText_line (field : Bytes × Bytes) : IsText (line field) ↔ FieldIsText field := by
  have htab : tab :: field.2 = [] ++ tab :: field.2 := rfl
  rw [line, isText_append_cons (by decide), htab, isText_append_cons (by decide)]
  exact ⟨fun h => ⟨h.1, h.2.2⟩, fun h => ⟨h.1, isText_nil, h.2⟩⟩

/-- A file is text exactly if all of its fields are. -/
theorem isText_fileOf (fields : List (Bytes × Bytes)) :
    IsText (fileOf fields) ↔ ∀ field ∈ fields, FieldIsText field := by
  induction fields with
  | nil => simp [fileOf]
  | cons field fields ih =>
    rw [fileOf] at ih ⊢
    rw [List.map_cons, ofLines_cons, isText_append_cons (by decide), ih, isText_line]
    simp

/-! ## Reading the lines back -/

theorem lossy_line (field : Bytes × Bytes) :
    lossy (line field) = lossy field.1 ++ ':' :: '\t' :: lossy field.2 := by
  have htab : lossy (tab :: field.2) = '\t' :: lossy field.2 :=
    lossy_append_cons (by decide) [] field.2
  rw [line, lossy_append_cons (by decide), htab]
  rfl

theorem lossy_fileOf_cons (field : Bytes × Bytes) (fields : List (Bytes × Bytes)) :
    lossy (fileOf (field :: fields)) = lossy (line field) ++ '\n' :: lossy (fileOf fields) := by
  rw [fileOf, List.map_cons, ofLines_cons, lossy_append_cons (by decide)]
  rfl

/-- The lines of a file are its fields, from the last to the first. -/
theorem entries_lossy {fields : List (Bytes × Bytes)} (hplain : ∀ field ∈ fields, Plain field)
    (htext : ∀ field ∈ fields, FieldIsText field) :
    entries (lossy (fileOf fields)) =
      (fields.map fun field => (lossy field.1, '\t' :: lossy field.2)).reverse := by
  rw [entries]
  congr 1
  induction fields with
  | nil => rfl
  | cons field fields ih =>
    obtain ⟨hkey, hvalue⟩ := htext field List.mem_cons_self
    have hfield := hplain field List.mem_cons_self
    have hcolon : ':' ∉ lossy field.1 :=
      mt (mem_lossy_iff (by decide : colon.toNat < 0x80) hkey).mp hfield.colon_key
    have hnewline : '\n' ∉ lossy (line field) := by
      have h₁ : '\n' ∉ lossy field.1 :=
        mt (mem_lossy_iff (by decide : newline.toNat < 0x80) hkey).mp hfield.newline_key
      have h₂ : '\n' ∉ lossy field.2 :=
        mt (mem_lossy_iff (by decide : newline.toNat < 0x80) hvalue).mp hfield.newline_value
      simp [lossy_line, h₁, h₂]
    have hrest := ih (fun f hf => hplain f (List.mem_cons_of_mem _ hf))
      fun f hf => htext f (List.mem_cons_of_mem _ hf)
    rw [lossy_fileOf_cons, List.splitOn_append_cons_self_of_not_mem hnewline,
      List.filterMap_cons, lossy_line, cutAt?_append_cons hcolon, hrest]
    rfl

/-- White space of raw bytes is white space of the text. -/
theorem isBlank_ofNat {b : UInt8} (h : isAsciiBlank b = true) :
    b.toNat < 0x80 ∧ isBlank (Char.ofNat b.toNat) = true := by
  simp only [isAsciiBlank, Bool.or_eq_true, beq_iff_eq] at h
  rcases h with (((rfl | rfl) | rfl) | rfl) | rfl <;> decide

/-- The word that a value begins with is its first word. -/
theorem BeginsWith.firstWord? {word : List Char} {value : Bytes}
    (h : BeginsWith (encode word) value) (hne : word ≠ [])
    (hword : ∀ c ∈ word, isBlank c = false) : firstWord? (lossy value) = some word := by
  obtain ⟨⟨rest, rfl⟩, hrest⟩ := h
  rw [List.drop_left] at hrest
  rw [lossy_encode_append]
  refine firstWord?_append hne hword fun c hc => ?_
  cases rest with
  | nil => exact absurd hc (by simp [lossy])
  | cons b bs =>
    obtain ⟨hascii, hblank⟩ := isBlank_ofNat (hrest b rfl)
    have hhead : lossy (b :: bs) = Char.ofNat b.toNat :: lossy bs :=
      lossy_append_cons hascii [] bs
    rw [hhead] at hc
    obtain rfl := Option.some.inj hc
    exact hblank

/-- **A key is answered with what its line says**, whatever the other lines hold. -/
theorem Says.word?_eq {fields : List (Bytes × Bytes)} (hplain : ∀ field ∈ fields, Plain field)
    (htext : ∀ field ∈ fields, FieldIsText field) {key : String} {word : List Char}
    (hne : word ≠ []) (hword : ∀ c ∈ word, isBlank c = false)
    (h : Says fields key (encode word)) :
    word? key (lossy (fileOf fields)) = some word := by
  obtain ⟨⟨field, hmem, hkey⟩, hbegins⟩ := h
  -- the key is found, and what is found stands behind that key in some field
  obtain ⟨found, hfound⟩ :
      ∃ found, (entries (lossy (fileOf fields))).lookup key.toList = some found := by
    rw [← Option.isSome_iff_exists, List.lookup_isSome_iff, entries_lossy hplain htext]
    refine ⟨(key.toList, '\t' :: lossy field.2), ?_, by simp⟩
    rw [List.mem_reverse, List.mem_map]
    exact ⟨field, hmem, by rw [hkey, utf8, lossy_encode]⟩
  obtain ⟨before, after, hsplit, -⟩ := List.lookup_eq_some_iff.mp hfound
  have hentry : (key.toList, found) ∈ entries (lossy (fileOf fields)) := by
    rw [hsplit]
    exact List.mem_append_right _ List.mem_cons_self
  rw [entries_lossy hplain htext, List.mem_reverse, List.mem_map] at hentry
  obtain ⟨field, hmem, heq⟩ := hentry
  obtain ⟨hkey, rfl⟩ := Prod.mk.inj heq
  have hkey' : field.1 = utf8 key := by
    rw [utf8, ← hkey, encode_lossy (htext field hmem).1]
  rw [word?, hfound, Option.bind_some, firstWord?_cons (by decide)]
  exact (hbegins field hmem hkey').firstWord? hne hword

end Status

/-! ## The status file of a thread -/

/-- The status file of a thread, with a name that the thread has chosen. -/
structure StatusFile (id tgid : Int32) (credentials : Credentials) where
  /-- The command name. -/
  name : Bytes
  /-- The fields behind the name. -/
  fields : List (Bytes × Bytes)
  /-- A name is one line. -/
  newline_name : newline ∉ name
  /-- Every other field is, too. -/
  plain : ∀ field ∈ fields, Status.Plain field
  /-- The line of the id. -/
  says_id : Status.Says fields "Pid" (idText id)
  /-- The line of the thread group. -/
  says_tgid : Status.Says fields "Tgid" (idText tgid)
  /-- The line of the user ids, which begins with the real one. -/
  says_uid : Status.Says fields "Uid" (Numeral.decimal credentials.uid.toNat)
  /-- The line of the group ids, which begins with the real one. -/
  says_gid : Status.Says fields "Gid" (Numeral.decimal credentials.gid.toNat)

namespace StatusFile

variable {id tgid : Int32} {credentials : Credentials}

/-- All the fields, the name in front. -/
def all (file : StatusFile id tgid credentials) : List (Bytes × Bytes) :=
  (utf8 "Name", file.name) :: file.fields

/-- What the kernel hands out. -/
def bytes (file : StatusFile id tgid credentials) : Bytes := Status.fileOf file.all

/-- Whether a status file is text throughout. -/
def IsText (file : StatusFile id tgid credentials) : Prop :=
  KernelTables.IsText file.name ∧ ∀ field ∈ file.fields, Status.FieldIsText field

theorem isText_all (file : StatusFile id tgid credentials) :
    file.IsText ↔ ∀ field ∈ file.all, Status.FieldIsText field := by
  have hkey : KernelTables.IsText (utf8 "Name") := isText_encode _
  simp [IsText, all, Status.FieldIsText, hkey]

theorem isText_bytes (file : StatusFile id tgid credentials) :
    KernelTables.IsText file.bytes ↔ file.IsText := by
  rw [bytes, Status.isText_fileOf, isText_all]

theorem plain_all (file : StatusFile id tgid credentials) :
    ∀ field ∈ file.all, Status.Plain field := by
  intro field hfield
  rcases List.mem_cons.mp hfield with rfl | hfield
  · have hnewline : newline ∉ utf8 "Name" := by decide
    have hcolon : Status.colon ∉ utf8 "Name" := by decide
    exact ⟨hnewline, hcolon, file.newline_name⟩
  · exact file.plain field hfield

/-- The name's line says nothing of other keys. -/
theorem says_all (file : StatusFile id tgid credentials) {key : String} {word : Bytes}
    (hkey : utf8 key ≠ utf8 "Name") (h : Status.Says file.fields key word) :
    Status.Says file.all key word := by
  obtain ⟨⟨field, hmem, hfield⟩, hbegins⟩ := h
  refine ⟨⟨field, List.mem_cons_of_mem _ hmem, hfield⟩, fun field hmem hfield => ?_⟩
  rcases List.mem_cons.mp hmem with rfl | hmem
  · exact absurd hfield.symm hkey
  · exact hbegins field hmem hfield

/-- **The ids and the credentials are read back** from a status file that is text, whatever the
name. -/
theorem parse_bytes (file : StatusFile id tgid credentials) (htext : file.IsText) :
    Status.parse (lossy file.bytes) = ⟨some id, some tgid, some credentials⟩ := by
  have hword {key : String} {word : List Char} (hne : word ≠ [])
      (hblank : ∀ c ∈ word, isBlank c = false) (hkey : utf8 key ≠ utf8 "Name")
      (h : Status.Says file.fields key (encode word)) :
      Status.word? key (lossy file.bytes) = some word :=
    Status.Says.word?_eq file.plain_all (file.isText_all.mp htext) hne hblank
      (file.says_all hkey h)
  have hid : ∀ {key : String} {i : Int32}, utf8 key ≠ utf8 "Name" →
      Status.Says file.fields key (idText i) →
      (Status.word? key (lossy file.bytes)).bind Numeral.int32? = some i := by
    intro key i hkey h
    rw [idText, Numeral.signedDecimal_eq] at h
    rw [hword (Numeral.signedDigits_ne_nil _) (Numeral.isBlank_of_mem_signedDigits _) hkey h,
      Option.bind_some, Numeral.int32?_signedDigits]
  have hnumber : ∀ {key : String} {n : UInt32}, utf8 key ≠ utf8 "Name" →
      Status.Says file.fields key (Numeral.decimal n.toNat) →
      (Status.word? key (lossy file.bytes)).bind Numeral.uint32? = some n := by
    intro key n hkey h
    rw [hword Nat.toDigits_ne_nil
      (Numeral.isBlank_of_mem_toDigits (by omega) (by omega) _) hkey h,
      Option.bind_some, Numeral.uint32?_toDigits]
  rw [Status.parse, hid (by decide) file.says_id, hid (by decide) file.says_tgid,
    hnumber (by decide) file.says_uid, hnumber (by decide) file.says_gid]
  rfl

end StatusFile

end KernelTables
