import Mathlib.Data.List.Induction
import Mathlib.Logic.Function.Basic
import KernelTables.Proofs.Report.Task

/-!
# The last line of a key

A status file may say a thing more than once, and in any order.  Whoever reads it line by line
overwrites what was said before, so all that is left in the end is the last line of each key.

* `foldl_overwrite` — **one slot**: after any lines it holds what the last line of its key says,
  also where that cannot be read;
* `Fields.read_eq`, `parse_eq_foldl` — a status file is read by four such slots, each for itself;
* `gives_iff` — what is left in a slot is the word behind the last line of its key;
* `task?_of_lastLines` — what this comes to for a thread: its ids and credentials depend on those
  four lines alone, wherever they stand and whatever else the file says.
-/

namespace KernelTables

namespace Status

/-! ## Lines and keys -/

/-- A line without the carriage return that may end it. -/
def dropReturn (line : List Char) : List Char :=
  if line.getLast? = some '\r' then line.dropLast else line

/-- The lines of a text.  A newline ends one, together with a carriage return in front of it; what
stands behind the last newline is one more, as it is, if anything does. -/
def lines (text : List Char) : List (List Char) :=
  let pieces := text.splitOn '\n'
  pieces.dropLast.map dropReturn ++ pieces.getLast?.toList.filter (!·.isEmpty)

/-- What a line says of a key, if the key is all that stands before its first colon. -/
def valueOf? (key : String) (line : List Char) : Option (List Char) :=
  (cutAt? ':' line).bind fun parts => if parts.1 = key.toList then some parts.2 else none

/-- What is known of a key after one more line. -/
def overwrite {α : Type} (key : String) (read : List Char → Option α) (known : Option α)
    (line : List Char) : Option α :=
  match valueOf? key line with
  | some value => (firstWord? value).bind read
  | none => known

/-- What has been read of a status file so far. -/
structure Fields where
  /-- The thread's id. -/
  pid : Option Int32 := none
  /-- The id of its thread group. -/
  tgid : Option Int32 := none
  /-- The real user id. -/
  uid : Option UInt32 := none
  /-- The real group id. -/
  gid : Option UInt32 := none

namespace Fields

/-- Reads one more line.  Only the four keys matter, and a line that has no colon has no key. -/
def read (fields : Fields) (line : List Char) : Fields :=
  match cutAt? ':' line with
  | none => fields
  | some (key, value) =>
    let word := firstWord? value
    if key = "Pid".toList then { fields with pid := word.bind Numeral.int32? }
    else if key = "Tgid".toList then { fields with tgid := word.bind Numeral.int32? }
    else if key = "Uid".toList then { fields with uid := word.bind Numeral.uint32? }
    else if key = "Gid".toList then { fields with gid := word.bind Numeral.uint32? }
    else fields

/-- What the whole file says: there are credentials only if both parts of them are known. -/
def status (fields : Fields) : Status where
  pid := fields.pid
  tgid := fields.tgid
  credentials := do
    let uid ← fields.uid
    let gid ← fields.gid
    some ⟨uid, gid⟩

end Fields

/-- What the last line of a key says. -/
def lastValue? (key : String) (lines : List (List Char)) : Option (List Char) :=
  lines.reverse.findSome? (valueOf? key)

/-- Whether a text ends in a given line for a key, as far as this key goes: no later line begins
with the key and a colon. -/
def LastLine (key : String) (text value : List Char) : Prop :=
  ∃ before after, lines text = before ++ (key.toList ++ ':' :: value) :: after ∧
    ∀ line ∈ after, ¬key.toList ++ [':'] <+: line

/-- Whether the last line of a key says something that can be read. -/
def Gives {α : Type} (key : String) (read : List Char → Option α) (text : List Char) (a : α) :
    Prop :=
  ∃ value word, LastLine key text value ∧ firstWord? value = some word ∧ read word = some a

section Key

variable {key : String} (hkey : ':' ∉ key.toList)

include hkey

theorem valueOf?_eq_some_iff {line value : List Char} :
    valueOf? key line = some value ↔ line = key.toList ++ ':' :: value := by
  constructor
  · intro h
    obtain ⟨⟨front, rest⟩, hcut, h⟩ := Option.bind_eq_some_iff.mp h
    dsimp only at h
    split at h
    next hfront =>
      obtain rfl := Option.some.inj h
      rw [eq_of_cutAt? hcut, hfront]
    next => exact absurd h (by simp)
  · rintro rfl
    simp [valueOf?, cutAt?_append_cons hkey]

theorem valueOf?_eq_none_iff {line : List Char} :
    valueOf? key line = none ↔ ¬key.toList ++ [':'] <+: line := by
  rw [Option.eq_none_iff_forall_ne_some]
  simp only [ne_eq, valueOf?_eq_some_iff hkey]
  constructor
  · rintro h ⟨value, rfl⟩
    exact h value (by simp)
  · rintro h value rfl
    exact h ⟨value, by simp⟩

theorem lastValue?_lines_eq_some_iff {text value : List Char} :
    lastValue? key (lines text) = some value ↔ LastLine key text value := by
  simp only [lastValue?, LastLine, List.findSome?_eq_some_iff, valueOf?_eq_some_iff hkey,
    valueOf?_eq_none_iff hkey]
  constructor
  · rintro ⟨later, line, earlier, hsplit, rfl, hlater⟩
    refine ⟨earlier.reverse, later.reverse, ?_, by simpa using hlater⟩
    rw [← (lines text).reverse_reverse, hsplit]
    simp
  · rintro ⟨before, after, hsplit, hafter⟩
    exact ⟨after.reverse, _, before.reverse, by simp [hsplit], rfl, by simpa using hafter⟩

end Key

/-- Later lines go before earlier ones. -/
theorem lastValue?_append (key : String) (lines later : List (List Char)) :
    lastValue? key (lines ++ later) = (lastValue? key later).or (lastValue? key lines) := by
  simp [lastValue?, List.findSome?_append]

theorem lastValue?_singleton (key : String) (line : List Char) :
    lastValue? key [line] = valueOf? key line := by
  rw [lastValue?, List.reverse_singleton, List.findSome?_singleton]

/-! ## One slot -/

/-- **A slot holds what the last line of its key says**, or what it held before if there is none. -/
theorem foldl_overwrite {α : Type} (key : String) (read : List Char → Option α) (known : Option α)
    (lines : List (List Char)) :
    lines.foldl (overwrite key read) known =
      match lastValue? key lines with
      | some value => (firstWord? value).bind read
      | none => known := by
  induction lines using List.reverseRecOn with
  | nil => rfl
  | append_singleton lines line ih =>
    rw [List.foldl_concat, ih, lastValue?_append, lastValue?_singleton, overwrite]
    cases valueOf? key line <;> rfl

/-- A line goes to the slot of its key, and leaves the others alone. -/
theorem Fields.read_eq (fields : Fields) (line : List Char) :
    fields.read line =
      { pid := overwrite "Pid" Numeral.int32? fields.pid line
        tgid := overwrite "Tgid" Numeral.int32? fields.tgid line
        uid := overwrite "Uid" Numeral.uint32? fields.uid line
        gid := overwrite "Gid" Numeral.uint32? fields.gid line } := by
  rcases hcut : cutAt? ':' line with _ | ⟨key, value⟩
  · simp [read, overwrite, valueOf?, hcut]
  · simp only [read, overwrite, valueOf?, hcut, Option.bind_some]
    by_cases hpid : key = "Pid".toList
    · simp [hpid]
    by_cases htgid : key = "Tgid".toList
    · simp [htgid]
    by_cases huid : key = "Uid".toList
    · simp [huid]
    by_cases hgid : key = "Gid".toList
    · simp [hgid]
    simp only [if_neg hpid, if_neg htgid, if_neg huid, if_neg hgid]

/-- The slots do not see each other. -/
theorem foldl_read (fields : Fields) (lines : List (List Char)) :
    lines.foldl Fields.read fields =
      { pid := lines.foldl (overwrite "Pid" Numeral.int32?) fields.pid
        tgid := lines.foldl (overwrite "Tgid" Numeral.int32?) fields.tgid
        uid := lines.foldl (overwrite "Uid" Numeral.uint32?) fields.uid
        gid := lines.foldl (overwrite "Gid" Numeral.uint32?) fields.gid } := by
  induction lines generalizing fields with
  | nil => rfl
  | cons line lines ih => simp only [List.foldl_cons, ih, Fields.read_eq]

/-! ## The word behind the last line -/

/-- A carriage return is white space, and behind the first word if it is at the end. -/
theorem firstWord?_dropReturn (text : List Char) :
    firstWord? (dropReturn text) = firstWord? text := by
  rw [dropReturn]
  split
  next hlast =>
    obtain ⟨front, rfl⟩ := List.getLast?_eq_some_iff.mp hlast
    have hnothing : words [] = [] := words_of_blank (List.forall_mem_nil _)
    rw [List.dropLast_concat, firstWord?, firstWord?, words_append_cons (by decide), hnothing,
      List.append_nil]
  next => rfl

/-- A carriage return at the end of a line stands behind the colon. -/
theorem dropReturn_append_colon (front rest : List Char) :
    dropReturn (front ++ ':' :: rest) = front ++ ':' :: dropReturn rest := by
  cases rest using List.reverseRecOn with
  | nil => simp [dropReturn]
  | append_singleton rest c =>
    have hsplit : front ++ ':' :: (rest ++ [c]) = (front ++ ':' :: rest) ++ [c] := by simp
    rw [hsplit, dropReturn, dropReturn, List.getLast?_concat, List.getLast?_concat,
      List.dropLast_concat, List.dropLast_concat]
    split <;> simp

theorem valueOf?_dropReturn (key : String) (line : List Char) :
    valueOf? key (dropReturn line) = (valueOf? key line).map dropReturn := by
  rw [valueOf?, valueOf?]
  cases hcut : cutAt? ':' line with
  | none =>
    have hnone : ':' ∉ dropReturn line := by
      rw [dropReturn]
      split
      · exact fun h => cutAt?_eq_none_iff.mp hcut (List.dropLast_subset line h)
      · exact cutAt?_eq_none_iff.mp hcut
    rw [cutAt?_eq_none_iff.mpr hnone]
    rfl
  | some parts =>
    rw [eq_of_cutAt? hcut, dropReturn_append_colon, cutAt?_append_cons (notMem_of_cutAt? hcut)]
    simp only [Option.bind_some]
    split <;> rfl

theorem lastValue?_map_dropReturn (key : String) (lines : List (List Char)) :
    lastValue? key (lines.map dropReturn) = (lastValue? key lines).map dropReturn := by
  have hvalue : valueOf? key ∘ dropReturn = Option.map dropReturn ∘ valueOf? key :=
    funext (valueOf?_dropReturn key)
  rw [lastValue?, lastValue?, ← List.map_reverse, List.findSome?_map, hvalue, List.map_findSome?]

/-- Looking a key up among the lines that have a colon is looking for a line of that key. -/
theorem lookup_filterMap_cutAt? (key : String) (lines : List (List Char)) :
    (lines.filterMap (cutAt? ':')).lookup key.toList = lines.findSome? (valueOf? key) := by
  induction lines with
  | nil => rfl
  | cons line lines ih =>
    rw [List.filterMap_cons, List.findSome?_cons, valueOf?]
    cases cutAt? ':' line with
    | none => exact ih
    | some parts =>
      obtain ⟨front, rest⟩ := parts
      by_cases hkey : front = key.toList
      · simp [hkey]
      · have hother : (key.toList == front) = false := beq_eq_false_iff_ne.mpr (Ne.symm hkey)
        simp [List.lookup_cons, hkey, hother, ih]

/-- **A key is answered with the first word of what its last line says.** -/
theorem word?_eq (key : String) (text : List Char) :
    word? key text = (lastValue? key (lines text)).bind firstWord? := by
  have hword : firstWord? ∘ dropReturn = firstWord? := funext firstWord?_dropReturn
  obtain ⟨first, last, hpieces⟩ : ∃ first last, text.splitOn '\n' = first ++ [last] :=
    (List.eq_nil_or_concat' _).resolve_left (List.splitOn_ne_nil '\n' text)
  have hlast : lastValue? key ([last].filter (!·.isEmpty)) = lastValue? key [last] := by
    cases last <;> rfl
  have hpiece : word? key text = (lastValue? key (first ++ [last])).bind firstWord? := by
    rw [word?, entries, hpieces, ← List.filterMap_reverse, lookup_filterMap_cutAt?, lastValue?]
  rw [hpiece, lines, hpieces, List.dropLast_concat, List.getLast?_concat, Option.toList_some,
    lastValue?_append, lastValue?_append, hlast, lastValue?_map_dropReturn]
  -- the last line has no newline behind it, and keeps its carriage return
  cases lastValue? key [last] with
  | some value => rfl
  | none => rw [Option.none_or, Option.none_or, Option.bind_map, hword]

/-- What is known of a key after all lines of a text. -/
theorem foldl_overwrite_none {α : Type} (key : String) (read : List Char → Option α)
    (text : List Char) :
    (lines text).foldl (overwrite key read) none = (word? key text).bind read := by
  rw [foldl_overwrite, word?_eq]
  cases lastValue? key (lines text) <;> rfl

/-- **A status file can be read line by line**, each line overwriting what was known of its key. -/
theorem parse_eq_foldl (text : List Char) :
    parse text = ((lines text).foldl Fields.read {}).status := by
  rw [foldl_read]
  simp only [foldl_overwrite_none]
  rfl

section Key

variable {α : Type} {key : String} (hkey : ':' ∉ key.toList) {read : List Char → Option α}
  {text : List Char} {a : α}

include hkey

/-- **What is known of a key** is what the word behind its last line can be read as. -/
theorem gives_iff : (word? key text).bind read = some a ↔ Gives key read text a := by
  rw [word?_eq, Option.bind_assoc]
  simp only [Option.bind_eq_some_iff, lastValue?_lines_eq_some_iff hkey, Gives, exists_and_left]

theorem isSome_gives_iff : ((word? key text).bind read).isSome ↔ ∃ a, Gives key read text a := by
  rw [Option.isSome_iff_exists]
  exact exists_congr fun a => gives_iff hkey

/-- A line that cannot be read overrides the earlier ones all the same. -/
theorem LastLine.bind_word?_eq {value : List Char} (h : LastLine key text value) :
    (word? key text).bind read = (firstWord? value).bind read := by
  rw [word?_eq, (lastValue?_lines_eq_some_iff hkey).mpr h]
  rfl

/-- The last line of a key is the same in two texts if what it says is. -/
theorem lastLine_congr_iff {other : List Char} :
    (∀ value, LastLine key text value ↔ LastLine key other value) ↔
      lastValue? key (lines text) = lastValue? key (lines other) := by
  simp only [← lastValue?_lines_eq_some_iff hkey]
  exact Option.ext_iff.symm

end Key

/-- The keys that a status file is read for. -/
def keys : List String := ["Pid", "Tgid", "Uid", "Gid"]

theorem colon_notMem_of_mem_keys : ∀ key ∈ keys, ':' ∉ key.toList := by decide

/-- Whether two texts have the same last lines of those keys, whatever else is in them. -/
def SameLastLines (text other : List Char) : Prop :=
  ∀ key ∈ keys, ∀ value, LastLine key text value ↔ LastLine key other value

theorem sameLastLines_iff {text other : List Char} :
    SameLastLines text other ↔
      ∀ key ∈ keys, lastValue? key (lines text) = lastValue? key (lines other) :=
  forall₂_congr fun key hmem => lastLine_congr_iff (colon_notMem_of_mem_keys key hmem)

instance (text other : List Char) : Decidable (SameLastLines text other) :=
  decidable_of_iff _ sameLastLines_iff.symm

/-- **Four lines decide** what a status file says. -/
theorem SameLastLines.parse_eq {text other : List Char} (h : SameLastLines text other) :
    parse text = parse other := by
  have hword : ∀ key ∈ keys, word? key text = word? key other := fun key hmem => by
    rw [word?_eq, word?_eq, sameLastLines_iff.mp h key hmem]
  rw [parse, parse, hword "Pid" (by decide), hword "Tgid" (by decide), hword "Uid" (by decide),
    hword "Gid" (by decide)]

/-- Credentials are never there by half. -/
theorem credentials_parse_eq_some_iff {text : List Char} {credentials : Credentials} :
    (parse text).credentials = some credentials ↔
      Gives "Uid" Numeral.uint32? text credentials.uid ∧
        Gives "Gid" Numeral.uint32? text credentials.gid := by
  rw [← gives_iff (by decide), ← gives_iff (by decide)]
  constructor
  · intro h
    obtain ⟨uid, huid, h⟩ := Option.bind_eq_some_iff.mp h
    obtain ⟨gid, hgid, h⟩ := Option.bind_eq_some_iff.mp h
    obtain rfl := Option.some.inj h
    exact ⟨huid, hgid⟩
  · rintro ⟨huid, hgid⟩
    simp [parse, huid, hgid]

theorem isSome_credentials_parse_iff {text : List Char} :
    (parse text).credentials.isSome ↔
      (∃ uid, Gives "Uid" Numeral.uint32? text uid) ∧
        ∃ gid, Gives "Gid" Numeral.uint32? text gid := by
  rw [Option.isSome_iff_exists]
  constructor
  · rintro ⟨credentials, h⟩
    obtain ⟨huid, hgid⟩ := credentials_parse_eq_some_iff.mp h
    exact ⟨⟨_, huid⟩, _, hgid⟩
  · rintro ⟨⟨uid, huid⟩, gid, hgid⟩
    exact ⟨⟨uid, gid⟩, credentials_parse_eq_some_iff.mpr ⟨huid, hgid⟩⟩

end Status

/-! ## Threads -/

namespace ProcView

/-- The same table, but for the contents of one status file. -/
def withStatus (proc : ProcView) (pid tid : Int32) (text : List Char) : ProcView :=
  { proc with read? := Function.update proc.read? (statusPath pid tid) (some (encode text)) }

variable {proc : ProcView} {pid tid : Int32} {text : List Char}

/-- A thread is found exactly if its status file names both its ids, and is what the file says. -/
theorem task?_of_text (h : proc.read? (statusPath pid tid) = some (encode text)) :
    ((proc.task? pid tid).isSome ↔
      (Status.parse text).pid.isSome ∧ (Status.parse text).tgid.isSome) ∧
    ∀ task ∈ proc.task? pid tid,
      Status.parse text = ⟨some task.pid, some task.tgid, task.credentials⟩ := by
  have hnone (hmissing : (Status.parse text).pid = none ∨ (Status.parse text).tgid = none) :
      proc.task? pid tid = none := by
    rw [task?_eq_none_iff, h]
    rintro _ ⟨⟩
    rw [lossy_encode]
    exact Or.inr hmissing
  rcases hparse : Status.parse text with ⟨_ | id, _ | tgid, credentials⟩
  · simp [hnone (by simp [hparse])]
  · simp [hnone (by simp [hparse])]
  · simp [hnone (by simp [hparse])]
  · obtain ⟨task, htask, hid, htgid, hcredentials⟩ := task?_of_status h (isText_encode text)
      ((congrArg Status.parse (lossy_encode text)).trans hparse)
    simp [htask, hid, htgid, hcredentials]

/-- A thread stays what it is as long as its status file says the same. -/
theorem task?_withStatus (h : proc.read? (statusPath pid tid) = some (encode text))
    {other : List Char} (hparse : Status.parse other = Status.parse text) :
    (proc.withStatus pid tid other).task? pid tid = proc.task? pid tid := by
  have hother : (proc.withStatus pid tid other).read? (statusPath pid tid) =
      some (encode other) := Function.update_self ..
  have hkept {path : NamePath} (hpath : path ≠ statusPath pid tid) :
      (proc.withStatus pid tid other).read? path = proc.read? path :=
    Function.update_of_ne hpath ..
  have hcomm : [idText pid, utf8 "task", idText tid, utf8 "comm"] ≠ statusPath pid tid := by
    have hne : utf8 "comm" ≠ utf8 "status" := by decide
    simp [statusPath, hne]
  have hhost : below pid ["root", "etc", "hostname"] ≠ statusPath pid tid := by
    have hne : utf8 "root" ≠ utf8 "task" := by decide
    simp [statusPath, below, hne]
  have hexe : (proc.withStatus pid tid other).exe? pid = proc.exe? pid := rfl
  have hnode : (proc.withStatus pid tid other).nodeName? pid = proc.nodeName? pid := by
    simp only [nodeName?, nodeName?.fromFile, hkept hhost]
    rfl
  simp only [statusPath] at h hother
  simp only [task?, List.cons_append, List.nil_append, h, hother, hkept hcomm, hexe, hnode,
    Option.bind_eq_bind, Option.bind_some, decode?_encode, hparse]

/-- **A thread's ids and credentials depend on four lines of its status file**, the last one of
each key.  Read the file line by line, each line overwriting what was known of its key.  The thread
is there exactly if the last lines for its two ids begin with a number that fits, and has
credentials exactly if those for the user and the group do.  So it makes no difference which other
lines there are, or in which order; and a last line that cannot be read hides what the earlier ones
said. -/
theorem task?_of_lastLines (h : proc.read? (statusPath pid tid) = some (encode text)) :
    Status.parse text = ((Status.lines text).foldl Status.Fields.read {}).status ∧
    ((proc.task? pid tid).isSome ↔
      (∃ id, Status.Gives "Pid" Numeral.int32? text id) ∧
        ∃ tgid, Status.Gives "Tgid" Numeral.int32? text tgid) ∧
    (∀ task ∈ proc.task? pid tid,
      Status.Gives "Pid" Numeral.int32? text task.pid ∧
      Status.Gives "Tgid" Numeral.int32? text task.tgid ∧
      (task.credentials.isSome ↔
        (∃ uid, Status.Gives "Uid" Numeral.uint32? text uid) ∧
          ∃ gid, Status.Gives "Gid" Numeral.uint32? text gid) ∧
      ∀ credentials ∈ task.credentials,
        Status.Gives "Uid" Numeral.uint32? text credentials.uid ∧
          Status.Gives "Gid" Numeral.uint32? text credentials.gid) ∧
    (∀ other, Status.SameLastLines text other →
      (proc.withStatus pid tid other).task? pid tid = proc.task? pid tid) ∧
    (∀ value, Status.LastLine "Pid" text value ∨ Status.LastLine "Tgid" text value →
      (firstWord? value).bind Numeral.int32? = none → proc.task? pid tid = none) ∧
    ∀ value, Status.LastLine "Uid" text value ∨ Status.LastLine "Gid" text value →
      (firstWord? value).bind Numeral.uint32? = none →
        ∀ task ∈ proc.task? pid tid, task.credentials = none := by
  obtain ⟨hfound, hknown⟩ := task?_of_text h
  refine ⟨Status.parse_eq_foldl text, ?_, ?_, ?_, ?_, ?_⟩
  · rw [hfound, ← Status.isSome_gives_iff (by decide), ← Status.isSome_gives_iff (by decide)]
    rfl
  · intro task htask
    have hparse := hknown task htask
    have hcredentials : (Status.parse text).credentials = task.credentials := by rw [hparse]
    refine ⟨(Status.gives_iff (by decide)).mp (congrArg Status.pid hparse),
      (Status.gives_iff (by decide)).mp (congrArg Status.tgid hparse), ?_, ?_⟩
    · rw [← hcredentials]
      exact Status.isSome_credentials_parse_iff
    · intro credentials hmem
      exact Status.credentials_parse_eq_some_iff.mp (hcredentials.trans hmem)
  · intro other hother
    exact task?_withStatus h hother.parse_eq.symm
  · intro value hlast hunread
    rw [← Option.not_isSome_iff_eq_none, hfound]
    rintro ⟨hid, htgid⟩
    rcases hlast with hlast | hlast
    · have hnone := (hlast.bind_word?_eq (by decide)).trans hunread
      exact absurd hid (by simp [Status.parse, hnone])
    · have hnone := (hlast.bind_word?_eq (by decide)).trans hunread
      exact absurd htgid (by simp [Status.parse, hnone])
  · intro value hlast hunread task htask
    have hcredentials : (Status.parse text).credentials = task.credentials := by
      rw [hknown task htask]
    rw [← hcredentials]
    rcases hlast with hlast | hlast
    · have hnone := (hlast.bind_word?_eq (by decide)).trans hunread
      simp [Status.parse, hnone]
    · have hnone := (hlast.bind_word?_eq (by decide)).trans hunread
      simp [Status.parse, hnone]

/-- A status file that says most things twice: the second thread id overrides the first, the second
user id cannot be read, and the keys of two more lines only end or begin like one of the four. -/
def saidTwice : List Char :=
  "Pid:\t1\nPPid:\t7\nUid:\t5\nGid:\t6\nTgid:\t1\nPid:\t2 3\r\nUid:\tx\nPid x:\t4\nPid".toList

/-- The same last lines, in another order and without most of the rest. -/
def saidOnce : List Char := "Uid:\tx\nPid:\t2 3\nTgid:\t1\nGid:\t6\n".toList

/-- The thread of that file has the second id and no credentials, and so it has with the other
file. -/
theorem task?_of_lastLines_saidTwice :
    (showing (encode saidTwice)).read? (statusPath 1 1) = some (encode saidTwice) ∧
      Status.SameLastLines saidTwice saidOnce ∧
      ∃ task, (showing (encode saidTwice)).task? 1 1 = some task ∧ task.pid = 2 ∧
        task.credentials = none ∧
        ((showing (encode saidTwice)).withStatus 1 1 saidOnce).task? 1 1 = some task := by
  have hread : (showing (encode saidTwice)).read? (statusPath 1 1) = some (encode saidTwice) := by
    simp [showing]
  have hsame : Status.SameLastLines saidTwice saidOnce := by decide
  obtain ⟨-, hfound, hknown, hother, -, hhidden⟩ := task?_of_lastLines hread
  have hid : Status.Gives "Pid" Numeral.int32? saidTwice 2 :=
    (Status.gives_iff (by decide)).mp (by decide)
  have htgid : Status.Gives "Tgid" Numeral.int32? saidTwice 1 :=
    (Status.gives_iff (by decide)).mp (by decide)
  obtain ⟨task, htask⟩ := Option.isSome_iff_exists.mp (hfound.mpr ⟨⟨2, hid⟩, 1, htgid⟩)
  have hpid : some task.pid = some 2 := by
    rw [← (Status.gives_iff (by decide)).mpr (hknown task htask).1]
    exact (Status.gives_iff (by decide)).mpr hid
  have huser : Status.LastLine "Uid" saidTwice "\tx".toList :=
    (Status.lastValue?_lines_eq_some_iff (by decide)).mp (by decide)
  refine ⟨hread, hsame, task, htask, Option.some.inj hpid, ?_, (hother _ hsame).trans htask⟩
  exact hhidden _ (Or.inl huser) (by decide) task htask

end ProcView

end KernelTables
