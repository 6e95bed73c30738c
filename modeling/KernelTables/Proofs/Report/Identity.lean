import KernelTables.Proofs.Record.Columns
import KernelTables.Proofs.Report.Addition
import KernelTables.Proofs.Report.Hidden
import KernelTables.Proofs.Report.TaskHistory
import KernelTables.Proofs.Symbol.Splitting

/-!
# Whose line it is

Two reports without reuse have written one and the same line, for objects that they may have come
upon at any time and on any stream.  This file says in what the two objects agree.

* `Visit.Emits.of_effect` — the line that got through is the one that was composed;
* `TaskReporter.compose_after`, `FileReporter.compose_after` — and it was composed of nothing but the
  object itself (`TaskRecord.of`, `FileRecord.of`), whatever was visited before;
* `TaskReporter.columns_of_line` — **a task line** tells the numbers of its task, and its texts if no
  label stands in the command name;
* `FileReporter.record_of_line` — **a file line** does so as well, but no text is escaped, and
  `FileReporter.lineOfAnother` is a process that has the line of another;
* `SymbolReporter.symbol_of_entryLine` — **an entry line** tells its symbol, since no space gets from
  the table into a name (`Table.space_notMem_of_mem_yielded`).
-/

namespace KernelTables

open Progress

/-! ## Lines that get through -/

/-- Whether a visit reports its object, and by which lines. -/
structure Visit.Emits {σ : Type} (visit : Visit σ) (stream : Stream) (lines : List Bytes) : Prop where
  /-- The object is reported. -/
  result : visit.result = .ok .emitted
  /-- The lines have been added to the stream. -/
  text : visit.stream.text = stream.text ++ ofLines lines

/-- **What gets through is what the visit would have added anywhere**, also where the sink has room
for a limited number of bytes. -/
theorem Visit.Emits.of_effect {σ : Type} {visit : Stream → Visit σ} {effect : Effect σ}
    {stream : Stream} {lines : List Bytes} (h : (visit stream).Emits stream lines)
    (hcut : Cuttable .full visit)
    (heffect : ∀ stream : Stream, stream.sink.room = none → visit stream = effect.on stream) :
    effect.outcome = .emitted ∧ ofLines lines = ofLines effect.lines := by
  obtain ⟨-, houtcome, hgains⟩ := hcut.of_ok (Effect.adds heffect) h.result
  refine ⟨Except.ok.inj houtcome, ?_⟩
  have htext : stream.text ++ ofLines lines = stream.text ++ ofLines effect.lines :=
    h.text.symm.trans hgains.text
  exact List.append_cancel_left htext

/-- A line is known by the text that ends with it. -/
theorem ofLines_concat_inj (before : List Bytes) {line line' : Bytes} :
    ofLines (before ++ [line]) = ofLines (before ++ [line']) ↔ line = line' := by
  rw [ofLines_append, ofLines_append, List.append_cancel_left_eq]
  simp

/-- A process with a command name that runs an executable, and nothing else known of it. -/
def Task.running (comm exe : String) : Task where
  pid := 7
  tgid := 7
  comm := .ofBytes (utf8 comm)
  credentials := none
  exe := some { path := some (.ofBytes (utf8 exe)) }
  nodeName := none

/-! ## Task lines -/

/-- The record of a task, with nothing in it that is not the task's own. -/
def TaskRecord.of (task : Task) : TaskRecord where
  pid := task.pid
  tgid := task.tgid
  comm := task.comm.sanitized.contents
  exeInode := task.exe.bind (·.inode)
  uid := task.credentials.map (·.uid)
  gid := task.credentials.map (·.gid)
  exe := ((task.exe.bind (·.path)).getD .empty).sanitized.contents

namespace TaskReporter

/-- Without reuse a report composes its lines from the task alone. -/
theorem compose_after (format : TaskFormat) (history : List TaskVisit) (task : Task) :
    ((after format false history).compose task).2 =
      match format with
      | .basic => (TaskRecord.of task).basicText
      | .enriched => (TaskRecord.of task).enrichedText := by
  rw [after_eq]
  cases format with
  | basic => rfl
  | enriched =>
    simp only [compose_enriched, Bool.false_eq_true, if_false, KnownValues.or_empty]
    rfl

theorem eq_of_emits {reporter : TaskReporter} {task : Task} {stream : Stream} {line : Bytes}
    (h : (reporter.visit (some task) stream).Emits stream [line]) :
    line = (reporter.compose task).2 := by
  obtain ⟨houtcome, hlines⟩ := h.of_effect (reporter.cuttable_visit (some task))
    fun _ hroom => reporter.visit_of_unlimited (some task) hroom
  by_cases hleader : task.isLeader = true
  · rw [effect, if_pos hleader] at hlines
    exact (ofLines_concat_inj []).mp hlines
  · -- no other thread is reported
    rw [effect, if_neg hleader] at houtcome
    exact absurd houtcome (by simp)

theorem emits_compose (reporter : TaskReporter) (task : Task) (hleader : task.isLeader = true)
    (stream : Stream) (hroom : stream.sink.room = none) :
    (reporter.visit (some task) stream).Emits stream [(reporter.compose task).2] := by
  rw [reporter.visit_of_unlimited (some task) hroom, effect, if_pos hleader]
  exact ⟨rfl, stream.text_append _⟩

/-- **The numbers of a task line cannot be forged.**  Two leaders with the same line have the same
ids, and the same command name in the short layout; in the full layout they agree in every number,
also where it is not available, and in both texts if neither command name holds the label of the
other one. -/
theorem columns_of_line {format : TaskFormat} {history history' : List TaskVisit} {task task' : Task}
    {stream stream' : Stream} {line : Bytes}
    (h : ((after format false history).visit (some task) stream).Emits stream [line])
    (h' : ((after format false history').visit (some task') stream').Emits stream' [line]) :
    (TaskRecord.of task).pid = (TaskRecord.of task').pid ∧
      (TaskRecord.of task).tgid = (TaskRecord.of task').tgid ∧
      (format = .basic → (TaskRecord.of task).comm = (TaskRecord.of task').comm) ∧
      (format = .enriched →
        (TaskRecord.of task).exeInode = (TaskRecord.of task').exeInode ∧
          (TaskRecord.of task).uid = (TaskRecord.of task').uid ∧
          (TaskRecord.of task).gid = (TaskRecord.of task').gid ∧
          (¬utf8 " exe=" <:+: (TaskRecord.of task).comm →
            ¬utf8 " exe=" <:+: (TaskRecord.of task').comm →
              (TaskRecord.of task).comm = (TaskRecord.of task').comm ∧
                (TaskRecord.of task).exe = (TaskRecord.of task').exe)) := by
  have htext := (eq_of_emits h).symm.trans (eq_of_emits h')
  rw [compose_after, compose_after] at htext
  cases format with
  | basic =>
    obtain ⟨hpid, htgid, hcomm⟩ := TaskRecord.basicText_inj.mp htext
    exact ⟨hpid, htgid, fun _ => hcomm, fun hformat => absurd hformat (by decide)⟩
  | enriched =>
    obtain ⟨hpid, htgid, hinode, huid, hgid, htexts⟩ := TaskRecord.enrichedText_inj.mp htext
    refine ⟨hpid, htgid, fun hformat => absurd hformat (by decide), fun _ =>
      ⟨hinode, huid, hgid, fun hcomm hcomm' => ?_⟩⟩
    have hlabel : separator "exe" = utf8 " exe=" := by decide
    rcases TaskRecord.texts_cases htexts with heq | hextends
    · exact heq
    · exact (hlabel ▸ hextends.isInfix).elim (absurd · hcomm) (absurd · hcomm')

/-- Two command names that differ in what stood for an underscore have one line. -/
theorem columns_of_line_newline :
    ∃ line,
      ((after .enriched false []).visit (some (.running "a\nb" "/bin/a")) {}).Emits {} [line] ∧
      ((after .enriched false []).visit (some (.running "a_b" "/bin/a")) {}).Emits {} [line] ∧
      (TaskRecord.of (.running "a\nb" "/bin/a")).comm =
        (TaskRecord.of (.running "a_b" "/bin/a")).comm := by
  have h := (after .enriched false []).emits_compose (.running "a\nb" "/bin/a") rfl {} rfl
  have h' := (after .enriched false []).emits_compose (.running "a_b" "/bin/a") rfl {} rfl
  have hline : ((after .enriched false []).compose (.running "a\nb" "/bin/a")).2 =
      ((after .enriched false []).compose (.running "a_b" "/bin/a")).2 := by
    decide +kernel
  rw [← hline] at h'
  obtain ⟨-, -, -, hcolumns⟩ := columns_of_line h h'
  obtain ⟨-, -, -, htexts⟩ := hcolumns rfl
  exact ⟨_, h, h', (htexts (by decide +kernel) (by decide +kernel)).1⟩

end TaskReporter

/-! ## File lines -/

/-- The record of a descriptor, with nothing in it that is not of the descriptor and its process. -/
def FileRecord.of (task : Task) (file : OpenFile) : FileRecord where
  pid := task.pid
  tgid := task.tgid
  fd := file.fd
  inode := file.inode
  uid := task.credentials.map (·.uid)
  gid := task.credentials.map (·.gid)
  host := (task.nodeName.getD .empty).sanitized.contents
  path := (file.path.getD .empty).sanitized.contents
  comm := task.comm.sanitized.contents
  exe := ((task.exe.bind (·.path)).getD .empty).sanitized.contents

namespace FileReporter

/-- Without reuse a report composes its lines from the descriptor and its process alone. -/
theorem compose_after (history : List FileVisit) (task : Task) (file : OpenFile) :
    ((after false history).compose task file).2 = .of task file := by
  rw [after_eq, compose_carrying]
  simp [new, compose, FileScratch.fill, FileRecord.of]

/-- The column heads that go before the line of a visit. -/
def columnHeads (number : Nat) : List Bytes := if number = 0 then [FileRecord.header] else []

theorem eq_of_emits {reporter : FileReporter} {number : Nat} {task : Task} {file : OpenFile}
    {stream : Stream} {line : Bytes}
    (h : (reporter.visit number (some task) (some file) stream).Emits stream
      (columnHeads number ++ [line])) :
    line = (reporter.compose task file).2.text := by
  obtain ⟨-, hlines⟩ := h.of_effect (reporter.cuttable_visit number (some task) (some file))
    fun _ hroom => reporter.visit_of_unlimited number (some task) (some file) hroom
  exact (ofLines_concat_inj (columnHeads number)).mp hlines

theorem emits_compose (reporter : FileReporter) (number : Nat) (task : Task) (file : OpenFile)
    (stream : Stream) (hroom : stream.sink.room = none) :
    (reporter.visit number (some task) (some file) stream).Emits stream
      (columnHeads number ++ [(reporter.compose task file).2.text]) := by
  rw [reporter.visit_of_unlimited number (some task) (some file) hroom]
  exact ⟨rfl, stream.text_append _⟩

/-- **What a file line tells of its record**: every number, also where it is not available, and the
four texts as one.  Where the texts begin is not told if one of them goes on with the label of the
next, as in `lineOfAnother`; if none does, the line tells the whole record. -/
theorem record_of_line {history history' : List FileVisit} {number number' : Nat}
    {task task' : Task} {file file' : OpenFile} {stream stream' : Stream} {line : Bytes}
    (h : ((after false history).visit number (some task) (some file) stream).Emits stream
      (columnHeads number ++ [line]))
    (h' : ((after false history').visit number' (some task') (some file') stream').Emits stream'
      (columnHeads number' ++ [line])) :
    (FileRecord.of task file).SameNumbers (.of task' file') ∧
      (FileRecord.of task file).texts = (FileRecord.of task' file').texts ∧
      (FileRecord.of task file = .of task' file' ∨
        (FileRecord.of task file).Confusable (.of task' file')) ∧
      ((FileRecord.of task file).Separated → (FileRecord.of task' file').Separated →
        FileRecord.of task file = .of task' file') := by
  have htext := (eq_of_emits h).symm.trans (eq_of_emits h')
  rw [compose_after, compose_after] at htext
  obtain ⟨hnumbers, htexts⟩ := FileRecord.text_inj.mp htext
  have hcases := hnumbers.eq_or_confusable htexts
  refine ⟨hnumbers, htexts, hcases, fun hseparated hseparated' => ?_⟩
  exact hcases.resolve_right (hseparated.not_confusable hseparated')

/-- Descriptor 3, and nothing else known of it. -/
def bareFile : OpenFile := ⟨3, none, none⟩

/-- A newline in a command name does not keep a line from telling its record. -/
theorem record_of_line_newline :
    ∃ line,
      ((after false []).visit 1 (some (.running "a\nb" "/bin/a")) (some bareFile) {}).Emits {}
        [line] ∧
      ((after false []).visit 1 (some (.running "a_b" "/bin/a")) (some bareFile) {}).Emits {}
        [line] ∧
      FileRecord.of (.running "a\nb" "/bin/a") bareFile =
        .of (.running "a_b" "/bin/a") bareFile := by
  have h := (after false []).emits_compose 1 (.running "a\nb" "/bin/a") bareFile {} rfl
  have h' := (after false []).emits_compose 1 (.running "a_b" "/bin/a") bareFile {} rfl
  have hline : ((after false []).compose (.running "a\nb" "/bin/a") bareFile).2.text =
      ((after false []).compose (.running "a_b" "/bin/a") bareFile).2.text := by
    decide +kernel
  rw [← hline] at h'
  obtain ⟨-, -, -, hseparated⟩ := record_of_line h h'
  refine ⟨_, h, h', hseparated ⟨?_, ?_, ?_⟩ ⟨?_, ?_, ?_⟩⟩ <;> decide +kernel

/-- **A process with the line of another.**  Its command name begins like the other's and goes on
with an executable of its choice, and what it runs has a path that the line needs behind it. -/
theorem lineOfAnother :
    ∃ line,
      ((after false []).visit 1 (some (.running "sh exe=/bin/su" "/a")) (some bareFile) {}).Emits
        {} [line] ∧
      ((after false []).visit 1 (some (.running "sh" "/bin/su exe=/a")) (some bareFile) {}).Emits
        {} [line] ∧
      FileRecord.of (.running "sh exe=/bin/su" "/a") bareFile ≠
        .of (.running "sh" "/bin/su exe=/a") bareFile := by
  have h := (after false []).emits_compose 1 (.running "sh exe=/bin/su" "/a") bareFile {} rfl
  have h' := (after false []).emits_compose 1 (.running "sh" "/bin/su exe=/a") bareFile {} rfl
  have hline : ((after false []).compose (.running "sh exe=/bin/su" "/a") bareFile).2.text =
      ((after false []).compose (.running "sh" "/bin/su exe=/a") bareFile).2.text := by
    decide +kernel
  rw [← hline] at h'
  exact ⟨_, h, h', by decide +kernel⟩

end FileReporter

/-! ## Symbol lines -/

theorem count_newline_ofLines (lines : List Bytes) :
    (ofLines lines).count newline = lines.length + lines.flatten.count newline := by
  induction lines with
  | nil => rfl
  | cons line lines ih =>
    rw [ofLines_cons, List.count_append, List.count_cons_self, ih, List.flatten_cons,
      List.count_append, List.length_cons]
    omega

/-- A text that was written as lines without a newline in them is not made of as many other
lines. -/
theorem eq_of_ofLines_eq {lines plain : List Bytes} (hplain : ∀ line ∈ plain, newline ∉ line)
    (hlength : lines.length = plain.length) (h : ofLines lines = ofLines plain) : lines = plain := by
  have hnone : plain.flatten.count newline = 0 := by
    rw [List.count_eq_zero, List.mem_flatten]
    rintro ⟨line, hline, hnewline⟩
    exact hplain line hline hnewline
  have hcount := congrArg (List.count newline) h
  rw [count_newline_ofLines, count_newline_ofLines, hlength, hnone, Nat.add_left_cancel_iff,
    List.count_eq_zero] at hcount
  have hlines : ∀ line ∈ lines, newline ∉ line := fun line hline hnewline =>
    hcount (List.mem_flatten.mpr ⟨line, hline, hnewline⟩)
  rw [← (endedLines_ofLines_append hlines List.not_mem_nil).1,
    ← (endedLines_ofLines_append hplain List.not_mem_nil).1, h]

/-- The columns in front of the module hold no space. -/
theorem Table.space_notMem_of_mem_yielded {table : Table} {symbol : Symbol}
    (h : symbol ∈ table.yielded) : symbol.code ≠ space ∧ space ∉ symbol.name.contents := by
  obtain ⟨entry, hentry, cursor, rfl⟩ := exists_entry_of_mem_yielded h
  obtain ⟨line, -, hparse⟩ := exists_line_of_mem_entries hentry
  refine ⟨TableEntry.code_ne_of_isBlank hparse space_lt (by decide), fun hname => ?_⟩
  have hname := (mem_encode_iff space_lt _).mp (Field.mem_of_mem_contents_ofBytes hname)
  exact absurd (TableEntry.isBlank_of_mem_name hparse _ hname) (by decide)

namespace SymbolReporter

/-- The second of the two lines of a symbol is its own, whatever the report has seen before. -/
theorem eq_of_emits {reporter : SymbolReporter} {number : Nat} {symbol : Symbol} {stream : Stream}
    {delta entry : Bytes} (hplain : symbol.Plain)
    (h : (reporter.visit number (some symbol) stream).Emits stream [delta, entry]) :
    entry = symbol.entryLine := by
  obtain ⟨houtcome, hlines⟩ := h.of_effect (reporter.cuttable_visit number (some symbol))
    fun _ hroom => reporter.visit_eq_visitEffect (number, symbol) hroom
  have hnumber : number ≠ 0 := by
    -- the first visit is for the column heads
    rintro rfl
    exact absurd houtcome (by simp [visitEffect])
  rw [visitEffect, linesOf, if_neg hnumber] at hlines
  have hplain : ∀ line ∈ [(deltaLine reporter.lastValue symbol).text, symbol.entryLine],
      newline ∉ line := by
    simp only [List.forall_mem_cons, List.not_mem_nil, false_implies, implies_true, and_true]
    exact ⟨AddressDelta.newline_notMem_text _, hplain.newline_notMem_entryLine⟩
  have heq : [delta, entry] = [(deltaLine reporter.lastValue symbol).text, symbol.entryLine] :=
    eq_of_ofLines_eq hplain rfl hlines
  exact (List.cons.inj (List.cons.inj heq).2).1

theorem emits_entryLine (reporter : SymbolReporter) (number : Nat) (hnumber : number ≠ 0)
    (symbol : Symbol) (stream : Stream) (hroom : stream.sink.room = none) :
    (reporter.visit number (some symbol) stream).Emits stream
      [(reporter.compose symbol).2.deltaText, symbol.entryLine] := by
  rw [reporter.visit_of_unlimited hnumber symbol hroom]
  exact ⟨rfl, stream.text_append _⟩

/-- **An entry line tells its symbol**, whatever the name of its module is made of: the address as it
is shown, the type letter, the name, the section, and the module, where a module of the name `none`
is not told from none. -/
theorem symbol_of_entryLine {table table' : Table} {symbol symbol' : Symbol}
    (hsymbol : .ok symbol ∈ table.symbols) (hsymbol' : .ok symbol' ∈ table'.symbols)
    {reporter reporter' : SymbolReporter} {number number' : Nat} {stream stream' : Stream}
    {delta delta' entry : Bytes}
    (h : (reporter.visit number (some symbol) stream).Emits stream [delta, entry])
    (h' : (reporter'.visit number' (some symbol') stream').Emits stream' [delta', entry]) :
    symbol.shownValue = symbol'.shownValue ∧ symbol.code = symbol'.code ∧
      symbol.name.contents = symbol'.name.contents ∧ symbol.kind = symbol'.kind ∧
      (symbol.moduleName.contents = symbol'.moduleName.contents ∨
        symbol.moduleName.contents ∈ [[], utf8 "none"] ∧
          symbol'.moduleName.contents ∈ [[], utf8 "none"]) := by
  have hyielded : symbol ∈ table.yielded := List.mem_filterMap.mpr ⟨_, hsymbol, rfl⟩
  have hyielded' : symbol' ∈ table'.yielded := List.mem_filterMap.mpr ⟨_, hsymbol', rfl⟩
  have htext := (eq_of_emits (Table.plain_of_mem_yielded hyielded) h).symm.trans
    (eq_of_emits (Table.plain_of_mem_yielded hyielded') h')
  obtain ⟨hcode, hname⟩ := Table.space_notMem_of_mem_yielded hyielded
  obtain ⟨hcode', hname'⟩ := Table.space_notMem_of_mem_yielded hyielded'
  obtain ⟨hvalue, hcodes, hnames, hmodules, hkinds⟩ :=
    SymbolRecord.eq_of_entryText_eq hcode hname hcode' hname' htext
  exact ⟨hvalue, hcodes, hnames, hkinds, SymbolRecord.moduleName_of_shownModule_eq hmodules⟩

/-- A symbol of the core kernel. -/
def bareSymbol : Symbol := ⟨0x1000, true, 0x54, .ofBytes (utf8 "a"), .empty, {}⟩

/-- The same symbol in a module with the name that stands for none. -/
def noneSymbol : Symbol := { bareSymbol with moduleName := .ofBytes (utf8 "none") }

/-- Two tables with the same entry line. -/
theorem symbol_of_entryLine_none :
    .ok bareSymbol ∈ Table.symbols [.data (utf8 "1000 T a\n")] ∧
      .ok noneSymbol ∈ Table.symbols [.data (utf8 "1000 T a\t[none]\n")] ∧
      (∃ entry, (visit {} 1 (some bareSymbol) {}).Emits {} [[], entry] ∧
        (visit {} 2 (some noneSymbol) {}).Emits {} [[], entry]) ∧
      (bareSymbol.moduleName.contents = noneSymbol.moduleName.contents ∨
        bareSymbol.moduleName.contents ∈ [[], utf8 "none"] ∧
          noneSymbol.moduleName.contents ∈ [[], utf8 "none"]) := by
  have hbare : .ok bareSymbol ∈ Table.symbols [.data (utf8 "1000 T a\n")] := by decide +kernel
  have hnone : .ok noneSymbol ∈ Table.symbols [.data (utf8 "1000 T a\t[none]\n")] := by
    decide +kernel
  have h := emits_entryLine {} 1 (by decide) bareSymbol {} rfl
  have h' := emits_entryLine {} 2 (by decide) noneSymbol {} rfl
  have hline : bareSymbol.entryLine = noneSymbol.entryLine := by decide +kernel
  rw [← hline] at h'
  obtain ⟨-, -, -, -, hmodule⟩ := symbol_of_entryLine hbare hnone h h'
  exact ⟨hbare, hnone, ⟨_, h, h'⟩, hmodule⟩

end SymbolReporter

end KernelTables
