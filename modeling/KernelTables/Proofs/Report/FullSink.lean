import KernelTables.Proofs.Stream
import KernelTables.Report.Run

/-!
# A full sink cuts a report short, and does nothing else

A sink with room for `n` bytes takes the first `n` bytes of what it is given and then fails.  This
file compares what a report does on such a sink with what it does on one that takes everything.

* `writeLine_limit` — **one line**: it is written whole, or cut where the room ends, which may be
  right before its newline;
* `CutAt.andThen` — **one step after another**: as long as the first is not cut, the second finds
  the same stream with what room is left, and where the first is cut there is no second;
* `Cuttable.visitAll` — any number of steps;
* `runs_cutsAt` — the three reports, on every table and from every state: the text is cut behind `n`
  bytes, and the result is the same unless something was cut off.
-/

namespace KernelTables

/-! ## Limits -/

namespace Stream

@[simp] theorem text_limit (stream : Stream) (room : Option Nat) :
    (stream.limit room).text = stream.text := rfl

@[simp] theorem room_limit (stream : Stream) (room : Option Nat) :
    (stream.limit room).sink.room = room := rfl

@[simp] theorem limit_limit (stream : Stream) (first second : Option Nat) :
    (stream.limit first).limit second = stream.limit second := rfl

/-- **A line on a sink with limited room** is written whole if there is room for it and its newline.
Otherwise the sink takes what fits and refuses the rest. -/
theorem writeLine_limit (stream : Stream) (bytes : Bytes) (n : Nat) :
    if bytes.length + 1 ≤ n then
      (stream.limit (some n)).writeLine bytes =
        ((stream.append [bytes]).limit (some (n - (bytes.length + 1))), .ok ())
    else
      ((stream.limit (some n)).writeLine bytes).1.text =
          stream.text ++ (bytes ++ [newline]).take n ∧
        ((stream.limit (some n)).writeLine bytes).2 = .error .full := by
  obtain ⟨⟨taken, room⟩, lines, truncated⟩ := stream
  by_cases hline : bytes.length + 1 ≤ n
  · have hbytes : bytes.length ≤ n := by omega
    have hnewline : 1 ≤ n - bytes.length := by omega
    have htaken : (taken ++ bytes) ++ [newline] = taken ++ ofLines [bytes] := Array.ext' (by simp)
    have hnext : List.take (n - bytes.length) [newline] = [newline] :=
      List.take_of_length_le hnewline
    rw [if_pos hline]
    simp only [limit, writeLine, Sink.write, if_pos hbytes, List.length_singleton, if_pos hnewline,
      List.take_of_length_le hbytes, hnext, htaken, append, Nat.sub_sub]
  · rw [if_neg hline]
    by_cases hbytes : bytes.length ≤ n
    · -- the room ends between the line and its newline
      obtain rfl : bytes.length = n := by omega
      simp [limit, writeLine, Sink.write, text, Sink.text]
    · have htake : (bytes ++ [newline]).take n = bytes.take n :=
        List.take_append_of_le_length (by omega)
      simp [limit, writeLine, Sink.write, text, Sink.text, hbytes, htake]

end Stream

/-! ## Steps that a full sink cuts -/

namespace Progress

variable {σ ε α β : Type}

/-- What a step comes to where there is room for `n` bytes only, against the same step without
limit, which adds `added` to the text `before`. -/
structure CutAt (refusal : ε) (before added : Bytes) (n : Nat) (full limited : Progress σ ε α) :
    Prop where
  /-- With room enough, the two differ in nothing but the room that is left. -/
  whole : added.length ≤ n →
    limited = ⟨full.reporter, full.stream.limit (some (n - added.length)), full.result⟩
  /-- Otherwise the text is cut where the room ends, and the step fails. -/
  cut : n < added.length →
    limited.stream.text = before ++ added.take n ∧ limited.result = .error refusal

/-- A step that does nothing but add to the text, and that is cut where the room ends. -/
def Cuttable (refusal : ε) (step : Stream → Progress σ ε α) : Prop :=
  ∀ stream : Stream, stream.sink.room = none → ∃ added,
    (step stream).stream.text = stream.text ++ added ∧
    (step stream).stream.sink.room = none ∧
    ∀ n, CutAt refusal stream.text added n (step stream) (step (stream.limit (some n)))

/-- A step and the one that follows it unless it fails. -/
def andThen (first : Progress σ ε α) (next : σ → α → Stream → Progress σ ε β) : Progress σ ε β :=
  match first with
  | ⟨reporter, stream, .error e⟩ => ⟨reporter, stream, .error e⟩
  | ⟨reporter, stream, .ok value⟩ => next reporter value stream

theorem andThen_of_error {first : Progress σ ε α} {e : ε} (h : first.result = .error e)
    (next : σ → α → Stream → Progress σ ε β) :
    first.andThen next = ⟨first.reporter, first.stream, .error e⟩ := by
  obtain ⟨reporter, stream, result⟩ := first
  subst h
  rfl

/-- A step that leaves the stream alone. -/
theorem Cuttable.idle (refusal : ε) (reporter : σ) (result : Except ε α) :
    Cuttable refusal fun stream => (⟨reporter, stream, result⟩ : Progress σ ε α) := by
  intro stream hroom
  refine ⟨[], by simp, hroom, fun n => ⟨fun _ => rfl, fun hover => ?_⟩⟩
  exact absurd hover (Nat.not_lt_zero n)

/-- The same step with another view of its result. -/
theorem CutAt.mapResult {refusal : ε} {before added : Bytes} {n : Nat}
    {full limited : Progress σ ε α} {ε' α' : Type} {refusal' : ε'}
    {f : Except ε α → Except ε' α'} (hf : f (.error refusal) = .error refusal')
    (h : CutAt refusal before added n full limited) :
    CutAt refusal' before added n (⟨full.reporter, full.stream, f full.result⟩ : Progress σ ε' α')
      ⟨limited.reporter, limited.stream, f limited.result⟩ := by
  refine ⟨fun hfits => ?_, fun hover => ?_⟩
  · rw [h.whole hfits]
  · obtain ⟨hlimited, hresult⟩ := h.cut hover
    rw [hresult, hf]
    exact ⟨hlimited, rfl⟩

theorem Cuttable.mapResult {step : Stream → Progress σ ε α} {refusal : ε} {ε' α' : Type}
    {refusal' : ε'} {f : Except ε α → Except ε' α'} (hf : f (.error refusal) = .error refusal')
    (h : Cuttable refusal step) :
    Cuttable refusal' fun stream =>
      (⟨(step stream).reporter, (step stream).stream, f (step stream).result⟩ :
        Progress σ ε' α') := by
  intro stream hroom
  obtain ⟨added, htext, hafter, hcut⟩ := h stream hroom
  exact ⟨added, htext, hafter, fun n => (hcut n).mapResult hf⟩

/-- **Two steps in a row.**  Either of them may be the one that is cut. -/
theorem CutAt.andThen {refusal₁ refusal₂ : ε} {first : Progress σ ε α}
    {limited : Nat → Progress σ ε α} {next : σ → α → Stream → Progress σ ε β}
    {before added : Bytes} (htext : first.stream.text = before ++ added)
    (hroom : first.stream.sink.room = none)
    (hfirst : ∀ n, CutAt refusal₁ before added n first (limited n))
    (hnext : ∀ reporter value, Cuttable refusal₂ (next reporter value)) :
    ∃ more, (first.andThen next).stream.text = before ++ (added ++ more) ∧
      (first.andThen next).stream.sink.room = none ∧
      ∀ n, CutAt (if n < added.length then refusal₁ else refusal₂) before (added ++ more) n
        (first.andThen next) ((limited n).andThen next) := by
  obtain ⟨reporter, stream, e | value⟩ := first
  · -- the first step fails by itself, and there is no second
    refine ⟨[], ?_, hroom, fun n => ⟨fun hfits => ?_, fun hover => ?_⟩⟩
    · rw [List.append_nil]
      exact htext
    · rw [List.append_nil] at hfits ⊢
      rw [(hfirst n).whole hfits]
      rfl
    · rw [List.append_nil] at hover ⊢
      obtain ⟨hlimited, hresult⟩ := (hfirst n).cut hover
      rw [andThen_of_error hresult, if_pos hover]
      exact ⟨hlimited, rfl⟩
  · obtain ⟨more, hmore, hafter, hcut⟩ := hnext reporter value stream hroom
    refine ⟨more, ?_, hafter, fun n => ?_⟩
    · show (next reporter value stream).stream.text = before ++ (added ++ more)
      rw [hmore, htext, List.append_assoc]
    by_cases hfits : added.length ≤ n
    · -- the second step finds what room the first has left
      have hsecond := hcut (n - added.length)
      rw [(hfirst n).whole hfits, if_neg (Nat.not_lt.mpr hfits)]
      refine ⟨fun hall => ?_, fun hover => ?_⟩
      · rw [List.length_append] at hall
        have hwhole := hsecond.whole (by omega)
        rw [Nat.sub_sub, ← List.length_append] at hwhole
        exact hwhole
      · rw [List.length_append] at hover
        obtain ⟨hlimited, hresult⟩ := hsecond.cut (by omega)
        refine ⟨?_, hresult⟩
        have htake : (added ++ more).take n = added ++ more.take (n - added.length) := by
          rw [List.take_append, List.take_of_length_le hfits]
        rw [htake, ← List.append_assoc, ← htext]
        exact hlimited
    · have hover : n < added.length := Nat.lt_of_not_le hfits
      obtain ⟨hlimited, hresult⟩ := (hfirst n).cut hover
      rw [andThen_of_error hresult, if_pos hover]
      refine ⟨fun hall => ?_, fun _ => ⟨?_, rfl⟩⟩
      · rw [List.length_append] at hall
        omega
      · rw [List.take_append_of_le_length (Nat.le_of_lt hover)]
        exact hlimited

theorem Cuttable.andThen {refusal : ε} {step : Stream → Progress σ ε α}
    {next : σ → α → Stream → Progress σ ε β} (hstep : Cuttable refusal step)
    (hnext : ∀ reporter value, Cuttable refusal (next reporter value)) :
    Cuttable refusal fun stream => (step stream).andThen next := by
  intro stream hroom
  obtain ⟨added, htext, hafter, hcut⟩ := hstep stream hroom
  obtain ⟨more, htext', hafter', hcut'⟩ := CutAt.andThen htext hafter hcut hnext
  refine ⟨added ++ more, htext', hafter', fun n => ?_⟩
  have hn := hcut' n
  rwa [ite_self] at hn

/-! ## Lines -/

/-- Writing a line, as a step of a report. -/
def line (reporter : σ) (bytes : Bytes) (stream : Stream) : Progress σ SinkError Unit :=
  ⟨reporter, (stream.writeLine bytes).1, (stream.writeLine bytes).2⟩

theorem cutAt_line (reporter : σ) (bytes : Bytes) {stream : Stream}
    (hroom : stream.sink.room = none) (n : Nat) :
    CutAt .full stream.text (bytes ++ [newline]) n (line reporter bytes stream)
      (line reporter bytes (stream.limit (some n))) := by
  have hlimit := stream.writeLine_limit bytes n
  have hlength : (bytes ++ [newline]).length = bytes.length + 1 := by simp
  refine ⟨fun hfits => ?_, fun hover => ?_⟩
  · rw [hlength] at hfits ⊢
    rw [if_pos hfits] at hlimit
    simp only [line, hlimit, Stream.writeLine_of_unlimited hroom]
  · rw [hlength] at hover
    rw [if_neg (Nat.not_le.mpr hover)] at hlimit
    exact hlimit

theorem text_line (reporter : σ) (bytes : Bytes) {stream : Stream}
    (hroom : stream.sink.room = none) :
    (line reporter bytes stream).stream.text = stream.text ++ (bytes ++ [newline]) ∧
      (line reporter bytes stream).stream.sink.room = none := by
  rw [line, Stream.writeLine_of_unlimited hroom]
  exact ⟨by simp, hroom⟩

theorem Cuttable.line (reporter : σ) (bytes : Bytes) :
    Cuttable .full (Progress.line reporter bytes) := by
  intro stream hroom
  obtain ⟨htext, hafter⟩ := text_line reporter bytes hroom
  exact ⟨bytes ++ [newline], htext, hafter, cutAt_line reporter bytes hroom⟩

/-- Printing a composed line.  Whether it is counted as truncated does not depend on the room. -/
theorem Cuttable.print (reporter : σ) (composed : Line) :
    Cuttable SinkError.full fun stream =>
      (⟨reporter, (stream.print composed).1, (stream.print composed).2⟩ :
        Progress σ SinkError Unit) := by
  intro stream hroom
  exact Cuttable.line reporter composed.bytes
    { stream with truncated := stream.truncated + composed.truncated.toNat } hroom

theorem Cuttable.printing (reporter : σ) (text : Bytes) :
    Cuttable .full fun stream => Visit.printing reporter stream text :=
  (Cuttable.print reporter (Line.empty.push text)).mapResult
    (f := Except.map fun _ => Outcome.emitted) rfl

/-- A write that a step of a report begins with.  Where it is refused, the step fails with it. -/
theorem Cuttable.begin {write : Stream → Stream × Except SinkError Unit} {reporter : σ}
    {next : Stream → Progress σ SinkError β}
    (hwrite : Cuttable SinkError.full fun stream =>
      (⟨reporter, (write stream).1, (write stream).2⟩ : Progress σ SinkError Unit))
    (hnext : Cuttable .full next) :
    Cuttable SinkError.full fun stream =>
      match write stream with
      | (stream, .error e) => (⟨reporter, stream, .error e⟩ : Progress σ SinkError β)
      | (stream, .ok ()) => next stream := by
  have hsteps := hwrite.andThen fun _ _ => hnext
  convert hsteps using 2 with stream
  obtain ⟨stream, e | _⟩ := write stream <;> rfl

/-! ## Runs -/

theorem Cuttable.step {visit : Stream → Visit σ} (h : Cuttable .full visit) (what : Written) :
    Cuttable (.writing what .full) fun stream => Run.step what (visit stream) :=
  h.mapResult (f := Except.mapError (RunError.writing what)) rfl

theorem visitAll_cons {object : α} {objects : List α}
    (visit : σ → α → Stream → Progress σ RunError Outcome) (reporter : σ) (stream : Stream)
    (stats : Stats) :
    Run.visitAll visit reporter stream stats (object :: objects) =
      (visit reporter object stream).andThen fun reporter outcome stream =>
        Run.visitAll visit reporter stream (stats.tally outcome) objects := by
  rw [Run.visitAll]
  obtain ⟨reporter, stream, e | outcome⟩ := visit reporter object stream <;> rfl

/-- **A run is cut where its room ends**, if each of its steps is. -/
theorem Cuttable.visitAll {visit : σ → α → Stream → Progress σ RunError Outcome}
    {refusal : RunError} (h : ∀ reporter object, Cuttable refusal (visit reporter object))
    (reporter : σ) (stats : Stats) (objects : List α) :
    Cuttable refusal fun stream => Run.visitAll visit reporter stream stats objects := by
  induction objects generalizing reporter stats with
  | nil => exact Cuttable.idle refusal reporter (.ok stats)
  | cons object objects ih =>
    simp only [visitAll_cons]
    exact (h reporter object).andThen fun reporter outcome => ih reporter (stats.tally outcome)

end Progress

open Progress

/-! ## The three reports -/

theorem TaskReporter.cuttable_visit (reporter : TaskReporter) (task : Option Task) :
    Cuttable .full (reporter.visit task) := by
  cases task with
  | none => exact Cuttable.idle _ reporter (Except.ok Outcome.skipped)
  | some task =>
    by_cases hleader : task.isLeader = true
    · have hvisit : reporter.visit (some task) = fun stream =>
          .printing (reporter.compose task).1 stream (reporter.compose task).2 := by
        funext stream
        exact if_pos hleader
      rw [hvisit]
      exact Cuttable.printing _ _
    · have hvisit : reporter.visit (some task) = fun stream =>
          ⟨reporter, stream, .ok .skipped⟩ := by
        funext stream
        exact if_neg hleader
      rw [hvisit]
      exact Cuttable.idle _ reporter _

namespace FileReporter

/-- The column heads, if a visit writes them. -/
theorem cuttable_heads (reporter : FileReporter) (number : Nat) :
    Cuttable SinkError.full fun stream =>
      (⟨reporter,
        (if number = 0 then stream.writeLine FileRecord.header else (stream, .ok ())).1,
        (if number = 0 then stream.writeLine FileRecord.header else (stream, .ok ())).2⟩ :
        Progress FileReporter SinkError Unit) := by
  by_cases hnumber : number = 0
  · simp only [if_pos hnumber]
    exact Cuttable.line reporter FileRecord.header
  · simp only [if_neg hnumber]
    exact Cuttable.idle _ reporter _

theorem cuttable_visit (reporter : FileReporter) (number : Nat) (task : Option Task)
    (file : Option OpenFile) : Cuttable .full (reporter.visit number task file) := by
  refine Cuttable.begin (reporter.cuttable_heads number) ?_
  cases task with
  | none => exact Cuttable.idle _ reporter (Except.ok Outcome.skipped)
  | some task =>
    cases file with
    | none => exact Cuttable.idle _ reporter (Except.ok Outcome.skipped)
    | some file => exact Cuttable.printing _ _

end FileReporter

namespace SymbolReporter

theorem cuttable_visit (reporter : SymbolReporter) (number : Nat) (symbol : Option Symbol) :
    Cuttable .full (reporter.visit number symbol) := by
  by_cases hnumber : number = 0
  · have hvisit : reporter.visit number symbol = fun stream =>
        ⟨reporter, (stream.writeLine SymbolRecord.header).1,
          (stream.writeLine SymbolRecord.header).2.map fun _ => .headerOnly⟩ := by
      funext stream
      exact if_pos hnumber
    rw [hvisit]
    exact (Cuttable.line reporter SymbolRecord.header).mapResult
      (f := Except.map fun _ => Outcome.headerOnly) rfl
  · cases symbol with
    | none =>
      have hvisit : reporter.visit number none = fun stream =>
          ⟨reporter, stream, .ok .skipped⟩ := by
        funext stream
        exact if_neg hnumber
      rw [hvisit]
      exact Cuttable.idle _ reporter _
    | some symbol =>
      have hlines := Cuttable.begin
        (Cuttable.print (reporter.compose symbol).1
          (Line.empty.push (reporter.compose symbol).2.deltaText))
        (Cuttable.printing (reporter.compose symbol).1 (reporter.compose symbol).2.entryText)
      convert hlines using 1
      funext stream
      exact if_neg hnumber

theorem cuttable_visitEntry (reporter : SymbolReporter) (entry : Except String Symbol × Nat) :
    Cuttable (.writing .symbolRecord .full) (reporter.visitEntry entry) := by
  obtain ⟨message | symbol, number⟩ := entry
  · exact Cuttable.idle _ reporter (Except.error (RunError.readingSymbols message))
  · exact (reporter.cuttable_visit number (some symbol)).step .symbolRecord

end SymbolReporter

/-- Whether a run on a sink with room for `n` bytes writes the first `n` bytes of what it writes on
one that takes everything, and fails as `refusal n` says exactly if that is not all of them. -/
def Run.CutsAt {σ : Type} (run : Stream → Run σ) (refusal : Nat → RunError) : Prop :=
  ∀ (stream : Stream) (n : Nat), ∃ full : Bytes,
    (run (stream.limit none)).stream.text = stream.text ++ full ∧
    (run (stream.limit (some n))).stream.text = stream.text ++ full.take n ∧
    (run (stream.limit (some n))).result =
      if full.length ≤ n then (run (stream.limit none)).result else .error (refusal n)

theorem Progress.CutAt.shown {σ ε α : Type} {refusal : ε} {before full : Bytes} {n : Nat}
    {unlimited limited : Progress σ ε α} (h : CutAt refusal before full n unlimited limited)
    (htext : unlimited.stream.text = before ++ full) :
    limited.stream.text = before ++ full.take n ∧
      limited.result = if full.length ≤ n then unlimited.result else .error refusal := by
  by_cases hfits : full.length ≤ n
  · rw [h.whole hfits, if_pos hfits, List.take_of_length_le hfits]
    exact ⟨htext, rfl⟩
  · obtain ⟨hlimited, hresult⟩ := h.cut (Nat.lt_of_not_le hfits)
    rw [if_neg hfits]
    exact ⟨hlimited, hresult⟩

theorem Progress.Cuttable.cutsAt {σ : Type} {run : Stream → Run σ} {refusal : RunError}
    (h : Cuttable refusal run) : Run.CutsAt run fun _ => refusal := by
  intro stream n
  obtain ⟨full, htext, -, hcut⟩ := h (stream.limit none) rfl
  exact ⟨full, htext, (hcut n).shown htext⟩

theorem TaskReporter.cuttable_run (reporter : TaskReporter) (proc : ProcView) :
    Cuttable (.writing .taskRecord .full) (reporter.run proc) := by
  unfold run
  cases proc.pids? with
  | none => exact Cuttable.idle _ reporter (Except.error RunError.listing)
  | some pids =>
    exact Cuttable.visitAll (fun reporter task => (reporter.cuttable_visit task).step .taskRecord)
      reporter {} (proc.allTasks pids)

theorem FileReporter.cuttable_run (reporter : FileReporter) (proc : ProcView) :
    Cuttable (.writing .fileRecord .full) (reporter.run proc) := by
  unfold run
  cases proc.pids? with
  | none => exact Cuttable.idle _ reporter (Except.error RunError.listing)
  | some pids =>
    exact Cuttable.visitAll
      (fun reporter entry =>
        (reporter.cuttable_visit entry.2 entry.1.1 entry.1.2).step .fileRecord)
      reporter {} (proc.allFiles pids).zipIdx

namespace SymbolReporter

/-- The first step of a run, which writes the column heads. -/
def heads (reporter : SymbolReporter) (stream : Stream) :
    Progress SymbolReporter RunError Outcome :=
  Run.step .symbolHeader (reporter.reset.visit 0 none stream)

theorem text_heads (reporter : SymbolReporter) {stream : Stream}
    (hroom : stream.sink.room = none) :
    (reporter.heads stream).stream.text = stream.text ++ (SymbolRecord.header ++ [newline]) ∧
      (reporter.heads stream).stream.sink.room = none :=
  text_line reporter.reset SymbolRecord.header hroom

theorem cutAt_heads (reporter : SymbolReporter) {stream : Stream}
    (hroom : stream.sink.room = none) (n : Nat) :
    CutAt (.writing .symbolHeader .full) stream.text (SymbolRecord.header ++ [newline]) n
      (reporter.heads stream) (reporter.heads (stream.limit (some n))) :=
  (cutAt_line reporter.reset SymbolRecord.header hroom n).mapResult
    (f := fun result =>
      (result.map fun _ => Outcome.headerOnly).mapError (RunError.writing .symbolHeader)) rfl

theorem run_eq_andThen (reporter : SymbolReporter) (table : Table) (stream : Stream) :
    reporter.run table stream = (reporter.heads stream).andThen fun reporter outcome stream =>
      Run.visitAll visitEntry reporter stream (Stats.tally {} outcome)
        (table.symbols.zipIdx 1) := by
  rw [run, ← heads]
  obtain ⟨reporter, stream, e | outcome⟩ := reporter.heads stream <;> rfl

/-- A symbol report can be cut in its column heads or behind them. -/
theorem cutsAt_run (reporter : SymbolReporter) (table : Table) :
    Run.CutsAt (reporter.run table) fun n =>
      .writing (if n ≤ SymbolRecord.header.length then .symbolHeader else .symbolRecord) .full := by
  intro stream n
  obtain ⟨htext, hroom⟩ := reporter.text_heads (stream.room_limit none)
  obtain ⟨more, hfull, -, hcut⟩ := CutAt.andThen htext hroom
    (reporter.cutAt_heads (stream.room_limit none)) fun reporter outcome =>
      Cuttable.visitAll SymbolReporter.cuttable_visitEntry reporter (Stats.tally {} outcome)
        (table.symbols.zipIdx 1)
  have hwhere : (if n < (SymbolRecord.header ++ [newline]).length then
        RunError.writing .symbolHeader .full else .writing .symbolRecord .full) =
      .writing (if n ≤ SymbolRecord.header.length then .symbolHeader else .symbolRecord) .full := by
    rw [List.length_append, List.length_singleton]
    simp only [Nat.lt_succ_iff]
    split <;> rfl
  have hn := hcut n
  rw [hwhere] at hn
  simp only [run_eq_andThen]
  exact ⟨_, hfull, hn.shown hfull⟩

end SymbolReporter

/-- **A full sink cuts a report short and does nothing else.**  Take any of the three reports, in any
state, on any table, whether or not it can be read to its end.  On a sink that takes `n` bytes and
then fails it writes the first `n` bytes of what it writes on a sink that takes everything.  If these
are all of them, its result is the same; otherwise it fails with what it was writing when the sink
was full, which is the column heads of a symbol report only if it was cut inside these. -/
theorem runs_cutsAt :
    (∀ (reporter : TaskReporter) (proc : ProcView),
      Run.CutsAt (reporter.run proc) fun _ => .writing .taskRecord .full) ∧
    (∀ (reporter : FileReporter) (proc : ProcView),
      Run.CutsAt (reporter.run proc) fun _ => .writing .fileRecord .full) ∧
    ∀ (reporter : SymbolReporter) (table : Table),
      Run.CutsAt (reporter.run table) fun n =>
        .writing (if n ≤ SymbolRecord.header.length then .symbolHeader else .symbolRecord) .full := by
  refine ⟨?_, ?_, ?_⟩
  · intro reporter proc
    exact (reporter.cuttable_run proc).cutsAt
  · intro reporter proc
    exact (reporter.cuttable_run proc).cutsAt
  · intro reporter table
    exact reporter.cutsAt_run table

end KernelTables
