import KernelTables.Proofs.Report.File
import KernelTables.Proofs.Report.FullSink
import KernelTables.Proofs.Report.Symbol

/-!
# What a report adds, wherever it is written

On streams that take everything, a step of a report adds the same lines to each of them and comes to
the same result.  Where a sink is limited, a step can be cut; but if it succeeds, it has added these
very lines.

* `Progress.Adds` — the lines that a step adds, and its result; `Tidy` — a step that adds none where
  it fails;
* `Additive.andThen`, `Additive.visitAll` — steps in a row, and any number of them, some of which
  may fail;
* `Cuttable.of_ok` — **a step that succeeds has added all of its lines**, whatever its sink;
* `additive_run` — the three reports, on every table, also one that cannot be read to its end.
-/

namespace KernelTables

namespace Stream

/-- Whether a stream has taken certain lines since an earlier state, and counted them. -/
structure Gains (stream later : Stream) (lines : List Bytes) : Prop where
  /-- Its sink has taken the lines. -/
  text : later.text = stream.text ++ ofLines lines
  /-- It has counted them. -/
  count : later.lines = stream.lines + lines.length

variable {stream middle later : Stream} {first rest : List Bytes}

theorem gains_append (stream : Stream) (lines : List Bytes) :
    stream.Gains (stream.append lines) lines :=
  ⟨stream.text_append lines, rfl⟩

theorem Gains.trans (h : stream.Gains middle first) (h' : middle.Gains later rest) :
    stream.Gains later (first ++ rest) where
  text := by rw [h'.text, h.text, ofLines_append, List.append_assoc]
  count := by rw [h'.count, h.count, List.length_append, Nat.add_assoc]

end Stream

namespace Progress

variable {σ ε α β : Type} {reporter : σ} {lines : List Bytes}

/-- Whether a step adds the given lines to every stream that takes everything, and leaves the given
reporter and result. -/
def Adds (step : Stream → Progress σ ε α) (reporter : σ) (lines : List Bytes)
    (result : Except ε α) : Prop :=
  ∀ stream : Stream, stream.sink.room = none → step stream = ⟨reporter, stream.append lines, result⟩

/-- Whether a step adds the same lines to every stream that takes everything. -/
def Additive (step : Stream → Progress σ ε α) : Prop :=
  ∃ reporter lines result, Adds step reporter lines result

/-- Whether a step adds the same lines to every stream that takes everything, or fails without
adding any. -/
def Tidy (step : Stream → Progress σ ε α) : Prop :=
  ∃ reporter lines result, Adds step reporter lines result ∧ (result.isOk = false → lines = [])

theorem Adds.tidy {step : Stream → Progress σ ε α} {value : α}
    (h : Adds step reporter lines (.ok value)) : Tidy step :=
  ⟨reporter, lines, .ok value, h, fun hfailed => absurd hfailed Bool.noConfusion⟩

theorem Tidy.additive {step : Stream → Progress σ ε α} (h : Tidy step) : Additive step := by
  obtain ⟨reporter, lines, result, hadds, -⟩ := h
  exact ⟨reporter, lines, result, hadds⟩

/-! ## Steps in a row -/

theorem Additive.idle (reporter : σ) (result : Except ε α) :
    Additive fun stream => (⟨reporter, stream, result⟩ : Progress σ ε α) :=
  ⟨reporter, [], result, fun stream _ => by rw [Stream.append_nil]⟩

theorem Adds.additive {step : Stream → Progress σ ε α} {result : Except ε α}
    (h : Adds step reporter lines result) : Additive step :=
  ⟨reporter, lines, result, h⟩

/-- Two steps in a row add the lines of both. -/
theorem Adds.andThen {step : Stream → Progress σ ε α} {next : σ → α → Stream → Progress σ ε β}
    {value : α} {reporter' : σ} {more : List Bytes} {result : Except ε β}
    (h : Adds step reporter lines (.ok value))
    (hnext : Adds (next reporter value) reporter' more result) :
    Adds (fun stream => (step stream).andThen next) reporter' (lines ++ more) result := by
  intro stream hroom
  have hroom' : (stream.append lines).sink.room = none := hroom
  simp only [h stream hroom, Progress.andThen, hnext _ hroom', Stream.append_append]

theorem Additive.andThen {step : Stream → Progress σ ε α}
    {next : σ → α → Stream → Progress σ ε β} (h : Additive step)
    (hnext : ∀ reporter value, Additive (next reporter value)) :
    Additive fun stream => (step stream).andThen next := by
  obtain ⟨reporter, lines, e | value, hstep⟩ := h
  · -- where the first step fails there is no second
    refine ⟨reporter, lines, .error e, fun stream hroom => ?_⟩
    simp only [hstep stream hroom, Progress.andThen]
  · obtain ⟨reporter', more, result, hmore⟩ := hnext reporter value
    exact ⟨reporter', lines ++ more, result, hstep.andThen hmore⟩

/-- **A run adds the same lines everywhere**, if each of its steps does. -/
theorem Additive.visitAll {visit : σ → α → Stream → Progress σ RunError Outcome}
    (h : ∀ reporter object, Additive (visit reporter object)) (reporter : σ) (stats : Stats)
    (objects : List α) :
    Additive fun stream => Run.visitAll visit reporter stream stats objects := by
  induction objects generalizing reporter stats with
  | nil => exact Additive.idle reporter (.ok stats)
  | cons object objects ih =>
    simp only [visitAll_cons]
    exact (h reporter object).andThen fun reporter outcome => ih reporter (stats.tally outcome)

/-! ## Steps that succeed -/

/-- **A step that succeeds has added all of its lines.**  A sink that stops it makes it fail. -/
theorem Cuttable.of_ok {step : Stream → Progress σ ε α} {refusal : ε} {result : Except ε α}
    (hcut : Cuttable refusal step) (hadds : Adds step reporter lines result) {stream : Stream}
    {value : α} (hok : (step stream).result = .ok value) :
    (step stream).reporter = reporter ∧ result = .ok value ∧
      stream.Gains (step stream).stream lines := by
  cases hroom : stream.sink.room with
  | none =>
    rw [hadds stream hroom] at hok ⊢
    exact ⟨rfl, hok, stream.gains_append lines⟩
  | some n =>
    have hlimited : (stream.limit none).limit (some n) = stream := by
      rw [Stream.limit_limit, Stream.limit, ← hroom]
    obtain ⟨added, -, -, hn⟩ := hcut (stream.limit none) rfl
    have hstep := hn n
    rw [hlimited, hadds (stream.limit none) rfl] at hstep
    by_cases hfits : added.length ≤ n
    · rw [hstep.whole hfits] at hok ⊢
      exact ⟨rfl, hok, ((stream.limit none).gains_append lines).text,
        ((stream.limit none).gains_append lines).count⟩
    · obtain ⟨-, hresult⟩ := hstep.cut (Nat.lt_of_not_le hfits)
      rw [hresult] at hok
      exact absurd hok (by simp)

end Progress

open Progress

/-- In a run that succeeds every step has succeeded. -/
theorem Run.forall_ok_of_visitAll {σ α : Type}
    {visit : σ → α → Stream → Progress σ RunError Outcome} {reporter : σ} {stream : Stream}
    {stats total : Stats} {objects : List α}
    (h : (visitAll visit reporter stream stats objects).result = .ok total) :
    ∀ object ∈ objects, ∃ reporter stream outcome,
      (visit reporter object stream).result = .ok outcome := by
  induction objects generalizing reporter stream stats with
  | nil => simp
  | cons first rest ih =>
    rw [visitAll] at h
    rcases hvisit : visit reporter first stream with ⟨next, reached, e | outcome⟩
    · rw [hvisit] at h
      exact absurd h (by simp)
    · rw [hvisit] at h
      intro object hobject
      rcases List.mem_cons.mp hobject with rfl | hobject
      · exact ⟨reporter, stream, outcome, by rw [hvisit]⟩
      · exact ih h object hobject

/-! ## The three reports -/

/-- A step with an effect adds the lines of this effect. -/
theorem Effect.adds {σ ε : Type} {step : Stream → Progress σ ε Outcome} {effect : Effect σ}
    (h : ∀ stream : Stream, stream.sink.room = none → step stream = effect.on stream) :
    Adds step effect.reporter effect.lines (.ok effect.outcome) := h

namespace TaskReporter

theorem tidy_visit (reporter : TaskReporter) (task : Option Task) :
    Tidy fun stream => Run.step .taskRecord (reporter.visit task stream) :=
  (Effect.adds fun _ hroom => reporter.step_visit_of_unlimited task hroom).tidy

theorem additive_run (reporter : TaskReporter) (proc : ProcView) :
    Additive (reporter.run proc) := by
  unfold run
  cases proc.pids? with
  | none => exact Additive.idle reporter (Except.error RunError.listing)
  | some pids =>
    exact Additive.visitAll (fun reporter task => (reporter.tidy_visit task).additive) reporter {}
      (proc.allTasks pids)

end TaskReporter

namespace FileReporter

theorem tidy_visitNumbered (reporter : FileReporter)
    (entry : (Option Task × Option OpenFile) × Nat) : Tidy (reporter.visitNumbered entry) :=
  (Effect.adds fun _ hroom => reporter.visitNumbered_of_unlimited entry hroom).tidy

theorem additive_run (reporter : FileReporter) (proc : ProcView) :
    Additive (reporter.run proc) := by
  unfold run
  cases proc.pids? with
  | none => exact Additive.idle reporter (Except.error RunError.listing)
  | some pids =>
    exact Additive.visitAll (fun reporter entry => (reporter.tidy_visitNumbered entry).additive)
      reporter {} (proc.allFiles pids).zipIdx

end FileReporter

namespace SymbolReporter

theorem adds_heads (reporter : SymbolReporter) :
    Adds reporter.heads {} [SymbolRecord.header] (.ok .headerOnly) := by
  intro stream hroom
  rw [heads, visit, if_pos rfl, Stream.writeLine_of_unlimited hroom]
  rfl

/-- An entry with a number behind that of the column heads. -/
theorem tidy_visitEntry (reporter : SymbolReporter) (entry : Except String Symbol × Nat) :
    Tidy (reporter.visitEntry entry) := by
  obtain ⟨message | symbol, number⟩ := entry
  · refine ⟨reporter, [], .error (.readingSymbols message), fun stream _ => ?_, fun _ => rfl⟩
    rw [Stream.append_nil]
    rfl
  · by_cases hnumber : number = 0
    · subst hnumber
      have hheads : Adds (reporter.visitEntry (.ok symbol, 0)) reporter [SymbolRecord.header]
          (.ok .headerOnly) := by
        intro stream hroom
        rw [visitEntry, visit, if_pos rfl, Stream.writeLine_of_unlimited hroom]
        rfl
      exact hheads.tidy
    · exact (Effect.adds fun stream hroom =>
        reporter.visitEntry_of_unlimited symbol hnumber hroom).tidy

/-- A symbol report adds the same lines everywhere, also where it stops at a failed read. -/
theorem additive_run (reporter : SymbolReporter) (table : Table) :
    Additive (reporter.run table) := by
  have hrun := reporter.adds_heads.additive.andThen fun reporter outcome =>
    Additive.visitAll (fun reporter entry => (reporter.tidy_visitEntry entry).additive) reporter
      (Stats.tally {} outcome) (table.symbols.zipIdx 1)
  simpa only [← run_eq_andThen] using hrun

end SymbolReporter

end KernelTables
