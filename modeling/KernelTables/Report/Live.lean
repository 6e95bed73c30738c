import KernelTables.Report.Run

/-!
# Reports on a live system

A process table changes while it is read, and a report can come across its own output there.  A
live report therefore looks at the table anew for each inquiry, and delivers what it has written
after each object.

Where the table stands still and everything delivered is taken, a live report is the run over the
whole table: `TaskReporter.follow_still`, `FileReporter.follow_still` and
`SymbolReporter.follow_still`.
-/

namespace KernelTables

/-- What a live report deals with. -/
structure Live (m : Type → Type) where
  /-- The process table, as far as one inquiry needs it. -/
  look : Inquiry → m ProcView
  /-- Takes note of what has been written to a stream; tells whether it was taken. -/
  deliver : Stream → m Bool

/-- A table that stands still, and a place for any output. -/
def Live.still {m : Type → Type} [Monad m] (proc : ProcView) : Live m :=
  ⟨fun _ => pure proc, fun _ => pure true⟩

@[simp] theorem Live.look_still {m : Type → Type} [Monad m] (proc : ProcView)
    (inquiry : Inquiry) : (still (m := m) proc).look inquiry = pure proc := rfl

@[simp] theorem Live.deliver_still {m : Type → Type} [Monad m] (proc : ProcView)
    (stream : Stream) : (still (m := m) proc).deliver stream = pure true := rfl

variable {m : Type → Type} [Monad m]

namespace Run

variable {σ α : Type}

/-- Takes a run through objects, one after another, until it fails. -/
def through (step : σ → Stream → Stats → α → m (Run σ)) :
    σ → Stream → Stats → List α → m (Run σ)
  | reporter, stream, stats, [] => return ⟨reporter, stream, .ok stats⟩
  | reporter, stream, stats, object :: objects => do
    match ← step reporter stream stats object with
    | ⟨reporter, stream, .error e⟩ => return ⟨reporter, stream, .error e⟩
    | ⟨reporter, stream, .ok stats⟩ => through step reporter stream stats objects

/-- Delivers what a step has written, and counts its outcome. -/
def deliver (live : Live m) (what : Written) (stats : Stats) :
    Progress σ RunError Outcome → m (Run σ)
  | ⟨reporter, stream, .error e⟩ => return ⟨reporter, stream, .error e⟩
  | ⟨reporter, stream, .ok outcome⟩ => do
    if ← live.deliver stream then return ⟨reporter, stream, .ok (stats.tally outcome)⟩
    else return ⟨reporter, stream, .error (.writing what .full)⟩

/-- A run beside the number of its next object. -/
def numbered (number : Nat) (run : Run σ) : Run (σ × Nat) :=
  ⟨(run.reporter, number), run.stream, run.result⟩

end Run

/-! ## The three reports -/

namespace TaskReporter

/-- Reports every thread of every process, live. -/
def follow (live : Live m) (reporter : TaskReporter) (stream : Stream) :
    m (Run TaskReporter) := do
  match (← live.look .processes).pids? with
  | none => return ⟨reporter, stream, .error .listing⟩
  | some pids =>
    Run.through (fun reporter stream stats pid => do
      let tids := (← live.look (.threads pid)).threads pid
      Run.through (fun reporter stream stats tid => do
        let task := (← live.look (.task pid tid)).task? pid tid
        Run.deliver live .taskRecord stats (Run.step .taskRecord (reporter.visit task stream)))
        reporter stream stats tids)
      reporter stream {} pids

end TaskReporter

namespace FileReporter

/-- Visits the descriptor with the given number, live. -/
def followFile (live : Live m) (pid : Int32) (task : Option Task) :
    FileReporter × Nat → Stream → Stats → UInt32 → m (Run (FileReporter × Nat))
  | (reporter, number), stream, stats, fd => do
    let file := (← live.look (.file pid fd)).file? pid fd
    Run.numbered (number + 1) <$> Run.deliver live .fileRecord stats
      (reporter.visitNumbered ((task, file), number) stream)

/-- Visits the descriptors of a process, live.  Once they have been listed the process is read, but
not if there are none. -/
def followProcess (live : Live m) :
    FileReporter × Nat → Stream → Stats → Int32 → m (Run (FileReporter × Nat))
  | start, stream, stats, pid => do
    match (← live.look (.descriptors pid)).descriptors pid with
    | [] => return ⟨start, stream, .ok stats⟩
    | fds =>
      let task := (← live.look (.task pid pid)).task? pid pid
      Run.through (followFile live pid task) start stream stats fds

/-- Reports every descriptor of every process, numbered from zero, live. -/
def follow (live : Live m) (reporter : FileReporter) (stream : Stream) :
    m (Run FileReporter) := do
  match (← live.look .processes).pids? with
  | none => return ⟨reporter, stream, .error .listing⟩
  | some pids =>
    let run ← Run.through (followProcess live) (reporter, 0) stream {} pids
    return ⟨run.reporter.1, run.stream, run.result⟩

end FileReporter

namespace SymbolReporter

/-- Reports a symbol table, live. -/
def follow (live : Live m) (reporter : SymbolReporter) (table : Table) (stream : Stream) :
    m (Run SymbolReporter) := do
  match ← Run.deliver live .symbolHeader {}
      (Run.step .symbolHeader (reporter.reset.visit 0 none stream)) with
  | ⟨reporter, stream, .error e⟩ => return ⟨reporter, stream, .error e⟩
  | ⟨reporter, stream, .ok stats⟩ =>
    Run.through (fun reporter stream stats entry =>
      Run.deliver live .symbolRecord stats (reporter.visitEntry entry stream))
      reporter stream stats (table.symbols.zipIdx 1)

end SymbolReporter

/-! ## A table that stands still -/

namespace Run

variable {σ α : Type}

/-- Where everything is taken, delivery only counts the outcome. -/
theorem deliver_still [LawfulMonad m] (proc : ProcView) (what : Written) (stats : Stats)
    (progress : Progress σ RunError Outcome) :
    deliver (m := m) (.still proc) what stats progress =
      pure ⟨progress.reporter, progress.stream, progress.result.map stats.tally⟩ := by
  obtain ⟨reporter, stream, _ | outcome⟩ := progress
  · rfl
  · simp [deliver, Except.map]

/-- Steps that do nothing but visit make a plain run. -/
theorem through_eq_visitAll [LawfulMonad m]
    {visit : σ → α → Stream → Progress σ RunError Outcome}
    {step : σ → Stream → Stats → α → m (Run σ)}
    (h : ∀ reporter stream stats object, step reporter stream stats object =
      let progress := visit reporter object stream
      pure ⟨progress.reporter, progress.stream, progress.result.map stats.tally⟩)
    (reporter : σ) (stream : Stream) (stats : Stats) (objects : List α) :
    through step reporter stream stats objects =
      pure (visitAll visit reporter stream stats objects) := by
  induction objects generalizing reporter stream stats with
  | nil => rfl
  | cons object objects ih =>
    simp only [through, h, pure_bind, visitAll]
    obtain ⟨reporter, stream, _ | outcome⟩ := visit reporter object stream
    · rfl
    · exact ih ..

/-- Steps over objects can be taken in two stretches. -/
theorem visitAll_append (visit : σ → α → Stream → Progress σ RunError Outcome) (reporter : σ)
    (stream : Stream) (stats : Stats) (objects rest : List α) :
    visitAll visit reporter stream stats (objects ++ rest) =
      match visitAll visit reporter stream stats objects with
      | ⟨reporter, stream, .error e⟩ => ⟨reporter, stream, .error e⟩
      | ⟨reporter, stream, .ok stats⟩ => visitAll visit reporter stream stats rest := by
  induction objects generalizing reporter stream stats with
  | nil => rfl
  | cons object objects ih =>
    simp only [List.cons_append, visitAll]
    split
    · rfl
    · exact ih ..

/-- Runs over groups of objects make a run over all of them. -/
theorem through_eq_visitAll_flatMap [LawfulMonad m] {β : Type}
    {visit : σ → α → Stream → Progress σ RunError Outcome} {members : β → List α}
    {step : σ → Stream → Stats → β → m (Run σ)}
    (h : ∀ reporter stream stats group, step reporter stream stats group =
      pure (visitAll visit reporter stream stats (members group)))
    (reporter : σ) (stream : Stream) (stats : Stats) (groups : List β) :
    through step reporter stream stats groups =
      pure (visitAll visit reporter stream stats (groups.flatMap members)) := by
  induction groups generalizing reporter stream stats with
  | nil => rfl
  | cons group groups ih =>
    simp only [through, h, pure_bind, List.flatMap_cons, visitAll_append]
    obtain ⟨reporter, stream, _ | stats⟩ :=
      visitAll visit reporter stream stats (members group)
    · rfl
    · exact ih ..

/-- Runs over groups of numbered objects make a run over all of them, if each takes its numbers from
where the one before left off. -/
theorem through_eq_visitAll_zipIdx [LawfulMonad m] {β : Type}
    {visit : σ → α × Nat → Stream → Progress σ RunError Outcome} (members : β → List α)
    {step : σ × Nat → Stream → Stats → β → m (Run (σ × Nat))}
    (h : ∀ reporter number stream stats group, ∃ next,
      let run := visitAll visit reporter stream stats ((members group).zipIdx number)
      step (reporter, number) stream stats group = pure (numbered next run) ∧
        (run.result.isOk → next = number + (members group).length))
    (reporter : σ) (number : Nat) (stream : Stream) (stats : Stats) (groups : List β) :
    ∃ next,
      let run := visitAll visit reporter stream stats ((groups.flatMap members).zipIdx number)
      through step (reporter, number) stream stats groups = pure (numbered next run) ∧
        (run.result.isOk → next = number + (groups.flatMap members).length) := by
  induction groups generalizing reporter number stream stats with
  | nil => exact ⟨number, rfl, fun _ => rfl⟩
  | cons group groups ih =>
    obtain ⟨next, hstep, hnext⟩ := h reporter number stream stats group
    simp only [through, hstep, pure_bind, List.flatMap_cons, List.zipIdx_append, visitAll_append]
    generalize visitAll visit reporter stream stats ((members group).zipIdx number) = run at hnext
    obtain ⟨reporter, stream, _ | stats⟩ := run
    · exact ⟨next, rfl, fun h => by simp [Except.isOk, Except.toBool] at h⟩
    · obtain rfl := hnext rfl
      obtain ⟨last, hrest, hlast⟩ := ih reporter (number + (members group).length) stream stats
      exact ⟨last, hrest, fun h => by rw [hlast h, List.length_append, Nat.add_assoc]⟩

end Run

theorem TaskReporter.follow_still [LawfulMonad m] (proc : ProcView) (reporter : TaskReporter)
    (stream : Stream) :
    follow (m := m) (.still proc) reporter stream = pure (reporter.run proc stream) := by
  simp only [follow, run, Live.look_still, pure_bind]
  cases proc.pids? with
  | none => rfl
  | some pids =>
    refine Run.through_eq_visitAll_flatMap (fun reporter stream stats pid => ?_) ..
    rw [Run.visitAll_map]
    exact Run.through_eq_visitAll (fun _ _ stats _ => Run.deliver_still proc _ stats _) ..

namespace FileReporter

theorem followFile_still [LawfulMonad m] (proc : ProcView) (pid : Int32) (task : Option Task)
    (reporter : FileReporter) (number : Nat) (stream : Stream) (stats : Stats) (fd : UInt32) :
    followFile (m := m) (.still proc) pid task (reporter, number) stream stats fd =
      pure (.numbered (number + 1) (Run.visitAll visitNumbered reporter stream stats
        [((task, proc.file? pid fd), number)])) := by
  simp only [followFile, Run.deliver_still, Live.look_still, pure_bind, map_pure, Run.visitAll]
  obtain ⟨reporter, stream, _ | outcome⟩ :=
    reporter.visitNumbered ((task, proc.file? pid fd), number) stream <;> rfl

theorem followProcess_still [LawfulMonad m] (proc : ProcView) (reporter : FileReporter)
    (number : Nat) (stream : Stream) (stats : Stats) (pid : Int32) :
    ∃ next,
      let files := proc.allFiles [pid]
      let run := Run.visitAll visitNumbered reporter stream stats (files.zipIdx number)
      followProcess (m := m) (.still proc) (reporter, number) stream stats pid =
          pure (.numbered next run) ∧ (run.result.isOk → next = number + files.length) := by
  obtain ⟨next, h, hnext⟩ := Run.through_eq_visitAll_zipIdx (m := m)
    (fun fd => [(proc.task? pid pid, proc.file? pid fd)])
    (fun reporter number stream stats fd =>
      ⟨number + 1, followFile_still proc pid _ reporter number stream stats fd, fun _ => rfl⟩)
    reporter number stream stats (proc.descriptors pid)
  have hfiles : proc.allFiles [pid] =
      (proc.descriptors pid).flatMap fun fd => [(proc.task? pid pid, proc.file? pid fd)] := by
    simp [ProcView.allFiles, List.map_eq_flatMap]
  refine ⟨next, ?_, by rw [hfiles]; exact hnext⟩
  simp only [followProcess, Live.look_still, pure_bind]
  rw [hfiles, ← h]
  split
  · next hnone => rw [hnone]; rfl
  · rfl

theorem follow_still [LawfulMonad m] (proc : ProcView) (reporter : FileReporter)
    (stream : Stream) :
    follow (m := m) (.still proc) reporter stream = pure (reporter.run proc stream) := by
  simp only [follow, run, Live.look_still, pure_bind]
  cases proc.pids? with
  | none => rfl
  | some pids =>
    obtain ⟨next, h, -⟩ := Run.through_eq_visitAll_zipIdx (m := m)
      (fun pid => proc.allFiles [pid])
      (fun reporter number stream stats pid =>
        followProcess_still proc reporter number stream stats pid)
      reporter 0 stream {} pids
    have hfiles : pids.flatMap (fun pid => proc.allFiles [pid]) = proc.allFiles pids := by
      simp [ProcView.allFiles]
    rw [hfiles] at h
    simp only [h, pure_bind, Run.numbered]

end FileReporter

theorem SymbolReporter.follow_still [LawfulMonad m] (proc : ProcView) (reporter : SymbolReporter)
    (table : Table) (stream : Stream) :
    follow (m := m) (.still proc) reporter table stream = pure (reporter.run table stream) := by
  simp only [follow, run, Run.deliver_still, pure_bind]
  obtain ⟨reporter, stream, _ | outcome⟩ :=
    Run.step .symbolHeader (reporter.reset.visit 0 none stream)
  · rfl
  · exact Run.through_eq_visitAll (m := m) (fun _ _ _ _ => rfl) ..

end KernelTables
