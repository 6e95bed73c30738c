import KernelTables.Proofs.Report.Account
import KernelTables.Proofs.Report.Addition
import KernelTables.Proofs.StandsStill

/-!
# Reports that are delivered as they are written

A report on a live system looks at a process table again and again, and hands on what it has written
in between.  Where its own output makes no difference to what it looks at, all of this comes to the
run over the whole table, with the output behind the stream.

* `InStep` — a stream that has all been written through the buffer;
* `Follows` — **a delivered step is the plain step**, unless what there is to write uses up the room
  that the output has;
* `Follows.bind`, `Follows.through` — steps in a row, and any number of them;
* `Report.write_follows`, `writeAll_follows`, `writeAndFlush_ends` — the reports of a command;
* `Report.dropped_squeezed` — a buffer that is dropped, whichever way the reports have ended;
* `Report.writeThrough_squeezed` — **what the output holds in the end**.
-/

namespace KernelTables

open Progress

/-! ## Steps that are delivered -/

/-- What a step of the program ends with. -/
class Ending (β : Type) where
  /-- The stream that it leaves. -/
  stream : β → Stream
  /-- Whether it succeeded. -/
  succeeded : β → Bool

instance {σ ε α : Type} : Ending (Progress σ ε α) := ⟨(·.stream), (·.result.isOk)⟩

instance {ε α : Type} : Ending (Stream × Except ε α) := ⟨(·.1), (·.2.isOk)⟩

section

variable {fs : FileSystem} {outlet : Option NamePath} {stream : Stream} {β γ : Type} [Ending β]
  [Ending γ]

/-- Whether all that a stream has taken has been written through the buffer. -/
structure InStep (fs : FileSystem) (outlet : Option NamePath) (stream : Stream)
    (buffer : WriteBuffer) (now : FileSystem) : Prop where
  /-- The stream takes everything. -/
  room : stream.sink.room = none
  /-- The output is behind, as always. -/
  behind : Behind fs outlet stream.text buffer now
  /-- What is missing in it is in the buffer. -/
  total_eq : buffer.total = stream.text.length

/-- An output that has just been made is in step with a stream that nothing has been written to. -/
theorem InStep.start (fs : FileSystem) (outlet : Option NamePath) :
    InStep fs outlet {} {} (fs.filled [] outlet) :=
  ⟨rfl, ⟨Nat.le_refl 0, fun n _ => Nat.zero_le n, rfl⟩, rfl⟩

/-- How a delivered step may end, where the plain step ends with `plain`. -/
inductive EndsAs (fs : FileSystem) (outlet : Option NamePath) (plain : β) :
    (β × WriteBuffer) × FileSystem → Prop
  /-- In the same way, with everything written through the buffer. -/
  | delivered {buffer : WriteBuffer} {now : FileSystem}
      (h : InStep fs outlet (Ending.stream plain) buffer now) :
      EndsAs fs outlet plain ((plain, buffer), now)
  /-- With a failure, because what there is to write uses the room up; until there it is the same. -/
  | refused {failed : β} {buffer : WriteBuffer} {now : FileSystem}
      (h : Behind fs outlet (Ending.stream failed).text buffer now)
      (hfull : fs.limit outlet = some buffer.settled)
      (hmore : buffer.settled < (Ending.stream plain).text.length)
      (hsame : (Ending.stream plain).text.take buffer.settled =
        (Ending.stream failed).text.take buffer.settled)
      (hfailed : Ending.succeeded failed = false) :
      EndsAs fs outlet plain ((failed, buffer), now)

/-- Whether an action does what the plain step does, and delivers what that writes. -/
structure Follows (fs : FileSystem) (outlet : Option NamePath) (stream : Stream)
    (action : Delivery β) (plain : β) : Prop where
  /-- The plain step only adds lines. -/
  adds : stream.sink.room = none → ∃ lines, Ending.stream plain = stream.append lines
  /-- The action ends as the plain step does. -/
  ends : ∀ buffer now, InStep fs outlet stream buffer now →
    EndsAs fs outlet plain ((action.run buffer).run now)

namespace Follows

/-- An action that does nothing. -/
theorem idle {plain : β} (h : Ending.stream plain = stream) :
    Follows fs outlet stream (Pure.pure plain) plain where
  adds _ := ⟨[], by rw [h, Stream.append_nil]⟩
  ends _ _ hstep := .delivered (h ▸ hstep)

/-- **Two actions in a row**, where the second one passes on a failure of the first. -/
theorem bind {action : Delivery β} {plain : β} {next : β → Delivery γ} {result : γ}
    (h : Follows fs outlet stream action plain)
    (hnext : Follows fs outlet (Ending.stream plain) (next plain) result)
    (hfailure : ∀ failed, Ending.succeeded failed = false → ∃ passed, next failed = Pure.pure passed ∧
      Ending.stream passed = Ending.stream failed ∧ Ending.succeeded passed = false) :
    Follows fs outlet stream (action >>= next) result where
  adds hroom := by
    obtain ⟨lines, hlines⟩ := h.adds hroom
    obtain ⟨more, hmore⟩ := hnext.adds (by rw [hlines]; exact hroom)
    exact ⟨lines ++ more, by rw [hmore, hlines, Stream.append_append]⟩
  ends buffer now hstep := by
    have hends := h.ends buffer now hstep
    rw [Delivery.run_bind]
    generalize (action.run buffer).run now = ended at hends ⊢
    cases hends with
    | delivered hmiddle => exact hnext.ends _ _ hmiddle
    | @refused failed reached _ hbehind hfull hmore hsame hfailed =>
      -- what the second action would write comes behind the end of the room
      obtain ⟨lines, hlines⟩ := h.adds hstep.room
      obtain ⟨more, hadded⟩ := hnext.adds (by rw [hlines]; exact hstep.room)
      obtain ⟨passed, hpassed, hstream, hpassedFailed⟩ := hfailure failed hfailed
      have htext := congrArg Stream.text hadded
      rw [Stream.text_append] at htext
      rw [← hstream] at hbehind hsame
      rw [hpassed]
      refine .refused hbehind hfull ?_ ?_ hpassedFailed
      · rw [htext, List.length_append]
        exact Nat.lt_of_lt_of_le hmore (Nat.le_add_right _ _)
      · rw [htext, List.take_append_of_le_length (Nat.le_of_lt hmore), hsame]

/-- What a plain step comes to is what it does where nothing can intervene. -/
theorem of_still {action : Delivery β} {still : Id β} {plain : β} (hstill : still = Pure.pure plain)
    (h : Follows fs outlet stream action still.run) : Follows fs outlet stream action plain := by
  rwa [hstill, Id.run_pure] at h

/-- A question whose answer does not depend on the output. -/
theorem ask {α : Type} {question : StateM FileSystem α} {read : FileSystem → α}
    (hread : ∀ now, question.run now = (read now, now)) {next : α → Delivery β} {answer : α}
    (hsame : ∀ text, next (read (fs.filled text outlet)) = next answer) {plain : β}
    (h : Follows fs outlet stream (next answer) plain) :
    Follows fs outlet stream (liftM question >>= next) plain where
  adds := h.adds
  ends buffer now hstep := by
    have hrun : ((liftM question >>= next).run buffer).run now =
        ((next (question.run now).1).run buffer).run (question.run now).2 := rfl
    have hnext : next (read now) = next answer := by rw [hstep.behind.now_eq, hsame]
    rw [hrun, hread, hnext]
    exact h.ends buffer now hstep

end Follows

end

/-! ## Runs that are delivered -/

namespace Follows

variable {fs : FileSystem} {outlet : Option NamePath} {σ α : Type}

/-- A run with the number of its next object. -/
theorem numbered {stream : Stream} {action : Delivery (Run σ)} {plain : Run σ} (number : Nat)
    (h : Follows fs outlet stream action plain) :
    Follows fs outlet stream (Run.numbered number <$> action) (plain.numbered number) := by
  rw [← bind_pure_comp]
  exact h.bind (idle rfl) fun failed hfailed => ⟨failed.numbered number, rfl, rfl, hfailed⟩

/-- **A run whose steps are delivered is delivered.** -/
theorem through {step : σ → Stream → Stats → α → Delivery (Run σ)}
    {plainStep : σ → Stream → Stats → α → Id (Run σ)}
    (h : ∀ reporter stream stats object,
      Follows fs outlet stream (step reporter stream stats object)
        (plainStep reporter stream stats object).run)
    (reporter : σ) (stream : Stream) (stats : Stats) (objects : List α) :
    Follows fs outlet stream (Run.through step reporter stream stats objects)
      (Run.through plainStep reporter stream stats objects).run := by
  induction objects generalizing reporter stream stats with
  | nil => exact idle rfl
  | cons object objects ih =>
    rw [Run.through, Run.through, Id.run_bind]
    refine (h reporter stream stats object).bind ?_ ?_
    · obtain ⟨next, reached, _ | stats⟩ := (plainStep reporter stream stats object).run
      · exact idle rfl
      · exact ih next reached stats
    · rintro ⟨next, reached, e | stats⟩ hfailed
      · exact ⟨⟨next, reached, .error e⟩, rfl, rfl, rfl⟩
      · exact absurd hfailed Bool.noConfusion

/-- A visit whose lines are written through the buffer. -/
theorem deliver {live : Live Delivery}
    (hlive : live.deliver = WriteBuffer.advance (FileSystem.handTo outlet)) (proc : ProcView)
    (what : Written) (stats : Stats) {step : Stream → Progress σ RunError Outcome}
    (htidy : Tidy step) (stream : Stream) :
    Follows fs outlet stream (Run.deliver live what stats (step stream))
      (Run.deliver (m := Id) (.still proc) what stats (step stream)).run := by
  obtain ⟨reporter, lines, result, hadds, hnone⟩ := htidy
  have hplain : (Run.deliver (m := Id) (.still proc) what stats (step stream)).run =
      ⟨(step stream).reporter, (step stream).stream, (step stream).result.map stats.tally⟩ := by
    rw [Run.deliver_still]
    rfl
  rw [hplain]
  refine ⟨fun hroom => ⟨lines, by rw [hadds stream hroom]; rfl⟩, fun buffer now hstep => ?_⟩
  rw [hadds stream hstep.room]
  cases result with
  | error e =>
    obtain rfl := hnone rfl
    rw [Stream.append_nil]
    exact .delivered hstep
  | ok outcome =>
    have hahead : Behind fs outlet (stream.append lines).text buffer now := by
      rw [Stream.text_append]
      exact hstep.behind.append (ofLines lines)
    have hhanded := WriteBuffer.advance_handed hahead
    rw [Run.deliver, Delivery.run_bind, hlive]
    generalize ((WriteBuffer.advance (FileSystem.handTo outlet) (stream.append lines)).run
      buffer).run now = ended at hhanded ⊢
    cases hhanded with
    | taken hbehind htotal => exact .delivered ⟨hstep.room, hbehind, htotal⟩
    | refused hbehind hfull hmore => exact .refused hbehind hfull hmore rfl rfl

end Follows

/-! ## The three reports -/

/-- The process table in a file system, and the output through a buffer. -/
abbrev FileSystem.live (configDirectory : String) (nodeName : Option NodeName)
    (outlet : Option NamePath) (root : String) : Live Delivery :=
  Report.live (FileSystem.host configDirectory nodeName) (FileSystem.handTo outlet) root

section

variable {fs : FileSystem} {nodeName : Option NodeName} {root : String}
  {outlet : Option NamePath} {view : ProcView} {table : Option Table}

/-- A look at a table that stands still. -/
theorem StandsStill.look {configDirectory : String}
    (h : StandsStill fs nodeName root outlet view table) (inquiry : Inquiry) {stream : Stream}
    {β : Type} [Ending β] {next : ProcView → Delivery β} {plain : β}
    (hsame : ∀ other, view.Alike other → next other = next view)
    (hnext : Follows fs outlet stream (next view) plain) :
    Follows fs outlet stream
      ((FileSystem.live configDirectory nodeName outlet root).look inquiry >>= next) plain := by
  have hread (now : FileSystem) :
      ((FileSystem.host configDirectory nodeName).procView root inquiry).run now =
        (now.procView nodeName root, now) := rfl
  exact Follows.ask hread (fun text => hsame _ (h.view text)) hnext

variable (configDirectory : String)

theorem TaskReporter.follows (h : StandsStill fs nodeName root outlet view table)
    (reporter : TaskReporter) (stream : Stream) :
    Follows fs outlet stream
      (reporter.follow (FileSystem.live configDirectory nodeName outlet root) stream)
      (reporter.run view stream) := by
  refine Follows.of_still (reporter.follow_still view stream) ?_
  refine h.look .processes (fun other halike => by rw [halike.pids]) ?_
  rw [follow, Live.look_still, pure_bind]
  cases view.pids? with
  | none => exact Follows.idle rfl
  | some pids =>
    refine Follows.through (fun reporter stream stats pid => ?_) ..
    refine h.look (.threads pid) (fun other halike => by rw [halike.threads]) ?_
    refine Follows.through (fun reporter stream stats tid => ?_) ..
    refine h.look (.task pid tid) (fun other halike => by rw [halike.task]) ?_
    exact Follows.deliver rfl _ _ _ (reporter.tidy_visit _) stream

namespace FileReporter

theorem followFile_follows (h : StandsStill fs nodeName root outlet view table) (pid : Int32)
    (task : Option Task) (start : FileReporter × Nat) (stream : Stream) (stats : Stats)
    (fd : UInt32) :
    Follows fs outlet stream
      (followFile (FileSystem.live configDirectory nodeName outlet root) pid task start stream stats
        fd)
      (followFile (m := Id) (.still view) pid task start stream stats fd).run := by
  obtain ⟨reporter, number⟩ := start
  refine h.look (.file pid fd) (fun other halike => by rw [halike.file]) ?_
  exact (Follows.deliver rfl _ _ _ (reporter.tidy_visitNumbered _) stream).numbered _

theorem followProcess_follows (h : StandsStill fs nodeName root outlet view table)
    (start : FileReporter × Nat) (stream : Stream) (stats : Stats) (pid : Int32) :
    Follows fs outlet stream
      (followProcess (FileSystem.live configDirectory nodeName outlet root) start stream stats pid)
      (followProcess (m := Id) (.still view) start stream stats pid).run := by
  refine h.look (.descriptors pid) (fun other halike => by rw [halike.descriptors]) ?_
  rw [followProcess, Live.look_still, pure_bind]
  cases view.descriptors pid with
  | nil => exact Follows.idle rfl
  | cons fd fds =>
    refine h.look (.task pid pid) (fun other halike => by rw [halike.task]) ?_
    exact Follows.through (followFile_follows configDirectory h pid _) ..

theorem follows (h : StandsStill fs nodeName root outlet view table) (reporter : FileReporter)
    (stream : Stream) :
    Follows fs outlet stream
      (reporter.follow (FileSystem.live configDirectory nodeName outlet root) stream)
      (reporter.run view stream) := by
  refine Follows.of_still (reporter.follow_still view stream) ?_
  refine h.look .processes (fun other halike => by rw [halike.pids]) ?_
  rw [follow, Live.look_still, pure_bind]
  cases view.pids? with
  | none => exact Follows.idle rfl
  | some pids =>
    refine (Follows.through (followProcess_follows configDirectory h) ..).bind
      (Follows.idle rfl) ?_
    exact fun failed hfailed => ⟨_, rfl, rfl, hfailed⟩

end FileReporter

theorem SymbolReporter.follows (reporter : SymbolReporter) (symbols : Table) (stream : Stream) :
    Follows fs outlet stream
      (reporter.follow (FileSystem.live configDirectory nodeName outlet root) symbols stream)
      (reporter.run symbols stream) := by
  -- a symbol report never looks at the process table, so that any view will do
  let proc := fs.procView nodeName root
  refine Follows.of_still (reporter.follow_still proc symbols stream) ?_
  rw [follow, follow, Id.run_bind, ← heads]
  refine (Follows.deliver rfl proc _ _ reporter.adds_heads.tidy stream).bind ?_ ?_
  · obtain ⟨next, reached, e | stats⟩ :=
      (Run.deliver (m := Id) (.still proc) .symbolHeader {} (reporter.heads stream)).run
    · exact Follows.idle rfl
    · refine Follows.through (fun reporter stream stats entry => ?_) ..
      exact Follows.deliver rfl proc _ _ (reporter.tidy_visitEntry entry) stream
  · rintro ⟨next, reached, e | stats⟩ hfailed
    · exact ⟨⟨next, reached, .error e⟩, rfl, rfl, rfl⟩
    · exact absurd hfailed Bool.noConfusion

end

/-! ## The reports of a command -/

/-- A report as the program settles it. -/
theorem Follows.settle {fs : FileSystem} {outlet : Option NamePath} {σ : Type} {stream : Stream}
    {action : Delivery (Run σ)} {plain : Run σ} (root : String)
    (h : Follows fs outlet stream action plain) :
    Follows fs outlet stream (action >>= fun run => Pure.pure (Report.settle root run))
      (Report.settle root plain) := by
  refine h.bind (idle rfl) ?_
  rintro ⟨reporter, reached, e | stats⟩ hfailed
  · exact ⟨(reached, .error (.reporting root e)), rfl, rfl, rfl⟩
  · exact absurd hfailed Bool.noConfusion

namespace Report

/-- What a report comes to on tables that stand still. -/
def plain (view : ProcView) (table : Option Table) (config : Config) (report : Report)
    (stream : Stream) : Stream × Except Failure Unit :=
  match report with
  | tasks =>
    settle config.procRoot ((TaskReporter.new config.taskFormat config.tasksReuse).run view stream)
  | files => settle config.procRoot ((FileReporter.new config.filesReuse).run view stream)
  | symbols =>
    match table with
    | none => (stream, .error (.openingSymbols (symbolPath config.procRoot)))
    | some table => settle config.procRoot (({} : SymbolReporter).run table stream)

/-- What reports come to, one after another until one fails. -/
def plainAll (view : ProcView) (table : Option Table) (config : Config) :
    List Report → Stream → Stream × Except Failure Unit
  | [], stream => (stream, .ok ())
  | report :: reports, stream =>
    match plain view table config report stream with
    | (stream, .error e) => (stream, .error e)
    | (stream, .ok ()) => plainAll view table config reports stream

section

variable (configDirectory : String) {fs : FileSystem} {nodeName : Option NodeName}
  {outlet : Option NamePath} {view : ProcView} {table : Option Table} {config : Config}

theorem write_follows (h : StandsStill fs nodeName config.procRoot outlet view table)
    (report : Report) (stream : Stream) :
    Follows fs outlet stream
      (write (FileSystem.host configDirectory nodeName) (FileSystem.handTo outlet) config report
        stream)
      (plain view table config report stream) := by
  cases report with
  | tasks => exact (TaskReporter.follows configDirectory h _ stream).settle config.procRoot
  | files => exact (FileReporter.follows configDirectory h _ stream).settle config.procRoot
  | symbols =>
    have hread (now : FileSystem) :
        ((FileSystem.host configDirectory nodeName).openTable (symbolPath config.procRoot)).run
            now =
          (now.tableAt? (symbolPath config.procRoot), now) := rfl
    refine Follows.ask hread (fun text => by rw [h.table text]) ?_
    cases table with
    | none => exact Follows.idle rfl
    | some table => exact (SymbolReporter.follows configDirectory {} table stream).settle _

/-- **The reports of a command are delivered as they come to**, one after another. -/
theorem writeAll_follows (h : StandsStill fs nodeName config.procRoot outlet view table)
    (reports : List Report) (stream : Stream) :
    Follows fs outlet stream
      (writeAll (FileSystem.host configDirectory nodeName) (FileSystem.handTo outlet) config reports
        stream)
      (plainAll view table config reports stream) := by
  induction reports generalizing stream with
  | nil => exact Follows.idle rfl
  | cons report reports ih =>
    rw [writeAll, plainAll]
    refine (write_follows configDirectory h report stream).bind ?_ ?_
    · obtain ⟨reached, e | ⟨⟩⟩ := plain view table config report stream
      · exact Follows.idle rfl
      · exact ih reached
    · rintro ⟨reached, e | ⟨⟩⟩ hfailed
      · exact ⟨(reached, .error e), rfl, rfl, rfl⟩
      · exact absurd hfailed Bool.noConfusion

/-- The reports of a command end as they come to, or have used the room up.  If they succeed,
nothing is left in the buffer. -/
theorem writeAndFlush_ends (h : StandsStill fs nodeName config.procRoot outlet view table)
    (reports : List Report) :
    let ended := ((writeAndFlush (FileSystem.host configDirectory nodeName)
      (FileSystem.handTo outlet) config reports).run {}).run (fs.filled [] outlet)
    EndsAs fs outlet (plainAll view table config reports {}) ended ∧
      (ended.1.1.2.isOk = true → ended.1.2.held = 0) := by
  have hends := (writeAll_follows configDirectory h reports {}).ends _ _ (.start fs outlet)
  rw [writeAndFlush, Delivery.run_bind]
  generalize ((writeAll (FileSystem.host configDirectory nodeName) (FileSystem.handTo outlet)
    config reports {}).run {}).run (fs.filled [] outlet) = ended at hends ⊢
  cases hends with
  | @delivered buffer now hstep =>
    rcases hplain : plainAll view table config reports {} with ⟨stream, e | ⟨⟩⟩
    · rw [hplain] at hstep
      exact ⟨.delivered hstep, fun hok => absurd hok Bool.noConfusion⟩
    · rw [hplain] at hstep
      have hhanded := WriteBuffer.flush_handed hstep.behind
      simp only [Delivery.run_bind]
      generalize ((WriteBuffer.flush (FileSystem.handTo outlet) stream.sink.taken).run buffer).run
        now = flushed at hhanded ⊢
      cases hhanded with
      | taken hbehind hready =>
        obtain ⟨htotal, hheld⟩ := hready
        exact ⟨.delivered ⟨hstep.room, hbehind, htotal.trans hstep.total_eq⟩, fun _ => hheld⟩
      | refused hbehind hfull hmore =>
        exact ⟨.refused hbehind hfull hmore rfl rfl, fun hok => absurd hok Bool.noConfusion⟩
  | @refused failed buffer now hbehind hfull hmore hsame hfailed =>
    obtain ⟨stream, e | ⟨⟩⟩ := failed
    · exact ⟨.refused hbehind hfull hmore hsame rfl, fun hok => absurd hok Bool.noConfusion⟩
    · exact absurd hfailed Bool.noConfusion

end

end Report

/-! ## What comes out -/

namespace Report

/-- What comes out of reports on tables that stand still, where the output takes everything. -/
def account (view : ProcView) (table : Option Table) (config : Config) (reports : List Report) :
    Account :=
  ((plainAll view table config reports {}).1.text, (plainAll view table config reports {}).2)

section

variable {fs now : FileSystem} {outlet : Option NamePath} {buffer : WriteBuffer} {settled : Nat}
  {plain : Stream × Except Failure Unit}

/-- What is in the buffer comes out behind the rest when the buffer is dropped, if there is room. -/
theorem squeezed_of_inStep (h : InStep fs outlet plain.1 buffer now)
    (hflushed : plain.2.isOk = true → buffer.held = 0)
    (hsettled : settled = buffer.total ∧ (∀ n ∈ fs.limit outlet, settled ≤ n) ∨
      fs.limit outlet = some settled ∧ settled < plain.1.text.length) :
    Account.Squeezed (fs.limit outlet) (plain.1.text, plain.2)
      (plain.1.text.take settled, plain.2) := by
  have htotal : buffer.total = plain.1.text.length := h.total_eq
  rcases hsettled with ⟨hall, hfits⟩ | ⟨hfull, hlong⟩
  · rw [hall, htotal] at hfits ⊢
    rw [List.take_length]
    exact .fits hfits
  · cases hresult : plain.2 with
    | error e => exact .cut e hfull hlong
    | ok =>
      -- a run that has succeeded has flushed the buffer before it is dropped
      have hheld : buffer.held = 0 := hflushed (by rw [hresult]; rfl)
      have hfits : buffer.settled ≤ settled := h.behind.fits _ hfull
      rw [WriteBuffer.total, hheld, Nat.add_zero] at htotal
      rw [htotal] at hfits
      exact absurd hlong (Nat.not_lt_of_le hfits)

/-- An output that has no room left takes nothing when the buffer is dropped. -/
theorem settled_eq_of_full {size : Nat} (hfull : fs.limit outlet = some buffer.settled)
    (hsettled : settled = buffer.total ∧ (∀ n ∈ fs.limit outlet, settled ≤ n) ∨
      fs.limit outlet = some settled ∧ settled < size) : settled = buffer.settled := by
  rcases hsettled with ⟨hall, hfits⟩ | ⟨hfull', -⟩
  · have hle : settled ≤ buffer.settled := hfits _ hfull
    rw [hall, WriteBuffer.total] at hle ⊢
    omega
  · exact Option.some.inj (hfull'.symm.trans hfull)

/-- **Dropping the buffer** of reports that have ended, however they have. -/
theorem dropped_squeezed {ended : ((Stream × Except Failure Unit) × WriteBuffer) × FileSystem}
    (h : EndsAs fs outlet plain ended) (hflushed : ended.1.1.2.isOk = true → ended.1.2.held = 0) :
    ∃ taken after, ((WriteBuffer.flush (FileSystem.handTo outlet) ended.1.1.1.sink.taken).run
        ended.1.2).run ended.2 =
          ((taken, after), fs.filled (ended.1.1.1.text.take after.settled) outlet) ∧
      Account.Squeezed (fs.limit outlet) (plain.1.text, plain.2)
        (ended.1.1.1.text.take after.settled, ended.1.1.2) := by
  cases h with
  | @delivered buffer now hstep =>
    obtain ⟨taken, after, hdropped, hafter⟩ := WriteBuffer.run_flush hstep.behind
    exact ⟨taken, after, hdropped, squeezed_of_inStep hstep hflushed hafter⟩
  | @refused failed buffer now hbehind hfull hmore hsame hfailed =>
    obtain ⟨taken, after, hdropped, hafter⟩ := WriteBuffer.run_flush hbehind
    refine ⟨taken, after, hdropped, ?_⟩
    obtain ⟨stream, e | ⟨⟩⟩ := failed
    · have htext : plain.1.text.take buffer.settled = stream.text.take buffer.settled := hsame
      rw [settled_eq_of_full hfull hafter, ← htext]
      exact .cut e hfull hmore
    · exact absurd hfailed Bool.noConfusion

end

/-- **What reports have written comes out, as far as there is room.** -/
theorem writeThrough_squeezed (configDirectory : String) {fs : FileSystem}
    {nodeName : Option NodeName} {outlet : Option NamePath} {view : ProcView}
    {table : Option Table} {config : Config}
    (h : StandsStill fs nodeName config.procRoot outlet view table) (reports : List Report) :
    ∃ seen, (writeThrough (FileSystem.host configDirectory nodeName) (FileSystem.handTo outlet)
        config reports).run (fs.filled [] outlet) = (seen, fs.filled seen.1 outlet) ∧
      (account view table config reports).Squeezed (fs.limit outlet) seen := by
  obtain ⟨hends, hflushed⟩ := writeAndFlush_ends configDirectory h reports
  have hrun : (writeThrough (FileSystem.host configDirectory nodeName) (FileSystem.handTo outlet)
      config reports).run (fs.filled [] outlet) =
      let ended := ((writeAndFlush (FileSystem.host configDirectory nodeName)
        (FileSystem.handTo outlet) config reports).run {}).run (fs.filled [] outlet)
      let dropped := ((WriteBuffer.flush (FileSystem.handTo outlet) ended.1.1.1.sink.taken).run
        ended.1.2).run ended.2
      ((ended.1.1.1.text.take dropped.1.2.settled, ended.1.1.2), dropped.2) := rfl
  obtain ⟨taken, after, hdropped, hsqueezed⟩ := dropped_squeezed hends hflushed
  simp only [hdropped] at hrun
  exact ⟨_, hrun, hsqueezed⟩

end Report

end KernelTables
