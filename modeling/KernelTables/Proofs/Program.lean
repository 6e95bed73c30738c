import KernelTables.Proofs.CommandLine
import KernelTables.Proofs.Report.Delivery

/-!
# All reports in a row

What can be seen of a run of the program is how it ends, what it prints, what it complains about,
and what the output file holds afterwards.  The command that stands for all reports can be told from
the three commands for one report by nothing of this, as long as there is room for what is written.

* `Report.account_cons` — what comes out of reports comes out of one after another;
* `Performance` — what is seen of a run, and of a run after another;
* `Reading.SharesOptions` — options that mean the same with every command, as any reading of command
  lines has them that knows such options;
* `Program.perform_squeezed` — the run of a command, by the reports that it stands for;
* `Program.InARow` — what one run does where a row of them, each with the same room, uses it up;
* `Program.all_in_a_row` — **the three commands, one after another**.
-/

namespace KernelTables

open Progress

/-! ## Reports one after another -/

namespace Report

variable (view : ProcView) (table : Option Table) (config : Config)

theorem adds_settle {σ : Type} {step : Stream → Run σ} (root : String) (h : Additive step) :
    ∃ lines result, ∀ stream : Stream, stream.sink.room = none →
      settle root (step stream) = (stream.append lines, result) := by
  obtain ⟨reporter, lines, result, hadds⟩ := h
  refine ⟨lines, (settle root ⟨reporter, {}, result⟩).2, fun stream hroom => ?_⟩
  rw [hadds stream hroom]
  rfl

/-- A report adds the same lines to every stream and comes to the same. -/
theorem plain_adds (report : Report) :
    ∃ lines result, ∀ stream : Stream, stream.sink.room = none →
      plain view table config report stream = (stream.append lines, result) := by
  cases report with
  | tasks => exact adds_settle config.procRoot (TaskReporter.additive_run _ view)
  | files => exact adds_settle config.procRoot (FileReporter.additive_run _ view)
  | symbols =>
    cases table with
    | none =>
      exact ⟨[], .error (.openingSymbols (symbolPath config.procRoot)),
        fun stream _ => by rw [Stream.append_nil]; rfl⟩
    | some table => exact adds_settle config.procRoot (SymbolReporter.additive_run {} table)

/-- And so do reports one after another. -/
theorem plainAll_adds (reports : List Report) :
    ∃ lines result, ∀ stream : Stream, stream.sink.room = none →
      plainAll view table config reports stream = (stream.append lines, result) := by
  induction reports with
  | nil => exact ⟨[], .ok (), fun stream _ => by rw [Stream.append_nil]; rfl⟩
  | cons report reports ih =>
    obtain ⟨lines, result, hfirst⟩ := plain_adds view table config report
    obtain ⟨more, last, hrest⟩ := ih
    cases result with
    | error e =>
      exact ⟨lines, .error e, fun stream hroom => by rw [plainAll, hfirst stream hroom]⟩
    | ok =>
      refine ⟨lines ++ more, last, fun stream hroom => ?_⟩
      rw [plainAll, hfirst stream hroom, ← Stream.append_append]
      exact hrest _ hroom

/-- **What comes out of reports comes out of one after another.** -/
theorem account_cons (report : Report) (reports : List Report) :
    account view table config (report :: reports) =
      (account view table config [report]).andThen (account view table config reports) := by
  obtain ⟨lines, result, hfirst⟩ := plain_adds view table config report
  obtain ⟨more, last, hrest⟩ := plainAll_adds view table config reports
  have hone := hfirst {} rfl
  cases result with
  | error e =>
    simp only [account, plainAll, hone]
    rfl
  | ok =>
    have hthen := hrest (({} : Stream).append lines) rfl
    have halone := hrest {} rfl
    have hnil : ({} : Stream).text = [] := rfl
    simp only [account, plainAll, hone, hthen, halone, Stream.text_append, hnil, List.nil_append]
    rfl

end Report

/-! ## What is seen of a run -/

/-- What is seen of a run of the program. -/
structure Performance extends Completion where
  /-- What the output file holds afterwards. -/
  file : Bytes := []
  deriving DecidableEq, Repr

namespace Performance

/-- One run after another, which is only made if the first one succeeds. -/
def andThen (first second : Performance) : Performance :=
  if first.exitCode = 0 then
    { exitCode := second.exitCode
      output := first.output ++ second.output
      diagnostics := first.diagnostics ++ second.diagnostics
      file := first.file ++ second.file }
  else first

/-- All that has come out of a run, wherever it went. -/
def written (seen : Performance) : Bytes := seen.output ++ seen.file

/-- What is seen of a run with a given account. -/
def showing (outlet : Option NamePath) (account : Account) : Performance where
  exitCode := if account.2.isOk then 0 else 1
  output := if outlet.isNone then account.1 else []
  diagnostics := match account.2 with
    | .ok () => ""
    | .error failure => failure.diagnostic
  file := if outlet.isNone then [] else account.1

theorem exitCode_showing_le (outlet : Option NamePath) (account : Account) :
    (showing outlet account).exitCode ≤ 1 := by
  unfold showing
  dsimp only
  split <;> omega

theorem written_showing (outlet : Option NamePath) (account : Account) :
    (showing outlet account).written = account.1 := by
  cases outlet with
  | none => exact List.append_nil _
  | some place => rfl

/-- Runs in a row are seen in a row. -/
theorem showing_andThen (outlet : Option NamePath) (first second : Account) :
    (showing outlet first).andThen (showing outlet second) =
      showing outlet (first.andThen second) := by
  obtain ⟨text, e | ⟨⟩⟩ := first
  · rfl
  · obtain ⟨more, e | ⟨⟩⟩ := second <;> cases outlet <;>
      simp [andThen, Account.andThen, showing, Except.isOk, Except.toBool]

/-- Whether a room of `n` bytes is used up by what has come out of a run.  A run that has succeeded
may leave it just full. -/
def UsesUp (seen : Performance) (n : Nat) : Prop :=
  n ≤ seen.written.length ∧ (seen.exitCode = 0 → n < seen.written.length)

/-- Whether a run fails after the first `n` bytes of what comes out of others. -/
structure CutAt (n : Nat) (others seen : Performance) : Prop where
  /-- The run fails. -/
  exitCode : seen.exitCode = 1
  /-- What it has printed ends where the room does. -/
  output : seen.output = others.output.take n
  /-- So does what it has put in the output file. -/
  file : seen.file = others.file.take n

theorem usesUp_showing (outlet : Option NamePath) (account : Account) (n : Nat) :
    (showing outlet account).UsesUp n ↔ account.UsesUp n := by
  have hcode : (showing outlet account).exitCode = 0 ↔ account.2.isOk = true := by
    cases hok : account.2.isOk <;> simp [showing, hok]
  rw [UsesUp, written_showing, hcode, Account.UsesUp]

theorem cutAt_showing (outlet : Option NamePath) (others : Account) (n : Nat)
    (failure : Failure) :
    CutAt n (showing outlet others) (showing outlet (others.1.take n, .error failure)) where
  exitCode := rfl
  output := by cases outlet <;> simp [showing]
  file := by cases outlet <;> simp [showing]

end Performance

namespace FileSystem

/-- What the file that output goes to holds, if it goes to one. -/
def contentAt (fs : FileSystem) (outlet : Option NamePath) : Bytes := outlet.elim [] fs.bytesAt

theorem contentAt_filled (fs : FileSystem) (text : Bytes) (outlet : Option NamePath) :
    (fs.filled text outlet).contentAt outlet = if outlet.isNone then [] else text := by
  cases outlet with
  | none => rfl
  | some place => exact fs.bytesAt_filled text place

end FileSystem

/-! ## Options for every command -/

/-- Whether the words before and behind a command are options of every command, and mean the same
with each. -/
structure Reading.SharesOptions (reading : Reading) (before behind : List String)
    (settings : Settings) : Prop where
  /-- They are options of the report on processes, -/
  tasks : reading.commandLine (before ++ "tasks" :: behind) = .ok (.run settings (.tasks false))
  /-- of the report on open files, -/
  files : reading.commandLine (before ++ "files" :: behind) = .ok (.run settings .files)
  /-- of the report on symbols, -/
  symbols : reading.commandLine (before ++ "ksyms" :: behind) = .ok (.run settings .symbols)
  /-- and of all reports. -/
  all : reading.commandLine (before ++ "all" :: behind) = .ok (.run settings .all)

/-- As command lines are usually read, what the command for all reports takes is shared. -/
theorem Reading.usual_sharesOptions {before behind : List String} {settings : Settings}
    (hopen : Invocation.parse before = .error .noCommand)
    (hall : Invocation.parse (before ++ "all" :: behind) = .ok (.run settings .all)) :
    usual.SharesOptions before behind settings := by
  have hread (name : String) {command : Command} (hname : CommandLine.command? name = some command) :
      usual.commandLine (before ++ name :: behind) = .ok (.run settings command) :=
    congrArg (·.mapError UsageError.message) (Invocation.parse_command hopen hall hname)
  exact ⟨hread "tasks" rfl, hread "files" rfl, hread "ksyms" rfl, hread "all" rfl⟩

/-! ## Runs on a file system -/

/-- The place of the file that output goes to, if it goes to one that can be made. -/
def Settings.outlet (settings : Settings) (fs : FileSystem) : Option NamePath :=
  settings.output.bind fun path => fs.placeForFile? (utf8 path)

namespace Program

/-- What is seen of a run of the program on a file system. -/
def perform (reading : Reading) (configDirectory : String) (nodeName : Option NodeName)
    (fs : FileSystem) (outlet : Option NamePath) (words : List String) : Performance :=
  let ended := (runAs reading (FileSystem.host configDirectory nodeName) words).run fs
  ⟨ended.1, ended.2.contentAt outlet⟩

/-- The configuration of a run, or why there is none. -/
def configuration (reading : Reading) (configDirectory : String) (fs : FileSystem)
    (settings : Settings) : Except Failure Config :=
  ((loadConfig reading (FileSystem.host configDirectory none) settings.config).run fs).1

variable {reading : Reading} {configDirectory : String} {nodeName : Option NodeName}
  {fs : FileSystem} {settings : Settings} {command : Command} {words : List String}

/-- Looking for the configuration changes nothing. -/
theorem run_loadConfig (nodeName : Option NodeName) :
    (loadConfig reading (FileSystem.host configDirectory nodeName) settings.config).run fs =
      (configuration reading configDirectory fs settings, fs) := by
  unfold configuration loadConfig
  cases settings.config with
  | some path => rfl
  | none =>
    refine Prod.ext rfl ?_
    cases hfound : (fs.find? (utf8 (Config.defaultPath configDirectory))).isSome with
    | false =>
      simp only [FileSystem.host, bind_pure_comp, Functor.map_map, bind_map_left, pure_bind,
        StateT.run_bind, StateT.run_get, hfound, Bool.false_eq_true, if_false, StateT.run_pure]
      rfl
    | true =>
      simp only [FileSystem.host, bind_pure_comp, Functor.map_map, bind_map_left, pure_bind,
        StateT.run_bind, StateT.run_get, hfound, if_true, StateT.run_map, map_pure]
      rfl

/-- The layout is that of the configuration unless the command asks for the short one. -/
theorem override_eq_of_long (config : Config) (settings : Settings)
    (hlong : command ≠ .tasks true) :
    config.override settings command = config.override settings .all := by
  rw [Config.override, Config.override, if_neg hlong, if_neg (by decide)]

variable (reading configDirectory nodeName fs)

/-- What a run does once its command line has been read. -/
theorem run_of_commandLine (hwords : reading.commandLine words = .ok (.run settings command)) :
    (runAs reading (FileSystem.host configDirectory nodeName) words).run fs =
      match configuration reading configDirectory fs settings with
      | .error failure => (failed failure [], fs)
      | .ok config =>
        (runCommand (FileSystem.host configDirectory nodeName) (config.override settings command)
          settings command).run fs := by
  rw [runAs, hwords]
  simp only [StateT.run_bind, run_loadConfig]
  cases configuration reading configDirectory fs settings <;> rfl

/-- Without a configuration nothing is done. -/
theorem perform_of_no_configuration (outlet : Option NamePath)
    (hwords : reading.commandLine words = .ok (.run settings command)) {failure : Failure}
    (hconfig : configuration reading configDirectory fs settings = .error failure) :
    perform reading configDirectory nodeName fs outlet words =
      ⟨failed failure [], fs.contentAt outlet⟩ := by
  have hrun := run_of_commandLine reading configDirectory nodeName fs hwords
  simp only [hconfig] at hrun
  rw [perform, hrun]

theorem run_createFile (path : String) :
    ((FileSystem.host configDirectory nodeName).createFile path).run fs =
      match fs.placeForFile? (utf8 path) with
      | none => (none, fs)
      | some place => (some (FileSystem.handTo (some place)), fs.filled [] (some place)) := by
  simp only [FileSystem.host, StateT.run_bind, StateT.run_get, pure_bind]
  cases fs.placeForFile? (utf8 path) <;> rfl

/-- Nothing is done either where the output file cannot be made. -/
theorem perform_of_no_file
    (hwords : reading.commandLine words = .ok (.run settings command)) {config : Config}
    (hconfig : configuration reading configDirectory fs settings = .ok config) {path : String}
    (hpath : settings.output = some path) (hplace : settings.outlet fs = none) :
    perform reading configDirectory nodeName fs (settings.outlet fs) words =
      ⟨failed (.creatingOutput path) [], []⟩ := by
  have hmade : fs.placeForFile? (utf8 path) = none := by
    rw [Settings.outlet, hpath] at hplace
    exact hplace
  have hrun := run_of_commandLine reading configDirectory nodeName fs hwords
  have hcreate := run_createFile configDirectory nodeName fs path
  simp only [hmade] at hcreate
  simp only [hconfig, runCommand, hpath, StateT.run_bind, hcreate] at hrun
  rw [hplace, perform, hrun]
  rfl

/-- A command where output can be made. -/
theorem run_runCommand (config : Config) (command : Command)
    (hopen : settings.output.isSome = (settings.outlet fs).isSome) :
    (runCommand (FileSystem.host configDirectory nodeName) config settings command).run fs =
      let outlet := settings.outlet fs
      let ended := (Report.writeThrough (FileSystem.host configDirectory nodeName)
        (FileSystem.handTo outlet) config command.reports).run (fs.filled [] outlet)
      ((Performance.showing outlet ended.1).toCompletion, ended.2) := by
  cases hpath : settings.output with
  | none =>
    have houtlet : settings.outlet fs = none := by rw [Settings.outlet, hpath]; rfl
    have hhand : (FileSystem.host configDirectory nodeName).print = FileSystem.handTo none := rfl
    simp only [runCommand, hpath, houtlet, hhand, fs.filled_nil_standardOutput, StateT.run_bind]
    generalize StateT.run (Report.writeThrough (FileSystem.host configDirectory nodeName)
      (FileSystem.handTo none) config command.reports) fs = ended
    obtain ⟨⟨text, e | ⟨⟩⟩, now⟩ := ended <;> rfl
  | some path =>
    cases hplace : settings.outlet fs with
    | none =>
      rw [hpath, hplace] at hopen
      exact absurd hopen (by simp)
    | some place =>
      have hmade : fs.placeForFile? (utf8 path) = some place := by
        rw [Settings.outlet, hpath] at hplace
        exact hplace
      have hcreate := run_createFile configDirectory nodeName fs path
      simp only [hmade] at hcreate
      simp only [runCommand, hpath, StateT.run_bind, hcreate]
      let complete (ended : Account × FileSystem) :=
        (match ended.1.2 with
          | .ok () => ({} : Completion)
          | .error failure => failed failure [], ended.2)
      refine Eq.trans (b := complete (StateT.run (Report.writeThrough
        (FileSystem.host configDirectory nodeName) (FileSystem.handTo (some place)) config
        command.reports) (fs.filled [] (some place)))) rfl ?_
      generalize StateT.run (Report.writeThrough (FileSystem.host configDirectory nodeName)
        (FileSystem.handTo (some place)) config command.reports) (fs.filled [] (some place)) = ended
      obtain ⟨⟨text, e | ⟨⟩⟩, now⟩ := ended <;> rfl

variable {reading configDirectory nodeName fs} {view : ProcView} {table : Option Table}

/-- **What is seen of a command** where output can be made: what comes out of its reports, as far as
there is room. -/
theorem perform_squeezed
    (hwords : reading.commandLine words = .ok (.run settings command))
    (hlong : command ≠ .tasks true) {config : Config}
    (hconfig : configuration reading configDirectory fs settings = .ok config)
    (hopen : settings.output.isSome = (settings.outlet fs).isSome)
    (hstill : StandsStill fs nodeName (settings.procRoot.getD config.procRoot)
      (settings.outlet fs) view table) :
    ∃ seen, perform reading configDirectory nodeName fs (settings.outlet fs) words =
        .showing (settings.outlet fs) seen ∧
      (Report.account view table (config.override settings .all) command.reports).Squeezed
        (fs.limit (settings.outlet fs)) seen := by
  have hstands : StandsStill fs nodeName (config.override settings .all).procRoot
    (settings.outlet fs) view table := hstill
  obtain ⟨seen, hwritten, hsqueezed⟩ :=
    Report.writeThrough_squeezed configDirectory hstands command.reports
  refine ⟨seen, ?_, hsqueezed⟩
  have hrun := run_of_commandLine reading configDirectory nodeName fs hwords
  have hcommand := run_runCommand configDirectory nodeName fs (config.override settings .all)
    command hopen
  simp only [hwritten] at hcommand
  simp only [hconfig, override_eq_of_long config settings hlong, hcommand] at hrun
  simp only [perform, hrun, FileSystem.contentAt_filled]
  rfl

/-! ## All reports and each of them -/

/-- What is seen of the three commands for one report each, one after another. -/
def performEach (reading : Reading) (configDirectory : String) (nodeName : Option NodeName)
    (fs : FileSystem) (outlet : Option NamePath) (before behind : List String) : Performance :=
  let seen name := perform reading configDirectory nodeName fs outlet (before ++ name :: behind)
  (seen "tasks").andThen ((seen "files").andThen (seen "ksyms"))

variable {before behind : List String} {outlet : Option NamePath}

/-- Where the first command fails, that is all that is seen of the three. -/
theorem performEach_of_failed {seen : Performance} (hcode : seen.exitCode ≠ 0)
    (h : perform reading configDirectory nodeName fs outlet (before ++ "tasks" :: behind) = seen) :
    performEach reading configDirectory nodeName fs outlet before behind = seen := by
  simp only [performEach, h, Performance.andThen, if_neg hcode]

/-- Whether a run gets as far as its output: it has a configuration, and if a file is asked for, that
can be made. -/
structure ReachesOutput (reading : Reading) (configDirectory : String) (fs : FileSystem)
    (settings : Settings) : Prop where
  configured : (configuration reading configDirectory fs settings).isOk = true
  opened : settings.output.isSome = (settings.outlet fs).isSome

/-- Whether one run does what a row of them does, as far as each output has room. -/
structure InARow (room : Option Nat) (parts whole : Performance) : Prop where
  /-- It succeeds or fails. -/
  exitCode_le : whole.exitCode ≤ 1
  /-- As long as the room is not used up, there is nothing to tell them apart. -/
  same : (∀ n ∈ room, ¬parts.UsesUp n) → whole = parts
  /-- Where it is used up, the one run fails there. -/
  cut : ∀ n ∈ room, parts.UsesUp n → parts.CutAt n whole

/-- Where output can be made, the one run and the three put out the same, up to the end of the
room. -/
theorem inARow_of_open (hoptions : reading.SharesOptions before behind settings)
    {config : Config} (hconfig : configuration reading configDirectory fs settings = .ok config)
    (hopen : settings.output.isSome = (settings.outlet fs).isSome)
    (hstill : StandsStill fs nodeName (settings.procRoot.getD config.procRoot)
      (settings.outlet fs) view table) :
    InARow (fs.limit (settings.outlet fs))
      (performEach reading configDirectory nodeName fs (settings.outlet fs) before behind)
      (perform reading configDirectory nodeName fs (settings.outlet fs)
        (before ++ "all" :: behind)) := by
  have hseen {words : List String} {command : Command}
      (hwords : reading.commandLine words = .ok (.run settings command))
      (hlong : command ≠ .tasks true) := perform_squeezed hwords hlong hconfig hopen hstill
  obtain ⟨tasks, htasks, htasksSqueezed⟩ := hseen hoptions.tasks (by decide)
  obtain ⟨files, hfiles, hfilesSqueezed⟩ := hseen hoptions.files (by decide)
  obtain ⟨symbols, hsymbols, hsymbolsSqueezed⟩ := hseen hoptions.symbols (by decide)
  obtain ⟨all, hall, hallSqueezed⟩ := hseen hoptions.all (by decide)
  simp only [Command.reports] at hallSqueezed
  rw [Report.account_cons _ _ _ .tasks, Report.account_cons _ _ _ .files] at hallSqueezed
  have hrow := htasksSqueezed.andThen (hfilesSqueezed.andThen hsymbolsSqueezed.each)
  simp only [performEach, htasks, hfiles, hsymbols, hall, Performance.showing_andThen]
  refine ⟨Performance.exitCode_showing_le _ all, fun hroom => ?_, fun n hn hused => ?_⟩
  · simp only [Performance.usesUp_showing] at hroom
    rw [hallSqueezed.eq_of_not_usesUp hrow hroom]
  · rw [Performance.usesUp_showing] at hused
    obtain ⟨failure, rfl⟩ := hallSqueezed.eq_cut_of_usesUp hrow hn hused
    exact Performance.cutAt_showing ..

/-- Where every command fails in the same way, so do the one run and the three. -/
theorem all_eq_each_of_failed (hoptions : reading.SharesOptions before behind settings)
    {failure : Failure} {held : Bytes}
    (h : ∀ {words : List String} {command : Command},
      reading.commandLine words = .ok (.run settings command) →
        perform reading configDirectory nodeName fs outlet words = ⟨failed failure [], held⟩) :
    let all := perform reading configDirectory nodeName fs outlet (before ++ "all" :: behind)
    all = performEach reading configDirectory nodeName fs outlet before behind ∧
      all.exitCode = 1 := by
  have hall := h hoptions.all
  have heach := performEach_of_failed Nat.one_ne_zero (h hoptions.tasks)
  exact ⟨hall.trans heach.symm, congrArg (·.exitCode) hall⟩

/-- So it is where they do not come to any output. -/
theorem all_eq_each_of_not_reachesOutput (hoptions : reading.SharesOptions before behind settings)
    (hreach : ¬ReachesOutput reading configDirectory fs settings) :
    let all := perform reading configDirectory nodeName fs (settings.outlet fs)
      (before ++ "all" :: behind)
    all = performEach reading configDirectory nodeName fs (settings.outlet fs) before behind ∧
      all.exitCode = 1 := by
  cases hconfig : configuration reading configDirectory fs settings with
  | error failure =>
    exact all_eq_each_of_failed hoptions fun hwords =>
      perform_of_no_configuration reading configDirectory nodeName fs _ hwords hconfig
  | ok config =>
    have hopen : settings.output.isSome ≠ (settings.outlet fs).isSome :=
      fun hopen => hreach ⟨by rw [hconfig]; rfl, hopen⟩
    cases hpath : settings.output with
    | none =>
      rw [Settings.outlet, hpath] at hopen
      exact absurd rfl hopen
    | some path =>
      have houtlet : settings.outlet fs = none := by
        rw [hpath] at hopen
        simpa using hopen
      exact all_eq_each_of_failed hoptions fun hwords =>
        perform_of_no_file reading configDirectory nodeName fs hwords hconfig hpath houtlet

/-- **All reports are the three in a row**, as far as the output has room.  The command for all
reports is run, and the three commands for one report each, with the same options in front of them
and behind them, on the same files, which do not change but for the output file, and with the same
room for their output.  The one run ends as the three do, one after another until one fails; it
prints what they print, leaves in the output file what they leave there, and makes the same
complaint.  Where they use the room up, the one run fails with as much as there is room for.  It may
then complain of something else, because all its reports pass one buffer, which is flushed once. -/
theorem all_in_a_row (reading : Reading) (configDirectory : String) (nodeName : Option NodeName)
    (fs : FileSystem) {before behind : List String} {settings : Settings}
    (hoptions : reading.SharesOptions before behind settings)
    {view : ProcView} {table : Option Table}
    (hstill : ∀ config, configuration reading configDirectory fs settings = .ok config →
      StandsStill fs nodeName (settings.procRoot.getD config.procRoot) (settings.outlet fs) view
        table) :
    let all := perform reading configDirectory nodeName fs (settings.outlet fs)
      (before ++ "all" :: behind)
    let each := performEach reading configDirectory nodeName fs (settings.outlet fs) before behind
    (¬ReachesOutput reading configDirectory fs settings → all = each ∧ all.exitCode = 1) ∧
      (ReachesOutput reading configDirectory fs settings →
        InARow (fs.limit (settings.outlet fs)) each all) := by
  refine ⟨fun hreach => all_eq_each_of_not_reachesOutput hoptions hreach, fun hreach => ?_⟩
  obtain ⟨hconfigured, hopen⟩ := hreach
  cases hconfig : configuration reading configDirectory fs settings with
  | error failure =>
    rw [hconfig] at hconfigured
    exact absurd hconfigured Bool.noConfusion
  | ok config => exact inARow_of_open hoptions hconfig hopen (hstill config hconfig)

/-! ## One process -/

/-- A file system with one process in it, what else there is in the process table, the places of
files without room, and how much any other file can hold. -/
def oneProcess (others : List (Bytes × FileTree)) (full : List NamePath)
    (fileLimit : Option Nat) : FileSystem where
  root := .directory
    [(utf8 "dev", .directory [(utf8 "full", .file [] none)]),
      (utf8 "proc", .directory ((utf8 "1", process) :: others))]
  workingDirectory := []
  full := full
  fileLimit := fileLimit
where
  /-- A process's directory, with its leader alone. -/
  process : FileTree :=
    .directory [(utf8 "task", .directory [(utf8 "1", .directory
      [(utf8 "status", .file (utf8 "Pid:\t1\nTgid:\t1\n") none)])])]

/-- A symbol table with two symbols. -/
def twoSymbols : Bytes × FileTree := (utf8 "kallsyms", .file (utf8 "10 t a\n18 T b\n") none)

theorem linkFree_oneProcess {others : List (Bytes × FileTree)}
    (h : ∀ entry ∈ others, entry.2.LinkFree) (full : List NamePath) (fileLimit : Option Nat) :
    (oneProcess others full fileLimit).root.LinkFree := by
  have hdevices : (FileTree.directory [(utf8 "full", .file [] none)]).LinkFree :=
    FileTree.linkFree_singleton _ (FileTree.linkFree_file [] none)
  have hprocess : oneProcess.process.LinkFree :=
    FileTree.linkFree_singleton _ (FileTree.linkFree_singleton _
      (FileTree.linkFree_singleton _ (FileTree.linkFree_file _ none)))
  refine FileTree.linkFree_directory (List.forall_mem_cons.mpr ⟨hdevices, ?_⟩)
  exact List.forall_mem_singleton.mpr
    (FileTree.linkFree_directory (List.forall_mem_cons.mpr ⟨hprocess, h⟩))

/-- A process and two symbols come to a file beside the process table, in one run as in three.  If
the file can hold 140 bytes, each of the three has room enough, and the one run has not. -/
theorem all_in_a_row_oneProcess :
    let files := oneProcess [twoSymbols] []
    let settings : Settings := { procRoot := some "proc", output := some "out" }
    let seen limit name := perform .usual "/home" none (files limit)
      (settings.outlet (files limit)) (["--proc-root", "proc"] ++ name :: ["-o", "out"])
    let each limit := performEach .usual "/home" none (files limit)
      (settings.outlet (files limit)) ["--proc-root", "proc"] ["-o", "out"]
    Reading.usual.SharesOptions ["--proc-root", "proc"] ["-o", "out"] settings ∧
      (∀ limit ∈ [none, some 140], ∃ view table, ∀ config,
        configuration .usual "/home" (files limit) settings = .ok config →
          StandsStill (files limit) none (settings.procRoot.getD config.procRoot)
            (settings.outlet (files limit)) view table) ∧
      (seen none "tasks").file ≠ [] ∧ (seen none "ksyms").file ≠ [] ∧
      (seen none "all").exitCode = 0 ∧ seen none "all" = each none ∧
      (each (some 140)).exitCode = 0 ∧ (each (some 140)).CutAt 140 (seen (some 140) "all") := by
  intro files settings seen each
  have hlinks (limit : Option Nat) : (files limit).root.LinkFree :=
    linkFree_oneProcess (List.forall_mem_singleton.mpr (FileTree.linkFree_file _ _)) [] limit
  have houtlet : ∀ limit ∈ [none, some 140],
      settings.outlet (files limit) = some [utf8 "out"] := by
    decide +kernel
  have htable : ∀ limit ∈ [none, some 140], ((files limit).filled [] (some [utf8 "out"])).locate true
      (utf8 (Report.symbolPath "proc")) ≠ some [utf8 "out"] := by
    decide +kernel
  have hstill : ∀ limit ∈ [none, some 140], ∃ view table,
      StandsStill (files limit) none "proc" (settings.outlet (files limit)) view table := by
    intro limit hlimit
    rw [houtlet limit hlimit]
    exact ⟨_, _, .outside (hlinks limit) (by decide) (by decide)
      (show ¬[utf8 "proc"] <+: [utf8 "out"] by decide) (htable limit hlimit)⟩
  have hoptions : Reading.usual.SharesOptions ["--proc-root", "proc"] ["-o", "out"] settings :=
    Reading.usual_sharesOptions (by decide +kernel) (by decide +kernel)
  obtain ⟨_, _, hwide⟩ := hstill none (by simp)
  obtain ⟨_, _, hnarrow⟩ := hstill (some 140) (by simp)
  refine ⟨hoptions, fun limit hlimit => ?_, by decide +kernel, by decide +kernel,
    by decide +kernel, ?_, by decide +kernel, ?_⟩
  · obtain ⟨view, table, h⟩ := hstill limit hlimit
    exact ⟨view, table, fun config _ => h⟩
  · have hnone : (files none).limit (settings.outlet (files none)) = none := by decide +kernel
    have hrow := (all_in_a_row .usual "/home" none (files none) hoptions fun config _ => hwide).2
      ⟨by decide +kernel, by decide +kernel⟩
    refine hrow.same ?_
    rw [hnone]
    exact fun n hn => nomatch hn
  · have hsome : (files (some 140)).limit (settings.outlet (files (some 140))) = some 140 := by
      decide +kernel
    have hrow := (all_in_a_row .usual "/home" none (files (some 140)) hoptions
      fun config _ => hnarrow).2 ⟨by decide +kernel, by decide +kernel⟩
    exact hrow.cut 140 hsome ⟨by decide +kernel, fun _ => by decide +kernel⟩

/-- **An output without room makes a difference**, be it a file or the standard output.  What the
first report writes stays in the buffer, and with all reports in one run the symbol table is missed
before the buffer is flushed, although the process table stands still. -/
theorem all_not_in_a_row_on_full :
    let files := oneProcess [] [[utf8 "dev", utf8 "full"]] none
    let settings : Settings := { output := some "/dev/full" }
    let seen name := perform .usual "/home" none files (settings.outlet files)
      ["-o", "/dev/full", name]
    let printing := { files with printLimit := some 0 }
    let printed name := perform .usual "/home" none printing none [name]
    (∃ view table, StandsStill files none "/proc" (settings.outlet files) view table) ∧
      (∃ view table, StandsStill printing none "/proc" none view table) ∧
      ∀ run ∈ [seen, printed],
        (run "tasks").exitCode = 1 ∧ (run "tasks").diagnostics = "Error: flushing output\n" ∧
        (run "all").exitCode = 1 ∧ (run "all").diagnostics = "Error: opening /proc/kallsyms\n" := by
  intro files settings seen printing printed
  have hlinks : files.root.LinkFree := linkFree_oneProcess (by simp) _ _
  have houtlet : settings.outlet files = some [utf8 "dev", utf8 "full"] := by decide +kernel
  have hstill : StandsStill files none "/proc" (some [utf8 "dev", utf8 "full"]) _ _ :=
    .outside hlinks (by decide) (by decide) (by decide) (by decide +kernel)
  refine ⟨⟨_, _, houtlet ▸ hstill⟩, ⟨_, _, .standardOutput printing none "/proc"⟩, ?_⟩
  intro run hrun
  obtain rfl | rfl : run = seen ∨ run = printed := by simpa using hrun
  · decide +kernel
  · decide +kernel

end Program

end KernelTables
