import KernelTables.CommandLine

/-!
# Command lines that differ in their command

Every command takes the options that all commands take, in front of it and behind it.  So a command
line stays one when its command is replaced by another.

* `Side.KeepsLayout` — no such option asks for the short layout, which is the task report's own;
* `behind_of_all` — what `all` takes behind it, every command takes, and it means the same;
* `before_of_all` — and so with what stands in front of it;
* `Invocation.parse_command` — **the commands of a command line can be exchanged**.
-/

namespace KernelTables

namespace CommandLine

/-! ## Reading on -/

/-- Goes on behind a command with what a word came to. -/
def onward (command : Command) (words : List String) :
    Except UsageError Step → Except UsageError (Option Side)
  | .error e => .error e
  | .ok .help => .ok none
  | .ok (.next side) => behind command side none words
  | .ok (.await side option) => behind command side (some option) words

theorem behind_cons (command : Command) (side : Side) (waiting : Option ValueOption)
    (word : String) (words : List String) :
    behind command side waiting (word :: words) =
      match Word.of word, waiting with
      | .operand text, some option => onward command words ((setValue side option text).map .next)
      | .operand text, none => .error (.unknownWord text)
      | _, some option => .error (.noValue option)
      | .long name value, none => onward command words (longOption (some command) side name value)
      | .short cs, none => onward command words (letters side cs)
      | .endOfOptions, none =>
        match words with
        | [] => (finish side).map some
        | operand :: _ => .error (.unknownWord operand) := rfl

/-- Goes on in front of the command with what a word came to. -/
def onwardTo (words : List String) : Except UsageError Step → Except UsageError Invocation
  | .error e => .error e
  | .ok .help => .ok .help
  | .ok (.next side) => before side none words
  | .ok (.await side option) => before side (some option) words

theorem before_cons (side : Side) (waiting : Option ValueOption) (word : String)
    (words : List String) :
    before side waiting (word :: words) =
      match Word.of word, waiting with
      | .operand text, some option => onwardTo words ((setValue side option text).map .next)
      | .operand text, none =>
        match command? text with
        | some command => complete side command words
        | none => if text = "help" then helpOn words else .error (.unknownWord text)
      | _, some option => .error (.noValue option)
      | .long name value, none => onwardTo words (longOption none side name value)
      | .short cs, none => onwardTo words (letters side cs)
      | .endOfOptions, none =>
        match words with
        | [] => .error .noCommand
        | operand :: _ => .error (.unknownWord operand) := rfl

/-! ## What is wrong is not that there is no command -/

/-- Whether reading does not end with the complaint that no command is named. -/
def Named {α : Type} (read : Except UsageError α) : Prop := read ≠ .error .noCommand

theorem named_ok {α : Type} (value : α) : Named (.ok value) := by simp [Named]

theorem Named.bind {α β : Type} {read : Except UsageError α} {next : α → Except UsageError β}
    (h : Named read) (hnext : ∀ value, Named (next value)) : Named (read >>= next) := by
  cases read with
  | error e => exact fun herror => h (congrArg Except.error (Except.error.inj herror))
  | ok value => exact hnext value

theorem Named.map {α β : Type} {read : Except UsageError α} (h : Named read) (f : α → β) :
    Named (read.map f) := by
  cases read with
  | error e => exact fun herror => h (congrArg Except.error (Except.error.inj herror))
  | ok value => exact named_ok (f value)

theorem named_setValue (side : Side) (option : ValueOption) (value : String) :
    Named (setValue side option value) := by
  unfold setValue Named
  split
  · simp
  · split <;> simp

theorem named_valued (side : Side) (option : ValueOption) (value : Option String) :
    Named (valued side option value) := by
  cases value with
  | none => simp [valued, Named]
  | some value => exact (named_setValue side option value).map _

theorem named_plain (word : String) (step : Step) (value : Option String) :
    Named (plain word step value) := by
  cases value <;> simp [plain, Named]

theorem named_longOption (command : Option Command) (side : Side) (name : String)
    (value : Option String) : Named (longOption command side name value) := by
  unfold longOption
  split
  · exact named_valued _ _ _
  · exact named_valued _ _ _
  · exact named_valued _ _ _
  · exact named_plain _ _ _
  · exact named_plain _ _ _
  · exact named_plain _ _ _
  · split
    · split
      · simp [Named]
      · exact named_plain _ _ _
    · simp [Named]
  · simp [Named]

theorem named_letters (side : Side) (cs : List Char) : Named (letters side cs) := by
  fun_induction letters side cs with
  | case1 => simp [Named]
  | case2 _ _ ih => exact ih
  | case3 _ _ ih => exact ih
  | case4 => simp [Named]
  | case5 => simp [Named]
  | case6 => exact named_valued _ _ _
  | case7 => exact named_valued _ _ _
  | case8 => simp [Named]

theorem named_finish (side : Side) : Named (finish side) := by
  unfold finish Named
  split <;> simp

theorem named_behind (command : Command) (side : Side) (waiting : Option ValueOption)
    (words : List String) : Named (behind command side waiting words) := by
  induction words generalizing side waiting with
  | nil =>
    cases waiting with
    | some option => simp [behind, Named]
    | none => exact (named_finish side).map _
  | cons word words ih =>
    have honward {read : Except UsageError Step} (h : Named read) :
        Named (onward command words read) := by
      obtain e | side | ⟨side, option⟩ | ⟨⟩ := read
      · exact fun herror => h (congrArg Except.error (Except.error.inj herror))
      · exact ih side none
      · exact ih side (some option)
      · exact named_ok _
    rw [behind_cons]
    split
    · exact honward ((named_setValue _ _ _).map _)
    · simp [Named]
    · simp [Named]
    · exact honward (named_longOption _ _ _ _)
    · exact honward (named_letters _ _)
    · split
      · exact (named_finish side).map _
      · simp [Named]

theorem named_complete (outer : Side) (command : Command) (words : List String) :
    Named (complete outer command words) := by
  refine (named_behind command {} none words).bind fun inner => ?_
  cases inner with
  | none => exact named_ok _
  | some inner => exact (named_finish outer).bind fun outer => named_ok _

theorem named_helpOn (words : List String) : Named (helpOn words) := by
  unfold helpOn
  split
  · exact named_ok _
  · split <;> simp [Named]
  · split <;> simp [Named]

/-! ## Options that every command takes -/

/-- Whether a step leaves it open which layout is asked for. -/
def Step.KeepsLayout (basic : Bool) : Step → Prop
  | next side => side.basic = basic
  | await side _ => side.basic = basic
  | help => True

theorem keepsLayout_setValue {side next : Side} {option : ValueOption} {value : String}
    (h : setValue side option value = .ok next) : next.basic = side.basic := by
  unfold setValue at h
  split at h
  · exact absurd h (by simp)
  · split at h
    · exact absurd h (by simp)
    · obtain rfl := Except.ok.inj h
      rfl

theorem keepsLayout_map_setValue {side : Side} {option : ValueOption} {value : String} {step : Step}
    (h : (setValue side option value).map .next = .ok step) : step.KeepsLayout side.basic := by
  cases hset : setValue side option value with
  | error e =>
    rw [hset] at h
    exact absurd h (by simp [Except.map])
  | ok next =>
    rw [hset] at h
    obtain rfl := Except.ok.inj h
    exact keepsLayout_setValue hset

theorem keepsLayout_valued {side : Side} {option : ValueOption} {value : Option String}
    {step : Step} (h : valued side option value = .ok step) : step.KeepsLayout side.basic := by
  cases value with
  | none =>
    obtain rfl := Except.ok.inj h
    rfl
  | some value => exact keepsLayout_map_setValue h

theorem eq_of_plain {word : String} {step next : Step} {value : Option String}
    (h : plain word step value = .ok next) : next = step := by
  cases value with
  | none => exact (Except.ok.inj h).symm
  | some value => exact absurd h (by simp [plain])

/-- An option that `all` takes is taken by every command. -/
theorem longOption_of_all {side : Side} {name : String} {value : Option String} {step : Step}
    (h : longOption (some .all) side name value = .ok step) (command : Command) :
    longOption (some command) side name value = .ok step ∧ step.KeepsLayout side.basic := by
  unfold longOption at h
  split at h
  · exact ⟨h, keepsLayout_valued h⟩
  · exact ⟨h, keepsLayout_valued h⟩
  · exact ⟨h, keepsLayout_valued h⟩
  · exact ⟨h, eq_of_plain h ▸ rfl⟩
  · exact ⟨h, eq_of_plain h ▸ rfl⟩
  · exact ⟨h, eq_of_plain h ▸ trivial⟩
  · exact absurd h (by simp)
  · exact absurd h (by simp)

theorem keepsLayout_letters {side : Side} {cs : List Char} {step : Step}
    (h : letters side cs = .ok step) : step.KeepsLayout side.basic := by
  fun_induction letters side cs with
  | case1 =>
    obtain rfl := Except.ok.inj h
    rfl
  | case2 _ _ ih => exact ih h
  | case3 _ _ ih => exact ih h
  | case4 =>
    obtain rfl := Except.ok.inj h
    trivial
  | case5 =>
    obtain rfl := Except.ok.inj h
    rfl
  | case6 => exact keepsLayout_valued h
  | case7 => exact keepsLayout_valued h
  | case8 => exact absurd h (by simp)

theorem basic_of_finish {side last : Side} (h : finish side = .ok last) :
    last.basic = side.basic := by
  unfold finish at h
  split at h
  · exact absurd h (by simp)
  · obtain rfl := Except.ok.inj h
    rfl

/-- **What `all` takes behind it, every command takes**, and none of it is about the layout. -/
theorem behind_of_all {side : Side} {waiting : Option ValueOption} {words : List String}
    {inner : Option Side} (h : behind .all side waiting words = .ok inner) (command : Command) :
    behind command side waiting words = .ok inner ∧ ∀ last ∈ inner, last.basic = side.basic := by
  have hfinish {side : Side} (h : (finish side).map some = .ok inner) :
      ∀ last ∈ inner, last.basic = side.basic := by
    cases hside : finish side with
    | error e =>
      rw [hside] at h
      exact absurd h (by simp [Except.map])
    | ok last =>
      rw [hside] at h
      obtain rfl := Except.ok.inj h
      rintro _ ⟨⟩
      exact basic_of_finish hside
  induction words generalizing side waiting with
  | nil =>
    refine ⟨h, ?_⟩
    cases waiting with
    | some option => exact absurd h (by simp [behind])
    | none => exact hfinish h
  | cons word words ih =>
    have honward {read read' : Except UsageError Step} (hread : ∀ step, read = .ok step →
        read' = .ok step ∧ step.KeepsLayout side.basic) (h : onward .all words read = .ok inner) :
        onward command words read' = .ok inner ∧ ∀ last ∈ inner, last.basic = side.basic := by
      cases read with
      | error e => exact absurd h (by simp [onward])
      | ok step =>
        obtain ⟨rfl, hkeeps⟩ := hread step rfl
        cases step with
        | next next =>
          obtain ⟨hbehind, hbasic⟩ := ih h
          exact ⟨hbehind, fun last hlast => (hbasic last hlast).trans hkeeps⟩
        | await next option =>
          obtain ⟨hbehind, hbasic⟩ := ih h
          exact ⟨hbehind, fun last hlast => (hbasic last hlast).trans hkeeps⟩
        | help =>
          obtain rfl := Except.ok.inj h
          exact ⟨rfl, fun last hlast => absurd hlast (Option.not_mem_none last)⟩
    rw [behind_cons] at h ⊢
    split at h
    · exact honward (fun step hstep => ⟨hstep, keepsLayout_map_setValue hstep⟩) h
    · exact absurd h (by simp)
    · exact absurd h (by simp)
    · exact honward (fun step hstep => longOption_of_all hstep command) h
    · exact honward (fun step hstep => ⟨hstep, keepsLayout_letters hstep⟩) h
    · refine ⟨h, ?_⟩
      split at h
      · exact hfinish h
      · exact absurd h (by simp)

/-- A command takes the place of `all` where both sides have been read. -/
theorem complete_of_all {outer : Side} {words : List String} {settings : Settings}
    (h : complete outer .all words = .ok (.run settings .all)) {command : Command}
    (hlayout : command ≠ .tasks true) :
    complete outer command words = .ok (.run settings command) := by
  unfold complete at h ⊢
  cases hbehind : behind .all {} none words with
  | error e =>
    rw [hbehind] at h
    exact absurd h (by simp [bind, Except.bind])
  | ok inner =>
    obtain ⟨hcommand, hbasic⟩ := behind_of_all hbehind command
    rw [hbehind] at h
    rw [hcommand]
    cases inner with
    | none => exact absurd h (by simp [bind, Except.bind, pure, Except.pure])
    | some last =>
      have hlong : last.basic = false := hbasic last rfl
      cases hfinish : finish outer with
      | error e =>
        rw [hfinish] at h
        exact absurd h (by simp [bind, Except.bind])
      | ok outer =>
        rw [hfinish] at h
        have hsettings : Settings.overlay outer.settings last.settings = settings := by
          injection h with h
          injection h
        rw [← hsettings]
        cases command with
        | tasks basic =>
          have hbasic : basic = false := by simpa using hlayout
          rw [hbasic, ← hlong]
          rfl
        | files => rfl
        | symbols => rfl
        | all => rfl

/-- The name of a command does not look like an option. -/
theorem word_of_command {name : String} {command : Command} (h : command? name = some command) :
    Word.of name = .operand name := by
  unfold command? at h
  split at h
  · rfl
  · rfl
  · rfl
  · rfl
  · exact absurd h (by simp)

/-- The name of a command does not ask for the short layout. -/
theorem long_of_command {name : String} {command : Command} (h : command? name = some command) :
    command ≠ .tasks true := by
  unfold command? at h
  rintro rfl
  split at h <;> simp at h

/-- **In front of the command it does not matter which one it is.**  Where no command has been named
and `all` may follow, any command is completed from the options read so far. -/
theorem before_of_all {side : Side} {waiting : Option ValueOption} {words after : List String}
    {settings : Settings} {command : Command}
    (hopen : before side waiting words = .error .noCommand)
    (hall : before side waiting (words ++ "all" :: after) = .ok (.run settings command)) :
    ∃ outer, ∀ name command, command? name = some command →
      before side waiting (words ++ name :: after) = complete outer command after := by
  induction words generalizing side waiting with
  | nil =>
    cases waiting with
    | some option => exact absurd hopen (by simp [before])
    | none =>
      refine ⟨side, fun name command hname => ?_⟩
      rw [List.nil_append, before_cons, word_of_command hname]
      simp only [hname]
  | cons word words ih =>
    have honward {read : Except UsageError Step} (hopen : onwardTo words read = .error .noCommand)
        (hall : onwardTo (words ++ "all" :: after) read = .ok (.run settings command)) :
        ∃ outer, ∀ name command, command? name = some command →
          onwardTo (words ++ name :: after) read = complete outer command after := by
      obtain e | side | ⟨side, option⟩ | ⟨⟩ := read
      · exact absurd hall (by simp [onwardTo])
      · exact ih hopen hall
      · exact ih hopen hall
      · exact absurd hopen (by simp [onwardTo])
    rw [before_cons] at hopen
    simp only [List.cons_append, before_cons] at hall ⊢
    generalize Word.of word = reading at hopen hall ⊢
    split at hopen
    · exact honward hopen hall
    · split at hopen
      · exact absurd hopen (named_complete _ _ _)
      · split at hopen
        · exact absurd hopen (named_helpOn _)
        · exact absurd hopen (by simp)
    · exact absurd hopen (by simp)
    · exact honward hopen hall
    · exact honward hopen hall
    · cases words with
      | nil => exact absurd hall (by simp)
      | cons operand words => exact absurd hopen (by simp)

end CommandLine

open CommandLine

/-- **The commands of a command line can be exchanged**, if `all` is one of those that fit: the
words in front of it and behind it then are options of every command, with the same values. -/
theorem Invocation.parse_command {words after : List String} {settings : Settings}
    (hopen : Invocation.parse words = .error .noCommand)
    (hall : Invocation.parse (words ++ "all" :: after) = .ok (.run settings .all))
    {name : String} {command : Command} (hname : command? name = some command) :
    Invocation.parse (words ++ name :: after) = .ok (.run settings command) := by
  obtain ⟨outer, hcomplete⟩ := before_of_all hopen hall
  rw [parse, hcomplete "all" .all rfl] at hall
  rw [parse, hcomplete name command hname]
  exact complete_of_all hall (long_of_command hname)

end KernelTables
