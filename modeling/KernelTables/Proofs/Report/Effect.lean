import KernelTables.Report.Run
import KernelTables.Proofs.Stream

/-!
# What a report adds to a stream

On a stream that takes everything a step of a report cannot fail, and all it does is add lines.
Such a step has an *effect* that does not depend on the stream, and a run over any objects has as
its effect those of its steps, one after another (`visitAll_of_unlimited`).
-/

namespace KernelTables

/-- What a step of a report comes to, whatever the stream. -/
structure Effect (σ : Type) where
  /-- The reporter after the step. -/
  reporter : σ
  /-- The lines the step adds. -/
  lines : List Bytes
  /-- What the step is counted as. -/
  outcome : Outcome

namespace Effect

variable {σ α ε : Type}

/-- The effect of a step on a stream. -/
def on (effect : Effect σ) (stream : Stream) : Progress σ ε Outcome :=
  ⟨effect.reporter, stream.append effect.lines, .ok effect.outcome⟩

/-- The effects of steps that follow one another. -/
def sequence (effect : σ → α → Effect σ) : σ → List α → List (Effect σ)
  | _, [] => []
  | reporter, object :: objects =>
    effect reporter object :: sequence effect (effect reporter object).reporter objects

@[simp] theorem sequence_nil (effect : σ → α → Effect σ) (reporter : σ) :
    sequence effect reporter [] = [] := rfl

@[simp] theorem sequence_cons (effect : σ → α → Effect σ) (reporter : σ) (object : α)
    (objects : List α) :
    sequence effect reporter (object :: objects) =
      effect reporter object :: sequence effect (effect reporter object).reporter objects := rfl

@[simp] theorem length_sequence (effect : σ → α → Effect σ) (reporter : σ) (objects : List α) :
    (sequence effect reporter objects).length = objects.length := by
  induction objects generalizing reporter with
  | nil => rfl
  | cons object objects ih => simp [ih]

/-- Every effect of a sequence is that of its own object, on some reporter. -/
theorem exists_of_mem_zip_sequence {effect : σ → α → Effect σ} {reporter : σ} {objects : List α}
    {object : α} {done : Effect σ} (h : (object, done) ∈ objects.zip (sequence effect reporter objects)) :
    ∃ reporter, done = effect reporter object := by
  induction objects generalizing reporter with
  | nil => exact absurd h List.not_mem_nil
  | cons first rest ih =>
    rw [sequence_cons, List.zip_cons_cons] at h
    rcases List.mem_cons.mp h with heq | h
    · obtain ⟨rfl, rfl⟩ := Prod.mk.inj heq
      exact ⟨reporter, rfl⟩
    · exact ih h

/-- Steps that look only at a part of their objects are steps on those parts. -/
theorem sequence_map {β : Type} (effect : σ → α → Effect σ) (part : β → α) (reporter : σ)
    (objects : List β) :
    sequence effect reporter (objects.map part) =
      sequence (fun reporter object => effect reporter (part object)) reporter objects := by
  induction objects generalizing reporter with
  | nil => rfl
  | cons object objects ih => simp [ih]

/-- The reporter after a sequence of steps. -/
def last (effect : σ → α → Effect σ) (reporter : σ) (objects : List α) : σ :=
  objects.foldl (fun reporter object => (effect reporter object).reporter) reporter

theorem last_cons (effect : σ → α → Effect σ) (reporter : σ) (object : α) (objects : List α) :
    last effect reporter (object :: objects) =
      last effect (effect reporter object).reporter objects := rfl

/-- The lines of a sequence of steps, in order. -/
def allLines (effects : List (Effect σ)) : List Bytes := effects.flatMap (·.lines)

theorem allLines_cons (effect : σ → α → Effect σ) (reporter : σ) (object : α)
    (objects : List α) :
    allLines (sequence effect reporter (object :: objects)) =
      (effect reporter object).lines ++
        allLines (sequence effect (effect reporter object).reporter objects) := rfl

/-- **Steps that do not look back.**  Where no step makes a reporter lose a property, and the lines
of a step are the same for every reporter that has it, a sequence of steps adds the lines of each
object, one after another. -/
theorem allLines_of_invariant {effect : σ → α → Effect σ} {P : σ → Prop} {lines : α → List Bytes}
    (hstep : ∀ reporter object, P reporter →
      P (effect reporter object).reporter ∧ (effect reporter object).lines = lines object)
    {reporter : σ} (h : P reporter) (objects : List α) :
    allLines (sequence effect reporter objects) = objects.flatMap lines := by
  induction objects generalizing reporter with
  | nil => rfl
  | cons object objects ih =>
    obtain ⟨hkept, hlines⟩ := hstep reporter object h
    rw [allLines_cons, List.flatMap_cons, hlines, ih hkept]

/-- **One line for each object that has one.**  Where every object that is kept adds one line and
every other object none, the lines are those of the objects that are kept, in their order. -/
theorem forall₂_allLines {effect : σ → α → Effect σ} {keep : α → Bool} {IsLine : α → Bytes → Prop}
    {objects : List α}
    (hsilent : ∀ object ∈ objects, keep object = false → ∀ reporter,
      (effect reporter object).lines = [])
    (hone : ∀ object ∈ objects, keep object = true → ∀ reporter,
      ∃ line, (effect reporter object).lines = [line] ∧ IsLine object line) (reporter : σ) :
    List.Forall₂ IsLine (objects.filter keep) (allLines (sequence effect reporter objects)) := by
  induction objects generalizing reporter with
  | nil => exact .nil
  | cons object objects ih =>
    have hrest := ih (fun o ho => hsilent o (List.mem_cons_of_mem _ ho))
      (fun o ho => hone o (List.mem_cons_of_mem _ ho)) (effect reporter object).reporter
    rw [allLines_cons]
    cases hkeep : keep object with
    | false =>
      rw [hsilent object List.mem_cons_self hkeep, List.filter_cons_of_neg (by simp [hkeep])]
      exact hrest
    | true =>
      obtain ⟨line, hline, hobject⟩ := hone object List.mem_cons_self hkeep reporter
      rw [hline, List.filter_cons_of_pos hkeep]
      exact .cons hobject hrest

/-- The tally of a sequence of steps, on top of an earlier one. -/
def tally (stats : Stats) (effects : List (Effect σ)) : Stats :=
  effects.foldl (fun stats effect => stats.tally effect.outcome) stats

theorem tally_cons (effect : σ → α → Effect σ) (reporter : σ) (object : α) (objects : List α)
    (stats : Stats) :
    tally stats (sequence effect reporter (object :: objects)) =
      tally (stats.tally (effect reporter object).outcome)
        (sequence effect (effect reporter object).reporter objects) := rfl

end Effect

namespace Run

variable {σ α : Type}

/-- **A run on a stream that takes everything** adds the lines of its steps and counts their
outcomes. -/
theorem visitAll_of_unlimited {visit : σ → α → Stream → Progress σ RunError Outcome}
    {effect : σ → α → Effect σ} {objects : List α}
    (h : ∀ object ∈ objects, ∀ reporter stream, stream.sink.room = none →
      visit reporter object stream = (effect reporter object).on stream)
    (reporter : σ) {stream : Stream} (hroom : stream.sink.room = none) (stats : Stats) :
    visitAll visit reporter stream stats objects =
      ⟨Effect.last effect reporter objects,
        stream.append (Effect.allLines (Effect.sequence effect reporter objects)),
        .ok (Effect.tally stats (Effect.sequence effect reporter objects))⟩ := by
  induction objects generalizing reporter stream stats with
  | nil =>
    simp only [visitAll, Effect.sequence_nil, Effect.allLines, List.flatMap_nil, Stream.append_nil]
    rfl
  | cons object objects ih =>
    have hstep := h object List.mem_cons_self reporter stream hroom
    have hroom' : (stream.append (effect reporter object).lines).sink.room = none := hroom
    have hrest := ih (fun o ho => h o (List.mem_cons_of_mem _ ho)) (effect reporter object).reporter
      hroom' (stats.tally (effect reporter object).outcome)
    rw [visitAll, hstep, Effect.on]
    simp only [hrest, Stream.append_append]
    rfl

end Run

end KernelTables
