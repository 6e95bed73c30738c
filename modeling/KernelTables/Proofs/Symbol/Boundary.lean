import Mathlib.Data.List.Induction
import KernelTables.Proofs.Symbol.Kind

/-!
# Where the sections of a table end

A cursor is moved from step to step, each time to a position no earlier than the last and into some
section.  The kernel lists the sections in order, but nothing here depends on that: a step may lead
back to an earlier section, or past several at once.

* `ending_walk` — **the law of a boundary**: it holds the position of the first step that went past
  it, and nothing that comes later changes it;
* `lt_latest_iff`, `IsWalk.tracks` — so the boundaries that are set are those in front of the latest
  section entered, and this is the one that a cursor is in;
* `boundaries_of_walk` — all that a reader of a cursor can rely on after any step of a walk.
-/

namespace KernelTables

/-- One step of a cursor. -/
structure CursorStep where
  /-- The position it leads to. -/
  position : Nat
  /-- The section which that position lies in. -/
  within : Section
  deriving DecidableEq, Repr

namespace Section

/-- The latest of some sections is later than a given one as soon as one of them is. -/
theorem lt_latest_iff {s : Section} {sections : List Section} :
    s < latest sections ↔ ∃ t ∈ sections, s < t := by
  induction sections with
  | nil => simp
  | cons t rest ih => simp [latest_cons, ih]

theorem latest_le_latest {sections others : List Section} (h : sections ⊆ others) :
    latest sections ≤ latest others := by
  rw [← not_lt, lt_latest_iff]
  rintro ⟨t, ht, hlt⟩
  exact absurd (lt_latest_iff.mpr ⟨t, h ht, hlt⟩) (lt_irrefl _)

end Section

namespace Cursor

/-- Where a section ended, or zero.  The last section of the table has no end. -/
def ending (cursor : Cursor) : Section → Nat
  | .modules => cursor.modulesEnd
  | .ftrace => cursor.ftraceEnd
  | .bpf => cursor.bpfEnd
  | .kprobes => 0

/-- A step ends the sections in front of the one it leads to, as far as they have not ended. -/
theorem ending_enter (cursor : Cursor) (position : Nat) (next s : Section) :
    (cursor.enter position next).ending s =
      if s < next then closeAt position (cursor.ending s) else cursor.ending s := by
  cases s <;> cases next <;> rfl

/-- The cursor of a new reader after some steps. -/
def walk (steps : List CursorStep) : Cursor :=
  steps.foldl (fun cursor step => cursor.enter step.position step.within) {}

@[simp] theorem walk_nil : walk [] = {} := rfl

@[simp] theorem walk_concat (steps : List CursorStep) (step : CursorStep) :
    walk (steps ++ [step]) = (walk steps).enter step.position step.within := by
  rw [walk, List.foldl_append]
  rfl

/-! ## The law of a boundary -/

/-- The first step that leads past a section. -/
def firstPast (s : Section) (steps : List CursorStep) : Option CursorStep :=
  steps.find? fun step => s < step.within

theorem firstPast_append (s : Section) (steps more : List CursorStep) :
    firstPast s (steps ++ more) = (firstPast s steps).or (firstPast s more) :=
  List.find?_append

theorem isSome_firstPast_iff {s : Section} {steps : List CursorStep} :
    (firstPast s steps).isSome ↔ ∃ step ∈ steps, s < step.within := by
  simp [firstPast]

theorem firstPast_eq_some_iff {s : Section} {steps : List CursorStep} {step : CursorStep} :
    firstPast s steps = some step ↔ s < step.within ∧ ∃ before after,
      steps = before ++ step :: after ∧ ∀ earlier ∈ before, ¬s < earlier.within := by
  simp [firstPast, List.find?_eq_some_iff_append]

/-- **Where a section ended** is where the first step past it led, if no step leads to position
zero. -/
theorem ending_walk {steps : List CursorStep} (h : ∀ step ∈ steps, 0 < step.position)
    (s : Section) :
    (walk steps).ending s = ((firstPast s steps).map CursorStep.position).getD 0 := by
  induction steps using List.reverseRecOn with
  | nil => cases s <;> rfl
  | append_singleton steps step ih =>
    have hbefore : ∀ step ∈ steps, 0 < step.position :=
      fun earlier hmem => h earlier (List.mem_append_left _ hmem)
    rw [walk_concat, ending_enter, ih hbefore, firstPast_append]
    cases hfirst : firstPast s steps with
    | none =>
      -- nothing has led past this section before
      by_cases hpast : s < step.within
      · simp [firstPast, hpast, closeAt]
      · simp [firstPast, hpast]
    | some first =>
      -- the boundary is set, and stays
      have hmem : first ∈ steps := List.mem_of_find?_eq_some hfirst
      have hset : first.position ≠ 0 := (hbefore first hmem).ne'
      simp [closeAt, hset]

/-! ## Walks -/

/-- Whether steps lead ahead, from position one on. -/
structure IsWalk (steps : List CursorStep) : Prop where
  /-- No step leads to position zero, where a boundary cannot be told from one that is unset. -/
  positive : ∀ step ∈ steps, 0 < step.position
  /-- No step leads back. -/
  ordered : steps.Pairwise fun step later => step.position ≤ later.position

instance (steps : List CursorStep) : Decidable (IsWalk steps) :=
  decidable_of_iff ((∀ step ∈ steps, 0 < step.position) ∧
      steps.Pairwise fun step later => step.position ≤ later.position)
    ⟨fun h => ⟨h.1, h.2⟩, fun h => ⟨h.positive, h.ordered⟩⟩

variable {steps done : List CursorStep}

theorem IsWalk.of_prefix (h : IsWalk steps) (hdone : done <+: steps) : IsWalk done where
  positive step hstep := h.positive step (hdone.subset hstep)
  ordered := h.ordered.sublist hdone.sublist

/-- A walk ends at the furthest position it has come to. -/
theorem IsWalk.position_le (h : IsWalk steps) :
    ∀ step ∈ steps, step.position ≤ (walk steps).position := by
  cases steps using List.reverseRecOn with
  | nil => exact List.forall_mem_nil _
  | append_singleton steps last =>
    intro step hstep
    rw [walk_concat]
    rcases List.mem_append.mp hstep with hstep | hstep
    · exact (List.pairwise_append.mp h.ordered).2.2 step hstep last List.mem_cons_self
    · rw [List.mem_singleton.mp hstep]
      rfl

/-- A boundary is set exactly if some step has led past it. -/
theorem IsWalk.ending_ne_zero_iff (h : IsWalk steps) (s : Section) :
    (walk steps).ending s ≠ 0 ↔ ∃ step ∈ steps, s < step.within := by
  rw [← isSome_firstPast_iff, ending_walk h.positive]
  cases hfirst : firstPast s steps with
  | none => simp
  | some first =>
    have hset := h.positive first (List.mem_of_find?_eq_some hfirst)
    simpa using hset.ne'

/-- A boundary that is set holds the position of the first step past it. -/
theorem IsWalk.exists_firstPast (h : IsWalk steps) {s : Section}
    (hset : (walk steps).ending s ≠ 0) :
    ∃ first, firstPast s steps = some first ∧ (walk steps).ending s = first.position := by
  have hsome := isSome_firstPast_iff.mpr ((h.ending_ne_zero_iff s).mp hset)
  obtain ⟨first, hfirst⟩ := Option.isSome_iff_exists.mp hsome
  exact ⟨first, hfirst, by rw [ending_walk h.positive, hfirst]; rfl⟩

/-- A boundary that is set stays as it is. -/
theorem IsWalk.ending_eq (h : IsWalk steps) (hdone : done <+: steps) {s : Section}
    (hset : (walk done).ending s ≠ 0) : (walk steps).ending s = (walk done).ending s := by
  obtain ⟨first, hfirst, hending⟩ := (h.of_prefix hdone).exists_firstPast hset
  obtain ⟨more, rfl⟩ := hdone
  rw [ending_walk h.positive, firstPast_append, hfirst, hending]
  rfl

/-- An earlier section ended no later than a later one: the step past the later one is past both. -/
theorem IsWalk.ending_le_ending (h : IsWalk steps) {s t : Section} (hst : s ≤ t)
    (hset : (walk steps).ending t ≠ 0) : (walk steps).ending s ≤ (walk steps).ending t := by
  obtain ⟨first, hfirst, hending⟩ := h.exists_firstPast hset
  obtain ⟨hpast, before, after, rfl, -⟩ := firstPast_eq_some_iff.mp hfirst
  have hboth : firstPast s (first :: after) = some first := by
    rw [firstPast, List.find?_cons_of_pos]
    exact decide_eq_true (hst.trans_lt hpast)
  rw [hending, ending_walk h.positive, firstPast_append, hboth]
  cases hearlier : firstPast s before with
  | none => exact le_rfl
  | some earlier =>
    have hmem : earlier ∈ before := List.mem_of_find?_eq_some hearlier
    exact (List.pairwise_append.mp h.ordered).2.2 earlier hmem first List.mem_cons_self

theorem IsWalk.ending_le_position (h : IsWalk steps) (s : Section) :
    (walk steps).ending s ≤ (walk steps).position := by
  by_cases hset : (walk steps).ending s = 0
  · rw [hset]
    exact Nat.zero_le _
  · obtain ⟨first, hfirst, hending⟩ := h.exists_firstPast hset
    rw [hending]
    exact h.position_le first (List.mem_of_find?_eq_some hfirst)

/-! ## The section a walk has come to -/

/-- The boundaries that are set are those in front of the latest section entered. -/
theorem IsWalk.marks (h : IsWalk steps) (s : Section) :
    (walk steps).Marks (.latest (steps.map CursorStep.within)) s.rank ((walk steps).ending s) := by
  refine ⟨?_, h.ending_le_position s⟩
  have hlatest : s.rank < (Section.latest (steps.map CursorStep.within)).rank ↔
      s < .latest (steps.map CursorStep.within) := Iff.rfl
  rw [h.ending_ne_zero_iff, hlatest, Section.lt_latest_iff]
  simp

/-- **A walk keeps track of the latest section entered**, in whatever order the sections come. -/
theorem IsWalk.tracks (h : IsWalk steps) :
    (walk steps).Tracks (.latest (steps.map CursorStep.within)) where
  modulesEnd := h.marks .modules
  ftraceEnd := h.marks .ftrace
  bpfEnd := h.marks .bpf

theorem IsWalk.classify_eq (h : IsWalk steps) :
    (walk steps).classify = .latest (steps.map CursorStep.within) :=
  h.tracks.classify

/-- **What can be relied on after any step of a walk.**  A boundary is set exactly if some step so
far has led past it.  It then holds the position of the first such step, in all that follows.  The
boundaries that are set are in order, and none is ahead of the cursor.  The cursor is in the
greatest section entered so far, and from there never comes back to an earlier one. -/
theorem boundaries_of_walk {steps done : List CursorStep} (h : IsWalk steps)
    (hdone : done <+: steps) :
    (∀ s, (walk done).ending s ≠ 0 ↔ ∃ step ∈ done, s < step.within) ∧
    (∀ s, (walk done).ending s ≠ 0 →
      (∃ before first after, done = before ++ first :: after ∧ s < first.within ∧
        (∀ earlier ∈ before, ¬s < earlier.within) ∧ (walk done).ending s = first.position) ∧
      (walk steps).ending s = (walk done).ending s) ∧
    (∀ s t, s ≤ t → (walk done).ending t ≠ 0 →
      (walk done).ending s ≤ (walk done).ending t ∧
        (walk done).ending t ≤ (walk done).position) ∧
    (done ≠ [] → IsGreatest {s | ∃ step ∈ done, step.within = s} (walk done).classify) ∧
    (walk done).classify ≤ (walk steps).classify := by
  have hwalk : IsWalk done := h.of_prefix hdone
  refine ⟨hwalk.ending_ne_zero_iff, ?_, ?_, ?_, ?_⟩
  · intro s hset
    obtain ⟨first, hfirst, hending⟩ := hwalk.exists_firstPast hset
    obtain ⟨hpast, before, after, hsplit, hearlier⟩ := firstPast_eq_some_iff.mp hfirst
    exact ⟨⟨before, first, after, hsplit, hpast, hearlier, hending⟩, h.ending_eq hdone hset⟩
  · intro s t hst hset
    exact ⟨hwalk.ending_le_ending hst hset, hwalk.ending_le_position t⟩
  · intro hne
    have hsections : done.map CursorStep.within ≠ [] := mt List.map_eq_nil_iff.mp hne
    have hgreatest := Section.isGreatest_latest hsections
    rw [hwalk.classify_eq]
    simpa only [List.mem_map] using hgreatest
  · rw [hwalk.classify_eq, h.classify_eq]
    exact Section.latest_le_latest (List.map_subset _ hdone.subset)

/-- A walk that skips a section, comes back to it, stands still and ends in the last section. -/
def unordered : List CursorStep :=
  [⟨1, .modules⟩, ⟨4, .bpf⟩, ⟨4, .ftrace⟩, ⟨9, .kprobes⟩, ⟨9, .modules⟩]

/-- Both of the first two sections end where the third one begins; coming back changes neither. -/
theorem boundaries_unordered :
    IsWalk unordered ∧ unordered.take 3 <+: unordered ∧
      walk (unordered.take 3) = ⟨4, 4, 4, 0⟩ ∧ walk unordered = ⟨9, 4, 4, 9⟩ ∧
      (walk unordered).ending .ftrace = (walk (unordered.take 3)).ending .ftrace ∧
      Section.bpf ≤ (walk unordered).classify := by
  have hwalk : IsWalk unordered := by decide
  have hdone : unordered.take 3 <+: unordered := List.take_prefix 3 unordered
  obtain ⟨-, hset, -, -, hclassify⟩ := boundaries_of_walk hwalk hdone
  exact ⟨hwalk, hdone, rfl, rfl, (hset .ftrace (by decide)).2, hclassify⟩

end Cursor

end KernelTables
