import Mathlib.Data.List.Induction
import KernelTables.Proofs.Report.Symbol

/-!
# What a symbol report remembers

A symbol report remembers one address, from which the next distance is taken.  It is taken in before
anything is written, so it makes no difference to it whether the lines get through.

* `reporter_visit` — **one visit**: on each way out, also where a line is refused, the report
  remembers the address that its symbol shows;
* `after_eq` — **any visits**: the address remembered is that of the symbol visited last, since the
  report was last begun anew (`SymbolStep.lastVisited`);
* `retry_eq_iff` — so a visit that failed cannot simply be made again: the second time the distance
  is taken from the symbol itself, and the lines are those that were due only if the symbol before
  it shows the same address.
-/

namespace KernelTables

/-- What may be done with a symbol report. -/
inductive SymbolStep
  /-- A visit, with the stream it comes upon, under whatever limit. -/
  | visit (number : Nat) (symbol : Option Symbol) (stream : Stream)
  /-- The report is begun anew. -/
  | reset

namespace SymbolStep

/-- The address that a step puts in the place of the one remembered, if it does. -/
def address? : SymbolStep → Option UInt64
  | .visit number symbol _ => if number = 0 then none else symbol.map (·.shownValue)
  | .reset => some 0

/-- The address shown by the symbol that was visited last since the report was begun, or zero. -/
def lastVisited (history : List SymbolStep) : UInt64 :=
  (history.reverse.findSome? address?).getD 0

theorem lastVisited_concat (history : List SymbolStep) (step : SymbolStep) :
    lastVisited (history ++ [step]) = step.address?.getD (lastVisited history) := by
  rw [lastVisited, List.reverse_append, List.findSome?_append]
  cases h : step.address? <;> simp [h, lastVisited]

end SymbolStep

namespace SymbolReporter

/-- Takes a step, whatever comes of it. -/
def take (reporter : SymbolReporter) : SymbolStep → SymbolReporter
  | .visit number symbol stream => (reporter.visit number symbol stream).reporter
  | .reset => reporter.reset

/-- A new report that has taken the given steps, in order. -/
def after (history : List SymbolStep) : SymbolReporter := history.foldl take {}

theorem after_concat (history : List SymbolStep) (step : SymbolStep) :
    after (history ++ [step]) = (after history).take step := by
  rw [after, List.foldl_append]
  rfl

/-! ## One step -/

/-- **What a visit leaves behind**: the address that its symbol shows, whichever of its lines are
written. -/
theorem reporter_visit (reporter : SymbolReporter) {number : Nat} (hnumber : number ≠ 0)
    (symbol : Symbol) (stream : Stream) :
    (reporter.visit number (some symbol) stream).reporter = ⟨symbol.shownValue⟩ := by
  rw [visit, if_neg hnumber]
  dsimp only
  rcases stream.print (Line.empty.push (reporter.compose symbol).2.deltaText) with ⟨begun, e | _⟩
  · -- the distance line is refused
    rfl
  · -- the entry line is refused, or is not
    rfl

theorem take_eq (reporter : SymbolReporter) (step : SymbolStep) :
    reporter.take step = ⟨step.address?.getD reporter.lastValue⟩ := by
  cases step with
  | reset => rfl
  | visit number symbol stream =>
    rw [take, SymbolStep.address?]
    by_cases hnumber : number = 0
    · unfold visit
      rw [if_pos hnumber, if_pos hnumber]
      rfl
    · rw [if_neg hnumber]
      cases symbol with
      | none =>
        rw [visit, if_neg hnumber]
        rfl
      | some symbol => exact reporter.reporter_visit hnumber symbol stream

/-! ## Any number of steps -/

/-- **The memory of a report** is the address of the symbol that it visited last. -/
theorem after_eq (history : List SymbolStep) :
    after history = ⟨SymbolStep.lastVisited history⟩ := by
  induction history using List.reverseRecOn with
  | nil => rfl
  | append_singleton history step ih =>
    rw [after_concat, ih, take_eq, SymbolStep.lastVisited_concat]

/-- Reports that remember different addresses write different lines for a symbol. -/
theorem text_effect_eq_iff (before before' : UInt64) (symbol : Symbol) (stream : Stream) :
    (stream.append (effect ⟨before⟩ symbol).lines).text =
        (stream.append (effect ⟨before'⟩ symbol).lines).text ↔ before = before' := by
  have hlines (address : UInt64) : (effect ⟨address⟩ symbol).lines =
      [(AddressDelta.between address symbol.value).text, symbol.entryLine] := rfl
  have hplain (address : UInt64) : newline ∉ (AddressDelta.between address symbol.value).text :=
    AddressDelta.newline_notMem_text _
  rw [Stream.text_append, Stream.text_append, List.append_cancel_left_eq, hlines, hlines]
  simp only [ofLines_cons]
  rw [append_cons_inj (hplain before) (hplain before')]
  constructor
  · rintro ⟨hdelta, -⟩
    exact AddressDelta.start_inj hdelta
  · rintro rfl
    exact ⟨rfl, rfl⟩

/-- **A visit that is made again.**  Take any steps, and then visit a symbol on any stream, whether
it has room for both lines, for a part of them or for nothing.  Before the visit the report
remembers the address shown by the symbol visited last, and after it the one that this symbol shows.
If the same visit is made again on a stream that takes everything, it writes the distance from
there.  Made there in the first place, it would have written the distance from the symbol before;
the two are the same exactly if both symbols show the same address. -/
theorem retry_eq_iff (history : List SymbolStep) {number : Nat} (hnumber : number ≠ 0)
    (symbol : Symbol) (stream : Stream) :
    let failed := (after history).visit number (some symbol) stream
    (after history).lastValue = SymbolStep.lastVisited history ∧
    failed.reporter.lastValue = symbol.shownValue ∧
    ∀ later : Stream, later.sink.room = none →
      failed.reporter.visit number (some symbol) later =
          (effect ⟨symbol.shownValue⟩ symbol).on later ∧
        (after history).visit number (some symbol) later =
          (effect ⟨SymbolStep.lastVisited history⟩ symbol).on later ∧
        ((failed.reporter.visit number (some symbol) later).stream.text =
            ((after history).visit number (some symbol) later).stream.text ↔
          symbol.shownValue = SymbolStep.lastVisited history) := by
  intro failed
  have hfailed : failed.reporter = ⟨symbol.shownValue⟩ :=
    (after history).reporter_visit hnumber symbol stream
  refine ⟨congrArg (·.lastValue) (after_eq history), congrArg (·.lastValue) hfailed, ?_⟩
  intro later hroom
  have hretried : failed.reporter.visit number (some symbol) later =
      (effect ⟨symbol.shownValue⟩ symbol).on later := by
    rw [hfailed]
    exact visit_of_unlimited _ hnumber symbol hroom
  have hunfailed : (after history).visit number (some symbol) later =
      (effect ⟨SymbolStep.lastVisited history⟩ symbol).on later := by
    rw [after_eq]
    exact visit_of_unlimited _ hnumber symbol hroom
  refine ⟨hretried, hunfailed, ?_⟩
  rw [hretried, hunfailed]
  exact text_effect_eq_iff _ _ symbol later

/-- A symbol is written, and the next one is visited where there is no room at all.  Visited again,
it is at distance zero, from itself, instead of sixteen from the one that was written. -/
theorem retry_eq_iff_noRoom :
    let history := [SymbolStep.visit 1 (some (coreSymbol 0x1000)) {}]
    let failed := (after history).visit 2 (some (coreSymbol 0x1010)) (({} : Stream).limit (some 0))
    2 ≠ 0 ∧ failed.result = .error .full ∧
      (failed.reporter.visit 2 (some (coreSymbol 0x1010)) {}).stream.text ≠
        ((after history).visit 2 (some (coreSymbol 0x1010)) {}).stream.text := by
  intro history failed
  have hnumber : 2 ≠ 0 := by decide
  have hroom : ({} : Stream).sink.room = none := rfl
  obtain ⟨-, -, hlater⟩ := retry_eq_iff history hnumber (coreSymbol 0x1010)
    (({} : Stream).limit (some 0))
  obtain ⟨-, -, htext⟩ := hlater {} hroom
  refine ⟨hnumber, by decide, fun heq => ?_⟩
  have haddress := htext.mp heq
  exact absurd haddress (by decide)

end SymbolReporter

end KernelTables
