import Mathlib.Data.List.Forall2
import KernelTables.Proofs.Report.Symbol

/-!
# What a symbol report tells about hidden addresses

An address that may not be shown is zero in the entry line of its symbol, and as zero it is
remembered for the distance to the next symbol.  The distance of the symbol itself is that of the
address in the table.  So a hidden address can be worked out by whoever has seen the address before
it, and not otherwise.

Two sequences of visits that differ in hidden addresses alone (`SameVisit`) are compared here.

* `SameVisit.remembered`, `SameVisit.open?_linesOf` — **one visit**: the reporter remembers the
  same, and only a distance to a hidden address from one that was remembered may differ;
* `SameVisit.ofLines_linesOf_append_inj` — that distance differs exactly if the hidden addresses do;
* `text_visitEach_eq_iff` — **a whole sequence**: the reports agree in every line that is not such a
  distance, and they are the same text exactly if the addresses told are the same;
* `hiddenAddress_told` — two reports that differ.
-/

namespace KernelTables

/-! ## Symbols that differ in a hidden address -/

/-- Whether two symbols are the same but for an address that neither may show. -/
structure Symbol.SameShown (symbol other : Symbol) : Prop where
  /-- There is no other difference. -/
  rest : other = { symbol with value := other.value }
  /-- An address that may be shown is the same. -/
  value : symbol.shown = true → other.value = symbol.value

namespace Symbol.SameShown

variable {symbol other : Symbol}

theorem shown (h : symbol.SameShown other) : other.shown = symbol.shown := by
  rw [h.rest]

theorem shownValue (h : symbol.SameShown other) : other.shownValue = symbol.shownValue := by
  rw [Symbol.shownValue, Symbol.shownValue, h.shown]
  by_cases hshown : symbol.shown = true
  · rw [if_pos hshown, if_pos hshown, h.value hshown]
  · rw [if_neg hshown, if_neg hshown]

/-- The entry line shows nothing else. -/
theorem entryLine (h : symbol.SameShown other) : other.entryLine = symbol.entryLine := by
  have hcompose : (SymbolReporter.compose {} other).2 =
      { (SymbolReporter.compose {} symbol).2 with delta := .between 0 other.value } := by
    rw [SymbolReporter.compose, SymbolReporter.compose, h.shownValue]
    dsimp only
    rw [h.rest]
    rfl
  rw [Symbol.entryLine, Symbol.entryLine, hcompose]
  rfl

end Symbol.SameShown

/-! ## The lines of visits -/

/-- A line of a symbol report. -/
structure ReportedLine where
  /-- The line. -/
  text : Bytes
  /-- The hidden address that can be worked out from it, if there is one. -/
  told : Option UInt64 := none

/-- A line, unless a hidden address can be worked out from it. -/
def ReportedLine.open? (line : ReportedLine) : Option Bytes :=
  match line.told with
  | none => some line.text
  | some _ => none

namespace SymbolReporter

/-- Visits numbered symbols, one after another. -/
def visitEach (reporter : SymbolReporter) (visits : List (Nat × Symbol)) (stream : Stream) :
    Run SymbolReporter :=
  Run.visitAll (fun reporter visit stream =>
    Run.step .symbolRecord (reporter.visit visit.1 (some visit.2) stream)) reporter stream {} visits

/-- The distance line of a symbol behind the address `before`. -/
def deltaLine (before : UInt64) (symbol : Symbol) : ReportedLine where
  text := (AddressDelta.between before symbol.value).text
  told := if before = 0 ∨ symbol.shown = true then none else some symbol.value

/-- The lines of a visit while the address `before` is remembered. -/
def linesOf (before : UInt64) (visit : Nat × Symbol) : List ReportedLine :=
  if visit.1 = 0 then [{ text := SymbolRecord.header }]
  else [deltaLine before visit.2, { text := visit.2.entryLine }]

/-- The address that is remembered behind a visit. -/
def remembered (before : UInt64) (visit : Nat × Symbol) : UInt64 :=
  if visit.1 = 0 then before else visit.2.shownValue

/-- The lines of visits while the address `before` is remembered. -/
def reportedLines (before : UInt64) : List (Nat × Symbol) → List ReportedLine
  | [] => []
  | visit :: visits => linesOf before visit ++ reportedLines (remembered before visit) visits

/-- The hidden address that a symbol's two lines tell stands in the first. -/
theorem filterMap_told_pair (line : ReportedLine) (entry : Bytes) :
    [line, { text := entry }].filterMap ReportedLine.told = line.told.toList := by
  cases htold : line.told with
  | none => simp [htold]
  | some address => simp [htold]

/-- What a numbered visit does on a stream that takes everything. -/
def visitEffect (reporter : SymbolReporter) (visit : Nat × Symbol) : Effect SymbolReporter where
  reporter := ⟨remembered reporter.lastValue visit⟩
  lines := (linesOf reporter.lastValue visit).map ReportedLine.text
  outcome := if visit.1 = 0 then .headerOnly else .emitted

theorem visit_eq_visitEffect (reporter : SymbolReporter) (visit : Nat × Symbol) {stream : Stream}
    (hroom : stream.sink.room = none) :
    reporter.visit visit.1 (some visit.2) stream = (reporter.visitEffect visit).on stream := by
  by_cases hnumber : visit.1 = 0
  · rw [SymbolReporter.visit, if_pos hnumber, Stream.writeLine_of_unlimited hroom, visitEffect,
      remembered, linesOf, if_pos hnumber, if_pos hnumber, if_pos hnumber]
    rfl
  · rw [reporter.visit_of_unlimited hnumber visit.2 hroom, visitEffect, remembered, linesOf,
      if_neg hnumber, if_neg hnumber, if_neg hnumber]
    rfl

/-- **Visits on a stream that takes everything** add their lines. -/
theorem visitEach_of_unlimited (reporter : SymbolReporter) (visits : List (Nat × Symbol))
    {stream : Stream} (hroom : stream.sink.room = none) :
    reporter.visitEach visits stream =
      ⟨Effect.last visitEffect reporter visits,
        stream.append ((reportedLines reporter.lastValue visits).map ReportedLine.text),
        .ok (Effect.tally {} (Effect.sequence visitEffect reporter visits))⟩ := by
  have hlines : Effect.allLines (Effect.sequence visitEffect reporter visits) =
      (reportedLines reporter.lastValue visits).map ReportedLine.text := by
    clear hroom
    induction visits generalizing reporter with
    | nil => rfl
    | cons visit visits ih =>
      rw [Effect.allLines_cons, ih, reportedLines, List.map_append]
      rfl
  rw [visitEach, ← hlines]
  refine Run.visitAll_of_unlimited ?_ reporter hroom {}
  intro visit _ reporter stream hroom
  rw [reporter.visit_eq_visitEffect visit hroom]
  rfl

end SymbolReporter

/-! ## Visits that differ in hidden addresses -/

/-- Whether two visits are the same but for an address that may not be shown. -/
structure SameVisit (visit other : Nat × Symbol) : Prop where
  /-- They have the same number. -/
  number : other.1 = visit.1
  /-- Their symbols show the same. -/
  symbol : visit.2.SameShown other.2

namespace SameVisit

open SymbolReporter

variable {visit other : Nat × Symbol}

/-- The same address is remembered behind both. -/
theorem remembered (h : SameVisit visit other) (before : UInt64) :
    remembered before other = remembered before visit := by
  rw [SymbolReporter.remembered, SymbolReporter.remembered, h.number, h.symbol.shownValue]

/-- Their distance lines are the same, unless a hidden address can be worked out from them. -/
theorem open?_deltaLine (h : SameVisit visit other) (before : UInt64) :
    (deltaLine before other.2).open? = (deltaLine before visit.2).open? := by
  rw [ReportedLine.open?, ReportedLine.open?, deltaLine, deltaLine, h.symbol.shown]
  by_cases hbefore : before = 0
  · simp [hbefore, AddressDelta.between]
  · by_cases hshown : visit.2.shown = true
    · rw [h.symbol.value hshown]
    · simp [hbefore, hshown]

/-- If one can be worked out, they are the same exactly if it is. -/
theorem text_deltaLine_eq_iff (h : SameVisit visit other) (before : UInt64) :
    (deltaLine before other.2).text = (deltaLine before visit.2).text ↔
      (deltaLine before other.2).told = (deltaLine before visit.2).told := by
  simp only [deltaLine, h.symbol.shown]
  by_cases hbefore : before = 0
  · simp [hbefore, AddressDelta.between]
  · by_cases hshown : visit.2.shown = true
    · simp [hshown, h.symbol.value hshown]
    · have hcases : ¬(before = 0 ∨ visit.2.shown = true) := by simp [hbefore, hshown]
      rw [if_neg hcases, if_neg hcases, Option.some.injEq]
      constructor
      · intro htext
        exact AddressDelta.end_inj hbefore htext
      · intro hvalue
        rw [hvalue]

theorem open?_linesOf (h : SameVisit visit other) (before : UInt64) :
    (linesOf before other).map ReportedLine.open? =
      (linesOf before visit).map ReportedLine.open? := by
  rw [linesOf, linesOf, h.number]
  by_cases hnumber : visit.1 = 0
  · rw [if_pos hnumber, if_pos hnumber]
  · rw [if_neg hnumber, if_neg hnumber, h.symbol.entryLine]
    simp only [List.map_cons, h.open?_deltaLine before]

/-- **Two visits add the same text exactly if they tell the same hidden address**, and whatever
follows can be compared on its own. -/
theorem ofLines_linesOf_append_inj (h : SameVisit visit other) (before : UInt64)
    {rest rest' : Bytes} :
    ofLines ((linesOf before other).map ReportedLine.text) ++ rest' =
        ofLines ((linesOf before visit).map ReportedLine.text) ++ rest ↔
      (linesOf before other).filterMap ReportedLine.told =
          (linesOf before visit).filterMap ReportedLine.told ∧ rest' = rest := by
  rw [linesOf, linesOf, h.number]
  by_cases hnumber : visit.1 = 0
  · rw [if_pos hnumber, if_pos hnumber]
    simp
  · rw [if_neg hnumber, if_neg hnumber, h.symbol.entryLine, filterMap_told_pair,
      filterMap_told_pair]
    -- no newline stands in a distance, so the first one ends it
    have hplain (symbol : Symbol) : newline ∉ (deltaLine before symbol).text :=
      AddressDelta.newline_notMem_text _
    have htold : (deltaLine before other.2).told.toList = (deltaLine before visit.2).told.toList ↔
        (deltaLine before other.2).told = (deltaLine before visit.2).told := by
      cases (deltaLine before other.2).told <;> cases (deltaLine before visit.2).told <;> simp
    rw [htold, ← h.text_deltaLine_eq_iff before]
    simp [append_cons_inj (hplain other.2) (hplain visit.2)]

/-- The hidden addresses that two visits tell are as many. -/
theorem length_filterMap_told_linesOf (h : SameVisit visit other) (before : UInt64) :
    ((linesOf before other).filterMap ReportedLine.told).length =
      ((linesOf before visit).filterMap ReportedLine.told).length := by
  rw [linesOf, linesOf, h.number]
  by_cases hnumber : visit.1 = 0
  · rw [if_pos hnumber, if_pos hnumber]
  · rw [if_neg hnumber, if_neg hnumber, filterMap_told_pair, filterMap_told_pair, deltaLine,
      deltaLine, h.symbol.shown]
    by_cases htold : before = 0 ∨ visit.2.shown = true
    · rw [if_pos htold, if_pos htold]
    · rw [if_neg htold, if_neg htold]
      rfl

end SameVisit

/-! ## Sequences of visits that differ in hidden addresses -/

namespace SymbolReporter

variable {visits others : List (Nat × Symbol)}

theorem map_open?_reportedLines (h : List.Forall₂ SameVisit visits others) (before : UInt64) :
    (reportedLines before others).map ReportedLine.open? =
      (reportedLines before visits).map ReportedLine.open? := by
  induction h generalizing before with
  | nil => rfl
  | cons hvisit _ ih =>
    rw [reportedLines, reportedLines, List.map_append, List.map_append, hvisit.open?_linesOf,
      hvisit.remembered, ih]

theorem ofLines_reportedLines_eq_iff (h : List.Forall₂ SameVisit visits others) (before : UInt64) :
    ofLines ((reportedLines before others).map ReportedLine.text) =
        ofLines ((reportedLines before visits).map ReportedLine.text) ↔
      (reportedLines before others).filterMap ReportedLine.told =
        (reportedLines before visits).filterMap ReportedLine.told := by
  induction h generalizing before with
  | nil => simp
  | cons hvisit _ ih =>
    have hlength := hvisit.length_filterMap_told_linesOf before
    rw [reportedLines, reportedLines, hvisit.remembered, List.map_append, List.map_append,
      ofLines_append, ofLines_append, hvisit.ofLines_linesOf_append_inj, ih,
      List.filterMap_append, List.filterMap_append]
    constructor
    · rintro ⟨hfirst, hrest⟩
      rw [hfirst, hrest]
    · intro htold
      exact List.append_inj htold hlength

/-- The reporter is the same behind both, and so is what is counted. -/
theorem last_tally_visitEffect (h : List.Forall₂ SameVisit visits others)
    (reporter : SymbolReporter) (stats : Stats) :
    Effect.last visitEffect reporter others = Effect.last visitEffect reporter visits ∧
      Effect.tally stats (Effect.sequence visitEffect reporter others) =
        Effect.tally stats (Effect.sequence visitEffect reporter visits) := by
  induction h generalizing reporter stats with
  | nil => exact ⟨rfl, rfl⟩
  | @cons visit other visits others hvisit _ ih =>
    have hreporter : (reporter.visitEffect other).reporter =
        (reporter.visitEffect visit).reporter :=
      congrArg SymbolReporter.mk (hvisit.remembered reporter.lastValue)
    have houtcome : (reporter.visitEffect other).outcome =
        (reporter.visitEffect visit).outcome := by
      rw [visitEffect, visitEffect, hvisit.number]
    rw [Effect.last_cons, Effect.last_cons, Effect.tally_cons, Effect.tally_cons, hreporter,
      houtcome]
    exact ih (reporter.visitEffect visit).reporter
      (stats.tally (reporter.visitEffect visit).outcome)

/-- **What a report tells about hidden addresses.**  Let a reporter visit two sequences of symbols,
under the same numbers, that differ in hidden addresses alone, on a stream that takes everything.
It ends in the same state and counts the same.  The lines it writes are the same too, except for the
distance of a hidden symbol behind an address that is remembered: that one is computed from the
hidden address.  So the two texts are the same exactly if the addresses told in this way are. -/
theorem text_visitEach_eq_iff (h : List.Forall₂ SameVisit visits others)
    (reporter : SymbolReporter) {stream : Stream} (hroom : stream.sink.room = none) :
    let run := reporter.visitEach visits stream
    let run' := reporter.visitEach others stream
    let lines := reportedLines reporter.lastValue visits
    let lines' := reportedLines reporter.lastValue others
    run.reporter = run'.reporter ∧ run.result = run'.result ∧
      run.stream.text = stream.text ++ ofLines (lines.map ReportedLine.text) ∧
      run'.stream.text = stream.text ++ ofLines (lines'.map ReportedLine.text) ∧
      lines.map ReportedLine.open? = lines'.map ReportedLine.open? ∧
      (run.stream.text = run'.stream.text ↔
        lines.filterMap ReportedLine.told = lines'.filterMap ReportedLine.told) := by
  intro run run' lines lines'
  have hrun := reporter.visitEach_of_unlimited visits hroom
  have hrun' := reporter.visitEach_of_unlimited others hroom
  obtain ⟨hlast, htally⟩ := last_tally_visitEffect h reporter {}
  have htext : run.stream.text = stream.text ++ ofLines (lines.map ReportedLine.text) := by
    rw [← Stream.text_append]
    exact congrArg (·.stream.text) hrun
  have htext' : run'.stream.text = stream.text ++ ofLines (lines'.map ReportedLine.text) := by
    rw [← Stream.text_append]
    exact congrArg (·.stream.text) hrun'
  refine ⟨?_, ?_, htext, htext', (map_open?_reportedLines h _).symm, ?_⟩
  · calc run.reporter = Effect.last visitEffect reporter visits := congrArg (·.reporter) hrun
      _ = Effect.last visitEffect reporter others := hlast.symm
      _ = run'.reporter := (congrArg (·.reporter) hrun').symm
  · calc run.result = .ok (Effect.tally {} (Effect.sequence visitEffect reporter visits)) :=
          congrArg (·.result) hrun
      _ = .ok (Effect.tally {} (Effect.sequence visitEffect reporter others)) := by rw [htally]
      _ = run'.result := (congrArg (·.result) hrun').symm
  · rw [htext, htext', List.append_cancel_left_eq, eq_comm, ofLines_reportedLines_eq_iff h,
      eq_comm]

/-! ### Two reports that differ -/

/-- The symbol with its address hidden. -/
def hidden (symbol : Symbol) : Symbol := { symbol with shown := false }

/-- A hidden symbol at the start, one that is shown, and another hidden one. -/
def hiddenTwice (first second : UInt64) : List (Nat × Symbol) :=
  [(0, coreSymbol 0), (1, hidden (coreSymbol first)), (2, coreSymbol 0x1000),
    (3, hidden (coreSymbol second))]

theorem forall₂_sameVisit_hiddenTwice (first second first' second' : UInt64) :
    List.Forall₂ SameVisit (hiddenTwice first second) (hiddenTwice first' second') := by
  refine .cons ⟨rfl, rfl, fun _ => rfl⟩ (.cons ⟨rfl, rfl, ?_⟩
    (.cons ⟨rfl, rfl, fun _ => rfl⟩ (.cons ⟨rfl, rfl, ?_⟩ .nil)))
  · exact fun hshown => absurd hshown Bool.false_ne_true
  · exact fun hshown => absurd hshown Bool.false_ne_true

/-- The address of the first hidden symbol is not told. -/
theorem text_visitEach_hiddenTwice :
    List.Forall₂ SameVisit (hiddenTwice 0x10 0x1010) (hiddenTwice 0x20 0x1010) ∧
      (visitEach {} (hiddenTwice 0x10 0x1010) {}).stream.text =
        (visitEach {} (hiddenTwice 0x20 0x1010) {}).stream.text := by
  have hsame := forall₂_sameVisit_hiddenTwice 0x10 0x1010 0x20 0x1010
  have hroom : ({} : Stream).sink.room = none := rfl
  obtain ⟨-, -, -, -, -, htext⟩ := text_visitEach_eq_iff hsame {} hroom
  exact ⟨hsame, htext.mpr (by decide)⟩

/-- **The address of a hidden symbol behind one that is shown is told by the report.** -/
theorem hiddenAddress_told :
    List.Forall₂ SameVisit (hiddenTwice 0x10 0x1010) (hiddenTwice 0x10 0x1020) ∧
      (visitEach {} (hiddenTwice 0x10 0x1010) {}).stream.text ≠
        (visitEach {} (hiddenTwice 0x10 0x1020) {}).stream.text := by
  have hsame := forall₂_sameVisit_hiddenTwice 0x10 0x1010 0x10 0x1020
  have hroom : ({} : Stream).sink.room = none := rfl
  refine ⟨hsame, ?_⟩
  intro htext
  rw [visitEach_of_unlimited {} _ hroom, visitEach_of_unlimited {} _ hroom, Stream.text_append,
    Stream.text_append, List.append_cancel_left_eq, eq_comm,
    ofLines_reportedLines_eq_iff hsame] at htext
  exact absurd htext (by decide)

end SymbolReporter

end KernelTables
