import KernelTables.Proofs.Report.Capacity

/-!
# What a stream counts

A stream keeps two counts, of the lines that got through and of those that had been cut short.
Here it is asked for anything that it can be asked for, in any order, while its sink has room for
as much as it may each time.

* `lines_call`, `truncated_call` — **the step**: a line is counted if it gets through, but a cut one
  when it is handed in, whatever becomes of it;
* `count_callAll` — **the run**, for any count that each call adds to by the same rule;
* `lines_callAll`, `truncated_callAll` — so after any calls the two counts are those of what was
  delivered and of what was handed in cut short;
* `counters_after` — the second count is one of delivered lines exactly if the sink has refused
  none of the cut ones.
-/

namespace KernelTables

/-- What a stream can be asked for. -/
inductive StreamCall
  /-- A composed line is to be printed, whether or not it has been cut short. -/
  | print (line : Line)
  /-- A text is to be written as a line. -/
  | write (text : Bytes)

namespace StreamCall

/-- Whether a line is handed in that has been cut short. -/
def isCut : StreamCall → Bool
  | print line => line.truncated
  | write _ => false

end StreamCall

/-- A call together with its answer. -/
structure AnsweredCall where
  /-- What was asked for. -/
  call : StreamCall
  /-- What came of it. -/
  answer : Except SinkError Unit

/-- Whether a call got its line through. -/
def AnsweredCall.isDelivered (answered : AnsweredCall) : Bool := answered.answer.isOk

/-- What can happen to a stream from one moment to the next. -/
inductive StreamStep
  /-- It is called. -/
  | call (call : StreamCall)
  /-- Its sink is given room for so many more bytes, or for any number. -/
  | limit (room : Option Nat)

namespace Stream

/-- Answers a call. -/
def call (stream : Stream) : StreamCall → Stream × Except SinkError Unit
  | .print line => stream.print line
  | .write text => stream.writeLine text

/-- The stream after some steps. -/
def callAll (stream : Stream) : List StreamStep → Stream
  | [] => stream
  | .call call :: steps => callAll (stream.call call).1 steps
  | .limit room :: steps => callAll (stream.limit room) steps

/-- The calls among some steps, with their answers. -/
def answers (stream : Stream) : List StreamStep → List AnsweredCall
  | [] => []
  | .call call :: steps => ⟨call, (stream.call call).2⟩ :: answers (stream.call call).1 steps
  | .limit room :: steps => answers (stream.limit room) steps

/-! ## One call -/

theorem lines_writeLine (stream : Stream) (bytes : Bytes) :
    (stream.writeLine bytes).1.lines = stream.lines + (stream.writeLine bytes).2.isOk.toNat := by
  rcases stream.writeLine_cases bytes with ⟨hok, -, hlines⟩ | ⟨e, part, herror, -, -, hlines⟩
  · rw [hlines, hok]
    rfl
  · rw [hlines, herror]
    rfl

/-- A call is counted as a line exactly if it gets one through. -/
theorem lines_call (stream : Stream) (call : StreamCall) :
    (stream.call call).1.lines = stream.lines + (stream.call call).2.isOk.toNat := by
  cases call with
  | print line => exact lines_writeLine _ line.bytes
  | write text => exact stream.lines_writeLine text

/-- A cut line is counted when it is handed in. -/
theorem truncated_call (stream : Stream) (call : StreamCall) :
    (stream.call call).1.truncated = stream.truncated + call.isCut.toNat := by
  cases call with
  | print line => exact stream.truncated_print line
  | write text => exact stream.truncated_writeLine text

/-- A full sink refuses any line, if only its newline. -/
theorem writeLine_of_full {stream : Stream} (h : stream.sink.room = some 0) (bytes : Bytes) :
    (stream.writeLine bytes).2 = .error .full := by
  simp only [writeLine, Sink.write, h]
  cases bytes <;> simp

/-- A call is answered as the line is that it leads to, whatever has been counted. -/
theorem exists_call_eq (stream : Stream) (call : StreamCall) :
    ∃ (bytes : Bytes) (truncated : Nat),
      stream.call call = { stream with truncated }.writeLine bytes := by
  cases call with
  | print line => exact ⟨line.bytes, _, rfl⟩
  | write text => exact ⟨text, stream.truncated, rfl⟩

theorem call_of_full {stream : Stream} (h : stream.sink.room = some 0) (call : StreamCall) :
    (stream.call call).2 = .error .full := by
  obtain ⟨bytes, truncated, heq⟩ := stream.exists_call_eq call
  rw [heq]
  exact writeLine_of_full (by exact h) bytes

/-- A sink without a limit takes every line. -/
theorem call_of_unlimited {stream : Stream} (h : stream.sink.room = none) (call : StreamCall) :
    (stream.call call).2 = .ok () := by
  obtain ⟨bytes, truncated, heq⟩ := stream.exists_call_eq call
  rw [heq, writeLine_of_unlimited (by exact h)]

/-! ## Any calls -/

/-- A count that every call adds to by the same rule has in the end been added to as often as the
rule holds of a call and its answer. -/
theorem count_callAll {count : Stream → Nat} {p : AnsweredCall → Bool}
    (hlimit : ∀ stream room, count (limit stream room) = count stream)
    (hcall : ∀ (stream : Stream) (call : StreamCall),
      count (stream.call call).1 = count stream + (p ⟨call, (stream.call call).2⟩).toNat)
    (stream : Stream) (steps : List StreamStep) :
    count (stream.callAll steps) = count stream + (stream.answers steps).countP p := by
  induction steps generalizing stream with
  | nil => rfl
  | cons step steps ih =>
    cases step with
    | call call =>
      have hcount : (answers stream (.call call :: steps)).countP p =
          (p ⟨call, (stream.call call).2⟩).toNat +
            (answers (stream.call call).1 steps).countP p := by
        rw [answers, List.countP_cons, Nat.add_comm]
        cases p ⟨call, (stream.call call).2⟩ <;> rfl
      rw [callAll, ih, hcall, hcount, Nat.add_assoc]
    | limit room =>
      rw [callAll, answers, ih, hlimit]

/-- The lines that are counted are the calls that were answered well. -/
theorem lines_callAll (stream : Stream) (steps : List StreamStep) :
    (stream.callAll steps).lines =
      stream.lines + (stream.answers steps).countP (·.isDelivered) :=
  count_callAll (fun _ _ => rfl) lines_call stream steps

/-- The cut lines that are counted are those that were handed in. -/
theorem truncated_callAll (stream : Stream) (steps : List StreamStep) :
    (stream.callAll steps).truncated =
      stream.truncated + (stream.answers steps).countP (·.call.isCut) :=
  count_callAll (fun _ _ => rfl) truncated_call stream steps

/-- What has one property is counted apart by whether it has another. -/
theorem countP_eq_add (p q : AnsweredCall → Bool) (answered : List AnsweredCall) :
    answered.countP p =
      answered.countP (fun a => p a && q a) + answered.countP (fun a => p a && !q a) := by
  rw [List.countP_eq_countP_filter_add answered p q, List.countP_filter, List.countP_filter]

/-- **What the two counts of a new stream say** after any calls, whatever its sink had room for
each time.  The lines are those that got through.  The cut lines are those that got through and
those that were refused: so they are the delivered ones exactly if no cut line was refused, and no
more than the lines exactly if there were no more of these than of whole lines that got through.  A
call that fails is not counted as a line, but a cut line that it was handed is counted as such. -/
theorem counters_after (sink : Sink) (steps : List StreamStep) :
    let answered := ({ sink } : Stream).answers steps
    let last := ({ sink } : Stream).callAll steps
    last.lines = answered.countP (·.isDelivered) ∧
    last.truncated = answered.countP (fun a => a.call.isCut && a.isDelivered) +
      answered.countP (fun a => a.call.isCut && !a.isDelivered) ∧
    (last.truncated = answered.countP (fun a => a.call.isCut && a.isDelivered) ↔
      ∀ a ∈ answered, a.call.isCut → a.isDelivered) ∧
    (last.truncated ≤ last.lines ↔
      answered.countP (fun a => a.call.isCut && !a.isDelivered) ≤
        answered.countP fun a => a.isDelivered && !a.call.isCut) ∧
    ∀ (stream : Stream) (call : StreamCall) (e : SinkError),
      (stream.call call).2 = .error e →
        (stream.call call).1.lines = stream.lines ∧
          ((stream.call call).1.truncated = stream.truncated ↔ call.isCut = false) := by
  intro answered last
  have hlines : last.lines = answered.countP (·.isDelivered) := by
    rw [lines_callAll, Nat.zero_add]
  have htruncated : last.truncated = answered.countP (·.call.isCut) := by
    rw [truncated_callAll, Nat.zero_add]
  have hcut : answered.countP (·.call.isCut) =
      answered.countP (fun a => a.call.isCut && a.isDelivered) +
        answered.countP (fun a => a.call.isCut && !a.isDelivered) :=
    countP_eq_add _ _ answered
  have hdelivered : answered.countP (·.isDelivered) =
      answered.countP (fun a => a.call.isCut && a.isDelivered) +
        answered.countP (fun a => a.isDelivered && !a.call.isCut) := by
    simp only [Bool.and_comm (AnsweredCall.call _).isCut]
    exact countP_eq_add _ _ answered
  refine ⟨hlines, htruncated.trans hcut, ?_, ?_, ?_⟩
  · rw [htruncated, hcut, Nat.add_eq_left, List.countP_eq_zero]
    simp
  · omega
  · intro stream call e herror
    refine ⟨?_, ?_⟩
    · rw [lines_call, herror]
      rfl
    · rw [truncated_call]
      cases call.isCut <;> simp

/-- A line on which there was no room for the last of its bytes. -/
def overlong : Line := Line.empty.push (List.replicate (lineCapacity + 1) 0x78)

theorem isCut_print_overlong : (StreamCall.print overlong).isCut = true := by
  rw [StreamCall.isCut, overlong, Line.truncated_push]
  simp [Line.room, Line.empty]

/-- It is printed while the sink is full, and once more when there is room. -/
def printedTwice : List StreamStep :=
  [.limit (some 0), .call (.print overlong), .limit none, .call (.print overlong)]

/-- The refused call is no line, but the line that it was handed is counted with the other one:
there are two cut lines among one. -/
theorem counters_after_printedTwice :
    ({} : Stream).answers printedTwice =
        [⟨.print overlong, .error .full⟩, ⟨.print overlong, .ok ()⟩] ∧
      (({} : Stream).callAll printedTwice).lines = 1 ∧
      (({} : Stream).callAll printedTwice).truncated = 2 ∧
      ¬(({} : Stream).callAll printedTwice).truncated ≤
        (({} : Stream).callAll printedTwice).lines := by
  have hanswers : ({} : Stream).answers printedTwice =
      [⟨.print overlong, .error .full⟩, ⟨.print overlong, .ok ()⟩] := by
    simp only [printedTwice, answers]
    rw [call_of_full rfl, call_of_unlimited rfl]
  obtain ⟨hlines, htruncated, -, hle, -⟩ := counters_after {} printedTwice
  rw [hanswers] at hlines htruncated hle
  have hcut := isCut_print_overlong
  refine ⟨hanswers, hlines, ?_, ?_⟩
  · rw [htruncated]
    simp [AnsweredCall.isDelivered, hcut, Except.isOk, Except.toBool]
  · rw [hle]
    simp [AnsweredCall.isDelivered, hcut, Except.isOk, Except.toBool]

end Stream

end KernelTables
