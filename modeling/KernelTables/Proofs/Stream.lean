import Mathlib.Data.List.Basic
import KernelTables.Stream

/-!
# Streams into a sink that takes everything

Where a sink has room without limit, writing is nothing but adding lines.  `Stream.append` is that
addition, and `writeLine_of_unlimited` and `print_of_unlimited` reduce the two ways of writing to
it; the second one for lines that have not been cut short.
-/

namespace KernelTables

/-- Lines as they stand in a sink, each with the newline that ends it. -/
def ofLines (lines : List Bytes) : Bytes := lines.flatMap (· ++ [newline])

@[simp] theorem ofLines_nil : ofLines [] = [] := rfl

@[simp] theorem ofLines_cons (line : Bytes) (lines : List Bytes) :
    ofLines (line :: lines) = line ++ newline :: ofLines lines := by
  simp [ofLines]

@[simp] theorem ofLines_append (first rest : List Bytes) :
    ofLines (first ++ rest) = ofLines first ++ ofLines rest := by
  simp [ofLines]

namespace Line

/-- A text that fits stands on a fresh line as it is. -/
theorem push_empty {text : Bytes} (h : text.length ≤ lineCapacity) :
    (empty.push text).bytes = text ∧ (empty.push text).truncated = false := by
  refine ⟨?_, ?_⟩
  · rw [bytes_push, empty, List.nil_append, List.take_of_length_le h]
  · rw [truncated_push, empty, Bool.false_or]
    exact decide_eq_false (Nat.not_lt.mpr h)

end Line

namespace Stream

/-- The stream with more lines in its sink, and counted. -/
def append (stream : Stream) (lines : List Bytes) : Stream where
  sink := { stream.sink with taken := stream.sink.taken ++ ofLines lines }
  lines := stream.lines + lines.length
  truncated := stream.truncated

@[simp] theorem text_append (stream : Stream) (lines : List Bytes) :
    (stream.append lines).text = stream.text ++ ofLines lines := by
  simp [append, text, Sink.text]

@[simp] theorem room_append (stream : Stream) (lines : List Bytes) :
    (stream.append lines).sink.room = stream.sink.room := rfl

@[simp] theorem append_nil (stream : Stream) : stream.append [] = stream := by
  simp [append]

@[simp] theorem append_append (stream : Stream) (first rest : List Bytes) :
    (stream.append first).append rest = stream.append (first ++ rest) := by
  have htaken : stream.sink.taken ++ ofLines first ++ ofLines rest =
      stream.sink.taken ++ ofLines (first ++ rest) := Array.ext' (by simp)
  simp [append, htaken, Nat.add_assoc]

/-- Writing a line adds it. -/
theorem writeLine_of_unlimited {stream : Stream} (h : stream.sink.room = none) (bytes : Bytes) :
    stream.writeLine bytes = (stream.append [bytes], .ok ()) := by
  obtain ⟨⟨taken, room⟩, lines, truncated⟩ := stream
  subst h
  have htaken : (taken ++ bytes) ++ [newline] = taken ++ ofLines [bytes] := Array.ext' (by simp)
  simp only [writeLine, Sink.write, append, htaken, List.length_singleton]

/-- Printing a text that fits adds it as a line. -/
theorem print_of_unlimited {stream : Stream} (h : stream.sink.room = none) {text : Bytes}
    (hfits : text.length ≤ lineCapacity) :
    stream.print (Line.empty.push text) = (stream.append [text], .ok ()) := by
  obtain ⟨hbytes, htruncated⟩ := Line.push_empty hfits
  rw [print, hbytes, htruncated]
  exact writeLine_of_unlimited h text

end Stream

end KernelTables
