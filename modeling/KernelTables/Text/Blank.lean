/-!
# White space and words

The white space of a text is the Unicode property of that name, twenty-five characters in all; the
white space of raw bytes is the five ASCII characters among them that a terminal or an editor
leaves behind.  Words and trimmed texts are defined from these two classes.
-/

namespace KernelTables

/-- The Unicode property White_Space. -/
def isBlank (c : Char) : Bool :=
  let n := c.toNat
  (9 ≤ n && n ≤ 13) || n == 0x20 || n == 0x85 || n == 0xA0 || n == 0x1680 ||
    (0x2000 ≤ n && n ≤ 0x200A) || n == 0x2028 || n == 0x2029 || n == 0x202F || n == 0x205F ||
    n == 0x3000

/-- Space, tab, line feed, form feed and carriage return. -/
def isAsciiBlank (b : UInt8) : Bool :=
  b == 0x20 || b == 0x09 || b == 0x0A || b == 0x0C || b == 0x0D

/-- A sequence without the elements at either end that satisfy `p`. -/
def trimBoth {α : Type} (p : α → Bool) (xs : List α) : List α :=
  ((xs.dropWhile p).reverse.dropWhile p).reverse

/-- A text without the white space around it. -/
def trim (text : List Char) : List Char := trimBoth isBlank text

/-- The words of a text: its longest runs without white space, in order. -/
def words (text : List Char) : List (List Char) :=
  (text.splitOnP isBlank).filter (!·.isEmpty)

/-- The first word of a text. -/
def firstWord? (text : List Char) : Option (List Char) := (words text).head?

/-- The contents of a sequence up to the first `a`, and what follows that `a`. -/
def cutAt? {α : Type} [BEq α] (a : α) (xs : List α) : Option (List α × List α) :=
  match xs.span (· != a) with
  | (_, []) => none
  | (before, _ :: after) => some (before, after)

end KernelTables
