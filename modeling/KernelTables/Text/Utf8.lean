/-!
# Byte strings and their UTF-8 text

Everything the kernel hands out is bytes; only some of it is text.  `encode` writes characters as
UTF-8, and `pieces` reads bytes back: it cuts them into well-formed characters and *maximal invalid
parts*, the longest runs that could still have begun a character.  A strict reader (`decode?`)
refuses a string with an invalid part, a lenient one (`lossy`) shows one replacement character for
each.
-/

namespace KernelTables

/-- A string of bytes, as the kernel and the file system hand them out. -/
abbrev Bytes := List UInt8

/-- The newline byte, which ends a line and may occur nowhere inside one. -/
def newline : UInt8 := 10

/-- The UTF-8 form of a sequence of characters. -/
def encode (text : List Char) : Bytes := text.flatMap String.utf8EncodeChar

/-- The UTF-8 form of a string. -/
def utf8 (text : String) : Bytes := encode text.toList

@[simp] theorem encode_nil : encode [] = [] := rfl

@[simp] theorem encode_cons (c : Char) (cs : List Char) :
    encode (c :: cs) = String.utf8EncodeChar c ++ encode cs := by
  simp [encode]

@[simp] theorem encode_append (xs ys : List Char) : encode (xs ++ ys) = encode xs ++ encode ys := by
  simp [encode]

namespace Utf8

/-! ## The reading machine -/

/-- A character whose lead byte has been read. -/
structure Pending where
  /-- The bits gathered so far. -/
  value : Nat
  /-- How many continuation bytes follow the next one. -/
  more : Nat
  /-- The least byte that may come next. -/
  low : UInt8
  /-- The greatest byte that may come next. -/
  high : UInt8
  deriving DecidableEq, Repr

/-- What a byte means at the start of a character. -/
inductive Lead
  /-- It is a whole character. -/
  | single (c : Char)
  /-- It begins a longer one. -/
  | opens (pending : Pending)
  /-- No character begins with it. -/
  | invalid
  deriving DecidableEq, Repr

/-- Classifies a lead byte.  The bounds on the second byte shut out overlong forms, surrogates and
values above the last scalar value. -/
def Lead.of (b : UInt8) : Lead :=
  if b < 0x80 then .single (Char.ofNat b.toNat)
  else if b < 0xC2 then .invalid
  else if b < 0xE0 then .opens ⟨b.toNat - 0xC0, 0, 0x80, 0xBF⟩
  else if b < 0xF0 then
    .opens ⟨b.toNat - 0xE0, 1, if b = 0xE0 then 0xA0 else 0x80, if b = 0xED then 0x9F else 0xBF⟩
  else if b < 0xF5 then
    .opens ⟨b.toNat - 0xF0, 2, if b = 0xF0 then 0x90 else 0x80, if b = 0xF4 then 0x8F else 0xBF⟩
  else .invalid

/-- What starting a character with `b` completes, and what it leaves open. -/
def start (b : UInt8) : List (Option Char) × Option Pending :=
  match Lead.of b with
  | .single c => ([some c], none)
  | .opens p => ([], some p)
  | .invalid => ([none], none)

/-- Reads one byte.  A byte that cannot continue the open character ends an invalid part and is
read afresh. -/
def step (pending? : Option Pending) (b : UInt8) : List (Option Char) × Option Pending :=
  match pending? with
  | none => start b
  | some p =>
    if p.low ≤ b ∧ b ≤ p.high then
      let value := p.value * 64 + (b.toNat - 0x80)
      match p.more with
      | 0 => ([some (Char.ofNat value)], none)
      | more + 1 => ([], some ⟨value, more, 0x80, 0xBF⟩)
    else
      let (done, pending?) := start b
      (none :: done, pending?)

/-- Reads bytes on from a state; a character still open at the end is an invalid part. -/
def run : Option Pending → Bytes → List (Option Char)
  | none, [] => []
  | some _, [] => [none]
  | pending?, b :: bs => (step pending? b).1 ++ run (step pending? b).2 bs

end Utf8

/-! ## Reading text -/

/-- The characters of a byte string in order, with `none` for each maximal invalid part. -/
def pieces (bytes : Bytes) : List (Option Char) := Utf8.run none bytes

/-- The text of a byte string that is UTF-8 throughout. -/
def decode? (bytes : Bytes) : Option (List Char) := (pieces bytes).mapM id

/-- The text of any byte string, with one replacement character for each maximal invalid part. -/
def lossy (bytes : Bytes) : List Char := (pieces bytes).map (·.getD '\uFFFD')

@[simp] theorem pieces_nil : pieces [] = [] := rfl

@[simp] theorem decode?_nil : decode? [] = some [] := rfl

end KernelTables
