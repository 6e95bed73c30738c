/-!
# TOML values

What a TOML document says.  Tables and arrays remember how they were written, because that decides
what later lines of the document may still add to them: a table between braces and an array between
brackets are complete, while tables opened by a header or by a dotted key can grow.

Numbers are kept exactly as they stand in the document.  One that no machine number can hold is
still a value, and so is one that only begins like a whole number; but neither can be *represented*,
and a reader that looks at it has to refuse it.
-/

namespace KernelTables.Toml

/-- How a table came to be. -/
inductive Origin
  /-- Written between braces. -/
  | inline
  /-- Opened by a header of its own, or the document itself. -/
  | header
  /-- Named on the way to another header's table. -/
  | implied
  /-- Named on the way to a dotted key's value. -/
  | dotted
  deriving DecidableEq, Repr

/-- A number with a fraction or an exponent. -/
inductive Real
  /-- A significand times a power of ten. -/
  | finite (negative : Bool) (significand : Nat) (exponent : Int)
  /-- An infinity of either sign. -/
  | infinite
  /-- No number. -/
  | nan
  deriving DecidableEq, Repr

/-- A value of a document. -/
inductive Value
  /-- A text. -/
  | string (text : String)
  /-- A whole number. -/
  | integer (n : Int)
  /-- What begins like a whole number but has other characters among its digits, or no digits. -/
  | malformed
  /-- A number with a fraction or an exponent. -/
  | real (r : Real)
  /-- A truth value. -/
  | boolean (b : Bool)
  /-- A date, a time, or both, as written. -/
  | datetime (text : String)
  /-- A list of values, complete unless it was opened by headers. -/
  | array (complete : Bool) (items : List Value)
  /-- Values under keys. -/
  | table (origin : Origin) (entries : List (String × Value))
  deriving Inhabited

/-- The values of a table. -/
abbrev Entries := List (String × Value)

/-! ## Representable numbers -/

/-- The least number that rounds to infinity: the middle between the greatest double and the next
power of two. -/
def overflowBound : Nat := Nat.pow 2 1024 - Nat.pow 2 970

/-- Whether a significand times a power of ten is a number of ordinary size.  The count of digits
before the point settles all but the numbers near the bound. -/
def isFinite (significand : Nat) (exponent : Int) : Bool :=
  let size := (Nat.toDigits 10 significand).length + exponent
  if significand = 0 ∨ size ≤ 300 then true
  else if 400 < size then false
  else if 0 ≤ exponent then significand * Nat.pow 10 exponent.toNat < overflowBound
  else significand < overflowBound * Nat.pow 10 (-exponent).toNat

/-- Whether a number with a fraction has a double near it. -/
def Real.isRepresentable : Real → Bool
  | finite _ significand exponent => isFinite significand exponent
  | infinite | nan => true

mutual

/-- Whether every number in a value fits a machine number: 128 bits, with or without sign, for a
whole one, and a double for any other. -/
def Value.isRepresentable : Value → Bool
  | .integer n => -(Nat.pow 2 127 : Nat) ≤ n && n < (Nat.pow 2 128 : Nat)
  | .real r => r.isRepresentable
  | .array _ items => allRepresentable items
  | .table _ entries => entriesRepresentable entries
  | .malformed => false
  | .string _ | .boolean _ | .datetime _ => true

/-- Whether all values of a list are representable. -/
def allRepresentable : List Value → Bool
  | [] => true
  | item :: items => item.isRepresentable && allRepresentable items

/-- Whether all values of a table are representable. -/
def entriesRepresentable : Entries → Bool
  | [] => true
  | (_, value) :: entries => value.isRepresentable && entriesRepresentable entries

end

end KernelTables.Toml
