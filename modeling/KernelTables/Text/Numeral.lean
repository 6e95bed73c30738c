import KernelTables.Text.Utf8

/-!
# Numerals

How numbers are written and read.  Written numerals are as short as they can be; read ones may
carry a plus sign and leading zeros, and must fit the word they are read into.  A minus sign is
read only where negative numbers exist.
-/

namespace KernelTables.Numeral

/-! ## Writing -/

/-- The decimal digits of a number. -/
def decimal (n : Nat) : Bytes := encode (Nat.toDigits 10 n)

/-- A decimal numeral with a minus sign for negative numbers. -/
def signedDecimal : Int → Bytes
  | .ofNat n => decimal n
  | .negSucc n => utf8 "-" ++ decimal (n + 1)

/-- The lower-case hexadecimal digits of a number. -/
def hex (n : Nat) : Bytes := encode (Nat.toDigits 16 n)

/-- A hexadecimal numeral after the `0x` that marks one. -/
def prefixedHex (n : Nat) : Bytes := utf8 "0x" ++ hex n

/-! ## Reading -/

/-- The value of a digit, letters of either case standing for ten and more. -/
def digitValue (c : Char) : Option Nat :=
  if '0' ≤ c ∧ c ≤ '9' then some (c.toNat - '0'.toNat)
  else if 'a' ≤ c ∧ c ≤ 'z' then some (c.toNat - 'a'.toNat + 10)
  else if 'A' ≤ c ∧ c ≤ 'Z' then some (c.toNat - 'A'.toNat + 10)
  else none

/-- The value of a digit that is one of `base`. -/
def digitOf (base : Nat) (c : Char) : Option Nat := (digitValue c).filter (· < base)

/-- The value of a nonempty sequence of digits, however long. -/
def natural? (base : Nat) (digits : List Char) : Option Nat :=
  if digits.isEmpty then none
  else digits.foldlM (fun value c => (digitOf base c).map (value * base + ·)) 0

/-- A numeral without the plus sign that may stand before it. -/
def dropPlus : List Char → List Char
  | '+' :: digits => digits
  | digits => digits

/-- An unsigned numeral below `bound`. -/
def below? (bound base : Nat) (text : List Char) : Option Nat :=
  (natural? base (dropPlus text)).filter (· < bound)

/-- A numeral of a 64-bit word. -/
def uint64? (base : Nat) (text : List Char) : Option UInt64 :=
  (below? UInt64.size base text).map UInt64.ofNat

/-- A decimal numeral of a 32-bit word. -/
def uint32? (text : List Char) : Option UInt32 :=
  (below? UInt32.size 10 text).map UInt32.ofNat

/-- The size of the least signed 32-bit word, which has no positive counterpart. -/
def leastInt32 : Nat := 0x80000000

/-- A decimal numeral of a signed 32-bit word. -/
def int32? : List Char → Option Int32
  | '-' :: digits =>
    ((natural? 10 digits).filter (· ≤ leastInt32)).map fun n : Nat => Int32.ofInt (-(n : Int))
  | text => (below? leastInt32 10 text).map fun n => Int32.ofNat n

end KernelTables.Numeral
