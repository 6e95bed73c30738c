import KernelTables.Text.Numeral

/-!
# Address deltas

A symbol is announced by its distance from the symbol before it.  The first symbol, and one that
follows a hidden address, has no distance; a distance downward is written with a minus sign.
-/

namespace KernelTables

/-- The offset of an address from the one before it. -/
inductive AddressDelta
  /-- There is no usable address before this one. -/
  | unknown
  /-- The address is the same or higher. -/
  | forward (distance : UInt64)
  /-- The address is lower. -/
  | backward (distance : UInt64)
  deriving DecidableEq, Repr

namespace AddressDelta

/-- The offset of `current` from `previous`, where zero is no address. -/
def between (previous current : UInt64) : AddressDelta :=
  if previous = 0 then unknown
  else if previous ≤ current then forward (current - previous)
  else backward (previous - current)

/-- The written form: nothing, or a signed hexadecimal numeral. -/
def text : AddressDelta → Bytes
  | unknown => []
  | forward distance => Numeral.prefixedHex distance.toNat
  | backward distance => utf8 "-" ++ Numeral.prefixedHex distance.toNat

end AddressDelta

end KernelTables
