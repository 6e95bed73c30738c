/-!
# Values carried from one record to the next

A report may fill a value that cannot be read with the last one that could.  A carry remembers
that value; it answers with it only where filling in is asked for.
-/

namespace KernelTables

/-- The last value read of one field. -/
structure Carry (α : Type) where
  /-- Whether an unreadable value is answered with the last one. -/
  enabled : Bool
  /-- The last value that could be read. -/
  last : Option α := none
  deriving DecidableEq, Repr

namespace Carry

variable {α : Type}

/-- Takes in what was read and answers with the value to use. -/
def resolve (carry : Carry α) (read : Option α) : Carry α × Option α :=
  match read with
  | some value => ({ carry with last := some value }, some value)
  | none => (carry, if carry.enabled then carry.last else none)

@[simp] theorem resolve_some (carry : Carry α) (value : α) :
    carry.resolve (some value) = ({ carry with last := some value }, some value) := rfl

@[simp] theorem resolve_none (carry : Carry α) :
    carry.resolve none = (carry, if carry.enabled then carry.last else none) := rfl

end Carry

end KernelTables
