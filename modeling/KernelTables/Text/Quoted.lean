import KernelTables.Text.Shown
import KernelTables.Field

/-!
# Quoted text

How a byte string is shown to a person.  Text stands between double quotes, with a backslash before
a quote or a backslash and a name or number for every character that does not show by itself.
Bytes that are no text are shown as a list of numbers.
-/

namespace KernelTables

/-- How one character stands in a quoted text. -/
def quoteChar (c : Char) : List Char :=
  match c with
  | '\t' => ['\\', 't']
  | '\r' => ['\\', 'r']
  | '\n' => ['\\', 'n']
  | '\x00' => ['\\', '0']
  | '\\' => ['\\', '\\']
  | '"' => ['\\', '"']
  | c =>
    if isShown c then [c]
    else ['\\', 'u', '\x7b'] ++ Nat.toDigits 16 c.toNat ++ ['\x7d']

/-- A text between double quotes. -/
def quote (text : List Char) : List Char := '"' :: (text.flatMap quoteChar ++ ['"'])

/-- Numbers in brackets. -/
def byteList (bytes : Bytes) : List Char :=
  '[' :: (", ".toList.intercalate (bytes.map fun b => Nat.toDigits 10 b.toNat) ++ [']'])

/-- How the string in a field is shown: quoted if it is text, byte by byte otherwise. -/
def Field.shown {capacity : Nat} (field : Field capacity) : List Char :=
  match decode? field.contents with
  | some text => quote text
  | none => byteList field.contents

end KernelTables
