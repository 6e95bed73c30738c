import KernelTables.Object
import KernelTables.Text.Blank
import KernelTables.Text.Numeral

/-!
# Status files

A status file is lines of the form `key:value`.  Only four keys matter, and of each only the first
word of its *last* line: a later line overrides an earlier one even where it cannot be read.
-/

namespace KernelTables

/-- What a status file says of a task. -/
structure Status where
  /-- The thread's id. -/
  pid : Option Int32
  /-- The id of its thread group. -/
  tgid : Option Int32
  /-- The real user and group ids, if both are there. -/
  credentials : Option Credentials
  deriving DecidableEq, Repr

namespace Status

/-- The keys of a text's lines and what stands behind each, from the last line to the first. -/
def entries (text : List Char) : List (List Char × List Char) :=
  ((text.splitOn '\n').filterMap (cutAt? ':')).reverse

/-- The first word behind the last occurrence of a key. -/
def word? (key : String) (text : List Char) : Option (List Char) :=
  ((entries text).lookup key.toList).bind firstWord?

/-- Reads a status file.  User and group lines begin with the real id. -/
def parse (text : List Char) : Status where
  pid := (word? "Pid" text).bind Numeral.int32?
  tgid := (word? "Tgid" text).bind Numeral.int32?
  credentials := do
    let uid ← (word? "Uid" text).bind Numeral.uint32?
    let gid ← (word? "Gid" text).bind Numeral.uint32?
    some ⟨uid, gid⟩

end Status

end KernelTables
