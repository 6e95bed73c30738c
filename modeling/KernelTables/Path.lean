import KernelTables.Text.Utf8

/-!
# Paths as text

A path is names with slashes between them.  Two spellings name the same path when they differ only
in repeated or trailing slashes and in single dots that do not begin a relative path; dots in pairs
count, since a link may stand before them.
-/

namespace KernelTables.Path

/-- The byte between two names. -/
def slash : UInt8 := 0x2F

/-- The name that stands for the directory it is in. -/
def here : Bytes := [0x2E]

/-- The name that stands for the directory above. -/
def above : Bytes := [0x2E, 0x2E]

/-- The names between a path's slashes, single dots included. -/
def parts (path : Bytes) : List Bytes := (path.splitOn slash).filter (!·.isEmpty)

/-- The names that a path leads through.  A slash at its end asks for a directory, as a dot would. -/
def names (path : Bytes) : List Bytes :=
  parts path ++ if path.getLast? = some slash then [here] else []

/-- Whether a path starts at the root. -/
def isAbsolute (path : Bytes) : Bool := path.head? == some slash

/-- A path without the differences in spelling that do not matter: whether it starts at the root,
and its names. -/
def normal (path : Bytes) : Bool × List Bytes :=
  match isAbsolute path, parts path with
  | false, first :: rest => (false, first :: rest.filter (· != here))
  | absolute, names => (absolute, names.filter (· != here))

/-- Whether two spellings name the same path. -/
def same (p q : Bytes) : Bool := normal p == normal q

/-- The path of a name in a directory.  A slash comes between them unless one is there already or
the directory's path is empty. -/
def join (directory name : String) : String :=
  match directory.toList.getLast? with
  | none | some '/' => directory ++ name
  | some _ => directory ++ "/" ++ name

/-- The path of what names lead to from a directory, spelled as `join` would. -/
def below (directory : Bytes) (names : List Bytes) : Bytes :=
  names.foldl (fun path name =>
    if path.isEmpty || path.getLast? = some slash then path ++ name
    else path ++ slash :: name) directory

example : same (utf8 "uts:[1]") (utf8 "uts:[1]/.") := by decide
example : ¬ same (utf8 "./a") (utf8 "a") := by decide

end KernelTables.Path
