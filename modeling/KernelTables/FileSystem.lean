import KernelTables.FileTree
import KernelTables.Path

/-!
# A file system as a value

A tree of files with the directory that a program runs in.  A path is walked name by name; a link
on the way is replaced by the names of its target, which start from the directory the link is in.
Names, paths and the number of links on one way are bounded.
-/

namespace KernelTables

/-- A tree of files and where in it a program runs. -/
structure FileSystem where
  /-- The whole tree. -/
  root : FileTree
  /-- The directory that relative paths start from. -/
  workingDirectory : NamePath
  /-- The places of files that never have room for a byte. -/
  full : List NamePath := []
  /-- How many bytes any other file can be made to hold, if there is a limit. -/
  fileLimit : Option Nat := none
  /-- How many bytes the standard output still takes, if there is a limit. -/
  printLimit : Option Nat := none

namespace FileSystem

/-! ## Walking -/

/-- How many bytes a name may have. -/
def nameLimit : Nat := 255

/-- How many bytes a path may have. -/
def pathLimit : Nat := 4095

/-- How many links may be followed on one way. -/
def linkLimit : Nat := 40

/-- Whether a directory stands at a place. -/
def isDirectory (fs : FileSystem) (place : NamePath) : Bool :=
  (fs.root.find? place).any (·.isDirectory)

/-- How far names lead. -/
inductive Stretch
  /-- To a place, whether or not anything stands there. -/
  | arrived (place : NamePath)
  /-- To a link in a directory, with names left behind it. -/
  | link (directory : NamePath) (target : Bytes) (rest : List Bytes)
  /-- Nowhere: a name is too long, or what should be a directory is none. -/
  | lost

/-- Walks from a place until a link has to be followed.  A link at the very end is only followed
if `through` says so. -/
def stretch (fs : FileSystem) (through : Bool) : NamePath → List Bytes → Stretch
  | place, [] => .arrived place
  | place, name :: names =>
    if !fs.isDirectory place || nameLimit < name.length then .lost
    else if name = Path.here then fs.stretch through place names
    else if name = Path.above then fs.stretch through place.dropLast names
    else
      match fs.root.find? (place ++ [name]) with
      | some (.link target) =>
        if names.isEmpty && !through then .arrived (place ++ [name]) else .link place target names
      | _ => fs.stretch through (place ++ [name]) names

/-- Where a path starts that is read in a directory. -/
def start (directory : NamePath) (path : Bytes) : NamePath :=
  if Path.isAbsolute path then [] else directory

/-- Walks from a place, following at most so many links. -/
def walk (fs : FileSystem) (through : Bool) : Nat → NamePath → List Bytes → Option NamePath
  | links, place, names =>
    match links, fs.stretch through place names with
    | _, .arrived place => some place
    | links + 1, .link directory target rest =>
      fs.walk through links (start directory target) (Path.names target ++ rest)
    | _, _ => none

/-- The place that a path names, whether or not anything stands there.  The empty path names
none. -/
def locate (fs : FileSystem) (through : Bool) (path : Bytes) : Option NamePath :=
  if path.isEmpty || pathLimit < path.length then none
  else fs.walk through linkLimit (start fs.workingDirectory path) (Path.names path)

/-! ## Reading -/

/-- What stands at a path. -/
def find? (fs : FileSystem) (path : Bytes) : Option FileTree :=
  (fs.locate true path).bind fs.root.find?

/-- The target of the link at a path, with the inode number of the file it leads to. -/
def readLink? (fs : FileSystem) (path : Bytes) : Option (Bytes × Option UInt64) := do
  let target ← (← fs.root.find? (← fs.locate false path)).target?
  return (target, (fs.find? path).bind (·.inode?))

/-! ## Writing -/

/-- The place where a path would have a file made, which cannot be that of a directory. -/
def placeForFile? (fs : FileSystem) (path : Bytes) : Option NamePath :=
  (fs.locate true path).filter fun place => !fs.isDirectory place

/-- How many bytes the file at a place can be made to hold, if there is a limit. -/
def limitAt (fs : FileSystem) (place : NamePath) : Option Nat :=
  if fs.full.contains place then some 0 else fs.fileLimit

/-- How many of so many bytes there is room for. -/
def fitting (room : Option Nat) (count : Nat) : Nat := room.elim count (min count)

/-- The bytes of the file at a place, as far as there is one. -/
def bytesAt (fs : FileSystem) (place : NamePath) : Bytes :=
  ((fs.root.find? place).bind (·.content?)).getD []

/-- The file system with the bytes of one file changed. -/
def rewrite (fs : FileSystem) (change : Bytes → Bytes) (place : NamePath) : FileSystem :=
  { fs with root := fs.root.rewrite change place }

end FileSystem

end KernelTables
