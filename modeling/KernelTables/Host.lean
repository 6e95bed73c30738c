import KernelTables.FileSystem
import KernelTables.Proc.View
import KernelTables.Symbol.Table

/-!
# The system a program runs on

A program asks its host for files and tables and hands it its output.  A `Host` says how that is
done in some monad.  A file system is a host that is itself a value, so that whole runs of the
program can be computed and reasoned about.

Output may not be taken: a disk may be full, or nobody read the standard output any more.  Whatever
takes output tells how many of the bytes that it was given it has taken, which are always the first
ones.
-/

namespace KernelTables

/-- What a program can ask of the system. -/
structure Host (m : Type → Type) where
  /-- Where the user's configuration files are. -/
  configDirectory : m String
  /-- Whether anything stands at a path. -/
  pathExists : String → m Bool
  /-- The content of a file that can be read. -/
  readFile : String → m (Option Bytes)
  /-- The process table at a path, as far as one inquiry needs it. -/
  procView : String → Inquiry → m ProcView
  /-- What reading a file yields, piece by piece, if it can be opened. -/
  openTable : String → m (Option Table)
  /-- Adds bytes to the standard output, and tells how many were taken. -/
  print : Bytes → m Nat
  /-- Makes a file that holds nothing, in the place of any file there.  Where that can be done, it
  gives the way to add bytes to the file, which tells how many were taken. -/
  createFile : String → m (Option (Bytes → m Nat))

namespace FileSystem

/-- The process table at a path. -/
def procView (fs : FileSystem) (nodeName : Option NodeName) (root : String) : ProcView where
  names? path := (fs.find? (Path.below (utf8 root) path)).bind (·.names?)
  read? path := (fs.find? (Path.below (utf8 root) path)).bind (·.content?)
  readLink? path := fs.readLink? (Path.below (utf8 root) path)
  ownNodeName := nodeName

/-- The reads that take in a whole file; a directory can be opened, but not read. -/
def tableOf? : FileTree → Option Table
  | .file content _ => some [.data content]
  | .directory .. => some [.failure "Is a directory (os error 21)"]
  | .link _ => none

/-- Adds to the file at a place those bytes that it has room for. -/
def append (place : NamePath) (bytes : Bytes) : StateM FileSystem Nat := do
  let fs ← get
  let room := (fs.limitAt place).map (· - (fs.bytesAt place).length)
  let taken := fitting room bytes.length
  set (fs.rewrite (· ++ bytes.take taken) place)
  return taken

/-- Prints those bytes that the standard output has room for.  It may put lines together on its own
account; that delays a refusal, but changes nothing in what is taken in the end. -/
def print (bytes : Bytes) : StateM FileSystem Nat := do
  let fs ← get
  let taken := fitting fs.printLimit bytes.length
  set { fs with printLimit := fs.printLimit.map (· - taken) }
  return taken

/-- A file system as a host, with the user's configuration directory and the system's node name. -/
def host (configDirectory : String) (nodeName : Option NodeName) : Host (StateM FileSystem) where
  configDirectory := return configDirectory
  pathExists path := return ((← get).find? (utf8 path)).isSome
  readFile path := return ((← get).find? (utf8 path)).bind (·.content?)
  procView root _ := return (← get).procView nodeName root
  openTable path := return ((← get).find? (utf8 path)).bind tableOf?
  print := print
  createFile path := do
    let fs ← get
    match fs.placeForFile? (utf8 path) with
    | none => return none
    | some place =>
      set (fs.rewrite (fun _ => []) place)
      return some (append place)

end FileSystem

end KernelTables
