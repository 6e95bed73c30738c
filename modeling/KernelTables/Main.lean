import KernelTables.Program

/-!
# The program on a real system

The host here is the running system.  It offers no way to read a link as such: a link that leads
somewhere is read as the place it leads to, any other is left out, and no inode numbers are known.
Nor does it tell how many bytes were taken of a write that failed, which then counts as none.
-/

namespace KernelTables.Main

/-- The value of an action, or `none` where it fails. -/
def attempt {α : Type} (action : IO α) : IO (Option α) := do
  try return some (← action) catch _ => return none

/-- The bytes of a file. -/
def readFile (path : String) : IO (Option Bytes) :=
  attempt do return (← IO.FS.readBinFile path).toList

/-- The text of a path below a root. -/
def pathBelow (root : String) (path : NamePath) : String :=
  path.foldl (fun below name => Path.join below (shown name)) root
where
  shown (name : Bytes) : String := String.ofList (lossy name)

/-- What has been found at some paths. -/
abbrev Findings (α : Type) := List (NamePath × α)

/-- Looks for something at paths. -/
def findings {α : Type} (find : String → IO (Option α)) (root : String) (paths : List NamePath) :
    IO (Findings α) :=
  paths.filterMapM fun path => return (← find (pathBelow root path)).map (path, ·)

/-- The names in a directory, as bytes. -/
def names (path : String) : IO (Option (List Bytes)) :=
  attempt do
    let place ← IO.FS.realPath path
    return (← place.readDir).toList.map (utf8 ·.fileName)

/-- The place a link leads to. -/
def readLink (path : String) : IO (Option (Bytes × Option UInt64)) :=
  attempt do return (utf8 (← IO.FS.realPath path).toString, none)

/-- The directories, the files and the links that an inquiry is about. -/
def concerns : Inquiry → List NamePath × List NamePath × List NamePath
  | .processes => ([[]], [], [])
  | .threads pid => ([ProcView.below pid ["task"]], [], [])
  | .descriptors pid => ([ProcView.below pid ["fd"]], [], [])
  | .task pid tid =>
    let thread := [idText pid, utf8 "task", idText tid]
    ([], [thread ++ [utf8 "status"], thread ++ [utf8 "comm"],
      ProcView.below pid ["root", "etc", "hostname"]],
      [ProcView.below pid ["exe"], ProcView.below pid ["ns", "uts"],
        ["self", "ns", "uts"].map utf8])
  | .file pid fd => ([], [], [[idText pid, utf8 "fd", Numeral.decimal fd.toNat]])

/-- The reads that take in a file, if it can be opened. -/
def openTable (path : String) : IO (Option Table) := do
  match ← attempt (IO.FS.Handle.mk path .read) with
  | none => return none
  | some handle =>
    try return some [.data (← handle.readBinToEnd).toList]
    catch e => return some [.failure (toString e)]

/-- The node name of the running system. -/
def nodeName : IO (Option NodeName) := do
  let content ← readFile "/proc/sys/kernel/hostname"
  return content.map fun bytes => .ofBytes (trimBoth isAsciiBlank bytes)

/-- The process table at a path, as far as an inquiry needs it. -/
def procView (root : String) (inquiry : Inquiry) : IO ProcView := do
  let (directories, files, links) := concerns inquiry
  let listed ← findings names root directories
  let contents ← findings readFile root files
  let targets ← findings readLink root links
  return {
    names? path := listed.lookup path
    read? path := contents.lookup path
    readLink? path := targets.lookup path
    ownNodeName := ← nodeName }

/-- Hands bytes to something that takes all of them or fails. -/
def handOver (write : ByteArray → IO Unit) (bytes : Bytes) : IO Nat := do
  match ← attempt (write ⟨bytes.toArray⟩) with
  | some () => return bytes.length
  | none => return 0

/-- Adds bytes to the standard output. -/
def print : Bytes → IO Nat :=
  handOver fun bytes => do
    let output ← IO.getStdout
    output.write bytes
    output.flush

/-- Makes a file that holds nothing and gives the way to add bytes to it. -/
def createFile (path : String) : IO (Option (Bytes → IO Nat)) := do
  let handle ← attempt (IO.FS.Handle.mk path .write)
  return handle.map fun handle =>
    handOver fun bytes => do
      handle.write bytes
      handle.flush

/-- Where the user's configuration files are: a directory named for them, or else the usual one
below the home directory. -/
def configDirectory : IO String := do
  let named := (← IO.getEnv "XDG_CONFIG_HOME").filter fun path => Path.isAbsolute (utf8 path)
  let home := (← IO.getEnv "HOME").getD "~"
  return named.getD (Path.join home ".config")

/-- The running system. -/
def system : Host IO where
  configDirectory := configDirectory
  pathExists path := return (← attempt (IO.FS.realPath path)).isSome
  readFile := readFile
  procView := procView
  openTable := openTable
  print := print
  createFile := createFile

end KernelTables.Main

/-- Runs the program on the words of the command line. -/
def main (words : List String) : IO UInt32 := do
  let completion ← KernelTables.Program.run KernelTables.Main.system words
  IO.eprint completion.diagnostics
  return UInt32.ofNat completion.exitCode
