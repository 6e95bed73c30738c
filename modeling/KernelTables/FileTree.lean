import KernelTables.Text.Utf8

/-!
# Directory trees

A tree of directories, files and symbolic links.  Three views are all that is ever asked of what
stands at a place in one: the names in a directory, the bytes of a file, and the target of a link.
Each is missing where something of another kind stands.  Directories and files have inode numbers,
which are asked for where a link leads.
-/

namespace KernelTables

/-- A path from a directory downward, one name after another. -/
abbrev NamePath := List Bytes

/-- A directory, file or link, with everything below it. -/
inductive FileTree
  /-- A directory and what it lists, in the order of the listing, and its inode number if that is
  known. -/
  | directory (entries : List (Bytes × FileTree)) (inode : Option UInt64 := none)
  /-- A regular file, and its inode number if that is known. -/
  | file (content : Bytes) (inode : Option UInt64)
  /-- A link to the place that a path names from the directory the link is in. -/
  | link (target : Bytes)
  deriving Inhabited

namespace FileTree

/-- The directory that lists nothing. -/
def bare : FileTree := .directory []

/-- What a directory lists; nothing for files and links. -/
def entries : FileTree → List (Bytes × FileTree)
  | directory entries _ => entries
  | _ => []

/-- What a directory lists under a name. -/
def child? (tree : FileTree) (name : Bytes) : Option FileTree := tree.entries.lookup name

/-- What stands at the end of a path. -/
def find? (tree : FileTree) : NamePath → Option FileTree
  | [] => some tree
  | name :: path => (tree.child? name).bind (·.find? path)

@[simp] theorem find?_nil (tree : FileTree) : tree.find? [] = some tree := rfl

@[simp] theorem find?_cons (tree : FileTree) (name : Bytes) (path : NamePath) :
    tree.find? (name :: path) = (tree.child? name).bind (·.find? path) := rfl

/-- A path can be followed in two stretches. -/
theorem find?_append (tree : FileTree) (path rest : NamePath) :
    tree.find? (path ++ rest) = (tree.find? path).bind (·.find? rest) := by
  induction path generalizing tree with
  | nil => rfl
  | cons name path ih =>
    rw [List.cons_append, find?_cons, find?_cons]
    cases tree.child? name with
    | none => rfl
    | some child => exact ih child

/-! ## The three views -/

/-- The names in a directory. -/
def names? : FileTree → Option (List Bytes)
  | directory entries _ => some (entries.map (·.1))
  | _ => none

/-- The bytes of a file. -/
def content? : FileTree → Option Bytes
  | file content _ => some content
  | _ => none

/-- The target of a link. -/
def target? : FileTree → Option Bytes
  | link target => some target
  | _ => none

/-- The inode number of a directory or file. -/
def inode? : FileTree → Option UInt64
  | directory _ inode => inode
  | file _ inode => inode
  | link _ => none

/-- Whether other things may stand below. -/
def isDirectory (tree : FileTree) : Bool := tree.names?.isSome

/-! ## Building -/

/-- Lists `tree` under `name`, in the place of what was listed there before or else at the end. -/
def put (name : Bytes) (tree : FileTree) :
    List (Bytes × FileTree) → List (Bytes × FileTree)
  | [] => [(name, tree)]
  | (other, old) :: rest =>
    if other = name then (name, tree) :: rest else (other, old) :: put name tree rest

theorem lookup_put_self (name : Bytes) (tree : FileTree) (entries : List (Bytes × FileTree)) :
    (put name tree entries).lookup name = some tree := by
  induction entries with
  | nil => simp [put]
  | cons entry rest ih =>
    obtain ⟨other, old⟩ := entry
    by_cases h : other = name
    · simp [put, h]
    · have h' : (name == other) = false := beq_false_of_ne (Ne.symm h)
      rw [put, if_neg h, List.lookup_cons, h', ih]

theorem lookup_put_of_ne {name other : Bytes} (h : other ≠ name) (tree : FileTree)
    (entries : List (Bytes × FileTree)) :
    (put name tree entries).lookup other = entries.lookup other := by
  induction entries with
  | nil =>
    have h' : (other == name) = false := beq_false_of_ne h
    rw [put, List.lookup_cons, h']
  | cons entry rest ih =>
    obtain ⟨key, old⟩ := entry
    by_cases hk : key = name
    · have h' : (other == name) = false := beq_false_of_ne h
      rw [put, if_pos hk, List.lookup_cons, List.lookup_cons, hk, h']
    · rw [put, if_neg hk, List.lookup_cons, List.lookup_cons, ih]

/-- Replaces what stands at the end of a path, making the directories that lead there. -/
def alter (tree : FileTree) (change : Option FileTree → FileTree) : NamePath → FileTree
  | [] => change (some tree)
  | [name] => .directory (put name (change (tree.child? name)) tree.entries) tree.inode?
  | name :: path =>
    .directory (put name (((tree.child? name).getD bare).alter change path) tree.entries)
      tree.inode?

/-- Puts a file or link at the end of a path. -/
def insert (tree : FileTree) (path : NamePath) (new : FileTree) : FileTree :=
  tree.alter (fun _ => new) path

/-- Changes the bytes of the file at the end of a path, which may have to be made first. -/
def rewrite (tree : FileTree) (change : Bytes → Bytes) (path : NamePath) : FileTree :=
  tree.alter (fun old =>
    .file (change ((old.bind content?).getD [])) (old.bind inode?)) path

/-- Makes sure that a directory stands at the end of a path. -/
def makeDirectory (tree : FileTree) (path : NamePath) : FileTree :=
  tree.alter (·.getD bare) path

end FileTree

end KernelTables
