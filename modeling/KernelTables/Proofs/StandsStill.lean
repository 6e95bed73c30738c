import KernelTables.Proofs.Output
import KernelTables.Proofs.Proc.Listing

/-!
# Tables that stand still

A program looks at a process table while its own output grows, perhaps in a file of that very table.
Where nothing else changes, all that output changes is the bytes of one file.

* `FileTree.sameButBytes_rewrite` — what stands at a place, whatever is written in a file;
* `StandsStill` — whatever the output file holds, the process table and the symbol table are the
  same;
* `StandsStill.standardOutput`, `of_unread` — **output disturbs nothing** if it goes to no file, or
  to one that no report reads;
* `StandsStill.outside` — without links, that is a file outside the process table.
-/

namespace KernelTables

/-! ## A file that is written anew -/

namespace FileTree

theorem names_put (name : Bytes) (tree other : FileTree) (entries : List (Bytes × FileTree)) :
    (put name tree entries).map (·.1) = (put name other entries).map (·.1) := by
  induction entries with
  | nil => rfl
  | cons entry rest ih =>
    obtain ⟨key, old⟩ := entry
    by_cases hkey : key = name
    · simp only [put, if_pos hkey, List.map_cons]
    · simp only [put, if_neg hkey, List.map_cons, ih]

/-- Whether what stands at a place is the same but for the bytes of a file. -/
structure SameButBytes (found other : Option FileTree) : Prop where
  /-- The names it lists. -/
  names : other.bind (·.names?) = found.bind (·.names?)
  /-- The target it has. -/
  target : other.bind (·.target?) = found.bind (·.target?)
  /-- The inode number. -/
  inode : other.bind (·.inode?) = found.bind (·.inode?)

theorem SameButBytes.refl (found : Option FileTree) : SameButBytes found found := ⟨rfl, rfl, rfl⟩

/-- **What is written in a file changes the bytes of this file**, and nothing else anywhere. -/
theorem sameButBytes_rewrite (tree : FileTree) (text other : Bytes) (place path : NamePath) :
    SameButBytes ((tree.rewrite (fun _ => text) place).find? path)
        ((tree.rewrite (fun _ => other) place).find? path) ∧
      (path ≠ place → ((tree.rewrite (fun _ => other) place).find? path).bind (·.content?) =
        ((tree.rewrite (fun _ => text) place).find? path).bind (·.content?)) := by
  induction place generalizing tree path with
  | nil =>
    cases path with
    | nil => exact ⟨⟨rfl, rfl, rfl⟩, fun hne => absurd rfl hne⟩
    | cons name path => exact ⟨⟨rfl, rfl, rfl⟩, fun _ => rfl⟩
  | cons step place ih =>
    rw [rewrite_cons, rewrite_cons]
    cases path with
    | nil => exact ⟨⟨congrArg some (names_put ..), rfl, rfl⟩, fun _ => rfl⟩
    | cons name path =>
      rw [find?_cons, find?_cons]
      by_cases hname : name = step
      · rw [hname, child?_put, child?_put]
        obtain ⟨hsame, hbytes⟩ := ih ((tree.child? step).getD bare) path
        exact ⟨hsame, fun hne => hbytes fun heq => hne (by rw [heq])⟩
      · have hchild (new : FileTree) :
            (directory (put step new tree.entries) tree.inode?).child? name =
              tree.entries.lookup name :=
          lookup_put_of_ne hname new tree.entries
        rw [hchild, hchild]
        exact ⟨.refl _, fun _ => rfl⟩

end FileTree

namespace FileSystem

variable (fs : FileSystem) (text : Bytes) (place : NamePath)

theorem sameWays_filled : SameWays (fs.filled [] (some place)) (fs.filled text (some place)) where
  workingDirectory := rfl
  isDirectory path := by
    have hdirectory (found : Option FileTree) :
        found.any (·.isDirectory) = (found.bind (·.names?)).isSome := by cases found <;> rfl
    rw [isDirectory, isDirectory, hdirectory, hdirectory]
    exact congrArg Option.isSome (fs.root.sameButBytes_rewrite [] text place path).1.names
  target path := (fs.root.sameButBytes_rewrite [] text place path).1.target

/-- A path leads to the same place whatever the output file holds. -/
theorem locate_filled (through : Bool) (path : Bytes) :
    (fs.filled text (some place)).locate through path =
      (fs.filled [] (some place)).locate through path :=
  locate_of_sameWays (fs.sameWays_filled text place) through path

theorem sameButBytes_find? (path : Bytes) :
    FileTree.SameButBytes ((fs.filled [] (some place)).find? path)
      ((fs.filled text (some place)).find? path) := by
  rw [find?, find?, fs.locate_filled text place]
  cases (fs.filled [] (some place)).locate true path with
  | none => exact .refl _
  | some found => exact (fs.root.sameButBytes_rewrite [] text place found).1

theorem content?_filled {path : Bytes}
    (h : (fs.filled [] (some place)).locate true path ≠ some place) :
    ((fs.filled text (some place)).find? path).bind (·.content?) =
      ((fs.filled [] (some place)).find? path).bind (·.content?) := by
  rw [find?, find?, fs.locate_filled text place]
  cases hfound : (fs.filled [] (some place)).locate true path with
  | none => rfl
  | some found =>
    exact (fs.root.sameButBytes_rewrite [] text place found).2 fun heq => h (by rw [hfound, heq])

theorem readLink?_filled (path : Bytes) :
    (fs.filled text (some place)).readLink? path = (fs.filled [] (some place)).readLink? path :=
  readLink?_of_sameWays (fs.sameWays_filled text place)
    (fs.sameButBytes_find? text place path).inode

/-- What is printed changes no way. -/
theorem sameWays_printed : SameWays fs (fs.filled text none) :=
  ⟨rfl, fun _ => rfl, fun _ => rfl⟩

theorem find?_printed (path : Bytes) : (fs.filled text none).find? path = fs.find? path := by
  rw [find?, find?, locate_of_sameWays (fs.sameWays_printed text)]
  rfl

theorem readLink?_printed (path : Bytes) :
    (fs.filled text none).readLink? path = fs.readLink? path :=
  readLink?_of_sameWays (fs.sameWays_printed text) (by rw [fs.find?_printed])

end FileSystem

/-! ## What is asked of a table -/

namespace ProcView

/-- Whether another view of a process table gives the same answers. -/
structure Alike (view other : ProcView) : Prop where
  /-- They list the same processes. -/
  pids : other.pids? = view.pids?
  /-- They list the same threads. -/
  threads : ∀ pid, other.threads pid = view.threads pid
  /-- They list the same descriptors. -/
  descriptors : ∀ pid, other.descriptors pid = view.descriptors pid
  /-- They know the same of each thread. -/
  task : ∀ pid tid, other.task? pid tid = view.task? pid tid
  /-- They know the same of each descriptor. -/
  file : ∀ pid fd, other.file? pid fd = view.file? pid fd

/-- The files of a process table whose bytes matter. -/
inductive IsRead : NamePath → Prop
  /-- The status of a thread. -/
  | status (pid tid : Int32) : IsRead (statusPath pid tid)
  /-- The command name of a thread. -/
  | comm (pid tid : Int32) : IsRead [idText pid, utf8 "task", idText tid, utf8 "comm"]
  /-- The host name of a process. -/
  | hostname (pid : Int32) : IsRead (below pid ["root", "etc", "hostname"])

/-- Two views are alike if they differ at most in files that are not read. -/
theorem alike_of_read {view other : ProcView}
    (hnames : ∀ path, other.names? path = view.names? path)
    (hlinks : ∀ path, other.readLink? path = view.readLink? path)
    (hown : other.ownNodeName = view.ownNodeName)
    (hread : ∀ path, IsRead path → other.read? path = view.read? path) : view.Alike other where
  pids := by rw [pids?, pids?, hnames]
  threads pid := by rw [threads, threads, hnames]
  descriptors pid := by rw [descriptors, descriptors, hnames]
  task pid tid := by
    have hfile (pid : Int32) : nodeName?.fromFile other pid = nodeName?.fromFile view pid := by
      rw [nodeName?.fromFile, nodeName?.fromFile, hread _ (.hostname pid)]
    have hnode (pid : Int32) : other.nodeName? pid = view.nodeName? pid := by
      simp only [nodeName?, hlinks, hown, hfile]
    have hexe (pid : Int32) : other.exe? pid = view.exe? pid := by rw [exe?, exe?, hlinks]
    have hstatus := hread _ (.status pid tid)
    have hcomm := hread _ (.comm pid tid)
    simp only [task?, List.cons_append, List.nil_append, hnode, hexe, hcomm]
    rw [show other.read? [idText pid, utf8 "task", idText tid, utf8 "status"] = _ from hstatus]
    rfl
  file pid fd := by rw [file?, file?, hlinks]

end ProcView

/-- The symbol table at a path. -/
def FileSystem.tableAt? (fs : FileSystem) (path : String) : Option Table :=
  (fs.find? (utf8 path)).bind FileSystem.tableOf?

/-- What reading yields depends on the bytes of a file and on what is a directory. -/
theorem FileSystem.bind_tableOf? (found : Option FileTree) :
    found.bind tableOf? =
      match found.bind (·.content?), found.bind (·.names?) with
      | some content, _ => some [.data content]
      | none, some _ => some [.failure "Is a directory (os error 21)"]
      | none, none => none := by
  obtain _ | ⟨_⟩ | ⟨_, _⟩ | ⟨_⟩ := found <;> rfl

/-- Where the symbol table of a process table is. -/
def Report.symbolPath (root : String) : String := Path.join root "kallsyms"

/-- Whether the tables at a path are the given ones, whatever the output file holds. -/
structure StandsStill (fs : FileSystem) (nodeName : Option NodeName) (root : String)
    (outlet : Option NamePath) (view : ProcView) (table : Option Table) : Prop where
  /-- The process table is. -/
  view : ∀ text, view.Alike ((fs.filled text outlet).procView nodeName root)
  /-- The symbol table is. -/
  table : ∀ text, (fs.filled text outlet).tableAt? (Report.symbolPath root) = table

namespace StandsStill

variable {fs : FileSystem} {nodeName : Option NodeName} {root : String} {place : NamePath}

/-- What goes to the standard output changes no file. -/
theorem standardOutput (fs : FileSystem) (nodeName : Option NodeName) (root : String) :
    StandsStill fs nodeName root none (fs.procView nodeName root)
      (fs.tableAt? (Report.symbolPath root)) where
  view text := ProcView.alike_of_read
    (fun _ => congrArg (·.bind (·.names?)) (fs.find?_printed text _))
    (fun _ => fs.readLink?_printed text _) rfl
    fun _ _ => congrArg (·.bind (·.content?)) (fs.find?_printed text _)
  table text := congrArg (·.bind FileSystem.tableOf?) (fs.find?_printed text _)

/-- **Output to a file that is not read disturbs nothing**, wherever that file is. -/
theorem of_unread
    (hread : ∀ path, ProcView.IsRead path →
      (fs.filled [] (some place)).locate true (Path.below (utf8 root) path) ≠ some place)
    (htable : (fs.filled [] (some place)).locate true (utf8 (Report.symbolPath root)) ≠
      some place) :
    StandsStill fs nodeName root (some place) ((fs.filled [] (some place)).procView nodeName root)
      ((fs.filled [] (some place)).tableAt? (Report.symbolPath root)) where
  view text := ProcView.alike_of_read
    (fun path => (fs.sameButBytes_find? text place (Path.below (utf8 root) path)).names)
    (fun path => fs.readLink?_filled text place (Path.below (utf8 root) path)) rfl
    fun path hpath => fs.content?_filled text place (hread path hpath)
  table text := by
    have hnames := (fs.sameButBytes_find? text place (utf8 (Report.symbolPath root))).names
    have hbytes := fs.content?_filled text place htable
    rw [FileSystem.tableAt?, FileSystem.tableAt?, FileSystem.bind_tableOf?, hbytes, hnames,
      FileSystem.bind_tableOf?]

end StandsStill

/-! ## Trees without links -/

/-- Whether no link stands anywhere in a tree. -/
def FileTree.LinkFree (tree : FileTree) : Prop :=
  ∀ path, (tree.find? path).bind (·.target?) = none

theorem FileTree.linkFree_file (content : Bytes) (inode : Option UInt64) :
    (FileTree.file content inode).LinkFree := by
  intro path
  cases path <;> rfl

theorem FileTree.linkFree_directory {entries : List (Bytes × FileTree)} {inode : Option UInt64}
    (h : ∀ entry ∈ entries, entry.2.LinkFree) : (FileTree.directory entries inode).LinkFree := by
  intro path
  cases path with
  | nil => rfl
  | cons name path =>
    rw [find?_cons]
    cases hchild : (directory entries inode).child? name with
    | none => rfl
    | some child => exact h _ (mem_of_lookup hchild) path

theorem FileTree.linkFree_singleton (name : Bytes) {tree : FileTree} (h : tree.LinkFree) :
    (FileTree.directory [(name, tree)]).LinkFree :=
  linkFree_directory (List.forall_mem_singleton.mpr h)

theorem FileTree.LinkFree.child {tree : FileTree} (h : tree.LinkFree) (name : Bytes) :
    ((tree.child? name).getD bare).LinkFree := by
  intro path
  have hpath := h (name :: path)
  rw [find?_cons] at hpath
  cases hchild : tree.child? name with
  | none => cases path <;> rfl
  | some child =>
    rw [hchild] at hpath
    exact hpath

/-- No link comes about by writing a file. -/
theorem FileTree.LinkFree.rewrite {tree : FileTree} (h : tree.LinkFree) (change : Bytes → Bytes)
    (place : NamePath) : (tree.rewrite change place).LinkFree := by
  induction place generalizing tree with
  | nil => exact linkFree_file _ _
  | cons step place ih =>
    intro path
    rw [rewrite_cons]
    cases path with
    | nil => rfl
    | cons name path =>
      rw [find?_cons]
      by_cases hname : name = step
      · rw [hname, child?_put]
        exact ih (h.child step) path
      · have hchild : (directory (put step (((tree.child? step).getD bare).rewrite change place)
            tree.entries) tree.inode?).child? name = tree.child? name :=
          lookup_put_of_ne hname _ tree.entries
        rw [hchild, ← find?_cons]
        exact h (name :: path)

namespace FileSystem

variable {fs : FileSystem}

/-- Without links a stretch leads straight on. -/
theorem stretch_of_linkFree (h : fs.root.LinkFree) (place : NamePath) {names : List Bytes}
    (hnames : ∀ name ∈ names, Path.Plain name) :
    fs.stretch true place names = .lost ∨
      fs.stretch true place names = .arrived (place ++ names) := by
  induction names generalizing place with
  | nil => exact .inr (by rw [List.append_nil]; rfl)
  | cons name names ih =>
    obtain ⟨hname, hnames⟩ := List.forall_mem_cons.mp hnames
    rw [stretch_cons, if_neg hname.here, if_neg hname.above, h]
    by_cases hlost : (!fs.isDirectory place || nameLimit < name.length) = true
    · exact .inl (if_pos hlost)
    · rw [if_neg hlost, List.append_cons place name names]
      exact ih (place ++ [name]) hnames

/-- Without links what is found below a directory stands below it. -/
theorem locate_below_of_linkFree (h : fs.root.LinkFree) {directory : Bytes}
    (hdirectory : ∀ name ∈ Path.parts directory, Path.Plain name) {names : List Bytes}
    (hnames : ∀ name ∈ names, Path.Plain name) (hne : names ≠ []) {last : NamePath}
    (hlast : fs.locate true (Path.below directory names) = some last) :
    last = start fs.workingDirectory (Path.below directory names) ++
      (Path.parts directory ++ names) := by
  have hplain : ∀ name ∈ Path.parts directory ++ names, Path.Plain name := by
    intro name hname
    exact (List.mem_append.mp hname).elim (hdirectory name) (hnames name)
  unfold locate at hlast
  split at hlast
  · exact absurd hlast (by simp)
  · rw [Path.names_below directory hnames hne] at hlast
    rcases stretch_of_linkFree h (start fs.workingDirectory (Path.below directory names)) hplain
      with hlost | harrived
    · rw [walk_of_lost _ hlost] at hlast
      exact absurd hlast (by simp)
    · rw [walk_of_arrived _ harrived] at hlast
      exact (Option.some.inj hlast).symm

end FileSystem

theorem ProcView.IsRead.plain {path : NamePath} (h : IsRead path) :
    path ≠ [] ∧ ∀ name ∈ path, Path.Plain name := by
  have hwords : ∀ word ∈ ["task", "status", "comm", "root", "etc", "hostname"],
      Path.Plain (utf8 word) := by decide
  cases h with
  | status pid tid =>
    refine ⟨List.cons_ne_nil _ _, ?_⟩
    simp only [statusPath, List.forall_mem_cons]
    exact ⟨plain_idText pid, hwords _ (by simp), plain_idText tid, hwords _ (by simp), by simp⟩
  | comm pid tid =>
    refine ⟨List.cons_ne_nil _ _, ?_⟩
    simp only [List.forall_mem_cons]
    exact ⟨plain_idText pid, hwords _ (by simp), plain_idText tid, hwords _ (by simp), by simp⟩
  | hostname pid =>
    refine ⟨List.cons_ne_nil _ _, ?_⟩
    simp only [below, List.map_cons, List.map_nil, List.forall_mem_cons]
    exact ⟨plain_idText pid, hwords _ (by simp), hwords _ (by simp), hwords _ (by simp), by simp⟩

/-- **Output to a file outside the process table disturbs nothing**, where there are no links that
lead from the one to the other. -/
theorem StandsStill.outside {fs : FileSystem} {nodeName : Option NodeName} {root : String}
    {place : NamePath} (hlinks : fs.root.LinkFree)
    (hne : utf8 root ≠ []) (hplain : ∀ name ∈ Path.parts (utf8 root), Path.Plain name)
    (houtside :
      ¬FileSystem.start fs.workingDirectory (utf8 root) ++ Path.parts (utf8 root) <+: place)
    (htable : (fs.filled [] (some place)).locate true (utf8 (Report.symbolPath root)) ≠
      some place) :
    StandsStill fs nodeName root (some place) ((fs.filled [] (some place)).procView nodeName root)
      ((fs.filled [] (some place)).tableAt? (Report.symbolPath root)) := by
  refine of_unread (fun path hpath hlocate => houtside ?_) htable
  obtain ⟨hpathNe, hpathPlain⟩ := hpath.plain
  have hstart : FileSystem.start fs.workingDirectory (Path.below (utf8 root) path) =
      FileSystem.start fs.workingDirectory (utf8 root) := by
    have hprefix : utf8 root <+: Path.below (utf8 root) path :=
      Path.below_prefix (utf8 root) [] path
    rw [FileSystem.start, FileSystem.start, Path.isAbsolute_of_prefix hprefix hne]
  have hfilled : (fs.filled [] (some place)).root.LinkFree := hlinks.rewrite (fun _ => []) place
  have hplace := FileSystem.locate_below_of_linkFree hfilled hplain hpathPlain hpathNe hlocate
  rw [hplace, ← List.append_assoc]
  change _ <+: FileSystem.start fs.workingDirectory (Path.below (utf8 root) path) ++ _ ++ path
  rw [hstart]
  exact List.prefix_append _ _

end KernelTables
