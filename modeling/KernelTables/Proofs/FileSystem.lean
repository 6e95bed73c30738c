import Mathlib.Data.List.Basic
import Mathlib.Data.List.Induction
import Mathlib.Data.List.Nodup
import Mathlib.Data.Option.Basic
import KernelTables.FileSystem

/-!
# What stands in a file system is listed

A path is spelled out and walked name by name, past links, so it is not plain to see that whatever
can be read below a directory is also in the directory's listing.

* `Path.names_below` — spelling names out and reading them off again;
* `walk_append` — a walk in two stretches, whichever links there are in either of them;
* `exists_names_of_find?` — **what is found is listed**, one name at a time;
* `SameWays`, `locate_of_sameWays` — **a path leads to the same place** in two file systems with
  the same directories and links;
* `FileTree.Distinct`, `FileTree.Reordered` — trees whose directories list no name twice, and trees
  that differ in the order of their listings only; `find?_reordered` says that no look-up can tell
  two such trees apart.
-/

namespace KernelTables

/-! ## Paths -/

namespace Path

/-- A name as a directory may list it: neither empty nor with a special meaning, and in one piece. -/
structure Plain (name : Bytes) : Prop where
  /-- There is something to it. -/
  nonempty : name ≠ []
  /-- No slash cuts it apart. -/
  slash : slash ∉ name
  /-- It does not stand for the directory it is in. -/
  here : name ≠ here
  /-- It does not stand for the directory above. -/
  above : name ≠ above

instance (name : Bytes) : Decidable (Plain name) :=
  decidable_of_iff (name ≠ [] ∧ slash ∉ name ∧ name ≠ Path.here ∧ name ≠ Path.above)
    ⟨fun ⟨hnonempty, hslash, hhere, habove⟩ => ⟨hnonempty, hslash, hhere, habove⟩,
      fun h => ⟨h.nonempty, h.slash, h.here, h.above⟩⟩

theorem parts_append_slash (path rest : Bytes) :
    parts (path ++ slash :: rest) = parts path ++ parts rest := by
  rw [parts, List.splitOn_eq_splitOnP, List.splitOnP_append_cons (p := (· == slash)) path rest rfl,
    List.filter_append]
  rfl

theorem parts_of_plain {name : Bytes} (h : Plain name) : parts name = [name] := by
  have hslash : ∀ b ∈ name, (b == slash) = false := by
    intro b hb
    exact beq_false_of_ne fun heq => h.slash (heq ▸ hb)
  rw [parts, List.splitOn_eq_splitOnP, List.splitOnP_eq_singleton hslash]
  simpa using h.nonempty

/-- A path with one more name. -/
theorem below_concat (directory : Bytes) (names : List Bytes) (name : Bytes) :
    below directory (names ++ [name]) =
      if (below directory names).isEmpty || (below directory names).getLast? = some slash then
        below directory names ++ name
      else below directory names ++ slash :: name := by
  rw [below, List.foldl_append]
  rfl

/-- The names that a spelled-out path leads through. -/
theorem parts_below (directory : Bytes) {names : List Bytes} (h : ∀ name ∈ names, Plain name) :
    parts (below directory names) = parts directory ++ names := by
  induction names using List.reverseRecOn with
  | nil => simp [below]
  | append_singleton names name ih =>
    have hname : Plain name := h name (by simp)
    have hnames : parts (below directory names) = parts directory ++ names :=
      ih fun other hother => h other (by simp [hother])
    rw [below_concat, ← List.append_assoc, ← hnames]
    generalize below directory names = path
    by_cases hempty : path = []
    · rw [hempty]
      simpa [parts] using parts_of_plain hname
    by_cases hlast : path.getLast? = some slash
    · -- the slash between the names is there already
      obtain ⟨start, rfl⟩ : ∃ start, path = start ++ [slash] :=
        List.getLast?_eq_some_iff.mp hlast
      rw [if_pos (by simp), List.append_assoc, List.singleton_append, parts_append_slash,
        parts_append_slash, parts_of_plain hname]
      simp [parts]
    · rw [if_neg (by simp [hempty, hlast]), parts_append_slash, parts_of_plain hname]

/-- A path with a name at its end has no slash there. -/
theorem getLast?_below_concat (directory : Bytes) (names : List Bytes) {name : Bytes}
    (h : Plain name) : (below directory (names ++ [name])).getLast? = name.getLast? := by
  have hlast : name.getLast?.isSome := by simpa using h.nonempty
  rw [below_concat]
  split
  · rw [List.getLast?_append, Option.or_of_isSome hlast]
  · rw [List.append_cons, List.getLast?_append, Option.or_of_isSome hlast]

theorem names_below (directory : Bytes) {names : List Bytes} (h : ∀ name ∈ names, Plain name)
    (hne : names ≠ []) : Path.names (below directory names) = parts directory ++ names := by
  obtain ⟨first, name, rfl⟩ := (List.eq_nil_or_concat' names).resolve_left hne
  have hname : Plain name := h name (by simp)
  have hlast : name.getLast? ≠ some slash := by
    intro heq
    exact hname.slash (List.mem_of_getLast? heq)
  rw [Path.names, getLast?_below_concat directory first hname, if_neg hlast, List.append_nil,
    parts_below directory h]

/-- More names are spelled out behind those before. -/
theorem below_prefix (directory : Bytes) (names rest : List Bytes) :
    below directory names <+: below directory (names ++ rest) := by
  induction rest using List.reverseRecOn with
  | nil => simp
  | append_singleton rest name ih =>
    rw [← List.append_assoc, below_concat]
    split
    · exact ih.trans (List.prefix_append _ _)
    · exact ih.trans (List.prefix_append _ _)

theorem below_ne_nil (directory : Bytes) {names : List Bytes} (h : ∀ name ∈ names, Plain name)
    (hne : names ≠ []) : below directory names ≠ [] := by
  obtain ⟨first, name, rfl⟩ := (List.eq_nil_or_concat' names).resolve_left hne
  have hname : Plain name := h name (by simp)
  intro hnil
  have hlast := getLast?_below_concat directory first hname
  rw [hnil, List.getLast?_nil] at hlast
  exact hname.nonempty (List.getLast?_eq_none_iff.mp hlast.symm)

/-- The first names of a path decide whether it starts at the root. -/
theorem isAbsolute_of_prefix {path longer : Bytes} (h : path <+: longer) (hne : path ≠ []) :
    isAbsolute longer = isAbsolute path := by
  obtain ⟨rest, rfl⟩ := h
  obtain ⟨b, bs, rfl⟩ := List.exists_cons_of_ne_nil hne
  rfl

end Path

/-! ## Trees -/

namespace FileTree

/-- What a directory has under a name is one of its entries. -/
theorem mem_of_lookup {entries : List (Bytes × FileTree)} {name : Bytes} {tree : FileTree}
    (h : entries.lookup name = some tree) : (name, tree) ∈ entries := by
  obtain ⟨before, after, rfl, -⟩ := List.lookup_eq_some_iff.mp h
  exact List.mem_append_right before List.mem_cons_self

/-- Whether no directory lists a name twice. -/
inductive Distinct : FileTree → Prop
  /-- The names in a directory differ, and so they do further down. -/
  | directory {entries : List (Bytes × FileTree)} {inode : Option UInt64}
    (names : (entries.map (·.1)).Nodup) (below : ∀ entry ∈ entries, Distinct entry.2) :
    Distinct (.directory entries inode)
  /-- A file lists nothing. -/
  | file (content : Bytes) (inode : Option UInt64) : Distinct (.file content inode)
  /-- Nor does a link. -/
  | link (target : Bytes) : Distinct (.link target)

attribute [simp] Distinct.file Distinct.link

@[simp] theorem distinct_directory_iff {entries : List (Bytes × FileTree)}
    {inode : Option UInt64} : (directory entries inode).Distinct ↔
      (entries.map (·.1)).Nodup ∧ ∀ entry ∈ entries, entry.2.Distinct := by
  constructor
  · rintro ⟨names, below⟩
    exact ⟨names, below⟩
  · rintro ⟨names, below⟩
    exact .directory names below

theorem Distinct.find? {tree sub : FileTree} {path : NamePath} (h : tree.Distinct)
    (hfind : tree.find? path = some sub) : sub.Distinct := by
  induction path generalizing tree with
  | nil =>
    obtain rfl : tree = sub := Option.some.inj hfind
    exact h
  | cons name path ih =>
    rw [find?_cons] at hfind
    obtain ⟨child, hchild, hfind⟩ := Option.bind_eq_some_iff.mp hfind
    refine ih ?_ hfind
    cases h with
    | directory names below => exact below (name, child) (mem_of_lookup hchild)
    | file => simp [child?, entries] at hchild
    | link => simp [child?, entries] at hchild

theorem Distinct.nodup_names? {tree : FileTree} (h : tree.Distinct) {names : List Bytes}
    (hnames : tree.names? = some names) : names.Nodup := by
  cases h with
  | directory hnodup =>
    obtain rfl := Option.some.inj hnames
    exact hnodup
  | file => exact absurd hnames (by simp [FileTree.names?])
  | link => exact absurd hnames (by simp [FileTree.names?])

/-- What a directory has under a name, it lists. -/
theorem exists_names_of_child? {tree child : FileTree} {name : Bytes}
    (h : tree.child? name = some child) : ∃ names, tree.names? = some names ∧ name ∈ names := by
  cases tree with
  | directory entries => exact ⟨_, rfl, List.mem_map_of_mem (mem_of_lookup h)⟩
  | file => simp [child?, entries] at h
  | link => simp [child?, entries] at h

/-! ## The order of listings -/

/-- Whether two trees differ at most in the order in which their directories list their names. -/
inductive Reordered : FileTree → FileTree → Prop
  /-- The same names in whatever order, and below each name the same again. -/
  | directory {entries others : List (Bytes × FileTree)} {inode : Option UInt64}
    (names : (entries.map (·.1)).Perm (others.map (·.1)))
    (below : ∀ {name child other}, entries.lookup name = some child →
      others.lookup name = some other → Reordered child other) :
    Reordered (.directory entries inode) (.directory others inode)
  /-- A file lists nothing. -/
  | file (content : Bytes) (inode : Option UInt64) :
    Reordered (.file content inode) (.file content inode)
  /-- Nor does a link. -/
  | link (target : Bytes) : Reordered (.link target) (.link target)

/-- Related options are both missing, or hold related values. -/
theorem rel_cases {α : Type} {r : α → α → Prop} {x y : Option α} (h : Option.Rel r x y) :
    x = none ∧ y = none ∨ ∃ a b, x = some a ∧ y = some b ∧ r a b := by
  cases h with
  | none => exact Or.inl ⟨rfl, rfl⟩
  | some h => exact Or.inr ⟨_, _, rfl, rfl, h⟩

theorem bind_eq_of_rel {α β : Type} {r : α → α → Prop} {x y : Option α} (h : Option.Rel r x y)
    {f : α → Option β} (hf : ∀ {a b}, r a b → f b = f a) : y.bind f = x.bind f := by
  cases h with
  | none => rfl
  | some h => exact hf h

theorem isSome_lookup_iff {entries : List (Bytes × FileTree)} {name : Bytes} :
    (entries.lookup name).isSome ↔ name ∈ entries.map (·.1) := by
  simp only [List.lookup_isSome_iff, List.mem_map, beq_iff_eq, eq_comm (a := name)]

/-- Any tree differs in nothing from itself. -/
theorem Reordered.refl : (tree : FileTree) → tree.Reordered tree
  | .directory entries inode => by
    refine .directory (.refl _) ?_
    intro name child other hchild hother
    obtain rfl : child = other := Option.some.inj (hchild.symm.trans hother)
    have hlt : sizeOf child < 1 + sizeOf entries + sizeOf inode := by
      have hmem := List.sizeOf_lt_of_mem (mem_of_lookup hchild)
      rw [Prod.mk.sizeOf_spec] at hmem
      omega
    exact Reordered.refl child
  | .file content inode => .file content inode
  | .link target => .link target

/-- What a directory lists may be listed in any other order. -/
theorem Reordered.of_perm {entries others : List (Bytes × FileTree)} {inode : Option UInt64}
    (h : entries.Perm others) (hnames : (entries.map (·.1)).Nodup) :
    (FileTree.directory entries inode).Reordered (.directory others inode) := by
  refine .directory (h.map _) ?_
  intro name child other hchild hother
  have hsame : (name, child) = (name, other) := List.inj_on_of_nodup_map hnames
    (mem_of_lookup hchild) (h.mem_iff.mpr (mem_of_lookup hother)) rfl
  obtain rfl : child = other := congrArg Prod.snd hsame
  exact .refl child

theorem Reordered.child? {tree other : FileTree} (h : tree.Reordered other) (name : Bytes) :
    Option.Rel Reordered (tree.child? name) (other.child? name) := by
  cases h with
  | @directory entries others _ names below =>
    have hboth : (entries.lookup name).isSome ↔ (others.lookup name).isSome := by
      rw [isSome_lookup_iff, isSome_lookup_iff, names.mem_iff]
    show Option.Rel Reordered (entries.lookup name) (others.lookup name)
    cases hchild : entries.lookup name with
    | none =>
      rw [hchild] at hboth
      rw [Option.not_isSome_iff_eq_none.mp (mt hboth.mpr (by simp))]
      exact .none
    | some child =>
      rw [hchild] at hboth
      obtain ⟨child', hchild'⟩ := Option.isSome_iff_exists.mp (hboth.mp rfl)
      rw [hchild']
      exact .some (below hchild hchild')
  | file => exact .none
  | link => exact .none

/-- Along any path the same things are found. -/
theorem Reordered.find? {tree other : FileTree} (h : tree.Reordered other) (path : NamePath) :
    Option.Rel Reordered (tree.find? path) (other.find? path) := by
  induction path generalizing tree other with
  | nil => exact .some h
  | cons name path ih =>
    rw [find?_cons, find?_cons]
    rcases rel_cases (h.child? name) with ⟨hnone, hnone'⟩ | ⟨child, child', hchild, hchild', h⟩
    · rw [hnone, hnone']
      exact .none
    · rw [hchild, hchild']
      exact ih h

theorem Reordered.names? {tree other : FileTree} (h : tree.Reordered other) :
    Option.Rel List.Perm tree.names? other.names? := by
  cases h with
  | directory names => exact .some names
  | file => exact .none
  | link => exact .none

theorem Reordered.content?_eq {tree other : FileTree} (h : tree.Reordered other) :
    other.content? = tree.content? := by
  cases h <;> rfl

theorem Reordered.target?_eq {tree other : FileTree} (h : tree.Reordered other) :
    other.target? = tree.target? := by
  cases h <;> rfl

theorem Reordered.inode?_eq {tree other : FileTree} (h : tree.Reordered other) :
    other.inode? = tree.inode? := by
  cases h <;> rfl

theorem Reordered.isDirectory_eq {tree other : FileTree} (h : tree.Reordered other) :
    other.isDirectory = tree.isDirectory := by
  cases h <;> rfl

end FileTree

/-! ## Walking -/

namespace FileSystem

variable (fs : FileSystem)

/-- A stretch may be broken off between any two names. -/
theorem stretch_append (place : NamePath) (names rest : List Bytes) :
    fs.stretch true place (names ++ rest) =
      match fs.stretch true place names with
      | .arrived place => fs.stretch true place rest
      | .link directory target left => .link directory target (left ++ rest)
      | .lost => .lost := by
  induction names generalizing place with
  | nil => rfl
  | cons name names ih =>
    simp only [List.cons_append, stretch, Bool.not_true, Bool.and_false, Bool.false_eq_true,
      if_false]
    split
    · rfl
    split
    · exact ih place
    split
    · exact ih place.dropLast
    split
    · rfl
    · exact ih (place ++ [name])

/-- What a walk comes to is decided by its first stretch. -/
theorem walk_congr {through : Bool} {links : Nat} {place other : NamePath} {names rest : List Bytes}
    (h : fs.stretch through place names = fs.stretch through other rest) :
    fs.walk through links place names = fs.walk through links other rest := by
  unfold walk
  rw [h]

theorem walk_of_arrived {through : Bool} {links : Nat} {place last : NamePath} {names : List Bytes}
    (h : fs.stretch through place names = .arrived last) :
    fs.walk through links place names = some last := by
  unfold walk
  rw [h]

theorem walk_of_link {through : Bool} {links : Nat} {place directory : NamePath}
    {names left : List Bytes} {target : Bytes}
    (h : fs.stretch through place names = .link directory target left) :
    fs.walk through links place names =
      match links with
      | 0 => none
      | links + 1 =>
        fs.walk through links (start directory target) (Path.names target ++ left) := by
  rw [walk.eq_def]
  simp only [h]
  cases links <;> rfl

theorem walk_of_lost {through : Bool} {links : Nat} {place : NamePath} {names : List Bytes}
    (h : fs.stretch through place names = .lost) : fs.walk through links place names = none := by
  unfold walk
  rw [h]

/-- **A walk in two stretches**: whoever gets to the end has come to the end of the first one. -/
theorem walk_append {links : Nat} {place last : NamePath} {names rest : List Bytes}
    (h : fs.walk true links place (names ++ rest) = some last) :
    ∃ middle left, fs.walk true links place names = some middle ∧
      fs.walk true left middle rest = some last := by
  -- induction on the links that may still be followed: each of them starts the walk anew
  induction links using Nat.strongRecOn generalizing place names with
  | ind links ih =>
    have hboth := fs.stretch_append place names rest
    cases hfirst : fs.stretch true place names with
    | arrived middle =>
      rw [hfirst] at hboth
      refine ⟨middle, links, fs.walk_of_arrived hfirst, ?_⟩
      rw [← fs.walk_congr hboth, h]
    | link directory target left =>
      rw [hfirst] at hboth
      rw [fs.walk_of_link hboth] at h
      rw [fs.walk_of_link hfirst]
      cases links with
      | zero => exact absurd h (by simp)
      | succ links =>
        simp only [← List.append_assoc] at h
        exact ih links (Nat.lt_succ_self links) h
    | lost =>
      rw [hfirst] at hboth
      rw [fs.walk_of_lost hboth] at h
      exact absurd h (by simp)

/-- A walk goes nowhere from where nothing stands, unless it is over. -/
theorem walk_eq_none_of_cons {links : Nat} {place : NamePath} {name : Bytes} {rest : List Bytes}
    (h : fs.root.find? place = none) : fs.walk true links place (name :: rest) = none := by
  apply walk_of_lost
  simp [stretch, isDirectory, h]

/-- A walk that comes to something passes through what stands under its first name. -/
theorem isSome_find?_of_walk {links : Nat} {place last : NamePath} {name : Bytes}
    {rest : List Bytes} (hname : Path.Plain name)
    (hwalk : fs.walk true links place (name :: rest) = some last)
    (hlast : (fs.root.find? last).isSome) : (fs.root.find? (place ++ [name])).isSome := by
  rw [Option.isSome_iff_ne_none]
  intro hnone
  have hstretch : fs.stretch true place (name :: rest) = .lost ∨
      fs.stretch true place (name :: rest) = fs.stretch true (place ++ [name]) rest := by
    simp only [stretch, hname.here, hname.above, hnone, if_false]
    split
    · exact Or.inl rfl
    · exact Or.inr rfl
  rcases hstretch with hlost | hnext
  · rw [fs.walk_of_lost hlost] at hwalk
    exact absurd hwalk (by simp)
  · rw [fs.walk_congr hnext] at hwalk
    cases rest with
    | nil =>
      have hover : fs.stretch true (place ++ [name]) [] = .arrived (place ++ [name]) := rfl
      rw [fs.walk_of_arrived hover] at hwalk
      obtain rfl := Option.some.inj hwalk
      simp [hnone] at hlast
    | cons next rest =>
      rw [fs.walk_eq_none_of_cons hnone] at hwalk
      exact absurd hwalk (by simp)

/-- A walk that comes to something has been in a directory that lists its first name. -/
theorem exists_names_of_walk {links : Nat} {place last : NamePath} {name : Bytes}
    {rest : List Bytes} (hname : Path.Plain name)
    (hwalk : fs.walk true links place (name :: rest) = some last)
    (hlast : (fs.root.find? last).isSome) :
    ∃ names, (fs.root.find? place).bind (·.names?) = some names ∧ name ∈ names := by
  have hthere := fs.isSome_find?_of_walk hname hwalk hlast
  rw [FileTree.find?_append, Option.isSome_iff_exists] at hthere
  obtain ⟨child, hchild⟩ := hthere
  obtain ⟨directory, hdirectory, hchild⟩ := Option.bind_eq_some_iff.mp hchild
  rw [FileTree.find?_cons] at hchild
  obtain ⟨child', hchild', -⟩ := Option.bind_eq_some_iff.mp hchild
  obtain ⟨names, hnames, hmem⟩ := FileTree.exists_names_of_child? hchild'
  exact ⟨names, by rw [hdirectory, Option.bind_some, hnames], hmem⟩

/-- Whoever gets to the end of a spelled-out path comes by each place on it. -/
theorem exists_walk_of_locate {directory : Bytes} {names rest : List Bytes} {last : NamePath}
    (hplain : ∀ name ∈ names ++ rest, Path.Plain name) (hne : names ≠ [])
    (h : fs.locate true (Path.below directory (names ++ rest)) = some last) :
    ∃ middle left, fs.locate true (Path.below directory names) = some middle ∧
      fs.walk true left middle rest = some last := by
  have hnames : ∀ name ∈ names, Path.Plain name := fun name hname => hplain name (by simp [hname])
  have hnil : Path.below directory names ≠ [] := Path.below_ne_nil directory hnames hne
  have hprefix := Path.below_prefix directory names rest
  have hstart : start fs.workingDirectory (Path.below directory (names ++ rest)) =
      start fs.workingDirectory (Path.below directory names) := by
    rw [start, start, Path.isAbsolute_of_prefix hprefix hnil]
  unfold locate at h
  split at h
  · exact absurd h (by simp)
  next hfits =>
    simp only [Bool.or_eq_true, decide_eq_true_eq, not_or, Nat.not_lt] at hfits
    have hshort : (Path.below directory names).length ≤ pathLimit :=
      Nat.le_trans hprefix.length_le hfits.2
    rw [Path.names_below directory hplain (by simp [hne]), ← List.append_assoc, hstart] at h
    obtain ⟨middle, left, hmiddle, hlast⟩ := fs.walk_append h
    refine ⟨middle, left, ?_, hlast⟩
    rw [locate, if_neg (by simpa [hnil] using hshort), Path.names_below directory hnames hne,
      hmiddle]

/-- **What is found is listed.**  If anything stands at a path, the directory that the path leads
through lists the name by which it goes on. -/
theorem exists_names_of_find? {directory : Bytes} {names rest : List Bytes} {name : Bytes}
    (hplain : ∀ other ∈ names ++ name :: rest, Path.Plain other) (hne : names ≠ [])
    (hfind : (fs.find? (Path.below directory (names ++ name :: rest))).isSome) :
    ∃ listed, (fs.find? (Path.below directory names)).bind (·.names?) = some listed ∧
      name ∈ listed := by
  obtain ⟨found, hfound⟩ := Option.isSome_iff_exists.mp hfind
  obtain ⟨last, hlast, hfound⟩ := Option.bind_eq_some_iff.mp hfound
  obtain ⟨middle, left, hmiddle, hwalk⟩ := fs.exists_walk_of_locate hplain hne hlast
  obtain ⟨listed, hlisted, hmem⟩ := fs.exists_names_of_walk (hplain name (by simp)) hwalk
    (by rw [hfound]; rfl)
  refine ⟨listed, ?_, hmem⟩
  rw [find?, hmiddle, Option.bind_some, hlisted]

/-! ## The same ways -/

/-- Whether the same directories and the same links stand at the same places of two file systems. -/
structure SameWays (fs other : FileSystem) : Prop where
  /-- Relative paths start from the same place. -/
  workingDirectory : other.workingDirectory = fs.workingDirectory
  /-- The directories are the same. -/
  isDirectory (place : NamePath) : other.isDirectory place = fs.isDirectory place
  /-- The links are. -/
  target (place : NamePath) :
    (other.root.find? place).bind (·.target?) = (fs.root.find? place).bind (·.target?)

variable {fs other : FileSystem} {root : FileTree}

/-- A step of a stretch asks of a place only whether it is a directory and which link is below. -/
theorem stretch_cons (fs : FileSystem) (through : Bool) (place : NamePath) (name : Bytes)
    (names : List Bytes) :
    fs.stretch through place (name :: names) =
      if !fs.isDirectory place || nameLimit < name.length then .lost
      else if name = Path.here then fs.stretch through place names
      else if name = Path.above then fs.stretch through place.dropLast names
      else
        match (fs.root.find? (place ++ [name])).bind (·.target?) with
        | some target =>
          if names.isEmpty && !through then .arrived (place ++ [name])
          else .link place target names
        | none => fs.stretch through (place ++ [name]) names := by
  rw [stretch]
  obtain _ | ⟨_⟩ | ⟨_, _⟩ | ⟨_⟩ := fs.root.find? (place ++ [name]) <;> rfl

theorem stretch_of_sameWays (h : SameWays fs other) (through : Bool) (place : NamePath)
    (names : List Bytes) : other.stretch through place names = fs.stretch through place names := by
  induction names generalizing place with
  | nil => rfl
  | cons name names ih => simp only [stretch_cons, h.isDirectory, ih, h.target]

theorem walk_of_sameWays (h : SameWays fs other) (through : Bool) (links : Nat)
    (place : NamePath) (names : List Bytes) :
    other.walk through links place names = fs.walk through links place names := by
  -- the two walks part nowhere, so they follow the same links
  induction links using Nat.strongRecOn generalizing place names with
  | ind links ih =>
    have hsame := stretch_of_sameWays h through place names
    cases hfirst : fs.stretch through place names with
    | arrived last => rw [walk_of_arrived _ hfirst, walk_of_arrived _ (hsame.trans hfirst)]
    | link directory target left =>
      rw [walk_of_link _ hfirst, walk_of_link _ (hsame.trans hfirst)]
      cases links with
      | zero => rfl
      | succ links => exact ih links (Nat.lt_succ_self links) _ _
    | lost => rw [walk_of_lost _ hfirst, walk_of_lost _ (hsame.trans hfirst)]

/-- **Where the ways are the same, every path leads to the same place.** -/
theorem locate_of_sameWays (h : SameWays fs other) (through : Bool) (path : Bytes) :
    other.locate through path = fs.locate through path := by
  unfold locate
  rw [walk_of_sameWays h, h.workingDirectory]

/-- A link leads to the same place and shows the same inode, if that place does. -/
theorem readLink?_of_sameWays (h : SameWays fs other) {path : Bytes}
    (hinode : (other.find? path).bind (·.inode?) = (fs.find? path).bind (·.inode?)) :
    other.readLink? path = fs.readLink? path := by
  unfold readLink?
  rw [locate_of_sameWays h, hinode]
  cases fs.locate false path with
  | none => rfl
  | some place =>
    show ((other.root.find? place).bind fun tree => tree.target?.bind _) =
      (fs.root.find? place).bind fun tree => tree.target?.bind _
    rw [← Option.bind_assoc, ← Option.bind_assoc, h.target]

/-! ## Look-ups in reordered trees -/

theorem sameWays_of_reordered (h : fs.root.Reordered root) : SameWays fs { fs with root } where
  workingDirectory := rfl
  isDirectory place := by
    unfold isDirectory
    rcases FileTree.rel_cases (h.find? place) with ⟨hnone, hnone'⟩ | ⟨_, _, hfound, hfound', h⟩
    · rw [hnone, hnone']
    · rw [hfound, hfound']
      exact h.isDirectory_eq
  target place := FileTree.bind_eq_of_rel (h.find? place) fun h => h.target?_eq

theorem locate_reordered (h : fs.root.Reordered root) (through : Bool) (path : Bytes) :
    { fs with root }.locate through path = fs.locate through path :=
  locate_of_sameWays (sameWays_of_reordered h) through path

/-- **The order of listings leads nowhere else.** -/
theorem find?_reordered (h : fs.root.Reordered root) (path : Bytes) :
    Option.Rel FileTree.Reordered (fs.find? path) ({ fs with root }.find? path) := by
  unfold find?
  rw [locate_reordered h]
  cases fs.locate true path with
  | none => exact .none
  | some place => exact h.find? place

theorem readLink?_reordered (h : fs.root.Reordered root) (path : Bytes) :
    { fs with root }.readLink? path = fs.readLink? path := by
  have hinode : ({ fs with root }.find? path).bind (·.inode?) = (fs.find? path).bind (·.inode?) :=
    FileTree.bind_eq_of_rel (find?_reordered h path) fun h => h.inode?_eq
  exact readLink?_of_sameWays (sameWays_of_reordered h) hinode

end FileSystem

end KernelTables
