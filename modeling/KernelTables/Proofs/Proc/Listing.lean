import Mathlib.Data.List.Nodup
import KernelTables.Host
import KernelTables.Proofs.FileSystem
import KernelTables.Proofs.Report.Task

/-!
# What a process table lists

The numbers among a directory's names are read, sorted and looked up again by the names they are
written as.  A name may be read as a number that is written otherwise, such as `007`; a process
table as the kernel makes it has no such names (`IsRegular`), and then no number is lost on the way
or comes up twice.

* `before_append_behind` — what is in an ascending list, and where;
* `Canonical.numbers_ascending` — the numbers in a directory with canonical names: each of them once,
  in ascending order;
* `FileSystem.isTree_procView` — a thread of which anything is known is listed;
* `ProcView.Reordered` — tables that list the same names in other orders; every list of numbers and
  every look-up is the same in them.
-/

namespace KernelTables

/-! ## Ascending lists -/

section Ascending

variable {α : Type} [LE α] [DecidableLE α] [Std.IsLinearOrder α]

theorem pairwise_le_ascending (xs : List α) : (xs.mergeSort (· ≤ ·)).Pairwise (· ≤ ·) := by
  have htrans : ∀ a b c : α, decide (a ≤ b) = true → decide (b ≤ c) = true →
      decide (a ≤ c) = true := by
    simpa using fun a b c => Std.le_trans
  have htotal : ∀ a b : α, (decide (a ≤ b) || decide (b ≤ a)) = true := by
    simpa using fun a b => Std.le_total
  simpa using List.pairwise_mergeSort htrans htotal xs

/-- The order in which numbers come does not show once they are sorted. -/
theorem ascending_eq_of_perm {xs ys : List α} (h : xs.Perm ys) :
    xs.mergeSort (· ≤ ·) = ys.mergeSort (· ≤ ·) := by
  apply List.Perm.eq_of_pairwise _ (pairwise_le_ascending xs) (pairwise_le_ascending ys)
  · exact (List.mergeSort_perm xs _).trans (h.trans (List.mergeSort_perm ys _).symm)
  · intro a b _ _ hab hba
    exact Std.le_antisymm hab hba

variable [LT α] [Std.LawfulOrderLT α]

/-- Numbers that differ are in strictly ascending order once they are sorted. -/
theorem pairwise_lt_ascending {xs : List α} (h : xs.Nodup) :
    (xs.mergeSort (· ≤ ·)).Pairwise (· < ·) := by
  have hnodup : (xs.mergeSort (· ≤ ·)).Nodup := List.nodup_mergeSort.mpr h
  exact (pairwise_le_ascending xs).imp₂ (fun a b hle hne => Std.lt_of_le_of_ne hle hne) hnodup

omit [DecidableLE α] [LT α] [Std.LawfulOrderLT α] [Std.IsLinearOrder α] in
/-- An ascending list is in two pieces wherever a property begins to hold. -/
theorem filter_not_append_filter {p : α → Bool} (hp : ∀ {a b}, a ≤ b → p a = true → p b = true)
    {xs : List α} (h : xs.Pairwise (· ≤ ·)) : xs.filter (!p ·) ++ xs.filter p = xs := by
  induction xs with
  | nil => rfl
  | cons x xs ih =>
    obtain ⟨hle, hxs⟩ := List.pairwise_cons.mp h
    cases hx : p x with
    | false =>
      rw [List.filter_cons_of_pos (by simp [hx]), List.filter_cons_of_neg (by simp [hx]),
        List.cons_append, ih hxs]
    | true =>
      have hall : ∀ y ∈ x :: xs, p y = true := by
        rw [List.forall_mem_cons]
        exact ⟨hx, fun y hy => hp (hle y hy) hx⟩
      rw [List.filter_eq_self.mpr hall, List.filter_eq_nil_iff.mpr (by simpa using hall),
        List.nil_append]

/-- An ascending list is what comes before a number, the number itself as often as it comes, and
what comes behind it. -/
theorem before_append_behind [DecidableEq α] [DecidableLT α] {xs : List α}
    (h : xs.Pairwise (· ≤ ·)) (x : α) :
    xs.filter (· < x) ++ (List.replicate (xs.count x) x ++ xs.filter (x < ·)) = xs := by
  have hequal : xs.filter (fun y => !decide (x < y) && decide (x ≤ y)) =
      List.replicate (xs.count x) x := by
    rw [← List.filter_eq]
    refine List.filter_congr fun y _ => Bool.eq_iff_iff.mpr ?_
    simp only [Bool.and_eq_true, Bool.not_eq_true', decide_eq_false_iff_not, decide_eq_true_eq,
      Std.not_lt]
    constructor
    · rintro ⟨hyx, hxy⟩
      exact Std.le_antisymm hyx hxy
    · rintro rfl
      exact ⟨Std.le_refl _, Std.le_refl _⟩
  have hbehind : xs.filter (fun y => decide (x < y) && decide (x ≤ y)) = xs.filter (x < ·) := by
    refine List.filter_congr fun y _ => Bool.eq_iff_iff.mpr ?_
    simp only [Bool.and_eq_true, decide_eq_true_eq]
    exact ⟨fun hy => hy.1, fun hy => ⟨hy, Std.le_of_lt hy⟩⟩
  have hbefore : xs.filter (fun y => !decide (x ≤ y)) = xs.filter (· < x) := by
    refine List.filter_congr fun y _ => Bool.eq_iff_iff.mpr ?_
    simp only [Bool.not_eq_true', decide_eq_false_iff_not, decide_eq_true_eq, Std.not_le]
  have hlt {a b : α} (hab : a ≤ b) : decide (x < a) = true → decide (x < b) = true := by
    simpa using fun hxa => Std.lt_of_lt_of_le hxa hab
  have hle {a b : α} (hab : a ≤ b) : decide (x ≤ a) = true → decide (x ≤ b) = true := by
    simpa using fun hxa => Std.le_trans hxa hab
  have hfrom := filter_not_append_filter hlt (h.filter (x ≤ ·))
  rw [List.filter_filter, List.filter_filter, hequal, hbehind] at hfrom
  rw [hfrom, ← hbefore]
  exact filter_not_append_filter hle h

end Ascending

/-- Pairs are in strictly ascending order, the first numbers counting first, if the first numbers
are and, for each of them, the second ones. -/
theorem pairwise_lex_pairs {α β : Type} [LT α] [LT β] {ids : List α} {below : α → List β}
    (hids : ids.Pairwise (· < ·)) (hbelow : ∀ id ∈ ids, (below id).Pairwise (· < ·)) :
    (ids.flatMap fun id => (below id).map (id, ·)).Pairwise (Prod.Lex (· < ·) (· < ·)) := by
  rw [List.pairwise_flatMap]
  constructor
  · intro id hid
    exact List.pairwise_map.mpr ((hbelow id hid).imp fun hlt => .right id hlt)
  · refine hids.imp ?_
    intro id id' hlt entry hentry entry' hentry'
    obtain ⟨x, -, rfl⟩ := List.mem_map.mp hentry
    obtain ⟨y, -, rfl⟩ := List.mem_map.mp hentry'
    exact .left x y hlt

theorem mem_pairs {α β : Type} {ids : List α} {below : α → List β} {id : α} {x : β} :
    (id, x) ∈ ids.flatMap (fun id => (below id).map (id, ·)) ↔ id ∈ ids ∧ x ∈ below id := by
  simp only [List.mem_flatMap, List.mem_map, Prod.mk.injEq]
  constructor
  · rintro ⟨id, hid, x, hx, rfl, rfl⟩
    exact ⟨hid, hx⟩
  · rintro ⟨hid, hx⟩
    exact ⟨id, hid, x, hx, rfl, rfl⟩

/-! ## Canonical names -/

/-- Whether those of some names that can be read as numbers are these numbers as they are
written. -/
def Canonical {α : Type} (read : List Char → Option α) (write : α → Bytes) (names : List Bytes) :
    Prop :=
  ∀ name ∈ names, ∀ id ∈ (decode? name).bind read, name = write id

instance {α : Type} [DecidableEq α] (read : List Char → Option α) (write : α → Bytes)
    (names : List Bytes) : Decidable (Canonical read write names) :=
  inferInstanceAs (Decidable (∀ name ∈ names, ∀ id ∈ (decode? name).bind read, name = write id))

namespace Canonical

variable {α : Type} {read : List Char → Option α} {write : α → Bytes} {names : List Bytes}

/-- Among canonical names a number is found by the name it is written as. -/
theorem mem_numbers_iff (h : Canonical read write names) {id : α}
    (hread : (decode? (write id)).bind read = some id) :
    id ∈ ProcView.numbers read names ↔ write id ∈ names := by
  rw [ProcView.numbers, List.mem_filterMap]
  constructor
  · rintro ⟨name, hname, hid⟩
    rw [← h name hname id hid]
    exact hname
  · intro hname
    exact ⟨write id, hname, hread⟩

/-- Canonical names that differ are different numbers. -/
theorem nodup_numbers (h : Canonical read write names) (hnodup : names.Nodup) :
    (ProcView.numbers read names).Nodup := by
  rw [ProcView.numbers, List.Nodup, List.pairwise_filterMap]
  refine hnodup.imp_of_mem ?_
  intro name name' hname hname' hne id hid id' hid' heq
  apply hne
  rw [h name hname id hid, h name' hname' id' hid', heq]

/-- **The numbers in a directory with canonical names**: those whose names are listed, each of them
once, in ascending order. -/
theorem numbers_ascending [LE α] [LT α] [DecidableLE α] [Std.IsLinearOrder α]
    [Std.LawfulOrderLT α] (h : Canonical read write names) (hnodup : names.Nodup)
    (hread : ∀ id, (decode? (write id)).bind read = some id) :
    ((ProcView.numbers read names).mergeSort (· ≤ ·)).Pairwise (· < ·) ∧
      ∀ id, id ∈ (ProcView.numbers read names).mergeSort (· ≤ ·) ↔ write id ∈ names := by
  refine ⟨pairwise_lt_ascending (h.nodup_numbers hnodup), ?_⟩
  intro id
  rw [List.mem_mergeSort, h.mem_numbers_iff (hread id)]

end Canonical

namespace ProcView

variable (proc : ProcView)

/-- The names in a directory, of which there are none if it cannot be listed. -/
def listing (path : NamePath) : List Bytes := (proc.names? path).getD []

theorem pids_eq :
    proc.pids = (numbers Numeral.int32? (proc.listing [])).mergeSort (· ≤ ·) := by
  rw [pids, pids?, listing]
  cases proc.names? [] with
  | none => simp [numbers]
  | some names => rfl

/-- Whether a table is the view of a tree: no directory lists a name twice, and a thread of which
anything is known is listed. -/
structure IsTree : Prop where
  /-- The names in a directory differ. -/
  nodup : ∀ path, (proc.listing path).Nodup
  /-- What has a status file to read has its name listed. -/
  listed : ∀ {pid tid}, (proc.task? pid tid).isSome →
    idText tid ∈ proc.listing (below pid ["task"])

/-- What is certain of a process table that the kernel makes: numbers are written as they should
be, and a status file says whose it is. -/
structure IsRegular : Prop where
  /-- The directories of processes have canonical names. -/
  processes : Canonical Numeral.int32? idText (proc.listing [])
  /-- So have those of threads. -/
  threads : ∀ pid ∈ numbers Numeral.int32? (proc.listing []),
    Canonical Numeral.int32? idText (proc.listing (below pid ["task"]))
  /-- So have the links for descriptors. -/
  descriptors : ∀ pid ∈ numbers Numeral.int32? (proc.listing []),
    Canonical Numeral.uint32? (fun fd => Numeral.decimal fd.toNat)
      (proc.listing (below pid ["fd"]))
  /-- A thread's status file gives the thread's id and that of its process. -/
  own : ∀ pid ∈ numbers Numeral.int32? (proc.listing []),
    ∀ tid ∈ numbers Numeral.int32? (proc.listing (below pid ["task"])),
      ∀ task ∈ proc.task? pid tid, task.pid = tid ∧ task.tgid = pid

variable {proc}

namespace IsRegular

variable (h : proc.IsRegular) (htree : proc.IsTree) {pid : Int32}

include h

theorem mem_numbers (hpid : idText pid ∈ proc.listing []) :
    pid ∈ numbers Numeral.int32? (proc.listing []) :=
  (h.processes.mem_numbers_iff (Numeral.int32?_signedDecimal pid)).mpr hpid

include htree

/-- The processes of a regular table. -/
theorem pids_ascending :
    proc.pids.Pairwise (· < ·) ∧ ∀ pid, pid ∈ proc.pids ↔ idText pid ∈ proc.listing [] := by
  rw [pids_eq]
  exact h.processes.numbers_ascending (htree.nodup _) Numeral.int32?_signedDecimal

/-- The threads of one of its processes. -/
theorem threads_ascending (hpid : idText pid ∈ proc.listing []) :
    (proc.threads pid).Pairwise (· < ·) ∧
      ∀ tid, tid ∈ proc.threads pid ↔ idText tid ∈ proc.listing (below pid ["task"]) :=
  (h.threads pid (h.mem_numbers hpid)).numbers_ascending (htree.nodup _)
    Numeral.int32?_signedDecimal

/-- The descriptors of one of its processes. -/
theorem descriptors_ascending (hpid : idText pid ∈ proc.listing []) :
    (proc.descriptors pid).Pairwise (· < ·) ∧
      ∀ fd : UInt32, fd ∈ proc.descriptors pid ↔
        Numeral.decimal fd.toNat ∈ proc.listing (below pid ["fd"]) :=
  (h.descriptors pid (h.mem_numbers hpid)).numbers_ascending (htree.nodup _)
    Numeral.uint32?_decimal

/-- What a status file of a listed process says of itself. -/
theorem own_of_listed {tid : Int32} {task : Task} (hpid : idText pid ∈ proc.listing [])
    (htask : proc.task? pid tid = some task) : task.pid = tid ∧ task.tgid = pid := by
  have hcanonical := h.threads pid (h.mem_numbers hpid)
  have hthread : idText tid ∈ proc.listing (below pid ["task"]) :=
    htree.listed (by rw [htask]; rfl)
  exact h.own pid (h.mem_numbers hpid) tid
    ((hcanonical.mem_numbers_iff (Numeral.int32?_signedDecimal tid)).mpr hthread) task htask

end IsRegular

/-- What is known of a thread has been read in its status file. -/
theorem isSome_read?_of_task? {pid tid : Int32} (h : (proc.task? pid tid).isSome) :
    (proc.read? (statusPath pid tid)).isSome := by
  rw [Option.isSome_iff_ne_none]
  intro hnone
  rw [(proc.task?_eq_none_iff pid tid).mpr (by simp [hnone])] at h
  exact absurd h (by simp)

/-! ## The order of listings -/

/-- Whether two tables differ at most in the order in which their directories list their names. -/
structure Reordered (proc other : ProcView) : Prop where
  /-- The names in a directory are the same, in whatever order. -/
  names : ∀ path, Option.Rel List.Perm (proc.names? path) (other.names? path)
  /-- So is what can be read of a file. -/
  read : other.read? = proc.read?
  /-- So is what can be read of a link. -/
  readLink : other.readLink? = proc.readLink?
  /-- So is the system's own node name. -/
  nodeName : other.ownNodeName = proc.ownNodeName

theorem numbers_eq_of_perm {α : Type} [LE α] [DecidableLE α] [Std.IsLinearOrder α]
    (read : List Char → Option α) {names others : List Bytes} (h : names.Perm others) :
    (numbers read others).mergeSort (· ≤ ·) = (numbers read names).mergeSort (· ≤ ·) :=
  (ascending_eq_of_perm (h.filterMap _)).symm

namespace Reordered

variable {proc other : ProcView} (h : proc.Reordered other)

include h

theorem perm_listing (path : NamePath) : (proc.listing path).Perm (other.listing path) := by
  unfold listing
  rcases FileTree.rel_cases (h.names path) with ⟨hnone, hnone'⟩ | ⟨_, _, hsome, hsome', hperm⟩
  · rw [hnone, hnone']
  · rw [hsome, hsome']
    exact hperm

theorem pids?_eq : other.pids? = proc.pids? := by
  unfold pids?
  rcases FileTree.rel_cases (h.names []) with ⟨hnone, hnone'⟩ | ⟨_, _, hsome, hsome', hperm⟩
  · rw [hnone, hnone']
  · rw [hsome, hsome', Option.map_some, Option.map_some, numbers_eq_of_perm _ hperm]

theorem threads_eq (pid : Int32) : other.threads pid = proc.threads pid :=
  numbers_eq_of_perm _ (h.perm_listing _)

theorem descriptors_eq (pid : Int32) : other.descriptors pid = proc.descriptors pid :=
  numbers_eq_of_perm _ (h.perm_listing _)

/-- But for their listings the two are one table. -/
theorem eq_with_names : other = { proc with names? := other.names? } := by
  obtain ⟨names, read, readLink, nodeName⟩ := proc
  obtain ⟨names', read', readLink', nodeName'⟩ := other
  obtain ⟨-, rfl, rfl, rfl⟩ := h
  rfl

theorem task?_eq : other.task? = proc.task? := by
  rw [h.eq_with_names]
  rfl

theorem file?_eq : other.file? = proc.file? := by
  rw [h.eq_with_names]
  rfl

end Reordered

end ProcView

/-! ## The view of a file system -/

/-- An id is written without slashes and dots. -/
theorem plain_idText (id : Int32) : Path.Plain (idText id) := by
  have hnil : (decode? []).bind Numeral.int32? = none := by decide
  have hdot : (0x2E : UInt8) ∉ idText id :=
    Numeral.notMem_signedDecimal (by decide) (by decide) (by decide) id.toInt
  refine ⟨?_, Numeral.notMem_signedDecimal (by decide) (by decide) (by decide) id.toInt, ?_, ?_⟩
  · intro hempty
    have hread := Numeral.int32?_signedDecimal id
    rw [← idText, hempty, hnil] at hread
    exact absurd hread (by simp)
  · intro heq
    exact hdot (by rw [heq]; decide)
  · intro heq
    exact hdot (by rw [heq]; decide)

namespace FileSystem

variable {fs : FileSystem}

/-- **The process table in a file system is the view of a tree**, wherever it is and whatever links
it is reached through. -/
theorem isTree_procView (h : fs.root.Distinct) (nodeName : Option NodeName) (root : String) :
    (fs.procView nodeName root).IsTree where
  nodup path := by
    cases hnames : (fs.procView nodeName root).names? path with
    | none =>
      rw [ProcView.listing, hnames]
      exact List.nodup_nil
    | some names =>
      rw [ProcView.listing, hnames]
      obtain ⟨tree, htree, hnames⟩ := Option.bind_eq_some_iff.mp hnames
      obtain ⟨place, -, hplace⟩ := Option.bind_eq_some_iff.mp htree
      exact (h.find? hplace).nodup_names? hnames
  listed := by
    intro pid tid hfound
    have hread := ProcView.isSome_read?_of_task? hfound
    have hstatus : (fs.find? (Path.below (utf8 root)
        ([idText pid, utf8 "task"] ++ idText tid :: [utf8 "status"]))).isSome :=
      Option.isSome_of_isSome_bind hread
    have hplain : ∀ name ∈ [idText pid, utf8 "task"] ++ idText tid :: [utf8 "status"],
        Path.Plain name := by
      simp only [List.cons_append, List.nil_append, List.forall_mem_cons]
      exact ⟨plain_idText pid, ⟨by decide, by decide, by decide, by decide⟩, plain_idText tid,
        ⟨by decide, by decide, by decide, by decide⟩, by simp⟩
    obtain ⟨names, hnames, hmem⟩ := fs.exists_names_of_find? hplain (by simp) hstatus
    have hlisted : (fs.procView nodeName root).names? (ProcView.below pid ["task"]) = some names :=
      hnames
    rw [ProcView.listing, hlisted]
    exact hmem

/-- Reordering the listings of a file system reorders those of the process table in it, and
changes nothing else. -/
theorem procView_reordered {root : FileTree} (h : fs.root.Reordered root)
    (nodeName : Option NodeName) (path : String) :
    (fs.procView nodeName path).Reordered ({ fs with root }.procView nodeName path) where
  names below := by
    show Option.Rel List.Perm ((fs.find? _).bind _) (({ fs with root }.find? _).bind _)
    rcases FileTree.rel_cases (find?_reordered h (Path.below (utf8 path) below)) with
      ⟨hnone, hnone'⟩ | ⟨_, _, hfound, hfound', h⟩
    · rw [hnone, hnone']
      exact .none
    · rw [hfound, hfound']
      exact h.names?
  read := by
    funext below
    exact FileTree.bind_eq_of_rel (find?_reordered h _) fun h => h.content?_eq
  readLink := by
    funext below
    exact readLink?_reordered h _
  nodeName := rfl

end FileSystem

end KernelTables
