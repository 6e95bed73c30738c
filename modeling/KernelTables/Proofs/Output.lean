import Mathlib.Algebra.GroupWithZero.Nat
import KernelTables.Program
import KernelTables.Proofs.Symbol.Splitting

/-!
# Output on its way

What a program writes to a stream passes a buffer and then goes to the standard output or to a file,
either of which may have room for only so many bytes.  This file says where it is at each moment.

* `FileTree.rewrite_rewrite`, `content?_rewrite` — a file that is changed twice, and then read;
* `FileSystem.run_handTo` — an output takes of what it is handed what it has room for;
* `Behind` — **the invariant**: the output holds what has left the buffer, what is in the buffer
  comes next, and the rest of the text is still to be written;
* `Handed` — how an action on the buffer may end: with everything taken, or with the room used up
  before the end of the text;
* `WriteBuffer.flush_handed`, `writeAll_handed`, `advance_handed` — **the buffer never does anything
  else**.
-/

namespace KernelTables

/-! ## Files that are changed and read -/

namespace FileTree

theorem put_put (name : Bytes) (tree other : FileTree) (entries : List (Bytes × FileTree)) :
    put name tree (put name other entries) = put name tree entries := by
  induction entries with
  | nil => simp only [put, if_pos]
  | cons entry rest ih =>
    obtain ⟨key, old⟩ := entry
    by_cases hkey : key = name
    · simp only [put, if_pos hkey, if_pos]
    · rw [put, if_neg hkey, put, if_neg hkey, put, if_neg hkey, ih]

theorem child?_put (name : Bytes) (tree : FileTree) (entries : List (Bytes × FileTree))
    (inode : Option UInt64) : (directory (put name tree entries) inode).child? name = some tree :=
  lookup_put_self name tree entries

/-- A file below a directory is changed in what stands there, or in what is made there. -/
theorem rewrite_cons (tree : FileTree) (change : Bytes → Bytes) (name : Bytes) (path : NamePath) :
    tree.rewrite change (name :: path) =
      directory (put name (((tree.child? name).getD bare).rewrite change path) tree.entries)
        tree.inode? := by
  cases path with
  | nil => cases hchild : tree.child? name <;> simp [rewrite, alter, hchild, bare, content?, inode?]
  | cons next path => rfl

/-- Two changes of one file are one. -/
theorem rewrite_rewrite (tree : FileTree) (change again : Bytes → Bytes) (path : NamePath) :
    (tree.rewrite change path).rewrite again path =
      tree.rewrite (fun old => again (change old)) path := by
  induction path generalizing tree with
  | nil => rfl
  | cons name path ih =>
    rw [rewrite_cons, rewrite_cons, child?_put, Option.getD_some, entries, put_put, ih,
      rewrite_cons]
    rfl

/-- A file that is written anew holds what was written. -/
theorem content?_rewrite (tree : FileTree) (text : Bytes) (path : NamePath) :
    ((tree.rewrite (fun _ => text) path).find? path).bind content? = some text := by
  induction path generalizing tree with
  | nil => rfl
  | cons name path ih =>
    rw [rewrite_cons, find?_cons, child?_put]
    exact ih _

end FileTree

/-! ## Where output goes -/

namespace FileSystem

/-- Hands bytes to the file at a place, or to the standard output. -/
def handTo : Option NamePath → Bytes → StateM FileSystem Nat
  | none => print
  | some place => append place

/-- How many bytes an output takes in all, if there is a limit. -/
def limit (fs : FileSystem) : Option NamePath → Option Nat
  | none => fs.printLimit
  | some place => fs.limitAt place

/-- The file system after the output has taken a text and nothing else. -/
def filled (fs : FileSystem) (text : Bytes) : Option NamePath → FileSystem
  | none => { fs with printLimit := fs.printLimit.map (· - text.length) }
  | some place => fs.rewrite (fun _ => text) place

theorem filled_nil_standardOutput (fs : FileSystem) : fs.filled [] none = fs := by
  have hsame : fs.printLimit.map (· - ([] : Bytes).length) = fs.printLimit := Option.map_id'
  rw [filled, hsame]

theorem fitting_le (room : Option Nat) (count : Nat) : fitting room count ≤ count := by
  cases room with
  | none => exact Nat.le_refl _
  | some n => exact Nat.min_le_left _ _

/-- Either there is room for everything, or what fits uses the room up. -/
theorem fitting_cases {limit : Option Nat} {settled : Nat} (h : ∀ n ∈ limit, settled ≤ n)
    (count : Nat) :
    let taken := fitting (limit.map (· - settled)) count
    (taken = count ∧ ∀ n ∈ limit, settled + taken ≤ n) ∨
      (taken < count ∧ limit = some (settled + taken)) := by
  cases limit with
  | none => exact .inl ⟨rfl, by simp⟩
  | some n =>
    have hle : settled ≤ n := h n rfl
    have hfits : fitting (Option.map (· - settled) (some n)) count = min count (n - settled) := rfl
    simp only [hfits, Option.mem_some_iff, forall_eq', Option.some.injEq]
    omega

theorem bytesAt_filled (fs : FileSystem) (text : Bytes) (place : NamePath) :
    (fs.filled text (some place)).bytesAt place = text :=
  congrArg (·.getD []) (fs.root.content?_rewrite text place)

/-- **An output takes what it has room for**, behind what it has taken already. -/
theorem run_handTo (fs : FileSystem) (outlet : Option NamePath) (text bytes : Bytes) :
    (handTo outlet bytes).run (fs.filled text outlet) =
      let taken := fitting ((fs.limit outlet).map (· - text.length)) bytes.length
      (taken, fs.filled (text ++ bytes.take taken) outlet) := by
  cases outlet with
  | none =>
    let taken := fitting (fs.printLimit.map (· - text.length)) bytes.length
    have hlength : (text ++ bytes.take taken).length = text.length + taken := by
      rw [List.length_append, List.length_take_of_le (fitting_le _ _)]
    have hless : (fs.printLimit.map (· - text.length)).map (· - taken) =
        fs.printLimit.map (· - (text ++ bytes.take taken).length) := by
      rw [Option.map_map, hlength]
      congr 1
      funext n
      exact Nat.sub_sub ..
    show (taken, { fs with printLimit := (fs.printLimit.map (· - text.length)).map (· - taken) }) =
      (taken, fs.filled (text ++ bytes.take taken) none)
    rw [hless]
    rfl
  | some place =>
    let taken := fitting ((fs.limitAt place).map (· - text.length)) bytes.length
    have hrun : (append place bytes).run (fs.filled text (some place)) =
        let taken := fitting
          ((fs.limitAt place).map (· - ((fs.filled text (some place)).bytesAt place).length))
          bytes.length
        (taken, (fs.filled text (some place)).rewrite (· ++ bytes.take taken) place) := rfl
    have hagain : (fs.filled text (some place)).rewrite (· ++ bytes.take taken) place =
        fs.filled (text ++ bytes.take taken) (some place) := by
      simp only [filled, rewrite, FileTree.rewrite_rewrite]
    rw [handTo, hrun, bytesAt_filled]
    exact congrArg (taken, ·) hagain

end FileSystem

/-! ## The text, the buffer and the output -/

/-- What a file system holds of a text while some of it is still in the buffer. -/
structure Behind (fs : FileSystem) (outlet : Option NamePath) (text : Bytes)
    (buffer : WriteBuffer) (now : FileSystem) : Prop where
  /-- Nothing is in the buffer but text. -/
  total_le : buffer.total ≤ text.length
  /-- The output has not taken more than it has room for. -/
  fits : ∀ n ∈ fs.limit outlet, buffer.settled ≤ n
  /-- The output holds what has left the buffer. -/
  now_eq : now = fs.filled (text.take buffer.settled) outlet

/-- An action of the program while it writes. -/
abbrev Delivery := StateT WriteBuffer (StateM FileSystem)

theorem Delivery.run_bind {β γ : Type} (action : Delivery β) (next : β → Delivery γ)
    (buffer : WriteBuffer) (now : FileSystem) :
    ((action >>= next).run buffer).run now =
      ((next ((action.run buffer).run now).1.1).run ((action.run buffer).run now).1.2).run
        ((action.run buffer).run now).2 := rfl

/-- How an action on the buffer may end. -/
inductive Handed (fs : FileSystem) (outlet : Option NamePath) (text : Bytes)
    (ready : WriteBuffer → Prop) : (Bool × WriteBuffer) × FileSystem → Prop
  /-- With everything taken that was handed on, and the buffer as wanted. -/
  | taken {buffer : WriteBuffer} {now : FileSystem} (h : Behind fs outlet text buffer now)
      (hready : ready buffer) : Handed fs outlet text ready ((true, buffer), now)
  /-- With a refusal, because the room is used up before the end of the text. -/
  | refused {buffer : WriteBuffer} {now : FileSystem} (h : Behind fs outlet text buffer now)
      (hfull : fs.limit outlet = some buffer.settled) (hmore : buffer.settled < text.length) :
      Handed fs outlet text ready ((false, buffer), now)

section

variable {fs now : FileSystem} {outlet : Option NamePath} {buffer : WriteBuffer}

/-- A text may turn out longer. -/
theorem Behind.append {text : Bytes} (h : Behind fs outlet text buffer now) (more : Bytes) :
    Behind fs outlet (text ++ more) buffer now where
  total_le := by
    rw [List.length_append]
    exact Nat.le_trans h.total_le (Nat.le_add_right _ _)
  fits := h.fits
  now_eq := by
    have hle : buffer.settled ≤ text.length := Nat.le_trans (Nat.le_add_right _ _) h.total_le
    rw [List.take_append_of_le_length hle, h.now_eq]

namespace Handed

variable {text : Bytes} {ready wanted : WriteBuffer → Prop}

theorem imp {ended : (Bool × WriteBuffer) × FileSystem} (h : Handed fs outlet text ready ended)
    (himp : ∀ buffer, ready buffer → wanted buffer) : Handed fs outlet text wanted ended := by
  cases h with
  | taken hbehind hready => exact .taken hbehind (himp _ hready)
  | refused hbehind hfull hmore => exact .refused hbehind hfull hmore

/-- **Two actions in a row**, of which the second is only done if the first one succeeds. -/
theorem andThen {first rest : Delivery Bool}
    (h : Handed fs outlet text ready ((first.run buffer).run now))
    (hrest : ∀ buffer now, Behind fs outlet text buffer now → ready buffer →
      Handed fs outlet text wanted ((rest.run buffer).run now)) :
    Handed fs outlet text wanted
      (((first >>= fun taken => if !taken then pure false else rest).run buffer).run now) := by
  rw [Delivery.run_bind]
  generalize (first.run buffer).run now = ended at h ⊢
  cases h with
  | taken hbehind hready => exact hrest _ _ hbehind hready
  | refused hbehind hfull hmore => exact .refused hbehind hfull hmore

end Handed

end

/-! ## Through the buffer -/

namespace WriteBuffer

open FileSystem

variable {fs now : FileSystem} {outlet : Option NamePath} {buffer : WriteBuffer}
  {text : Array UInt8}

/-- Of the text that is handed on, an output takes all, or else a part that uses up its room. -/
theorem run_hand (h : Behind fs outlet text.toList buffer now) {count : Nat}
    (hcount : buffer.settled + count ≤ text.size) :
    ∃ taken, (handTo outlet (text.extract buffer.settled (buffer.settled + count)).toList).run now =
        (taken, fs.filled (text.toList.take (buffer.settled + taken)) outlet) ∧
      ((taken = count ∧ ∀ n ∈ fs.limit outlet, buffer.settled + taken ≤ n) ∨
        (taken < count ∧ fs.limit outlet = some (buffer.settled + taken))) := by
  have hsettled : (text.toList.take buffer.settled).length = buffer.settled := by
    apply List.length_take_of_le
    rw [Array.length_toList]
    omega
  have hbetween : (text.extract buffer.settled (buffer.settled + count)).toList.length = count := by
    rw [Array.length_toList, Array.size_extract, Nat.min_eq_left hcount, Nat.add_sub_cancel_left]
  refine ⟨_, ?_, fitting_cases h.fits count⟩
  rw [h.now_eq, run_handTo, hsettled, hbetween]
  simp only [Array.toList_extract, List.extract_eq_take_drop, List.take_take,
    Nat.add_sub_cancel_left, Nat.min_eq_left (fitting_le _ _), List.take_add]

/-- Handing on so many bytes, which leaves the buffer as it is `after` so many are taken. -/
theorem hand_handed (h : Behind fs outlet text.toList buffer now) {count : Nat}
    (hcount : buffer.settled + count ≤ text.size) {taken : Nat} {later : FileSystem}
    (hhand : (handTo outlet (text.extract buffer.settled (buffer.settled + count)).toList).run now =
      (taken, later))
    {after : WriteBuffer} (hsettled : after.settled = buffer.settled + taken)
    (htotal : taken ≤ count → after.total ≤ text.size) {ready : WriteBuffer → Prop}
    (hready : taken = count → ready after) :
    Handed fs outlet text.toList ready ((decide (count ≤ taken), after), later) := by
  obtain ⟨_, hrun, hcases⟩ := run_hand h hcount
  obtain ⟨rfl, rfl⟩ := Prod.mk.inj (hhand.symm.trans hrun)
  rw [← hsettled] at hcases ⊢
  have hle : taken ≤ count := by omega
  obtain ⟨hall, hfits⟩ | ⟨hless, hfull⟩ := hcases
  · rw [decide_eq_true (Nat.le_of_eq hall.symm)]
    exact .taken ⟨htotal hle, hfits, rfl⟩ (hready hall)
  · rw [decide_eq_false (Nat.not_le_of_lt hless)]
    refine .refused ⟨htotal hle, fun n hn => ?_, rfl⟩ hfull ?_
    · rw [hfull, Option.mem_some_iff] at hn
      exact Nat.le_of_eq hn
    · rw [Array.length_toList]
      omega

/-- **Flushing empties the buffer**, or hands on what there is room for. -/
theorem flush_handed (h : Behind fs outlet text.toList buffer now) :
    Handed fs outlet text.toList (fun after => after.total = buffer.total ∧ after.held = 0)
      (((flush (handTo outlet) text).run buffer).run now) := by
  have htotal : buffer.settled + buffer.held ≤ text.size := h.total_le
  by_cases hheld : buffer.held = 0
  · have hrun : (flush (handTo outlet) text).run buffer = pure (true, buffer) :=
      congrArg (fun action : Delivery Bool => action.run buffer) (if_pos hheld)
    rw [hrun]
    exact .taken h ⟨rfl, hheld⟩
  · have hrun : ((flush (handTo outlet) text).run buffer).run now =
        let handed := (handTo outlet (text.extract buffer.settled
          (buffer.settled + buffer.held)).toList).run now
        ((decide (buffer.held ≤ handed.1),
          ⟨buffer.settled + handed.1, buffer.held - handed.1⟩), handed.2) :=
      congrArg (fun action : Delivery Bool => (action.run buffer).run now) (if_neg hheld)
    rcases hhand : (handTo outlet (text.extract buffer.settled
      (buffer.settled + buffer.held)).toList).run now with ⟨taken, later⟩
    simp only [hhand] at hrun
    rw [hrun]
    refine hand_handed h htotal hhand rfl (fun hle => ?_) fun hall => ⟨?_, ?_⟩
    · simp only [total]
      omega
    · simp only [total, hall, Nat.sub_self, Nat.add_zero]
    · simp only [hall, Nat.sub_self]

/-- After a flush the output holds all that was in the buffer, or as much as it has room for. -/
theorem run_flush (h : Behind fs outlet text.toList buffer now) :
    ∃ taken after, ((flush (handTo outlet) text).run buffer).run now =
        ((taken, after), fs.filled (text.toList.take after.settled) outlet) ∧
      (after.settled = buffer.total ∧ (∀ n ∈ fs.limit outlet, after.settled ≤ n) ∨
        fs.limit outlet = some after.settled ∧ after.settled < text.size) := by
  have hhanded := flush_handed h
  generalize ((flush (handTo outlet) text).run buffer).run now = ended at hhanded ⊢
  cases hhanded with
  | @taken after later hbehind hready =>
    obtain ⟨htotal, hheld⟩ := hready
    rw [total, hheld, Nat.add_zero] at htotal
    exact ⟨true, after, by rw [hbehind.now_eq], .inl ⟨htotal, hbehind.fits⟩⟩
  | @refused after later hbehind hfull hmore =>
    exact ⟨false, after, by rw [hbehind.now_eq], .inr ⟨hfull, hmore⟩⟩

/-- A write has its room, or will not wait in a buffer that is empty. -/
theorem makeRoom_handed (h : Behind fs outlet text.toList buffer now) (count : Nat) :
    Handed fs outlet text.toList
      (fun after => after.total = buffer.total ∧ (count < capacity ∨ after.held = 0))
      (((makeRoom (handTo outlet) text count).run buffer).run now) := by
  have hrun : (makeRoom (handTo outlet) text count).run buffer =
      (if capacity < buffer.held + count then flush (handTo outlet) text else pure true :
        Delivery Bool).run buffer := rfl
  rw [hrun]
  by_cases hover : capacity < buffer.held + count
  · rw [if_pos hover]
    exact (flush_handed h).imp fun after hafter => ⟨hafter.1, .inr hafter.2⟩
  · rw [if_neg hover]
    refine .taken h ⟨rfl, ?_⟩
    omega

/-- One write takes a buffer so much further. -/
theorem put_handed (h : Behind fs outlet text.toList buffer now) {count : Nat}
    (hroom : count < capacity ∨ buffer.held = 0) (hcount : buffer.total + count ≤ text.size) :
    Handed fs outlet text.toList (fun after => after.total = buffer.total + count)
      (((put (handTo outlet) text count).run buffer).run now) := by
  by_cases hshort : count < capacity
  · have hrun : (put (handTo outlet) text count).run buffer =
        pure (true, ⟨buffer.settled, buffer.held + count⟩) :=
      congrArg (fun action : Delivery Bool => action.run buffer) (if_pos hshort)
    have htotal : (⟨buffer.settled, buffer.held + count⟩ : WriteBuffer).total =
        buffer.total + count := (Nat.add_assoc ..).symm
    rw [hrun]
    exact .taken ⟨htotal ▸ hcount, h.fits, h.now_eq⟩ htotal
  · -- nothing is held back, so that the write goes on where the output is
    have hheld : buffer.held = 0 := hroom.resolve_left hshort
    have htotal : buffer.total = buffer.settled := by rw [total, hheld, Nat.add_zero]
    have hrun : ((put (handTo outlet) text count).run buffer).run now =
        let handed := (handTo outlet (text.extract buffer.total (buffer.total + count)).toList).run
          now
        ((decide (count ≤ handed.1), ⟨buffer.settled + handed.1, buffer.held⟩), handed.2) :=
      congrArg (fun action : Delivery Bool => (action.run buffer).run now) (if_neg hshort)
    rw [htotal] at hrun hcount ⊢
    rcases hhand : (handTo outlet (text.extract buffer.settled (buffer.settled + count)).toList).run
      now with ⟨taken, later⟩
    simp only [hhand] at hrun
    rw [hrun]
    refine hand_handed h hcount hhand rfl (fun hle => ?_) fun hall => ?_
    · simp only [total, hheld]
      omega
    · simp only [total, hheld, hall, Nat.add_zero]

/-- **Writes take a buffer as much further as they have bytes.** -/
theorem writeAll_handed (h : Behind fs outlet text.toList buffer now) {counts : List Nat}
    (hcounts : buffer.total + counts.sum ≤ text.size) :
    Handed fs outlet text.toList (fun after => after.total = buffer.total + counts.sum)
      (((writeAll (handTo outlet) text counts).run buffer).run now) := by
  induction counts generalizing buffer now with
  | nil => exact .taken h rfl
  | cons count counts ih =>
    rw [List.sum_cons] at hcounts ⊢
    refine (makeRoom_handed h count).andThen fun ready middle hready ⟨htotal, hroom⟩ => ?_
    refine (put_handed hready hroom (by omega)).andThen fun after later hafter hlater => ?_
    exact (ih hafter (by omega)).imp fun last hlast => by omega

/-- The writes that a text comes in have its bytes. -/
theorem sum_writes (text : Bytes) : (writes text).sum = text.length := by
  have hlines (lines : List Bytes) :
      (lines.flatMap fun line => [line.length, 1]).sum = (ofLines lines).length := by
    induction lines with
    | nil => rfl
    | cons line lines ih =>
      rw [List.flatMap_cons, List.sum_append, ih, ofLines_cons, List.length_append,
        List.length_cons]
      simp only [List.sum_cons, List.sum_nil]
      omega
  have hlength := congrArg List.length (ofLines_endedLines_append text)
  rw [List.length_append, ← hlines] at hlength
  rw [writes, List.sum_append, List.sum_singleton]
  exact hlength

/-- **What has been added to a stream is written through the buffer**, as far as there is room. -/
theorem advance_handed {stream : Stream} (h : Behind fs outlet stream.text buffer now) :
    Handed fs outlet stream.text (fun after => after.total = stream.text.length)
      (((advance (handTo outlet) stream).run buffer).run now) := by
  let fresh := (stream.sink.taken.extract buffer.total stream.sink.taken.size).toList
  have htotal : buffer.total ≤ stream.sink.taken.size := h.total_le
  have hsum : buffer.total + (writes fresh).sum = stream.text.length := by
    rw [sum_writes, Array.length_toList, Array.size_extract, Nat.min_self]
    exact Nat.add_sub_cancel' htotal
  have hwritten : Handed fs outlet stream.text
      (fun after => after.total = buffer.total + (writes fresh).sum)
      (((advance (handTo outlet) stream).run buffer).run now) :=
    writeAll_handed h (Nat.le_of_eq hsum)
  exact hwritten.imp fun after hafter => hafter.trans hsum

end WriteBuffer

end KernelTables
