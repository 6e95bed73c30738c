import KernelTables.Proc.View
import KernelTables.Proofs.Text.Numeral
import KernelTables.Proofs.Text.Words

/-!
# Inode numbers out of link targets

A file that has no path is shown by its kind and its inode number in brackets, as in
`socket:[1234]`.  Where the link of a descriptor cannot be followed, this is the only place that
an inode number can come from.

* `anonymousInode?_eq_some_iff` — **what is read**: the number in a pair of brackets, the first of
  the target and the last, whatever stands in front of them;
* `BracketedNumber.eq_of_text_eq` — there is one way only to take a target apart like this;
* `inode_eq_some_iff` — so the numbers of anonymous files are read, but they are not the only ones:
  a path may end in brackets too, and the number may carry a plus sign.
-/

namespace KernelTables

/-- The bracket in front of an inode number. -/
def openBracket : UInt8 := 0x5B

/-- The bracket behind it. -/
def closeBracket : UInt8 := 0x5D

/-- Whether a target shows an anonymous file: its kind, which is no path, a colon, and the inode
number in brackets. -/
def ShowsAnonymous (target : Bytes) (inode : UInt64) : Prop :=
  ∃ kind digits, target = kind ++ (utf8 ":[" ++ (encode digits ++ utf8 "]")) ∧
    Path.slash ∉ kind ∧ openBracket ∉ kind ∧ Numeral.IsNumeral 10 digits inode.toNat

/-- A target that ends in a number in brackets, taken apart. -/
structure BracketedNumber where
  /-- What stands in front of the brackets. -/
  front : Bytes
  /-- Whether a plus sign stands in front of the digits. -/
  plus : Bool
  /-- The digits of the number. -/
  digits : List Char
  /-- The brackets are the first ones. -/
  bracket_notMem : openBracket ∉ front

namespace BracketedNumber

/-- The target itself. -/
def text (parts : BracketedNumber) : Bytes :=
  parts.front ++
    openBracket :: (encode (Numeral.withPlus parts.plus parts.digits) ++ [closeBracket])

/-- Whether the digits are those of an inode number, which fits its word. -/
def Says (parts : BracketedNumber) (inode : UInt64) : Prop :=
  Numeral.IsNumeral 10 parts.digits inode.toNat

/-- Whether nothing is there but what belongs to an anonymous file. -/
structure IsAnonymous (parts : BracketedNumber) : Prop where
  /-- There is no sign. -/
  plus : parts.plus = false
  /-- A colon stands in front of the brackets. -/
  colon : parts.front.getLast? = some 0x3A
  /-- What stands in front of them is no path. -/
  slash_notMem : Path.slash ∉ parts.front

instance (parts : BracketedNumber) : Decidable parts.IsAnonymous :=
  decidable_of_iff
    (parts.plus = false ∧ parts.front.getLast? = some 0x3A ∧ Path.slash ∉ parts.front)
    ⟨fun h => ⟨h.1, h.2.1, h.2.2⟩, fun h => ⟨h.plus, h.colon, h.slash_notMem⟩⟩

/-- **A target can be taken apart in one way only**: the first bracket is where it is, and a plus
sign is no digit. -/
theorem eq_of_text_eq {parts other : BracketedNumber} {inode inode' : UInt64}
    (h : parts.Says inode) (h' : other.Says inode') (heq : parts.text = other.text) :
    parts = other := by
  obtain ⟨front, plus, digits, hfront⟩ := parts
  obtain ⟨front', plus', digits', hfront'⟩ := other
  obtain ⟨hfronts, hrest⟩ := (append_cons_inj hfront hfront').mp heq
  have hnumber := encode_injective (List.append_cancel_right hrest)
  obtain ⟨hplus, hdigits⟩ := Numeral.withPlus_inj (by omega) h h' hnumber
  dsimp only at hfronts hplus hdigits
  subst hfronts hplus hdigits
  rfl

/-- A target that shows an anonymous file is one that can be taken apart, with nothing there that
does not belong to it. -/
theorem showsAnonymous_iff {target : Bytes} {inode : UInt64} :
    ShowsAnonymous target inode ↔
      ∃ parts : BracketedNumber, parts.text = target ∧ parts.Says inode ∧ parts.IsAnonymous := by
  have hmark : utf8 ":[" = [0x3A, openBracket] := by decide
  have hend : utf8 "]" = [closeBracket] := by decide
  rw [ShowsAnonymous, hmark, hend]
  constructor
  · rintro ⟨kind, digits, rfl, hslash, hbracket, hdigits⟩
    have hfront : openBracket ∉ kind ++ [0x3A] := by
      rw [List.mem_append, not_or]
      exact ⟨hbracket, by decide⟩
    have hpath : Path.slash ∉ kind ++ [0x3A] := by
      rw [List.mem_append, not_or]
      exact ⟨hslash, by decide⟩
    exact ⟨⟨kind ++ [0x3A], false, digits, hfront⟩, by simp [text, Numeral.withPlus], hdigits,
      rfl, List.getLast?_concat, hpath⟩
  · rintro ⟨⟨front, plus, digits, hfront⟩, rfl, hdigits, hplus, hcolon, hpath⟩
    dsimp only at hplus hcolon hpath
    obtain ⟨kind, rfl⟩ := List.getLast?_eq_some_iff.mp hcolon
    subst hplus
    simp only [List.mem_append, not_or] at hfront hpath
    exact ⟨kind, digits, by simp [text, Numeral.withPlus], hpath.1, hfront.1, hdigits⟩

end BracketedNumber

namespace ProcView

/-- **The numbers that are read** stand in the first brackets of a target, which have to be its
end. -/
theorem anonymousInode?_eq_some_iff {target : Bytes} {inode : UInt64} :
    anonymousInode? target = some inode ↔
      ∃ parts : BracketedNumber, parts.text = target ∧ parts.Says inode := by
  constructor
  · intro h
    obtain ⟨⟨front, rest⟩, hcut, h⟩ := Option.bind_eq_some_iff.mp h
    dsimp only at h
    split at h
    next hlast =>
      obtain ⟨text, hdecode, hnumber⟩ := Option.bind_eq_some_iff.mp h
      obtain ⟨plus, digits, rfl, hdigits⟩ := (Numeral.uint64?_eq_some_iff (by omega)).mp hnumber
      obtain ⟨inner, rfl⟩ := List.getLast?_eq_some_iff.mp hlast
      rw [List.dropLast_concat, decode?_eq_some_iff] at hdecode
      have hfront : openBracket ∉ front := notMem_of_cutAt? hcut
      obtain rfl := eq_of_cutAt? hcut
      subst hdecode
      exact ⟨⟨front, plus, digits, hfront⟩, rfl, hdigits⟩
    next => exact absurd h (by simp)
  · rintro ⟨parts, rfl, hdigits⟩
    have hnumber : Numeral.uint64? 10 (Numeral.withPlus parts.plus parts.digits) = some inode :=
      (Numeral.uint64?_eq_some_iff (by omega)).mpr ⟨parts.plus, parts.digits, rfl, hdigits⟩
    have hcut : cutAt? 0x5B parts.text =
        some (parts.front, encode (Numeral.withPlus parts.plus parts.digits) ++ [closeBracket]) :=
      cutAt?_append_cons parts.bracket_notMem _
    simp [anonymousInode?, hcut, closeBracket, hnumber]

/-- **Where a link cannot be followed, its descriptor has the inode number that the target ends
in**, in the first brackets there are: digits whose number fits its word, with a plus sign or
without.  The anonymous files are among those targets, and no other target is read as theirs.  But
what is read else is no anonymous file: it has a plus sign, or no colon in front of the brackets,
or it is a path. -/
theorem inode_eq_some_iff (proc : ProcView) {pid : Int32} {fd : UInt32} {target : Bytes}
    (h : proc.readLink? [idText pid, utf8 "fd", Numeral.decimal fd.toNat] = some (target, none)) :
    ∃ file, proc.file? pid fd = some file ∧ ∀ inode,
      (file.inode = some inode ↔
        ∃ parts : BracketedNumber, parts.text = target ∧ parts.Says inode) ∧
      (ShowsAnonymous target inode ↔
        file.inode = some inode ∧
          ∀ parts : BracketedNumber, parts.text = target → parts.Says inode →
            parts.IsAnonymous) := by
  have hfile : proc.file? pid fd =
      some { fd, inode := anonymousInode? target, path := some (.ofBytes target) } := by
    rw [file?, h]
    rfl
  refine ⟨_, hfile, fun inode => ⟨anonymousInode?_eq_some_iff, ?_⟩⟩
  rw [BracketedNumber.showsAnonymous_iff, anonymousInode?_eq_some_iff]
  constructor
  · rintro ⟨parts, htext, hdigits, hanonymous⟩
    refine ⟨⟨parts, htext, hdigits⟩, fun other htext' hdigits' => ?_⟩
    exact BracketedNumber.eq_of_text_eq hdigits hdigits' (htext.trans htext'.symm) ▸ hanonymous
  · rintro ⟨⟨parts, htext, hdigits⟩, hall⟩
    exact ⟨parts, htext, hdigits, hall parts htext hdigits⟩

/-- A process whose first descriptor leads to a file that is gone, with brackets in its name. -/
def goneFile : ProcView where
  names? _ := none
  read? _ := none
  readLink? path :=
    if path = [utf8 "1", utf8 "fd", utf8 "0"] then some (utf8 "/gone/a[+5]", none) else none
  ownNodeName := none

/-- The number in that name is taken for an inode number. -/
theorem inode_goneFile :
    goneFile.readLink? [idText 1, utf8 "fd", Numeral.decimal (0 : UInt32).toNat] =
        some (utf8 "/gone/a[+5]", none) ∧
      ∃ file, goneFile.file? 1 0 = some file ∧ file.inode = some 5 ∧
        ¬ShowsAnonymous (utf8 "/gone/a[+5]") 5 := by
  have hlink : goneFile.readLink? [idText 1, utf8 "fd", Numeral.decimal (0 : UInt32).toNat] =
      some (utf8 "/gone/a[+5]", none) := by decide
  obtain ⟨file, hfile, hinode⟩ := goneFile.inode_eq_some_iff hlink
  obtain ⟨hread, hshown⟩ := hinode 5
  let parts : BracketedNumber := ⟨utf8 "/gone/a", true, ['5'], by decide⟩
  have htext : parts.text = utf8 "/gone/a[+5]" := by decide
  have hdigits : parts.Says 5 := (Numeral.natural?_eq_some_iff (by omega)).mp (by decide)
  refine ⟨hlink, file, hfile, hread.mpr ⟨parts, htext, hdigits⟩, ?_⟩
  rw [hshown]
  rintro ⟨-, hall⟩
  exact absurd (hall parts htext hdigits) (by decide)

end ProcView

end KernelTables
