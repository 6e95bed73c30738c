import Mathlib.Data.List.Infix
import KernelTables.Proofs.Text.Words

/-!
# Texts with a separator between them

Two texts are written side by side with a separator between them, and a reader is to find out where
the first one ends.  If the separator is a single letter, it is enough that the text does not hold
this letter.  A longer separator may stand in the text itself, and then there is more than one place
to cut.

* `append_cons_inj_last` — a reader who looks for the last separator;
* `IsSeparator.eq_or_extends` — **two ways to cut one text** are the same, or one of the two first
  parts goes on behind the other with the separator.
-/

namespace KernelTables

variable {α : Type}

/-- Where neither of two ends holds what begins it, both they and what stands before are the same as
soon as the whole is. -/
theorem append_cons_inj_last [BEq α] [LawfulBEq α] {a : α} {after after' : List α} (h : a ∉ after)
    (h' : a ∉ after') {before before' : List α} :
    before ++ a :: after = before' ++ a :: after' ↔ before = before' ∧ after = after' := by
  have hreverse {before after : List α} :
      (before ++ a :: after).reverse = after.reverse ++ a :: before.reverse := by simp
  rw [← List.reverse_inj, hreverse, hreverse,
    append_cons_inj (by simpa using h) (by simpa using h'), List.reverse_inj, List.reverse_inj,
    and_comm]

/-- Whether a text begins with a letter that it does not hold again, so that no two copies of it
overlap. -/
def IsSeparator (separator : List α) : Prop :=
  ∃ first rest, separator = first :: rest ∧ first ∉ rest

/-- Whether one of two texts begins with the other and a separator behind it. -/
def Extends (separator xs ys : List α) : Prop :=
  xs ++ separator <+: ys ∨ ys ++ separator <+: xs

variable {separator xs xs' ys ys' : List α}

/-- Of two texts that differ so, one has the separator in it. -/
theorem Extends.isInfix (h : Extends separator xs ys) : separator <:+: xs ∨ separator <:+: ys := by
  rcases h with h | h
  · exact Or.inr ((List.suffix_append xs separator).isInfix.trans h.isInfix)
  · exact Or.inl ((List.suffix_append ys separator).isInfix.trans h.isInfix)

namespace IsSeparator

/-- What stands between the beginnings of two copies of a separator is nothing, or holds a whole
copy. -/
theorem nil_or_prefix (hs : IsSeparator separator) {between : List α}
    (h : separator ++ ys = between ++ (separator ++ ys')) :
    between = [] ∨ separator <+: between := by
  obtain ⟨first, rest, rfl, hfirst⟩ := hs
  cases between with
  | nil => exact Or.inl rfl
  | cons b between =>
    right
    simp only [List.cons_append, List.cons.injEq] at h
    obtain ⟨rfl, h⟩ := h
    rw [List.cons_prefix_cons]
    refine ⟨rfl, ?_⟩
    rcases List.append_eq_append_iff.mp h with ⟨more, hmore, -⟩ | ⟨more, hmore, hrest⟩
    · exact ⟨more, hmore.symm⟩
    · cases more with
      | nil => exact ⟨[], by simpa using hmore⟩
      | cons c more =>
        -- the second copy would begin inside the first
        obtain ⟨rfl, -⟩ := List.cons.inj hrest
        exact absurd (hmore ▸ List.mem_append_right between List.mem_cons_self) hfirst

/-- **Two ways to cut a text at a separator** are the same, or one of the two first parts goes on
behind the other with the separator. -/
theorem eq_or_extends (hs : IsSeparator separator)
    (h : xs ++ (separator ++ ys) = xs' ++ (separator ++ ys')) :
    xs = xs' ∧ ys = ys' ∨ Extends separator xs xs' := by
  rcases List.append_eq_append_iff.mp h with ⟨between, rfl, hys⟩ | ⟨between, rfl, hys⟩
  · rcases hs.nil_or_prefix hys with rfl | hbetween
    · exact Or.inl ⟨(List.append_nil xs).symm, List.append_cancel_left hys⟩
    · exact Or.inr (Or.inl ((List.prefix_append_right_inj xs).mpr hbetween))
  · rcases hs.nil_or_prefix hys with rfl | hbetween
    · exact Or.inl ⟨List.append_nil xs', (List.append_cancel_left hys).symm⟩
    · exact Or.inr (Or.inr ((List.prefix_append_right_inj xs').mpr hbetween))

end IsSeparator

end KernelTables
