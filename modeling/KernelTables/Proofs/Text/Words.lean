import Mathlib.Data.List.TakeDrop
import KernelTables.Text.Blank

/-!
# Cutting texts into parts

What the ways of cutting a text leave: the pieces between separators (`mem_splitOnP`), also of a text
that comes in two parts (`splitOn_append`), the words between white space (`mem_words`,
`words_eq_cons_iff`), the two sides of the first separator (`cutAt?_append_cons`) and the text inside of
what is trimmed off (`exists_around_trimBoth`).
-/

namespace KernelTables

section Pieces

variable {α : Type}

/-- What is cut at separators has none left, and nothing that was not there. -/
theorem mem_splitOnP {p : α → Bool} {xs piece : List α} (h : piece ∈ xs.splitOnP p) :
    ∀ x ∈ piece, p x = false ∧ x ∈ xs := by
  induction xs generalizing piece with
  | nil =>
    rw [List.splitOnP_nil, List.mem_singleton] at h
    simp [h]
  | cons y ys ih =>
    rw [List.splitOnP_cons_eq_if_modifyHead] at h
    by_cases hy : p y = true
    · rw [if_pos hy] at h
      rcases List.mem_cons.mp h with rfl | h
      · simp
      · intro x hx
        exact ⟨(ih h x hx).1, List.mem_cons_of_mem _ (ih h x hx).2⟩
    · rw [if_neg hy] at h
      obtain ⟨first, rest, hsplit⟩ := List.exists_cons_of_ne_nil (List.splitOnP_ne_nil p ys)
      rw [hsplit, List.modifyHead_cons] at h
      have hpiece : ∀ x ∈ first, p x = false ∧ x ∈ y :: ys := by
        intro x hx
        have := ih (hsplit ▸ List.mem_cons_self) x hx
        exact ⟨this.1, List.mem_cons_of_mem _ this.2⟩
      rcases List.mem_cons.mp h with rfl | h
      · intro x hx
        rcases List.mem_cons.mp hx with rfl | hx
        · exact ⟨by simpa using hy, List.mem_cons_self⟩
        · exact hpiece x hx
      · intro x hx
        have := ih (hsplit ▸ List.mem_cons_of_mem _ h) x hx
        exact ⟨this.1, List.mem_cons_of_mem _ this.2⟩

/-- No piece of a split holds what the text was split at. -/
theorem notMem_of_mem_splitOn [BEq α] [LawfulBEq α] {a : α} {xs piece : List α}
    (h : piece ∈ xs.splitOn a) : a ∉ piece := by
  rw [List.splitOn_eq_splitOnP] at h
  intro ha
  simpa using (mem_splitOnP h a ha).1

/-- What stands behind the last separator is such a piece. -/
theorem notMem_getLast?_splitOn [BEq α] [LawfulBEq α] (a : α) (xs : List α) :
    a ∉ (xs.splitOn a).getLast?.getD [] := by
  cases hlast : (xs.splitOn a).getLast? with
  | none => exact List.not_mem_nil
  | some piece => exact notMem_of_mem_splitOn (List.mem_of_getLast? hlast)

/-- A text can be split in two parts: what the first leaves behind its last separator is begun anew
with the second. -/
theorem splitOn_append [BEq α] [LawfulBEq α] (a : α) (xs ys : List α) :
    (xs ++ ys).splitOn a =
      (xs.splitOn a).dropLast ++ ((xs.splitOn a).getLast?.getD [] ++ ys).splitOn a := by
  by_cases ha : a ∈ xs
  · -- the last separator is the first one from behind
    obtain ⟨after, before, hreverse, hafter⟩ :=
      List.eq_append_cons_of_mem (List.mem_reverse.mpr ha)
    have hxs : xs = before.reverse ++ a :: after.reverse := by
      rw [← xs.reverse_reverse, hreverse]
      simp
    have hsplit : xs.splitOn a = before.reverse.splitOn a ++ [after.reverse] := by
      have hlast : a ∉ after.reverse := by simpa using hafter
      rw [hxs, List.splitOn_append_cons_self, List.splitOn_eq_singleton hlast]
    rw [hsplit, List.dropLast_concat, List.getLast?_concat, hxs, List.append_assoc,
      List.cons_append, List.splitOn_append_cons_self]
    rfl
  · rw [List.splitOn_eq_singleton ha]
    rfl

/-- A cut at `a` gives what stands before the first `a` and what stands behind it. -/
theorem cutAt?_append_cons [BEq α] [LawfulBEq α] {a : α} {before : List α} (h : a ∉ before)
    (after : List α) : cutAt? a (before ++ a :: after) = some (before, after) := by
  have hbefore : ∀ x ∈ before, (x != a) = true := by
    intro x hx
    simpa using fun hxa : x = a => h (hxa ▸ hx)
  rw [cutAt?, List.span_eq_takeWhile_dropWhile, List.takeWhile_append_of_pos hbefore,
    List.dropWhile_append_of_pos hbefore]
  simp

/-- What a cut gives made up the text, together with what it was cut at. -/
theorem eq_of_cutAt? [BEq α] [LawfulBEq α] {a : α} {xs before after : List α}
    (h : cutAt? a xs = some (before, after)) : xs = before ++ a :: after := by
  rw [cutAt?, List.span_eq_takeWhile_dropWhile] at h
  cases hdrop : xs.dropWhile (· != a) with
  | nil => simp [hdrop] at h
  | cons b rest =>
    have hb : (b != a) = false := by
      have := List.head_dropWhile_not (· != a) (by simp [hdrop] : xs.dropWhile (· != a) ≠ [])
      simpa [hdrop] using this
    rw [bne_eq_false_iff_eq] at hb
    subst hb
    simp only [hdrop, Option.some.injEq, Prod.mk.injEq] at h
    obtain ⟨rfl, rfl⟩ := h
    rw [← hdrop, List.takeWhile_append_dropWhile]

/-- What stands before a cut does not hold what the cut was made at. -/
theorem notMem_of_cutAt? [BEq α] [LawfulBEq α] {a : α} {xs before after : List α}
    (h : cutAt? a xs = some (before, after)) : a ∉ before := by
  intro ha
  obtain ⟨first, rest, rfl, hfirst⟩ := List.eq_append_cons_of_mem ha
  -- the cut would have been made at this earlier place
  rw [eq_of_cutAt? h, List.append_assoc, List.cons_append, cutAt?_append_cons hfirst] at h
  have hlength := congrArg List.length (Prod.mk.inj (Option.some.inj h)).1
  simp at hlength

/-- There is no cut at what does not occur. -/
theorem cutAt?_eq_none_iff [BEq α] [LawfulBEq α] {a : α} {xs : List α} :
    cutAt? a xs = none ↔ a ∉ xs := by
  constructor
  · intro h ha
    obtain ⟨before, after, rfl, hbefore⟩ := List.eq_append_cons_of_mem ha
    rw [cutAt?_append_cons hbefore] at h
    exact absurd h (by simp)
  · intro h
    cases hcut : cutAt? a xs with
    | none => rfl
    | some parts =>
      obtain ⟨before, after⟩ := parts
      have ha : a ∈ xs := by
        rw [eq_of_cutAt? hcut]
        exact List.mem_append_right _ List.mem_cons_self
      exact absurd ha h

/-- Where neither of two beginnings holds what ends it, both they and what follows are the same as
soon as the whole is. -/
theorem append_cons_inj [BEq α] [LawfulBEq α] {a : α} {before before' : List α} (h : a ∉ before)
    (h' : a ∉ before') {after after' : List α} :
    before ++ a :: after = before' ++ a :: after' ↔ before = before' ∧ after = after' := by
  constructor
  · intro heq
    have hcut := congrArg (cutAt? a) heq
    rw [cutAt?_append_cons h, cutAt?_append_cons h'] at hcut
    exact Prod.mk.inj (Option.some.inj hcut)
  · rintro ⟨rfl, rfl⟩
    rfl

/-- Every text can be cut behind the letters of a kind that it begins with. -/
theorem exists_span (p : α → Bool) (xs : List α) :
    ∃ first rest, xs = first ++ rest ∧ (∀ x ∈ first, p x = true) ∧ ∀ x ∈ rest.head?, p x = false := by
  induction xs with
  | nil => exact ⟨[], [], rfl, by simp, by simp⟩
  | cons x xs ih =>
    by_cases hx : p x = true
    · obtain ⟨first, rest, rfl, hfirst, hrest⟩ := ih
      exact ⟨x :: first, rest, rfl, List.forall_mem_cons.mpr ⟨hx, hfirst⟩, hrest⟩
    · exact ⟨[], x :: xs, rfl, by simp, by simpa using hx⟩

/-- What is trimmed off a text stood around it. -/
theorem exists_around_trimBoth (p : α → Bool) (xs : List α) :
    ∃ before after, xs = before ++ (trimBoth p xs ++ after) ∧ (∀ x ∈ before, p x = true) ∧
      ∀ x ∈ after, p x = true := by
  have hdrop (xs : List α) : ∃ first, xs = first ++ xs.dropWhile p ∧ ∀ x ∈ first, p x = true := by
    obtain ⟨first, rest, rfl, hfirst, hrest⟩ := exists_span p xs
    refine ⟨first, ?_, hfirst⟩
    rw [List.dropWhile_append_of_pos hfirst]
    cases rest with
    | nil => rfl
    | cons y rest => rw [List.dropWhile_cons_of_neg (by simp [hrest y rfl])]
  obtain ⟨before, hxs, hbefore⟩ := hdrop xs
  obtain ⟨after, hmiddle, hafter⟩ := hdrop (xs.dropWhile p).reverse
  refine ⟨before, after.reverse, ?_, hbefore, by simpa using hafter⟩
  rw [trimBoth, ← List.reverse_append, ← hmiddle, List.reverse_reverse, ← hxs]

/-- What is trimmed off does not matter, if what is left begins and ends with something else. -/
theorem trimBoth_around {p : α → Bool} {first last : α} (hfirst : p first = false)
    (hlast : p last = false) (middle : List α) {before after : List α}
    (hbefore : ∀ x ∈ before, p x = true) (hafter : ∀ x ∈ after, p x = true) :
    trimBoth p (before ++ first :: (middle ++ last :: after)) = first :: (middle ++ [last]) := by
  have hreverse : ∀ x ∈ after.reverse, p x = true := by simpa using hafter
  rw [trimBoth, List.dropWhile_append_of_pos hbefore,
    List.dropWhile_cons_of_neg (by simp [hfirst])]
  simp only [List.reverse_cons, List.reverse_append, List.append_assoc]
  rw [List.dropWhile_append_of_pos hreverse, List.singleton_append,
    List.dropWhile_cons_of_neg (by simp [hlast])]
  simp

end Pieces

/-! ## Words -/

/-- A word is not empty and has no white space in it. -/
theorem mem_words {word text : List Char} (h : word ∈ words text) :
    word ≠ [] ∧ ∀ c ∈ word, isBlank c = false ∧ c ∈ text := by
  obtain ⟨hpiece, hne⟩ := List.mem_filter.mp h
  exact ⟨by simpa using hne, mem_splitOnP hpiece⟩

/-- White space separates words. -/
theorem words_append_cons {c : Char} (hc : isBlank c = true) (before after : List Char) :
    words (before ++ c :: after) = words before ++ words after := by
  rw [words, List.splitOnP_append_cons _ _ hc, List.filter_append]
  rfl

/-- A text without white space is one word. -/
theorem words_of_notBlank {word : List Char} (hne : word ≠ [])
    (h : ∀ c ∈ word, isBlank c = false) : words word = [word] := by
  rw [words, List.splitOnP_eq_singleton h]
  simpa using hne

/-- White space in front of a text makes no difference to its words. -/
theorem words_blank_append {gap text : List Char} (h : ∀ c ∈ gap, isBlank c = true) :
    words (gap ++ text) = words text := by
  induction gap with
  | nil => rfl
  | cons c gap ih =>
    obtain ⟨hc, hgap⟩ := List.forall_mem_cons.mp h
    rw [List.cons_append, ← List.nil_append (c :: (gap ++ text)), words_append_cons hc, ih hgap]
    rfl

theorem words_of_blank {text : List Char} (h : ∀ c ∈ text, isBlank c = true) : words text = [] := by
  rw [← text.append_nil, words_blank_append h]
  rfl

/-- Whether a text can be a word. -/
structure IsWord (text : List Char) : Prop where
  /-- It is not empty. -/
  ne_nil : text ≠ []
  /-- There is no white space in it. -/
  notBlank : ∀ c ∈ text, isBlank c = false

/-- The first word of a text, where white space or nothing follows it, and the words of the rest. -/
theorem words_word_append {word rest : List Char} (hword : IsWord word)
    (hrest : ∀ c ∈ rest.head?, isBlank c = true) : words (word ++ rest) = word :: words rest := by
  have hwords : words word = [word] := words_of_notBlank hword.ne_nil hword.notBlank
  cases rest with
  | nil =>
    rw [List.append_nil, hwords]
    rfl
  | cons c rest =>
    have hc := hrest c rfl
    have hskip : words (c :: rest) = words rest :=
      words_blank_append (List.forall_mem_singleton.mpr hc)
    rw [words_append_cons hc, hwords, hskip]
    rfl

/-- **A text is white space, or has a first word**, with white space in front and white space or
nothing behind. -/
theorem blank_or_exists_word (text : List Char) :
    (∀ c ∈ text, isBlank c = true) ∨ ∃ gap word rest, text = gap ++ (word ++ rest) ∧
      (∀ c ∈ gap, isBlank c = true) ∧ IsWord word ∧ ∀ c ∈ rest.head?, isBlank c = true := by
  obtain ⟨gap, behind, rfl, hgap, hbehind⟩ := exists_span isBlank text
  obtain ⟨word, rest, rfl, hword, hrest⟩ := exists_span (fun c => !isBlank c) behind
  simp only [Bool.not_eq_true', Bool.not_eq_false'] at hword hrest
  cases word with
  | cons c word => exact Or.inr ⟨gap, c :: word, rest, rfl, hgap, ⟨by simp, hword⟩, hrest⟩
  | nil =>
    cases rest with
    | nil => exact Or.inl (by simpa using hgap)
    | cons c rest => exact absurd (hbehind c rfl) (by simp [hrest c rfl])

theorem words_eq_nil_iff {text : List Char} : words text = [] ↔ ∀ c ∈ text, isBlank c = true := by
  constructor
  · intro h
    rcases blank_or_exists_word text with hblank | ⟨gap, word, rest, rfl, hgap, hword, hrest⟩
    · exact hblank
    · rw [words_blank_append hgap, words_word_append hword hrest] at h
      exact absurd h (by simp)
  · exact words_of_blank

theorem words_eq_cons_iff {text word : List Char} {further : List (List Char)} :
    words text = word :: further ↔ ∃ gap rest, text = gap ++ (word ++ rest) ∧
      (∀ c ∈ gap, isBlank c = true) ∧ IsWord word ∧ (∀ c ∈ rest.head?, isBlank c = true) ∧
      words rest = further := by
  constructor
  · intro h
    rcases blank_or_exists_word text with hblank | ⟨gap, first, rest, rfl, hgap, hfirst, hrest⟩
    · rw [words_of_blank hblank] at h
      exact absurd h (by simp)
    · rw [words_blank_append hgap, words_word_append hfirst hrest] at h
      obtain ⟨rfl, hfurther⟩ := List.cons.inj h
      exact ⟨gap, rest, rfl, hgap, hfirst, hrest, hfurther⟩
  · rintro ⟨gap, rest, rfl, hgap, hword, hrest, rfl⟩
    rw [words_blank_append hgap, words_word_append hword hrest]

/-- The first word behind white space, where white space or nothing follows it. -/
theorem firstWord?_append {word rest : List Char} (hne : word ≠ [])
    (hword : ∀ c ∈ word, isBlank c = false) (hrest : ∀ c ∈ rest.head?, isBlank c = true) :
    firstWord? (word ++ rest) = some word := by
  rw [firstWord?, words_word_append ⟨hne, hword⟩ hrest]
  rfl

/-- White space in front makes no difference to the first word. -/
theorem firstWord?_cons {c : Char} (hc : isBlank c = true) (text : List Char) :
    firstWord? (c :: text) = firstWord? text := by
  rw [firstWord?, ← List.nil_append (c :: text), words_append_cons hc]
  rfl

end KernelTables
