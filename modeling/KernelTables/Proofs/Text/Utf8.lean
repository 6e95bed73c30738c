import Mathlib.Data.List.ReduceOption
import KernelTables.Text.Utf8.RoundTrip

/-!
# Which byte strings are text

Reading undoes writing (`decode?_encode`); here is the other half, and what follows from both.

* `decode?_eq_some_iff` — **bytes are read as a text exactly if they are its written form.**  The
  proof takes the reading machine back from each character it has completed
  (`exists_of_run_eq_cons`) to the bytes that completed it.
* `pieces_append_cons` — an ASCII byte is a character wherever it stands, so bytes can be read in
  stretches that end at one: `isText_append_cons`.
* `mem_encode_iff` — an ASCII byte occurs in the written form of a text exactly if its character
  occurs in the text.
-/

namespace KernelTables

namespace Utf8

/-! ## What completes a character -/

/-- A character that is open at the end is never completed. -/
theorem run_some_nil (p : Pending) : run (some p) [] = [none] := rfl

/-- The last byte of an open character, if one is completed. -/
theorem exists_of_run_last {value : Nat} {low high : UInt8} {bytes : Bytes} {c : Char}
    {out : List (Option Char)} (h : run (some ⟨value, 0, low, high⟩) bytes = some c :: out) :
    ∃ b rest, bytes = b :: rest ∧ low.toNat ≤ b.toNat ∧ b.toNat ≤ high.toNat ∧
      c = Char.ofNat (value * 64 + (b.toNat - 0x80)) ∧ out = run none rest := by
  cases bytes with
  | nil => simp [run_some_nil] at h
  | cons b rest =>
    rw [run_cons, step] at h
    by_cases hb : low ≤ b ∧ b ≤ high
    · simp only [if_pos hb, List.singleton_append, List.cons.injEq, Option.some.injEq] at h
      exact ⟨b, rest, rfl, UInt8.le_iff_toNat_le.mp hb.1, UInt8.le_iff_toNat_le.mp hb.2,
        h.1.symm, h.2.symm⟩
    · simp [if_neg hb] at h

/-- The next byte of an open character that has more to come, if one is completed. -/
theorem exists_of_run_more {value more : Nat} {low high : UInt8} {bytes : Bytes} {c : Char}
    {out : List (Option Char)}
    (h : run (some ⟨value, more + 1, low, high⟩) bytes = some c :: out) :
    ∃ b rest, bytes = b :: rest ∧ low.toNat ≤ b.toNat ∧ b.toNat ≤ high.toNat ∧
      run (some ⟨value * 64 + (b.toNat - 0x80), more, 0x80, 0xBF⟩) rest = some c :: out := by
  cases bytes with
  | nil => simp [run_some_nil] at h
  | cons b rest =>
    rw [run_cons, step] at h
    by_cases hb : low ≤ b ∧ b ≤ high
    · simp only [if_pos hb, List.nil_append] at h
      exact ⟨b, rest, rfl, UInt8.le_iff_toNat_le.mp hb.1, UInt8.le_iff_toNat_le.mp hb.2, h⟩
    · simp [if_neg hb] at h

/-- The last byte of an open character is any that can continue one. -/
theorem exists_of_run_tail_last {value : Nat} {bytes : Bytes} {c : Char}
    {out : List (Option Char)} (h : run (some ⟨value, 0, 0x80, 0xBF⟩) bytes = some c :: out) :
    ∃ b rest, bytes = b :: rest ∧ IsTail b ∧
      c = Char.ofNat (value * 64 + (b.toNat - 0x80)) ∧ out = run none rest := by
  obtain ⟨b, rest, hbytes, h₁, h₂, hc, hout⟩ := exists_of_run_last h
  simp only [UInt8.reduceToNat] at h₁ h₂
  exact ⟨b, rest, hbytes, ⟨h₁, h₂⟩, hc, hout⟩

/-- So is the next one of a character that has more to come. -/
theorem exists_of_run_tail_more {value more : Nat} {bytes : Bytes} {c : Char}
    {out : List (Option Char)}
    (h : run (some ⟨value, more + 1, 0x80, 0xBF⟩) bytes = some c :: out) :
    ∃ b rest, bytes = b :: rest ∧ IsTail b ∧
      run (some ⟨value * 64 + (b.toNat - 0x80), more, 0x80, 0xBF⟩) rest = some c :: out := by
  obtain ⟨b, rest, hbytes, h₁, h₂, hrun⟩ := exists_of_run_more h
  simp only [UInt8.reduceToNat] at h₁ h₂
  exact ⟨b, rest, hbytes, ⟨h₁, h₂⟩, hrun⟩

/-! ## The bytes of a completed character -/

/-- A byte is that of a number if the number is its. -/
theorem ofNat_eq {n : Nat} {b : UInt8} (h : n = b.toNat) : UInt8.ofNat n = b := by
  rw [h, UInt8.ofNat_toNat]

/-- The written form of the character with a given number. -/
theorem encodeChar_ofNat {n : Nat} (h : n < 0xD800 ∨ 0xDFFF < n ∧ n < 0x110000) :
    String.utf8EncodeChar (Char.ofNat n) =
      if n ≤ 0x7F then [UInt8.ofNat n]
      else if n ≤ 0x7FF then [UInt8.ofNat (n / 64 % 32 + 0xC0), UInt8.ofNat (n % 64 + 0x80)]
      else if n ≤ 0xFFFF then
        [UInt8.ofNat (n / 4096 % 16 + 0xE0), UInt8.ofNat (n / 64 % 64 + 0x80),
          UInt8.ofNat (n % 64 + 0x80)]
      else
        [UInt8.ofNat (n / 262144 % 8 + 0xF0), UInt8.ofNat (n / 4096 % 64 + 0x80),
          UInt8.ofNat (n / 64 % 64 + 0x80), UInt8.ofNat (n % 64 + 0x80)] := by
  have hval : (Char.ofNat n).val.toNat = n := by
    rw [Char.ofNat, dif_pos h]
    rfl
  rw [String.utf8EncodeChar, hval]

theorem encodeChar_one {a : UInt8} (h : a.toNat < 0x80) :
    String.utf8EncodeChar (Char.ofNat a.toNat) = [a] := by
  rw [encodeChar_ofNat (by omega), if_pos (by omega), UInt8.ofNat_toNat]

theorem encodeChar_two {a b : UInt8} (ha : 0xC2 ≤ a.toNat ∧ a.toNat < 0xE0) (hb : IsTail b) :
    String.utf8EncodeChar (Char.ofNat ((a.toNat - 0xC0) * 64 + (b.toNat - 0x80))) = [a, b] := by
  obtain ⟨hb₁, hb₂⟩ := hb
  rw [encodeChar_ofNat (by omega), if_neg (by omega), if_pos (by omega),
    ofNat_eq (b := a) (by omega), ofNat_eq (b := b) (by omega)]

theorem encodeChar_three {a b c : UInt8} (ha : 0xE0 ≤ a.toNat ∧ a.toNat < 0xF0)
    (hb : (if a.toNat = 0xE0 then 0xA0 else 0x80) ≤ b.toNat ∧
      b.toNat ≤ if a.toNat = 0xED then 0x9F else 0xBF) (hc : IsTail c) :
    String.utf8EncodeChar (Char.ofNat
      (((a.toNat - 0xE0) * 64 + (b.toNat - 0x80)) * 64 + (c.toNat - 0x80))) = [a, b, c] := by
  obtain ⟨hc₁, hc₂⟩ := hc
  have hb₁ : 0x80 ≤ b.toNat := by
    have := hb.1
    split at this <;> omega
  have hb₂ : b.toNat ≤ 0xBF := by
    have := hb.2
    split at this <;> omega
  -- the bounds on the second byte shut out short characters and surrogates
  have hlow : a.toNat = 0xE0 → 0xA0 ≤ b.toNat := fun h => by simpa [h] using hb.1
  have hhigh : a.toNat = 0xED → b.toNat ≤ 0x9F := fun h => by simpa [h] using hb.2
  clear hb
  rw [encodeChar_ofNat (by omega), if_neg (by omega), if_neg (by omega), if_pos (by omega),
    ofNat_eq (b := a) (by omega), ofNat_eq (b := b) (by omega), ofNat_eq (b := c) (by omega)]

theorem encodeChar_four {a b c d : UInt8} (ha : 0xF0 ≤ a.toNat ∧ a.toNat < 0xF5)
    (hb : (if a.toNat = 0xF0 then 0x90 else 0x80) ≤ b.toNat ∧
      b.toNat ≤ if a.toNat = 0xF4 then 0x8F else 0xBF) (hc : IsTail c) (hd : IsTail d) :
    String.utf8EncodeChar (Char.ofNat
      ((((a.toNat - 0xF0) * 64 + (b.toNat - 0x80)) * 64 + (c.toNat - 0x80)) * 64 +
        (d.toNat - 0x80))) = [a, b, c, d] := by
  obtain ⟨hc₁, hc₂⟩ := hc
  obtain ⟨hd₁, hd₂⟩ := hd
  have hb₁ : 0x80 ≤ b.toNat := by
    have := hb.1
    split at this <;> omega
  have hb₂ : b.toNat ≤ 0xBF := by
    have := hb.2
    split at this <;> omega
  -- the bounds on the second byte shut out short characters and values that are too large
  have hlow : a.toNat = 0xF0 → 0x90 ≤ b.toNat := fun h => by simpa [h] using hb.1
  have hhigh : a.toNat = 0xF4 → b.toNat ≤ 0x8F := fun h => by simpa [h] using hb.2
  clear hb
  rw [encodeChar_ofNat (by omega), if_neg (by omega), if_neg (by omega), if_neg (by omega),
    ofNat_eq (b := a) (by omega), ofNat_eq (b := b) (by omega), ofNat_eq (b := c) (by omega),
    ofNat_eq (b := d) (by omega)]

/-! ## Back from a character to its bytes -/

/-- A byte below `0x80` is a character, one from `0xF5` on or among the first that continue is none,
and any other begins a longer one. -/
theorem step_none (b : UInt8) :
    (b.toNat < 0x80 ∧ step none b = ([some (Char.ofNat b.toNat)], none)) ∨
    (0xC2 ≤ b.toNat ∧ b.toNat < 0xE0) ∨ (0xE0 ≤ b.toNat ∧ b.toNat < 0xF0) ∨
    (0xF0 ≤ b.toNat ∧ b.toNat < 0xF5) ∨ step none b = ([none], none) := by
  rcases Nat.lt_or_ge b.toNat 0x80 with h₁ | h₁
  · refine Or.inl ⟨h₁, ?_⟩
    rw [step.eq_def, start, Lead.of_single h₁]
  · by_cases h₂ : 0xC2 ≤ b.toNat ∧ b.toNat < 0xF5
    · omega
    · have hlead : Lead.of b = .invalid := by
        simp only [Lead.of, UInt8.lt_iff_toNat_lt, UInt8.reduceToNat]
        by_cases h₃ : b.toNat < 0xC2
        · rw [if_neg (by omega), if_pos h₃]
        · rw [if_neg (by omega), if_neg (by omega), if_neg (by omega), if_neg (by omega),
            if_neg (by omega)]
      refine Or.inr (Or.inr (Or.inr (Or.inr ?_)))
      rw [step.eq_def, start, hlead]

/-- **What completes a character is its written form.** -/
theorem exists_of_run_eq_cons {bytes : Bytes} {c : Char} {out : List (Option Char)}
    (h : run none bytes = some c :: out) :
    ∃ rest, bytes = String.utf8EncodeChar c ++ rest ∧ out = run none rest := by
  cases bytes with
  | nil => simp [run] at h
  | cons a rest =>
    rw [run_cons] at h
    rcases step_none a with ⟨ha, hstep⟩ | ha | ha | ha | hstep
    · simp only [hstep, List.singleton_append, List.cons.injEq, Option.some.injEq] at h
      exact ⟨rest, by rw [← h.1, encodeChar_one ha]; rfl, h.2.symm⟩
    · rw [start_two ha.1 ha.2, List.nil_append] at h
      obtain ⟨b, rest, rfl, hb, hc, hout⟩ := exists_of_run_tail_last h
      exact ⟨rest, by rw [hc, encodeChar_two ha hb]; rfl, hout⟩
    · rw [start_three ha.1 ha.2, List.nil_append] at h
      obtain ⟨b, rest, rfl, hb₁, hb₂, h⟩ := exists_of_run_more h
      obtain ⟨d, rest, rfl, hd, hc, hout⟩ := exists_of_run_tail_last h
      simp only [toNat_ite, UInt8.reduceToNat] at hb₁ hb₂
      exact ⟨rest, by rw [hc, encodeChar_three ha ⟨hb₁, hb₂⟩ hd]; rfl, hout⟩
    · rw [start_four ha.1 ha.2, List.nil_append] at h
      obtain ⟨b, rest, rfl, hb₁, hb₂, h⟩ := exists_of_run_more h
      obtain ⟨d, rest, rfl, hd, h⟩ := exists_of_run_tail_more h
      obtain ⟨e, rest, rfl, he, hc, hout⟩ := exists_of_run_tail_last h
      simp only [toNat_ite, UInt8.reduceToNat] at hb₁ hb₂
      exact ⟨rest, by rw [hc, encodeChar_four ha ⟨hb₁, hb₂⟩ hd he]; rfl, hout⟩
    · simp [hstep] at h

/-! ## Stretches that end at an ASCII byte -/

/-- Whether no ASCII byte can continue what is open. -/
def Guarded (pending? : Option Pending) : Prop := ∀ p ∈ pending?, 0x80 ≤ p.low.toNat

theorem guarded_start (b : UInt8) : Guarded (start b).2 := by
  intro p hp
  change p ∈ (step none b).2 at hp
  rcases step_none b with ⟨-, hstep⟩ | hb | hb | hb | hstep
  · simp [hstep] at hp
  · rw [start_two hb.1 hb.2, Option.mem_some_iff] at hp
    simp [← hp]
  · rw [start_three hb.1 hb.2, Option.mem_some_iff] at hp
    simp only [← hp, toNat_ite, UInt8.reduceToNat]
    split <;> omega
  · rw [start_four hb.1 hb.2, Option.mem_some_iff] at hp
    simp only [← hp, toNat_ite, UInt8.reduceToNat]
    split <;> omega
  · simp [hstep] at hp

theorem guarded_step (pending? : Option Pending) (b : UInt8) : Guarded (step pending? b).2 := by
  cases pending? with
  | none => exact guarded_start b
  | some p =>
    rw [step]
    by_cases hb : p.low ≤ b ∧ b ≤ p.high
    · rw [if_pos hb]
      intro q hq
      obtain ⟨value, more, low, high⟩ := p
      cases more with
      | zero => simp at hq
      | succ more =>
        rw [Option.mem_some_iff] at hq
        simp [← hq]
    · rw [if_neg hb]
      exact guarded_start b

/-- An ASCII byte ends whatever is open before it and is a character. -/
theorem run_append_cons {pending? : Option Pending} (h : Guarded pending?) {b : UInt8}
    (hb : b.toNat < 0x80) (xs ys : Bytes) :
    run pending? (xs ++ b :: ys) =
      run pending? xs ++ some (Char.ofNat b.toNat) :: run none ys := by
  induction xs generalizing pending? with
  | nil =>
    have hstart : start b = ([some (Char.ofNat b.toNat)], none) := by
      rw [start, Lead.of_single hb]
    rw [List.nil_append, run_cons]
    cases pending? with
    | none =>
      rw [step, hstart]
      rfl
    | some p =>
      have hp : ¬(p.low ≤ b ∧ b ≤ p.high) := by
        have hlow := h p rfl
        rw [UInt8.le_iff_toNat_le]
        omega
      rw [step, if_neg hp, hstart]
      rfl
  | cons x xs ih =>
    rw [List.cons_append, run_cons, run_cons, ih (guarded_step pending? x), List.append_assoc]

/-- What is open leaves a trace. -/
theorem run_some_ne_nil (p : Pending) (bytes : Bytes) : run (some p) bytes ≠ [] := by
  induction bytes generalizing p with
  | nil => simp [run_some_nil]
  | cons b bs ih =>
    rw [run_cons, step]
    by_cases hb : p.low ≤ b ∧ b ≤ p.high
    · rw [if_pos hb]
      obtain ⟨value, more, low, high⟩ := p
      cases more with
      | zero => simp
      | succ more => exact ih _
    · simp [if_neg hb]

theorem run_none_ne_nil (b : UInt8) (bs : Bytes) : run none (b :: bs) ≠ [] := by
  rw [run_cons, step.eq_def, start]
  cases Lead.of b with
  | single c => simp
  | opens p => exact run_some_ne_nil p bs
  | invalid => simp

end Utf8

/-! ## Texts -/

theorem mapM_id_eq_some_iff {α : Type} {xs : List (Option α)} {ys : List α} :
    xs.mapM id = some ys ↔ xs = ys.map some := by
  induction xs generalizing ys with
  | nil => cases ys <;> simp
  | cons x xs ih =>
    cases x with
    | none => cases ys <;> simp
    | some x =>
      cases ys with
      | nil => cases h : xs.mapM id <;> simp [h]
      | cons y ys =>
        simp only [List.mapM_cons, List.map_cons, List.cons.injEq, Option.some.injEq, ← ih]
        cases xs.mapM id <;> simp

/-- Text that was read is written back. -/
theorem encode_of_pieces {bytes : Bytes} {text : List Char} (h : pieces bytes = text.map some) :
    bytes = encode text := by
  induction text generalizing bytes with
  | nil =>
    cases bytes with
    | nil => rfl
    | cons b bs => exact absurd h (Utf8.run_none_ne_nil b bs)
  | cons c cs ih =>
    obtain ⟨rest, rfl, hrest⟩ := Utf8.exists_of_run_eq_cons h
    rw [encode_cons, ih hrest.symm]

/-- **Bytes are read as a text exactly if they are its written form.** -/
theorem decode?_eq_some_iff {bytes : Bytes} {text : List Char} :
    decode? bytes = some text ↔ bytes = encode text := by
  constructor
  · intro h
    exact encode_of_pieces (mapM_id_eq_some_iff.mp h)
  · rintro rfl
    exact decode?_encode text

/-- Whether a byte string is text. -/
def IsText (bytes : Bytes) : Prop := ∃ text, bytes = encode text

theorem isText_iff_decode? {bytes : Bytes} : IsText bytes ↔ (decode? bytes).isSome := by
  rw [Option.isSome_iff_exists]
  exact exists_congr fun text => decode?_eq_some_iff.symm

instance (bytes : Bytes) : Decidable (IsText bytes) := decidable_of_iff _ isText_iff_decode?.symm

theorem isText_encode (text : List Char) : IsText (encode text) := ⟨text, rfl⟩

@[simp] theorem isText_nil : IsText [] := ⟨[], rfl⟩

/-- Text is what is cut into characters without a rest. -/
theorem isText_iff_pieces {bytes : Bytes} : IsText bytes ↔ none ∉ pieces bytes := by
  constructor
  · rintro ⟨text, rfl⟩
    simp [pieces_encode]
  · intro h
    refine ⟨(pieces bytes).reduceOption, encode_of_pieces ?_⟩
    generalize pieces bytes = xs at h
    induction xs with
    | nil => rfl
    | cons x xs ih =>
      cases x with
      | none => exact absurd List.mem_cons_self h
      | some c =>
        rw [List.reduceOption_cons_of_some, List.map_cons,
          ← ih fun hx => h (List.mem_cons_of_mem _ hx)]

theorem pieces_append_cons {b : UInt8} (hb : b.toNat < 0x80) (xs ys : Bytes) :
    pieces (xs ++ b :: ys) = pieces xs ++ some (Char.ofNat b.toNat) :: pieces ys :=
  Utf8.run_append_cons (fun _ h => absurd h (by simp)) hb xs ys

/-- Two stretches with an ASCII byte between them are text if each of them is. -/
theorem isText_append_cons {b : UInt8} (hb : b.toNat < 0x80) (xs ys : Bytes) :
    IsText (xs ++ b :: ys) ↔ IsText xs ∧ IsText ys := by
  simp [isText_iff_pieces, pieces_append_cons hb]

/-! ## ASCII bytes in a text -/

theorem mem_encodeChar_iff {b : UInt8} (hb : b.toNat < 0x80) (c : Char) :
    b ∈ String.utf8EncodeChar c ↔ c = Char.ofNat b.toNat := by
  have hc : Char.ofNat c.val.toNat = c := Char.ofNat_toNat c
  constructor
  · intro h
    -- the bytes of a longer character are all at least `0x80`
    have hb' : b.toNat = c.val.toNat := by
      simp only [String.utf8EncodeChar] at h
      split at h
      · rw [List.mem_singleton] at h
        rw [h, Utf8.toNat_ofNat_lt (by omega)]
      split at h
      · rcases List.mem_pair.mp h with h | h <;> rw [h, UInt8.toNat_ofNat'] at hb <;> omega
      split at h
      all_goals
        simp only [List.mem_cons, List.not_mem_nil, or_false] at h
      · rcases h with h | h | h <;> rw [h, UInt8.toNat_ofNat'] at hb <;> omega
      · rcases h with h | h | h | h <;> rw [h, UInt8.toNat_ofNat'] at hb <;> omega
    rw [hb', hc]
  · rintro rfl
    rw [Utf8.encodeChar_one hb]
    exact List.mem_singleton_self b

/-- An ASCII byte stands for its character and is part of no other. -/
theorem mem_encode_iff {b : UInt8} (hb : b.toNat < 0x80) (text : List Char) :
    b ∈ encode text ↔ Char.ofNat b.toNat ∈ text := by
  rw [encode, List.mem_flatMap]
  constructor
  · rintro ⟨c, hc, hbc⟩
    rwa [← (mem_encodeChar_iff hb c).mp hbc]
  · intro h
    exact ⟨_, h, (mem_encodeChar_iff hb _).mpr rfl⟩

/-- Every byte is the number of a character. -/
theorem toNat_ofNat_byte (b : UInt8) : (Char.ofNat b.toNat).toNat = b.toNat := by
  have hvalid : b.toNat.isValidChar := Or.inl (by have := b.toNat_lt; omega)
  rw [Char.ofNat, dif_pos hvalid]
  rfl

/-- An ASCII character is written as the byte of its number. -/
theorem encode_singleton_of_ascii {c : Char} (h : c.toNat < 0x80) :
    encode [c] = [UInt8.ofNat c.toNat] := by
  have hbyte : (UInt8.ofNat c.toNat).toNat = c.toNat :=
    UInt8.toNat_ofNat_of_lt' (by rw [UInt8.size]; omega)
  have hchar := Utf8.encodeChar_one (a := UInt8.ofNat c.toNat) (by omega)
  rw [hbyte, Char.ofNat_toNat] at hchar
  rw [encode_cons, hchar]
  rfl

theorem newline_lt : newline.toNat < 0x80 := by decide

/-! ## The lenient reader on text -/

theorem lossy_encode_append (text : List Char) (bytes : Bytes) :
    lossy (encode text ++ bytes) = text ++ lossy bytes := by
  rw [lossy, pieces_encode_append, List.map_append, List.map_map]
  exact congrArg (· ++ lossy bytes) (List.map_id text)

@[simp] theorem lossy_encode (text : List Char) : lossy (encode text) = text := by
  rw [lossy, pieces_encode, List.map_map]
  exact List.map_id text

/-- What is text is read alike by both readers. -/
theorem decode?_of_isText {bytes : Bytes} (h : IsText bytes) :
    decode? bytes = some (lossy bytes) := by
  obtain ⟨text, rfl⟩ := h
  rw [decode?_encode, lossy_encode]

theorem encode_lossy {bytes : Bytes} (h : IsText bytes) : encode (lossy bytes) = bytes := by
  obtain ⟨text, rfl⟩ := h
  rw [lossy_encode]

theorem lossy_append_cons {b : UInt8} (hb : b.toNat < 0x80) (xs ys : Bytes) :
    lossy (xs ++ b :: ys) = lossy xs ++ Char.ofNat b.toNat :: lossy ys := by
  simp [lossy, pieces_append_cons hb]

/-- An ASCII byte is in a text exactly if its character is. -/
theorem mem_lossy_iff {b : UInt8} (hb : b.toNat < 0x80) {bytes : Bytes} (h : IsText bytes) :
    Char.ofNat b.toNat ∈ lossy bytes ↔ b ∈ bytes := by
  obtain ⟨text, rfl⟩ := h
  rw [lossy_encode, mem_encode_iff hb]

end KernelTables
