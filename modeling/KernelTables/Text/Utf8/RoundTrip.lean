import KernelTables.Text.Utf8

/-!
# Written text is read back

`encode` and `decode?` belong together: every text that is written as UTF-8 is read back as it was
(`decode?_encode`), also where other bytes follow it (`pieces_encode_append`).  The proof goes
character by character.  A character of two, three or four bytes takes the reading machine through
as many steps (`run_two`, `run_three`, `run_four`), and the bounds on the second byte are exactly
those that a scalar value keeps (`run_encodeChar`).
-/

namespace KernelTables

namespace Utf8

/-! ## Single steps of the machine -/

@[simp] theorem run_cons (pending? : Option Pending) (b : UInt8) (bs : Bytes) :
    run pending? (b :: bs) = (step pending? b).1 ++ run (step pending? b).2 bs := by
  cases pending? <;> rfl

theorem Lead.of_single {b : UInt8} (h : b.toNat < 0x80) :
    Lead.of b = .single (Char.ofNat b.toNat) := by
  rw [Lead.of, if_pos (UInt8.lt_iff_toNat_lt.mpr h)]

theorem Lead.of_two {b : UInt8} (h₁ : 0xC2 ≤ b.toNat) (h₂ : b.toNat < 0xE0) :
    Lead.of b = .opens ⟨b.toNat - 0xC0, 0, 0x80, 0xBF⟩ := by
  simp only [Lead.of, UInt8.lt_iff_toNat_lt, UInt8.reduceToNat]
  rw [if_neg (by omega), if_neg (by omega), if_pos h₂]

theorem Lead.of_three {b : UInt8} (h₁ : 0xE0 ≤ b.toNat) (h₂ : b.toNat < 0xF0) :
    Lead.of b = .opens ⟨b.toNat - 0xE0, 1, if b = 0xE0 then 0xA0 else 0x80,
      if b = 0xED then 0x9F else 0xBF⟩ := by
  simp only [Lead.of, UInt8.lt_iff_toNat_lt, UInt8.reduceToNat]
  rw [if_neg (by omega), if_neg (by omega), if_neg (by omega), if_pos h₂]

theorem Lead.of_four {b : UInt8} (h₁ : 0xF0 ≤ b.toNat) (h₂ : b.toNat < 0xF5) :
    Lead.of b = .opens ⟨b.toNat - 0xF0, 2, if b = 0xF0 then 0x90 else 0x80,
      if b = 0xF4 then 0x8F else 0xBF⟩ := by
  simp only [Lead.of, UInt8.lt_iff_toNat_lt, UInt8.reduceToNat]
  rw [if_neg (by omega), if_neg (by omega), if_neg (by omega), if_neg (by omega), if_pos h₂]

theorem step_last {value : Nat} {low high b : UInt8} (h₁ : low.toNat ≤ b.toNat)
    (h₂ : b.toNat ≤ high.toNat) :
    step (some ⟨value, 0, low, high⟩) b =
      ([some (Char.ofNat (value * 64 + (b.toNat - 0x80)))], none) := by
  simp only [step]
  rw [if_pos ⟨UInt8.le_iff_toNat_le.mpr h₁, UInt8.le_iff_toNat_le.mpr h₂⟩]

theorem step_more {value more : Nat} {low high b : UInt8} (h₁ : low.toNat ≤ b.toNat)
    (h₂ : b.toNat ≤ high.toNat) :
    step (some ⟨value, more + 1, low, high⟩) b =
      ([], some ⟨value * 64 + (b.toNat - 0x80), more, 0x80, 0xBF⟩) := by
  simp only [step]
  rw [if_pos ⟨UInt8.le_iff_toNat_le.mpr h₁, UInt8.le_iff_toNat_le.mpr h₂⟩]

theorem toNat_ofNat_lt {n : Nat} (h : n < 256) : (UInt8.ofNat n).toNat = n := by
  rw [UInt8.toNat_ofNat']
  exact Nat.mod_eq_of_lt h

/-- A condition on a byte and one on its number pick the same alternative. -/
theorem toNat_ite {b k x y : UInt8} :
    (if b = k then x else y).toNat = if b.toNat = k.toNat then x.toNat else y.toNat := by
  by_cases h : b = k
  · rw [if_pos h, if_pos (congrArg UInt8.toNat h)]
  · rw [if_neg h, if_neg (fun h' => h (UInt8.toNat_inj.mp h'))]

theorem start_two {a : UInt8} (h₁ : 0xC2 ≤ a.toNat) (h₂ : a.toNat < 0xE0) :
    step none a = ([], some ⟨a.toNat - 0xC0, 0, 0x80, 0xBF⟩) := by
  rw [step.eq_def, start, Lead.of_two h₁ h₂]

theorem start_three {a : UInt8} (h₁ : 0xE0 ≤ a.toNat) (h₂ : a.toNat < 0xF0) :
    step none a = ([], some ⟨a.toNat - 0xE0, 1, if a = 0xE0 then 0xA0 else 0x80,
      if a = 0xED then 0x9F else 0xBF⟩) := by
  rw [step.eq_def, start, Lead.of_three h₁ h₂]

theorem start_four {a : UInt8} (h₁ : 0xF0 ≤ a.toNat) (h₂ : a.toNat < 0xF5) :
    step none a = ([], some ⟨a.toNat - 0xF0, 2, if a = 0xF0 then 0x90 else 0x80,
      if a = 0xF4 then 0x8F else 0xBF⟩) := by
  rw [step.eq_def, start, Lead.of_four h₁ h₂]

/-- Whether a byte continues a character in any place but the second. -/
def IsTail (b : UInt8) : Prop := 0x80 ≤ b.toNat ∧ b.toNat ≤ 0xBF

theorem step_tail_last {value : Nat} {b : UInt8} (h : IsTail b) :
    step (some ⟨value, 0, 0x80, 0xBF⟩) b =
      ([some (Char.ofNat (value * 64 + (b.toNat - 0x80)))], none) :=
  @step_last value 0x80 0xBF b h.1 h.2

theorem step_tail_more {value more : Nat} {b : UInt8} (h : IsTail b) :
    step (some ⟨value, more + 1, 0x80, 0xBF⟩) b =
      ([], some ⟨value * 64 + (b.toNat - 0x80), more, 0x80, 0xBF⟩) :=
  @step_more value more 0x80 0xBF b h.1 h.2

/-! ## Whole characters -/

theorem run_two {a b : UInt8} (ha : 0xC2 ≤ a.toNat ∧ a.toNat < 0xE0) (hb : IsTail b)
    (bs : Bytes) :
    run none (a :: b :: bs) =
      some (Char.ofNat ((a.toNat - 0xC0) * 64 + (b.toNat - 0x80))) :: run none bs := by
  simp only [run_cons, start_two ha.1 ha.2, step_tail_last hb, List.nil_append,
    List.singleton_append]

theorem run_three {a b c : UInt8} (ha : 0xE0 ≤ a.toNat ∧ a.toNat < 0xF0)
    (hb : (if a.toNat = 0xE0 then 0xA0 else 0x80) ≤ b.toNat ∧
      b.toNat ≤ if a.toNat = 0xED then 0x9F else 0xBF) (hc : IsTail c) (bs : Bytes) :
    run none (a :: b :: c :: bs) =
      some (Char.ofNat (((a.toNat - 0xE0) * 64 + (b.toNat - 0x80)) * 64 + (c.toNat - 0x80))) ::
        run none bs := by
  have hb₁ : (if a = 0xE0 then 0xA0 else 0x80 : UInt8).toNat ≤ b.toNat := by
    rw [toNat_ite]
    exact hb.1
  have hb₂ : b.toNat ≤ (if a = 0xED then 0x9F else 0xBF : UInt8).toNat := by
    rw [toNat_ite]
    exact hb.2
  simp only [run_cons, start_three ha.1 ha.2, step_more hb₁ hb₂, step_tail_last hc,
    List.nil_append, List.singleton_append]

theorem run_four {a b c d : UInt8} (ha : 0xF0 ≤ a.toNat ∧ a.toNat < 0xF5)
    (hb : (if a.toNat = 0xF0 then 0x90 else 0x80) ≤ b.toNat ∧
      b.toNat ≤ if a.toNat = 0xF4 then 0x8F else 0xBF) (hc : IsTail c) (hd : IsTail d)
    (bs : Bytes) :
    run none (a :: b :: c :: d :: bs) =
      some (Char.ofNat ((((a.toNat - 0xF0) * 64 + (b.toNat - 0x80)) * 64 + (c.toNat - 0x80)) * 64 +
        (d.toNat - 0x80))) :: run none bs := by
  have hb₁ : (if a = 0xF0 then 0x90 else 0x80 : UInt8).toNat ≤ b.toNat := by
    rw [toNat_ite]
    exact hb.1
  have hb₂ : b.toNat ≤ (if a = 0xF4 then 0x8F else 0xBF : UInt8).toNat := by
    rw [toNat_ite]
    exact hb.2
  simp only [run_cons, start_four ha.1 ha.2, step_more hb₁ hb₂, step_tail_more hc,
    step_tail_last hd, List.nil_append, List.singleton_append]

/-- A character that was written is read back. -/
theorem run_encodeChar (c : Char) (bs : Bytes) :
    run none (String.utf8EncodeChar c ++ bs) = some c :: run none bs := by
  have hc : Char.ofNat c.val.toNat = c := Char.ofNat_toNat c
  have hv : c.val.toNat < 0xD800 ∨ 0xDFFF < c.val.toNat ∧ c.val.toNat < 0x110000 := c.valid
  unfold String.utf8EncodeChar
  generalize c.val.toNat = v at hc hv ⊢
  subst hc
  have tail (n : Nat) : (UInt8.ofNat (n % 64 + 128)).toNat = n % 64 + 128 :=
    toNat_ofNat_lt (by omega)
  have isTail (n : Nat) : IsTail (UInt8.ofNat (n % 64 + 128)) := by
    rw [IsTail, tail]
    omega
  have ofNat_congr {n : Nat} (h : n = v) :
      some (Char.ofNat n) :: run none bs = some (Char.ofNat v) :: run none bs := by rw [h]
  simp only
  split
  next h =>
    have hb : (UInt8.ofNat v).toNat = v := toNat_ofNat_lt (by omega)
    rw [List.singleton_append, run_cons, step.eq_def, start, Lead.of_single (by omega), hb]
    rfl
  next h =>
  split
  next h' =>
    have ha : (UInt8.ofNat (v / 64 % 32 + 192)).toNat = v / 64 % 32 + 192 :=
      toNat_ofNat_lt (by omega)
    rw [List.cons_append, List.singleton_append, run_two (by omega) (isTail v), ha, tail]
    exact ofNat_congr (by omega)
  next h' =>
  split
  next h'' =>
    have ha : (UInt8.ofNat (v / 4096 % 16 + 224)).toNat = v / 4096 % 16 + 224 :=
      toNat_ofNat_lt (by omega)
    rw [List.cons_append, List.cons_append, List.singleton_append,
      run_three (by omega) (by rw [ha, tail]; constructor <;> split <;> omega) (isTail v), ha,
      tail, tail]
    exact ofNat_congr (by omega)
  next h'' =>
    have ha : (UInt8.ofNat (v / 262144 % 8 + 240)).toNat = v / 262144 % 8 + 240 :=
      toNat_ofNat_lt (by omega)
    rw [List.cons_append, List.cons_append, List.cons_append, List.singleton_append,
      run_four (by omega) (by rw [ha, tail]; constructor <;> split <;> omega) (isTail _)
        (isTail _), ha, tail, tail, tail]
    exact ofNat_congr (by omega)

end Utf8

/-! ## Whole texts -/

theorem pieces_encode_append (text : List Char) (bytes : Bytes) :
    pieces (encode text ++ bytes) = text.map some ++ pieces bytes := by
  induction text with
  | nil => rfl
  | cons c cs ih =>
    rw [encode_cons, List.append_assoc, pieces, Utf8.run_encodeChar, ← pieces, ih]
    rfl

theorem pieces_encode (text : List Char) : pieces (encode text) = text.map some := by
  rw [← List.append_nil (encode text), pieces_encode_append, pieces_nil, List.append_nil]

theorem mapM_id_map_some {α : Type} (xs : List α) : (xs.map some).mapM id = some xs := by
  induction xs with
  | nil => rfl
  | cons x xs ih => rw [List.map_cons, List.mapM_cons, ih]; rfl

/-- Text that was written is read back. -/
@[simp] theorem decode?_encode (text : List Char) : decode? (encode text) = some text := by
  rw [decode?, pieces_encode, mapM_id_map_some]

/-- Two texts with the same bytes are the same. -/
theorem encode_injective : Function.Injective encode := by
  intro xs ys h
  have hdecode := congrArg decode? h
  rw [decode?_encode, decode?_encode] at hdecode
  exact Option.some.inj hdecode

end KernelTables
