import KernelTables.Text.Numeral
import KernelTables.Text.Utf8.RoundTrip

/-!
# Written numerals are read back

A number written in a base up to sixteen is read back as it was (`natural?_toDigits`), and so are
the ids of processes, whose sign is written too (`int32?_signedDecimal`).  Since reading undoes
writing, two numbers with one numeral are one number.
-/

namespace KernelTables.Numeral

/-! ## Digits -/

theorem digitValue_digitChar : ∀ d < 16, digitValue (Nat.digitChar d) = some d := by
  decide

theorem digitOf_digitChar {base d : Nat} (h : d < base) (hb : base ≤ 16) :
    digitOf base (Nat.digitChar d) = some d := by
  rw [digitOf, digitValue_digitChar d (by omega)]
  simp [h]

/-! ## Natural numbers -/

theorem foldlM_toDigits {base : Nat} (h₁ : 1 < base) (h₂ : base ≤ 16) (n : Nat) :
    (Nat.toDigits base n).foldlM
      (fun value c => (digitOf base c).map (value * base + ·)) 0 = some n := by
  induction n using Nat.strongRecOn with
  | ind n ih =>
    rw [Nat.toDigits_eq_if h₁]
    split
    next h => simp [digitOf_digitChar h h₂]
    next h =>
      have hlt : n / base < n := Nat.div_lt_self (by omega) h₁
      rw [List.foldlM_append, ih _ hlt]
      simp [digitOf_digitChar (Nat.mod_lt n (by omega : 0 < base)) h₂]
      exact Nat.div_add_mod' n base

/-- A number that was written is read back. -/
theorem natural?_toDigits {base : Nat} (h₁ : 1 < base) (h₂ : base ≤ 16) (n : Nat) :
    natural? base (Nat.toDigits base n) = some n := by
  rw [natural?, foldlM_toDigits h₁ h₂]
  simp [Nat.toDigits_ne_nil]

/-- A numeral begins with no sign. -/
theorem head_toDigits_ne {base : Nat} (h₁ : 1 < base) (h₂ : base ≤ 16) (n : Nat) {c : Char}
    (hc : digitOf base c = none) (rest : List Char) : Nat.toDigits base n ≠ c :: rest := by
  intro h
  have hn := natural?_toDigits h₁ h₂ n
  rw [h, natural?] at hn
  simp [hc] at hn

theorem dropPlus_toDigits {base : Nat} (h₁ : 1 < base) (h₂ : base ≤ 16) (n : Nat) :
    dropPlus (Nat.toDigits base n) = Nat.toDigits base n := by
  have hc : digitOf base '+' = none := by simp [digitOf, digitValue]
  unfold dropPlus
  split
  next digits h => exact absurd h (head_toDigits_ne h₁ h₂ n hc digits)
  next => rfl

/-- A number below the bound is read back. -/
theorem below?_toDigits {bound base n : Nat} (h₁ : 1 < base) (h₂ : base ≤ 16) (h : n < bound) :
    below? bound base (Nat.toDigits base n) = some n := by
  rw [below?, dropPlus_toDigits h₁ h₂, natural?_toDigits h₁ h₂]
  simp [h]

/-! ## Words -/

theorem uint32?_toDigits (n : UInt32) : uint32? (Nat.toDigits 10 n.toNat) = some n := by
  rw [uint32?, below?_toDigits (by omega) (by omega) n.toNat_lt]
  simp

/-- The characters of a numeral with a sign. -/
def signedDigits : Int → List Char
  | .ofNat n => Nat.toDigits 10 n
  | .negSucc n => '-' :: Nat.toDigits 10 (n + 1)

theorem signedDecimal_eq (i : Int) : signedDecimal i = encode (signedDigits i) := by
  cases i with
  | ofNat n => rfl
  | negSucc n => rfl

theorem int32?_signedDigits (i : Int32) : int32? (signedDigits i.toInt) = some i := by
  have h₁ := i.toInt_lt
  have h₂ := i.le_toInt
  have hi : Int32.ofInt i.toInt = i := Int32.ofInt_toInt i
  generalize i.toInt = k at h₁ h₂ hi
  subst hi
  cases k with
  | ofNat n =>
    rw [Int.ofNat_eq_natCast] at h₁
    have hc : digitOf 10 '-' = none := by decide
    rw [signedDigits, int32?]
    · rw [below?_toDigits (by omega) (by omega) (by rw [leastInt32]; omega)]
      rfl
    · exact head_toDigits_ne (by omega) (by omega) n hc
  | negSucc n =>
    rw [signedDigits, int32?, natural?_toDigits (by omega) (by omega)]
    rw [Option.filter_some, if_pos (by simp [leastInt32]; omega), Option.map_some]
    rfl

example : int32? "-2147483648".toList = some (-2147483648) := by decide

/-- An id that was written is read back. -/
theorem int32?_signedDecimal (i : Int32) :
    (decode? (signedDecimal i.toInt)).bind int32? = some i := by
  rw [signedDecimal_eq, decode?_encode, Option.bind_some, int32?_signedDigits]

/-- A descriptor's number that was written is read back. -/
theorem uint32?_decimal (n : UInt32) : (decode? (decimal n.toNat)).bind uint32? = some n := by
  rw [decimal, decode?_encode, Option.bind_some, uint32?_toDigits]

end KernelTables.Numeral
