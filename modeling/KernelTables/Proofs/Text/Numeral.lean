import Mathlib.Data.List.Forall2
import Mathlib.Data.Nat.Digits.Defs
import Mathlib.Tactic.Ring
import KernelTables.Text.Blank
import KernelTables.Text.Numeral.RoundTrip
import KernelTables.Proofs.Text.Utf8

/-!
# What a numeral is

A written numeral is made of digits (`isSome_digitOf_of_mem_toDigits`), so it can be told apart
from any separator around it, and it takes no more bytes than the bound of its word says
(`length_decimal_le`, `length_hex_le`).  What is read as a number are digits of either case
(`natural?_eq_some_iff`), for a word also behind a plus sign (`uint64?_eq_some_iff`).  Numerals that
carry a mark or a sign are read back by `prefixedHex?` and `signedHex?`.
-/

namespace KernelTables

/-- The characters of an ASCII text take a byte each. -/
theorem length_encode_of_ascii {text : List Char} (h : ∀ c ∈ text, c.toNat < 0x80) :
    (encode text).length = text.length := by
  induction text with
  | nil => rfl
  | cons c cs ih =>
    have hc : c.utf8Size = 1 := by
      rw [Char.utf8Size_eq_one_iff, UInt32.le_iff_toNat_le]
      exact Nat.le_of_lt_succ (h c List.mem_cons_self)
    rw [encode_cons, List.length_append, String.length_utf8EncodeChar, hc,
      ih fun d hd => h d (List.mem_cons_of_mem c hd), List.length_cons, Nat.add_comm]

namespace Numeral

/-! ## Digits -/

theorem isSome_digitOf_of_mem_toDigits {base : Nat} (h₁ : 1 < base) (h₂ : base ≤ 16) (n : Nat) :
    ∀ c ∈ Nat.toDigits base n, (digitOf base c).isSome := by
  induction n using Nat.strongRecOn with
  | ind n ih =>
    intro c hc
    rw [Nat.toDigits_eq_if h₁] at hc
    split at hc
    next hlt =>
      rw [List.mem_singleton.mp hc, digitOf_digitChar hlt h₂]
      rfl
    next hle =>
      rcases List.mem_append.mp hc with hc | hc
      · exact ih _ (Nat.div_lt_self (by omega) h₁) c hc
      · rw [List.mem_singleton.mp hc, digitOf_digitChar (Nat.mod_lt n (by omega)) h₂]
        rfl

/-- Digits are ASCII characters from the zero on. -/
theorem toNat_of_isSome_digitOf {base : Nat} {c : Char} (h : (digitOf base c).isSome) :
    0x30 ≤ c.toNat ∧ c.toNat < 0x80 := by
  have hbounds {first last : Char} (hfirst : 0x30 ≤ first.toNat) (hlast : last.toNat < 0x80)
      (hc : first ≤ c ∧ c ≤ last) : 0x30 ≤ c.toNat ∧ c.toNat < 0x80 :=
    ⟨Nat.le_trans hfirst (UInt32.le_iff_toNat_le.mp hc.1),
      Nat.lt_of_le_of_lt (UInt32.le_iff_toNat_le.mp hc.2) hlast⟩
  cases hvalue : digitValue c with
  | none => simp [digitOf, hvalue] at h
  | some value =>
    unfold digitValue at hvalue
    split at hvalue
    next hc => exact hbounds (by decide) (by decide) hc
    split at hvalue
    next hc => exact hbounds (by decide) (by decide) hc
    split at hvalue
    next hc => exact hbounds (by decide) (by decide) hc
    next => exact absurd hvalue (by simp)

theorem isBlank_of_isSome_digitOf {base : Nat} {c : Char} (h : (digitOf base c).isSome) :
    isBlank c = false := by
  have := toNat_of_isSome_digitOf h
  simp [isBlank]
  omega

section Bytes

variable {base : Nat} (h₁ : 1 < base) (h₂ : base ≤ 16) (n : Nat)

include h₁ h₂

/-- A numeral has as many bytes as digits. -/
theorem length_encode_toDigits :
    (encode (Nat.toDigits base n)).length = (Nat.toDigits base n).length :=
  length_encode_of_ascii fun c hc =>
    (toNat_of_isSome_digitOf (isSome_digitOf_of_mem_toDigits h₁ h₂ n c hc)).2

/-- An ASCII byte that is no digit does not occur in a numeral. -/
theorem notMem_encode_toDigits {b : UInt8} (hb : b.toNat < 0x80)
    (hdigit : digitOf base (Char.ofNat b.toNat) = none) : b ∉ encode (Nat.toDigits base n) := by
  rw [mem_encode_iff hb]
  intro h
  have := isSome_digitOf_of_mem_toDigits h₁ h₂ n _ h
  simp [hdigit] at this

/-- There is no white space in a numeral. -/
theorem isBlank_of_mem_toDigits : ∀ c ∈ Nat.toDigits base n, isBlank c = false := by
  intro c hc
  exact isBlank_of_isSome_digitOf (isSome_digitOf_of_mem_toDigits h₁ h₂ n c hc)

end Bytes

theorem signedDigits_ne_nil (i : Int) : signedDigits i ≠ [] := by
  cases i with
  | ofNat n => exact Nat.toDigits_ne_nil
  | negSucc n => exact List.cons_ne_nil _ _

theorem isBlank_of_mem_signedDigits (i : Int) : ∀ c ∈ signedDigits i, isBlank c = false := by
  cases i with
  | ofNat n => exact isBlank_of_mem_toDigits (by omega) (by omega) n
  | negSucc n =>
    intro c hc
    rcases List.mem_cons.mp hc with rfl | hc
    · decide
    · exact isBlank_of_mem_toDigits (by omega) (by omega) (n + 1) c hc

/-- A marked numeral holds nothing but its mark and digits. -/
theorem notMem_prefixedHex {b : UInt8} (hb : b.toNat < 0x80)
    (hdigit : digitOf 16 (Char.ofNat b.toNat) = none) (hmark : b ∉ utf8 "0x") (n : Nat) :
    b ∉ prefixedHex n := by
  simp only [prefixedHex, List.mem_append, not_or]
  exact ⟨hmark, notMem_encode_toDigits (by omega) (by omega) n hb hdigit⟩

theorem newline_notMem_prefixedHex (n : Nat) : newline ∉ prefixedHex n :=
  notMem_prefixedHex newline_lt (by decide) (by decide) n

/-- An ASCII byte that is neither a digit nor the sign does not occur in a decimal numeral. -/
theorem notMem_decimal {b : UInt8} (hb : b.toNat < 0x80)
    (hdigit : digitOf 10 (Char.ofNat b.toNat) = none) (n : Nat) : b ∉ decimal n :=
  notMem_encode_toDigits (by omega) (by omega) n hb hdigit

theorem notMem_signedDecimal {b : UInt8} (hb : b.toNat < 0x80)
    (hdigit : digitOf 10 (Char.ofNat b.toNat) = none) (hsign : b ∉ utf8 "-") (i : Int) :
    b ∉ signedDecimal i := by
  cases i with
  | ofNat n => exact notMem_decimal hb hdigit n
  | negSucc n =>
    simp only [signedDecimal, List.mem_append, not_or]
    exact ⟨hsign, notMem_decimal hb hdigit (n + 1)⟩

/-! ## Widths -/

theorem length_decimal_le {n k : Nat} (hk : 0 < k) (h : n < 10 ^ k) : (decimal n).length ≤ k := by
  rw [decimal, length_encode_toDigits (by omega) (by omega)]
  exact (Nat.length_toDigits_le_iff (by omega) hk).mpr h

theorem length_hex_le {n k : Nat} (hk : 0 < k) (h : n < 16 ^ k) : (hex n).length ≤ k := by
  rw [hex, length_encode_toDigits (by omega) (by omega)]
  exact (Nat.length_toDigits_le_iff (by omega) hk).mpr h

theorem length_prefixedHex_le (n : UInt64) : (prefixedHex n.toNat).length ≤ 18 := by
  have hhex : (hex n.toNat).length ≤ 16 := length_hex_le (by omega) n.toNat_lt
  have hmark : (utf8 "0x").length = 2 := by decide
  rw [prefixedHex, List.length_append, hmark]
  omega

theorem length_decimal_uint32_le (n : UInt32) : (decimal n.toNat).length ≤ 10 := by
  have hn := n.toNat_lt
  exact length_decimal_le (by omega) (by omega)

theorem length_decimal_uint64_le (n : UInt64) : (decimal n.toNat).length ≤ 20 := by
  have hn := n.toNat_lt
  exact length_decimal_le (by omega) (by omega)

theorem length_signedDecimal_le (i : Int32) : (signedDecimal i.toInt).length ≤ 11 := by
  have hlow := i.le_toInt
  have hhigh := i.toInt_lt
  cases hi : i.toInt with
  | ofNat n =>
    rw [hi, Int.ofNat_eq_natCast] at hhigh
    have hn : (decimal n).length ≤ 10 := length_decimal_le (by omega) (by omega)
    exact Nat.le_succ_of_le hn
  | negSucc n =>
    have hn : (decimal (n + 1)).length ≤ 10 := length_decimal_le (by omega) (by omega)
    have hsign : (utf8 "-").length = 1 := by decide
    rw [signedDecimal, List.length_append, hsign]
    omega

/-! ## What is read as a number -/

/-- Whether a character is the digit of a number, a letter of either case from ten on. -/
def IsDigit (base : Nat) (c : Char) (d : Nat) : Prop :=
  d < base ∧ (c = Nat.digitChar d ∨ c = (Nat.digitChar d).toUpper)

/-- Whether a text is one digit or more, and a number is what they stand for. -/
def IsNumeral (base : Nat) (digits : List Char) (n : Nat) : Prop :=
  digits ≠ [] ∧ ∃ ds, List.Forall₂ (IsDigit base) digits ds ∧ n = Nat.ofDigits base ds.reverse

theorem digitValue_upper : ∀ d < 16, digitValue (Nat.digitChar d).toUpper = some d := by
  decide

theorem digitChar_of_digitValue : ∀ n < 0x80, ∀ d ∈ digitValue (Char.ofNat n), d < 16 →
    Char.ofNat n = Nat.digitChar d ∨ Char.ofNat n = (Nat.digitChar d).toUpper := by
  decide

theorem digitOf_eq_some_iff {base : Nat} (hbase : base ≤ 16) {c : Char} {d : Nat} :
    digitOf base c = some d ↔ IsDigit base c d := by
  constructor
  · intro h
    have hsome : (digitOf base c).isSome := by rw [h, Option.isSome_some]
    obtain ⟨-, hlt⟩ := toNat_of_isSome_digitOf hsome
    obtain ⟨hvalue, hd⟩ := Option.filter_eq_some_iff.mp h
    have hd : d < base := by simpa using hd
    have hcases := digitChar_of_digitValue c.toNat hlt d
      (by rw [Char.ofNat_toNat]; exact hvalue) (by omega)
    rw [Char.ofNat_toNat] at hcases
    exact ⟨hd, hcases⟩
  · rintro ⟨hd, rfl | rfl⟩
    · exact digitOf_digitChar hd hbase
    · rw [digitOf, digitValue_upper d (by omega)]
      simp [hd]

theorem foldlM_eq_some_iff {base : Nat} (hbase : base ≤ 16) {digits : List Char} {value n : Nat} :
    digits.foldlM (fun value c => (digitOf base c).map (value * base + ·)) value = some n ↔
      ∃ ds, List.Forall₂ (IsDigit base) digits ds ∧
        n = value * base ^ digits.length + Nat.ofDigits base ds.reverse := by
  induction digits generalizing value with
  | nil =>
    simp only [List.forall₂_nil_left_iff, List.foldlM_nil, Option.pure_def, Option.some.injEq]
    simp [eq_comm]
  | cons c digits ih =>
    -- the value of the first digits is that of one more
    have hvalue {d : Nat} {ds : List Nat} (hlength : digits.length = ds.length) :
        (value * base + d) * base ^ digits.length + Nat.ofDigits base ds.reverse =
          value * base ^ (c :: digits).length + Nat.ofDigits base (d :: ds).reverse := by
      rw [List.reverse_cons, Nat.ofDigits_append, Nat.ofDigits_singleton, List.length_reverse,
        ← hlength, List.length_cons]
      ring
    rw [List.foldlM_cons, Option.bind_eq_bind, Option.bind_eq_some_iff]
    simp only [Option.map_eq_some_iff, digitOf_eq_some_iff hbase, ih]
    constructor
    · rintro ⟨_, ⟨d, hd, rfl⟩, ds, hds, rfl⟩
      exact ⟨d :: ds, .cons hd hds, hvalue hds.length_eq⟩
    · rintro ⟨_, hds, rfl⟩
      cases hds with
      | cons hd hds => exact ⟨_, ⟨_, hd, rfl⟩, _, hds, (hvalue hds.length_eq).symm⟩

/-- **The digits that are read** are those of a numeral. -/
theorem natural?_eq_some_iff {base : Nat} (hbase : base ≤ 16) {digits : List Char} {n : Nat} :
    natural? base digits = some n ↔ IsNumeral base digits n := by
  rw [natural?, IsNumeral]
  by_cases hempty : digits = []
  · simp [hempty]
  · rw [if_neg (by simpa using hempty), foldlM_eq_some_iff hbase]
    simp [hempty]

/-- A numeral is made of digits. -/
theorem IsNumeral.isSome_digitOf {base : Nat} (hbase : base ≤ 16) {digits : List Char} {n : Nat}
    (h : IsNumeral base digits n) : ∀ c ∈ digits, (digitOf base c).isSome := by
  obtain ⟨-, ds, hds, -⟩ := h
  induction hds with
  | nil => exact List.forall_mem_nil _
  | cons hd _ ih =>
    rw [List.forall_mem_cons, (digitOf_eq_some_iff hbase).mpr hd]
    exact ⟨rfl, ih⟩

theorem IsNumeral.notBlank {base : Nat} (hbase : base ≤ 16) {digits : List Char} {n : Nat}
    (h : IsNumeral base digits n) : ∀ c ∈ digits, isBlank c = false :=
  fun c hc => isBlank_of_isSome_digitOf (h.isSome_digitOf hbase c hc)

/-- Digits with a plus sign in front or without one. -/
def withPlus (plus : Bool) (digits : List Char) : List Char :=
  if plus = true then '+' :: digits else digits

theorem exists_eq_withPlus (text : List Char) : ∃ plus, text = withPlus plus (dropPlus text) := by
  unfold dropPlus
  split
  next digits => exact ⟨true, rfl⟩
  next => exact ⟨false, rfl⟩

section Plus

variable {base n : Nat} {digits : List Char} (hbase : base ≤ 16) (h : IsNumeral base digits n)

include hbase h

/-- A plus sign is none of the digits. -/
theorem dropPlus_withPlus (plus : Bool) : dropPlus (withPlus plus digits) = digits := by
  cases plus with
  | true => rfl
  | false =>
    rw [withPlus, if_neg (by decide)]
    unfold dropPlus
    split
    next rest =>
      have hplus : digitOf base '+' = none := by simp [digitOf, digitValue]
      exact absurd (h.isSome_digitOf hbase '+' List.mem_cons_self) (by simp [hplus])
    next => rfl

/-- Whether there is a plus sign is told by the numeral. -/
theorem withPlus_inj {plus plus' : Bool} {m : Nat} {digits' : List Char}
    (h' : IsNumeral base digits' m) (heq : withPlus plus digits = withPlus plus' digits') :
    plus = plus' ∧ digits = digits' := by
  have hdigits : digits = digits' := by
    rw [← dropPlus_withPlus hbase h plus, heq, dropPlus_withPlus hbase h' plus']
  subst hdigits
  refine ⟨?_, rfl⟩
  have hlength := congrArg List.length heq
  cases plus <;> cases plus' <;> simp [withPlus] at hlength <;> rfl

end Plus

/-- **The words that are read**: digits that stand for a number of this size, also behind a plus
sign. -/
theorem uint64?_eq_some_iff {base : Nat} (hbase : base ≤ 16) {text : List Char} {n : UInt64} :
    uint64? base text = some n ↔
      ∃ plus digits, text = withPlus plus digits ∧ IsNumeral base digits n.toNat := by
  constructor
  · intro h
    obtain ⟨m, hbelow, rfl⟩ := Option.map_eq_some_iff.mp h
    obtain ⟨hnatural, hm⟩ := Option.filter_eq_some_iff.mp hbelow
    obtain ⟨plus, hplus⟩ := exists_eq_withPlus text
    have hm : (UInt64.ofNat m).toNat = m := UInt64.toNat_ofNat_of_lt' (by simpa using hm)
    exact ⟨plus, _, hplus, hm.symm ▸ (natural?_eq_some_iff hbase).mp hnatural⟩
  · rintro ⟨plus, digits, rfl, hdigits⟩
    rw [uint64?, below?, dropPlus_withPlus hbase hdigits,
      (natural?_eq_some_iff hbase).mpr hdigits]
    simp [n.toNat_lt]

example : uint64? 16 "+fFFFffffffffffff".toList = some 0xffffffffffffffff := by decide

/-! ## Reading marked numerals -/

/-- The value of a hexadecimal numeral after the `0x` that marks one. -/
def prefixedHex? (text : Bytes) : Option Nat :=
  ((utf8 "0x").isPrefixOf? text).bind fun digits => (decode? digits).bind (natural? 16)

/-- The value of a marked hexadecimal numeral, with a minus sign before it or none. -/
def signedHex? (text : Bytes) : Option Int :=
  match (utf8 "-").isPrefixOf? text with
  | some digits => (prefixedHex? digits).map fun n : Nat => -(n : Int)
  | none => (prefixedHex? text).map fun n : Nat => (n : Int)

theorem isPrefixOf?_append {α : Type} [BEq α] [LawfulBEq α] (start rest : List α) :
    start.isPrefixOf? (start ++ rest) = some rest := by
  induction start with
  | nil => rfl
  | cons x xs ih => simp [List.isPrefixOf?, ih]

theorem prefixedHex?_prefixedHex (n : Nat) : prefixedHex? (prefixedHex n) = some n := by
  rw [prefixedHex?, prefixedHex, isPrefixOf?_append, Option.bind_some, hex, decode?_encode,
    Option.bind_some, natural?_toDigits (by omega) (by omega)]

theorem signedHex?_prefixedHex (n : Nat) : signedHex? (prefixedHex n) = some (n : Int) := by
  have hsign : (utf8 "-").isPrefixOf? (prefixedHex n) = none := by
    rw [prefixedHex]
    rfl
  rw [signedHex?, hsign]
  simp [prefixedHex?_prefixedHex]

theorem signedHex?_neg (n : Nat) :
    signedHex? (utf8 "-" ++ prefixedHex n) = some (-(n : Int)) := by
  rw [signedHex?, isPrefixOf?_append]
  simp [prefixedHex?_prefixedHex]

end Numeral

end KernelTables
