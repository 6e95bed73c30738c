import KernelTables.Text.Blank
import KernelTables.Text.Numeral
import KernelTables.Toml.Value

/-!
# Unquoted TOML scalars

Numbers, truth values, dates and times.  Digits may be grouped by single underscores; a decimal
number has no needless leading zero; the prefixes `0x`, `0o` and `0b` take no sign.  A time may
leave out its seconds.

Grouped digits are looked at more closely only when their value is asked for.  Until then it is
enough that a digit, of base sixteen at most, stands on either side of each underscore, and behind a
prefix there need not be any.
-/

namespace KernelTables.Toml

/-! ## Numbers -/

/-- Digits of a base without the underscores between them. -/
def digits? (base : Nat) (text : List Char) : Option (List Char) :=
  let groups := text.splitOn '_'
  if groups.all fun group => !group.isEmpty && group.all fun c => (Numeral.digitOf base c).isSome
  then some groups.flatten else none

/-- The digits of a decimal number, without a leading zero but for zero itself. -/
def decimalDigits? (text : List Char) : Option (List Char) :=
  match digits? 10 text with
  | some ('0' :: _ :: _) => none
  | digits => digits

/-- A sign, if there is one, and what follows it. -/
def sign : List Char → Option Char × List Char
  | '-' :: rest => (some '-', rest)
  | '+' :: rest => (some '+', rest)
  | rest => (none, rest)

/-- A number with its sign put back on. -/
def signed (sign : Option Char) (n : Nat) : Int := if sign = some '-' then -n else n

/-- A whole number. -/
def integer? (text : List Char) : Option Int :=
  let prefixed (base : Nat) (rest : List Char) : Option Int :=
    (digits? base rest).bind (Numeral.natural? base) |>.map Int.ofNat
  match text with
  | '0' :: 'x' :: rest => prefixed 16 rest
  | '0' :: 'o' :: rest => prefixed 8 rest
  | '0' :: 'b' :: rest => prefixed 2 rest
  | _ =>
    let (mark, rest) := sign text
    ((decimalDigits? rest).bind (Numeral.natural? 10)).map (signed mark)

/-- The exponent behind its letter. -/
def exponent? (text : List Char) : Option Int :=
  let (mark, rest) := sign text
  ((digits? 10 rest).bind (Numeral.natural? 10)).map (signed mark)

/-- A number with a fraction, an exponent or both, or one of the special values. -/
def real? (text : List Char) : Option Real := do
  let (mark, rest) := sign text
  if rest = "inf".toList then return .infinite
  if rest = "nan".toList then return .nan
  let (mantissa, tail) := rest.span fun c => c != 'e' && c != 'E'
  let exponent ← match tail with
    | [] => some 0
    | _ :: tail => exponent? tail
  let negative := mark == some '-'
  match cutAt? '.' mantissa with
  | some (whole, fraction) =>
    let whole ← decimalDigits? whole
    let fraction ← digits? 10 fraction
    return .finite negative (← Numeral.natural? 10 (whole ++ fraction)) (exponent - fraction.length)
  | none =>
    if tail.isEmpty then none
    else
      let whole ← decimalDigits? mantissa
      return .finite negative (← Numeral.natural? 10 whole) exponent

/-! ## What passes for a whole number -/

/-- Whether a character is a digit of some base up to sixteen. -/
def isAnyDigit (c : Char) : Bool := (Numeral.digitOf 16 c).isSome

/-- Whether groups behind an underscore keep a digit on either side of each underscore. -/
def isGrouped : List (List Char) → Bool
  | [] => true
  | [group] => group.head?.any isAnyDigit
  | group :: groups =>
    group.head?.any isAnyDigit && group.getLast?.any isAnyDigit && isGrouped groups

/-- Whether a text begins like a whole number with groups of digits, or is a lone prefix.  A space, a
point or the letter of an exponent would make it something else. -/
def resemblesInteger (text : List Char) : Bool :=
  if text = ['0', 'x'] || text = ['0', 'o'] || text = ['0', 'b'] then true
  else
    let (digits, tail) := (sign text).2.span Char.isDigit
    match tail with
    | '_' :: groups =>
      digits.head?.any (· != '0') &&
        groups.all (fun c => c != ' ' && c != '.' && c != 'e' && c != 'E') &&
        isGrouped (groups.splitOn '_')
    | _ => false

example : resemblesInteger "1_f:5".toList ∧ resemblesInteger "-1_c_0".toList ∧
    ¬ resemblesInteger "1__a".toList ∧ ¬ resemblesInteger "1_g".toList ∧
    ¬ resemblesInteger "01_a".toList ∧ ¬ resemblesInteger "-_1".toList := by decide +kernel

/-! ## Dates and times -/

/-- Exactly `count` digits and what follows them. -/
def fixedDigits? (count : Nat) (text : List Char) : Option (Nat × List Char) :=
  let digits := text.take count
  if digits.length = count ∧ digits.all Char.isDigit then
    (Numeral.natural? 10 digits).map (·, text.drop count)
  else none

/-- What follows a character that has to come first. -/
def after? (c : Char) : List Char → Option (List Char)
  | d :: rest => if d = c then some rest else none
  | [] => none

/-- The number of days of a month. -/
def daysIn (year month : Nat) : Nat :=
  if month = 2 then
    if year % 4 = 0 ∧ (year % 100 ≠ 0 ∨ year % 400 = 0) then 29 else 28
  else if month = 4 ∨ month = 6 ∨ month = 9 ∨ month = 11 then 30
  else 31

/-- What follows a date. -/
def date? (text : List Char) : Option (List Char) := do
  let (year, rest) ← fixedDigits? 4 text
  let (month, rest) ← fixedDigits? 2 (← after? '-' rest)
  let (day, rest) ← fixedDigits? 2 (← after? '-' rest)
  if 1 ≤ month ∧ month ≤ 12 ∧ 1 ≤ day ∧ day ≤ daysIn year month then some rest else none

/-- What follows the fraction of a second, if there is one. -/
def fraction? : List Char → Option (List Char)
  | '.' :: rest =>
    if (rest.head?.map Char.isDigit).getD false then some (rest.dropWhile Char.isDigit) else none
  | rest => some rest

/-- What follows a time.  A minute may have a leap second. -/
def time? (text : List Char) : Option (List Char) := do
  let (hour, rest) ← fixedDigits? 2 text
  let (minute, rest) ← fixedDigits? 2 (← after? ':' rest)
  if 23 < hour ∨ 59 < minute then none
  else
    match rest with
    | ':' :: rest =>
      let (second, rest) ← fixedDigits? 2 rest
      if 60 < second then none else fraction? rest
    | rest => some rest

/-- What follows an offset from universal time, of less than a day. -/
def offset? : List Char → Option (List Char)
  | 'Z' :: rest | 'z' :: rest => some rest
  | '+' :: rest | '-' :: rest => do
    let (hours, rest) ← fixedDigits? 2 rest
    let (minutes, rest) ← fixedDigits? 2 (← after? ':' rest)
    if 23 < hours ∨ 59 < minutes then none else some rest
  | _ => none

/-- Whether a text is a time, a date, or a date and a time with or without an offset. -/
def isDatetime (text : List Char) : Bool :=
  match date? text with
  | none => time? text == some []
  | some [] => true
  | some (delimiter :: rest) =>
    (delimiter == 'T' || delimiter == 't' || delimiter == ' ') &&
      match time? rest with
      | none => false
      | some [] => true
      | some rest => offset? rest == some []

/-! ## Scalars -/

/-- The value of a text that stands without quotes. -/
def scalar? (text : List Char) : Option Value :=
  if text = "true".toList then some (.boolean true)
  else if text = "false".toList then some (.boolean false)
  else if isDatetime text then some (.datetime (String.ofList text))
  else
    ((integer? text).map .integer).or (((real? text).map .real).or
      (if resemblesInteger text then some .malformed else none))

/-- Whether a character may separate words on a line. -/
def isSpace (c : Char) : Bool := c == ' ' || c == '\t'

/-- Whether a character ends an unquoted scalar. -/
def endsScalar (c : Char) : Bool :=
  c == '=' || c == ',' || c == '[' || c == ']' || c == '\x7b' || c == '\x7d' || c == '#' ||
    c == '\r' || c == '\n'

/-- Whether a character may begin a further word of an unquoted scalar. -/
def beginsWord (c : Char) : Bool := !endsScalar c && c != '.' && c != '"' && c != '\''

/-- Takes an unquoted scalar off the front of a text: a word, and the words that follow it over
spaces. -/
def takeScalar : List Char → List Char × List Char
  | [] => ([], [])
  | c :: rest =>
    if endsScalar c || (isSpace c && !(rest.dropWhile isSpace).head?.any beginsWord) then
      ([], c :: rest)
    else
      let (text, rest) := takeScalar rest
      (c :: text, rest)

end KernelTables.Toml
