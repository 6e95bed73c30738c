import KernelTables.Text.Numeral

/-!
# Quoted TOML strings

Four kinds of quotes.  Between double quotes a backslash begins an escape; between single quotes
every character stands for itself.  Tripled quotes let a string run over lines: a newline right
after the opening is dropped, a backslash at the end of a line joins it to the next word, and up
to two quotes may stand right before the closing three.
-/

namespace KernelTables.Toml

/-- A string and what follows its closing quote. -/
abbrev Quoted := Option (List Char × List Char)

/-- Puts a character, if it is one, in front of a string. -/
def consChar (c : Option Char) (tail : Quoted) : Quoted :=
  match c, tail with
  | some c, some (text, rest) => some (c :: text, rest)
  | _, _ => none

/-- Whether a character may stand in a string on one line: all but controls, where a tab counts as
none. -/
def isLineChar (c : Char) : Bool := c == '\t' || (0x20 ≤ c.toNat && c.toNat != 0x7F)

/-- The character that an escape letter stands for. -/
def letterEscape? : Char → Option Char
  | 'b' => some '\x08'
  | 't' => some '\t'
  | 'n' => some '\n'
  | 'f' => some '\x0c'
  | 'r' => some '\r'
  | 'e' => some '\x1b'
  | '"' => some '"'
  | '\\' => some '\\'
  | _ => none

/-- The character of a number in hexadecimal digits. -/
def numberEscape? (digits : List Char) : Option Char := do
  let n ← Numeral.natural? 16 digits
  if n.isValidChar then some (Char.ofNat n) else none

/-- The rest of a string between double quotes. -/
def basic : List Char → Quoted
  | '"' :: rest => some ([], rest)
  | '\\' :: 'x' :: a :: b :: rest => consChar (numberEscape? [a, b]) (basic rest)
  | '\\' :: 'u' :: a :: b :: c :: d :: rest => consChar (numberEscape? [a, b, c, d]) (basic rest)
  | '\\' :: 'U' :: a :: b :: c :: d :: e :: f :: g :: h :: rest =>
    consChar (numberEscape? [a, b, c, d, e, f, g, h]) (basic rest)
  | '\\' :: c :: rest => consChar (letterEscape? c) (basic rest)
  | c :: rest => if isLineChar c then consChar (some c) (basic rest) else none
  | [] => none

/-- The rest of a string between single quotes. -/
def literal : List Char → Quoted
  | '\'' :: rest => some ([], rest)
  | c :: rest => if isLineChar c then consChar (some c) (literal rest) else none
  | [] => none

/-- Where a reader stands in a string that runs over lines. -/
inductive Fold
  /-- In its text. -/
  | none
  /-- Behind a backslash that has to end its line. -/
  | pending
  /-- Behind such a line, before the next word. -/
  | joined
  deriving DecidableEq, Repr

/-- The rest of a string between three double quotes. -/
def multiBasic (fold : Fold) : List Char → Quoted
  | '\r' :: '\n' :: rest =>
    if fold = .none then consChar (some '\r') (consChar (some '\n') (multiBasic .none rest))
    else multiBasic .joined rest
  | '\n' :: rest =>
    if fold = .none then consChar (some '\n') (multiBasic .none rest) else multiBasic .joined rest
  | '\t' :: rest =>
    if fold = .none then consChar (some '\t') (multiBasic .none rest) else multiBasic fold rest
  | ' ' :: rest =>
    if fold = .none then consChar (some ' ') (multiBasic .none rest) else multiBasic fold rest
  | '"' :: '"' :: '"' :: '"' :: '"' :: rest => unlessPending (some (['"', '"'], rest))
  | '"' :: '"' :: '"' :: '"' :: rest => unlessPending (some (['"'], rest))
  | '"' :: '"' :: '"' :: rest => unlessPending (some ([], rest))
  | '\\' :: 'x' :: a :: b :: rest =>
    unlessPending (consChar (numberEscape? [a, b]) (multiBasic .none rest))
  | '\\' :: 'u' :: a :: b :: c :: d :: rest =>
    unlessPending (consChar (numberEscape? [a, b, c, d]) (multiBasic .none rest))
  | '\\' :: 'U' :: a :: b :: c :: d :: e :: f :: g :: h :: rest =>
    unlessPending (consChar (numberEscape? [a, b, c, d, e, f, g, h]) (multiBasic .none rest))
  | '\\' :: '\r' :: '\n' :: rest | '\\' :: '\n' :: rest => unlessPending (multiBasic .joined rest)
  | '\\' :: ' ' :: rest | '\\' :: '\t' :: rest => unlessPending (multiBasic .pending rest)
  | '\\' :: c :: rest => unlessPending (consChar (letterEscape? c) (multiBasic .none rest))
  | c :: rest =>
    if isLineChar c then unlessPending (consChar (some c) (multiBasic .none rest)) else none
  | [] => none
where
  unlessPending (tail : Quoted) : Quoted := if fold = .pending then none else tail

/-- The rest of a string between three single quotes. -/
def multiLiteral : List Char → Quoted
  | '\'' :: '\'' :: '\'' :: '\'' :: '\'' :: rest => some (['\'', '\''], rest)
  | '\'' :: '\'' :: '\'' :: '\'' :: rest => some (['\''], rest)
  | '\'' :: '\'' :: '\'' :: rest => some ([], rest)
  | '\r' :: '\n' :: rest => consChar (some '\r') (consChar (some '\n') (multiLiteral rest))
  | '\n' :: rest => consChar (some '\n') (multiLiteral rest)
  | c :: rest => if isLineChar c then consChar (some c) (multiLiteral rest) else none
  | [] => none

/-- A text without the newline it may begin with. -/
def dropFirstNewline : List Char → List Char
  | '\r' :: '\n' :: rest => rest
  | '\n' :: rest => rest
  | rest => rest

/-- Takes a string of any kind off the front of a text. -/
def takeQuoted : List Char → Quoted
  | '"' :: '"' :: '"' :: rest => multiBasic .none (dropFirstNewline rest)
  | '\'' :: '\'' :: '\'' :: rest => multiLiteral (dropFirstNewline rest)
  | '"' :: rest => basic rest
  | '\'' :: rest => literal rest
  | _ => none

end KernelTables.Toml
