import KernelTables.Toml.Quoted
import KernelTables.Toml.Scalar
import KernelTables.Toml.Table

/-!
# TOML documents

A document is a sequence of lines, each of them blank, a header or a key with its value, and each
with room for a comment at its end.  Values may be nested, in brackets and braces, as deeply as
`depthLimit`, and may run over lines there.  Reading yields the document's table or nothing: a
document with one fault says nothing at all.
-/

namespace KernelTables.Toml

/-- How deeply brackets and braces may be nested, and how many keys a path may have. -/
def depthLimit : Nat := 80

/-- A reader of text: it takes something off the front or fails. -/
abbrev Reader (α : Type) := StateT (List Char) Option α

/-! ## Characters -/

/-- Takes the spaces off the front. -/
def spaces : Reader Unit := modify (·.dropWhile isSpace)

/-- Takes a character off the front if it is there. -/
def accept (c : Char) : Reader Bool := fun
  | d :: rest => if d = c then some (true, rest) else some (false, d :: rest)
  | [] => some (false, [])

/-- Takes a character off the front that has to be there. -/
def expect (c : Char) : Reader Unit := do if !(← accept c) then failure

/-- What follows spaces, newlines and comments. -/
def dropLayout (inComment : Bool) : List Char → List Char
  | '\r' :: '\n' :: rest => dropLayout false rest
  | c :: rest =>
    if c = '\n' then dropLayout false rest
    else if inComment then if isLineChar c then dropLayout true rest else c :: rest
    else if isSpace c then dropLayout false rest
    else if c = '#' then dropLayout true rest
    else c :: rest
  | [] => []

/-- Takes spaces, newlines and comments off the front. -/
def layout : Reader Unit := modify (dropLayout false)

/-- Takes the end of a line off the front: spaces, perhaps a comment, and a newline or the end of
the document. -/
def lineEnd : Reader Unit := do
  spaces
  if ← accept '#' then modify (·.dropWhile isLineChar)
  match ← get with
  | '\r' :: '\n' :: rest => set rest
  | '\n' :: rest => set rest
  | [] => pure ()
  | _ => failure

/-! ## Keys -/

/-- The characters of keys without quotes. -/
def isKeyChar (c : Char) : Bool := c.isAlphanum || c == '_' || c == '-'

/-- One key, bare or quoted on one line. -/
def key : Reader String := fun
  | '"' :: rest => (basic rest).map fun (text, rest) => (String.ofList text, rest)
  | '\'' :: rest => (literal rest).map fun (text, rest) => (String.ofList text, rest)
  | text =>
    match text.span isKeyChar with
    | ([], _) => none
    | (name, rest) => some (String.ofList name, rest)

/-- At most `limit` keys with dots between them, and spaces around the dots: those before the last,
and the last. -/
def keyPath : Nat → Reader (List String × String)
  | 0 => failure
  | limit + 1 => do
    spaces
    let first ← key
    spaces
    if ← accept '.' then
      let (path, last) ← keyPath limit
      return (first :: path, last)
    else return ([], first)

/-- A path of keys. -/
def path : Reader (List String × String) := keyPath depthLimit

/-! ## Values -/

/-- The rest of an array, whose items `item` reads. -/
def arrayItems (item : Reader Value) : Nat → Reader (List Value)
  | 0 => failure
  | fuel + 1 => do
    layout
    if ← accept ']' then return []
    let first ← item
    layout
    if ← accept ',' then return first :: (← arrayItems item fuel)
    expect ']'
    return [first]

/-- The rest of a table between braces, added to what it holds already. -/
def tableItems (item : Reader Value) : Nat → Entries → Reader Entries
  | 0, _ => failure
  | fuel + 1, entries => do
    layout
    if ← accept '\x7d' then return entries
    let (keys, last) ← path
    layout
    expect '='
    layout
    let value ← item
    let entries ← (addDotted keys last value .inline entries : Option Entries)
    layout
    if ← accept ',' then tableItems item fuel entries
    else
      expect '\x7d'
      return entries

/-- A string, or a value without quotes. -/
def leaf : Reader Value := fun text =>
  match text with
  | '"' :: _ | '\'' :: _ =>
    (takeQuoted text).map fun (text, rest) => (.string (String.ofList text), rest)
  | _ =>
    let (word, rest) := takeScalar text
    (scalar? word).map (·, rest)

/-- A value nested no deeper than `depth`. -/
def value : Nat → Reader Value
  | 0 => leaf
  | depth + 1 => do
    match ← get with
    | '[' :: rest =>
      set rest
      return .array true (← arrayItems (value depth) (rest.length + 1))
    | '\x7b' :: rest =>
      set rest
      return .table .inline (← tableItems (value depth) (rest.length + 1) [])
    | _ => leaf

/-! ## Lines -/

/-- What has been read of a document: its table, and the path of the table that the last header
opened. -/
structure Draft where
  /-- Everything said so far. -/
  entries : Entries := []
  /-- Where keys without a header of their own go. -/
  current : List String := []

/-- One line of a document. -/
def line (draft : Draft) : Reader Draft := do
  spaces
  match ← get with
  | [] | '#' :: _ | '\n' :: _ | '\r' :: _ =>
    lineEnd
    return draft
  | '[' :: '[' :: rest =>
    set rest
    let (keys, last) ← path
    expect ']'
    expect ']'
    lineEnd
    let entries ← (openArrayTable keys last draft.entries : Option Entries)
    return ⟨entries, keys ++ [last]⟩
  | '[' :: rest =>
    set rest
    let (keys, last) ← path
    expect ']'
    lineEnd
    let entries ← (openTable keys last draft.entries : Option Entries)
    return ⟨entries, keys ++ [last]⟩
  | _ =>
    let (keys, last) ← path
    expect '='
    spaces
    let value ← value depthLimit
    lineEnd
    let entries ← (descend false (addDotted keys last value) draft.current .header draft.entries :
      Option Entries)
    return { draft with entries }

/-- All lines of a document; `fuel` bounds their number. -/
def linesFrom (draft : Draft) : Nat → Reader Draft
  | 0 => failure
  | fuel + 1 => do
    let draft ← line draft
    if (← get).isEmpty then return draft else linesFrom draft fuel

/-- Reads a document.  A byte-order mark may stand before it. -/
def parse? (text : List Char) : Option Entries :=
  let text := match text with
    | '\uFEFF' :: rest => rest
    | text => text
  ((linesFrom {} (text.length + 1)).run text).map (·.1.entries)

end KernelTables.Toml
