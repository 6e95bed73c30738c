import KernelTables.Toml.Value

/-!
# What a TOML document may add to its tables

Every line of a document puts a value or a table at the end of a path of keys.  The tables on the
way are made where they are missing.

* A header's path may pass through any table that can grow, and through the last table of an array
  opened by headers.
* A dotted key's path may not pass through a table that has a header, and the table it ends in has
  to be one that dotted keys made.
* No key is given twice, but a header may take over a table that was only implied so far.
-/

namespace KernelTables.Toml

/-- Changes what stands under a key, or adds it at the end. -/
def alterKey (key : String) (change : Option Value → Option Value) : Entries → Option Entries
  | [] => (change none).map fun value => [(key, value)]
  | (other, value) :: rest =>
    if other = key then (change (some value)).map fun value => (key, value) :: rest
    else (alterKey key change rest).map ((other, value) :: ·)

/-- Changes the table at the end of a path.  The change is told how that table came to be. -/
def descend (dotted : Bool) (change : Origin → Entries → Option Entries) :
    List String → Origin → Entries → Option Entries
  | [], origin, entries => change origin entries
  | key :: path, _, entries =>
    alterKey key (fun
      | none =>
        let origin : Origin := if dotted then .dotted else .implied
        (descend dotted change path origin []).map (.table origin)
      | some (.table origin entries) =>
        if origin = .inline ∨ (dotted ∧ origin = .header) then none
        else (descend dotted change path origin entries).map (.table origin)
      | some (.array false items) =>
        match items.getLast? with
        | some (.table origin entries) =>
          (descend dotted change path origin entries).map fun entries =>
            .array false (items.dropLast ++ [.table origin entries])
        | _ => none
      | some _ => none) entries

/-- Puts a value under a key that is not taken. -/
def addNew (key : String) (value : Value) : Entries → Option Entries :=
  alterKey key fun
    | none => some value
    | some _ => none

/-- Puts a value at the end of a path with dots, from a table that came to be by `origin`. -/
def addDotted (path : List String) (key : String) (value : Value) (origin : Origin)
    (entries : Entries) : Option Entries :=
  descend true (fun origin entries =>
    if (origin = .dotted) = (path ≠ []) then addNew key value entries else none) path origin entries

/-- Opens the table that a header names. -/
def openTable (path : List String) (key : String) (entries : Entries) : Option Entries :=
  descend false (fun _ => alterKey key fun
    | none => some (.table .header [])
    | some (.table .implied entries) => some (.table .header entries)
    | some _ => none) path .header entries

/-- Opens one more table of the array that a header names. -/
def openArrayTable (path : List String) (key : String) (entries : Entries) : Option Entries :=
  descend false (fun _ => alterKey key fun
    | none => some (.array false [.table .header []])
    | some (.array false items) => some (.array false (items ++ [.table .header []]))
    | some _ => none) path .header entries

end KernelTables.Toml
