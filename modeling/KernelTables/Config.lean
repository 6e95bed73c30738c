import KernelTables.Report.Task
import KernelTables.Toml.Document

/-!
# The configuration

Three sections, each with values that all have defaults.  A section may be a table or an array of
its values in the order they are declared in; a date in its place gives none of them.  Keys that
mean nothing here are passed over, but the numbers under them still have to be representable.
-/

namespace KernelTables

/-- What can be configured. -/
structure Config where
  /-- Where the process table is. -/
  procRoot : String := "/proc"
  /-- The layout of task lines. -/
  taskFormat : TaskFormat := .enriched
  /-- Whether the task report fills in values it cannot read. -/
  tasksReuse : Bool := false
  /-- Whether the report of open files does. -/
  filesReuse : Bool := false
  deriving DecidableEq, Repr

namespace Config

open Toml (Value Entries)

/-- The given fields of a section, each under its key, with `none` for one that is not given.  A
value of another kind is no section. -/
def fields? (keys : List String) : Value → Option (List (Option Value))
  | .table _ entries =>
    if (entries.filter fun (key, _) => !keys.contains key).all fun (_, value) =>
      value.isRepresentable
    then some (keys.map fun key => entries.lookup key) else none
  | .array _ items => some (keys.zipIdx.map fun (_, i) => items[i]?)
  | .datetime _ => some (keys.map fun _ => none)
  | _ => none

/-- Reads a value that may be absent. -/
def optional? {α : Type} (read : Value → Option α) (fallback : α) : Option Value → Option α
  | none => some fallback
  | some value => read value

/-- A text. -/
def string? : Value → Option String
  | .string text => some text
  | _ => none

/-- A truth value. -/
def boolean? : Value → Option Bool
  | .boolean b => some b
  | _ => none

/-- The layout of a name. -/
def formatNamed? (name : String) : Option TaskFormat :=
  if name = "basic" then some .basic
  else if name = "enriched" then some .enriched
  else none

/-- A layout: its name, or a table with its name as the only key and nothing under it. -/
def format? : Value → Option TaskFormat
  | .string name => formatNamed? name
  | .table _ [(name, .table _ [])] => formatNamed? name
  | .table _ [(name, .array _ [])] => formatNamed? name
  | _ => none

/-- What the general section says. -/
def general? (config : Config) (value : Value) : Option Config := do
  match ← fields? ["proc_root"] value with
  | [root] => return { config with procRoot := ← optional? string? config.procRoot root }
  | _ => none

/-- What the section on tasks says. -/
def tasks? (config : Config) (value : Value) : Option Config := do
  match ← fields? ["format", "reuse_stale_values"] value with
  | [format, reuse] =>
    return { config with
      taskFormat := ← optional? format? config.taskFormat format
      tasksReuse := ← optional? boolean? config.tasksReuse reuse }
  | _ => none

/-- What the section on open files says. -/
def files? (config : Config) (value : Value) : Option Config := do
  match ← fields? ["reuse_stale_values"] value with
  | [reuse] => return { config with filesReuse := ← optional? boolean? config.filesReuse reuse }
  | _ => none

/-- The configuration of a document's table. -/
def ofEntries? (entries : Entries) : Option Config := do
  match ← fields? ["general", "tasks", "files"] (.table .header entries) with
  | [general, tasks, files] =>
    let config ← optional? (general? {}) {} general
    let config ← optional? (tasks? config) config tasks
    optional? (files? config) config files
  | _ => none

/-- The configuration in a text, if it is a document whose values fit. -/
def parse? (text : List Char) : Option Config := (Toml.parse? text).bind ofEntries?

end Config

end KernelTables
