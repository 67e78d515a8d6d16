import MountFs.Config
import MountFs.Toml.Document

/-!
# Configurations from text

A configuration is written as a TOML document.  Every part may be left out and then
has its default, except that a mount needs a path and a name.  Keys that are not
known are ignored.

A record is written as a table.  An array stands for a record too, its items being
the fields in their order, and a date is a record without known fields.  A choice
between names is written as a string, or as a table with the name as its only key
and nothing under it.
-/

namespace MountFs.Config

open MountFs.Toml (Value Entries)

/-- The fields of a record, as they are written. -/
inductive Fields where
  | named (entries : Entries)
  | listed (items : List Value)

/-- The value of a field, if it is written. -/
def Fields.get? (fields : Fields) (position : Nat) (name : String) : Option Value :=
  match fields with
  | .named entries => Entries.get? name entries
  | .listed items => items[position]?

/-- The fields of a value that stands for a record. -/
def fields? : Value → Option Fields
  | .table _ entries => some (.named entries)
  | .datetime => some (.named [])
  | .array items => some (.listed items)
  | .tables items => some (.listed items)
  | _ => none

/-- The items of a value that stands for a list. -/
def items? : Value → Option (List Value)
  | .array items => some items
  | .tables items => some items
  | _ => none

/-- The text of a string. -/
def string? : Value → Option String
  | .string text => some text
  | _ => none

/-- The number of an integer that is not negative. -/
def natural? : Value → Option Nat
  | .integer (.ofNat n) => some n
  | _ => none

/-- The truth value of a boolean. -/
def boolean? : Value → Option Bool
  | .boolean b => some b
  | _ => none

/-- Whether a value holds nothing. -/
def isHollow : Value → Bool
  | .table _ entries => entries.isEmpty
  | .array items => items.isEmpty
  | .tables items => items.isEmpty
  | _ => false

/-- The name that a value chooses. -/
def choice? : Value → Option String
  | .string name => some name
  | .table _ [(name, value)] => if isHollow value then some name else none
  | _ => none

/-- A field that has a default. -/
def optional {α : Type} (read : Value → Option α) (default : α) : Option Value → Option α
  | none => some default
  | some value => read value

/-- The policy a value chooses. -/
def policy? (value : Value) : Option WritePolicy :=
  match choice? value with
  | some "exclusive" => some .exclusive
  | some "last_close_wins" => some .lastCloseWins
  | _ => none

/-- The kind of store a value chooses. -/
def storeKind? (value : Value) : Option StoreKind :=
  match choice? value with
  | some "virtual" => some .virtual
  | some "host" => some .host
  | _ => none

/-- The limits a value describes. -/
def limits? (value : Value) : Option Limits := do
  let fields ← fields? value
  let limits : Limits := {}
  let handles ← optional natural? limits.maxOpenHandles (fields.get? 0 "max_open_handles")
  let size ← optional natural? limits.maxFileSize.toNat (fields.get? 1 "max_file_size")
  return ⟨handles, .ofNat size⟩

/-- The permission texts a value describes. -/
def permissions? (value : Value) : Option Permissions := do
  let fields ← fields? value
  let permissions : Permissions := {}
  let file ← optional string? permissions.file (fields.get? 0 "file")
  let directory ← optional string? permissions.directory (fields.get? 1 "directory")
  return ⟨file, directory⟩

/-- The mount a value describes. -/
def mountSpec? (value : Value) : Option MountSpec := do
  let fields ← fields? value
  let path ← (fields.get? 0 "path").bind string?
  let name ← (fields.get? 1 "name").bind string?
  let kind ← optional storeKind? .virtual (fields.get? 2 "kind")
  let root ← optional (fun v => (string? v).map some) none (fields.get? 3 "root")
  let readOnly ← optional boolean? false (fields.get? 4 "read_only")
  return ⟨path, name, kind, root, readOnly⟩

/-- The mounts a value describes. -/
def mountSpecs? (value : Value) : Option (List MountSpec) := do
  (← items? value).mapM mountSpec?

/-- The configuration a document describes. -/
def ofDocument? (document : Value) : Option Config := do
  let fields ← fields? document
  let limits ← optional limits? {} (fields.get? 0 "limits")
  let policy ← optional policy? .exclusive (fields.get? 1 "write_policy")
  let permissions ← optional permissions? {} (fields.get? 2 "permissions")
  let mounts ← optional mountSpecs? [] (fields.get? 3 "mounts")
  return ⟨limits, policy, permissions, mounts⟩

/-- The configuration a text describes. -/
def ofText (text : String) : Outcome Config :=
  match (Toml.parse text).bind ofDocument? with
  | some config => .ok config
  | none => .error .malformedConfig

end MountFs.Config
