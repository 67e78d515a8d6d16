import MountFs.Config
import MountFs.Digest
import MountFs.Path

/-!
# Entries

An `Entry` is what a store tells about one path: its kind, its size, when it was
made, changed and read, and how often.  Times are readings of a clock that the
caller supplies.  Entries of the host carry time `0` throughout, because the host
keeps its own times.
-/

namespace MountFs

/-- What an entry is. -/
inductive EntryKind where
  | regular
  | directory
deriving DecidableEq, Repr, Inhabited

/-- The word for a kind of entry. -/
def EntryKind.text : EntryKind → String
  | .regular => "Regular"
  | .directory => "Directory"

/-- A reading of the clock. -/
abbrev Time := Nat

/-- When things happened to an entry. -/
structure Times where
  created : Time
  /-- When its content, or its list of children, last changed. -/
  modified : Time
  accessed : Time
deriving DecidableEq, Repr, Inhabited

/-- All three times at one reading. -/
def Times.at (now : Time) : Times := ⟨now, now, now⟩

/-- What a store tells about one path. -/
structure Entry where
  /-- The last segment of the path. -/
  name : String
  path : String
  kind : EntryKind
  /-- The length of the content, and `0` for a directory. -/
  size : Nat
  permissions : String
  /-- When it was made, changed and read. -/
  times : Times
  /-- The digest of the content of a file, where the store keeps it. -/
  checksum : Option String
  /-- How many reads went through handles on it. -/
  accessCount : Nat
  modifyCount : Nat
deriving DecidableEq, Repr, Inhabited

namespace Entry

/-- Whether the entry is a directory. -/
def isDir (e : Entry) : Bool := e.kind == .directory

/-- Whether the entry is a file. -/
def isFile (e : Entry) : Bool := e.kind == .regular

/-- The entry of a new directory. -/
def directory (now : Time) (path permissions : String) : Entry where
  name := Path.fileName path
  path := path
  kind := .directory
  size := 0
  permissions := permissions
  times := .at now
  checksum := none
  accessCount := 0
  modifyCount := 0

/-- The entry of a new file. -/
def file (now : Time) (path permissions : String) (content : Bytes) : Entry where
  name := Path.fileName path
  path := path
  kind := .regular
  size := content.length
  permissions := permissions
  times := .at now
  checksum := some (Digest.hex content)
  accessCount := 0
  modifyCount := 0

/-- The entry with its time of change set. -/
def touch (e : Entry) (now : Time) : Entry :=
  { e with times := { e.times with modified := now } }

/-- The entry after one more read. -/
def noteRead (e : Entry) (now : Time) : Entry :=
  { e with times := { e.times with accessed := now }, accessCount := e.accessCount + 1 }

/-- The entry after a commit of new content. -/
def noteCommit (e : Entry) (now : Time) (content : Bytes) : Entry :=
  { e with
    size := content.length
    checksum := some (Digest.hex content)
    times := { e.times with modified := now }
    modifyCount := e.modifyCount + 1 }

/-- The entry under another path. -/
def relocate (e : Entry) (path : String) : Entry :=
  { e with path := path, name := Path.fileName path }

/-- Entries in the order of their names.  Entries of one name keep their order. -/
def sortByName (entries : List Entry) : List Entry :=
  entries.mergeSort fun a b => decide (a.name ≤ b.name)

end Entry

/-- What a store holds in total. -/
structure Usage where
  files : Nat := 0
  /-- The number of directories, the root included. -/
  directories : Nat := 0
  totalBytes : Nat := 0
  openHandles : Nat := 0
deriving DecidableEq, Repr, Inhabited

end MountFs
