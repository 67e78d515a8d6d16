import MountFs.FsError

/-!
# Configuration

A `Config` holds the limits, the write policy and the permission texts that stores
are made with, and the list of stores to mount at the start.  Every part has a
default.

The size limit is a 64-bit word, so it is always below `2 ^ 64`.  Offsets and
lengths are natural numbers.  A size past the largest offset is reported as the
largest offset (`maxOffset`).
-/

namespace MountFs

/-- File content. -/
abbrev Bytes := List UInt8

/-- The largest offset a file may have. -/
def maxOffset : Nat := 0xffffffffffffffff

/-- The limits of one store. -/
structure Limits where
  /-- How many handles may be live at once. -/
  maxOpenHandles : Nat := 1024
  /-- How many bytes a file may hold. -/
  maxFileSize : UInt64 := 1073741824
deriving DecidableEq, Repr, Inhabited

/-- Refuse a size beyond the limit.  The size in the message is at most
`maxOffset`. -/
def Limits.checkFileSize (limits : Limits) (path : String) (size : Nat) : Outcome Unit :=
  if size ≤ limits.maxFileSize.toNat then .ok ()
  else .error (.fileTooLarge path (min size maxOffset) limits.maxFileSize.toNat)

/-- What happens when a second writer opens an entry. -/
inductive WritePolicy where
  | exclusive
  /-- It is let in, and the last one to close decides the content. -/
  | lastCloseWins
deriving DecidableEq, Repr, Inhabited

/-- The word for a policy in a configuration. -/
def WritePolicy.text : WritePolicy → String
  | .exclusive => "exclusive"
  | .lastCloseWins => "last_close_wins"

/-- The permission texts of new entries. -/
structure Permissions where
  file : String := "rw-r--r--"
  directory : String := "rwxr-xr-x"
deriving DecidableEq, Repr, Inhabited

/-- The kinds of store. -/
inductive StoreKind where
  | virtual
  | host
deriving DecidableEq, Repr, Inhabited

/-- The word for a kind of store. -/
def StoreKind.text : StoreKind → String
  | .virtual => "virtual"
  | .host => "host"

/-- A store to mount at the start. -/
structure MountSpec where
  path : String
  name : String
  /-- What kind of store it is. -/
  kind : StoreKind := .virtual
  /-- The host directory of a host store. -/
  root : Option String := none
  /-- Whether a host store takes no changes. -/
  readOnly : Bool := false
deriving DecidableEq, Repr, Inhabited

/-- A configuration. -/
structure Config where
  limits : Limits := {}
  /-- The write policy of every store. -/
  writePolicy : WritePolicy := .exclusive
  /-- The permission texts of the stores in memory. -/
  permissions : Permissions := {}
  /-- The stores to mount.  With none listed, a store in memory is mounted at the
  root. -/
  mounts : List MountSpec := []
deriving DecidableEq, Repr, Inhabited

end MountFs
