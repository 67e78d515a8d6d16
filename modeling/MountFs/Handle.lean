import MountFs.Config
import MountFs.Registry

/-!
# Handles

A `Handle` is one session on a file, with a buffer of its own.  A read handle
holds the content as it was at open.  Write and append handles collect what is
written, and the store commits the buffer when the handle is closed.  A write
handle starts with an empty buffer, an append handle with the content.

`Handles` is the table of the live handles of a store.  Numbers are given out in
order and never twice.

The uses `read`, `write` and `seek` return the changed handle only on success, so
a use that is refused changes nothing.

A buffer has room for `Bytes.maxLength` bytes.  A write that ends within the size
limit but needs more room stops in a fault, before anything is changed.  That memory
runs out below this length is not part of the model.
-/

namespace MountFs

/-- One session on a file. -/
structure Handle where
  id : HandleId
  /-- The path it was opened at. -/
  path : String
  /-- The identity of the entry it was opened on. -/
  entryId : Nat
  mode : OpenMode
  /-- Where the next read or write starts. -/
  cursor : Nat
  buffer : Bytes
deriving DecidableEq, Repr, Inhabited

/-! ## The buffer -/

/-- The most bytes that a buffer can grow to. -/
def Bytes.maxLength : Nat := 0x7fffffffffffffff

/-- Stop if a buffer would have to grow to a size that no buffer can have. -/
def Bytes.checkRoom (buffer : Bytes) (size : Nat) : Outcome Unit :=
  if size ≤ max buffer.length maxLength then .ok () else .error .fault

/-- A buffer with `data` put at `start`, zeros in the gap if there is one.  Bytes
beyond the end of `data` stay. -/
def Bytes.overwrite (buffer : Bytes) (start : Nat) (data : Bytes) : Bytes :=
  buffer.take start ++ List.replicate (start - buffer.length) 0 ++ data
    ++ buffer.drop (start + data.length)

/-- The bytes of a buffer between two offsets. -/
def Bytes.slice (buffer : Bytes) (start stop : Nat) : Bytes := (buffer.take stop).drop start

theorem Bytes.length_overwrite (buffer : Bytes) (start : Nat) (data : Bytes) :
    (Bytes.overwrite buffer start data).length = max buffer.length (start + data.length) := by
  simp only [Bytes.overwrite, List.length_append, List.length_take, List.length_replicate,
    List.length_drop]
  omega

namespace Handle

/-! ## Uses -/

/-- The refusal of a use by the mode of the handle. -/
def refusal (h : Handle) (use : HandleUse) : FsError := .wrongMode h.id h.mode use

/-- Take up to `size` bytes from the cursor, or all that is left.  The cursor moves
to the end of what was taken. -/
def read (h : Handle) (size : Option Nat) : Outcome (Handle × Bytes) :=
  if h.mode = .read then
    let start := min h.cursor h.buffer.length
    let stop :=
      match size with
      | some n => min (start + n) h.buffer.length
      | none => h.buffer.length
    .ok ({ h with cursor := stop }, Bytes.slice h.buffer start stop)
  else .error (h.refusal .read)

/-- Where a write of the handle starts: at the cursor, or at the end of the buffer
for an append handle. -/
def writeStart (h : Handle) : Nat :=
  match h.mode with
  | .append => h.buffer.length
  | _ => h.cursor

/-- Put `data` into the buffer.  The end of the data is checked against the size
limit first, and then the buffer must have room for it. -/
def write (h : Handle) (limits : Limits) (data : Bytes) : Outcome (Handle × Nat) :=
  if h.mode = .read then .error (h.refusal .write)
  else do
    let start := h.writeStart
    let stop := start + data.length
    limits.checkFileSize h.path stop
    h.buffer.checkRoom stop
    return ({ h with cursor := stop, buffer := Bytes.overwrite h.buffer start data }, data.length)

/-- Move the cursor to any offset. -/
def seek (h : Handle) (offset : Nat) : Outcome (Handle × Nat) :=
  if h.mode = .append then .error (h.refusal .seek)
  else .ok ({ h with cursor := offset }, offset)

end Handle

/-! ## The table -/

/-- The live handles of a store. -/
structure Handles where
  live : Registry HandleId Handle := {}
  /-- The number of the next handle. -/
  nextId : HandleId := 1
  /-- How many handles may be live at once. -/
  maxOpen : Nat
deriving DecidableEq, Repr, Inhabited

namespace Handles

/-- The table without handles. -/
def empty (maxOpen : Nat) : Handles := { maxOpen }

/-- The number of live handles. -/
def count (t : Handles) : Nat := t.live.size

/-- Whether a write or append handle is open on the entry `entryId` at `path`. -/
def hasWriter (t : Handles) (path : String) (entryId : Nat) : Bool :=
  t.live.values.any fun h => h.mode.isWriter && h.path == path && h.entryId == entryId

/-- Add a handle with the given buffer.  The limit is checked first, the write
policy second.  An append handle starts with the cursor at the end. -/
def add (t : Handles) (policy : WritePolicy) (path : String) (entryId : Nat) (mode : OpenMode)
    (buffer : Bytes) : Outcome (Handles × HandleId) :=
  if t.maxOpen ≤ t.count then .error (.tooManyOpenHandles t.maxOpen)
  else if mode.isWriter ∧ policy = .exclusive ∧ t.hasWriter path entryId then .error (.busy path)
  else
    let cursor := if mode = .append then buffer.length else 0
    let handle : Handle := ⟨t.nextId, path, entryId, mode, cursor, buffer⟩
    .ok ({ t with live := t.live.insert t.nextId handle, nextId := t.nextId + 1 }, t.nextId)

/-- The live handle with a number. -/
def get (t : Handles) (id : HandleId) : Outcome Handle :=
  match t.live.get? id with
  | some h => .ok h
  | none => .error (.unknownHandle id)

/-- The table with a live handle replaced. -/
def put (t : Handles) (h : Handle) : Handles :=
  { t with live := t.live.adjust h.id fun _ => h }

/-- End the session of a handle. -/
def remove (t : Handles) (id : HandleId) : Outcome (Handles × Handle) := do
  let h ← t.get id
  return ({ t with live := t.live.erase id }, h)

/-- `Handle.read` on the handle with a number. -/
def read (t : Handles) (id : HandleId) (size : Option Nat) : Outcome (Handles × Bytes) := do
  let h ← t.get id
  let (h, data) ← h.read size
  return (t.put h, data)

/-- `Handle.write` on the handle with a number. -/
def write (t : Handles) (limits : Limits) (id : HandleId) (data : Bytes) :
    Outcome (Handles × Nat) := do
  let h ← t.get id
  let (h, count) ← h.write limits data
  return (t.put h, count)

/-- `Handle.seek` on the handle with a number. -/
def seek (t : Handles) (id : HandleId) (offset : Nat) : Outcome (Handles × Nat) := do
  let h ← t.get id
  let (h, offset) ← h.seek offset
  return (t.put h, offset)

end Handles

end MountFs
