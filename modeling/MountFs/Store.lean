import MountFs.HostStore
import MountFs.MemoryStore

/-!
# Stores

A `Store` is one of three: kept in memory, on the host, or failing.  The failing
store lets sessions start and fails everything they do, so that callers can be
tried against a store that breaks in the middle.

The operations here pick the operation of the kind at hand.  Each takes the world
and the clock, whether the kind looks at them or not.  Operations that may change
something return the store and the world after them.
-/

namespace MountFs

/-- A store. -/
inductive Store where
  | memory (store : MemoryStore)
  | host (store : HostStore)
  /-- Fails every use of a session. -/
  | failing
deriving DecidableEq, Repr, Inhabited

namespace Store

/-- The path the failing store names in its errors. -/
def failingPath : String := "/broken"

/-- What kind of store it is.  The failing store passes for one in memory. -/
def kind : Store → StoreKind
  | .memory _ => .virtual
  | .host _ => .host
  | .failing => .virtual

/-- Whether it takes no changes. -/
def readOnly : Store → Bool
  | .host s => s.readOnly
  | _ => false

/-- The live handles. -/
def handles? : Store → Option Handles
  | .memory s => some s.handles
  | .host s => some s.handles
  | .failing => none

/-! ## Queries -/

/-- The children of a directory, in the order of their names. -/
def listDirectory (s : Store) (w : World) (path : String) : Outcome (List Entry) :=
  match s with
  | .memory s => s.listDirectory path
  | .host s => s.listDirectory w path
  | .failing => .ok []

/-- What the store tells about a path. -/
def stat (s : Store) (w : World) (path : String) : Outcome Entry :=
  match s with
  | .memory s => s.stat path
  | .host s => s.stat w path
  | .failing => .error (.notFound path)

/-- What the store holds in total. -/
def usage (s : Store) (w : World) : Outcome Usage :=
  match s with
  | .memory s => .ok s.usage
  | .host s => s.usage w
  | .failing => .ok {}

/-! ## Changes -/

/-- A step of a store in memory, in a world that stays as it is. -/
def inMemory {α : Type} (w : World) (step : Step MemoryStore α) : Step (Store × World) α :=
  step.lift fun s => (.memory s, w)

/-- A step of a store on the host. -/
def onHost {α : Type} (step : Step (HostStore × World) α) : Step (Store × World) α :=
  step.lift fun (s, w) => (.host s, w)

/-- What the failing store leaves behind. -/
def fail {α : Type} (w : World) (e : FsError) : Step (Store × World) α := ⟨(.failing, w), .error e⟩

/-- Make a directory. -/
def createDirectory (s : Store) (w : World) (now : Time) (path : String) :
    Step (Store × World) Entry :=
  match s with
  | .memory s => inMemory w (.ofOutcome s (s.createDirectory now path))
  | .host s =>
      onHost (.ofOutcome (s, w) ((s.createDirectory w path).map fun (w, e) => ((s, w), e)))
  | .failing => fail w (.alreadyExists path)

/-- Make a file. -/
def createFile (s : Store) (w : World) (now : Time) (path : String) (content : Bytes) :
    Step (Store × World) Entry :=
  match s with
  | .memory s => inMemory w (.ofOutcome s (s.createFile now path content))
  | .host s =>
      onHost (.ofOutcome (s, w) ((s.createFile w path content).map fun (w, e) => ((s, w), e)))
  | .failing => fail w (.alreadyExists path)

/-- Remove a file or an empty directory. -/
def deleteFile (s : Store) (w : World) (now : Time) (path : String) : Step (Store × World) Unit :=
  match s with
  | .memory s => inMemory w (.ofOutcome s ((s.deleteFile now path).map fun s => (s, ())))
  | .host s => onHost (.ofOutcome (s, w) ((s.deleteFile w path).map fun w => ((s, w), ())))
  | .failing => fail w (.notFound path)

/-! ## Sessions -/

/-- Start a session on a file.  The failing store gives every session the number
`1`. -/
def openFile (s : Store) (w : World) (path : String) (mode : OpenMode) :
    Step (Store × World) HandleId :=
  match s with
  | .memory s => inMemory w (.ofOutcome s (s.openFile path mode))
  | .host s => onHost (.ofOutcome (s, w) ((s.openFile w path mode).map fun (s, id) => ((s, w), id)))
  | .failing => ⟨(.failing, w), .ok 1⟩

/-- Take bytes through a handle. -/
def read (s : Store) (w : World) (now : Time) (handle : HandleId) (size : Option Nat) :
    Step (Store × World) Bytes :=
  match s with
  | .memory s => inMemory w (.ofOutcome s (s.read now handle size))
  | .host s => onHost (.ofOutcome (s, w) ((s.read handle size).map fun (s, data) => ((s, w), data)))
  | .failing => fail w (.unknownHandle handle)

/-- Put bytes through a handle. -/
def write (s : Store) (w : World) (handle : HandleId) (data : Bytes) : Step (Store × World) Nat :=
  match s with
  | .memory s => inMemory w (.ofOutcome s (s.write handle data))
  | .host s => onHost (.ofOutcome (s, w) ((s.write handle data).map fun (s, n) => ((s, w), n)))
  | .failing => fail w (.busy failingPath)

/-- Move the cursor of a handle. -/
def seek (s : Store) (w : World) (handle : HandleId) (offset : Nat) : Step (Store × World) Nat :=
  match s with
  | .memory s => inMemory w (.ofOutcome s (s.seek handle offset))
  | .host s => onHost (.ofOutcome (s, w) ((s.seek handle offset).map fun (s, n) => ((s, w), n)))
  | .failing => fail w (.unknownHandle handle)

/-- End a session and commit what it wrote. -/
def close (s : Store) (w : World) (now : Time) (handle : HandleId) : Step (Store × World) Unit :=
  match s with
  | .memory s => inMemory w (s.close now handle)
  | .host s => onHost (s.close w handle)
  | .failing => fail w (.staleHandle handle failingPath)

/-- End a session and commit nothing. -/
def abort (s : Store) (w : World) (handle : HandleId) : Step (Store × World) Unit :=
  match s with
  | .memory s => inMemory w (.ofOutcome s ((s.abort handle).map fun s => (s, ())))
  | .host s => onHost (.ofOutcome (s, w) ((s.abort handle).map fun s => ((s, w), ())))
  | .failing => fail w (.unknownHandle handle)

/-! ## Calls -/

/-- What the failing store answers to a call. -/
def failingAnswer (w : World) : Call → Outcome Answer
  | .createDirectory path => .error (.alreadyExists path)
  | .createFile path _ => .error (.alreadyExists path)
  | .deleteFile path => .error (.notFound path)
  | .listDirectory path => (failing.listDirectory w path).map .entries
  | .stat path => (failing.stat w path).map .entry
  | .present path => .ok (.flag (failing.stat w path).isOk)
  | .openFile _ _ => .ok (.handle 1)
  | .read handle _ => .error (.unknownHandle handle)
  | .write _ _ => .error (.busy failingPath)
  | .seek handle _ => .error (.unknownHandle handle)
  | .close handle => .error (.staleHandle handle failingPath)
  | .abort handle => .error (.unknownHandle handle)
  | .usage => (failing.usage w).map .usage
  | .describe => .ok (.description failing.kind failing.readOnly)

/-- Answer a call. -/
def call (s : Store) (w : World) (now : Time) (c : Call) : Step (Store × World) Answer :=
  match s with
  | .memory s => inMemory w (s.call now c)
  | .host s => onHost (s.call w c)
  | .failing => ⟨(.failing, w), failingAnswer w c⟩

end Store

end MountFs
