import MountFs.Entry
import MountFs.Handle

/-!
# Calls

A `Call` is one operation a store answers, with its arguments.  An `Answer` is
what a call that succeeds returns.  A `Step` is what a call leaves behind: the
state after it and its outcome.  A call that fails leaves a state too, because a
failing call may still end a session.
-/

namespace MountFs

/-- The state after a call, and the outcome of the call. -/
structure Step (σ : Type) (α : Type) where
  state : σ
  outcome : Outcome α

namespace Step

variable {σ τ α β : Type}

/-- A call that changes the state only if it succeeds. -/
def ofOutcome (before : σ) : Outcome (σ × α) → Step σ α
  | .ok (after, value) => ⟨after, .ok value⟩
  | .error e => ⟨before, .error e⟩

/-- The step with its returned value changed. -/
def map (f : α → β) (s : Step σ α) : Step σ β := ⟨s.state, s.outcome.map f⟩

/-- The step seen from a larger state. -/
def lift (f : σ → τ) (s : Step σ α) : Step τ α := ⟨f s.state, s.outcome⟩

end Step

/-- An operation of a store. -/
inductive Call where
  | createDirectory (path : String)
  /-- Make a file with initial content. -/
  | createFile (path : String) (content : Bytes)
  /-- Remove a file or an empty directory. -/
  | deleteFile (path : String)
  | listDirectory (path : String)
  /-- What the store tells about a path. -/
  | stat (path : String)
  /-- Whether a path can be told about. -/
  | present (path : String)
  /-- Start a session on a file. -/
  | openFile (path : String) (mode : OpenMode)
  | read (handle : HandleId) (size : Option Nat)
  | write (handle : HandleId) (data : Bytes)
  /-- Move the cursor of a handle. -/
  | seek (handle : HandleId) (offset : Nat)
  /-- End a session and commit what it wrote. -/
  | close (handle : HandleId)
  /-- End a session and commit nothing. -/
  | abort (handle : HandleId)
  /-- What the store holds in total. -/
  | usage
  /-- What kind of store it is. -/
  | describe
deriving DecidableEq, Repr, Inhabited

/-- What a call returns. -/
inductive Answer where
  | entry (entry : Entry)
  /-- Entries in the order of their names. -/
  | entries (entries : List Entry)
  | done
  | flag (value : Bool)
  /-- The number of a new handle. -/
  | handle (id : HandleId)
  | bytes (data : Bytes)
  /-- A number of bytes written, or an offset. -/
  | number (value : Nat)
  | usage (usage : Usage)
  /-- The kind of a store, and whether it takes no changes. -/
  | description (kind : StoreKind) (readOnly : Bool)
deriving DecidableEq, Repr, Inhabited

end MountFs
