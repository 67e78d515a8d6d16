import MountFs.Call

/-!
# The store in memory

A `MemoryStore` keeps its entries in one flat registry keyed by normal path.  The
tree is implicit: the children of a directory are the keys whose parent it is.
Every entry ever made gets an identity of its own, so a handle can tell the entry
it was opened on from a later one at the same path.

Each operation first brings its path into normal form.  The order of the checks
decides which of two faults is reported.  Operations that can only succeed or
leave the store as it is return the new store inside the outcome.  `close` ends
the session in either case, so it returns a `Step`.

The clock is an argument.  `now` is its reading during the call.
-/

namespace MountFs

/-- One entry of a store in memory. -/
structure MemoryNode where
  id : Nat
  /-- What the store tells about it. -/
  entry : Entry
  /-- Its content, empty for a directory. -/
  data : Bytes
deriving DecidableEq, Repr, Inhabited

/-- A store in memory. -/
structure MemoryStore where
  nodes : Registry String MemoryNode
  handles : Handles
  /-- The identity of the next entry. -/
  nextNode : Nat
  limits : Limits
  policy : WritePolicy
  /-- The permission texts of new entries. -/
  permissions : Permissions
deriving DecidableEq, Repr, Inhabited

namespace MemoryStore

/-! ## Changing the registry -/

/-- The store with a new entry. -/
def addNode (s : MemoryStore) (entry : Entry) (data : Bytes) : MemoryStore :=
  { s with
    nodes := s.nodes.insert entry.path ⟨s.nextNode, entry, data⟩
    nextNode := s.nextNode + 1 }

/-- The store with the time of change of the parent of `path` set. -/
def touchParent (s : MemoryStore) (now : Time) (path : String) : MemoryStore :=
  match Path.parent? path with
  | some parent =>
      { s with nodes := s.nodes.adjust parent fun node => { node with entry := node.entry.touch now } }
  | none => s

/-- An empty store, which has the root directory. -/
def create (config : Config) (now : Time) : MemoryStore :=
  let bare : MemoryStore :=
    { nodes := .empty
      handles := .empty config.limits.maxOpenHandles
      nextNode := 1
      limits := config.limits
      policy := config.writePolicy
      permissions := config.permissions }
  bare.addNode (.directory now Path.root config.permissions.directory) []

/-! ## Looking up -/

/-- The node at a path, if it is the one with identity `id`. -/
def nodeWithId? (s : MemoryStore) (path : String) (id : Nat) : Option MemoryNode :=
  (s.nodes.get? path).filter fun node => node.id == id

/-- The nodes of the children of a directory. -/
def children (s : MemoryStore) (dir : String) : List MemoryNode :=
  (s.nodes.rows.filter fun row => Path.parent? row.1 == some dir).map (·.2)

/-- Whether a directory has children. -/
def hasChildren (s : MemoryStore) (dir : String) : Bool :=
  s.nodes.keys.any fun key => Path.parent? key == some dir

/-- Refuse a path that is taken or whose parent is not a directory. -/
def checkCreatable (s : MemoryStore) (path : String) : Outcome Unit :=
  if s.nodes.contains path then .error (.alreadyExists path)
  else
    match Path.parent? path with
    | none => .error (.alreadyExists path)
    | some parent =>
        match s.nodes.get? parent with
        | some node => if node.entry.isDir then .ok () else .error (.invalidParent path)
        | none => .error (.invalidParent path)

/-! ## Names -/

/-- Make a directory. -/
def createDirectory (s : MemoryStore) (now : Time) (path : String) :
    Outcome (MemoryStore × Entry) := do
  let path ← Path.normalize path
  s.checkCreatable path
  let entry := Entry.directory now path s.permissions.directory
  return ((s.addNode entry []).touchParent now path, entry)

/-- Make a file.  The size limit is checked before the path. -/
def createFile (s : MemoryStore) (now : Time) (path : String) (content : Bytes) :
    Outcome (MemoryStore × Entry) := do
  let path ← Path.normalize path
  s.limits.checkFileSize path content.length
  s.checkCreatable path
  let entry := Entry.file now path s.permissions.file content
  return ((s.addNode entry content).touchParent now path, entry)

/-- Remove a file or an empty directory.  Handles on it stay, and are stale. -/
def deleteFile (s : MemoryStore) (now : Time) (path : String) : Outcome MemoryStore := do
  let path ← Path.normalize path
  if path = Path.root then .error (.invalidPath "cannot remove root")
  else
    match s.nodes.get? path with
    | none => .error (.notFound path)
    | some node =>
        if node.entry.isDir ∧ s.hasChildren path then .error (.directoryNotEmpty path)
        else .ok ({ s with nodes := s.nodes.erase path }.touchParent now path)

/-- The children of a directory, in the order of their names. -/
def listDirectory (s : MemoryStore) (path : String) : Outcome (List Entry) := do
  let path ← Path.normalize path
  match s.nodes.get? path with
  | none => .error (.notFound path)
  | some node =>
      if node.entry.isDir then .ok (Entry.sortByName ((s.children path).map (·.entry)))
      else .error (.notADirectory path)

/-- What the store tells about a path. -/
def stat (s : MemoryStore) (path : String) : Outcome Entry := do
  let path ← Path.normalize path
  match s.nodes.get? path with
  | none => .error (.notFound path)
  | some node => .ok node.entry

/-! ## Sessions -/

/-- Start a session on a file.  A write handle starts empty. -/
def openFile (s : MemoryStore) (path : String) (mode : OpenMode) :
    Outcome (MemoryStore × HandleId) := do
  let path ← Path.normalize path
  match s.nodes.get? path with
  | none => .error (.notFound path)
  | some node =>
      if node.entry.isDir then .error (.isADirectory path)
      else
        let buffer := if mode = .write then [] else node.data
        let (handles, id) ← s.handles.add s.policy path node.id mode buffer
        return ({ s with handles := handles }, id)

/-- The store after a read through a handle on the entry `id` at `path`.  The entry
notes the read if it is still there. -/
def noteRead (s : MemoryStore) (now : Time) (path : String) (id : Nat) : MemoryStore :=
  match s.nodeWithId? path id with
  | some _ =>
      { s with nodes := s.nodes.adjust path fun node => { node with entry := node.entry.noteRead now } }
  | none => s

/-- Take bytes through a handle. -/
def read (s : MemoryStore) (now : Time) (handle : HandleId) (size : Option Nat) :
    Outcome (MemoryStore × Bytes) := do
  let h ← s.handles.get handle
  let (handles, data) ← s.handles.read handle size
  return ({ s with handles := handles }.noteRead now h.path h.entryId, data)

/-- Put bytes through a handle. -/
def write (s : MemoryStore) (handle : HandleId) (data : Bytes) : Outcome (MemoryStore × Nat) := do
  let (handles, count) ← s.handles.write s.limits handle data
  return ({ s with handles := handles }, count)

/-- Move the cursor of a handle. -/
def seek (s : MemoryStore) (handle : HandleId) (offset : Nat) : Outcome (MemoryStore × Nat) := do
  let (handles, offset) ← s.handles.seek handle offset
  return ({ s with handles := handles }, offset)

/-- The store with the content of the entry at `path` replaced. -/
def commit (s : MemoryStore) (now : Time) (path : String) (content : Bytes) : MemoryStore :=
  { s with
    nodes := s.nodes.adjust path fun node =>
      { node with entry := node.entry.noteCommit now content, data := content } }

/-- End a session.  If the entry it was opened on is still there, what a write or
append handle collected becomes its content.  Otherwise nothing is committed. -/
def close (s : MemoryStore) (now : Time) (handle : HandleId) : Step MemoryStore Unit :=
  match s.handles.remove handle with
  | .error e => ⟨s, .error e⟩
  | .ok (handles, h) =>
      let ended := { s with handles := handles }
      match s.nodeWithId? h.path h.entryId with
      | none => ⟨ended, .error (.staleHandle handle h.path)⟩
      | some _ =>
          ⟨if h.mode.isWriter then ended.commit now h.path h.buffer else ended, .ok ()⟩

/-- End a session and commit nothing. -/
def abort (s : MemoryStore) (handle : HandleId) : Outcome MemoryStore := do
  let (handles, _) ← s.handles.remove handle
  return { s with handles := handles }

/-! ## Totals -/

/-- Totals with one more node counted. -/
def countNode (usage : Usage) (node : MemoryNode) : Usage :=
  if node.entry.isDir then { usage with directories := usage.directories + 1 }
  else
    { usage with files := usage.files + 1, totalBytes := usage.totalBytes + node.entry.size }

/-- What the store holds in total. -/
def usage (s : MemoryStore) : Usage :=
  s.nodes.values.foldl countNode { openHandles := s.handles.count }

/-! ## Calls -/

/-- Answer a call. -/
def call (s : MemoryStore) (now : Time) : Call → Step MemoryStore Answer
  | .createDirectory path => (Step.ofOutcome s (s.createDirectory now path)).map .entry
  | .createFile path content => (Step.ofOutcome s (s.createFile now path content)).map .entry
  | .deleteFile path => .ofOutcome s ((s.deleteFile now path).map fun s => (s, .done))
  | .listDirectory path => ⟨s, (s.listDirectory path).map .entries⟩
  | .stat path => ⟨s, (s.stat path).map .entry⟩
  | .present path => ⟨s, .ok (.flag (s.stat path).isOk)⟩
  | .openFile path mode => (Step.ofOutcome s (s.openFile path mode)).map .handle
  | .read handle size => (Step.ofOutcome s (s.read now handle size)).map .bytes
  | .write handle data => (Step.ofOutcome s (s.write handle data)).map .number
  | .seek handle offset => (Step.ofOutcome s (s.seek handle offset)).map .number
  | .close handle => (s.close now handle).map fun _ => .done
  | .abort handle => .ofOutcome s ((s.abort handle).map fun s => (s, .done))
  | .usage => ⟨s, .ok (.usage s.usage)⟩
  | .describe => ⟨s, .ok (.description .virtual false)⟩

end MemoryStore

end MountFs
