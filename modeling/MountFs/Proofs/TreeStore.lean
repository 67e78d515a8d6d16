import Mathlib.Algebra.GroupWithZero.Nat
import MountFs.Proofs.FileTree

/-!
# The store as a tree

A `TreeStore` answers the calls of a store on a `FileTree`.  It is written to be read
and not to be fast.  Each operation splits the path into names, walks, and looks at
where the walk ended.

* A path that does not start at the root is refused.
* A new file or directory needs a free place in a directory.  A place that is taken is
  reported before a parent that is not a directory, and a file that is too large before
  both.
* A delete needs a place below the root that has nothing in it.
* The children of a directory are its map, told in the order of the names.
* A session is tied to the place it was opened on by identity.

The table of handles is the one all stores use.
-/

namespace MountFs

/-- A store whose entries are a tree. -/
structure TreeStore where
  /-- The tree. -/
  root : FileTree
  /-- The live handles. -/
  handles : Handles
  /-- The identity of the next place. -/
  nextNode : Nat
  /-- The limits. -/
  limits : Limits
  /-- The write policy. -/
  policy : WritePolicy
  /-- The permission texts of new places. -/
  permissions : Permissions

namespace TreeStore

/-- An empty store, which has the root directory. -/
def create (config : Config) (now : Time) : TreeStore where
  root := .directory (.fresh 1 config.permissions.directory now) .empty
  handles := .empty config.limits.maxOpenHandles
  nextNode := 2
  limits := config.limits
  policy := config.writePolicy
  permissions := config.permissions

/-- The names a path leads through. -/
def names? (path : String) : Outcome (List String) :=
  if Path.isAbsolute path then .ok (Path.segments path) else .error (.invalidPath path)

/-! ## Names -/

/-- Refuse names that lead somewhere, or whose parent is not a directory. -/
def checkFree (t : TreeStore) (names : List String) : Outcome Unit :=
  match t.root.walk names with
  | some _ => .error (.alreadyExists (Path.render names))
  | none =>
      match t.root.walk names.dropLast with
      | some (.directory _ _) => .ok ()
      | _ => .error (.invalidParent (Path.render names))

/-- The store with a new place. -/
def add (t : TreeStore) (now : Time) (names : List String) (new : FileTree) : TreeStore :=
  { t with
    root := t.root.change (fun dir => (dir.withChild (names.getLastD "") new).restamp (.touch now))
      names.dropLast
    nextNode := t.nextNode + 1 }

/-- The store without a place. -/
def drop (t : TreeStore) (now : Time) (names : List String) : TreeStore :=
  { t with
    root := t.root.change (fun dir => (dir.withoutChild (names.getLastD "")).restamp (.touch now))
      names.dropLast }

/-- Make a directory. -/
def createDirectory (t : TreeStore) (now : Time) (path : String) : Outcome (TreeStore × Entry) := do
  let names ← names? path
  t.checkFree names
  let new := FileTree.directory (.fresh t.nextNode t.permissions.directory now) .empty
  return (t.add now names new, new.entry names)

/-- Make a file. -/
def createFile (t : TreeStore) (now : Time) (path : String) (content : Bytes) :
    Outcome (TreeStore × Entry) := do
  let names ← names? path
  t.limits.checkFileSize (Path.render names) content.length
  t.checkFree names
  let new := FileTree.file (.fresh t.nextNode t.permissions.file now) content
  return (t.add now names new, new.entry names)

/-- Remove a file or an empty directory. -/
def deleteFile (t : TreeStore) (now : Time) (path : String) : Outcome TreeStore := do
  let names ← names? path
  if names = [] then .error (.invalidPath "cannot remove root")
  else
    match t.root.walk names with
    | none => .error (.notFound (Path.render names))
    | some (.directory _ children) =>
        if children.keys = [] then .ok (t.drop now names)
        else .error (.directoryNotEmpty (Path.render names))
    | some (.file _ _) => .ok (t.drop now names)

/-- The children of a directory, in the order of their names. -/
def listDirectory (t : TreeStore) (path : String) : Outcome (List Entry) := do
  let names ← names? path
  match t.root.walk names with
  | none => .error (.notFound (Path.render names))
  | some (.file _ _) => .error (.notADirectory (Path.render names))
  | some (.directory _ children) =>
      .ok (Entry.sortByName (children.rows.map fun (name, sub) => sub.entry (names ++ [name])))

/-- What the store tells about a path. -/
def stat (t : TreeStore) (path : String) : Outcome Entry := do
  let names ← names? path
  match t.root.walk names with
  | none => .error (.notFound (Path.render names))
  | some place => .ok (place.entry names)

/-! ## Sessions -/

/-- Start a session on a file. -/
def openFile (t : TreeStore) (path : String) (mode : OpenMode) :
    Outcome (TreeStore × HandleId) := do
  let names ← names? path
  match t.root.walk names with
  | none => .error (.notFound (Path.render names))
  | some (.directory _ _) => .error (.isADirectory (Path.render names))
  | some (.file stamp data) =>
      let buffer := if mode = .write then [] else data
      let (handles, id) ← t.handles.add t.policy (Path.render names) stamp.id mode buffer
      return ({ t with handles := handles }, id)

/-- Whether the place a handle was opened on is still there. -/
def holds (t : TreeStore) (h : Handle) : Bool :=
  match t.root.walk (Path.segments h.path) with
  | some place => place.stamp.id == h.entryId
  | none => false

/-- The store with the place of a handle changed. -/
def changeAt (t : TreeStore) (h : Handle) (f : FileTree → FileTree) : TreeStore :=
  { t with root := t.root.change f (Path.segments h.path) }

/-- Take bytes through a handle. -/
def read (t : TreeStore) (now : Time) (handle : HandleId) (size : Option Nat) :
    Outcome (TreeStore × Bytes) := do
  let h ← t.handles.get handle
  let (handles, data) ← t.handles.read handle size
  let used := { t with handles := handles }
  return (if t.holds h then used.changeAt h (.restamp (.noteRead now)) else used, data)

/-- Put bytes through a handle. -/
def write (t : TreeStore) (handle : HandleId) (data : Bytes) : Outcome (TreeStore × Nat) := do
  let (handles, count) ← t.handles.write t.limits handle data
  return ({ t with handles := handles }, count)

/-- Move the cursor of a handle. -/
def seek (t : TreeStore) (handle : HandleId) (offset : Nat) : Outcome (TreeStore × Nat) := do
  let (handles, offset) ← t.handles.seek handle offset
  return ({ t with handles := handles }, offset)

/-- End a session, and commit what it wrote if its place is still there. -/
def close (t : TreeStore) (now : Time) (handle : HandleId) : Step TreeStore Unit :=
  match t.handles.remove handle with
  | .error e => ⟨t, .error e⟩
  | .ok (handles, h) =>
      let ended := { t with handles := handles }
      if t.holds h then
        ⟨if h.mode.isWriter then ended.changeAt h (.commit now h.buffer) else ended, .ok ()⟩
      else ⟨ended, .error (.staleHandle handle h.path)⟩

/-- End a session and commit nothing. -/
def abort (t : TreeStore) (handle : HandleId) : Outcome TreeStore := do
  let (handles, _) ← t.handles.remove handle
  return { t with handles := handles }

/-! ## Totals and calls -/

/-- What the store holds in total, counted over the whole tree. -/
def usage (t : TreeStore) : Usage :=
  let all := t.root.entries []
  { files := all.countP Entry.isFile
    directories := all.countP Entry.isDir
    totalBytes := ((all.filter Entry.isFile).map Entry.size).sum
    openHandles := t.handles.count }

/-- Answer a call. -/
def call (t : TreeStore) (now : Time) : Call → Step TreeStore Answer
  | .createDirectory path => (Step.ofOutcome t (t.createDirectory now path)).map .entry
  | .createFile path content => (Step.ofOutcome t (t.createFile now path content)).map .entry
  | .deleteFile path => .ofOutcome t ((t.deleteFile now path).map fun t => (t, .done))
  | .listDirectory path => ⟨t, (t.listDirectory path).map .entries⟩
  | .stat path => ⟨t, (t.stat path).map .entry⟩
  | .present path => ⟨t, .ok (.flag (t.stat path).isOk)⟩
  | .openFile path mode => (Step.ofOutcome t (t.openFile path mode)).map .handle
  | .read handle size => (Step.ofOutcome t (t.read now handle size)).map .bytes
  | .write handle data => (Step.ofOutcome t (t.write handle data)).map .number
  | .seek handle offset => (Step.ofOutcome t (t.seek handle offset)).map .number
  | .close handle => (t.close now handle).map fun _ => .done
  | .abort handle => .ofOutcome t ((t.abort handle).map fun t => (t, .done))
  | .usage => ⟨t, .ok (.usage t.usage)⟩
  | .describe => ⟨t, .ok (.description .virtual false)⟩

/-- Answer a call at its time. -/
def step (t : TreeStore) (e : Timed) : Step TreeStore Answer := t.call e.now e.call

end TreeStore

end MountFs
