import MountFs.Call
import MountFs.World

/-!
# The store on the host

A `HostStore` answers calls from a directory of the host, its root.  A path of the
store is brought into normal form and appended to the root.  Before it is used, it
is *confined*: if it leads to an item, the canonical path of that item has to lie
under the root, and if only its parent does, that of the parent has to.  Links can
lead out of the root, so the text of the path alone does not tell.

The sessions are those of the store in memory.  A handle remembers the inode it
was opened on, and a commit reaches only that inode.

Every operation takes the world as it is at the time of the call, because the host
changes between calls.  Operations that may change the world return it.
-/

namespace MountFs

/-! ## Items as entries -/

/-- The three characters of three permission bits. -/
def permissionTriple (bits : Nat) : List Char :=
  [if bits / 4 % 2 = 1 then 'r' else '-',
   if bits / 2 % 2 = 1 then 'w' else '-',
   if bits % 2 = 1 then 'x' else '-']

/-- The permission text of mode bits: owner, group, others. -/
def permissionText (mode : Nat) : String :=
  String.ofList
    (permissionTriple (mode / 64 % 8) ++ permissionTriple (mode / 8 % 8)
      ++ permissionTriple (mode % 8))

/-- The entry of a host item.  Everything but a directory counts as a file. -/
def Entry.ofItem (path : String) (item : Item) : Entry where
  name := Path.fileName path
  path := path
  kind := if item.isDir then .directory else .regular
  size := item.size
  permissions := permissionText item.mode
  times := .at 0
  checksum := none
  accessCount := 0
  modifyCount := 0

/-! ## Totals -/

mutual
/-- Totals with an item and all it holds counted.  Links count as files. -/
def Item.tally (usage : Usage) : Item → Usage
  | .file _ _ data =>
      { usage with files := usage.files + 1, totalBytes := usage.totalBytes + data.length }
  | .link _ target =>
      { usage with files := usage.files + 1, totalBytes := usage.totalBytes + target.utf8ByteSize }
  | .dir _ _ children =>
      Item.tallyAll { usage with directories := usage.directories + 1 } children
termination_by structural item => item

/-- Totals with a child and all it holds counted. -/
def Item.tallyChild (usage : Usage) : String × Item → Usage
  | (_, item) => Item.tally usage item
termination_by structural child => child

/-- Totals with some children and all they hold counted. -/
def Item.tallyAll (usage : Usage) : List (String × Item) → Usage
  | [] => usage
  | child :: rest => Item.tallyAll (Item.tallyChild usage child) rest
termination_by structural children => children
end

/-! ## The store -/

/-- A store on the host. -/
structure HostStore where
  root : String
  readOnly : Bool
  handles : Handles
  limits : Limits
  policy : WritePolicy
deriving DecidableEq, Repr, Inhabited

/-- Seen from a directory of the host, the text of something below it. -/
def hostJoin (dir rest : String) : String :=
  if dir = "" then rest
  else if dir.toList.getLast? = some '/' then dir ++ rest
  else dir ++ "/" ++ rest

mutual
/-- Open every directory of an item that a text leads to.  A directory is opened by its
text, so one that lies too deep is refused. -/
def Item.openAll (text : String) : Item → Except HostError Unit
  | .file _ _ _ => .ok ()
  | .link _ _ => .ok ()
  | .dir _ _ children => do
      World.checkText text
      Item.openChildren text children
termination_by structural item => item

/-- Open every directory of a child of a directory. -/
def Item.openChild (text : String) : String × Item → Except HostError Unit
  | (name, item) => Item.openAll (hostJoin text name) item
termination_by structural child => child

/-- Open every directory of some children of a directory. -/
def Item.openChildren (text : String) : List (String × Item) → Except HostError Unit
  | [] => .ok ()
  | child :: rest => do
      Item.openChild text child
      Item.openChildren text rest
termination_by structural children => children
end

/-- Whether a place lies at or below the directory that a text names, name by name.
The text is not looked up.  A relative text names no place, except that the empty
text is above every place. -/
def placeUnder (place : Place) (text : String) : Bool :=
  if Path.isAbsolute text then
    ((Path.pieces text).filter fun name => name ≠ "" ∧ name ≠ ".").isPrefixOf place
  else text = ""

namespace HostStore

/-- The store rooted at a directory.  The root is its canonical path, or the text as
it is given if it leads nowhere. -/
def create (w : World) (root : String) (readOnly : Bool) (config : Config) : HostStore where
  root :=
    match w.lookup true root with
    | .ok place => Path.render place
    | .error _ => root
  readOnly := readOnly
  handles := .empty config.limits.maxOpenHandles
  limits := config.limits
  policy := config.writePolicy

/-! ## Confinement -/

/-- The host text of something below the root.  For the root path itself it is the
root with a slash behind it, which leads to a directory or nowhere. -/
def hostBelow (s : HostStore) (path : String) : String :=
  hostJoin s.root (String.ofList (path.toList.drop 1))

/-- The host text of a normal path of the store. -/
def hostText (s : HostStore) (path : String) : String :=
  if path = Path.root then s.root else s.hostBelow path

/-- The host text of the parent of a normal path. -/
def hostParent (s : HostStore) (path : String) : String :=
  s.hostText ((Path.parent? path).getD Path.root)

/-- Refuse a place outside the root. -/
def checkUnder (s : HostStore) (place : Place) : Outcome Unit :=
  if placeUnder place s.root then .ok ()
  else .error (.pathEscapesRoot (Path.render place ++ " is not under " ++ s.root))

/-- The normal form of a path of the store, once it is confined.  If neither the path
nor its parent leads anywhere there is nothing to confine. -/
def confine (s : HostStore) (w : World) (path : String) : Outcome String := do
  let path ← Path.normalize path
  if path = Path.root then return path
  match w.lookup true (s.hostText path) with
  | .ok place => s.checkUnder place
  | .error _ =>
      match w.lookup true (s.hostParent path) with
      | .ok place => s.checkUnder place
      | .error _ => pure ()
  return path

/-- Refuse a change of a store that takes none. -/
def checkWritable (s : HostStore) : Outcome Unit :=
  if s.readOnly then .error .readOnly else .ok ()

/-- Refuse a path whose parent is not a directory. -/
def checkParent (s : HostStore) (w : World) (path : String) : Outcome Unit :=
  match w.metadata (s.hostParent path) with
  | .ok item => if item.isDir then .ok () else .error (.invalidParent path)
  | .error _ => .error (.invalidParent path)

/-- A host result on a path, with the failure reported as the stores do. -/
def onPath {α : Type} (path : String) : Except HostError α → Outcome α
  | .ok value => .ok value
  | .error e => .error (.ofHost e path)

/-- A host result with the failure passed through. -/
def onHost {α : Type} : Except HostError α → Outcome α
  | .ok value => .ok value
  | .error e => .error (.host e)

/-- The entry at a normal path. -/
def entryAt (s : HostStore) (w : World) (path : String) : Outcome Entry := do
  let item ← onPath path (w.metadata (s.hostText path))
  return .ofItem path item

/-! ## Names -/

/-- Make a directory. -/
def createDirectory (s : HostStore) (w : World) (path : String) : Outcome (World × Entry) := do
  s.checkWritable
  let path ← s.confine w path
  if path = Path.root ∨ (w.linkMetadata (s.hostText path)).isOk then .error (.alreadyExists path)
  else
    s.checkParent w path
    let after ← onPath path (w.makeDir (s.hostText path))
    return (after, ← s.entryAt after path)

/-- Make a file.  The size limit is checked before the path. -/
def createFile (s : HostStore) (w : World) (path : String) (content : Bytes) :
    Outcome (World × Entry) := do
  s.checkWritable
  let path ← s.confine w path
  s.limits.checkFileSize path content.length
  if path = Path.root then .error (.alreadyExists path)
  else
    s.checkParent w path
    let after ← onPath path (w.makeFile (s.hostText path) content)
    let entry ← s.entryAt after path
    return (after, { entry with checksum := some (Digest.hex content) })

/-- Remove a file, a link or an empty directory. -/
def deleteFile (s : HostStore) (w : World) (path : String) : Outcome World := do
  s.checkWritable
  let path ← s.confine w path
  if path = Path.root then .error (.invalidPath "cannot remove root")
  else
    let _ ← onPath path (w.linkMetadata (s.hostText path))
    onPath path (w.remove (s.hostText path))

/-- The children of a directory, in the order of their names.  Links are not
followed. -/
def listDirectory (s : HostStore) (w : World) (path : String) : Outcome (List Entry) := do
  let path ← s.confine w path
  match ← onPath path (w.metadata (s.hostText path)) with
  | .dir _ _ children =>
      return Entry.sortByName
        (children.map fun (name, item) => Entry.ofItem (Path.join path name) item)
  | _ => .error (.notADirectory path)

/-- What the store tells about a path, links followed. -/
def stat (s : HostStore) (w : World) (path : String) : Outcome Entry := do
  let path ← s.confine w path
  s.entryAt w path

/-! ## Sessions -/

/-- Start a session on a file.  A write handle starts empty. -/
def openFile (s : HostStore) (w : World) (path : String) (mode : OpenMode) :
    Outcome (HostStore × HandleId) := do
  if mode.isWriter then s.checkWritable
  let path ← s.confine w path
  let item ← onPath path (w.metadata (s.hostText path))
  if item.isDir then .error (.isADirectory path)
  else
    let buffer ← if mode = .write then pure [] else onPath path (w.contents (s.hostText path))
    let (handles, id) ← s.handles.add s.policy path item.inode mode buffer
    return ({ s with handles := handles }, id)

/-- Take bytes through a handle. -/
def read (s : HostStore) (handle : HandleId) (size : Option Nat) : Outcome (HostStore × Bytes) := do
  let (handles, data) ← s.handles.read handle size
  return ({ s with handles := handles }, data)

/-- Put bytes through a handle. -/
def write (s : HostStore) (handle : HandleId) (data : Bytes) : Outcome (HostStore × Nat) := do
  let (handles, count) ← s.handles.write s.limits handle data
  return ({ s with handles := handles }, count)

/-- Move the cursor of a handle. -/
def seek (s : HostStore) (handle : HandleId) (offset : Nat) : Outcome (HostStore × Nat) := do
  let (handles, offset) ← s.handles.seek handle offset
  return ({ s with handles := handles }, offset)

/-- Whether a path of the store still leads to the file with an inode.  The root path
leads to no file, even if the root of the store is one. -/
def leadsToFile (s : HostStore) (w : World) (path : String) (inode : Nat) : Bool :=
  match w.metadata (s.hostBelow path) with
  | .ok (.file found _ _) => found == inode
  | _ => false

/-- End a session.  If the path of the handle still leads to the file it was opened
on, what a write or append handle collected becomes its content. -/
def close (s : HostStore) (w : World) (handle : HandleId) : Step (HostStore × World) Unit :=
  match s.handles.remove handle with
  | .error e => ⟨(s, w), .error e⟩
  | .ok (handles, h) =>
      let ended := { s with handles := handles }
      if s.leadsToFile w h.path h.entryId then
        if h.mode.isWriter then
          match w.overwrite (s.hostBelow h.path) h.buffer with
          | .ok after => ⟨(ended, after), .ok ()⟩
          | .error e => ⟨(ended, w), .error (.ofHost e h.path)⟩
        else ⟨(ended, w), .ok ()⟩
      else ⟨(ended, w), .error (.staleHandle handle h.path)⟩

/-- End a session and commit nothing. -/
def abort (s : HostStore) (handle : HandleId) : Outcome HostStore := do
  let (handles, _) ← s.handles.remove handle
  return { s with handles := handles }

/-! ## Totals -/

/-- What the store holds in total, the root directory included.  Every directory is opened
on the way, and fails the whole if it cannot be. -/
def usage (s : HostStore) (w : World) : Outcome Usage := do
  let children ← onHost (w.readDir s.root)
  onHost (Item.openChildren s.root children)
  return Item.tallyAll { directories := 1, openHandles := s.handles.count } children

/-! ## Calls -/

/-- Answer a call in a world. -/
def call (s : HostStore) (w : World) : Call → Step (HostStore × World) Answer
  | .createDirectory path =>
      .ofOutcome (s, w) ((s.createDirectory w path).map fun (after, e) => ((s, after), .entry e))
  | .createFile path content =>
      .ofOutcome (s, w) ((s.createFile w path content).map fun (after, e) => ((s, after), .entry e))
  | .deleteFile path =>
      .ofOutcome (s, w) ((s.deleteFile w path).map fun after => ((s, after), .done))
  | .listDirectory path => ⟨(s, w), (s.listDirectory w path).map .entries⟩
  | .stat path => ⟨(s, w), (s.stat w path).map .entry⟩
  | .present path => ⟨(s, w), .ok (.flag (s.stat w path).isOk)⟩
  | .openFile path mode =>
      .ofOutcome (s, w) ((s.openFile w path mode).map fun (s, id) => ((s, w), .handle id))
  | .read handle size =>
      .ofOutcome (s, w) ((s.read handle size).map fun (s, data) => ((s, w), .bytes data))
  | .write handle data =>
      .ofOutcome (s, w) ((s.write handle data).map fun (s, count) => ((s, w), .number count))
  | .seek handle offset =>
      .ofOutcome (s, w) ((s.seek handle offset).map fun (s, offset) => ((s, w), .number offset))
  | .close handle => (s.close w handle).map fun _ => .done
  | .abort handle => .ofOutcome (s, w) ((s.abort handle).map fun s => ((s, w), .done))
  | .usage => ⟨(s, w), (s.usage w).map .usage⟩
  | .describe => ⟨(s, w), .ok (.description .host s.readOnly)⟩

end HostStore

end MountFs
