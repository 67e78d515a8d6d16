import MountFs.Store

/-!
# The namespace

A `Namespace` is one tree of paths put together from stores.  Each `Mount` puts a
store at a path.  A path belongs to the mount with the longest matching path, on
whole segments, and what is left of it is its path inside the store.  With mounts
at `/` and `/data`, `/data/x` goes to the second and `/database` to the first.

A store may be mounted more than once, or not at all, so mounts name stores by
their position in a list.  The namespace also holds the host world, which the
stores on the host share, and the current directory.

Besides the operations of stores there are operations on whole files, which run a
session from start to end.  Entries are reported under their path in the
namespace.
-/

namespace MountFs

/-- A store put at a path. -/
structure Mount where
  /-- The normal path it is put at. -/
  path : String
  name : String
  store : Nat
deriving DecidableEq, Repr, Inhabited

/-- What the namespace tells about a mount. -/
structure MountInfo where
  path : String
  name : String
  kind : StoreKind
  /-- Whether the store takes no changes. -/
  readOnly : Bool
deriving DecidableEq, Repr, Inhabited

/-- Where a path leads. -/
structure Route where
  mount : Mount
  inner : String
deriving DecidableEq, Repr, Inhabited

/-- Stores put together into one tree. -/
structure Namespace where
  world : World
  stores : List Store := []
  /-- The mounts, in the order of their paths. -/
  mounts : List Mount := []
  /-- The current directory, a normal path. -/
  cwd : String := Path.root
deriving Repr, Inhabited

/-- A mount put in its place among mounts ordered by path. -/
def Mount.insertSorted (m : Mount) : List Mount → List Mount
  | [] => [m]
  | n :: rest => if m.path < n.path then m :: n :: rest else n :: m.insertSorted rest

/-- The mount with the longest path, the last of several. -/
def Mount.longest : List Mount → Option Mount
  | [] => none
  | m :: rest =>
      match Mount.longest rest with
      | none => some m
      | some best => if best.path.utf8ByteSize < m.path.utf8ByteSize then some m else some best

/-- An entry of a store, under its path in the namespace. -/
def Route.externalize (r : Route) (e : Entry) : Entry :=
  if r.mount.path = Path.root then e
  else if e.path = Path.root then e.relocate r.mount.path
  else e.relocate (r.mount.path ++ e.path)

namespace Namespace

/-! ## Stores -/

/-- The namespace without stores. -/
def empty (world : World) : Namespace := { world }

/-- The store at a position. -/
def storeAt (ns : Namespace) (index : Nat) : Store := ns.stores.getD index .failing

/-- Add a store without mounting it. -/
def addStore (ns : Namespace) (store : Store) : Namespace × Nat :=
  ({ ns with stores := ns.stores ++ [store] }, ns.stores.length)

/-- Let a step happen to the store at a position. -/
def onStore {α : Type} (ns : Namespace) (index : Nat)
    (step : Store → World → Step (Store × World) α) : Step Namespace α :=
  (step (ns.storeAt index) ns.world).lift fun (store, world) =>
    { ns with stores := ns.stores.set index store, world := world }

/-- Answer a call on the store at a position. -/
def callStore (ns : Namespace) (now : Time) (index : Nat) (c : Call) : Step Namespace Answer :=
  ns.onStore index fun s w => s.call w now c

/-! ## Mounts -/

/-- Put a store at a path, which is taken from the root. -/
def mount (ns : Namespace) (path name : String) (store : Nat) : Outcome Namespace :=
  let path := Path.resolve Path.root path
  if ns.mounts.any fun m => m.path == path then .error (.alreadyExists path)
  else .ok { ns with mounts := Mount.insertSorted ⟨path, name, store⟩ ns.mounts }

/-- Take away the mount at a path. -/
def unmount (ns : Namespace) (path : String) : Outcome Namespace :=
  let path := Path.resolve Path.root path
  if ns.mounts.any fun m => m.path == path then
    .ok { ns with mounts := ns.mounts.filter fun m => m.path ≠ path }
  else .error (.noMountPoint path)

/-- What the namespace tells about a mount. -/
def mountInfo (ns : Namespace) (m : Mount) : MountInfo :=
  let store := ns.storeAt m.store
  ⟨m.path, m.name, store.kind, store.readOnly⟩

/-- All mounts, in the order of their paths. -/
def listMounts (ns : Namespace) : List MountInfo := ns.mounts.map ns.mountInfo

/-- The normal form of a path read from the current directory. -/
def absolute (ns : Namespace) (path : String) : String := Path.resolve ns.cwd path

/-- Where a path leads. -/
def route (ns : Namespace) (path : String) : Outcome Route :=
  let absolute := ns.absolute path
  match Mount.longest (ns.mounts.filter fun m => Path.isUnder absolute m.path) with
  | some m => .ok ⟨m, Path.stripMount absolute m.path⟩
  | none => .error (.noMountPoint absolute)

/-- Let a step happen to the store a path leads to. -/
def onRoute {α : Type} (ns : Namespace) (path : String)
    (step : Route → Store → World → Step (Store × World) α) : Step Namespace α :=
  match ns.route path with
  | .error e => ⟨ns, .error e⟩
  | .ok r => ns.onStore r.mount.store (step r)

/-! ## Whole files -/

/-- Read a whole file.  The session is ended whether the read succeeds or not, and a
failure of the read is reported first. -/
def readWhole (ns : Namespace) (now : Time) (path : String) : Step Namespace Bytes :=
  ns.onRoute path fun r store world =>
    match store.openFile world r.inner .read with
    | ⟨state, .error e⟩ => ⟨state, .error e⟩
    | ⟨(store, world), .ok handle⟩ =>
        let taken := store.read world now handle none
        let closed := taken.state.1.close taken.state.2 now handle
        ⟨closed.state, do
          let data ← taken.outcome
          closed.outcome
          return data⟩

/-- Write to a whole file through a handle of the given mode.  The file is made if it
is missing.  If the write fails the session ends without a commit. -/
def writeWith (ns : Namespace) (now : Time) (path : String) (mode : OpenMode) (content : Bytes) :
    Step Namespace Unit :=
  ns.onRoute path fun r store world =>
    let made := store.createFile world now r.inner []
    let (store, world) := made.state
    let write : Step (Store × World) Unit :=
      match store.openFile world r.inner mode with
      | ⟨state, .error e⟩ => ⟨state, .error e⟩
      | ⟨(store, world), .ok handle⟩ =>
          match store.write world handle content with
          | ⟨(store, world), .ok _⟩ => store.close world now handle
          | ⟨(store, world), .error e⟩ => ⟨(store.abort world handle).state, .error e⟩
    match made.outcome with
    | .ok _ => write
    | .error (.alreadyExists _) => write
    | .error e => ⟨made.state, .error e⟩

/-- Replace the content of a file, which is made if it is missing. -/
def writeWhole (ns : Namespace) (now : Time) (path : String) (content : Bytes) :
    Step Namespace Unit :=
  ns.writeWith now path .write content

/-- Add to the content of a file, which is made if it is missing. -/
def appendWhole (ns : Namespace) (now : Time) (path : String) (content : Bytes) :
    Step Namespace Unit :=
  ns.writeWith now path .append content

/-! ## Names -/

/-- Make a directory. -/
def createDirectory (ns : Namespace) (now : Time) (path : String) : Step Namespace Entry :=
  ns.onRoute path fun r store world =>
    (store.createDirectory world now r.inner).map r.externalize

/-- Make a file with initial content. -/
def createFile (ns : Namespace) (now : Time) (path : String) (content : Bytes) :
    Step Namespace Entry :=
  ns.onRoute path fun r store world =>
    (store.createFile world now r.inner content).map r.externalize

/-- Remove a file or an empty directory. -/
def deleteFile (ns : Namespace) (now : Time) (path : String) : Step Namespace Unit :=
  ns.onRoute path fun r store world => store.deleteFile world now r.inner

/-- What the namespace tells about a path. -/
def stat (ns : Namespace) (path : String) : Outcome Entry := do
  let r ← ns.route path
  let e ← (ns.storeAt r.mount.store).stat ns.world r.inner
  return r.externalize e

/-- The entry that a mount shows in the directory above it: the root of its store
under the path of the mount, or a new directory if the store does not tell. -/
def mountEntry (ns : Namespace) (now : Time) (m : Mount) : Entry :=
  match (ns.storeAt m.store).stat ns.world Path.root with
  | .ok e => e.relocate m.path
  | .error _ => .directory now m.path ({} : Permissions).directory

/-- The children of a directory, in the order of their names, and the current
directory if no path is given.  A mount right below the directory is shown even if
the store has no such entry. -/
def listDirectory (ns : Namespace) (now : Time) (path : Option String) : Outcome (List Entry) := do
  let absolute :=
    match path with
    | some p => ns.absolute p
    | none => ns.cwd
  let r ← ns.route absolute
  let listed ← (ns.storeAt r.mount.store).listDirectory ns.world r.inner
  let entries := listed.map r.externalize
  let below := ns.mounts.filter fun m =>
    Path.parent? m.path == some absolute && entries.all fun e => e.name != Path.fileName m.path
  return Entry.sortByName (entries ++ below.map (ns.mountEntry now))

/-! ## The current directory and totals -/

/-- Go to a directory, which has to be one that can be listed. -/
def changeDirectory (ns : Namespace) (now : Time) (path : String) : Outcome Namespace := do
  let absolute := ns.absolute path
  let _ ← ns.listDirectory now (some absolute)
  return { ns with cwd := absolute }

/-- The totals of every mount, in the order of their paths. -/
def usage (ns : Namespace) : Outcome (List (MountInfo × Usage)) :=
  ns.mounts.mapM fun m => do
    return (ns.mountInfo m, ← (ns.storeAt m.store).usage ns.world)

/-! ## From a configuration -/

/-- The store a configuration asks for. -/
def makeStore (world : World) (config : Config) (now : Time) (spec : MountSpec) : Outcome Store :=
  match spec.kind with
  | .virtual => .ok (.memory (.create config now))
  | .host =>
      match spec.root with
      | some root => .ok (.host (.create world root spec.readOnly config))
      | none => .error (.config ("host mount " ++ spec.path ++ " needs a root"))

/-- Make and mount the stores of a list. -/
def mountAll (config : Config) (now : Time) : Namespace → List MountSpec → Outcome Namespace
  | ns, [] => .ok ns
  | ns, spec :: rest => do
      let store ← makeStore ns.world config now spec
      let (ns, index) := ns.addStore store
      let ns ← ns.mount spec.path spec.name index
      mountAll config now ns rest

/-- The namespace a configuration describes.  With no mounts listed, a store in memory
is mounted at the root. -/
def ofConfig (world : World) (config : Config) (now : Time) : Outcome Namespace :=
  mountAll config now (.empty world)
    (if config.mounts.isEmpty then [{ path := Path.root, name := "root" }] else config.mounts)

end Namespace

end MountFs
