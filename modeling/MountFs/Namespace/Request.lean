import MountFs.Namespace
import MountFs.Text.Quoted

/-!
# Requests

A `Request` is one operation of a namespace, with its arguments, and a `Reply` is
what a request that succeeds returns.  `Namespace.answer` answers a request, so a
history of a namespace is a list of requests.
-/

namespace MountFs

/-- The text of a route for a reader who looks for faults. -/
def Route.debugText (r : Route) : String :=
  "Resolved \x7b mount_point: " ++ Text.quoted r.mount.path ++ ", name: "
    ++ Text.quoted r.mount.name ++ ", path: " ++ Text.quoted r.inner ++ " \x7d"

/-- The text of a namespace for a reader who looks for faults. -/
def Namespace.debugText (ns : Namespace) : String :=
  "FileSystemManager \x7b mounts: \"<locked>\", cwd: " ++ Text.quoted ns.cwd ++ " \x7d"

/-- An operation of a namespace. -/
inductive Request where
  /-- Put a store at a path. -/
  | mount (path name : String) (store : Nat)
  | unmount (path : String)
  | listMounts
  /-- The normal form of a path. -/
  | absolute (path : String)
  | route (path : String)
  | readWhole (path : String)
  /-- Replace the content of a file. -/
  | writeWhole (path : String) (content : Bytes)
  /-- Add to the content of a file. -/
  | appendWhole (path : String) (content : Bytes)
  | createDirectory (path : String)
  | createFile (path : String) (content : Bytes)
  /-- Remove a file or an empty directory. -/
  | deleteFile (path : String)
  /-- What is known about a path. -/
  | stat (path : String)
  /-- The children of a directory, or of the current one. -/
  | listDirectory (path : Option String)
  | changeDirectory (path : String)
  | currentDirectory
  | usage
  | debug
  /-- A call on a store, past the mounts. -/
  | store (index : Nat) (call : Call)
deriving DecidableEq, Repr, Inhabited

/-- What a request returns. -/
inductive Reply where
  | done
  | mounts (infos : List MountInfo)
  | text (text : String)
  | route (route : Route)
  | bytes (data : Bytes)
  | entry (entry : Entry)
  | entries (entries : List Entry)
  | usage (rows : List (MountInfo × Usage))
  | store (answer : Answer)
deriving DecidableEq, Repr, Inhabited

namespace Namespace

/-- Answer a request. -/
def answer (ns : Namespace) (now : Time) : Request → Step Namespace Reply
  | .mount path name store =>
      .ofOutcome ns ((ns.mount path name store).map fun ns => (ns, .done))
  | .unmount path => .ofOutcome ns ((ns.unmount path).map fun ns => (ns, .done))
  | .listMounts => ⟨ns, .ok (.mounts ns.listMounts)⟩
  | .absolute path => ⟨ns, .ok (.text (ns.absolute path))⟩
  | .route path => ⟨ns, (ns.route path).map .route⟩
  | .readWhole path => (ns.readWhole now path).map .bytes
  | .writeWhole path content => (ns.writeWhole now path content).map fun _ => .done
  | .appendWhole path content => (ns.appendWhole now path content).map fun _ => .done
  | .createDirectory path => (ns.createDirectory now path).map .entry
  | .createFile path content => (ns.createFile now path content).map .entry
  | .deleteFile path => (ns.deleteFile now path).map fun _ => .done
  | .stat path => ⟨ns, (ns.stat path).map .entry⟩
  | .listDirectory path => ⟨ns, (ns.listDirectory now path).map .entries⟩
  | .changeDirectory path =>
      .ofOutcome ns ((ns.changeDirectory now path).map fun ns => (ns, .done))
  | .currentDirectory => ⟨ns, .ok (.text ns.cwd)⟩
  | .usage => ⟨ns, ns.usage.map .usage⟩
  | .debug => ⟨ns, .ok (.text ns.debugText)⟩
  | .store index call => (ns.callStore now index call).map .store

end Namespace

end MountFs
