import MountFs.Config
import MountFs.Path

/-!
# The host world

A `World` is the file tree of the host: directories, files and symbolic links.
Each item has an inode number that is never given out again.  A place in the tree
is the list of names that leads to it from the top (`Place`), so a place is a
canonical path.

Text becomes a place by `lookup`, the way the host resolves names.  Names are
followed one by one.  Every name needs a directory to stand in.  An empty name and
`.` stay, `..` goes up and stays at the top.  A link is replaced by its target,
read from the directory of the link, or from the top if the target is absolute.
A link as the last name is followed only if the caller asks for it.  At most
`maxLinks` links are followed.  The caller is the superuser, so permissions never
get in the way.

`descend` follows names up to the next link and `walk` starts it again behind
each link.  Both are structural, the first in the names and the second in the
number of links left.
-/

namespace MountFs

/-- An item of the host tree. -/
inductive Item where
  | file (inode : Nat) (mode : Nat) (data : Bytes)
  | link (inode : Nat) (target : String)
  /-- A directory with its children by name. -/
  | dir (inode : Nat) (mode : Nat) (children : List (String × Item))
deriving Repr, Inhabited

/-- A canonical path: the names from the top of the tree. -/
abbrev Place := List String

namespace Item

/-- The inode number. -/
def inode : Item → Nat
  | .file inode _ _ => inode
  | .link inode _ => inode
  | .dir inode _ _ => inode

/-- The mode bits.  A link always has all nine permission bits. -/
def mode : Item → Nat
  | .file _ mode _ => mode
  | .link _ _ => 0o777
  | .dir _ mode _ => mode

/-- Whether the item is a directory. -/
def isDir : Item → Bool
  | .dir _ _ _ => true
  | _ => false

/-- The length the host reports: of the content, or of the target of a link. -/
def size : Item → Nat
  | .file _ _ data => data.length
  | .link _ target => target.utf8ByteSize
  | .dir _ _ _ => 0

/-- The item with other mode bits.  A link has none of its own. -/
def setMode (mode : Nat) : Item → Item
  | .file inode _ data => .file inode mode data
  | .link inode target => .link inode target
  | .dir inode _ children => .dir inode mode children

/-- The item with other content, if it is a file. -/
def setData (data : Bytes) : Item → Item
  | .file inode mode _ => .file inode mode data
  | item => item

/-- The child of a name in a list of children. -/
def child? (name : String) : List (String × Item) → Option Item
  | [] => none
  | (n, item) :: rest => if n = name then some item else child? name rest

/-- The item at a place below this one. -/
def at? : Item → Place → Option Item
  | item, [] => some item
  | .dir _ _ children, name :: rest =>
      match child? name children with
      | some item => item.at? rest
      | none => none
  | _, _ :: _ => none
termination_by structural _ place => place

/-- The tree with the item at a place changed. -/
def modifyAt (change : Item → Item) : Place → Item → Item
  | [], item => change item
  | name :: rest, .dir inode mode children =>
      .dir inode mode
        (children.map fun (n, item) => if n = name then (n, modifyAt change rest item) else (n, item))
  | _ :: _, item => item

/-- The directory with one more child. -/
def addChild (name : String) (item : Item) : Item → Item
  | .dir inode mode children => .dir inode mode (children ++ [(name, item)])
  | other => other

/-- The directory without the child of a name. -/
def dropChild (name : String) : Item → Item
  | .dir inode mode children => .dir inode mode (children.filter fun c => c.1 ≠ name)
  | other => other

end Item

/-- The host. -/
structure World where
  top : Item
  /-- The inode number of the next item. -/
  nextInode : Nat
  /-- The directory that relative texts start from. -/
  home : Place
deriving Repr, Inhabited

/-- How many links one lookup may follow. -/
def maxLinks : Nat := 40

/-- How many bytes a name may have. -/
def maxNameBytes : Nat := 255

/-- How many bytes the text of a path may have. -/
def maxPathBytes : Nat := 4095

/-- How far names lead before the next link. -/
inductive Descent where
  | arrived (place : Place)
  /-- To a link in the directory `dir`, with some names left behind it. -/
  | link (dir : Place) (target : String) (rest : List String)
  | failed (error : HostError)
deriving Repr, Inhabited

namespace World

/-! ## Lookup -/

/-- The item at a place. -/
def at? (w : World) (place : Place) : Option Item := w.top.at? place

/-- Follow names from a place up to the next link that has to be followed. -/
def descend (w : World) (followLast : Bool) : Place → List String → Descent
  | here, [] => .arrived here
  | here, name :: rest =>
      match w.at? here with
      | some (.dir _ _ children) =>
          if name = "" ∨ name = "." then w.descend followLast here rest
          else if name = ".." then w.descend followLast here.dropLast rest
          else if maxNameBytes < name.utf8ByteSize then .failed .nameTooLong
          else
            match Item.child? name children with
            | none => .failed .notFound
            | some (.link _ target) =>
                if rest.isEmpty && !followLast then .arrived (here ++ [name])
                else .link here target rest
            | some _ => w.descend followLast (here ++ [name]) rest
      | _ => .failed .notADirectory

/-- The place that names lead to, with a number of links still allowed. -/
def walk (w : World) (followLast : Bool) : Nat → Place → List String → Except HostError Place
  | links, here, names =>
      match w.descend followLast here names with
      | .arrived place => .ok place
      | .failed e => .error e
      | .link dir target rest =>
          match links with
          | 0 => .error .tooManyLinks
          | links + 1 =>
              let start := if Path.isAbsolute target then [] else dir
              w.walk followLast links start (Path.pieces target ++ rest)

/-- Refuse a text that no lookup is made for. -/
def checkText (text : String) : Except HostError Unit :=
  if text.toList.contains (Char.ofNat 0) then .error .nulInName
  else if text = "" then .error .notFound
  else if maxPathBytes < text.utf8ByteSize then .error .nameTooLong
  else .ok ()

/-- The place a text starts from. -/
def startOf (w : World) (text : String) : Place := if Path.isAbsolute text then [] else w.home

/-- The place of a text.  With `followLast` the place is never one of a link. -/
def lookup (w : World) (followLast : Bool) (text : String) : Except HostError Place := do
  checkText text
  w.walk followLast maxLinks (w.startOf text) (Path.pieces text)

/-- The item a text leads to, links followed. -/
def metadata (w : World) (text : String) : Except HostError Item := do
  let place ← w.lookup true text
  match w.at? place with
  | some item => .ok item
  | none => .error .notFound

/-- The item a text names, a link as the last name not followed. -/
def linkMetadata (w : World) (text : String) : Except HostError Item := do
  let place ← w.lookup false text
  match w.at? place with
  | some item => .ok item
  | none => .error .notFound

/-- Whether a text leads to an item. -/
def present (w : World) (text : String) : Bool := (w.metadata text).isOk

/-- The bytes of the file a text leads to. -/
def contents (w : World) (text : String) : Except HostError Bytes := do
  match ← w.metadata text with
  | .file _ _ data => .ok data
  | .dir _ _ _ => .error .isADirectory
  | .link _ _ => .error .notFound

/-- The children of the directory a text leads to. -/
def readDir (w : World) (text : String) : Except HostError (List (String × Item)) := do
  match ← w.metadata text with
  | .dir _ _ children => .ok children
  | _ => .error .notADirectory

/-- The directory that names lead to, the last one apart, and the last name, which is
not looked up. -/
def spot (w : World) (start : Place) (names : List String) : Except HostError (Place × String) := do
  let dir ← w.walk true maxLinks start names.dropLast
  let name := names.getLastD ""
  match w.at? dir with
  | some (.dir _ _ _) =>
      if name = "" ∨ name = "." ∨ name = ".." then .error .taken
      else if maxNameBytes < name.utf8ByteSize then .error .nameTooLong
      else .ok (dir, name)
  | _ => .error .notADirectory

/-- The directory and the name that a new or removed item of a text has. -/
def parentAndName (w : World) (text : String) : Except HostError (Place × String) := do
  checkText text
  w.spot (w.startOf text) (Path.pieces text)

/-! ## Changes -/

/-- The world with the item at a place changed. -/
def modifyAt (w : World) (place : Place) (change : Item → Item) : World :=
  { w with top := w.top.modifyAt change place }

/-- The world with a new item, which gets the next inode number. -/
def addAt (w : World) (dir : Place) (name : String) (make : Nat → Item) : World :=
  { w.modifyAt dir (Item.addChild name (make w.nextInode)) with nextInode := w.nextInode + 1 }

/-- Make an item under a name that is free. -/
def create (w : World) (text : String) (make : Nat → Item) : Except HostError World := do
  let (dir, name) ← w.parentAndName text
  match w.at? (dir ++ [name]) with
  | some _ => .error .taken
  | none => .ok (w.addAt dir name make)

/-- The mode of a new directory. -/
def newDirMode : Nat := 0o755

/-- The mode of a new file. -/
def newFileMode : Nat := 0o644

/-- Make an empty directory. -/
def makeDir (w : World) (text : String) : Except HostError World :=
  w.create text fun inode => .dir inode newDirMode []

/-- Make a file that did not exist. -/
def makeFile (w : World) (text : String) (data : Bytes) : Except HostError World :=
  w.create text fun inode => .file inode newFileMode data

/-- Remove what a text names: a file, a link, or an empty directory. -/
def remove (w : World) (text : String) : Except HostError World := do
  let (dir, name) ← w.parentAndName text
  match w.at? (dir ++ [name]) with
  | none => .error .notFound
  | some (.dir _ _ (_ :: _)) => .error .notEmpty
  | some _ => .ok (w.modifyAt dir (Item.dropChild name))

/-- Replace the content of the file a text leads to. -/
def overwrite (w : World) (text : String) (data : Bytes) : Except HostError World := do
  let place ← w.lookup true text
  match w.at? place with
  | some (.file _ _ _) => .ok (w.modifyAt place (Item.setData data))
  | some _ => .error .isADirectory
  | none => .error .notFound

/-! ## A world to start from -/

/-- Nested empty directories, numbered from `inode`. -/
def nest : Nat → Place → Item
  | inode, [] => .dir inode newDirMode []
  | inode, name :: rest => .dir inode newDirMode [(name, nest (inode + 1) rest)]

/-- The world that holds nothing but the directory `home`. -/
def bare (home : Place) : World := ⟨nest 1 home, home.length + 2, home⟩

end World

end MountFs
