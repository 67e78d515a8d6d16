import MountFs.World

/-!
# Changes from outside

A `Change` is something that happens to the host behind the back of the stores:
files appear, move and vanish, links are set, modes change.  `World.apply` is the
world after a change.  A change that the host would refuse leaves the world as it
is.
-/

namespace MountFs

/-- Something that happens to the host. -/
inductive Change where
  | dir (text : String) (mode : Option Nat)
  /-- A file is written, and made if it is missing.  An existing file keeps its
  inode. -/
  | file (text : String) (data : Bytes) (mode : Option Nat)
  /-- The mode of an item is set. -/
  | chmod (text : String) (mode : Nat)
  | symlink (text target : String)
  /-- An item moves to another name, and replaces what is there. -/
  | rename (text destination : String)
  /-- A file, a link or an empty directory is removed. -/
  | remove (text : String)
  /-- An item is removed with all it holds. -/
  | removeAll (text : String)
deriving Repr, Inhabited

namespace World

/-- Set the mode of the item a text leads to. -/
def chmod (w : World) (text : String) (mode : Nat) : Except HostError World := do
  let place ← w.lookup true text
  return w.modifyAt place (Item.setMode mode)

/-- Set the mode if one is given. -/
def chmod? (w : World) (text : String) : Option Nat → Except HostError World
  | some mode => w.chmod text mode
  | none => .ok w

/-- The directory and the name of a file that is made by writing it.  A link that
leads nowhere stands for its target.  The first argument bounds the number of such
links. -/
def fileSpot (w : World) : Nat → Place → List String → Except HostError (Place × String)
  | links, start, names => do
      let (dir, name) ← w.spot start names
      match w.at? (dir ++ [name]) with
      | none => .ok (dir, name)
      | some (.link _ target) =>
          match links with
          | 0 => .error .tooManyLinks
          | links + 1 =>
              w.fileSpot links (if Path.isAbsolute target then [] else dir) (Path.pieces target)
      | some _ => .error .taken

/-- Write a file, and make it if it is missing. -/
def writeFile (w : World) (text : String) (data : Bytes) : Except HostError World :=
  match w.lookup true text with
  | .ok _ => w.overwrite text data
  | .error _ => do
      checkText text
      let (dir, name) ← w.fileSpot maxLinks (w.startOf text) (Path.pieces text)
      return w.addAt dir name fun inode => .file inode newFileMode data

/-- Whether an item may take the place of another: a directory of an empty
directory, anything else of anything but a directory. -/
def checkReplace (item : Item) : Option Item → Except HostError Unit
  | none => .ok ()
  | some (.dir _ _ children) =>
      if !item.isDir then .error .isADirectory
      else if children.isEmpty then .ok ()
      else .error .notEmpty
  | some _ => if item.isDir then .error .notADirectory else .ok ()

/-- Move an item to another name. -/
def rename (w : World) (source target : String) : Except HostError World := do
  let (sourceDir, sourceName) ← w.parentAndName source
  let (targetDir, targetName) ← w.parentAndName target
  let origin := sourceDir ++ [sourceName]
  let goal := targetDir ++ [targetName]
  match w.at? origin with
  | none => .error .notFound
  | some item =>
      if origin = goal then .ok w
      else if origin.isPrefixOf goal then .error .invalidArgument
      else
        checkReplace item (w.at? goal)
        let cleared := w.modifyAt targetDir (Item.dropChild targetName)
        let left := cleared.modifyAt sourceDir (Item.dropChild sourceName)
        return left.modifyAt targetDir (Item.addChild targetName item)

/-- Remove what a text names, with all it holds. -/
def removeAll (w : World) (text : String) : Except HostError World := do
  let (dir, name) ← w.parentAndName text
  match w.at? (dir ++ [name]) with
  | none => .error .notFound
  | some _ => return w.modifyAt dir (Item.dropChild name)

/-- The world after a change, or why the host refuses it. -/
def attempt (w : World) : Change → Except HostError World
  | .dir text mode => do (← w.makeDir text).chmod? text mode
  | .file text data mode => do (← w.writeFile text data).chmod? text mode
  | .chmod text mode => w.chmod text mode
  | .symlink text target => w.create text fun inode => .link inode target
  | .rename text destination => w.rename text destination
  | .remove text => w.remove text
  | .removeAll text => w.removeAll text

/-- The world after a change. -/
def apply (w : World) (change : Change) : World :=
  match w.attempt change with
  | .ok after => after
  | .error _ => w

end World

end MountFs
