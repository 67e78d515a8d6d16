import MountFs.Store

/-!
# Surveys

A survey of a store lists everything that can be reached from its root by listing
directories.  A directory is listed before its subdirectories, and those in the
order of their names.  A directory that cannot be listed is passed over.  Links are
not directories, so a survey ends on the host too.
-/

namespace MountFs.Store

/-- The entries reached from pending directories.  The first argument bounds how
many directories are listed. -/
def surveyFrom (s : Store) (w : World) : Nat → List String → List Entry
  | 0, _ => []
  | _ + 1, [] => []
  | bound + 1, dir :: pending =>
      match s.listDirectory w dir with
      | .error _ => s.surveyFrom w bound pending
      | .ok entries =>
          let below := (entries.filter Entry.isDir).map (·.path)
          entries ++ s.surveyFrom w bound (below ++ pending)

/-- A number of directories that no survey exceeds. -/
def surveyBound (s : Store) (w : World) : Nat :=
  match s with
  | .memory s => s.nodes.size + 1
  | .host _ => (Item.tally {} w.top).directories + 1
  | .failing => 1

/-- Everything below the root of a store. -/
def survey (s : Store) (w : World) : List Entry := s.surveyFrom w (s.surveyBound w) [Path.root]

end MountFs.Store
