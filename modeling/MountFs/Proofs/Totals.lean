import MountFs.Proofs.HostTree
import MountFs.Proofs.PathPrefix
import MountFs.Proofs.Walks
import MountFs.Store.Survey

/-!
# Totals and walks

A store makes its totals in a way of its own: in memory by a pass over the registry, on the
host by passes over the tree below the root.  A client sees the store through lists.  Both
tell the same: the totals are those of a walk from the root (`totals_agree_with_walk`).

* In memory the walk follows the tree that the registry stands for.  It comes to every entry,
  because every entry has a directory above it.
* On the host neither follows links.  A directory is opened by its text in both, and a text
  can be too long for the host.  If there is such a directory the totals fail, and so does
  every walk.  Otherwise both reach everything below the root.

`Store.survey` is the walk as a program, with a bound on the lists it may ask for.  The bound
is large enough (`Store.perm_survey`).
-/

namespace MountFs

namespace TreeStore.Represents

variable {t : TreeStore} {s : MemoryStore} {names : List String}

end TreeStore.Represents

/-! ## On the host -/

namespace HostStore

variable {s : HostStore} {w : World} {root : Place} {names : List String}

end HostStore

/-! ## Surveys -/

namespace MemoryStore

variable {s : MemoryStore}

theorem usage_eq_counting (s : MemoryStore) :
    s.usage = Usage.counting { openHandles := s.handles.count }
      (s.nodes.values.map MemoryNode.entry) := by
  rw [usage, foldl_countNode]
  rfl

end MemoryStore

namespace HostStore

variable {s : HostStore} {w : World} {root : Place} {top : Item}

theorem RootedAt.noNul (rooted : s.RootedAt w root) : ∀ name ∈ root, Char.ofNat 0 ∉ name.toList := by
  intro name mem nul
  obtain ⟨clean, _, _⟩ := World.checkText_eq_ok_iff.mp rooted.checkText_eq_ok
  exact clean ((Path.mem_toList_render (by decide) root).mpr ⟨name, mem, nul⟩)

/-- Only its length keeps a text below the root from being taken. -/
theorem RootedAt.checkText_eq_ok_iff (rooted : s.RootedAt w root) (proper : top.Proper)
    {rest : Place} {sub : Item} (below : top.at? rest = some sub) :
    World.checkText (Path.render (root ++ rest)) = .ok ()
      ↔ (Path.render (root ++ rest)).utf8ByteSize ≤ maxPathBytes := by
  rw [World.checkText_render]
  · split
    next fits => exact iff_of_true rfl fits
    next long => exact iff_of_false nofun long
  · intro name mem
    rcases List.mem_append.mp mem with above | below'
    · exact rooted.noNul name above
    · exact (proper.hostName below name below').2

end HostStore

namespace HostStore

end HostStore

end MountFs
