import MountFs.Proofs.Effect

/-!
# Integrity of the store in memory

The registry of a store is flat, and nothing in its type says that it holds a tree.
`WellFormed` says so, and it says that every entry tells the truth about its content
and that every live handle points at a file or at nothing.

* `Layout` is about the registry alone: the root is a directory, keys are normal
  paths, the directory of every other key is there, identities are distinct and used
  up, and each entry is `Sound`.
* `Handles.Numbered` is about the table of handles alone.
* `HandleFits` ties the two together.

The clauses need each other.  A delete leaves no orphan because the children of an
entry have a *directory* above them, so a file has none.  A commit puts content into
a file and never into a directory because the entry found by path and identity is the
one that was opened, and that one was a file.

Times are apart, since they need a clock that does not go back (`Forward`).
-/

namespace MountFs

/-! ## Statements -/

/-- An entry tells the truth about its path and its content. -/
structure MemoryNode.Sound (path : String) (node : MemoryNode) : Prop where
  /-- It knows its path. -/
  path_eq : node.entry.path = path
  /-- Its name is the last segment of the path, empty for the root. -/
  name_eq : node.entry.name = (Path.segments path).getLastD ""
  /-- Size and digest of a file are those of its content. -/
  regular : node.entry.kind = .regular →
    node.entry.size = node.data.length ∧ node.entry.checksum = some (Digest.hex node.data)
  /-- A directory has no content. -/
  directory : node.entry.kind = .directory →
    node.data = [] ∧ node.entry.size = 0 ∧ node.entry.checksum = none

/-- The registry of a store is a tree. -/
structure Layout (nodes : Registry String MemoryNode) (nextNode : Nat) : Prop where
  /-- A path has one row. -/
  keys_nodup : nodes.keys.Nodup
  /-- The root is a directory. -/
  root : ∃ node, nodes.get? Path.root = some node ∧ node.entry.kind = .directory
  /-- Keys are normal paths. -/
  normal : ∀ {path node}, nodes.get? path = some node → Path.IsNormal path
  /-- Entries are sound. -/
  sound : ∀ {path node}, nodes.get? path = some node → node.Sound path
  /-- Below the root, the path without its last segment is a directory. -/
  parent : ∀ {path node}, nodes.get? path = some node → path ≠ Path.root →
    ∃ dir, nodes.get? (Path.above path) = some dir ∧ dir.entry.kind = .directory
  /-- An identity belongs to one path. -/
  id_inj : ∀ {path path' node node'}, nodes.get? path = some node →
    nodes.get? path' = some node' → node.id = node'.id → path = path'
  /-- Identities were given out before. -/
  id_lt : ∀ {path node}, nodes.get? path = some node → node.id < nextNode

/-- Live handles stand under their own numbers, which were given out before. -/
structure Handles.Numbered (t : Handles) : Prop where
  /-- A number has one row. -/
  keys_nodup : t.live.keys.Nodup
  /-- A handle knows its number. -/
  id_eq : ∀ {id h}, t.live.get? id = some h → h.id = id
  /-- Numbers were given out before. -/
  id_lt : ∀ {id h}, t.live.get? id = some h → id < t.nextId

namespace MemoryStore

/-- A handle points at a file or at nothing. -/
structure HandleFits (s : MemoryStore) (h : Handle) : Prop where
  /-- Its path is normal. -/
  normal : Path.IsNormal h.path
  /-- The identity of its entry was given out before. -/
  entryId_lt : h.entryId < s.nextNode
  /-- The entry it was opened on, if it is still there, is a file. -/
  regular : ∀ {node}, s.nodes.get? h.path = some node → node.id = h.entryId →
    node.entry.kind = .regular

/-- A store that is in order. -/
structure WellFormed (s : MemoryStore) : Prop where
  /-- Its registry is a tree. -/
  layout : Layout s.nodes s.nextNode
  /-- Its table of handles is numbered. -/
  table : s.handles.Numbered
  /-- Its handles point at files or at nothing. -/
  fits : ∀ {id h}, s.handles.live.get? id = some h → s.HandleFits h

/-- No entry was made after `clock`, and none was changed or read before it was made. -/
def TimesOrdered (s : MemoryStore) (clock : Time) : Prop :=
  ∀ {path node}, s.nodes.get? path = some node →
    node.entry.times.created ≤ clock
      ∧ node.entry.times.created ≤ node.entry.times.modified
      ∧ node.entry.times.created ≤ node.entry.times.accessed

end MemoryStore

/-- The clock does not go back: not from `start` to the first call, and not from one
call to the next. -/
def Forward : Time → List Timed → Prop
  | _, [] => True
  | start, e :: rest => start ≤ e.now ∧ Forward e.now rest

instance : ∀ (start : Time) (events : List Timed), Decidable (Forward start events)
  | _, [] => inferInstanceAs (Decidable True)
  | start, e :: rest =>
      have : Decidable (Forward e.now rest) := instDecidableForward e.now rest
      inferInstanceAs (Decidable (start ≤ e.now ∧ Forward e.now rest))

/-! ## The entries that are made -/

theorem sound_directory {path : String} (normal : Path.IsNormal path) (id : Nat) (now : Time)
    (permissions : String) :
    MemoryNode.Sound path ⟨id, .directory now path permissions, []⟩ where
  path_eq := rfl
  name_eq := normal.fileName_eq
  regular := by
    intro h
    cases h
  directory := fun _ => ⟨rfl, rfl, rfl⟩

theorem sound_file {path : String} (normal : Path.IsNormal path) (id : Nat) (now : Time)
    (permissions : String) (content : Bytes) :
    MemoryNode.Sound path ⟨id, .file now path permissions content, content⟩ where
  path_eq := rfl
  name_eq := normal.fileName_eq
  regular := fun _ => ⟨rfl, rfl⟩
  directory := by
    intro h
    cases h

namespace MemoryNode.Sound

variable {path : String} {node : MemoryNode}

theorem touch (h : node.Sound path) (now : Time) :
    MemoryNode.Sound path { node with entry := node.entry.touch now } :=
  ⟨h.path_eq, h.name_eq, h.regular, h.directory⟩

theorem noteRead (h : node.Sound path) (now : Time) :
    MemoryNode.Sound path { node with entry := node.entry.noteRead now } :=
  ⟨h.path_eq, h.name_eq, h.regular, h.directory⟩

/-- New content may be put into a file. -/
theorem noteCommit (h : node.Sound path) (file : node.entry.kind = .regular) (now : Time)
    (content : Bytes) :
    MemoryNode.Sound path
      { node with entry := node.entry.noteCommit now content, data := content } where
  path_eq := h.path_eq
  name_eq := h.name_eq
  regular := fun _ => ⟨rfl, rfl⟩
  directory := by
    intro dir
    exact absurd (file.symm.trans dir) (by simp)

end MemoryNode.Sound

/-! ## Keeping the layout -/

namespace Layout

variable {nodes : Registry String MemoryNode} {nextNode : Nat}

/-- Changing one entry in place keeps the layout if the entry stays what it is and
stays sound. -/
theorem adjust (h : Layout nodes nextNode) (key : String) (change : MemoryNode → MemoryNode)
    (keeps : ∀ {node}, nodes.get? key = some node → (change node).id = node.id
      ∧ (change node).entry.kind = node.entry.kind ∧ (change node).Sound key) :
    Layout (nodes.adjust key change) nextNode := by
  -- Every entry after the change comes from one with the same identity and kind.
  have back : ∀ {path after}, (nodes.adjust key change).get? path = some after →
      ∃ node, nodes.get? path = some node ∧ after.id = node.id
        ∧ after.entry.kind = node.entry.kind ∧ after.Sound path := by
    intro path after found
    obtain ⟨node, hnode, rfl⟩ := Registry.get?_adjust_eq_some.mp found
    by_cases hk : path = key
    · subst hk
      rw [if_pos rfl]
      exact ⟨node, hnode, keeps hnode⟩
    · rw [if_neg hk]
      exact ⟨node, hnode, rfl, rfl, h.sound hnode⟩
  have ahead : ∀ {path node}, nodes.get? path = some node →
      ∃ after, (nodes.adjust key change).get? path = some after
        ∧ after.entry.kind = node.entry.kind := by
    intro path node found
    refine ⟨_, Registry.get?_adjust_eq_some.mpr ⟨node, found, rfl⟩, ?_⟩
    by_cases hk : path = key
    · subst hk
      rw [if_pos rfl]
      exact (keeps found).2.1
    · rw [if_neg hk]
  refine ⟨Registry.nodup_keys_adjust h.keys_nodup key change, ?_, ?_, ?_, ?_, ?_, ?_⟩
  · obtain ⟨node, hnode, hkind⟩ := h.root
    obtain ⟨after, hafter, same⟩ := ahead hnode
    exact ⟨after, hafter, same.trans hkind⟩
  · intro path after found
    obtain ⟨node, hnode, _⟩ := back found
    exact h.normal hnode
  · intro path after found
    obtain ⟨_, _, _, _, sound⟩ := back found
    exact sound
  · intro path after found below
    obtain ⟨node, hnode, _⟩ := back found
    obtain ⟨dir, hdir, hkind⟩ := h.parent hnode below
    obtain ⟨dir', hdir', same⟩ := ahead hdir
    exact ⟨dir', hdir', same.trans hkind⟩
  · intro path path' after after' found found' ids
    obtain ⟨node, hnode, hid, _⟩ := back found
    obtain ⟨node', hnode', hid', _⟩ := back found'
    exact h.id_inj hnode hnode' (hid.symm.trans (ids.trans hid'))
  · intro path after found
    obtain ⟨node, hnode, hid, _⟩ := back found
    rw [hid]
    exact h.id_lt hnode

/-- A sound entry with the next identity may be added at a free path below a
directory. -/
theorem insert (h : Layout nodes nextNode) {key : String} {node : MemoryNode}
    (normal : Path.IsNormal key) (free : nodes.get? key = none)
    (dir : ∃ dir, nodes.get? (Path.above key) = some dir ∧ dir.entry.kind = .directory)
    (sound : node.Sound key) (fresh : node.id = nextNode) :
    Layout (nodes.insert key node) (nextNode + 1) := by
  have stays : ∀ {path old}, nodes.get? path = some old →
      (nodes.insert key node).get? path = some old := by
    intro path old found
    have other : path ≠ key := by
      rintro rfl
      rw [free] at found
      cases found
    exact Registry.get?_insert_eq_some.mpr (Or.inr ⟨other, found⟩)
  refine ⟨Registry.nodup_keys_insert h.keys_nodup key node, ?_, ?_, ?_, ?_, ?_, ?_⟩
  · obtain ⟨top, htop, hkind⟩ := h.root
    exact ⟨top, stays htop, hkind⟩
  · intro path found hfound
    rcases Registry.get?_insert_eq_some.mp hfound with ⟨rfl, _⟩ | ⟨_, old⟩
    · exact normal
    · exact h.normal old
  · intro path found hfound
    rcases Registry.get?_insert_eq_some.mp hfound with ⟨rfl, rfl⟩ | ⟨_, old⟩
    · exact sound
    · exact h.sound old
  · intro path found hfound below
    rcases Registry.get?_insert_eq_some.mp hfound with ⟨rfl, _⟩ | ⟨_, old⟩
    · obtain ⟨up, hup, hkind⟩ := dir
      exact ⟨up, stays hup, hkind⟩
    · obtain ⟨up, hup, hkind⟩ := h.parent old below
      exact ⟨up, stays hup, hkind⟩
  · intro path path' found found' hfound hfound' ids
    rcases Registry.get?_insert_eq_some.mp hfound with ⟨rfl, rfl⟩ | ⟨_, old⟩
    · rcases Registry.get?_insert_eq_some.mp hfound' with ⟨rfl, _⟩ | ⟨_, old'⟩
      · rfl
      · have := h.id_lt old'
        omega
    · rcases Registry.get?_insert_eq_some.mp hfound' with ⟨rfl, rfl⟩ | ⟨_, old'⟩
      · have := h.id_lt old
        omega
      · exact h.id_inj old old' ids
  · intro path found hfound
    rcases Registry.get?_insert_eq_some.mp hfound with ⟨rfl, rfl⟩ | ⟨_, old⟩
    · omega
    · have := h.id_lt old
      omega

/-- An entry that no other entry lies in may go, unless it is the root. -/
theorem erase (h : Layout nodes nextNode) {key : String} (below : key ≠ Path.root)
    (bare : ∀ {path node}, nodes.get? path = some node → path ≠ Path.root →
      Path.above path ≠ key) :
    Layout (nodes.erase key) nextNode := by
  have back : ∀ {path node}, (nodes.erase key).get? path = some node →
      nodes.get? path = some node :=
    fun found => (Registry.get?_erase_eq_some.mp found).2
  refine ⟨Registry.nodup_keys_erase h.keys_nodup key, ?_, ?_, ?_, ?_, ?_, ?_⟩
  · obtain ⟨top, htop, hkind⟩ := h.root
    exact ⟨top, Registry.get?_erase_eq_some.mpr ⟨Ne.symm below, htop⟩, hkind⟩
  · intro path node found
    exact h.normal (back found)
  · intro path node found
    exact h.sound (back found)
  · intro path node found hpath
    obtain ⟨up, hup, hkind⟩ := h.parent (back found) hpath
    exact ⟨up, Registry.get?_erase_eq_some.mpr ⟨bare (back found) hpath, hup⟩, hkind⟩
  · intro path path' node node' found found' ids
    exact h.id_inj (back found) (back found') ids
  · intro path node found
    exact h.id_lt (back found)

/-- The registry of an empty store. -/
theorem single {node : MemoryNode} (sound : node.Sound Path.root)
    (kind : node.entry.kind = .directory) (fresh : node.id < nextNode) :
    Layout (Registry.empty.insert Path.root node) nextNode := by
  have only : ∀ {path found}, (Registry.empty.insert Path.root node).get? path = some found →
      path = Path.root ∧ found = node := by
    intro path found hfound
    rcases Registry.get?_insert_eq_some.mp hfound with new | ⟨_, old⟩
    · exact new
    · cases old
  refine ⟨by simp [Registry.keys, Registry.insert, Registry.erase, Registry.empty], ?_, ?_, ?_,
    ?_, ?_, ?_⟩
  · exact ⟨node, Registry.get?_insert_eq_some.mpr (Or.inl ⟨rfl, rfl⟩), kind⟩
  · intro path found hfound
    rw [(only hfound).1]
    exact Path.isNormal_root
  · intro path found hfound
    obtain ⟨rfl, rfl⟩ := only hfound
    exact sound
  · intro path found hfound below
    exact absurd (only hfound).1 below
  · intro path path' found found' hfound hfound' _
    rw [(only hfound).1, (only hfound').1]
  · intro path found hfound
    rw [(only hfound).2]
    exact fresh

/-- The directory of a child by the text of its path is the directory of the child by
its segments. -/
theorem parent?_eq_some_iff (h : Layout nodes nextNode) {path dir : String} {node : MemoryNode}
    (found : nodes.get? path = some node) :
    Path.parent? path = some dir ↔ path ≠ Path.root ∧ dir = Path.above path :=
  (h.normal found).parent?_eq_some_iff

end Layout

/-! ## Keeping the table numbered -/

namespace Handles

variable {t : Handles}

theorem numbered_empty (maxOpen : Nat) : (Handles.empty maxOpen).Numbered :=
  ⟨List.nodup_nil, fun h => (nomatch h), fun h => (nomatch h)⟩

theorem get?_without {id other : HandleId} {h : Handle} :
    (t.without id).live.get? other = some h ↔ other ≠ id ∧ t.live.get? other = some h :=
  Registry.get?_erase_eq_some

theorem get?_extended {new h : Handle} {id : HandleId} :
    (t.extended new).live.get? id = some h ↔
      id = t.nextId ∧ h = new ∨ id ≠ t.nextId ∧ t.live.get? id = some h :=
  Registry.get?_insert_eq_some

/-- A live handle may be replaced by a later state of its session. -/
theorem Numbered.get?_put (num : t.Numbered) {id other : HandleId} {h next k : Handle}
    (live : t.live.get? id = some h) (same : h.SameSession next) :
    (t.put next).live.get? other = some k ↔
      other = id ∧ k = next ∨ other ≠ id ∧ t.live.get? other = some k := by
  have hid : next.id = id := same.id.trans (num.id_eq live)
  rw [put, hid, Registry.get?_adjust_eq_some]
  by_cases ho : other = id
  · subst ho
    simp [live, eq_comm]
  · simp [ho]

theorem Numbered.without (num : t.Numbered) (id : HandleId) : (t.without id).Numbered where
  keys_nodup := Registry.nodup_keys_erase num.keys_nodup id
  id_eq := fun live => num.id_eq (get?_without.mp live).2
  id_lt := fun live => num.id_lt (get?_without.mp live).2

theorem Numbered.extended (num : t.Numbered) {new : Handle} (hid : new.id = t.nextId) :
    (t.extended new).Numbered where
  keys_nodup := Registry.nodup_keys_insert num.keys_nodup t.nextId new
  id_eq := by
    intro id h live
    rcases get?_extended.mp live with ⟨rfl, rfl⟩ | ⟨_, old⟩
    · exact hid
    · exact num.id_eq old
  id_lt := by
    intro id h live
    rcases get?_extended.mp live with ⟨rfl, _⟩ | ⟨_, old⟩
    · exact Nat.lt_succ_self _
    · exact Nat.lt_succ_of_lt (num.id_lt old)

theorem Numbered.put (num : t.Numbered) {id : HandleId} {h next : Handle}
    (live : t.live.get? id = some h) (same : h.SameSession next) : (t.put next).Numbered where
  keys_nodup := Registry.nodup_keys_adjust num.keys_nodup next.id _
  id_eq := by
    intro other k found
    rcases (num.get?_put live same).mp found with ⟨rfl, rfl⟩ | ⟨_, old⟩
    · exact same.id.trans (num.id_eq live)
    · exact num.id_eq old
  id_lt := by
    intro other k found
    rcases (num.get?_put live same).mp found with ⟨rfl, _⟩ | ⟨_, old⟩
    · exact num.id_lt live
    · exact num.id_lt old

/-- What one call makes of a table: a session that `starts` allows joins it under the next number,
a session goes on or ends, or all stays. -/
inductive Moves (starts : Handle → Prop) (t : Handles) : Handles → Prop
  | kept : Moves starts t t
  | opened {k : Handle} (started : starts k) (fresh : k.id = t.nextId) :
      Moves starts t (t.extended k)
  | used {id : HandleId} {h h' : Handle} (live : t.live.get? id = some h)
      (same : h.SameSession h') : Moves starts t (t.put h')
  | ended (id : HandleId) : Moves starts t (t.without id)

namespace Moves

variable {starts : Handle → Prop} {t' : Handles}

theorem numbered (moves : Moves starts t t') (num : t.Numbered) : t'.Numbered := by
  cases moves with
  | kept => exact num
  | opened _ fresh => exact num.extended fresh
  | used live same => exact num.put live same
  | ended id => exact num.without id

theorem nextId_le (moves : Moves starts t t') : t.nextId ≤ t'.nextId := by
  cases moves with
  | opened => exact Nat.le_succ _
  | _ => exact Nat.le_refl _

/-- A handle that is live afterwards was live before, in the same session, or it has the next
number and its session starts. -/
theorem get?_live (moves : Moves starts t t') (num : t.Numbered) {id : HandleId} {k : Handle}
    (live : t'.live.get? id = some k) :
    (∃ old, t.live.get? id = some old ∧ old.SameSession k) ∨ id = t.nextId ∧ starts k := by
  cases moves with
  | kept => exact Or.inl ⟨k, live, .refl k⟩
  | opened started =>
      rcases get?_extended.mp live with ⟨number, rfl⟩ | ⟨_, old⟩
      · exact Or.inr ⟨number, started⟩
      · exact Or.inl ⟨k, old, .refl k⟩
  | used held same =>
      rcases (num.get?_put held same).mp live with ⟨rfl, rfl⟩ | ⟨_, old⟩
      · exact Or.inl ⟨_, held, same⟩
      · exact Or.inl ⟨k, old, .refl k⟩
  | ended => exact Or.inl ⟨k, (get?_without.mp live).2, .refl k⟩

end Moves

end Handles

namespace MemoryStore

variable {s t : MemoryStore} {now : Time} {c : Call} {o : Outcome Answer}

namespace Turn

variable {table : Handles}

theorem moves (h : Turn s c o table) :
    s.handles.Moves (Starts s c o s.handles.nextId) table := by
  cases h with
  | kept => exact .kept
  | opened starts =>
      obtain ⟨node, _, _, session⟩ := starts.file
      have fresh := starts.fresh
      refine .opened (fresh ▸ starts) ?_
      rw [session]
      exact fresh
  | moved live same => exact .used live same
  | wrote live same => exact .used live same
  | ended => exact .ended _

/-- A handle that is live after a call was live before it, in the same session, or
its session starts with the call. -/
theorem get?_live (h : Turn s c o table) (num : s.handles.Numbered) {id : HandleId} {k : Handle}
    (live : table.live.get? id = some k) :
    (∃ old, s.handles.live.get? id = some old ∧ old.SameSession k) ∨ Starts s c o id k := by
  rcases h.moves.get?_live num live with old | ⟨rfl, starts⟩
  · exact Or.inl old
  · exact Or.inr starts

end Turn

/-! ## Keeping a store well formed -/

theorem hasChildren_iff {s : MemoryStore} {dir : String} :
    s.hasChildren dir = true ↔
      ∃ path node, s.nodes.get? path = some node ∧ Path.parent? path = some dir := by
  simp only [hasChildren, List.any_eq_true, Registry.mem_keys_iff, beq_iff_eq]
  constructor
  · rintro ⟨path, ⟨node, found⟩, up⟩
    exact ⟨path, node, found, up⟩
  · rintro ⟨path, node, found, up⟩
    exact ⟨path, ⟨node, found⟩, up⟩

theorem layout_touchParent (h : Layout s.nodes s.nextNode) (now : Time) (p : String) :
    Layout (s.touchParent now p).nodes (s.touchParent now p).nextNode := by
  unfold touchParent
  split
  · exact h.adjust _ (fun node => { node with entry := node.entry.touch now })
      fun found => ⟨rfl, rfl, (h.sound found).touch now⟩
  · exact h

/-- A new sound entry at a path that may be taken. -/
theorem layout_made (h : Layout s.nodes s.nextNode) {entry : Entry} {data : Bytes}
    (normal : Path.IsNormal entry.path) (free : s.checkCreatable entry.path = .ok ())
    (sound : MemoryNode.Sound entry.path ⟨s.nextNode, entry, data⟩) :
    Layout ((s.addNode entry data).touchParent now entry.path).nodes
      ((s.addNode entry data).touchParent now entry.path).nextNode := by
  obtain ⟨vacant, up, dir, hup, hdir, hkind⟩ := checkCreatable_eq_ok_iff.mp free
  have hup := (normal.parent?_eq_some_iff.mp hup).2
  subst hup
  have added : Layout (s.addNode entry data).nodes (s.addNode entry data).nextNode :=
    h.insert normal vacant ⟨dir, hdir, hkind⟩ sound rfl
  exact layout_touchParent added now entry.path

/-- No entry lies in one that may be deleted. -/
theorem above_ne_of_bare (h : Layout s.nodes s.nextNode) {p : String} {node : MemoryNode}
    (found : s.nodes.get? p = some node)
    (bare : ¬(node.entry.isDir = true ∧ s.hasChildren p = true)) {path : String}
    {child : MemoryNode} (hchild : s.nodes.get? path = some child) (below : path ≠ Path.root) :
    Path.above path ≠ p := by
  intro inside
  obtain ⟨dir, hdir, hkind⟩ := h.parent hchild below
  rw [inside] at hdir
  have same : node = dir := Option.some.inj (found.symm.trans hdir)
  refine bare ⟨Entry.isDir_iff.mpr (same ▸ hkind), hasChildren_iff.mpr ?_⟩
  exact ⟨path, child, hchild, (h.parent?_eq_some_iff hchild).mpr ⟨below, inside.symm⟩⟩

theorem Effect.layout (h : Effect s now c o t) (wf : s.WellFormed) :
    Layout t.nodes t.nextNode := by
  have lay := wf.layout
  cases h with
  | refused => exact lay
  | told => exact lay
  | madeDirectory normal free =>
      have hn := Path.isNormal_of_normalize normal
      exact layout_made lay hn free (sound_directory hn _ _ _)
  | madeFile normal fits free =>
      have hn := Path.isNormal_of_normalize normal
      exact layout_made lay hn free (sound_file hn _ _ _ _)
  | deleted normal below found bare =>
      have erased := lay.erase below (above_ne_of_bare lay found bare)
      exact layout_touchParent (s := { s with nodes := s.nodes.erase _ }) erased now _
  | opened => exact lay
  | taken live use =>
      unfold noteRead
      split
      · exact lay.adjust _ (fun node => { node with entry := node.entry.noteRead now })
          fun found => ⟨rfl, rfl, (lay.sound found).noteRead now⟩
      · exact lay
  | put => exact lay
  | moved => exact lay
  | closedStale => exact lay
  | closedReader => exact lay
  | @closedWriter id h node live there writer =>
      -- The entry found by path and identity is the one opened, so it is a file.
      obtain ⟨found, hid⟩ := nodeWithId?_eq_some_iff.mp there
      have file := (wf.fits live).regular found hid
      refine lay.adjust h.path (fun node =>
        { node with entry := node.entry.noteCommit now h.buffer, data := h.buffer }) ?_
      intro other hother
      have same := Option.some.inj (found.symm.trans hother)
      subst same
      exact ⟨rfl, rfl, (lay.sound found).noteCommit file now h.buffer⟩
  | aborted => exact lay

theorem Effect.nextNode_le (h : Effect s now c o t) : s.nextNode ≤ t.nextNode := by
  cases h with
  | madeDirectory =>
      rw [touchParent_nextNode]
      exact Nat.le_succ _
  | madeFile =>
      rw [touchParent_nextNode]
      exact Nat.le_succ _
  | deleted => simp
  | taken => simp
  | _ => exact Nat.le_refl _

theorem HandleFits.sameSession {h k : Handle} (fits : s.HandleFits h) (same : h.SameSession k) :
    s.HandleFits k where
  normal := same.path ▸ fits.normal
  entryId_lt := same.entryId ▸ fits.entryId_lt
  regular := by
    intro node found hid
    rw [same.path] at found
    rw [same.entryId] at hid
    exact fits.regular found hid

/-- A handle that fits goes on fitting: an entry with its identity is an old one, since
new entries have new identities. -/
theorem HandleFits.effect {k : Handle} (fits : s.HandleFits k) (h : Effect s now c o t) :
    t.HandleFits k where
  normal := fits.normal
  entryId_lt := Nat.lt_of_lt_of_le fits.entryId_lt h.nextNode_le
  regular := by
    intro after found hid
    rcases h.origin found with ⟨node, hnode, same, kind⟩ | fresh
    · rw [kind]
      exact fits.regular hnode (same.symm.trans hid)
    · have := fits.entryId_lt
      omega

/-- Every call keeps a store well formed. -/
theorem WellFormed.effect (wf : s.WellFormed) (h : Effect s now c o t) : t.WellFormed where
  layout := h.layout wf
  table := h.turn.moves.numbered wf.table
  fits := by
    intro id k live
    rcases h.turn.get?_live wf.table live with ⟨old, hold, same⟩ | starts
    · exact ((wf.fits hold).sameSession same).effect h
    · obtain ⟨node, found, file, hk⟩ := starts.file
      have hid : k.entryId = node.id := by rw [hk]; rfl
      refine HandleFits.effect ⟨wf.layout.normal found, ?_, ?_⟩ h
      · rw [hid]
        exact wf.layout.id_lt found
      · intro other hother _
        rw [← Option.some.inj (found.symm.trans hother)]
        exact file

theorem wellFormed_create (config : Config) (start : Time) : (create config start).WellFormed where
  layout := Layout.single (sound_directory Path.isNormal_root _ _ _) rfl (Nat.lt_succ_self _)
  table := Handles.numbered_empty _
  fits := fun live => (nomatch live)

theorem WellFormed.run (wf : s.WellFormed) (events : List Timed) : (s.run events).WellFormed :=
  History.final_induction wf (fun s e wf => wf.effect (step_effect s e)) events

theorem wellFormed_run (config : Config) (start : Time) (events : List Timed) :
    ((create config start).run events).WellFormed :=
  (wellFormed_create config start).run events

/-! ## Times -/

theorem TimesOrdered.effect {clock : Time} (ordered : s.TimesOrdered clock)
    (forward : clock ≤ now) (h : Effect s now c o t) : t.TimesOrdered now := by
  intro path after found
  have fate := h.fate path
  rw [found] at fate
  cases old : s.nodes.get? path with
  | none =>
      rw [old] at fate
      cases fate with
      | made fresh times =>
          rw [times]
          exact ⟨Nat.le_refl _, Nat.le_refl _, Nat.le_refl _⟩
  | some node =>
      rw [old] at fate
      obtain ⟨made, modified, accessed⟩ := ordered old
      have made : node.entry.times.created ≤ now := Nat.le_trans made forward
      cases fate with
      | kept _ change =>
          cases change with
          | same => exact ⟨made, modified, accessed⟩
          | touched => exact ⟨made, made, accessed⟩
          | read => exact ⟨made, modified, made⟩
      | committed => exact ⟨made, made, accessed⟩

theorem timesOrdered_create (config : Config) (start : Time) :
    (create config start).TimesOrdered start := by
  intro path node found
  rcases Registry.get?_insert_eq_some.mp found with ⟨_, rfl⟩ | ⟨_, old⟩
  · exact ⟨Nat.le_refl _, Nat.le_refl _, Nat.le_refl _⟩
  · cases old

theorem timesOrdered_run {clock : Time} {events : List Timed} (ordered : s.TimesOrdered clock)
    (forward : Forward clock events) : ∃ clock', (s.run events).TimesOrdered clock' := by
  induction events generalizing s clock with
  | nil => exact ⟨clock, ordered⟩
  | cons e rest ih => exact ih (ordered.effect forward.1 (step_effect s e)) forward.2

/-- After every run from an empty store the store is well formed.  If the clock did not
go back, no entry was changed or read before it was made. -/
theorem run_integrity (config : Config) (start : Time) (events : List Timed) :
    ((create config start).run events).WellFormed ∧
      (Forward start events → ∀ {path node},
        ((create config start).run events).nodes.get? path = some node →
          node.entry.times.created ≤ node.entry.times.modified
            ∧ node.entry.times.created ≤ node.entry.times.accessed) := by
  refine ⟨wellFormed_run config start events, ?_⟩
  intro forward path node found
  obtain ⟨clock, ordered⟩ := timesOrdered_run (timesOrdered_create config start) forward
  exact (ordered found).2

/-- A directory that got a child later was made before its last change. -/
theorem run_integrity_nested :
    let events : List Timed := [⟨3, .createDirectory "/a"⟩, ⟨5, .createDirectory "/a/../a/b"⟩]
    Forward 2 events ∧ ((create {} 2).run events).WellFormed ∧
      ∃ node, ((create {} 2).run events).nodes.get? "/a" = some node
        ∧ node.entry.times = ⟨3, 5, 3⟩
        ∧ node.entry.times.created ≤ node.entry.times.modified := by
  intro events
  have forward : Forward 2 events := by decide
  obtain ⟨wf, times⟩ := run_integrity {} 2 events
  have found : ∃ node, ((create {} 2).run events).nodes.get? "/a" = some node
      ∧ node.entry.times = ⟨3, 5, 3⟩ := ⟨_, rfl, rfl⟩
  obtain ⟨node, hnode, htimes⟩ := found
  exact ⟨forward, wf, node, hnode, htimes, (times forward hnode).1⟩

end MemoryStore

end MountFs
