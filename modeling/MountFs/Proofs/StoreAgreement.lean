import MountFs.Proofs.HostTree

/-!
# The two stores agree

Over an empty directory that nobody else changes, a store on the host answers every run of
calls as a store in memory does (`run_alike_memory`).  Both are compared with the tree.  The
store in memory stands for it by `TreeStore.Represents`, and the root of the store on the
host mirrors it.

The two check in different orders.  The host looks for the parent of a new file before it
finds the name taken, and the store in memory the other way round.  One lemma per operation
shows that this cannot be told: what is there has a directory above it.

Entries are compared in outline.  Permissions, times, digests and counters are kept by each
store in its own way.
-/

namespace MountFs

/-- A read in the tree is a read in the table, noted at the place of the handle. -/
theorem TreeStore.read_eq (t : TreeStore) (now : Time) (id : HandleId) (size : Option Nat) :
    t.read now id size = t.handles.read id size >>= fun used =>
      .ok (match t.handles.live.get? id with
        | some k =>
            if t.holds k then
              TreeStore.changeAt { t with handles := used.1 } k (.restamp (.noteRead now))
            else { t with handles := used.1 }
        | none => { t with handles := used.1 }, used.2) := by
  rw [read, Handles.read, Handles.get]
  cases t.handles.live.get? id with
  | none => rfl
  | some k =>
      cases k.read size with
      | error e => rfl
      | ok used => rfl

theorem TreeStore.usage_eq (t : TreeStore) :
    t.usage = Usage.counting { openHandles := t.handles.count } (t.root.entries []) := by
  simp [usage, Usage.counting]

theorem TreeStore.walk_add {t : TreeStore} {names : List String} {now : Time} {new : FileTree}
    (free : t.checkFree names = .ok ()) (hn : Path.AllNames names) :
    (t.add now names new).root.walk names = some new := by
  obtain ⟨vacant, stamp, rows, found⟩ := Represents.checkFree_eq_ok_iff.mp free
  obtain ⟨dir, name, rfl, _, _⟩ := Represents.exists_snoc hn (by rintro rfl; simp at vacant)
  rw [List.dropLast_concat] at found
  rw [add, List.dropLast_concat, List.getLastD_concat, FileTree.walk_change_append, found,
    Option.bind_some, FileTree.withChild, FileTree.restamp, FileTree.walk_directory_cons,
    Registry.get?_insert, if_pos rfl]
  exact FileTree.walk_nil new

namespace HostStore

variable {s : HostStore} {w : World} {root : Place} {first : Nat} {t : TreeStore}
  {names : List String}

namespace Mirrors

/-! ## Operations -/

/-- Something stands in the way of a path. -/
def Obstructed (t : TreeStore) (path : String) : Prop :=
  Path.isAbsolute path = true ∧ t.root.blocked (Path.segments path) = true

/-- Names that lead nowhere. -/
theorem missing {α β : Type} {R : α → β → Prop} {path : String}
    (absolute : Path.isAbsolute path = true) (p : String) :
    Outcome.Alike (Obstructed t path) R
      (.error (.ofHost (t.root.obstacle (Path.segments path)) p)) (.error (.notFound p)) := by
  rw [FileTree.obstacle]
  cases way : t.root.blocked (Path.segments path) with
  | true => exact .obstructed ⟨absolute, way⟩ p
  | false => exact .failed (fun h => by rw [h.2] at way; cases way) _

theorem not_obstructed_of_relative {path : String} (relative : Path.isAbsolute path = false) :
    ¬Obstructed t path := by
  rintro ⟨absolute, _⟩
  rw [absolute] at relative
  cases relative

theorem not_obstructed {path : String} {sub : FileTree}
    (found : t.root.walk (Path.segments path) = some sub) : ¬Obstructed t path := by
  rintro ⟨_, way⟩
  rw [FileTree.blocked_eq_false_of_walk found] at way
  cases way

/-- A path that does not start at the root is refused.  With any other the operations go on
from the same names. -/
theorem atPath (m : s.Mirrors first root w t) {path : String}
    (takes : Takes root (Path.segments path)) {α β : Type} {blocked : Prop} {R : α → β → Prop}
    {f : String → Outcome α} {g : List String → Outcome β}
    (refused : Path.isAbsolute path = false → ¬blocked)
    (next : Path.isAbsolute path = true →
      Outcome.Alike blocked R (f (Path.render (Path.segments path))) (g (Path.segments path))) :
    Outcome.Alike blocked R (s.confine w path >>= f) (TreeStore.names? path >>= g) := by
  rw [m.confine_eq takes, TreeStore.names?]
  cases absolute : Path.isAbsolute path with
  | false =>
      rw [Path.normalize_eq_error absolute]
      exact .failed (refused absolute) _
  | true =>
      rw [Path.normalize_eq_ok absolute]
      exact next absolute

theorem checkWritable_bind (m : s.Mirrors first root w t) {α : Type} (next : Unit → Outcome α) :
    s.checkWritable >>= next = next () := by
  rw [checkWritable, m.writable]
  rfl

theorem stat (m : s.Mirrors first root w t) {path : String}
    (takes : Takes root (Path.segments path)) :
    Outcome.Alike (Obstructed t path) (fun e e' => e.outline = e'.outline) (s.stat w path)
      (t.stat path) := by
  refine m.atPath takes not_obstructed_of_relative fun absolute => ?_
  rw [entryAt, m.metadata_eq takes]
  rcases m.at? (Path.segments path) with ⟨free, none⟩ | ⟨item, sub, found, some, related⟩
  · rw [free, none]
    exact missing absolute _
  · rw [found, some]
    exact .returned (not_obstructed some) (related.outline_eq takes.allNames)

theorem listDirectory (m : s.Mirrors first root w t) (proper : t.root.Proper) {path : String}
    (takes : Takes root (Path.segments path)) :
    Outcome.Alike (Obstructed t path) (fun es es' => es.map Entry.outline = es'.map Entry.outline)
      (s.listDirectory w path) (t.listDirectory path) := by
  refine m.atPath takes not_obstructed_of_relative fun absolute => ?_
  rw [m.metadata_eq takes]
  rcases m.at? (Path.segments path) with ⟨free, none⟩ | ⟨item, sub, found, some, related⟩
  · rw [free, none]
    exact missing absolute _
  · rw [found, some]
    cases related with
    | file same => exact .failed (not_obstructed some) _
    | dir below =>
        refine .returned (not_obstructed some) (Entry.outline_sortByName ?_)
        cases proper.walk some with
        | directory nodup names _ => exact Item.Mirrors.outlines_eq below takes.allNames names

theorem checkParent_eq (m : s.Mirrors first root w t) {dir : List String} {name : String}
    (takes : Takes root (dir ++ [name])) :
    s.checkParent w (Path.render (dir ++ [name]))
      = match t.root.walk dir with
        | some (.directory _ _) => .ok ()
        | _ => .error (.invalidParent (Path.render (dir ++ [name]))) := by
  obtain ⟨hdir, hname⟩ := Path.allNames_append.mp takes.allNames
  rw [checkParent, hostParent, Path.parent?_render_snoc hdir (Path.allNames_singleton.mp hname),
    Option.getD_some, m.metadata_eq takes.front]
  rcases m.at? dir with ⟨free, none⟩ | ⟨item, sub, found, some, related⟩
  · rw [free, none]
  · rw [found, some]
    cases related with
    | file same => rfl
    | dir below => rfl

/-- What stands in the way of a new place, on both sides. -/
theorem create_cases (m : s.Mirrors first root w t) (takes : Takes root names) :
    (∃ item, w.at? (root ++ names) = some item
        ∧ t.checkFree names = .error (.alreadyExists (Path.render names)))
      ∨ (names ≠ [] ∧ w.at? (root ++ names) = none
        ∧ s.checkParent w (Path.render names) = .error (.invalidParent (Path.render names))
        ∧ t.checkFree names = .error (.invalidParent (Path.render names)))
      ∨ (names ≠ [] ∧ w.at? (root ++ names) = none
        ∧ s.checkParent w (Path.render names) = .ok () ∧ t.checkFree names = .ok ()) := by
  rw [TreeStore.checkFree]
  rcases m.at? names with ⟨free, none⟩ | ⟨item, sub, found, some, _⟩
  · have below : names ≠ [] := by
      rintro rfl
      simp at none
    obtain ⟨dir, name, rfl, _, _⟩ := TreeStore.Represents.exists_snoc takes.allNames below
    refine Or.inr ?_
    rw [m.checkParent_eq takes, none, List.dropLast_concat]
    cases t.root.walk dir with
    | none => exact Or.inl ⟨below, free, rfl, rfl⟩
    | some up =>
        cases up with
        | file stamp data => exact Or.inl ⟨below, free, rfl, rfl⟩
        | directory stamp rows => exact Or.inr ⟨below, free, rfl, rfl⟩
  · rw [some]
    exact Or.inl ⟨item, found, rfl⟩

/-- A new place on both sides, and what both tell about it. -/
theorem create (m : s.Mirrors first root w t) (proper : t.root.Proper) (takes : Takes root names)
    (free : t.checkFree names = .ok ()) (now : Time) (make : Nat → Item) {new : FileTree}
    (related : (make w.nextInode).Mirrors first new) :
    ∃ after e, w.create (s.hostText (Path.render names)) make = .ok after
      ∧ s.entryAt after (Path.render names) = .ok e
      ∧ s.Mirrors first root after (t.add now names new)
      ∧ e.outline = (new.entry names).outline := by
  obtain ⟨after, made, m'⟩ := m.add proper takes free now make related
  have there : (t.add now names new).root.walk names = some new :=
    TreeStore.walk_add free takes.allNames
  rcases m'.at? names with ⟨_, none⟩ | ⟨item, sub, found, some, same⟩
  · rw [there] at none
    cases none
  · rw [there] at some
    cases some
    refine ⟨after, _, made, ?_, m', same.outline_eq takes.allNames⟩
    rw [entryAt, m'.metadata_eq takes, found]
    rfl

/-- A place that is taken has a directory above it, so the host gets to its name. -/
theorem parentAndName_of_taken (m : s.Mirrors first root w t) (takes : Takes root names)
    (below : names ≠ []) {item : Item} (found : w.at? (root ++ names) = some item) :
    s.checkParent w (Path.render names) = .ok ()
      ∧ ∃ dir name, w.parentAndName (s.hostText (Path.render names)) = .ok (dir, name)
        ∧ w.at? (dir ++ [name]) = some item := by
  obtain ⟨dir, name, rfl, _, _⟩ := TreeStore.Represents.exists_snoc takes.allNames below
  rcases m.at? (dir ++ [name]) with ⟨free, _⟩ | ⟨_, sub, _, some, _⟩
  · rw [found] at free
    cases free
  · obtain ⟨stamp, rows, above, _⟩ := FileTree.exists_directory_of_walk_snoc some
    obtain ⟨parts, _⟩ := m.parentAndName_eq takes above
    rw [← List.append_assoc] at found
    refine ⟨?_, root ++ dir, name, parts, found⟩
    rw [m.checkParent_eq takes, above]

theorem createDirectory (m : s.Mirrors first root w t) (proper : t.root.Proper) {path : String}
    (takes : Takes root (Path.segments path)) (now : Time) :
    Outcome.Alike False (fun x y => s.Mirrors first root x.1 y.1 ∧ x.2.outline = y.2.outline)
      (s.createDirectory w path) (t.createDirectory now path) := by
  rw [HostStore.createDirectory, m.checkWritable_bind]
  refine m.atPath takes (fun _ => not_false) fun _ => ?_
  simp only [m.linkMetadata_eq takes, m.metadata_eq takes, Path.render_eq_root_iff takes.allNames]
  rcases m.create_cases takes with ⟨item, found, taken⟩ | ⟨below, free, parent, invalid⟩
      | ⟨below, free, parent, ok⟩
  · rw [found, taken, if_pos (by simp [Except.isOk, Except.toBool])]
    exact .failed not_false _
  · rw [free, parent, invalid, if_neg (by simp [below, Except.isOk, Except.toBool])]
    exact .failed not_false _
  · have related : (Item.dir w.nextInode World.newDirMode []).Mirrors first
        (.directory (.fresh t.nextNode t.permissions.directory now) .empty) := .dir .nil
    obtain ⟨after, e, made, told, m', same⟩ := m.create proper takes ok now
      (fun inode => .dir inode World.newDirMode []) related
    rw [free, parent, ok, if_neg (by simp [below, Except.isOk, Except.toBool])]
    simp only [bind, Except.bind, World.makeDir, made, onPath, told]
    exact .returned not_false ⟨m', same⟩

theorem createFile (m : s.Mirrors first root w t) (proper : t.root.Proper) {path : String}
    (takes : Takes root (Path.segments path)) (now : Time) (content : Bytes) :
    Outcome.Alike False (fun x y => s.Mirrors first root x.1 y.1 ∧ x.2.outline = y.2.outline)
      (s.createFile w path content) (t.createFile now path content) := by
  rw [HostStore.createFile, m.checkWritable_bind]
  refine m.atPath takes (fun _ => not_false) fun _ => ?_
  rw [m.limits]
  cases t.limits.checkFileSize (Path.render (Path.segments path)) content.length with
  | error e => exact .failed not_false e
  | ok _ =>
      simp only [bind, Except.bind, Path.render_eq_root_iff takes.allNames]
      rcases m.create_cases takes with ⟨item, found, taken⟩ | ⟨below, free, parent, invalid⟩
          | ⟨below, free, parent, ok⟩
      · rw [taken]
        by_cases top : Path.segments path = []
        · rw [if_pos top]
          exact .failed not_false _
        · -- The host looks at the parent first, and finds a directory.
          obtain ⟨parent, dir, name, parts, there⟩ := m.parentAndName_of_taken takes top found
          rw [if_neg top, parent]
          simp only [World.makeFile, World.create, bind, Except.bind, parts, there]
          exact .failed not_false _
      · rw [if_neg below, parent, invalid]
        exact .failed not_false _
      · have related : (Item.file w.nextInode World.newFileMode content).Mirrors first
            (.file (.fresh t.nextNode t.permissions.file now) content) := .file m.next
        obtain ⟨after, e, made, told, m', same⟩ := m.create proper takes ok now
          (fun inode => .file inode World.newFileMode content) related
        rw [if_neg below, parent, ok]
        simp only [World.makeFile, made, onPath, told]
        exact .returned not_false ⟨m', same⟩

/-- A directory that has something in it is not removed. -/
theorem remove_full (m : s.Mirrors first root w t) (takes : Takes root names) (below : names ≠ [])
    {inode mode : Nat} {children : List (String × Item)} {rows : Registry String FileTree}
    (found : w.at? (root ++ names) = some (.dir inode mode children))
    (related : List.Forall₂ (Registry.RowRel (Item.Mirrors first)) children rows.rows)
    (full : rows.keys ≠ []) :
    w.remove (s.hostText (Path.render names)) = .error .notEmpty := by
  obtain ⟨_, dir, name, parts, there⟩ := m.parentAndName_of_taken takes below found
  rw [World.remove, parts]
  simp only [bind, Except.bind, there]
  cases children with
  | nil => exact absurd (Registry.map_key_eq related).symm full
  | cons child rest => rfl

theorem deleteFile (m : s.Mirrors first root w t) (proper : t.root.Proper) {path : String}
    (takes : Takes root (Path.segments path)) (now : Time) :
    Outcome.Alike (Obstructed t path) (fun after t' => s.Mirrors first root after t')
      (s.deleteFile w path) (t.deleteFile now path) := by
  rw [HostStore.deleteFile, m.checkWritable_bind]
  refine m.atPath takes not_obstructed_of_relative fun absolute => ?_
  simp only [m.linkMetadata_eq takes, m.metadata_eq takes, Path.render_eq_root_iff takes.allNames]
  by_cases top : Path.segments path = []
  · have here : t.root.walk (Path.segments path) = some t.root := by
      rw [top, FileTree.walk_nil]
    rw [if_pos top, if_pos top]
    exact .failed (not_obstructed here) _
  · rw [if_neg top, if_neg top]
    rcases m.at? (Path.segments path) with ⟨free, none⟩ | ⟨item, sub, found, some, related⟩
    · rw [free, none]
      exact missing absolute _
    · have free := not_obstructed some
      rw [found, some]
      cases related with
      | file same =>
          obtain ⟨after, removed, m'⟩ := m.drop proper takes top some (fun _ _ h => nomatch h) now
          rw [removed]
          exact .returned free m'
      | @dir inode mode children stamp rows below =>
          dsimp only
          by_cases empty : rows.keys = []
          · obtain ⟨after, removed, m'⟩ := m.drop proper takes top some
              (fun _ _ h => by cases h; exact empty) now
            rw [removed, if_pos empty]
            exact .returned free m'
          · rw [m.remove_full takes top found below empty, if_neg empty]
            exact .failed free _

/-! ## Sessions -/

/-- Other tables on both sides. -/
theorem withHandles (m : s.Mirrors first root w t) {host tree : Handles}
    (related : host.Mirrors first tree)
    (paths : ∀ {id k}, tree.live.get? id = some k →
      k.path ≠ Path.root ∧ Takes root (Path.segments k.path)) :
    Mirrors first root { s with handles := host } w { t with handles := tree } where
  rooted := ⟨m.rooted.text, m.rooted.canonical⟩
  tree := m.tree
  next := m.next
  handles := related
  paths := paths
  writable := m.writable
  limits := m.limits
  policy := m.policy

/-- A session starts on both sides. -/
theorem addHandle (m : s.Mirrors first root w t) {blocked : Prop} (free : ¬blocked)
    (takes : Takes root names) (below : names ≠ []) {inode entryId : Nat}
    (same : inode + 2 = entryId + first) (mode : OpenMode) (buffer : Bytes) :
    Outcome.Alike blocked
      (fun x y => Mirrors first root { s with handles := x.1 } w { t with handles := y.1 }
        ∧ x.2 = y.2)
      (s.handles.add s.policy (Path.render names) inode mode buffer)
      (t.handles.add t.policy (Path.render names) entryId mode buffer) := by
  have host : s.handles.add s.policy (Path.render names) inode mode buffer
      = s.handles.add t.policy (Path.render names) inode mode buffer := by rw [m.policy]
  rw [host]
  refine (m.handles.add free same t.policy (Path.render names) mode buffer).imp ?_
  intro x y added related
  refine ⟨m.withHandles related.1 ?_, related.2⟩
  intro id k live
  rw [(Handles.add_eq_ok added).2.2.2] at live
  rcases Handles.get?_extended.mp live with ⟨_, rfl⟩ | ⟨_, old⟩
  · refine ⟨?_, ?_⟩
    · rw [ne_eq, Path.render_eq_root_iff takes.allNames]
      exact below
    · rw [Path.segments_render takes.allNames]
      exact takes
  · exact m.paths old

/-- A session ends on both sides. -/
theorem removeHandle (m : s.Mirrors first root w t) (id : HandleId) :
    Outcome.Alike False
      (fun x y => Mirrors first root { s with handles := x.1 } w { t with handles := y.1 }
        ∧ x.2.Mirrors first y.2 ∧ t.handles.live.get? id = some y.2)
      (s.handles.remove id) (t.handles.remove id) := by
  refine (m.handles.remove not_false id).imp ?_
  intro x y removed related
  obtain ⟨live, table⟩ := Handles.remove_eq_ok_iff.mp removed
  refine ⟨m.withHandles related.1 fun there => ?_, related.2, live⟩
  rw [table] at there
  exact m.paths (Handles.get?_without.mp there).2

/-- A use of a handle that goes alike on both sides. -/
theorem use (m : s.Mirrors first root w t) (num : t.handles.Numbered) {α : Type}
    {f g : Handle → Outcome (Handle × α)}
    (alike : ∀ {h k}, h.Mirrors first k →
      Outcome.Alike False (fun x y => x.1.Mirrors first y.1 ∧ x.2 = y.2) (f h) (g k))
    (session : ∀ {k k' a}, g k = .ok (k', a) → k.SameSession k') (id : HandleId) :
    Outcome.Alike False
      (fun x y => Mirrors first root { s with handles := x.1 } w { t with handles := y.1 }
        ∧ x.2 = y.2)
      (s.handles.get id >>= fun h => f h >>= fun used => .ok (s.handles.put used.1, used.2))
      (t.handles.get id >>= fun k => g k >>= fun used => .ok (t.handles.put used.1, used.2)) := by
  refine (m.handles.use not_false num.keys_nodup alike id).imp ?_
  intro x y used related
  obtain ⟨k, k', live, moved, table⟩ := Handles.use_eq_ok_iff.mp used
  refine ⟨m.withHandles related.1 ?_, related.2⟩
  intro other held there
  rw [table] at there
  rcases (num.get?_put live (session moved)).mp there with ⟨_, rfl⟩ | ⟨_, old⟩
  · rw [(session moved).path]
    exact m.paths live
  · exact m.paths old

theorem openFile (m : s.Mirrors first root w t)
    (top : ∃ stamp rows, t.root = .directory stamp rows) {path : String}
    (takes : Takes root (Path.segments path)) (mode : OpenMode) :
    Outcome.Alike (Obstructed t path) (fun x y => x.1.Mirrors first root w y.1 ∧ x.2 = y.2)
      (s.openFile w path mode) (t.openFile path mode) := by
  have allowed : (if mode.isWriter then s.checkWritable else .ok ()) = .ok () := by
    simp [checkWritable, m.writable]
  rw [openFile_eq, allowed]
  refine m.atPath takes not_obstructed_of_relative fun absolute => ?_
  rw [World.contents, m.metadata_eq takes]
  rcases m.at? (Path.segments path) with ⟨free, none⟩ | ⟨item, sub, found, some, related⟩
  · rw [free, none]
    exact missing absolute _
  · have free := not_obstructed some
    rw [found, some]
    cases related with
    | dir inside => exact .failed free _
    | @file inode bits data stamp same =>
        have below : Path.segments path ≠ [] := by
          obtain ⟨_, _, directory⟩ := top
          intro empty
          rw [empty, directory] at some
          cases some
        have added := m.addHandle free takes below same mode (if mode = .write then [] else data)
        cases mode <;> exact added.bind fun free related => .returned free related

theorem write (m : s.Mirrors first root w t) (num : t.handles.Numbered) (id : HandleId)
    (data : Bytes) :
    Outcome.Alike False (fun x y => x.1.Mirrors first root w y.1 ∧ x.2 = y.2) (s.write id data)
      (t.write id data) := by
  have alike : ∀ {h k : Handle}, h.Mirrors first k →
      Outcome.Alike False (fun x y => x.1.Mirrors first y.1 ∧ x.2 = y.2)
        (h.write s.limits data) (k.write t.limits data) := by
    intro h k related
    rw [m.limits]
    exact related.write not_false t.limits data
  exact (m.use num alike (fun moved => (Handle.write_eq_ok moved).1) id).bind
    fun free related => .returned free related

theorem seek (m : s.Mirrors first root w t) (num : t.handles.Numbered) (id : HandleId)
    (offset : Nat) :
    Outcome.Alike False (fun x y => x.1.Mirrors first root w y.1 ∧ x.2 = y.2) (s.seek id offset)
      (t.seek id offset) :=
  (m.use num (fun related => related.seek not_false offset)
    (fun moved => (Handle.seek_sameSession moved).1) id).bind
      fun free related => .returned free related

/-- A stamp changes in the tree, and nothing on the host. -/
theorem restampAt (m : s.Mirrors first root w t) (proper : t.root.Proper) (k : Handle)
    {f : Stamp → Stamp} (keeps : ∀ s, (f s).id = s.id) :
    s.Mirrors first root w (t.changeAt k (.restamp f)) := by
  obtain ⟨item, found, related⟩ := m.tree
  refine ⟨m.rooted, ⟨item, found, ?_⟩, m.next, m.handles, m.paths, m.writable, m.limits, m.policy⟩
  exact related.change_right proper fun same => same.restamp keeps

theorem read (m : s.Mirrors first root w t) (proper : t.root.Proper) (num : t.handles.Numbered)
    (now : Time) (id : HandleId) (size : Option Nat) :
    Outcome.Alike False (fun x y => x.1.Mirrors first root w y.1 ∧ x.2 = y.2) (s.read id size)
      (t.read now id size) := by
  rw [TreeStore.read_eq]
  refine Outcome.Alike.bind (m.use num (fun related => related.read not_false size)
    (fun moved => (Handle.read_sameSession moved).1) id) ?_
  intro x y free related
  refine .returned free ⟨?_, related.2⟩
  dsimp only
  split
  · split
    · exact related.1.restampAt proper _ fun _ => rfl
    · exact related.1
  · exact related.1

theorem abort (m : s.Mirrors first root w t) (id : HandleId) :
    Outcome.Alike False (fun s' t' => s'.Mirrors first root w t') (s.abort id) (t.abort id) :=
  (m.removeHandle id).bind fun free related => .returned free related.1

/-- The host finds the file of a handle exactly if the tree has its place. -/
theorem leadsToFile_eq (m : s.Mirrors first root w t) {flat : MemoryStore}
    (stands : t.Represents flat) (wf : flat.WellFormed) {id : HandleId} {h k : Handle}
    (live : t.handles.live.get? id = some k) (related : h.Mirrors first k) :
    s.leadsToFile w h.path h.entryId = t.holds k := by
  obtain ⟨below, takes⟩ := m.paths live
  have fits := wf.fits (stands.handles ▸ live)
  have told := m.metadata_eq takes
  rw [fits.normal.render_segments, hostText, if_neg below] at told
  cases related with
  | @mk _ path inode entryId _ _ _ same =>
      rw [leadsToFile, TreeStore.holds, told]
      rcases m.at? (Path.segments path) with ⟨free, none⟩ | ⟨item, sub, found, some, mirrors⟩
      · rw [free, none]
      · rw [found, some]
        cases mirrors with
        | file entry =>
            dsimp only [FileTree.stamp]
            rw [Bool.eq_iff_iff, beq_iff_eq, beq_iff_eq]
            omega
        | @dir inode mode children stamp rows _ =>
            -- The place of a live handle is not a directory.
            symm
            rw [← Bool.not_eq_true, beq_iff_eq]
            intro hid
            have hnode := stands.get?_eq (Path.allNames_segments path)
            rw [fits.normal.render_segments, some] at hnode
            cases fits.regular hnode hid

/-- A buffer becomes the content of a file on both sides. -/
theorem commit (m : s.Mirrors first root w t) (proper : t.root.Proper) {h k : Handle}
    (normal : Path.IsNormal k.path) (below : k.path ≠ Path.root)
    (takes : Takes root (Path.segments k.path)) (related : h.Mirrors first k) (now : Time)
    (leads : s.leadsToFile w h.path h.entryId = true) :
    ∃ after, w.overwrite (s.hostBelow h.path) h.buffer = .ok after
      ∧ s.Mirrors first root after (t.changeAt k (.commit now k.buffer)) := by
  obtain ⟨place, found, bits, data, file⟩ := leadsToFile_eq_true_iff.mp leads
  have text : s.hostBelow k.path = s.hostText (Path.render (Path.segments k.path)) := by
    rw [normal.render_segments, hostText, if_neg below]
  cases related with
  | mk same =>
      have here := found
      dsimp only at here
      rw [text, m.lookup_eq takes] at here
      split at here
      · cases here
        refine ⟨_, World.overwrite_eq_ok_iff.mpr ⟨_, _, bits, data, found, file, rfl⟩, ?_⟩
        refine ⟨m.rooted.modifyAt _ ?_ ?_, ?_, m.next, m.handles, m.paths, m.writable, m.limits,
          m.policy⟩
        · intro item
          cases item <;> rfl
        · intro item
          cases item <;> rfl
        · exact m.tree_modifyAt proper fun _ _ same => same.commit now _
      · cases here

theorem close (m : s.Mirrors first root w t) {flat : MemoryStore} (stands : t.Represents flat)
    (wf : flat.WellFormed) (now : Time) (id : HandleId) :
    Outcome.Alike False (fun _ _ => True) (s.close w id).outcome (t.close now id).outcome
      ∧ (s.close w id).state.1.Mirrors first root (s.close w id).state.2
        (t.close now id).state := by
  have removed := m.removeHandle id
  unfold HostStore.close TreeStore.close
  generalize s.handles.remove id = x at removed ⊢
  generalize t.handles.remove id = y at removed ⊢
  cases removed with
  | failed free e => exact ⟨.failed free e, m⟩
  | obstructed way _ => cases way
  | @returned free x y related =>
      obtain ⟨host, h⟩ := x
      obtain ⟨tree, k⟩ := y
      obtain ⟨ended, session, live⟩ := related
      have same := m.leadsToFile_eq stands wf live session
      dsimp only
      rw [same]
      cases held : t.holds k with
      | false =>
          cases session with
          | mk _ => exact ⟨.failed free _, ended⟩
      | true =>
          rw [held] at same
          obtain ⟨below, takes⟩ := m.paths live
          have normal := (wf.fits (stands.handles ▸ live)).normal
          have mode : h.mode = k.mode := by
            cases session
            rfl
          simp only [if_true, mode]
          cases k.mode.isWriter with
          | false => exact ⟨.returned free trivial, ended⟩
          | true =>
              obtain ⟨after, written, m'⟩ :=
                ended.commit stands.proper normal below takes session now same
              have written' : w.overwrite (s.hostBelow h.path) h.buffer = .ok after := written
              simp only [if_true, written']
              exact ⟨.returned free trivial, m'⟩

/-- The root itself can be looked up. -/
theorem takes_nil (m : s.Mirrors first root w t) : Takes root [] where
  each := by simp
  text := by
    rw [List.append_nil]
    exact m.rooted.checkText_eq_ok

/-- A mirror of a tree whose places the host takes is a tree of the host. -/
theorem proper {item : Item} {tree : FileTree} (related : item.Mirrors first tree)
    (proper : tree.Proper) (place : List String)
    (takes : ∀ names sub, tree.walk names = some sub → Takes root (place ++ names)) :
    item.Proper := by
  induction proper generalizing item place with
  | file =>
      cases related
      exact .file
  | @directory stamp rows nodup _ _ ih =>
      cases related with
      | @dir inode mode children _ _ below =>
          have keys : children.map (·.1) = rows.keys := Registry.map_key_eq below
          have taken : ∀ name ∈ children.map (·.1), Takes root (place ++ [name]) := by
            intro name mem
            rw [keys] at mem
            obtain ⟨sub, found⟩ := Registry.mem_keys_iff.mp mem
            refine takes [name] sub ?_
            rw [FileTree.walk_directory_cons, found, Option.bind_some, FileTree.walk_nil]
          refine .dir (keys ▸ nodup) (fun name mem => (taken name mem).each name (by simp)) ?_ ?_
          · intro name mem nul
            obtain ⟨clean, _, _⟩ := World.checkText_eq_ok_iff.mp (taken name mem).text
            refine clean ((Path.mem_toList_render (by decide) _).mpr ⟨name, ?_, nul⟩)
            simp
          · intro name child found
            rcases Item.Mirrors.child? below name with ⟨none, _⟩ | ⟨_, sub, some, here, same⟩
            · rw [found] at none
              cases none
            · rw [found] at some
              cases some
              refine ih here same (place ++ [name]) fun names sub walks => ?_
              rw [← List.append_cons]
              refine takes (name :: names) sub ?_
              rw [FileTree.walk_directory_cons, here]
              exact walks

/-- Every directory of a mirror can be opened. -/
theorem openAll_eq_ok (m : s.Mirrors first root w t) (proper : t.root.Proper)
    (takes : ∀ {names sub}, t.root.walk names = some sub → Takes root names) {item : Item}
    (found : w.at? root = some item) : item.openAll (Path.render root) = .ok () := by
  obtain ⟨_, there, related⟩ := m.tree
  cases found.symm.trans there
  have inOrder := Mirrors.proper related proper [] fun _ _ walks => takes walks
  refine (inOrder.openAll_eq_ok_iff m.rooted.allNames).mpr fun rest sub below _ => ?_
  rcases related.at? rest with ⟨none, _⟩ | ⟨_, _, _, walks, _⟩
  · rw [below] at none
    cases none
  · exact (takes walks).text

theorem usage (m : s.Mirrors first root w t) (proper : t.root.Proper)
    (takes : ∀ {names sub}, t.root.walk names = some sub → Takes root names)
    (top : ∃ stamp rows, t.root = .directory stamp rows) : s.usage w = .ok t.usage := by
  obtain ⟨stamp, rows, top⟩ := top
  have told := m.metadata_eq m.takes_nil
  rcases m.at? [] with ⟨_, none⟩ | ⟨item, sub, found, some, related⟩
  · rw [FileTree.walk_nil] at none
    cases none
  · rw [found] at told
    rw [FileTree.walk_nil, top] at some
    cases some
    cases related with
    | @dir inode mode children _ _ below =>
        have text : s.hostText (Path.render []) = s.root := if_pos rfl
        rw [text] at told
        rw [List.append_nil] at found
        have opened := m.openAll_eq_ok proper takes found
        rw [Item.openAll, m.rooted.checkText_eq_ok, ← m.rooted.text] at opened
        have opened : Item.openChildren s.root children = .ok () := opened
        rw [usage_eq told, opened]
        have counted := (Item.Mirrors.dir below : (Item.dir inode mode children).Mirrors first
          (.directory stamp rows)).tally_eq [] { openHandles := t.handles.count }
        rw [Item.tally] at counted
        rw [TreeStore.usage_eq, top, ← counted, ← m.handles.count_eq]
        rfl

end Mirrors

end HostStore

/-! ## Calls and runs -/

/-- The path of a call. -/
def Call.path? : Call → Option String
  | .createDirectory path | .createFile path _ | .deleteFile path | .listDirectory path
  | .stat path | .present path | .openFile path _ => some path
  | _ => none

/-- The path of a call that needs something to be there. -/
def Call.sought? : Call → Option String
  | .deleteFile path | .listDirectory path | .stat path | .openFile path _ => some path
  | _ => none

/-- An answer without what the two stores keep in their own ways. -/
def Answer.outline : Answer → Answer
  | .entry e => .entry e.outline
  | .entries es => .entries (es.map Entry.outline)
  | .description _ readOnly => .flag readOnly
  | answer => answer

/-- A file stands in the way of what a call seeks. -/
def TreeStore.Blocks (t : TreeStore) (c : Call) : Prop :=
  ∃ path, c.sought? = some path ∧ HostStore.Mirrors.Obstructed t path

theorem TreeStore.blocks_iff {t : TreeStore} {c : Call} {path : String}
    (h : c.sought? = some path) : t.Blocks c ↔ HostStore.Mirrors.Obstructed t path := by
  rw [Blocks, h]
  simp

theorem TreeStore.blocks_iff_false {t : TreeStore} {c : Call} (h : c.sought? = none) :
    t.Blocks c ↔ False := by
  rw [Blocks, h]
  simp

theorem Step.map_ofOutcome {σ α β : Type} (before : σ) (x : Outcome (σ × α)) (f : α → β) :
    (Step.ofOutcome before x).map f
      = Step.ofOutcome before (x.map fun after => (after.1, f after.2)) := by
  cases x with
  | error e => rfl
  | ok after => rfl

namespace HostStore

variable {s : HostStore} {w : World} {root : Place} {first : Nat} {t : TreeStore}

/-- A step of the store on the host and a step of the tree answer alike and leave stores
that mirror each other. -/
structure Agree (first : Nat) (root : Place) (blocked : Prop)
    (host : Step (HostStore × World) Answer) (tree : Step TreeStore Answer) : Prop where
  outcome : Outcome.Alike blocked (fun a b => a.outline = b.outline) host.outcome tree.outcome
  state : host.state.1.Mirrors first root host.state.2 tree.state

theorem Agree.of_iff {blocked way : Prop} (same : blocked ↔ way)
    {host : Step (HostStore × World) Answer} {tree : Step TreeStore Answer}
    (h : Agree first root way host tree) : Agree first root blocked host tree :=
  propext same ▸ h

theorem Agree.ofOutcome (m : s.Mirrors first root w t) {blocked : Prop}
    {x : Outcome ((HostStore × World) × Answer)} {y : Outcome (TreeStore × Answer)}
    (h : Outcome.Alike blocked
      (fun a b => a.1.1.Mirrors first root a.1.2 b.1 ∧ a.2.outline = b.2.outline) x y) :
    Agree first root blocked (.ofOutcome (s, w) x) (.ofOutcome t y) := by
  cases h with
  | returned free related => exact ⟨.returned free related.2, related.1⟩
  | failed free e => exact ⟨.failed free e, m⟩
  | obstructed way path => exact ⟨.obstructed way path, m⟩

namespace Mirrors

/-- One call is answered alike. -/
theorem call (m : s.Mirrors first root w t) {flat : MemoryStore} (stands : t.Represents flat)
    (wf : flat.WellFormed) (now : Time) (c : Call)
    (takes : ∀ {path}, c.path? = some path → Takes root (Path.segments path))
    (short : ∀ {names sub}, t.root.walk names = some sub → Takes root names) :
    Agree first root (t.Blocks c) (s.call w c) (t.call now c) := by
  have proper := stands.proper
  have num : t.handles.Numbered := stands.handles ▸ wf.table
  have top := stands.root_directory wf
  cases c with
  | createDirectory path =>
      refine .of_iff (TreeStore.blocks_iff_false rfl) ?_
      rw [HostStore.call, TreeStore.call, Step.map_ofOutcome]
      refine .ofOutcome m ((m.createDirectory proper (takes rfl) now).map fun related => ?_)
      exact ⟨related.1, congrArg Answer.entry related.2⟩
  | createFile path content =>
      refine .of_iff (TreeStore.blocks_iff_false rfl) ?_
      rw [HostStore.call, TreeStore.call, Step.map_ofOutcome]
      refine .ofOutcome m ((m.createFile proper (takes rfl) now content).map fun related => ?_)
      exact ⟨related.1, congrArg Answer.entry related.2⟩
  | deleteFile path =>
      refine .of_iff (TreeStore.blocks_iff rfl) ?_
      rw [HostStore.call, TreeStore.call]
      exact .ofOutcome m ((m.deleteFile proper (takes rfl) now).map fun m' => ⟨m', rfl⟩)
  | listDirectory path =>
      refine .of_iff (TreeStore.blocks_iff rfl) ⟨?_, m⟩
      exact (m.listDirectory proper (takes rfl)).map fun same => congrArg Answer.entries same
  | stat path =>
      refine .of_iff (TreeStore.blocks_iff rfl) ⟨?_, m⟩
      exact (m.stat (takes rfl)).map fun same => congrArg Answer.entry same
  | present path =>
      refine .of_iff (TreeStore.blocks_iff_false rfl) ⟨?_, m⟩
      have same := (m.stat (takes rfl)).isOk_eq
      rw [HostStore.call, TreeStore.call, same]
      exact .returned not_false rfl
  | openFile path mode =>
      refine .of_iff (TreeStore.blocks_iff rfl) ?_
      rw [HostStore.call, TreeStore.call, Step.map_ofOutcome]
      refine .ofOutcome m ((m.openFile top (takes rfl) mode).map fun related => ?_)
      exact ⟨related.1, congrArg Answer.handle related.2⟩
  | read id size =>
      refine .of_iff (TreeStore.blocks_iff_false rfl) ?_
      rw [HostStore.call, TreeStore.call, Step.map_ofOutcome]
      refine .ofOutcome m ((m.read proper num now id size).map fun related => ?_)
      exact ⟨related.1, congrArg Answer.bytes related.2⟩
  | write id data =>
      refine .of_iff (TreeStore.blocks_iff_false rfl) ?_
      rw [HostStore.call, TreeStore.call, Step.map_ofOutcome]
      refine .ofOutcome m ((m.write num id data).map fun related => ?_)
      exact ⟨related.1, congrArg Answer.number related.2⟩
  | seek id offset =>
      refine .of_iff (TreeStore.blocks_iff_false rfl) ?_
      rw [HostStore.call, TreeStore.call, Step.map_ofOutcome]
      refine .ofOutcome m ((m.seek num id offset).map fun related => ?_)
      exact ⟨related.1, congrArg Answer.number related.2⟩
  | close id =>
      obtain ⟨alike, m'⟩ := m.close stands wf now id
      exact .of_iff (TreeStore.blocks_iff_false rfl) ⟨alike.map fun _ => rfl, m'⟩
  | abort id =>
      refine .of_iff (TreeStore.blocks_iff_false rfl) ?_
      rw [HostStore.call, TreeStore.call]
      exact .ofOutcome m ((m.abort id).map fun m' => ⟨m', rfl⟩)
  | usage =>
      refine .of_iff (TreeStore.blocks_iff_false rfl) ⟨?_, m⟩
      rw [HostStore.call, TreeStore.call, m.usage proper short top]
      exact .returned not_false rfl
  | describe =>
      refine .of_iff (TreeStore.blocks_iff_false rfl) ⟨?_, m⟩
      rw [HostStore.call, TreeStore.call, m.writable]
      exact .returned not_false rfl

end Mirrors

end HostStore

/-- A path that was free before a call and is not free after it is named by the call. -/
theorem MemoryStore.Effect.names_new {s t : MemoryStore} {now : Time} {c : Call}
    {o : Outcome Answer} (h : Effect s now c o t) {path : String} {node : MemoryNode}
    (free : s.nodes.get? path = none) (found : t.nodes.get? path = some node) :
    ∃ text, c.path? = some text ∧ Path.normalize text = .ok path := by
  -- Whatever is not under a new name was there before.
  have added : ∀ {entry : Entry} {data : Bytes},
      ((s.addNode entry data).touchParent now entry.path).nodes.get? path = some node →
        path = entry.path := by
    intro entry data there
    rw [get?_touchParent, addNode, Registry.get?_insert, free] at there
    by_contra other
    rw [if_neg other] at there
    cases there
  cases h with
  | @madeDirectory text p normal _ => exact ⟨text, rfl, added found ▸ normal⟩
  | @madeFile text p _ normal _ _ => exact ⟨text, rfl, added found ▸ normal⟩
  | deleted =>
      rw [get?_touchParent, Registry.get?_erase, free] at found
      simp at found
  | taken =>
      rw [get?_noteRead] at found
      cases (congrArg (Option.map _) free).symm.trans found
  | closedWriter =>
      rw [get?_commit] at found
      cases (congrArg (Option.map _) free).symm.trans found
  | _ => cases free.symm.trans found

/-- A regular file stands above the place that a call seeks. -/
def MemoryStore.Blocks (s : MemoryStore) (c : Call) : Prop :=
  ∃ path front rest node, c.sought? = some path ∧ Path.isAbsolute path = true ∧ rest ≠ []
    ∧ Path.segments path = front ++ rest ∧ s.nodes.get? (Path.render front) = some node
    ∧ node.entry.isFile = true

theorem TreeStore.Represents.blocks_iff {t : TreeStore} {s : MemoryStore}
    (stands : t.Represents s) {c : Call} : t.Blocks c ↔ s.Blocks c := by
  constructor
  · rintro ⟨path, seeks, absolute, way⟩
    obtain ⟨front, rest, stamp, data, more, split, found⟩ := FileTree.blocked_iff.mp way
    have hn := Path.allNames_segments path
    rw [split] at hn
    refine ⟨path, front, rest, FileTree.node front (.file stamp data), seeks, absolute, more, split,
      ?_, rfl⟩
    rw [stands.get?_eq (Path.allNames_append.mp hn).1, found]
    rfl
  · rintro ⟨path, front, rest, node, seeks, absolute, more, split, found, file⟩
    have hn := Path.allNames_segments path
    rw [split] at hn
    rw [stands.get?_eq (Path.allNames_append.mp hn).1] at found
    obtain ⟨sub, walk, rfl⟩ := Option.map_eq_some_iff.mp found
    refine ⟨path, seeks, absolute, FileTree.blocked_iff.mpr ?_⟩
    cases sub with
    | directory stamp rows => cases file
    | file stamp data => exact ⟨front, rest, stamp, data, more, split, walk⟩

namespace HostStore

variable {s : HostStore} {w : World} {root : Place}

/-- Answer a call.  The host keeps its own times. -/
def step (now : HostStore × World) (e : Timed) : Step (HostStore × World) Answer :=
  now.1.call now.2 e.call

/-- The two stores at one event of a run: the answers are the same in outline, and so are
the causes of failures.  Only if a file is in the way of a path, the store in memory finds
nothing and the host finds something that is not a directory. -/
def AnswersAlike (host : Moment (HostStore × World) Timed Answer)
    (memory : Moment MemoryStore Timed Answer) : Prop :=
  host.event = memory.event
    ∧ Outcome.Alike (memory.before.Blocks memory.event.call) (fun a b => a.outline = b.outline)
      host.outcome memory.outcome

/-- The host takes every path that the store in memory has. -/
def TakesAll (root : Place) (flat : MemoryStore) : Prop :=
  ∀ {path node}, flat.nodes.get? path = some node → Takes root (Path.segments path)

theorem TakesAll.walk {flat : MemoryStore} {t : TreeStore} (all : TakesAll root flat)
    (stands : t.Represents flat) {names : List String} {sub : FileTree}
    (found : t.root.walk names = some sub) : Takes root names := by
  have hn := stands.proper.allNames found
  have node := stands.get?_eq hn
  rw [found] at node
  have takes := all node
  rw [Path.segments_render hn] at takes
  exact takes

/-- A path that comes with a call is one that the call names. -/
theorem TakesAll.effect {flat after : MemoryStore} (all : TakesAll root flat) {now : Time}
    {c : Call} {o : Outcome Answer} (effect : flat.Effect now c o after)
    (takes : ∀ {path}, c.path? = some path → Takes root (Path.segments path)) :
    TakesAll root after := by
  intro path node found
  cases old : flat.nodes.get? path with
  | some before => exact all old
  | none =>
      obtain ⟨text, named, normal⟩ := effect.names_new old found
      obtain ⟨_, rfl⟩ := Path.normalize_eq_ok_iff.mp normal
      rw [Path.segments_render (Path.allNames_segments text)]
      exact takes named

/-- Stores that mirror each other answer every run alike. -/
theorem Mirrors.run {first : Nat} {t : TreeStore} {flat : MemoryStore}
    (m : s.Mirrors first root w t) (stands : t.Represents flat) (wf : flat.WellFormed)
    (all : TakesAll root flat) {events : List Timed}
    (fits : ∀ e ∈ events, ∀ path ∈ e.call.path?, HostPath root path) :
    List.Forall₂ AnswersAlike (History.moments step (s, w) events) (flat.moments events) := by
  induction events generalizing s w t flat with
  | nil => exact .nil
  | cons e rest ih =>
      have takes : ∀ {path}, e.call.path? = some path → Takes root (Path.segments path) :=
        fun named => m.rooted.takes (fits e (List.mem_cons_self ..) _ named)
      obtain ⟨alike, m'⟩ := m.call stands wf e.now e.call takes (all.walk stands)
      obtain ⟨same, stands'⟩ := stands.call wf e.now e.call
      have effect := MemoryStore.step_effect flat e
      have rest := ih m' stands' (wf.effect effect) (all.effect effect takes)
        fun later there => fits later (List.mem_cons_of_mem _ there)
      refine .cons ⟨rfl, ?_⟩ rest
      rw [propext stands.blocks_iff, ← same] at alike
      exact alike

/-- Over an empty directory that nobody else changes, a store on the host answers every run
of calls like the store in memory. -/
theorem run_alike_memory (config : Config) (start : Time) (w : World) (text : String)
    (root : Place) (rooted : (create w text false config).RootedAt w root) {inode mode : Nat}
    (empty : w.at? root = some (.dir inode mode [])) (events : List Timed)
    (fits : ∀ e ∈ events, ∀ path ∈ e.call.path?, HostPath root path) :
    List.Forall₂ AnswersAlike (History.moments step (create w text false config, w) events)
      ((MemoryStore.create config start).moments events) := by
  have mirrors : (create w text false config).Mirrors w.nextInode root w
      (TreeStore.create config start) := by
    refine ⟨rooted, ⟨_, empty, .dir .nil⟩, Nat.add_comm _ _, ⟨.nil, rfl, rfl⟩, ?_, rfl, rfl, rfl⟩
    exact fun live => nomatch live
  have all : TakesAll root (MemoryStore.create config start) := by
    intro path node found
    rcases Registry.get?_insert_eq_some.mp found with ⟨rfl, _⟩ | ⟨_, nowhere⟩
    · have top : Path.segments Path.root = [] := Path.segments_render Path.allNames_nil
      exact top ▸ mirrors.takes_nil
    · cases nowhere
  exact mirrors.run (TreeStore.represents_create config start)
    (MemoryStore.wellFormed_create config start) all fits

/-- A directory with a file in it, written to through a handle.  Some calls fail: the file
is in the way of a path, and the directory is not empty. -/
def busyEvents : List Timed :=
  [⟨1, .createDirectory "/a"⟩, ⟨2, .createFile "/a/f" [120]⟩, ⟨3, .openFile "/a/../a/f" .append⟩,
    ⟨4, .write 1 [121, 122]⟩, ⟨5, .stat "/a/f/g"⟩, ⟨6, .createDirectory "/a/f/g"⟩,
    ⟨7, .deleteFile "/a"⟩, ⟨8, .close 1⟩, ⟨9, .listDirectory "/a"⟩, ⟨10, .usage⟩]

theorem run_alike_memory_busy :
    (create (World.bare ["root"]) "/root" false {}).RootedAt (World.bare ["root"]) ["root"]
      ∧ (World.bare ["root"]).at? ["root"] = some (.dir 2 World.newDirMode [])
      ∧ (∀ e ∈ busyEvents, ∀ path ∈ e.call.path?, HostPath ["root"] path)
      ∧ List.Forall₂ AnswersAlike
        (History.moments step
          (create (World.bare ["root"]) "/root" false {}, World.bare ["root"]) busyEvents)
        ((MemoryStore.create {} 0).moments busyEvents) := by
  have rooted :
      (create (World.bare ["root"]) "/root" false {}).RootedAt (World.bare ["root"]) ["root"] :=
    ⟨rfl, rfl⟩
  have empty : (World.bare ["root"]).at? ["root"] = some (.dir 2 World.newDirMode []) := rfl
  have fits : ∀ e ∈ busyEvents, ∀ path ∈ e.call.path?, HostPath ["root"] path := by
    decide +kernel
  exact ⟨rooted, empty, fits, run_alike_memory {} 0 _ _ _ rooted empty _ fits⟩

end HostStore

end MountFs
