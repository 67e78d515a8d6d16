import MountFs.Proofs.Exclusive
import MountFs.Proofs.Routing

/-!
# Whole files

A whole file is read or written in one session, from the open to the close.  In a store in
memory the session leaves the table of handles as it found it but for the next number
(`Handles.Settled`), so what can be read before and after is told by the entries alone.

A write makes the file first if it is missing (`MemoryStore.prepared`).  After that it
commits or does not: `Writes` has one constructor for each.  From the two follow what a
write that succeeds does and what one that fails leaves.
-/

namespace MountFs

/-! ## A session from start to end -/

namespace Handles

/-- Two tables with the same live handles and the same room. -/
structure Settled (t t' : Handles) : Prop where
  live : t'.live = t.live
  maxOpen : t'.maxOpen = t.maxOpen

variable {t t' : Handles}

theorem Settled.refl (t : Handles) : t.Settled t := ⟨rfl, rfl⟩

theorem Settled.count_eq (h : t.Settled t') : t'.count = t.count := by
  rw [count, h.live]
  rfl

theorem Numbered.get?_nextId (num : t.Numbered) : t.live.get? t.nextId = none := by
  cases found : t.live.get? t.nextId with
  | none => rfl
  | some h => exact absurd (num.id_lt found) (Nat.lt_irrefl _)

/-- A session that starts and ends leaves no handle. -/
theorem Numbered.settled (num : t.Numbered) (h : Handle) :
    t.Settled ((t.extended h).without t.nextId) where
  live := (Registry.erase_insert t.live t.nextId h).trans
    (Registry.erase_of_get?_eq_none num.get?_nextId)
  maxOpen := rfl

/-- Nor does one that was used in between. -/
theorem Numbered.settled_put (num : t.Numbered) (h : Handle) {h' : Handle} (id : h'.id = t.nextId) :
    t.Settled (((t.extended h).put h').without t.nextId) where
  live := by
    rw [Handles.put, id]
    exact (Registry.erase_adjust _ _ _).trans (num.settled h).live
  maxOpen := rfl

end Handles

/-- A new read handle gives the content that its open found. -/
theorem MemoryNode.exists_read (node : MemoryNode) (id : HandleId) (path : String) :
    ∃ h, (node.session id path .read).read none = .ok (h, node.data) := by
  refine ⟨⟨id, path, node.id, .read, node.data.length, node.data⟩, ?_⟩
  simp [Handle.read, MemoryNode.session, Bytes.slice]

/-- The content that a write in a mode keeps. -/
def MemoryNode.kept (node : MemoryNode) (mode : OpenMode) : Bytes :=
  if mode = .write then [] else node.data

/-- What a session on a file has in its buffer after one write of `content`. -/
theorem MemoryNode.buffer_of_write {node : MemoryNode} {id : HandleId} {path : String}
    {mode : OpenMode} {limits : Limits} {content : Bytes} {h : Handle} {count : Nat}
    (e : (node.session id path mode).write limits content = .ok (h, count)) :
    mode.isWriter = true ∧ h.buffer = node.kept mode ++ content := by
  have buffer := (Handle.write_eq_ok e).2
  cases mode with
  | read => cases e
  | write => exact ⟨rfl, buffer.trans (Bytes.overwrite_length [] content)⟩
  | append => exact ⟨rfl, buffer.trans (Bytes.overwrite_length node.data content)⟩

namespace MemoryStore

variable {s : MemoryStore} {path : String}

/-- The file that an open of a normal path finds, if there is room for a handle. -/
def openable (s : MemoryStore) (path : String) : Outcome MemoryNode :=
  match s.nodes.get? path with
  | none => .error (.notFound path)
  | some node =>
      if node.entry.isDir then .error (.isADirectory path)
      else if s.handles.maxOpen ≤ s.handles.count then
        .error (.tooManyOpenHandles s.handles.maxOpen)
      else .ok node

theorem openable_eq_ok_iff {node : MemoryNode} :
    s.openable path = .ok node ↔ s.nodes.get? path = some node ∧ node.entry.kind = .regular
      ∧ s.handles.count < s.handles.maxOpen := by
  rw [openable]
  cases s.nodes.get? path with
  | none => simp
  | some other =>
      dsimp only
      rw [Option.some.injEq, ← Entry.isDir_eq_false_iff, ← Nat.not_le]
      by_cases dir : other.entry.isDir = true
      · rw [if_pos dir]
        simp only [reduceCtorEq, false_iff]
        rintro ⟨rfl, file, _⟩
        rw [dir] at file
        cases file
      rw [if_neg dir]
      by_cases full : s.handles.maxOpen ≤ s.handles.count
      · rw [if_pos full]
        simp only [reduceCtorEq, false_iff]
        exact fun ⟨_, _, room⟩ => room full
      · rw [if_neg full, Except.ok.injEq]
        refine ⟨?_, fun h => h.1⟩
        rintro rfl
        exact ⟨rfl, Bool.eq_false_iff.mpr dir, full⟩

/-- The store with the next session open on a file. -/
def opened (s : MemoryStore) (path : String) (mode : OpenMode) (node : MemoryNode) : MemoryStore :=
  { s with handles := s.handles.extended (node.session s.handles.nextId path mode) }

/-- The same after a use of the handle, which is `h` now. -/
def used (s : MemoryStore) (path : String) (mode : OpenMode) (node : MemoryNode) (h : Handle) :
    MemoryStore :=
  { s with handles := (s.opened path mode node).handles.put h }

theorem get?_opened (s : MemoryStore) (path : String) (mode : OpenMode) (node : MemoryNode) :
    (s.opened path mode node).handles.live.get? s.handles.nextId
      = some (node.session s.handles.nextId path mode) :=
  Handles.get?_extended.mpr (Or.inl ⟨rfl, rfl⟩)

theorem get?_used (num : s.handles.Numbered) {mode : OpenMode} {node : MemoryNode} {h : Handle}
    (same : (node.session s.handles.nextId path mode).SameSession h) :
    (s.used path mode node h).handles.live.get? s.handles.nextId = some h := by
  have num' : (s.opened path mode node).handles.Numbered := num.extended rfl
  exact (num'.get?_put (s.get?_opened path mode node) same).mpr (Or.inl ⟨rfl, rfl⟩)

theorem holds_used {mode : OpenMode} {node : MemoryNode} {h : Handle}
    (found : s.nodes.get? path = some node)
    (same : (node.session s.handles.nextId path mode).SameSession h) :
    (s.used path mode node h).Holds h.path h.entryId := by
  rw [same.path, same.entryId]
  exact ⟨node, found, rfl⟩

/-- An open, by what it finds. -/
theorem openFile_of_normal (s : MemoryStore) (normal : Path.IsNormal path) (mode : OpenMode) :
    s.openFile path mode = (s.openable path).bind fun node =>
      if mode.isWriter ∧ s.policy = .exclusive ∧ s.handles.hasWriter path node.id then
        .error (.busy path)
      else .ok (s.opened path mode node, s.handles.nextId) := by
  rw [openFile, normal.normalize_eq, openable]
  simp only [bind, Except.bind]
  cases s.nodes.get? path with
  | none => rfl
  | some node =>
      dsimp only
      by_cases dir : node.entry.isDir = true
      · simp only [if_pos dir]
      by_cases full : s.handles.maxOpen ≤ s.handles.count
      · simp only [Handles.add, if_neg dir, if_pos full]
      by_cases busy : mode.isWriter ∧ s.policy = .exclusive ∧ s.handles.hasWriter path node.id
      · simp only [Handles.add, if_neg dir, if_neg full, if_pos busy]
      · simp only [Handles.add, if_neg dir, if_neg full, if_neg busy]
        rfl

/-! ## Reading -/

theorem Holds.noteRead {place : String} {id : Nat} (held : s.Holds place id) (now : Time)
    (path : String) (read : Nat) : (s.noteRead now path read).Holds place id := by
  obtain ⟨node, found, same⟩ := held
  refine ⟨_, (get?_noteRead ..).trans (congrArg (Option.map _) found), ?_⟩
  dsimp only
  split
  · exact same
  · exact same

/-- To take everything and close gives the content that the open found. -/
theorem exists_read_opened (num : s.handles.Numbered) (now : Time) {node : MemoryNode}
    (found : s.nodes.get? path = some node) :
    ∃ after, (s.opened path .read node).read now s.handles.nextId none = .ok (after, node.data)
      ∧ (after.close now s.handles.nextId).outcome = .ok () := by
  obtain ⟨h, use⟩ := node.exists_read s.handles.nextId path
  have same := (Handle.read_sameSession use).1
  have live := s.get?_opened path .read node
  have reads := Handles.read_eq_ok_iff.mpr ⟨_, h, live, use, rfl⟩
  refine ⟨(s.used path .read node h).noteRead now path node.id, ?_, ?_⟩
  · rw [read, Handles.get_eq_ok_iff.mpr live]
    simp only [bind, Except.bind, reads]
    rfl
  · have live' : ((s.used path .read node h).noteRead now path node.id).handles.live.get?
        s.handles.nextId = some h := by
      rw [noteRead_handles]
      exact get?_used num same
    rw [close_of_holds now live' ((holds_used found same).noteRead now path node.id)]

/-- A session that takes everything answers the content that its open found. -/
theorem readWhole_outcome (num : s.handles.Numbered) (normal : Path.IsNormal path) (w : World)
    (now : Time) :
    ((Store.memory s).readWhole w now path).outcome = (s.openable path).map (·.data) := by
  have opens := openFile_of_normal s normal .read
  cases found : s.openable path with
  | error e =>
      rw [found] at opens
      simp only [Store.readWhole, Store.openFile, opens]
      rfl
  | ok node =>
      rw [found, Except.bind, if_neg (by simp [OpenMode.isWriter])] at opens
      obtain ⟨after, reads, closes⟩ := exists_read_opened num now (openable_eq_ok_iff.mp found).1
      simp only [Store.readWhole, Store.openFile, Store.inMemory, Step.ofOutcome, Step.lift, opens,
        Store.read, reads, Store.close, closes]
      rfl

/-! ## Writing -/

/-- What a write of a whole file that is there may leave behind, and its outcome. -/
inductive Writes (s : MemoryStore) (now : Time) (path : String) (mode : OpenMode)
    (content : Bytes) : Step MemoryStore Unit → Prop
  /-- No entry changes. -/
  | refused {table : Handles} {e : FsError} (settled : s.handles.Settled table) :
      Writes s now path mode content ⟨{ s with handles := table }, .error e⟩
  /-- The file gets the content, which an append puts behind the old one. -/
  | committed {node : MemoryNode} {table : Handles} (found : s.openable path = .ok node)
      (settled : s.handles.Settled table) :
      Writes s now path mode content
        ⟨{ s with handles := table }.commit now path (node.kept mode ++ content), .ok ()⟩

/-- A write through a new handle. -/
theorem write_opened (s : MemoryStore) (path : String) (mode : OpenMode) (node : MemoryNode)
    (content : Bytes) :
    (s.opened path mode node).write s.handles.nextId content
      = ((node.session s.handles.nextId path mode).write s.limits content).map
          fun wrote => (s.used path mode node wrote.1, wrote.2) := by
  have limits : (s.opened path mode node).limits = s.limits := rfl
  rw [write, Handles.write, Handles.get_eq_ok_iff.mpr (s.get?_opened path mode node), limits]
  simp only [bind, Except.bind]
  cases (node.session s.handles.nextId path mode).write s.limits content with
  | error e => rfl
  | ok wrote => rfl

/-- To give up a session at once. -/
theorem abort_opened (s : MemoryStore) (path : String) (mode : OpenMode) (node : MemoryNode) :
    (s.opened path mode node).abort s.handles.nextId
      = .ok { s with handles := (s.opened path mode node).handles.without s.handles.nextId } := by
  rw [abort, Handles.remove_eq_ok_iff.mpr ⟨s.get?_opened path mode node, rfl⟩]
  rfl

/-- The close of a session after a write. -/
theorem close_used (num : s.handles.Numbered) (now : Time) {mode : OpenMode} {node : MemoryNode}
    {h : Handle} (found : s.nodes.get? path = some node) (writer : mode.isWriter = true)
    (same : (node.session s.handles.nextId path mode).SameSession h) :
    (s.used path mode node h).close now s.handles.nextId
      = ⟨{ s with handles := (s.used path mode node h).handles.without s.handles.nextId }.commit
          now path h.buffer, .ok ()⟩ := by
  have writer' : h.mode.isWriter = true := by
    rw [same.mode]
    exact writer
  rw [close_of_holds now (get?_used num same) (holds_used found same), if_pos writer', same.path]
  rfl

theorem writes_writeOver (num : s.handles.Numbered) (normal : Path.IsNormal path) (w : World)
    (now : Time) (mode : OpenMode) (content : Bytes) :
    ∃ step, (Store.memory s).writeOver w now path mode content = Store.inMemory w step
      ∧ s.Writes now path mode content step := by
  have opens := openFile_of_normal s normal mode
  cases found : s.openable path with
  | error e =>
      rw [found, Except.bind] at opens
      refine ⟨⟨s, .error e⟩, ?_, .refused (.refl _)⟩
      simp only [Store.writeOver, Store.openFile, opens]
      rfl
  | ok node =>
      rw [found, Except.bind] at opens
      split at opens
      next busy =>
        refine ⟨⟨s, .error (.busy path)⟩, ?_, .refused (.refl _)⟩
        simp only [Store.writeOver, Store.openFile, opens]
        rfl
      next alone =>
        have writes := s.write_opened path mode node content
        cases use : (node.session s.handles.nextId path mode).write s.limits content with
        | error e =>
            rw [use] at writes
            refine ⟨⟨_, .error e⟩, ?_,
              .refused (num.settled (node.session s.handles.nextId path mode))⟩
            simp only [Store.writeOver, Store.openFile, opens, Store.inMemory, Step.ofOutcome,
              Step.lift, Store.write, writes, Store.abort, abort_opened, Except.map]
            rfl
        | ok wrote =>
            obtain ⟨h, count⟩ := wrote
            rw [use] at writes
            have same := (Handle.write_eq_ok use).1
            obtain ⟨writer, buffer⟩ := MemoryNode.buffer_of_write use
            have closes := close_used num now (openable_eq_ok_iff.mp found).1 writer same
            rw [buffer] at closes
            refine ⟨_, ?_, .committed found
              (num.settled_put (node.session s.handles.nextId path mode) same.id)⟩
            simp only [Store.writeOver, Store.openFile, opens, Store.inMemory, Step.ofOutcome,
              Step.lift, Store.write, writes, Store.close, closes, Except.map]
            rfl

/-! ## A file that is missing -/

/-- The store with an empty file at a path, if one can be made there. -/
def prepared (s : MemoryStore) (now : Time) (path : String) : MemoryStore :=
  match s.checkCreatable path with
  | .ok _ => (s.addNode (.file now path s.permissions.file []) []).touchParent now path
  | .error _ => s

theorem prepared_of_creatable (now : Time) (free : s.checkCreatable path = .ok ()) :
    s.prepared now path
      = (s.addNode (.file now path s.permissions.file []) []).touchParent now path := by
  rw [prepared, free]

theorem prepared_of_error (now : Time) {e : FsError} (taken : s.checkCreatable path = .error e) :
    s.prepared now path = s := by
  rw [prepared, taken]

@[simp] theorem prepared_handles (s : MemoryStore) (now : Time) (path : String) :
    (s.prepared now path).handles = s.handles := by
  rw [prepared]
  split
  · rw [touchParent_handles]
    rfl
  · rfl

/-- Making an empty file. -/
theorem createFile_of_normal (s : MemoryStore) (now : Time) (normal : Path.IsNormal path) :
    s.createFile now path [] = (s.checkCreatable path).map fun _ =>
      (s.prepared now path, .file now path s.permissions.file []) := by
  have fits : s.limits.checkFileSize path 0 = .ok () := if_pos (Nat.zero_le _)
  rw [createFile, normal.normalize_eq]
  simp only [bind, Except.bind, List.length_nil, fits]
  cases free : s.checkCreatable path with
  | error e => rfl
  | ok _ =>
      rw [prepared_of_creatable now free]
      rfl

theorem writes_writeWith (num : s.handles.Numbered) (normal : Path.IsNormal path) (w : World)
    (now : Time) (mode : OpenMode) (content : Bytes) :
    ∃ step, (Store.memory s).writeWith w now path mode content = Store.inMemory w step
      ∧ (s.prepared now path).Writes now path mode content step := by
  have makes := s.createFile_of_normal now normal
  cases free : s.checkCreatable path with
  | ok _ =>
      rw [free] at makes
      have num' : (s.prepared now path).handles.Numbered := by
        rw [prepared_handles]
        exact num
      obtain ⟨step, same, writes⟩ := writes_writeOver num' normal w now mode content
      refine ⟨step, ?_, writes⟩
      simp only [Store.writeWith, Store.createFile, makes]
      exact same
  | error e =>
      rw [free] at makes
      rw [prepared_of_error now free]
      have refused : s.Writes now path mode content ⟨s, .error e⟩ := .refused (.refl _)
      -- An entry that is there already is written over, any other refusal is the answer.
      cases e with
      | alreadyExists _ =>
          obtain ⟨step, same, writes⟩ := writes_writeOver num normal w now mode content
          refine ⟨step, ?_, writes⟩
          simp only [Store.writeWith, Store.createFile, makes]
          exact same
      | _ =>
          refine ⟨_, ?_, refused⟩
          simp only [Store.writeWith, Store.createFile, makes]
          rfl

/-- The new file. -/
theorem get?_prepared_self (now : Time) (free : s.checkCreatable path = .ok ()) :
    (s.prepared now path).nodes.get? path
      = some ⟨s.nextNode, .file now path s.permissions.file [], []⟩ := by
  obtain ⟨missing, up, dir, parent, found, _⟩ := checkCreatable_eq_ok_iff.mp free
  have above : Path.parent? path ≠ some path := by
    rw [parent]
    rintro ⟨⟩
    rw [missing] at found
    cases found
  rw [prepared_of_creatable now free, get?_touchParent, addNode, Registry.get?_insert]
  simp [Entry.file, above]

/-- The other entries. -/
theorem get?_prepared_of_ne (now : Time) (free : s.checkCreatable path = .ok ()) {q : String}
    (other : q ≠ path) :
    (s.prepared now path).nodes.get? q = (s.nodes.get? q).map fun node =>
      if Path.parent? path = some q then { node with entry := node.entry.touch now } else node := by
  have away : q ≠ (Entry.file now path s.permissions.file []).path := other
  rw [prepared_of_creatable now free, get?_touchParent, addNode, Registry.get?_insert, if_neg away]

/-- The entry at a path is the same in two stores, or it is a directory in both. -/
inductive SameFile (s t : MemoryStore) (q : String) : Prop
  | same (eq : t.nodes.get? q = s.nodes.get? q)
  | directory {dir dir' : MemoryNode} (before : s.nodes.get? q = some dir)
      (after : t.nodes.get? q = some dir') (kind : dir.entry.kind = .directory)
      (kind' : dir'.entry.kind = .directory)

theorem sameFile_prepared (s : MemoryStore) (now : Time) (path : String) {q : String}
    (there : s.nodes.get? q ≠ none ∨ q ≠ path) : s.SameFile (s.prepared now path) q := by
  cases free : s.checkCreatable path with
  | error e =>
      rw [prepared_of_error now free]
      exact .same rfl
  | ok _ =>
      obtain ⟨missing, up, dir, parent, found, kind⟩ := checkCreatable_eq_ok_iff.mp free
      have other : q ≠ path := by
        rcases there with there | other
        · rintro rfl
          exact there missing
        · exact other
      have after := get?_prepared_of_ne now free other
      by_cases above : up = q
      · subst above
        rw [found, Option.map_some, if_pos parent] at after
        exact .directory found after kind kind
      · have beside : Path.parent? path ≠ some q := by simp [parent, above]
        simp only [if_neg beside, Option.map_id'] at after
        exact .same after

theorem SameFile.openable_eq {t : MemoryStore} {q : String} (h : s.SameFile t q)
    (settled : s.handles.Settled t.handles) : t.openable q = s.openable q := by
  rw [openable, openable, settled.count_eq, settled.maxOpen]
  cases h with
  | same eq => rw [eq]
  | directory before after kind kind' =>
      rw [before, after]
      dsimp only
      rw [if_pos (Entry.isDir_iff.mpr kind), if_pos (Entry.isDir_iff.mpr kind')]

/-- A file that a write finds was there before, or is new and empty. -/
theorem openable_of_prepared {now : Time} {node : MemoryNode}
    (found : (s.prepared now path).openable path = .ok node) :
    s.openable path = .ok node
      ∨ s.openable path = .error (.notFound path) ∧ node.data = [] := by
  cases free : s.checkCreatable path with
  | error e =>
      rw [prepared_of_error now free] at found
      exact Or.inl found
  | ok _ =>
      have new := (openable_eq_ok_iff.mp found).1
      rw [get?_prepared_self now free, Option.some.injEq] at new
      rw [openable, (checkCreatable_eq_ok_iff.mp free).1, ← new]
      exact Or.inr ⟨rfl, rfl⟩

/-- What can be read after a write that succeeds. -/
theorem Writes.openable_of_ok {t : MemoryStore} {now : Time} {mode : OpenMode} {content : Bytes}
    (h : s.Writes now path mode content ⟨t, .ok ()⟩) :
    ∃ node, s.openable path = .ok node
      ∧ (t.openable path).map (·.data) = .ok (node.kept mode ++ content)
      ∧ ∀ q, q ≠ path → t.openable q = s.openable q := by
  cases h with
  | @committed node table found settled =>
      obtain ⟨there, file, room⟩ := openable_eq_ok_iff.mp found
      refine ⟨node, found, ?_, ?_⟩
      · have after := get?_commit { s with handles := table } now path
          (node.kept mode ++ content) path
        rw [there, Option.map_some, if_pos rfl] at after
        have room' : table.count < table.maxOpen := by
          rw [settled.count_eq, settled.maxOpen]
          exact room
        rw [openable_eq_ok_iff.mpr ⟨after, file, room'⟩]
        rfl
      · intro q other
        refine SameFile.openable_eq (.same ?_) settled
        rw [get?_commit]
        simp only [if_neg other, Option.map_id']

theorem Writes.nodes_of_error {t : MemoryStore} {now : Time} {mode : OpenMode} {content : Bytes}
    {e : FsError} (h : s.Writes now path mode content ⟨t, .error e⟩) : t.nodes = s.nodes := by
  cases h with
  | refused => rfl

end MemoryStore

theorem Step.eq_of_outcome {σ α : Type} {x : Step σ α} {o : Outcome α} (h : x.outcome = o) :
    x = ⟨x.state, o⟩ := by
  rw [← h]

/-- A virtual store that has a table of handles is in memory. -/
theorem Store.exists_memory {s : Store} (virtual : s.kind = .virtual)
    (works : s.handles?.isSome = true) : ∃ t, s = .memory t := by
  cases s with
  | memory t => exact ⟨t, rfl⟩
  | host t => cases virtual
  | failing => cases works

/-! ## In a namespace -/

namespace Namespace

variable {ns : Namespace} {path : String}

/-- A read of a path answers the content of the file it leads to. -/
theorem Tidy.readWhole_of_route (tidy : ns.Tidy) {r : Route} {s : MemoryStore}
    (found : ns.route path = .ok r) (memory : ns.storeAt r.mount.store = .memory s) (now : Time) :
    (ns.readWhole now path).outcome = (s.openable r.inner).map (·.data) := by
  have num := (tidy.wellFormed memory).table
  have normal := (tidy.route_eq_ok_iff.mp found).normal
  rw [readWhole, onRoute_of_route found, memory]
  exact MemoryStore.readWhole_outcome num normal ns.world now

theorem readWhole_of_error {e : FsError} (lost : ns.route path = .error e) (now : Time) :
    (ns.readWhole now path).outcome = .error e := by
  rw [readWhole, onRoute, lost]

theorem writeWith_of_route {r : Route} (found : ns.route path = .ok r) (now : Time)
    (mode : OpenMode) (content : Bytes) :
    ns.writeWith now path mode content
      = ((ns.storeAt r.mount.store).writeWith ns.world now r.inner mode content).lift
          (ns.withStore r.mount.store) :=
  onRoute_of_route found _

/-- A write leaves the mounts and the current directory as they are. -/
theorem route_writeWith (ns : Namespace) (now : Time) (path : String) (mode : OpenMode)
    (content : Bytes) (other : String) :
    (ns.writeWith now path mode content).state.route other = ns.route other := by
  rw [writeWith, onRoute]
  cases ns.route path with
  | error e => rfl
  | ok r => rfl

theorem writeWith_effect (ns : Namespace) (now : Time) (path : String) (mode : OpenMode)
    (content : Bytes) :
    Effect ns (.ask now (.writeWhole path content)) (ns.writeWith now path mode content).state :=
  onRoute_effect rfl fun _ _ _ => Store.leads_writeWith ..

theorem Tidy.writeWith (tidy : ns.Tidy) (now : Time) (path : String) (mode : OpenMode)
    (content : Bytes) : (ns.writeWith now path mode content).state.Tidy :=
  tidy.effect (ns.writeWith_effect now path mode content)

/-- What a write does to each of the stores in memory: to the one that the path leads to it
writes, and the others stay as they are. -/
theorem Tidy.memory_of_writeWith (tidy : ns.Tidy) (now : Time) (path : String) (mode : OpenMode)
    (content : Bytes) {index : Nat} {s : MemoryStore} (memory : ns.storeAt index = .memory s) :
    ∃ t, (ns.writeWith now path mode content).state.storeAt index = .memory t ∧
      ((∃ r, ns.route path = .ok r ∧ r.mount.store = index
          ∧ (s.prepared now r.inner).Writes now r.inner mode content
            ⟨t, (ns.writeWith now path mode content).outcome⟩)
        ∨ (∀ r, ns.route path = .ok r → r.mount.store ≠ index) ∧ t = s) := by
  cases found : ns.route path with
  | error e =>
      refine ⟨s, ?_, Or.inr ⟨fun r => ?_, rfl⟩⟩
      · rw [Namespace.writeWith, onRoute, found]
        exact memory
      · rintro ⟨⟩
  | ok r =>
      rw [writeWith_of_route found]
      by_cases here : r.mount.store = index
      · subst here
        have num := (tidy.wellFormed memory).table
        have normal := (tidy.route_eq_ok_iff.mp found).normal
        obtain ⟨step, same, writes⟩ :=
          MemoryStore.writes_writeWith num normal ns.world now mode content
        rw [memory, same]
        refine ⟨step.state, ?_, Or.inl ⟨r, rfl, rfl, writes⟩⟩
        exact storeAt_withStore_self (by simp [memory]) _
      · refine ⟨s, ?_, Or.inr ⟨?_, rfl⟩⟩
        · exact (ns.storeAt_withStore_of_ne here _).trans memory
        · rintro r' ⟨⟩
          exact here

/-! ## What can be read after a write -/

/-- Every mount is a store in memory, and no store is mounted twice. -/
structure SeparateMounts (ns : Namespace) : Prop where
  memory : ∀ {m}, m ∈ ns.mounts → ∃ s, ns.storeAt m.store = .memory s
  once : (ns.mounts.map fun m => m.store).Nodup

/-- The same, by what a namespace tells about its mounts. -/
theorem SeparateMounts.of_kinds
    (virtual : ∀ m ∈ ns.mounts, (ns.storeAt m.store).kind = .virtual
      ∧ (ns.storeAt m.store).handles?.isSome)
    (once : (ns.mounts.map fun m => m.store).Nodup) : ns.SeparateMounts where
  memory := fun there => Store.exists_memory (virtual _ there).1 (virtual _ there).2
  once := once

/-- The content of a path.  A path without an entry counts as empty. -/
inductive Content (ns : Namespace) (path : String) (content : Bytes) : Prop
  | there (reads : ∀ now, (ns.readWhole now path).outcome = .ok content)
  | missing (inner : String)
      (lost : ∀ now, (ns.readWhole now path).outcome = .error (.notFound inner))
      (empty : content = [])

/-- Every other path reads in a later namespace as it did before, at any time. -/
def ReadsAlike (ns : Namespace) (path : String) (later : Namespace) : Prop :=
  ∀ other now now', ns.absolute other ≠ ns.absolute path →
    (later.readWhole now' other).outcome = (ns.readWhole now other).outcome

/-- Every file of a store in memory is in a later namespace as it was. -/
def FilesKept (ns later : Namespace) : Prop :=
  ∀ index s, ns.storeAt index = .memory s → ∃ t, later.storeAt index = .memory t ∧
    ∀ q node, s.nodes.get? q = some node → node.entry.kind = .regular →
      t.nodes.get? q = some node

/-- A write to a store in memory that succeeds can be read back, behind what it keeps. -/
theorem Tidy.exists_content_of_route (tidy : ns.Tidy) {r : Route} {s : MemoryStore}
    (found : ns.route path = .ok r) (memory : ns.storeAt r.mount.store = .memory s) {now : Time}
    {mode : OpenMode} {content : Bytes} {after : Namespace}
    (h : ns.writeWith now path mode content = ⟨after, .ok ()⟩) :
    ∃ node : MemoryNode, ns.Content path node.data
      ∧ ∀ later, (after.readWhole later path).outcome = .ok (node.kept mode ++ content) := by
  have tidy' := tidy.writeWith now path mode content
  have routes := ns.route_writeWith now path mode content path
  obtain ⟨t, memory', ⟨r', found', _, writes⟩ | ⟨away, _⟩⟩ :=
    tidy.memory_of_writeWith now path mode content memory
  · cases found.symm.trans found'
    rw [h] at tidy' routes memory' writes
    obtain ⟨node, finds, reads, _⟩ := writes.openable_of_ok
    refine ⟨node, ?_, fun later => ?_⟩
    · have before := tidy.readWhole_of_route found memory
      rcases MemoryStore.openable_of_prepared finds with there | ⟨lost, empty⟩
      · exact .there fun now => (before now).trans (by rw [there]; rfl)
      · exact .missing r.inner (fun now => (before now).trans (by rw [lost]; rfl)) empty
    · rw [tidy'.readWhole_of_route (routes.trans found) memory', reads]
  · exact absurd rfl (away r found)

theorem exists_route_of_writeWith {now : Time} {mode : OpenMode} {content : Bytes}
    {after : Namespace} (h : ns.writeWith now path mode content = ⟨after, .ok ()⟩) :
    ∃ r, ns.route path = .ok r := by
  cases found : ns.route path with
  | error e =>
      rw [Namespace.writeWith, onRoute, found] at h
      cases h
  | ok r => exact ⟨r, rfl⟩

theorem Tidy.exists_content_of_writeWith (tidy : ns.Tidy) (mounts : ns.SeparateMounts) {now : Time}
    {mode : OpenMode} {content : Bytes} {after : Namespace}
    (h : ns.writeWith now path mode content = ⟨after, .ok ()⟩) :
    ∃ node : MemoryNode, ns.Content path node.data
      ∧ ∀ later, (after.readWhole later path).outcome = .ok (node.kept mode ++ content) := by
  obtain ⟨r, found⟩ := exists_route_of_writeWith h
  obtain ⟨s, memory⟩ := mounts.memory (tidy.route_eq_ok_iff.mp found).near.mem
  exact tidy.exists_content_of_route found memory h

theorem Tidy.readsAlike_of_writeWith (tidy : ns.Tidy) (mounts : ns.SeparateMounts) {now : Time}
    {mode : OpenMode} {content : Bytes} {after : Namespace}
    (h : ns.writeWith now path mode content = ⟨after, .ok ()⟩) : ns.ReadsAlike path after := by
  intro other earlier later differ
  have tidy' := tidy.writeWith now path mode content
  have routes := ns.route_writeWith now path mode content other
  cases found : ns.route other with
  | error e =>
      rw [h, found] at routes
      rw [readWhole_of_error found, readWhole_of_error routes]
  | ok r =>
      obtain ⟨s, memory⟩ := mounts.memory (tidy.route_eq_ok_iff.mp found).near.mem
      obtain ⟨t, memory', writes⟩ := tidy.memory_of_writeWith now path mode content memory
      rw [h] at tidy' routes memory' writes
      rw [tidy.readWhole_of_route found memory,
        tidy'.readWhole_of_route (routes.trans found) memory']
      rcases writes with ⟨r', found', same, writes⟩ | ⟨_, rfl⟩
      · -- The store is mounted once, so the two paths differ inside it.
        have inner : r.inner ≠ r'.inner := by
          intro inner
          have mount : r'.mount = r.mount := List.inj_on_of_nodup_map mounts.once
            (tidy.route_eq_ok_iff.mp found').near.mem (tidy.route_eq_ok_iff.mp found).near.mem same
          exact differ (tidy.absolute_eq_of_route found found' (by rw [mount]) inner)
        obtain ⟨_, _, _, others⟩ := writes.openable_of_ok
        rw [others _ inner, (s.sameFile_prepared now r'.inner (Or.inr inner)).openable_eq]
        rw [MemoryStore.prepared_handles]
        exact .refl _
      · rfl

theorem Tidy.filesKept_of_writeWith (tidy : ns.Tidy) {now : Time} {mode : OpenMode}
    {content : Bytes} {after : Namespace} {e : FsError}
    (h : ns.writeWith now path mode content = ⟨after, .error e⟩) : ns.FilesKept after := by
  intro index s memory
  obtain ⟨t, memory', writes⟩ := tidy.memory_of_writeWith now path mode content memory
  rw [h] at memory' writes
  refine ⟨t, memory', fun q node found file => ?_⟩
  rcases writes with ⟨r, _, _, writes⟩ | ⟨_, rfl⟩
  · rw [writes.nodes_of_error]
    cases s.sameFile_prepared now r.inner (Or.inl (by rw [found]; simp)) with
    | same eq => rw [eq, found]
    | directory before _ kind =>
        cases found.symm.trans before
        rw [kind] at file
        cases file
  · exact found

/-- A write of a whole file that succeeds can be read back, and is not noticed at any other
path.  An append puts its content behind what was there.  If either fails, every file stays
as it was. -/
theorem write_then_read (reach : ns.Reachable) (mounts : ns.SeparateMounts) (now : Time)
    (path : String) (content : Bytes) :
    (∀ after, ns.writeWhole now path content = ⟨after, .ok ()⟩ →
      (∀ later, (after.readWhole later path).outcome = .ok content) ∧ ns.ReadsAlike path after)
    ∧ (∀ after, ns.appendWhole now path content = ⟨after, .ok ()⟩ →
      (∃ old, ns.Content path old
        ∧ ∀ later, (after.readWhole later path).outcome = .ok (old ++ content))
      ∧ ns.ReadsAlike path after)
    ∧ ∀ after e, ns.writeWhole now path content = ⟨after, .error e⟩
        ∨ ns.appendWhole now path content = ⟨after, .error e⟩ → ns.FilesKept after := by
  have tidy := reach.tidy
  refine ⟨fun after h => ?_, fun after h => ?_, fun after e h => ?_⟩
  · obtain ⟨node, _, reads⟩ := tidy.exists_content_of_writeWith mounts h
    exact ⟨reads, tidy.readsAlike_of_writeWith mounts h⟩
  · obtain ⟨node, held, reads⟩ := tidy.exists_content_of_writeWith mounts h
    exact ⟨⟨node.data, held, reads⟩, tidy.readsAlike_of_writeWith mounts h⟩
  · rcases h with h | h
    · exact tidy.filesKept_of_writeWith h
    · exact tidy.filesKept_of_writeWith h

/-- A store in memory at `/` and one at `/data`, with a file `f` in each.  The first file has
a writer, the second a reader. -/
def sessionsOpen : Namespace :=
  (empty (World.bare [])).run
    [.make 0 {} ⟨"/", "root", .virtual, none, false⟩,
      .make 0 {} ⟨"/data", "data", .virtual, none, false⟩,
      .ask 1 (.mount "/" "root" 0), .ask 2 (.mount "/data" "data" 1),
      .ask 3 (.createFile "f" [1]), .ask 4 (.createFile "data/f" [2]),
      .ask 5 (.store 0 (.openFile "/f" .write)), .ask 6 (.store 1 (.openFile "/f" .read)),
      .ask 7 (.changeDirectory "data")]

/-- One path is appended to while another file of the same name in another store has a
writer, and a write to that file is refused. -/
theorem write_then_read_busy :
    sessionsOpen.Reachable ∧ sessionsOpen.SeparateMounts
      ∧ (∃ after, sessionsOpen.appendWhole 8 "f" [3] = ⟨after, .ok ()⟩
        ∧ (∀ later, (after.readWhole later "f").outcome = .ok [2, 3])
        ∧ ∀ later, (after.readWhole later "/f").outcome = .ok [1])
      ∧ ∃ after, sessionsOpen.writeWhole 9 "/f" [4] = ⟨after, .error (.busy "/f")⟩
        ∧ sessionsOpen.FilesKept after := by
  have reach : sessionsOpen.Reachable := ⟨World.bare [], _, rfl⟩
  have mounts : sessionsOpen.SeparateMounts := .of_kinds (by decide +kernel) (by decide +kernel)
  have appends : (sessionsOpen.appendWhole 8 "f" [3]).outcome = .ok () := by decide +kernel
  have busy : (sessionsOpen.writeWhole 9 "/f" [4]).outcome = .error (.busy "/f") := by
    decide +kernel
  have before : (sessionsOpen.readWhole 8 "f").outcome = .ok [2] := by decide +kernel
  have beside : (sessionsOpen.readWhole 8 "/f").outcome = .ok [1] := by decide +kernel
  have apart : sessionsOpen.absolute "/f" ≠ sessionsOpen.absolute "f" := by decide +kernel
  obtain ⟨_, appended, _⟩ := write_then_read reach mounts 8 "f" [3]
  obtain ⟨_, _, kept⟩ := write_then_read reach mounts 9 "/f" [4]
  have appends := Step.eq_of_outcome appends
  have busy := Step.eq_of_outcome busy
  obtain ⟨⟨old, held, reads⟩, alike⟩ := appended _ appends
  have old_eq : old = [2] := by
    cases held with
    | there reads => exact Except.ok.inj ((reads 8).symm.trans before)
    | missing inner lost => cases (lost 8).symm.trans before
  rw [old_eq] at reads
  refine ⟨reach, mounts, ⟨_, appends, reads, fun later => ?_⟩, _, busy, kept _ _ (Or.inl busy)⟩
  rw [alike "/f" 8 later apart, beside]

end Namespace

end MountFs
