import MountFs.MemoryStore
import MountFs.Proofs.History
import MountFs.Proofs.NormalPath
import MountFs.Proofs.RegistryRows

/-!
# What a call does to a store in memory

`Effect s now c o t` says that the call `c` on the store `s`, with the clock at
`now`, may answer `o` and leave the store `t`.  It has one constructor for each way
a call can end, with the checks that were passed and the store written out.
`call_effect` says that a call does one of these, so a fact about all calls is a
case analysis on `Effect` and no proof after this module opens `call`.
`Effect.fate` sums up what a call does to the entry at one path: it stays, it gets the
buffer of a handle, it goes, or it is new.  `Effect.turn` sums up what it does to the
table of handles.

A refused call leaves the store as it is.  The one failing call that does change
something is the close of a stale handle, which has a constructor of its own.
-/

namespace MountFs

/-! ## Outcomes -/

theorem Outcome.map_eq_ok {α β : Type} {x : Outcome α} {f : α → β} {b : β} :
    x.map f = .ok b ↔ ∃ a, x = .ok a ∧ f a = b := by
  cases x with
  | error e => simp [Except.map]
  | ok a => simp [Except.map]

theorem Entry.isDir_iff {e : Entry} : e.isDir = true ↔ e.kind = .directory := by
  simp [isDir]

theorem Entry.isDir_eq_false_iff {e : Entry} : e.isDir = false ↔ e.kind = .regular := by
  cases h : e.kind with
  | regular => simp [isDir, h]
  | directory => simp [isDir, h]

/-! ## The table of handles -/

namespace Handles

/-- The table after the end of a session. -/
def without (t : Handles) (id : HandleId) : Handles := { t with live := t.live.erase id }

/-- The table with a new handle under the next number. -/
def extended (t : Handles) (h : Handle) : Handles :=
  { t with live := t.live.insert t.nextId h, nextId := t.nextId + 1 }

theorem get_eq_ok_iff {t : Handles} {id : HandleId} {h : Handle} :
    t.get id = .ok h ↔ t.live.get? id = some h := by
  rw [get]
  cases t.live.get? id with
  | none => simp
  | some other => simp

theorem get_eq_error {t : Handles} {id : HandleId} (h : t.live.get? id = none) :
    t.get id = .error (.unknownHandle id) := by
  simp [get, h]

theorem remove_eq_ok_iff {t t' : Handles} {id : HandleId} {h : Handle} :
    t.remove id = .ok (t', h) ↔ t.live.get? id = some h ∧ t' = t.without id := by
  rw [remove, Except.bind_eq_ok]
  constructor
  · rintro ⟨found, hget, he⟩
    cases he
    exact ⟨get_eq_ok_iff.mp hget, rfl⟩
  · rintro ⟨hlive, rfl⟩
    exact ⟨h, get_eq_ok_iff.mpr hlive, rfl⟩

/-- A use of a live handle that is let in puts the changed handle back. -/
theorem use_eq_ok_iff {α : Type} {t t' : Handles} {id : HandleId}
    {use : Handle → Outcome (Handle × α)} {a : α} :
    (t.get id >>= fun h => use h >>= fun used => .ok (t.put used.1, used.2)) = .ok (t', a) ↔
      ∃ h h', t.live.get? id = some h ∧ use h = .ok (h', a) ∧ t' = t.put h' := by
  simp only [Except.bind_eq_ok, get_eq_ok_iff]
  constructor
  · rintro ⟨h, hlive, ⟨h', a'⟩, hused, he⟩
    cases he
    exact ⟨h, h', hlive, hused, rfl⟩
  · rintro ⟨h, h', hlive, hused, rfl⟩
    exact ⟨h, hlive, (h', a), hused, rfl⟩

theorem read_eq_ok_iff {t t' : Handles} {id : HandleId} {size : Option Nat} {data : Bytes} :
    t.read id size = .ok (t', data) ↔
      ∃ h h', t.live.get? id = some h ∧ h.read size = .ok (h', data) ∧ t' = t.put h' :=
  use_eq_ok_iff

theorem write_eq_ok_iff {t t' : Handles} {limits : Limits} {id : HandleId} {data : Bytes}
    {count : Nat} :
    t.write limits id data = .ok (t', count) ↔
      ∃ h h', t.live.get? id = some h ∧ h.write limits data = .ok (h', count) ∧ t' = t.put h' :=
  use_eq_ok_iff

theorem seek_eq_ok_iff {t t' : Handles} {id : HandleId} {offset result : Nat} :
    t.seek id offset = .ok (t', result) ↔
      ∃ h h', t.live.get? id = some h ∧ h.seek offset = .ok (h', result) ∧ t' = t.put h' :=
  use_eq_ok_iff

end Handles

/-! ## Uses of a handle -/

namespace Handle

/-- Two states of one session: the number, the entry and the mode are the same. -/
structure SameSession (h h' : Handle) : Prop where
  id : h'.id = h.id
  path : h'.path = h.path
  entryId : h'.entryId = h.entryId
  mode : h'.mode = h.mode

theorem SameSession.refl (h : Handle) : h.SameSession h := ⟨rfl, rfl, rfl, rfl⟩

theorem SameSession.trans {h h' h'' : Handle} (left : h.SameSession h')
    (right : h'.SameSession h'') : h.SameSession h'' where
  id := right.id.trans left.id
  path := right.path.trans left.path
  entryId := right.entryId.trans left.entryId
  mode := right.mode.trans left.mode

theorem read_sameSession {h h' : Handle} {size : Option Nat} {data : Bytes}
    (e : h.read size = .ok (h', data)) : h.SameSession h' ∧ h'.buffer = h.buffer := by
  unfold read at e
  split at e
  · cases e
    exact ⟨⟨rfl, rfl, rfl, rfl⟩, rfl⟩
  · cases e

/-- A write through a write or append handle is let in, or stops because there is no room, or
is refused by the size limit. -/
theorem write_of_writer {h : Handle} {limits : Limits} {data : Bytes} (writer : h.mode ≠ .read) :
    h.write limits data =
      if h.writeStart + data.length ≤ limits.maxFileSize.toNat then
        if h.writeStart + data.length ≤ max h.buffer.length Bytes.maxLength then
          .ok ({ h with
            cursor := h.writeStart + data.length
            buffer := Bytes.overwrite h.buffer h.writeStart data }, data.length)
        else .error .fault
      else
        .error (.fileTooLarge h.path (min (h.writeStart + data.length) maxOffset)
          limits.maxFileSize.toNat) := by
  rw [write, if_neg writer]
  simp only [Limits.checkFileSize, Bytes.checkRoom]
  split
  · split <;> rfl
  · rfl

/-- A write that is let in ends within the size limit, and puts its data at the start of the
write and the cursor at the end of the data. -/
theorem of_write_eq_ok {h h' : Handle} {limits : Limits} {data : Bytes} {count : Nat}
    (e : h.write limits data = .ok (h', count)) :
    h.writeStart + data.length ≤ limits.maxFileSize.toNat
      ∧ h' = { h with
          cursor := h.writeStart + data.length
          buffer := Bytes.overwrite h.buffer h.writeStart data } := by
  have writer : h.mode ≠ .read := by
    intro reader
    rw [write, if_pos reader] at e
    cases e
  rw [write_of_writer writer] at e
  split at e
  next fits =>
    split at e
    · cases e
      exact ⟨fits, rfl⟩
    · cases e
  next => cases e

/-- A write that is let in stays inside the session, and puts its data at the start
of the write. -/
theorem write_eq_ok {h h' : Handle} {limits : Limits} {data : Bytes} {count : Nat}
    (e : h.write limits data = .ok (h', count)) :
    h.SameSession h' ∧ h'.buffer = Bytes.overwrite h.buffer h.writeStart data := by
  obtain ⟨_, rfl⟩ := of_write_eq_ok e
  exact ⟨⟨rfl, rfl, rfl, rfl⟩, rfl⟩

theorem seek_sameSession {h h' : Handle} {offset result : Nat}
    (e : h.seek offset = .ok (h', result)) : h.SameSession h' ∧ h'.buffer = h.buffer := by
  unfold seek at e
  split at e
  · cases e
  · cases e
    exact ⟨⟨rfl, rfl, rfl, rfl⟩, rfl⟩

end Handle

/-- The handle that a session on a file starts with. -/
def MemoryNode.session (node : MemoryNode) (id : HandleId) (path : String) (mode : OpenMode) :
    Handle :=
  let buffer := if mode = .write then [] else node.data
  ⟨id, path, node.id, mode, if mode = .append then buffer.length else 0, buffer⟩

/-- Whether a call can only ask. -/
def Call.isQuery : Call → Bool
  | .listDirectory _ | .stat _ | .present _ | .usage | .describe => true
  | _ => false

/-! ## Effects -/

namespace MemoryStore

/-- What a call may answer and leave behind. -/
inductive Effect (s : MemoryStore) (now : Time) : Call → Outcome Answer → MemoryStore → Prop
  /-- A call that is refused changes nothing. -/
  | refused {c : Call} {e : FsError} : Effect s now c (.error e) s
  /-- A question changes nothing. -/
  | told {c : Call} {a : Answer} (query : c.isQuery = true) : Effect s now c (.ok a) s
  /-- A new directory at a free path below a directory. -/
  | madeDirectory {path p : String} (normal : Path.normalize path = .ok p)
      (free : s.checkCreatable p = .ok ()) :
      Effect s now (.createDirectory path)
        (.ok (.entry (.directory now p s.permissions.directory)))
        ((s.addNode (.directory now p s.permissions.directory) []).touchParent now p)
  /-- A new file at a free path below a directory. -/
  | madeFile {path p : String} {content : Bytes} (normal : Path.normalize path = .ok p)
      (fits : s.limits.checkFileSize p content.length = .ok ())
      (free : s.checkCreatable p = .ok ()) :
      Effect s now (.createFile path content)
        (.ok (.entry (.file now p s.permissions.file content)))
        ((s.addNode (.file now p s.permissions.file content) content).touchParent now p)
  /-- A file or an empty directory goes. -/
  | deleted {path p : String} {node : MemoryNode} (normal : Path.normalize path = .ok p)
      (below : p ≠ Path.root) (found : s.nodes.get? p = some node)
      (bare : ¬(node.entry.isDir = true ∧ s.hasChildren p = true)) :
      Effect s now (.deleteFile path) (.ok .done)
        ({ s with nodes := s.nodes.erase p }.touchParent now p)
  /-- A session on a file starts. -/
  | opened {path p : String} {mode : OpenMode} {node : MemoryNode}
      (normal : Path.normalize path = .ok p) (found : s.nodes.get? p = some node)
      (file : node.entry.isDir = false) (room : s.handles.count < s.handles.maxOpen)
      (alone : ¬(mode.isWriter = true ∧ s.policy = .exclusive
        ∧ s.handles.hasWriter p node.id = true)) :
      Effect s now (.openFile path mode) (.ok (.handle s.handles.nextId))
        { s with handles := s.handles.extended (node.session s.handles.nextId p mode) }
  /-- Bytes are taken through a handle. -/
  | taken {id : HandleId} {size : Option Nat} {h h' : Handle} {data : Bytes}
      (live : s.handles.live.get? id = some h) (use : h.read size = .ok (h', data)) :
      Effect s now (.read id size) (.ok (.bytes data))
        ({ s with handles := s.handles.put h' }.noteRead now h.path h.entryId)
  /-- Bytes are put through a handle. -/
  | put {id : HandleId} {data : Bytes} {h h' : Handle} {count : Nat}
      (live : s.handles.live.get? id = some h)
      (use : h.write s.limits data = .ok (h', count)) :
      Effect s now (.write id data) (.ok (.number count))
        { s with handles := s.handles.put h' }
  /-- The cursor of a handle moves. -/
  | moved {id : HandleId} {offset result : Nat} {h h' : Handle}
      (live : s.handles.live.get? id = some h) (use : h.seek offset = .ok (h', result)) :
      Effect s now (.seek id offset) (.ok (.number result))
        { s with handles := s.handles.put h' }
  /-- A session ends whose entry is gone. -/
  | closedStale {id : HandleId} {h : Handle} (live : s.handles.live.get? id = some h)
      (gone : s.nodeWithId? h.path h.entryId = none) :
      Effect s now (.close id) (.error (.staleHandle id h.path))
        { s with handles := s.handles.without id }
  /-- A session that only read ends. -/
  | closedReader {id : HandleId} {h : Handle} {node : MemoryNode}
      (live : s.handles.live.get? id = some h)
      (there : s.nodeWithId? h.path h.entryId = some node) (reader : h.mode.isWriter = false) :
      Effect s now (.close id) (.ok .done) { s with handles := s.handles.without id }
  /-- A session that wrote ends, and its buffer becomes the content. -/
  | closedWriter {id : HandleId} {h : Handle} {node : MemoryNode}
      (live : s.handles.live.get? id = some h)
      (there : s.nodeWithId? h.path h.entryId = some node) (writer : h.mode.isWriter = true) :
      Effect s now (.close id) (.ok .done)
        ({ s with handles := s.handles.without id }.commit now h.path h.buffer)
  /-- A session is given up. -/
  | aborted {id : HandleId} {h : Handle} (live : s.handles.live.get? id = some h) :
      Effect s now (.abort id) (.ok .done) { s with handles := s.handles.without id }

/-! ## The effects of the operations -/

theorem createDirectory_effect (s : MemoryStore) (now : Time) (path : String) :
    Effect s now (.createDirectory path) (s.call now (.createDirectory path)).outcome
      (s.call now (.createDirectory path)).state := by
  cases h : s.createDirectory now path with
  | error e =>
      simp only [call, h]
      exact .refused
  | ok made =>
      simp only [call, h]
      obtain ⟨p, normal, h⟩ := Except.bind_eq_ok.mp h
      obtain ⟨_, free, h⟩ := Except.bind_eq_ok.mp h
      cases h
      exact .madeDirectory normal free

theorem createFile_effect (s : MemoryStore) (now : Time) (path : String) (content : Bytes) :
    Effect s now (.createFile path content) (s.call now (.createFile path content)).outcome
      (s.call now (.createFile path content)).state := by
  cases h : s.createFile now path content with
  | error e =>
      simp only [call, h]
      exact .refused
  | ok made =>
      simp only [call, h]
      obtain ⟨p, normal, h⟩ := Except.bind_eq_ok.mp h
      obtain ⟨_, fits, h⟩ := Except.bind_eq_ok.mp h
      obtain ⟨_, free, h⟩ := Except.bind_eq_ok.mp h
      cases h
      exact .madeFile normal fits free

theorem deleteFile_effect (s : MemoryStore) (now : Time) (path : String) :
    Effect s now (.deleteFile path) (s.call now (.deleteFile path)).outcome
      (s.call now (.deleteFile path)).state := by
  cases h : s.deleteFile now path with
  | error e =>
      simp only [call, h]
      exact .refused
  | ok after =>
      simp only [call, h]
      obtain ⟨p, normal, h⟩ := Except.bind_eq_ok.mp h
      split at h
      · cases h
      next below =>
        split at h
        · cases h
        next node found =>
          split at h
          · cases h
          next bare =>
            cases h
            exact .deleted normal below found bare

theorem openFile_effect (s : MemoryStore) (now : Time) (path : String) (mode : OpenMode) :
    Effect s now (.openFile path mode) (s.call now (.openFile path mode)).outcome
      (s.call now (.openFile path mode)).state := by
  cases h : s.openFile path mode with
  | error e =>
      simp only [call, h]
      exact .refused
  | ok after =>
      simp only [call, h]
      obtain ⟨p, normal, h⟩ := Except.bind_eq_ok.mp h
      split at h
      · cases h
      next node found =>
        split at h
        · cases h
        next file =>
          obtain ⟨⟨handles, id⟩, added, h⟩ := Except.bind_eq_ok.mp h
          cases h
          unfold Handles.add at added
          split at added
          · cases added
          next room =>
            split at added
            · cases added
            next alone =>
              cases added
              exact .opened normal found (by simpa using file) (Nat.lt_of_not_le room) alone

theorem read_effect (s : MemoryStore) (now : Time) (id : HandleId) (size : Option Nat) :
    Effect s now (.read id size) (s.call now (.read id size)).outcome
      (s.call now (.read id size)).state := by
  cases h : s.read now id size with
  | error e =>
      simp only [call, h]
      exact .refused
  | ok after =>
      simp only [call, h]
      obtain ⟨found, hget, h⟩ := Except.bind_eq_ok.mp h
      obtain ⟨⟨handles, data⟩, hread, h⟩ := Except.bind_eq_ok.mp h
      cases h
      obtain ⟨held, next, live, use, rfl⟩ := Handles.read_eq_ok_iff.mp hread
      have same : held = found := by
        rw [Handles.get_eq_ok_iff, live] at hget
        exact Option.some.inj hget
      subst same
      exact .taken live use

theorem write_effect (s : MemoryStore) (now : Time) (id : HandleId) (data : Bytes) :
    Effect s now (.write id data) (s.call now (.write id data)).outcome
      (s.call now (.write id data)).state := by
  cases h : s.write id data with
  | error e =>
      simp only [call, h]
      exact .refused
  | ok after =>
      simp only [call, h]
      obtain ⟨⟨handles, count⟩, hwrite, h⟩ := Except.bind_eq_ok.mp h
      cases h
      obtain ⟨held, next, live, use, rfl⟩ := Handles.write_eq_ok_iff.mp hwrite
      exact .put live use

theorem seek_effect (s : MemoryStore) (now : Time) (id : HandleId) (offset : Nat) :
    Effect s now (.seek id offset) (s.call now (.seek id offset)).outcome
      (s.call now (.seek id offset)).state := by
  cases h : s.seek id offset with
  | error e =>
      simp only [call, h]
      exact .refused
  | ok after =>
      simp only [call, h]
      obtain ⟨⟨handles, result⟩, hseek, h⟩ := Except.bind_eq_ok.mp h
      cases h
      obtain ⟨held, next, live, use, rfl⟩ := Handles.seek_eq_ok_iff.mp hseek
      exact .moved live use

/-- The close of a live handle, by what its entry has become. -/
theorem close_of_live {s : MemoryStore} {id : HandleId} {h : Handle} (now : Time)
    (live : s.handles.live.get? id = some h) :
    s.close now id =
      match s.nodeWithId? h.path h.entryId with
      | none => ⟨{ s with handles := s.handles.without id }, .error (.staleHandle id h.path)⟩
      | some _ =>
          ⟨if h.mode.isWriter = true then
              { s with handles := s.handles.without id }.commit now h.path h.buffer
            else { s with handles := s.handles.without id }, .ok ()⟩ := by
  rewrite [close, Handles.remove_eq_ok_iff.mpr ⟨live, rfl⟩]
  rfl

theorem close_effect (s : MemoryStore) (now : Time) (id : HandleId) :
    Effect s now (.close id) (s.call now (.close id)).outcome (s.call now (.close id)).state := by
  cases live : s.handles.live.get? id with
  | none =>
      have hremove : s.handles.remove id = .error (.unknownHandle id) := by
        rw [Handles.remove, Handles.get_eq_error live]
        rfl
      simp only [call, close, hremove]
      exact .refused
  | some h =>
      simp only [call, close_of_live now live]
      cases there : s.nodeWithId? h.path h.entryId with
      | none => exact .closedStale live there
      | some node =>
          cases writer : h.mode.isWriter with
          | false => exact .closedReader live there writer
          | true => exact .closedWriter live there writer

theorem abort_effect (s : MemoryStore) (now : Time) (id : HandleId) :
    Effect s now (.abort id) (s.call now (.abort id)).outcome (s.call now (.abort id)).state := by
  cases h : s.abort id with
  | error e =>
      simp only [call, h]
      exact .refused
  | ok after =>
      simp only [call, h]
      obtain ⟨⟨handles, h'⟩, hremove, h⟩ := Except.bind_eq_ok.mp h
      cases h
      obtain ⟨live, rfl⟩ := Handles.remove_eq_ok_iff.mp hremove
      exact .aborted live

theorem query_effect {s : MemoryStore} {now : Time} {c : Call} (query : c.isQuery = true)
    (same : (s.call now c).state = s) :
    Effect s now c (s.call now c).outcome (s.call now c).state := by
  rw [same]
  cases (s.call now c).outcome with
  | error e => exact .refused
  | ok a => exact .told query

/-- Every call does one of the things listed. -/
theorem call_effect (s : MemoryStore) (now : Time) (c : Call) :
    Effect s now c (s.call now c).outcome (s.call now c).state := by
  cases c with
  | createDirectory path => exact createDirectory_effect s now path
  | createFile path content => exact createFile_effect s now path content
  | deleteFile path => exact deleteFile_effect s now path
  | listDirectory path => exact query_effect rfl rfl
  | stat path => exact query_effect rfl rfl
  | present path => exact query_effect rfl rfl
  | openFile path mode => exact openFile_effect s now path mode
  | read id size => exact read_effect s now id size
  | write id data => exact write_effect s now id data
  | seek id offset => exact seek_effect s now id offset
  | close id => exact close_effect s now id
  | abort id => exact abort_effect s now id
  | usage => exact query_effect rfl rfl
  | describe => exact query_effect rfl rfl

/-! ## Reading the entries after a change -/

theorem checkCreatable_eq_ok_iff {s : MemoryStore} {path : String} :
    s.checkCreatable path = .ok () ↔ s.nodes.get? path = none ∧
      ∃ up dir, Path.parent? path = some up ∧ s.nodes.get? up = some dir
        ∧ dir.entry.kind = .directory := by
  unfold checkCreatable
  cases hpath : s.nodes.get? path with
  | some node => simp [Registry.contains, hpath]
  | none =>
      cases hup : Path.parent? path with
      | none => simp [Registry.contains, hpath]
      | some up =>
          cases hdir : s.nodes.get? up with
          | none => simp [Registry.contains, hpath, hdir]
          | some dir =>
              cases hkind : dir.entry.isDir with
              | true => simp [Registry.contains, hpath, hdir, hkind, Entry.isDir_iff.mp hkind]
              | false =>
                  have hreg := Entry.isDir_eq_false_iff.mp hkind
                  simp [Registry.contains, hpath, hdir, hkind, hreg]

/-- To touch the directory of a path changes entries only. -/
theorem touchParent_eq (s : MemoryStore) (now : Time) (p : String) :
    s.touchParent now p = { s with nodes := (s.touchParent now p).nodes } := by
  rw [touchParent]
  split <;> rfl

@[simp] theorem touchParent_handles (s : MemoryStore) (now : Time) (p : String) :
    (s.touchParent now p).handles = s.handles := by
  rw [touchParent_eq]

@[simp] theorem touchParent_nextNode (s : MemoryStore) (now : Time) (p : String) :
    (s.touchParent now p).nextNode = s.nextNode := by
  rw [touchParent_eq]

@[simp] theorem touchParent_limits (s : MemoryStore) (now : Time) (p : String) :
    (s.touchParent now p).limits = s.limits := by
  rw [touchParent_eq]

@[simp] theorem touchParent_policy (s : MemoryStore) (now : Time) (p : String) :
    (s.touchParent now p).policy = s.policy := by
  rw [touchParent_eq]

@[simp] theorem touchParent_permissions (s : MemoryStore) (now : Time) (p : String) :
    (s.touchParent now p).permissions = s.permissions := by
  rw [touchParent_eq]

theorem get?_touchParent (s : MemoryStore) (now : Time) (p q : String) :
    (s.touchParent now p).nodes.get? q = (s.nodes.get? q).map fun node =>
      if Path.parent? p = some q then { node with entry := node.entry.touch now } else node := by
  unfold touchParent
  cases Path.parent? p with
  | none => simp
  | some dir =>
      rw [Registry.get?_adjust_map]
      simp only [Option.some.injEq, eq_comm]

/-- To note a read changes entries only. -/
theorem noteRead_eq (s : MemoryStore) (now : Time) (path : String) (id : Nat) :
    s.noteRead now path id = { s with nodes := (s.noteRead now path id).nodes } := by
  rw [noteRead]
  split <;> rfl

@[simp] theorem noteRead_handles (s : MemoryStore) (now : Time) (path : String) (id : Nat) :
    (s.noteRead now path id).handles = s.handles := by
  rw [noteRead_eq]

@[simp] theorem noteRead_nextNode (s : MemoryStore) (now : Time) (path : String) (id : Nat) :
    (s.noteRead now path id).nextNode = s.nextNode := by
  rw [noteRead_eq]

@[simp] theorem noteRead_policy (s : MemoryStore) (now : Time) (path : String) (id : Nat) :
    (s.noteRead now path id).policy = s.policy := by
  rw [noteRead_eq]

theorem nodeWithId?_eq_some_iff {s : MemoryStore} {path : String} {id : Nat} {node : MemoryNode} :
    s.nodeWithId? path id = some node ↔ s.nodes.get? path = some node ∧ node.id = id := by
  simp [nodeWithId?, Option.filter_eq_some_iff]

theorem nodeWithId?_eq_none_iff {s : MemoryStore} {path : String} {id : Nat} :
    s.nodeWithId? path id = none ↔ ∀ node, s.nodes.get? path = some node → node.id ≠ id := by
  rw [Option.eq_none_iff_forall_ne_some]
  simp only [ne_eq, nodeWithId?_eq_some_iff, not_and]

theorem get?_noteRead (s : MemoryStore) (now : Time) (path : String) (id : Nat) (q : String) :
    (s.noteRead now path id).nodes.get? q = (s.nodes.get? q).map fun node =>
      if q = path ∧ node.id = id then { node with entry := node.entry.noteRead now }
      else node := by
  unfold noteRead
  cases hq : s.nodes.get? q with
  | none =>
      split
      · simp [Registry.get?_adjust_map, hq]
      · simp [hq]
  | some node =>
      split
      next found there =>
        obtain ⟨hfound, hid⟩ := nodeWithId?_eq_some_iff.mp there
        rw [Registry.get?_adjust_map, hq, Option.map_some, Option.map_some]
        by_cases he : q = path
        · have same : node = found := by
            rw [he, hfound] at hq
            exact (Option.some.inj hq).symm
          rw [if_pos he, if_pos ⟨he, same ▸ hid⟩]
        · rw [if_neg he, if_neg (fun both => he both.1)]
      next gone =>
        -- The entry at the path is another one, and stays.
        have other := nodeWithId?_eq_none_iff.mp gone
        rw [hq, Option.map_some, if_neg]
        rintro ⟨he, hid⟩
        exact other node (he ▸ hq) hid

theorem get?_commit (s : MemoryStore) (now : Time) (path : String) (content : Bytes) (q : String) :
    (s.commit now path content).nodes.get? q = (s.nodes.get? q).map fun node =>
      if q = path then { node with entry := node.entry.noteCommit now content, data := content }
      else node :=
  Registry.get?_adjust_map _ _ _ _

end MemoryStore

/-! ## One entry across a call -/

/-- How an entry looks after a call that left its content alone. -/
inductive MemoryNode.Change (now : Time) (node : MemoryNode) : MemoryNode → Prop
  /-- It is as it was. -/
  | same : Change now node node
  /-- A child of it came or went. -/
  | touched : Change now node { node with entry := node.entry.touch now }
  /-- It was read. -/
  | read : Change now node { node with entry := node.entry.noteRead now }

namespace MemoryNode.Change

variable {now : Time} {node after : MemoryNode}

theorem id_eq (h : node.Change now after) : after.id = node.id := by
  cases h <;> rfl

theorem kind_eq (h : node.Change now after) : after.entry.kind = node.entry.kind := by
  cases h <;> rfl

theorem data_eq (h : node.Change now after) : after.data = node.data := by
  cases h <;> rfl

end MemoryNode.Change

namespace MemoryStore

/-- A delete of a path that succeeds. -/
structure Deletes (c : Call) (o : Outcome Answer) (path : String) : Prop where
  /-- The call names the path. -/
  asked : ∃ text, c = .deleteFile text ∧ Path.normalize text = .ok path
  /-- It succeeds. -/
  answer : o = .ok .done

/-- A close of a write or append handle that succeeds. -/
structure Commits (s : MemoryStore) (c : Call) (o : Outcome Answer) (id : HandleId) (h : Handle) :
    Prop where
  /-- The call closes the handle. -/
  asked : c = .close id
  /-- The handle is live. -/
  live : s.handles.live.get? id = some h
  /-- It may write. -/
  writer : h.mode.isWriter = true
  /-- The call succeeds. -/
  answer : o = .ok .done

theorem not_deletes {c : Call} {o : Outcome Answer} {path : String}
    (other : ∀ text, c ≠ .deleteFile text) : ¬Deletes c o path := by
  rintro ⟨⟨text, rfl, _⟩, _⟩
  exact other text rfl

/-- What a call makes of the entry at a path, from before it to after it. -/
inductive Fate (s : MemoryStore) (now : Time) (c : Call) (o : Outcome Answer) (path : String) :
    Option MemoryNode → Option MemoryNode → Prop
  /-- There is none, before and after. -/
  | absent : Fate s now c o path none none
  /-- It stays, with its content. -/
  | kept {node after : MemoryNode} (stays : ¬Deletes c o path) (change : node.Change now after) :
      Fate s now c o path (some node) (some after)
  /-- It gets the buffer of a handle that was opened on it. -/
  | committed {node : MemoryNode} {id : HandleId} {h : Handle} (commits : s.Commits c o id h)
      (path_eq : h.path = path) (entryId_eq : h.entryId = node.id) :
      Fate s now c o path (some node)
        (some { node with entry := node.entry.noteCommit now h.buffer, data := h.buffer })
  /-- It is new. -/
  | made {node : MemoryNode} (fresh : node.id = s.nextNode) (times : node.entry.times = .at now) :
      Fate s now c o path none (some node)
  /-- It goes. -/
  | deleted {node : MemoryNode} (deletes : Deletes c o path) :
      Fate s now c o path (some node) none

namespace Fate

variable {s : MemoryStore} {now : Time} {c : Call} {o : Outcome Answer} {path : String}

theorem refl (stays : ¬Deletes c o path) (node : Option MemoryNode) :
    Fate s now c o path node node := by
  cases node with
  | none => exact .absent
  | some node => exact .kept stays .same

/-- The entry stays, with a change that depends on it. -/
theorem map (stays : ¬Deletes c o path) {f : MemoryNode → MemoryNode}
    (change : ∀ node, MemoryNode.Change now node (f node)) (node : Option MemoryNode) :
    Fate s now c o path node (node.map f) := by
  cases node with
  | none => exact .absent
  | some node => exact .kept stays (change node)

end Fate

theorem change_touch {now : Time} {p q : String} (node : MemoryNode) :
    node.Change now
      (if Path.parent? p = some q then { node with entry := node.entry.touch now } else node) := by
  split
  · exact .touched
  · exact .same

/-- Entries after a new one was added. -/
theorem fate_addNode {s : MemoryStore} {now : Time} {c : Call} {o : Outcome Answer} {entry : Entry}
    {data : Bytes} (times : entry.times = .at now) (free : s.nodes.get? entry.path = none)
    (q : String) (stays : ¬Deletes c o q) :
    Fate s now c o q (s.nodes.get? q)
      (((s.addNode entry data).touchParent now entry.path).nodes.get? q) := by
  rw [get?_touchParent, addNode, Registry.get?_insert]
  by_cases new : q = entry.path
  · rw [if_pos new, new, free, Option.map_some]
    refine .made ?_ ?_
    · split <;> rfl
    · split
      · simp [Entry.touch, times, Times.at]
      · exact times
  · rw [if_neg new]
    exact .map stays change_touch _

/-- What a call makes of the entry at each path. -/
theorem Effect.fate {s t : MemoryStore} {now : Time} {c : Call} {o : Outcome Answer}
    (h : Effect s now c o t) (path : String) :
    Fate s now c o path (s.nodes.get? path) (t.nodes.get? path) := by
  cases h with
  | refused =>
      refine .refl ?_ _
      rintro ⟨_, answer⟩
      cases answer
  | told query =>
      refine .refl (not_deletes ?_) _
      rintro text rfl
      cases query
  | madeDirectory normal free =>
      exact fate_addNode rfl (checkCreatable_eq_ok_iff.mp free).1 path
        (not_deletes (by simp))
  | madeFile normal fits free =>
      exact fate_addNode rfl (checkCreatable_eq_ok_iff.mp free).1 path
        (not_deletes (by simp))
  | @deleted text p node normal below found bare =>
      rw [get?_touchParent, Registry.get?_erase]
      by_cases here : path = p
      · rw [if_pos here, here, found]
        exact .deleted ⟨⟨text, rfl, normal⟩, rfl⟩
      · rw [if_neg here]
        refine .map ?_ change_touch _
        rintro ⟨⟨_, asked, normal'⟩, _⟩
        cases asked
        exact here (Except.ok.inj (normal'.symm.trans normal))
  | opened => exact .refl (not_deletes (by simp)) _
  | taken live use =>
      rw [get?_noteRead]
      refine .map (not_deletes (by simp)) (fun node => ?_) _
      split
      · exact .read
      · exact .same
  | put => exact .refl (not_deletes (by simp)) _
  | moved => exact .refl (not_deletes (by simp)) _
  | closedStale => exact .refl (not_deletes (by simp)) _
  | closedReader => exact .refl (not_deletes (by simp)) _
  | @closedWriter id h node live there writer =>
      rw [get?_commit]
      obtain ⟨found, hid⟩ := nodeWithId?_eq_some_iff.mp there
      by_cases here : path = h.path
      · rw [here, found, Option.map_some, if_pos rfl]
        exact .committed ⟨rfl, live, writer, rfl⟩ rfl hid.symm
      · simp only [if_neg here]
        exact .map (not_deletes (by simp)) (fun _ => .same) _
  | aborted => exact .refl (not_deletes (by simp)) _

/-- An entry after a call was there before it, of the same kind, or it is new. -/
theorem Effect.origin {s t : MemoryStore} {now : Time} {c : Call} {o : Outcome Answer}
    (h : Effect s now c o t) {path : String} {after : MemoryNode}
    (found : t.nodes.get? path = some after) :
    (∃ node, s.nodes.get? path = some node ∧ after.id = node.id
        ∧ after.entry.kind = node.entry.kind)
      ∨ after.id = s.nextNode := by
  have fate := h.fate path
  rw [found] at fate
  generalize s.nodes.get? path = old at fate
  cases fate with
  | kept _ change => exact Or.inl ⟨_, rfl, change.id_eq, change.kind_eq⟩
  | committed => exact Or.inl ⟨_, rfl, rfl, rfl⟩
  | made fresh => exact Or.inr fresh

/-! ## The table of handles across a call -/

/-- A call that starts the session `k` under the number `id`. -/
structure Starts (s : MemoryStore) (c : Call) (o : Outcome Answer) (id : HandleId) (k : Handle) :
    Prop where
  /-- The number is the next one. -/
  fresh : id = s.handles.nextId
  /-- It is the answer. -/
  answer : o = .ok (.handle id)
  /-- The call asks for this path and mode. -/
  asked : ∃ path, c = .openFile path k.mode ∧ Path.normalize path = .ok k.path
  /-- The session is on the file at the path. -/
  file : ∃ node, s.nodes.get? k.path = some node ∧ node.entry.kind = .regular
    ∧ k = node.session id k.path k.mode
  /-- The write policy lets it in. -/
  alone : ¬(k.mode.isWriter = true ∧ s.policy = .exclusive
    ∧ s.handles.hasWriter k.path k.entryId = true)

/-- The bytes that a call puts through a handle. -/
def written (id : HandleId) : Call → Outcome Answer → Bytes
  | .write other data, .ok _ => if other = id then data else []
  | _, _ => []

/-- What a call makes of the table of handles. -/
inductive Turn (s : MemoryStore) (c : Call) (o : Outcome Answer) : Handles → Prop
  | kept (silent : ∀ id, written id c o = []) : Turn s c o s.handles
  | opened {id : HandleId} {k : Handle} (starts : Starts s c o id k)
      (silent : ∀ id, written id c o = []) : Turn s c o (s.handles.extended k)
  /-- The cursor of a handle moves, and its buffer stays. -/
  | moved {id : HandleId} {h h' : Handle} (live : s.handles.live.get? id = some h)
      (same : h.SameSession h') (buffer : h'.buffer = h.buffer)
      (silent : ∀ id, written id c o = []) : Turn s c o (s.handles.put h')
  /-- Data is put into the buffer of a handle. -/
  | wrote {id : HandleId} {h h' : Handle} {data : Bytes} (live : s.handles.live.get? id = some h)
      (same : h.SameSession h')
      (buffer : h'.buffer = Bytes.overwrite h.buffer h.writeStart data)
      (told : ∀ other, written other c o = if id = other then data else []) :
      Turn s c o (s.handles.put h')
  | ended {id : HandleId} (silent : ∀ id, written id c o = []) :
      Turn s c o (s.handles.without id)

theorem written_error (id : HandleId) (c : Call) (e : FsError) : written id c (.error e) = [] := by
  cases c <;> rfl

theorem written_of_isQuery {c : Call} {o : Outcome Answer} (id : HandleId)
    (query : c.isQuery = true) : written id c o = [] := by
  cases c with
  | write => cases query
  | _ => rfl

/-- Every call makes one of these of the table. -/
theorem Effect.turn {s t : MemoryStore} {now : Time} {c : Call} {o : Outcome Answer}
    (h : Effect s now c o t) : Turn s c o t.handles := by
  cases h with
  | refused => exact .kept fun id => written_error id _ _
  | told query => exact .kept fun id => written_of_isQuery id query
  | madeDirectory =>
      rw [touchParent_handles]
      exact .kept fun _ => rfl
  | madeFile =>
      rw [touchParent_handles]
      exact .kept fun _ => rfl
  | deleted =>
      rw [touchParent_handles]
      exact .kept fun _ => rfl
  | @opened path p mode node normal found file room alone =>
      have file := Entry.isDir_eq_false_iff.mp file
      exact .opened ⟨rfl, rfl, ⟨path, rfl, normal⟩, ⟨node, found, file, rfl⟩, alone⟩ fun _ => rfl
  | taken live use =>
      rw [noteRead_handles]
      obtain ⟨same, buffer⟩ := Handle.read_sameSession use
      exact .moved live same buffer fun _ => rfl
  | put live use =>
      obtain ⟨same, buffer⟩ := Handle.write_eq_ok use
      exact .wrote live same buffer fun _ => rfl
  | moved live use =>
      obtain ⟨same, buffer⟩ := Handle.seek_sameSession use
      exact .moved live same buffer fun _ => rfl
  | closedStale => exact .ended fun _ => rfl
  | closedReader => exact .ended fun _ => rfl
  | closedWriter => exact .ended fun _ => rfl
  | aborted => exact .ended fun _ => rfl

/-! ## Runs -/

end MemoryStore

/-- A call, and the reading of the clock during it. -/
structure Timed where
  /-- The reading of the clock. -/
  now : Time
  /-- The call. -/
  call : Call
deriving DecidableEq, Repr, Inhabited

namespace MemoryStore

/-- Answer a call at its time. -/
def step (s : MemoryStore) (e : Timed) : Step MemoryStore Answer := s.call e.now e.call

/-- The store after calls. -/
abbrev run (s : MemoryStore) (events : List Timed) : MemoryStore := History.final step s events

/-- The moments of a run, oldest first. -/
abbrev moments (s : MemoryStore) (events : List Timed) : List (Moment MemoryStore Timed Answer) :=
  History.moments step s events

theorem step_effect (s : MemoryStore) (e : Timed) :
    Effect s e.now e.call (s.step e).outcome (s.step e).state :=
  call_effect s e.now e.call

end MemoryStore

end MountFs
