import MountFs.Proofs.Sessions

/-!
# The history of an entry

An entry is what happened to it.  An `EntryLog` says which handles were opened at a path, how
often they were read, what they committed, and when a child came or went.  It is kept from the
calls of a run and their answers, and knows nothing of identities.  The log of an entry starts
where the entry began (`Origin`).  Its path was not deleted since, so the handles in the log are
the handles on the entry, and what was done to an earlier entry at the path is not in it.

`entry_eq_history` says that the log tells content, counters and times of every entry that is
there after a run.

* `EntryLog.Tells` is what a log tells about an entry.
* `EntryLog.Follows` ties the log to the store.  The store finds an entry by path and identity,
  so the invariant says that a live handle is in the log exactly if it is on the entry.
* `Recorded` is the invariant of a run: every entry has an origin, and the log since any origin
  of it has followed it.
-/

namespace MountFs

/-! ## Keeping a log -/

/-- What happened to an entry. -/
structure EntryLog where
  /-- The handles that were opened on it. -/
  opened : List HandleId := []
  /-- How many reads went through them. -/
  reads : Nat := 0
  /-- The buffers that were committed to it, oldest first. -/
  commits : List Bytes := []
  /-- When a child of it came or went, oldest first. -/
  changes : List Time := []
deriving DecidableEq, Repr, Inhabited

/-- One call on a store in memory. -/
abbrev MemoryMoment := Moment MemoryStore Timed Answer

namespace EntryLog

/-- A child of the path comes or goes, if the text names one. -/
def noteChild (path : String) (log : EntryLog) (now : Time) (text : String) : EntryLog :=
  if (Path.normalize text).toOption.bind Path.parent? = some path then
    { log with changes := log.changes ++ [now] }
  else log

/-- The log of the entry at a path after one more call.  A call that fails leaves it. -/
def note (path : String) (log : EntryLog) (m : MemoryMoment) : EntryLog :=
  match m.event.call, m.outcome with
  | .openFile text _, .ok (.handle id) =>
      if (Path.normalize text).toOption = some path then { log with opened := id :: log.opened }
      else log
  | .read id _, .ok _ => if id ∈ log.opened then { log with reads := log.reads + 1 } else log
  | .close id, .ok _ =>
      match m.before.handles.live.get? id with
      | some h =>
          if id ∈ log.opened ∧ h.mode.isWriter = true then
            { log with commits := log.commits ++ [h.buffer] }
          else log
      | none => log
  | .createDirectory text, .ok _ => log.noteChild path m.event.now text
  | .createFile text _, .ok _ => log.noteChild path m.event.now text
  | .deleteFile text, .ok _ => log.noteChild path m.event.now text
  | _, _ => log

/-- The log of the entry at a path, from the time it was made. -/
def of (path : String) (past : List MemoryMoment) : EntryLog := past.foldl (note path) {}

theorem of_snoc (path : String) (past : List MemoryMoment) (m : MemoryMoment) :
    of path (past ++ [m]) = (of path past).note path m := by
  simp [of]

variable {path : String} {log : EntryLog} {s t : MemoryStore} {now : Time}

theorem note_error (c : Call) (e : FsError) :
    log.note path ⟨s, ⟨now, c⟩, ⟨t, .error e⟩⟩ = log := by
  cases c <;> rfl

theorem note_of_isQuery {c : Call} {a : Answer} (query : c.isQuery = true) :
    log.note path ⟨s, ⟨now, c⟩, ⟨t, .ok a⟩⟩ = log := by
  cases c with
  | listDirectory | stat | present | usage | describe => rfl
  | _ => cases query

theorem noteChild_of_normalize {text p : String} (normal : Path.normalize text = .ok p) :
    log.noteChild path now text
      = if Path.parent? p = some path then { log with changes := log.changes ++ [now] }
        else log := by
  rw [noteChild, normal]
  rfl

/-! ## What a log tells -/

/-- The log leads from the entry as it was made to the entry as it is. -/
structure Tells (log : EntryLog) (first last : MemoryNode) : Prop where
  id_eq : last.id = first.id
  path_eq : last.entry.path = first.entry.path
  kind_eq : last.entry.kind = first.entry.kind
  permissions_eq : last.entry.permissions = first.entry.permissions
  created_eq : last.entry.times.created = first.entry.times.created
  /-- The content is the last commit. -/
  data_eq : last.data = log.commits.getLastD first.data
  modifyCount_eq : last.entry.modifyCount = first.entry.modifyCount + log.commits.length
  accessCount_eq : last.entry.accessCount = first.entry.accessCount + log.reads
  /-- A directory is neither read nor written, and changes with its children. -/
  directory : first.entry.kind = .directory → log.reads = 0 ∧ log.commits = []
    ∧ last.entry.times.modified = log.changes.getLastD first.entry.times.modified

namespace Tells

variable {first last : MemoryNode}

theorem refl (first : MemoryNode) : Tells {} first first :=
  ⟨rfl, rfl, rfl, rfl, rfl, rfl, rfl, rfl, fun _ => ⟨rfl, rfl, rfl⟩⟩

theorem handle (h : log.Tells first last) (id : HandleId) :
    Tells { log with opened := id :: log.opened } first last :=
  ⟨h.id_eq, h.path_eq, h.kind_eq, h.permissions_eq, h.created_eq, h.data_eq, h.modifyCount_eq,
    h.accessCount_eq, h.directory⟩

theorem touch (h : log.Tells first last) (now : Time) :
    Tells { log with changes := log.changes ++ [now] } first
      { last with entry := last.entry.touch now } where
  id_eq := h.id_eq
  path_eq := h.path_eq
  kind_eq := h.kind_eq
  permissions_eq := h.permissions_eq
  created_eq := h.created_eq
  data_eq := h.data_eq
  modifyCount_eq := h.modifyCount_eq
  accessCount_eq := h.accessCount_eq
  directory := by
    intro dir
    obtain ⟨reads, commits, _⟩ := h.directory dir
    refine ⟨reads, commits, ?_⟩
    simp [Entry.touch]

theorem read (h : log.Tells first last) (file : first.entry.kind = .regular) (now : Time) :
    Tells { log with reads := log.reads + 1 } first
      { last with entry := last.entry.noteRead now } where
  id_eq := h.id_eq
  path_eq := h.path_eq
  kind_eq := h.kind_eq
  permissions_eq := h.permissions_eq
  created_eq := h.created_eq
  data_eq := h.data_eq
  modifyCount_eq := h.modifyCount_eq
  accessCount_eq := by
    have count := h.accessCount_eq
    simp only [Entry.noteRead, count]
    omega
  directory := fun dir => absurd (file.symm.trans dir) (by simp)

theorem commit (h : log.Tells first last) (file : first.entry.kind = .regular) (now : Time)
    (content : Bytes) :
    Tells { log with commits := log.commits ++ [content] } first
      { last with entry := last.entry.noteCommit now content, data := content } where
  id_eq := h.id_eq
  path_eq := h.path_eq
  kind_eq := h.kind_eq
  permissions_eq := h.permissions_eq
  created_eq := h.created_eq
  data_eq := by simp
  modifyCount_eq := by
    have count := h.modifyCount_eq
    simp only [Entry.noteCommit, count, List.length_append, List.length_singleton]
    omega
  accessCount_eq := h.accessCount_eq
  directory := fun dir => absurd (file.symm.trans dir) (by simp)

end Tells

/-! ## The handles of a log -/

/-- The live handles in the log are those on the entry `id` at the path. -/
structure Knows (log : EntryLog) (path : String) (id : Nat) (table : Handles) : Prop where
  opened_iff : ∀ {number h}, table.live.get? number = some h →
    (number ∈ log.opened ↔ h.path = path ∧ h.entryId = id)
  opened_lt : ∀ {number}, number ∈ log.opened → number < table.nextId

namespace Knows

variable {id : Nat} {table : Handles}

theorem congr (h : log.Knows path id table) {log' : EntryLog} (same : log'.opened = log.opened) :
    log'.Knows path id table where
  opened_iff := fun live => same ▸ h.opened_iff live
  opened_lt := fun there => h.opened_lt (same ▸ there)

theorem without (h : log.Knows path id table) (number : HandleId) :
    log.Knows path id (table.without number) where
  opened_iff := fun live => h.opened_iff (Handles.get?_without.mp live).2
  opened_lt := h.opened_lt

theorem put (h : log.Knows path id table) (num : table.Numbered) {number : HandleId}
    {k k' : Handle} (live : table.live.get? number = some k) (same : k.SameSession k') :
    log.Knows path id (table.put k') where
  opened_iff := by
    intro other found live'
    rcases (num.get?_put live same).mp live' with ⟨rfl, rfl⟩ | ⟨_, old⟩
    · rw [same.path, same.entryId]
      exact h.opened_iff live
    · exact h.opened_iff old
  opened_lt := h.opened_lt

/-- A new handle goes into the log exactly if it is on the entry. -/
theorem extended (h : log.Knows path id table) {k : Handle} {log' : EntryLog}
    (opened : log'.opened = if k.path = path ∧ k.entryId = id then table.nextId :: log.opened
      else log.opened) :
    log'.Knows path id (table.extended k) where
  opened_iff := by
    intro number found live
    have fresh : table.nextId ∉ log.opened := fun there => Nat.lt_irrefl _ (h.opened_lt there)
    rcases Handles.get?_extended.mp live with ⟨rfl, rfl⟩ | ⟨other, old⟩
    · rw [opened]
      split
      next on => simpa using on
      next off => exact iff_of_false fresh off
    · rw [← h.opened_iff old, opened]
      split
      · simp [other]
      · rfl
  opened_lt := by
    intro number there
    rw [opened] at there
    split at there
    · rcases List.mem_cons.mp there with rfl | old
      · exact Nat.lt_succ_self _
      · exact Nat.lt_succ_of_lt (h.opened_lt old)
    · exact Nat.lt_succ_of_lt (h.opened_lt there)

end Knows

/-! ## A log along a run -/

/-- The log has followed the entry at a path from `first` to what it is now. -/
structure Follows (log : EntryLog) (path : String) (first : MemoryNode) (s : MemoryStore) :
    Prop where
  there : ∃ last, s.nodes.get? path = some last ∧ log.Tells first last
  knows : log.Knows path first.id s.handles

namespace Follows

variable {first : MemoryNode}

theorem congr (h : log.Follows path first s) (nodes : t.nodes.get? path = s.nodes.get? path)
    (handles : t.handles = s.handles) : log.Follows path first t where
  there := nodes ▸ h.there
  knows := handles ▸ h.knows

/-- A child that comes or goes is noted in the log and in the entry. -/
theorem touchParent (h : log.Follows path first s) {text p : String}
    (normal : Path.normalize text = .ok p) (now : Time) :
    (log.noteChild path now text).Follows path first (s.touchParent now p) := by
  obtain ⟨last, found, tells⟩ := h.there
  rw [noteChild_of_normalize normal]
  split
  next child =>
    refine ⟨⟨{ last with entry := last.entry.touch now }, ?_, tells.touch now⟩, ?_⟩
    · simp [MemoryStore.get?_touchParent, found, child]
    · rw [MemoryStore.touchParent_handles]
      exact h.knows.congr rfl
  next other =>
    refine h.congr ?_ (MemoryStore.touchParent_handles _ _ _)
    simp [MemoryStore.get?_touchParent, found, other]

/-- A new entry is another one. -/
theorem addNode (h : log.Follows path first s) {entry : Entry} (data : Bytes)
    (free : s.nodes.get? entry.path = none) : log.Follows path first (s.addNode entry data) := by
  obtain ⟨last, found, _⟩ := h.there
  refine h.congr ?_ rfl
  have other : path ≠ entry.path := by
    rintro rfl
    cases free.symm.trans found
  exact (Registry.get?_insert _ _ _ _).trans (if_neg other)

theorem without (h : log.Follows path first s) (id : HandleId) :
    log.Follows path first { s with handles := s.handles.without id } :=
  ⟨h.there, h.knows.without id⟩

theorem opened (h : log.Follows path first s) {node : MemoryNode} {text p : String}
    (normal : Path.normalize text = .ok p) (found : s.nodes.get? p = some node) (mode : OpenMode) :
    (log.note path ⟨s, ⟨now, .openFile text mode⟩, ⟨t, .ok (.handle s.handles.nextId)⟩⟩).Follows
      path first
      { s with handles := s.handles.extended (node.session s.handles.nextId p mode) } := by
  obtain ⟨last, there, tells⟩ := h.there
  simp only [note, normal, Except.toOption, Option.some.injEq]
  split
  next here =>
    subst here
    have same : node = last := Option.some.inj (found.symm.trans there)
    refine ⟨⟨last, there, tells.handle _⟩, h.knows.extended ?_⟩
    exact (if_pos ⟨rfl, same ▸ tells.id_eq⟩).symm
  next other =>
    refine ⟨⟨last, there, tells⟩, h.knows.extended ?_⟩
    exact (if_neg fun on => other on.1).symm

theorem taken (h : log.Follows path first s) (wf : s.WellFormed) {id : HandleId}
    {size : Option Nat} {k k' : Handle} {data : Bytes} (live : s.handles.live.get? id = some k)
    (use : k.read size = .ok (k', data)) :
    (log.note path ⟨s, ⟨now, .read id size⟩, ⟨t, .ok (.bytes data)⟩⟩).Follows path first
      ({ s with handles := s.handles.put k' }.noteRead now k.path k.entryId) := by
  obtain ⟨last, there, tells⟩ := h.there
  have knows := h.knows.put wf.table live (Handle.read_sameSession use).1
  have onEntry := h.knows.opened_iff live
  simp only [note]
  split
  next noted =>
    obtain ⟨here, hid⟩ := onEntry.mp noted
    have file : first.entry.kind = .regular := by
      rw [← tells.kind_eq]
      exact (wf.fits live).regular (here ▸ there) (tells.id_eq.trans hid.symm)
    refine ⟨⟨_, ?_, tells.read file now⟩, ?_⟩
    · simp [MemoryStore.get?_noteRead, there, here, hid, tells.id_eq]
    · rw [MemoryStore.noteRead_handles]
      exact knows.congr rfl
  next other =>
    refine ⟨⟨last, ?_, tells⟩, ?_⟩
    · rw [MemoryStore.get?_noteRead, there, Option.map_some, if_neg]
      rintro ⟨here, hid⟩
      exact other (onEntry.mpr ⟨here.symm, hid.symm.trans tells.id_eq⟩)
    · rw [MemoryStore.noteRead_handles]
      exact knows

theorem closedWriter (h : log.Follows path first s) (wf : s.WellFormed) {id : HandleId}
    {k : Handle} {node : MemoryNode} (live : s.handles.live.get? id = some k)
    (found : s.nodeWithId? k.path k.entryId = some node) (writer : k.mode.isWriter = true) :
    (log.note path ⟨s, ⟨now, .close id⟩, ⟨t, .ok .done⟩⟩).Follows path first
      ({ s with handles := s.handles.without id }.commit now k.path k.buffer) := by
  obtain ⟨last, there, tells⟩ := h.there
  obtain ⟨found, hid⟩ := MemoryStore.nodeWithId?_eq_some_iff.mp found
  have onEntry := h.knows.opened_iff live
  simp only [note, live, writer, and_true]
  split
  next noted =>
    obtain ⟨here, hid⟩ := onEntry.mp noted
    have file : first.entry.kind = .regular := by
      rw [← tells.kind_eq]
      exact (wf.fits live).regular (here ▸ there) (tells.id_eq.trans hid.symm)
    refine ⟨⟨_, ?_, tells.commit file now k.buffer⟩, (h.knows.without id).congr rfl⟩
    simp [MemoryStore.get?_commit, there, here]
  next other =>
    refine ⟨⟨last, ?_, tells⟩, h.knows.without id⟩
    rw [MemoryStore.get?_commit, there, Option.map_some, if_neg]
    rintro rfl
    -- The entry at the path of the handle has its identity, so it is the one opened.
    have same : node = last := Option.some.inj (found.symm.trans there)
    exact other (onEntry.mpr ⟨rfl, hid.symm.trans (same ▸ tells.id_eq)⟩)

/-- A call that does not delete the path keeps the log in step with the entry. -/
theorem effect {c : Call} {o : Outcome Answer} (h : log.Follows path first s) (wf : s.WellFormed)
    (effect : s.Effect now c o t) (kept : ¬MemoryStore.Deletes c o path) :
    (log.note path ⟨s, ⟨now, c⟩, ⟨t, o⟩⟩).Follows path first t := by
  cases effect with
  | refused =>
      rw [note_error]
      exact h
  | told query =>
      rw [note_of_isQuery query]
      exact h
  | madeDirectory normal free =>
      exact (h.addNode _ (MemoryStore.checkCreatable_eq_ok_iff.mp free).1).touchParent normal now
  | madeFile normal fits free =>
      exact (h.addNode _ (MemoryStore.checkCreatable_eq_ok_iff.mp free).1).touchParent normal now
  | @deleted text p node normal =>
      have other : path ≠ p := by
        rintro rfl
        exact kept ⟨⟨text, rfl, normal⟩, rfl⟩
      have erased : log.Follows path first { s with nodes := s.nodes.erase p } :=
        h.congr ((Registry.get?_erase _ _ _).trans (if_neg other)) rfl
      exact erased.touchParent normal now
  | opened normal found => exact h.opened normal found _
  | taken live use => exact h.taken wf live use
  | put live use => exact ⟨h.there, h.knows.put wf.table live (Handle.write_eq_ok use).1⟩
  | moved live use => exact ⟨h.there, h.knows.put wf.table live (Handle.seek_sameSession use).1⟩
  | closedStale =>
      rw [note_error]
      exact h.without _
  | closedReader live there reader =>
      simp only [note, live, reader, Bool.false_eq_true, and_false, if_false]
      exact h.without _
  | closedWriter live there writer => exact h.closedWriter wf live there writer
  | aborted => exact h.without _

end Follows

end EntryLog

/-! ## How an entry began -/

/-- The call that makes an entry at a path answers it. -/
inductive Makes (permissions : Permissions) (path : String) (m : MemoryMoment) :
    Entry → Bytes → Prop
  | directory {text : String} {entry : Entry} (asked : m.event.call = .createDirectory text)
      (normal : Path.normalize text = .ok path) (answer : m.outcome = .ok (.entry entry))
      (new : entry = .directory m.event.now path permissions.directory) :
      Makes permissions path m entry []
  | file {text : String} {content : Bytes} {entry : Entry}
      (asked : m.event.call = .createFile text content)
      (normal : Path.normalize text = .ok path) (answer : m.outcome = .ok (.entry entry))
      (new : entry = .file m.event.now path permissions.file content) :
      Makes permissions path m entry content

/-- What happened up to the time when an entry began.  The root is there from the start, and
any other entry begins with the call that makes it. -/
inductive Begins (permissions : Permissions) (start : Time) (path : String) :
    List MemoryMoment → Entry → Bytes → Prop
  | root (top : path = Path.root) :
      Begins permissions start path [] (.directory start Path.root permissions.directory) []
  | made {before : List MemoryMoment} {m : MemoryMoment} {entry : Entry} {content : Bytes}
      (makes : Makes permissions path m entry content) :
      Begins permissions start path (before ++ [m]) entry content

/-- The entry at a path began as `entry` with this content, and `since` is what happened
afterwards.  Its path was not deleted. -/
structure Origin (permissions : Permissions) (start : Time) (path : String)
    (past : List MemoryMoment) (entry : Entry) (content : Bytes) (since : List MemoryMoment) :
    Prop where
  begins : ∃ before, Begins permissions start path before entry content ∧ past = before ++ since
  kept : ∀ m ∈ since, ¬MemoryStore.Deletes m.event.call m.outcome path

theorem Begins.fresh {permissions : Permissions} {start : Time} {path : String}
    {before : List MemoryMoment} {entry : Entry} {content : Bytes}
    (h : Begins permissions start path before entry content) :
    entry.accessCount = 0 ∧ entry.modifyCount = 0
      ∧ entry.times.modified = entry.times.created := by
  cases h with
  | root => exact ⟨rfl, rfl, rfl⟩
  | made makes => cases makes <;> subst_vars <;> exact ⟨rfl, rfl, rfl⟩

namespace Origin

variable {permissions : Permissions} {start : Time} {path : String} {past since : List MemoryMoment}
  {m : MemoryMoment} {entry : Entry} {content : Bytes}

theorem of_makes (makes : Makes permissions path m entry content) :
    Origin permissions start path (past ++ [m]) entry content [] where
  begins := ⟨past ++ [m], .made makes, (List.append_nil _).symm⟩
  kept := fun _ there => (nomatch there)

/-- An entry goes on if its path is not deleted. -/
theorem snoc (h : Origin permissions start path past entry content since)
    (stays : ¬MemoryStore.Deletes m.event.call m.outcome path) :
    Origin permissions start path (past ++ [m]) entry content (since ++ [m]) where
  begins := by
    obtain ⟨before, begins, split⟩ := h.begins
    exact ⟨before, begins, by rw [split, List.append_assoc]⟩
  kept := by
    intro other there
    rcases List.mem_append.mp there with old | new
    · exact h.kept other old
    · exact List.mem_singleton.mp new ▸ stays

theorem eq_root (h : Origin permissions start path [] entry content since) :
    path = Path.root ∧ entry = .directory start Path.root permissions.directory ∧ content = []
      ∧ since = [] := by
  obtain ⟨before, begins, split⟩ := h.begins
  obtain ⟨hbefore, hsince⟩ := List.append_eq_nil_iff.mp split.symm
  cases begins with
  | root top => exact ⟨top, rfl, rfl, hsince⟩
  | made => simp at hbefore

/-- After one more call an entry began with this call, or it had begun before and the call
did not delete it. -/
theorem snoc_cases (h : Origin permissions start path (past ++ [m]) entry content since) :
    (Makes permissions path m entry content ∧ since = []) ∨
      ∃ earlier, since = earlier ++ [m] ∧ Origin permissions start path past entry content earlier
        ∧ ¬MemoryStore.Deletes m.event.call m.outcome path := by
  obtain ⟨before, begins, split⟩ := h.begins
  rcases List.eq_nil_or_concat since with rfl | ⟨earlier, last, rfl⟩
  · left
    rw [List.append_nil] at split
    subst split
    generalize whole : past ++ [m] = all at begins
    cases begins with
    | root => simp at whole
    | made makes =>
        obtain ⟨_, same⟩ := List.append_inj' whole rfl
        cases same
        exact ⟨makes, rfl⟩
  · right
    rw [List.concat_eq_append] at h split ⊢
    rw [← List.append_assoc] at split
    obtain ⟨rfl, same⟩ := List.append_inj' split rfl
    cases same
    refine ⟨earlier, rfl, ⟨⟨before, begins, rfl⟩, ?_⟩, ?_⟩
    · exact fun other there => h.kept other (List.mem_append_left _ there)
    · exact h.kept m (List.mem_append_right _ List.mem_cons_self)

end Origin

namespace MemoryStore

variable {s t : MemoryStore} {now : Time} {c : Call} {o : Outcome Answer} {path : String}

theorem Effect.permissions_eq (h : s.Effect now c o t) : t.permissions = s.permissions := by
  cases h with
  | madeDirectory => exact touchParent_permissions _ _ _
  | madeFile => exact touchParent_permissions _ _ _
  | deleted => exact touchParent_permissions _ _ _
  | taken => rw [noteRead_eq]
  | _ => rfl

/-- An entry that is there only after a call was made by the call. -/
theorem Effect.makes (h : s.Effect now c o t) (free : s.nodes.get? path = none)
    {node : MemoryNode} (found : t.nodes.get? path = some node) :
    ∃ entry content, Makes s.permissions path ⟨s, ⟨now, c⟩, ⟨t, o⟩⟩ entry content := by
  cases h with
  | @madeDirectory text p normal =>
      by_cases here : path = p
      · exact ⟨_, _, .directory rfl (here ▸ normal) rfl (here ▸ rfl)⟩
      · simp [get?_touchParent, addNode, Registry.get?_insert, Entry.directory, here, free] at found
  | @madeFile text p content normal =>
      by_cases here : path = p
      · exact ⟨_, _, .file rfl (here ▸ normal) rfl (here ▸ rfl)⟩
      · simp [get?_touchParent, addNode, Registry.get?_insert, Entry.file, here, free] at found
  | deleted =>
      rw [get?_touchParent, Registry.get?_erase, free] at found
      simp at found
  | taken => simp [get?_noteRead, free] at found
  | closedWriter => simp [get?_commit, free] at found
  | _ => cases free.symm.trans found

/-- A new entry is there as it was answered. -/
theorem get?_addNode_touchParent {entry : Entry} (data : Bytes) (times : entry.times = .at now) :
    ((s.addNode entry data).touchParent now entry.path).nodes.get? entry.path
      = some ⟨s.nextNode, entry, data⟩ := by
  have same : entry.touch now = entry := by
    rw [Entry.touch, times]
    cases entry
    cases times
    rfl
  rw [get?_touchParent, addNode, Registry.get?_insert, if_pos rfl, Option.map_some]
  split
  · rw [same]
  · rfl

/-- No handle is on a new entry. -/
theorem Effect.follows_of_makes (h : s.Effect now c o t) (wf : s.WellFormed) {entry : Entry}
    {content : Bytes} (makes : Makes s.permissions path ⟨s, ⟨now, c⟩, ⟨t, o⟩⟩ entry content) :
    ({} : EntryLog).Follows path ⟨s.nextNode, entry, content⟩ t := by
  have idle : ({} : EntryLog).Knows path s.nextNode s.handles := by
    refine ⟨fun live => iff_of_false List.not_mem_nil ?_, fun there => (nomatch there)⟩
    rintro ⟨_, same⟩
    exact absurd (wf.fits live).entryId_lt (by omega)
  cases makes with
  | directory asked normal answer new =>
      cases asked
      cases answer
      cases h with
      | told query => cases query
      | madeDirectory normal' =>
          cases normal.symm.trans normal'
          refine ⟨⟨_, get?_addNode_touchParent [] rfl, .refl _⟩, ?_⟩
          rw [touchParent_handles]
          exact idle
  | file asked normal answer new =>
      cases asked
      cases answer
      cases h with
      | told query => cases query
      | madeFile normal' =>
          cases normal.symm.trans normal'
          refine ⟨⟨_, get?_addNode_touchParent _ rfl, .refl _⟩, ?_⟩
          rw [touchParent_handles]
          exact idle

/-! ## The history of every entry -/

/-- The past of a store tells where its entries come from and what became of them. -/
structure Recorded (config : Config) (start : Time) (s : MemoryStore) (past : List MemoryMoment) :
    Prop where
  wf : s.WellFormed
  permissions : s.permissions = config.permissions
  origin : ∀ {path node}, s.nodes.get? path = some node → ∃ entry content since,
    Origin config.permissions start path past entry content since
  follows : ∀ {path entry content since},
    Origin config.permissions start path past entry content since →
      ∃ id, (EntryLog.of path since).Follows path ⟨id, entry, content⟩ s

namespace Recorded

variable {config : Config} {start : Time} {past : List MemoryMoment}

theorem create (config : Config) (start : Time) :
    Recorded config start (create config start) [] where
  wf := wellFormed_create config start
  permissions := rfl
  origin := by
    intro path node found
    rcases Registry.get?_insert_eq_some.mp found with ⟨top, _⟩ | ⟨_, old⟩
    · exact ⟨_, _, [], ⟨[], .root top, rfl⟩, fun _ there => (nomatch there)⟩
    · cases old
  follows := by
    intro path entry content since origin
    obtain ⟨rfl, rfl, rfl, rfl⟩ := origin.eq_root
    exact ⟨1, ⟨_, rfl, .refl _⟩, fun live => (nomatch live), fun there => (nomatch there)⟩

/-- An entry after one more call was there before or is made by the call. -/
theorem origin_step (h : Recorded config start s past) (e : Timed) {node : MemoryNode}
    (found : (s.step e).state.nodes.get? path = some node) : ∃ entry content since,
      Origin config.permissions start path (past ++ [⟨s, e, s.step e⟩]) entry content since := by
  have effect := step_effect s e
  have fate := effect.fate path
  rw [found] at fate
  cases old : s.nodes.get? path with
  | none =>
      obtain ⟨entry, content, makes⟩ := effect.makes old found
      exact ⟨entry, content, [], .of_makes (h.permissions ▸ makes)⟩
  | some before =>
      obtain ⟨entry, content, since, origin⟩ := h.origin old
      refine ⟨entry, content, since ++ [_], origin.snoc ?_⟩
      rw [old] at fate
      cases fate with
      | kept stays => exact stays
      | committed commits => exact not_deletes (by simp [commits.asked])

theorem step (h : Recorded config start s past) (e : Timed) :
    Recorded config start (s.step e).state (past ++ [⟨s, e, s.step e⟩]) where
  wf := h.wf.effect (step_effect s e)
  permissions := (step_effect s e).permissions_eq.trans h.permissions
  origin := h.origin_step e
  follows := by
    intro path entry content since origin
    have effect := step_effect s e
    rcases origin.snoc_cases with ⟨makes, rfl⟩ | ⟨earlier, rfl, before, kept⟩
    · exact ⟨s.nextNode, effect.follows_of_makes h.wf (h.permissions ▸ makes)⟩
    · obtain ⟨id, follows⟩ := h.follows before
      refine ⟨id, ?_⟩
      rw [EntryLog.of_snoc]
      exact follows.effect h.wf effect kept

theorem run (config : Config) (start : Time) (events : List Timed) :
    Recorded config start ((MemoryStore.create config start).run events)
      ((MemoryStore.create config start).moments events) :=
  History.moments_induction (create config start) (fun _ _ e h => h.step e) events

end Recorded

/-- The calls that change no entry. -/
def LeavesEntries (table : Handles) : Call → Prop
  | .openFile .. | .write .. | .seek .. | .abort _ | .stat _ | .present _ | .listDirectory _
  | .usage | .describe => True
  | .close id => ∀ h, table.live.get? id = some h → h.mode.isWriter = false
  | .createDirectory _ | .createFile .. | .deleteFile _ | .read .. => False

theorem Effect.nodes_eq (h : s.Effect now c o t) (leaves : LeavesEntries s.handles c) :
    t.nodes = s.nodes := by
  cases h with
  | closedWriter live there writer => cases (leaves _ live).symm.trans writer
  | madeDirectory | madeFile | deleted | taken => cases leaves
  | _ => rfl

/-- An entry is what happened to it.  Each entry that is there after a run from an empty store
began in the run and was not deleted since, and the log since then tells its content, its
counters and its times.  Only the calls that the log notes change an entry. -/
theorem entry_eq_history (config : Config) (start : Time) (events : List Timed) :
    let s := (create config start).run events
    (∀ path node, s.nodes.get? path = some node →
      (∃ first initial since, Origin config.permissions start path
        ((create config start).moments events) first initial since) ∧
      ∀ first initial since, Origin config.permissions start path
          ((create config start).moments events) first initial since →
        let log := EntryLog.of path since
        node.data = log.commits.getLastD initial ∧
        node.entry.modifyCount = log.commits.length ∧
        node.entry.accessCount = log.reads ∧
        node.entry.path = first.path ∧
        node.entry.kind = first.kind ∧
        node.entry.permissions = first.permissions ∧
        node.entry.times.created = first.times.created ∧
        (node.entry.kind = .directory →
          node.entry.modifyCount = 0 ∧ node.entry.accessCount = 0 ∧
          node.entry.times.modified = log.changes.getLastD first.times.created)) ∧
    ∀ now c, LeavesEntries s.handles c → (s.step ⟨now, c⟩).state.nodes = s.nodes := by
  intro s
  have recorded := Recorded.run config start events
  refine ⟨fun path node found => ⟨recorded.origin found, ?_⟩, ?_⟩
  · intro first initial since origin
    obtain ⟨id, follows⟩ := recorded.follows origin
    obtain ⟨last, there, tells⟩ := follows.there
    cases found.symm.trans there
    obtain ⟨before, begins, _⟩ := origin.begins
    obtain ⟨unread, unwritten, unchanged⟩ := begins.fresh
    have modified := tells.modifyCount_eq
    have accessed := tells.accessCount_eq
    simp only [unread, unwritten, Nat.zero_add] at modified accessed
    refine ⟨tells.data_eq, modified, accessed, tells.path_eq, tells.kind_eq, tells.permissions_eq,
      tells.created_eq, ?_⟩
    intro dir
    obtain ⟨reads, commits, changed⟩ := tells.directory (tells.kind_eq.symm.trans dir)
    refine ⟨by simp [modified, commits], by simp [accessed, reads], ?_⟩
    rw [changed, ← unchanged]
  · intro now c leaves
    exact (step_effect s ⟨now, c⟩).nodes_eq leaves

/-- A file with an open session is deleted, and a file is made in its place. -/
def renewal : List Timed :=
  [⟨1, .createFile "/a" [7]⟩, ⟨2, .openFile "/a" .write⟩, ⟨3, .deleteFile "/a"⟩,
    ⟨4, .createFile "/b/../a" [1]⟩]

/-- The new file is read and written, and the old session ends. -/
def editing : List Timed :=
  [⟨5, .openFile "/a" .append⟩, ⟨6, .write 2 [5]⟩, ⟨7, .openFile "/a" .read⟩, ⟨8, .read 3 none⟩,
    ⟨9, .close 1⟩, ⟨10, .close 2⟩]

/-- The old session does not count for the new file. -/
theorem entry_eq_history_renewed :
    ∃ node, ((create {} 0).run (renewal ++ editing)).nodes.get? "/a" = some node
      ∧ node.data = [1, 5] ∧ node.entry.modifyCount = 1 ∧ node.entry.accessCount = 1
      ∧ node.entry.times.created = 4 ∧ node.entry.permissions = "rw-r--r--" := by
  have found : ∃ node, ((create {} 0).run (renewal ++ editing)).nodes.get? "/a" = some node :=
    ⟨_, rfl⟩
  obtain ⟨node, found⟩ := found
  obtain ⟨entries, _⟩ := entry_eq_history {} 0 (renewal ++ editing)
  obtain ⟨_, tells⟩ := entries "/a" node found
  have begins : Begins {} 0 "/a" ((create {} 0).moments renewal)
      (.file 4 "/a" "rw-r--r--" [1]) [1] :=
    @Begins.made _ _ _ ((create {} 0).moments (renewal.take 3))
      ⟨(create {} 0).run (renewal.take 3), ⟨4, .createFile "/b/../a" [1]⟩, _⟩ _ _
      (.file rfl rfl rfl rfl)
  have origin : Origin {} 0 "/a" ((create {} 0).moments (renewal ++ editing))
      (.file 4 "/a" "rw-r--r--" [1]) [1] (((create {} 0).run renewal).moments editing) := by
    refine ⟨⟨_, begins, rfl⟩, ?_⟩
    simp only [History.moments, editing, List.forall_mem_cons]
    exact ⟨not_deletes (by simp), not_deletes (by simp), not_deletes (by simp),
      not_deletes (by simp), not_deletes (by simp), not_deletes (by simp), by simp⟩
  have log : EntryLog.of "/a" (((create {} 0).run renewal).moments editing)
      = { opened := [3, 2], reads := 1, commits := [[1, 5]] } := rfl
  obtain ⟨data, modified, accessed, _, _, permissions, created, _⟩ := tells _ _ _ origin
  rw [log] at data modified accessed
  exact ⟨node, found, data, modified, accessed, created, permissions⟩

end MemoryStore

end MountFs
