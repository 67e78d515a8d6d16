import MountFs.Proofs.Cuts

/-!
# Sessions

A `Session` is a run of calls on a store in memory, cut at the open that answers the number
of a handle.

The test that `close` makes is local: is an entry with the identity of the handle at the
path of the handle?  `close_stale_iff_deleted` says what the test means for the history.
It fails exactly if the path of the handle was deleted since the open, whatever was made
there afterwards.  Two facts carry this.

* An identity is given out once.  So an entry that comes back at a path comes back as
  another entry.
* Only a delete of its own path takes an entry away.  A delete of a directory above it is
  refused.

Neither looks at the handle, so `holds_run_iff` is about entries alone.
-/

namespace MountFs

/-! ## An entry across a run -/

namespace MemoryStore

variable {s t : MemoryStore} {now : Time} {c : Call} {o : Outcome Answer}

/-- The entry with an identity is at a path. -/
def Holds (s : MemoryStore) (path : String) (id : Nat) : Prop :=
  ∃ node, s.nodes.get? path = some node ∧ node.id = id

theorem holds_iff_nodeWithId? {path : String} {id : Nat} :
    s.Holds path id ↔ ∃ node, s.nodeWithId? path id = some node := by
  simp only [Holds, nodeWithId?_eq_some_iff]

/-- An old entry is at its path after a call exactly if it was there before and the call
did not delete it. -/
theorem Effect.holds_iff (h : Effect s now c o t) {path : String} {id : Nat}
    (old : id < s.nextNode) : t.Holds path id ↔ s.Holds path id ∧ ¬Deletes c o path := by
  have fate := h.fate path
  unfold Holds
  generalize s.nodes.get? path = before at *
  generalize t.nodes.get? path = after at *
  cases fate with
  | absent => simp
  | kept stays change => simp [stays, change.id_eq]
  | committed commits =>
      have stays : ¬Deletes c o path := not_deletes (by simp [commits.asked])
      simp [stays]
  | made fresh =>
      have differ : s.nextNode ≠ id := by omega
      simp [fresh, differ]
  | deleted deletes => simp [deletes]

/-- An old entry is at its path after a run exactly if it was there before and no call of
the run deleted it. -/
theorem holds_run_iff {path : String} {id : Nat} (old : id < s.nextNode) (events : List Timed) :
    (s.run events).Holds path id ↔
      s.Holds path id ∧ ∀ m ∈ s.moments events, ¬Deletes m.event.call m.outcome path := by
  induction events generalizing s with
  | nil => simp [History.moments, History.final]
  | cons e rest ih =>
      have effect := step_effect s e
      have old' : id < (s.step e).state.nextNode := Nat.lt_of_lt_of_le old effect.nextNode_le
      simp only [run, moments, History.final, History.moments, List.forall_mem_cons] at ih ⊢
      rw [ih old', effect.holds_iff old, and_assoc]

/-! ## Handles -/

/-- A store in memory keeps a table of handles. -/
theorem serving : History.Serving step Timed.mk MemoryStore.handles :=
  fun s e => Or.inr ⟨e.now, e.call, s.limits, rfl, s.call_serves e.now e.call⟩

/-- A handle that is live after a call under a number given out before was live before. -/
theorem Effect.live_of_old (h : Effect s now c o t) (num : s.handles.Numbered) {id : HandleId}
    {k : Handle} (old : id < s.handles.nextId) (live : t.handles.live.get? id = some k) :
    ∃ k', s.handles.live.get? id = some k' ∧ k'.SameSession k := by
  rcases h.turn.get?_live num live with same | starts
  · exact same
  · exact absurd starts.fresh (Nat.ne_of_lt old)

/-- An open that answers a number found a file, and put a new handle under the number. -/
theorem Effect.of_handle {path : String} {mode : OpenMode} {id : HandleId}
    (h : Effect s now (.openFile path mode) o t) (answer : o = .ok (.handle id)) :
    ∃ p node, Path.normalize path = .ok p ∧ s.nodes.get? p = some node
      ∧ node.entry.kind = .regular ∧ id = s.handles.nextId
      ∧ t = { s with handles := s.handles.extended (node.session id p mode) } := by
  cases h with
  | refused => cases answer
  | told query => cases query
  | @opened _ p _ node normal found file =>
      cases answer
      exact ⟨p, node, normal, found, Entry.isDir_eq_false_iff.mp file, rfl, rfl⟩

/-! ## Closing -/

variable {id : HandleId} {h : Handle}

theorem step_close_of_stale (now : Time)
    (live : s.handles.live.get? id = some h) (gone : ¬s.Holds h.path h.entryId) :
    s.step ⟨now, .close id⟩
      = ⟨{ s with handles := s.handles.without id }, .error (.staleHandle id h.path)⟩ := by
  cases there : s.nodeWithId? h.path h.entryId with
  | none =>
      simp only [step, call, close_of_live now live, there]
      rfl
  | some node => exact absurd (holds_iff_nodeWithId?.mpr ⟨node, there⟩) gone

theorem close_of_holds (now : Time) (live : s.handles.live.get? id = some h)
    (held : s.Holds h.path h.entryId) :
    s.close now id =
      ⟨if h.mode.isWriter = true then
          { s with handles := s.handles.without id }.commit now h.path h.buffer
        else { s with handles := s.handles.without id }, .ok ()⟩ := by
  obtain ⟨node, there⟩ := holds_iff_nodeWithId?.mp held
  rw [close_of_live now live, there]

theorem step_close_of_holds (now : Time)
    (live : s.handles.live.get? id = some h) (held : s.Holds h.path h.entryId) :
    s.step ⟨now, .close id⟩
      = ⟨if h.mode.isWriter = true then
            { s with handles := s.handles.without id }.commit now h.path h.buffer
          else { s with handles := s.handles.without id }, .ok .done⟩ := by
  rw [step, call, close_of_holds now live held]
  rfl

/-- The close of a live handle is refused exactly if its entry is gone. -/
theorem step_close_stale_iff (now : Time)
    (live : s.handles.live.get? id = some h) :
    (s.step ⟨now, .close id⟩).outcome = .error (.staleHandle id h.path)
      ↔ ¬s.Holds h.path h.entryId := by
  constructor
  · intro refused held
    rw [step_close_of_holds now live held] at refused
    cases refused
  · intro gone
    rw [step_close_of_stale now live gone]

theorem step_close_handles (now : Time)
    (live : s.handles.live.get? id = some h) :
    (s.step ⟨now, .close id⟩).state.handles = s.handles.without id := by
  by_cases held : s.Holds h.path h.entryId
  · rw [step_close_of_holds now live held]
    dsimp only
    split <;> rfl
  · rw [step_close_of_stale now live held]

theorem step_close_get?_nodes (now : Time)
    (live : s.handles.live.get? id = some h) {path : String} (other : path ≠ h.path) :
    (s.step ⟨now, .close id⟩).state.nodes.get? path = s.nodes.get? path := by
  by_cases held : s.Holds h.path h.entryId
  · rw [step_close_of_holds now live held]
    dsimp only
    split
    · rw [get?_commit]
      simp only [if_neg other, Option.map_id']
    · rfl
  · rw [step_close_of_stale now live held]

/-- The close of a writer whose file is there makes its buffer the content. -/
theorem step_close_get?_self (now : Time)
    (live : s.handles.live.get? id = some h) (writer : h.mode.isWriter = true) {node : MemoryNode}
    (found : s.nodes.get? h.path = some node) (hid : node.id = h.entryId) :
    (s.step ⟨now, .close id⟩).state.nodes.get? h.path
      = some { node with entry := node.entry.noteCommit now h.buffer, data := h.buffer } := by
  rw [step_close_of_holds now live ⟨node, found, hid⟩]
  simp only [writer, if_true, get?_commit, found, Option.map_some]

end MemoryStore

/-! ## Runs cut at an open -/

open MemoryStore

/-- A run of a store, cut at the open that answered the number `id`. -/
abbrev Session (s : MemoryStore) (events : List Timed) (id : HandleId) : Type :=
  History.Cut MemoryStore.step Timed.mk s events id

namespace Session

variable {s : MemoryStore} {events : List Timed} {id : HandleId}

/-- A delete of the path succeeded since the open. -/
def Deleted (x : Session s events id) (path : String) : Prop :=
  ∃ m ∈ x.moments, Deletes m.event.call m.outcome path

/-- The open found the file `node` at the normal path `path`. -/
structure FoundAt (x : Session s events id) (path : String) (node : MemoryNode) : Prop where
  normal : Path.normalize x.text = .ok path
  found : x.found.nodes.get? path = some node
  file : node.entry.kind = .regular

theorem run_eq (x : Session s events id) : s.run events = x.opened.run x.since := x.final_eq

/-- A handle that is live after a run from an empty store has its session in the run. -/
theorem nonempty_of_live {config : Config} {start : Time} {h : Handle}
    (live : ((create config start).run events).handles.live.get? id = some h) :
    Nonempty (Session (create config start) events id) :=
  History.Cut.nonempty_of_live serving rfl live

theorem effect (x : Session s events id) :
    Effect x.found x.now (.openFile x.text x.mode) (.ok (.handle id)) x.opened := by
  have effect := step_effect x.found ⟨x.now, .openFile x.text x.mode⟩
  rw [History.Cut.found, x.answer] at effect
  exact effect

/-- The open of a session found a file, and put a new handle on it into the table. -/
theorem exists_foundAt (x : Session s events id) :
    ∃ path node, x.FoundAt path node ∧ id = x.found.handles.nextId
      ∧ x.opened = { x.found with
          handles := x.found.handles.extended (node.session id path x.mode) }
      ∧ x.opened.handles.live.get? id = some (node.session id path x.mode) := by
  obtain ⟨path, node, normal, found, file, fresh, opened⟩ := x.effect.of_handle rfl
  refine ⟨path, node, ⟨normal, found, file⟩, fresh, opened, ?_⟩
  rw [opened]
  exact Handles.get?_extended.mpr (Or.inl ⟨fresh, rfl⟩)

theorem wellFormed_opened (x : Session s events id) (wf : s.WellFormed) : x.opened.WellFormed :=
  (wf.run x.before).effect x.effect

/-- A live handle is on the file that its open found. -/
theorem foundAt_of_live (x : Session s events id) (wf : s.WellFormed) {h : Handle}
    (live : (s.run events).handles.live.get? id = some h) :
    ∃ node, x.FoundAt h.path node ∧ h.entryId = node.id ∧ h.mode = x.mode := by
  obtain ⟨path, node, foundAt, fresh, opened, _⟩ := x.exists_foundAt
  have same := x.sameSession_of_live (k := node.session id path x.mode) serving wf.table fresh
    fresh (congrArg MemoryStore.handles opened) live
  refine ⟨node, ?_, same.entryId, same.mode⟩
  rw [same.path]
  exact foundAt

/-- The file that the open found is still there exactly if its path was not deleted. -/
theorem holds_iff (x : Session s events id) (wf : s.WellFormed) {path : String}
    {node : MemoryNode} (foundAt : x.FoundAt path node) :
    (s.run events).Holds path node.id ↔ ¬x.Deleted path := by
  have old : node.id < x.found.nextNode := (wf.run x.before).layout.id_lt foundAt.found
  have there : x.opened.Holds path node.id :=
    (x.effect.holds_iff old).mpr ⟨⟨node, foundAt.found, rfl⟩, not_deletes (by simp)⟩
  rw [x.run_eq, holds_run_iff (Nat.lt_of_lt_of_le old x.effect.nextNode_le)]
  simp only [there, true_and, Deleted, not_exists, not_and]
  rfl

end Session

namespace MemoryStore

/-- The close of a live handle after any run.  The number was answered by an open, on the
file at the path of the handle.  The close is refused as stale exactly if a delete of that
path succeeded since the open; then no entry changes and the handle goes.  Otherwise it
succeeds, the handle goes, and nothing changes but the file that was opened. -/
theorem close_stale_iff_deleted (config : Config) (start : Time) (events : List Timed) (now : Time)
    {id : HandleId} {h : Handle}
    (live : ((create config start).run events).handles.live.get? id = some h) :
    Nonempty (Session (create config start) events id) ∧
      ∀ x : Session (create config start) events id, ∃ node,
        x.FoundAt h.path node ∧ h.entryId = node.id ∧ h.mode = x.mode ∧
          let s := (create config start).run events
          let closed := s.step ⟨now, .close id⟩
          (closed.outcome = .error (.staleHandle id h.path) ↔ x.Deleted h.path) ∧
          closed.state.handles = s.handles.without id ∧
          closed.state.handles.live.get? id = none ∧
          (x.Deleted h.path → closed.state.nodes = s.nodes) ∧
          (¬x.Deleted h.path → closed.outcome = .ok .done ∧ s.Holds h.path node.id ∧
            closed.state.Holds h.path node.id ∧
            ∀ path, path ≠ h.path → closed.state.nodes.get? path = s.nodes.get? path) := by
  have wf := wellFormed_create config start
  refine ⟨Session.nonempty_of_live live, ?_⟩
  intro x
  obtain ⟨node, foundAt, hid, mode⟩ := x.foundAt_of_live wf live
  have there := x.holds_iff wf foundAt
  rw [← hid] at there
  refine ⟨node, foundAt, hid, mode, ?_, step_close_handles now live, ?_, ?_, ?_⟩
  · rw [step_close_stale_iff now live, there, Classical.not_not]
  · rw [step_close_handles now live]
    exact (Registry.get?_erase _ _ _).trans (if_pos rfl)
  · intro deleted
    rw [step_close_of_stale now live fun held => there.mp held deleted]
  · intro kept
    have held := there.mpr kept
    have old := ((wf.run events).fits live).entryId_lt
    have effect := step_effect ((create config start).run events) ⟨now, .close id⟩
    rw [← hid]
    refine ⟨?_, held, (effect.holds_iff old).mpr ⟨held, not_deletes (by simp)⟩, ?_⟩
    · rw [step_close_of_holds now live held]
    · exact fun path other => step_close_get?_nodes now live other

/-- A file is opened and deleted, and a directory is made in its place. -/
def replacement : List Timed :=
  [⟨1, .createFile "/a" [7]⟩, ⟨2, .openFile "/a" .append⟩, ⟨3, .deleteFile "/b/../a"⟩,
    ⟨4, .createDirectory "/a"⟩]

/-- What was made in the place of the file does not save the session. -/
theorem close_stale_after_replacement :
    ((create {} 0).run replacement).handles.live.get? 1 = some ⟨1, "/a", 2, .append, 1, [7]⟩
      ∧ (((create {} 0).run replacement).step ⟨5, .close 1⟩).outcome
          = .error (.staleHandle 1 "/a") := by
  have live : ((create {} 0).run replacement).handles.live.get? 1
      = some ⟨1, "/a", 2, .append, 1, [7]⟩ := rfl
  obtain ⟨x, deleted⟩ : ∃ x : Session (create {} 0) replacement 1, x.Deleted "/a" := by
    refine ⟨⟨[⟨1, .createFile "/a" [7]⟩], 2, "/a", .append,
      [⟨3, .deleteFile "/b/../a"⟩, ⟨4, .createDirectory "/a"⟩], rfl, rfl⟩, ?_⟩
    exact ⟨_, List.mem_cons_self, ⟨"/b/../a", rfl, rfl⟩, rfl⟩
  obtain ⟨_, sessions⟩ := close_stale_iff_deleted {} 0 replacement 5 live
  obtain ⟨_, _, _, _, stale, _⟩ := sessions x
  exact ⟨live, stale.mpr deleted⟩

end MemoryStore

end MountFs
