import MountFs.Proofs.HandleTable
import MountFs.Proofs.Sessions

/-!
# Exclusive writers

A write or append session works on a copy of the content and writes the copy back whole at
the end.  Two such sessions on one file that overlap would lose what the first of them
wrote.  Under the exclusive policy they do not overlap (`OneWriter`), and no update is lost
(`no_lost_update`).

The policy is checked at the open, by path and identity.  A stale writer left over from a
deleted file has the path of its successor but not its identity, so it does not block the
successor, and at its close it does not reach it.  A commit reaches a file by path and
identity too, and an identity stands at one path, so writers of one file are writers at one
path.

`Undisturbed` is what a session keeps while its file is there.  Nobody committed to the
file since the open, and the buffer of an append session is the content of the file and
then all that was written through the handle.
-/

namespace MountFs

namespace Handle

/-- Two handles may write to one entry. -/
structure Rivals (h h' : Handle) : Prop where
  left : h.mode.isWriter = true
  right : h'.mode.isWriter = true
  path : h.path = h'.path
  entryId : h.entryId = h'.entryId

theorem Rivals.symm {h h' : Handle} (r : h.Rivals h') : h'.Rivals h :=
  ⟨r.right, r.left, r.path.symm, r.entryId.symm⟩

/-- What was a rival of a handle is a rival of it at any time of its session. -/
theorem Rivals.of_sameSession {h k h' : Handle} (r : k.Rivals h') (same : h.SameSession k) :
    h.Rivals h' where
  left := same.mode ▸ r.left
  right := r.right
  path := same.path.symm.trans r.path
  entryId := same.entryId.symm.trans r.entryId

end Handle

theorem Handles.hasWriter_iff {t : Handles} (num : t.Numbered) {path : String} {entryId : Nat} :
    t.hasWriter path entryId = true ↔ ∃ id h, t.live.get? id = some h
      ∧ h.mode.isWriter = true ∧ h.path = path ∧ h.entryId = entryId := by
  simp only [hasWriter, List.any_eq_true, Bool.and_eq_true, beq_iff_eq, and_assoc,
    Registry.mem_values_iff num.keys_nodup]
  constructor
  · rintro ⟨h, ⟨id, live⟩, rest⟩
    exact ⟨id, h, live, rest⟩
  · rintro ⟨id, h, live, rest⟩
    exact ⟨h, ⟨id, live⟩, rest⟩

namespace MemoryStore

variable {s t : MemoryStore} {now : Time} {c : Call} {o : Outcome Answer}

/-! ## One writer -/

/-- A store that lets one writer at a time work on an entry. -/
structure OneWriter (s : MemoryStore) : Prop where
  /-- The policy is the exclusive one. -/
  policy : s.policy = .exclusive
  /-- Live writers on one entry are one writer. -/
  alone : ∀ {id id' h h'}, s.handles.live.get? id = some h → s.handles.live.get? id' = some h' →
    h.Rivals h' → id = id'

theorem Effect.policy_eq (h : Effect s now c o t) : t.policy = s.policy := by
  cases h with
  | madeDirectory => exact touchParent_policy _ _ _
  | madeFile => exact touchParent_policy _ _ _
  | deleted => exact touchParent_policy _ _ _
  | taken => exact noteRead_policy _ _ _ _
  | _ => rfl

/-- A writer whose session starts has no live rival. -/
theorem Starts.not_rivals {id other : HandleId} {k h : Handle} (starts : Starts s c o id k)
    (one : s.OneWriter) (num : s.handles.Numbered) (live : s.handles.live.get? other = some h) :
    ¬k.Rivals h := by
  intro r
  refine starts.alone ⟨r.left, one.policy, (Handles.hasWriter_iff num).mpr ?_⟩
  exact ⟨other, h, live, r.right, r.path.symm, r.entryId.symm⟩

theorem OneWriter.effect (one : s.OneWriter) (num : s.handles.Numbered)
    (h : Effect s now c o t) : t.OneWriter where
  policy := h.policy_eq.trans one.policy
  alone := by
    intro id id' k k' live live' r
    rcases h.turn.get?_live num live with ⟨old, hold, same⟩ | starts
    · have r := r.of_sameSession same
      rcases h.turn.get?_live num live' with ⟨old', hold', same'⟩ | starts'
      · exact one.alone hold hold' (r.symm.of_sameSession same').symm
      · exact absurd r.symm (starts'.not_rivals one num hold)
    · rcases h.turn.get?_live num live' with ⟨old', hold', same'⟩ | starts'
      · exact absurd (r.symm.of_sameSession same').symm (starts.not_rivals one num hold')
      · exact starts.fresh.trans starts'.fresh.symm

theorem OneWriter.run (one : s.OneWriter) (wf : s.WellFormed) (events : List Timed) :
    (s.run events).OneWriter := by
  induction events generalizing s with
  | nil => exact one
  | cons e rest ih =>
      have effect := step_effect s e
      exact ih (one.effect wf.table effect) (wf.effect effect)

theorem oneWriter_create {config : Config} (exclusive : config.writePolicy = .exclusive)
    (start : Time) : (create config start).OneWriter where
  policy := exclusive
  alone := fun live => (nomatch live)

/-! ## Commits -/

/-- A commit reaches the entry of its handle and ends the session. -/
theorem Effect.of_commits {id : HandleId} {k : Handle} (h : Effect s now c o t)
    (commits : s.Commits c o id k) :
    s.Holds k.path k.entryId ∧ t.handles = s.handles.without id := by
  obtain ⟨rfl, live, writer, rfl⟩ := commits
  cases h with
  | told query => cases query
  | closedReader live' there reader =>
      cases live.symm.trans live'
      rw [reader] at writer
      cases writer
  | closedWriter live' there =>
      cases live.symm.trans live'
      exact ⟨holds_iff_nodeWithId?.mpr ⟨_, there⟩, rfl⟩

/-- While a writer works on an entry that is there, nobody commits to the entry. -/
theorem OneWriter.not_commits (one : s.OneWriter) (wf : s.WellFormed) (h : Effect s now c o t)
    {id other : HandleId} {k k' k'' : Handle} (live : s.handles.live.get? id = some k)
    (writer : k.mode.isWriter = true) (held : s.Holds k.path k.entryId)
    (live' : t.handles.live.get? id = some k') (commits : s.Commits c o other k'') :
    k''.entryId ≠ k.entryId := by
  intro entryId
  obtain ⟨⟨node', found', hid'⟩, ended⟩ := h.of_commits commits
  obtain ⟨node, found, hid⟩ := held
  -- The entry has one path, so both handles have it, and they are one handle.
  have path : k''.path = k.path :=
    wf.layout.id_inj found' found (hid'.trans (entryId.trans hid.symm))
  have same : other = id := one.alone commits.live live ⟨commits.writer, writer, path, entryId⟩
  rw [ended, same] at live'
  exact (Handles.get?_without.mp live').1 rfl

/-! ## A session that nobody disturbs -/

/-- What the writer under the number `id` keeps while its entry is there. -/
structure Undisturbed (id : HandleId) (s : MemoryStore)
    (past : List (Moment MemoryStore Timed Answer)) : Prop where
  /-- Nobody committed to the entry. -/
  quiet : ∀ {h}, s.handles.live.get? id = some h → h.mode.isWriter = true →
    s.Holds h.path h.entryId → ∀ m ∈ past, ∀ {other k},
      m.before.Commits m.event.call m.outcome other k → k.entryId ≠ h.entryId
  /-- An append handle has the content of the entry, and then what was written. -/
  buffer : ∀ {h node}, s.handles.live.get? id = some h → h.mode = .append →
    s.nodes.get? h.path = some node → node.id = h.entryId →
      h.buffer = node.data ++ past.flatMap fun m => written id m.event.call m.outcome

/-- The whole invariant of a run that has a writer under the number `id`. -/
structure Guarded (id : HandleId) (s : MemoryStore)
    (past : List (Moment MemoryStore Timed Answer)) : Prop where
  wf : s.WellFormed
  one : s.OneWriter
  old : id < s.handles.nextId
  undisturbed : Undisturbed id s past

/-- The session of a live writer whose entry is there was in the same place before. -/
theorem Guarded.back {id : HandleId} {past : List (Moment MemoryStore Timed Answer)}
    (g : Guarded id s past) (h : Effect s now c o t) {k' : Handle}
    (live' : t.handles.live.get? id = some k') (held' : t.Holds k'.path k'.entryId) :
    ∃ k, s.handles.live.get? id = some k ∧ k.SameSession k' ∧ s.Holds k'.path k'.entryId := by
  obtain ⟨k, live, same⟩ := h.live_of_old g.wf.table g.old live'
  have old : k'.entryId < s.nextNode := same.entryId ▸ (g.wf.fits live).entryId_lt
  exact ⟨k, live, same, ((h.holds_iff old).mp held').1⟩

/-- Nobody commits to the entry of a writer that stays live. -/
theorem Guarded.not_commits {id other : HandleId} {past : List (Moment MemoryStore Timed Answer)}
    (g : Guarded id s past) (h : Effect s now c o t) {k' k'' : Handle}
    (live' : t.handles.live.get? id = some k') (writer : k'.mode.isWriter = true)
    (held' : t.Holds k'.path k'.entryId) (commits : s.Commits c o other k'') :
    k''.entryId ≠ k'.entryId := by
  obtain ⟨k, live, same, held⟩ := g.back h live' held'
  rw [same.path, same.entryId] at held
  rw [same.mode] at writer
  rw [same.entryId]
  exact g.one.not_commits g.wf h live writer held live' commits

theorem Guarded.step {id : HandleId} {past : List (Moment MemoryStore Timed Answer)}
    (g : Guarded id s past) (e : Timed) :
    Guarded id (s.step e).state (past ++ [⟨s, e, s.step e⟩]) := by
  have effect := step_effect s e
  refine ⟨g.wf.effect effect, g.one.effect g.wf.table effect,
    Nat.lt_of_lt_of_le g.old effect.turn.moves.nextId_le, ?_, ?_⟩
  · intro k' live' writer held' m hm other k'' commits
    rcases List.mem_append.mp hm with earlier | now
    · obtain ⟨k, live, same, held⟩ := g.back effect live' held'
      rw [same.path, same.entryId] at held
      rw [same.mode] at writer
      rw [same.entryId]
      exact g.undisturbed.quiet live writer held m earlier commits
    · cases List.mem_singleton.mp now
      exact g.not_commits effect live' writer held' commits
  · intro k' node' live' append found' hid'
    have held' : (s.step e).state.Holds k'.path k'.entryId := ⟨node', found', hid'⟩
    obtain ⟨k, live, same, node, found, hid⟩ := g.back effect live' held'
    have content : node'.data = node.data := by
      have fate := effect.fate k'.path
      rw [found, found'] at fate
      cases fate with
      | kept _ change => exact change.data_eq
      | committed commits _ entryId =>
          have writer : k'.mode.isWriter = true := by rw [append]; rfl
          exact absurd (entryId.trans hid) (g.not_commits effect live' writer held' commits)
    have append' : k.mode = .append := same.mode ▸ append
    rw [same.path] at found
    rw [same.entryId] at hid
    have serves : s.handles.Serves s.limits e.call (s.step e).outcome (s.step e).state.handles :=
      s.call_serves e.now e.call
    rw [serves.buffer_eq g.wf.table live append' live',
      g.undisturbed.buffer live append' found hid, content, List.flatMap_append,
      List.flatMap_singleton, List.append_assoc]

end MemoryStore

namespace Session

variable {s : MemoryStore} {events : List Timed} {id : HandleId}

open MemoryStore

/-- The invariant at the open of a session. -/
theorem guarded_opened (x : Session s events id) (wf : s.WellFormed) (one : s.OneWriter) :
    Guarded id x.opened [] := by
  have wfStore := wf.run x.before
  have wfOpened := x.wellFormed_opened wf
  obtain ⟨path, node, foundAt, _, opened, first⟩ := x.exists_foundAt
  refine ⟨wfOpened, (one.run wf x.before).effect wfStore.table x.effect,
    wfOpened.table.id_lt first, ?_, ?_⟩
  · intro h live writer held m hm
    cases hm
  · intro h node' live append found hid
    cases first.symm.trans live
    rw [opened] at found
    cases foundAt.found.symm.trans found
    have mode : x.mode = .append := append
    simp [MemoryNode.session, mode]

/-- The invariant at the end of a session. -/
theorem guarded (x : Session s events id) (wf : s.WellFormed) (one : s.OneWriter) :
    Guarded id (s.run events) x.moments := by
  rw [x.run_eq]
  exact History.moments_induction (x.guarded_opened wf one)
    (fun s past e g => g.step e) x.since

end Session

namespace MemoryStore

/-- Under the exclusive policy, if the close of a write or append handle succeeds after any
run, then nobody committed to its file since it was opened.  The new content of the file of
an append handle is its content right before the close, followed by the data of all writes
through the handle that succeeded, in the order of the calls. -/
theorem no_lost_update {config : Config} (exclusive : config.writePolicy = .exclusive)
    (start : Time) (events : List Timed) (now : Time) {id : HandleId} {h : Handle}
    (commits : ((create config start).run events).Commits (.close id)
      (((create config start).run events).step ⟨now, .close id⟩).outcome id h) :
    Nonempty (Session (create config start) events id) ∧
      ∀ x : Session (create config start) events id,
        (∃ opened, x.FoundAt h.path opened ∧ h.entryId = opened.id ∧ h.mode = x.mode) ∧
        (∀ m ∈ x.moments, ∀ {other k}, m.before.Commits m.event.call m.outcome other k →
          k.entryId ≠ h.entryId) ∧
        (h.mode = .append → ∃ node after,
          ((create config start).run events).nodes.get? h.path = some node ∧
          node.id = h.entryId ∧
          (((create config start).run events).step ⟨now, .close id⟩).state.nodes.get? h.path
            = some after ∧
          after.id = h.entryId ∧
          after.data = node.data ++ x.moments.flatMap fun m =>
            written id m.event.call m.outcome) := by
  have wf := wellFormed_create config start
  have live := commits.live
  refine ⟨Session.nonempty_of_live live, ?_⟩
  intro x
  have g := x.guarded wf (oneWriter_create exclusive start)
  have effect := step_effect ((create config start).run events) ⟨now, .close id⟩
  obtain ⟨held, _⟩ := effect.of_commits commits
  refine ⟨x.foundAt_of_live wf live, ?_, ?_⟩
  · intro m hm other k commits'
    exact g.undisturbed.quiet live commits.writer held m hm commits'
  · intro append
    obtain ⟨node, found, hid⟩ := held
    have buffer := g.undisturbed.buffer live append found hid
    have after := step_close_get?_self now live commits.writer found hid
    exact ⟨node, _, found, hid, after, hid, buffer⟩

/-- A writer is left over from a deleted file while another appends to the new one. -/
def overlap : List Timed :=
  [⟨1, .createFile "/a" [1]⟩, ⟨2, .openFile "/a" .write⟩, ⟨3, .deleteFile "/a"⟩,
    ⟨4, .createFile "/a" [2]⟩, ⟨5, .openFile "/a" .append⟩, ⟨6, .write 1 [9]⟩,
    ⟨7, .write 2 [3]⟩, ⟨8, .close 1⟩, ⟨9, .write 2 [4]⟩]

/-- The writer that is left over neither blocks the other nor takes its place. -/
theorem no_lost_update_overlap :
    ((create {} 0).run overlap).Commits (.close 2)
        (((create {} 0).run overlap).step ⟨10, .close 2⟩).outcome 2
        ⟨2, "/a", 3, .append, 3, [2, 3, 4]⟩
      ∧ ∃ node after, ((create {} 0).run overlap).nodes.get? "/a" = some node ∧
        (((create {} 0).run overlap).step ⟨10, .close 2⟩).state.nodes.get? "/a" = some after ∧
        after.data = node.data ++ [3, 4] := by
  have commits : ((create {} 0).run overlap).Commits (.close 2)
      (((create {} 0).run overlap).step ⟨10, .close 2⟩).outcome 2
      ⟨2, "/a", 3, .append, 3, [2, 3, 4]⟩ := ⟨rfl, rfl, rfl, rfl⟩
  obtain ⟨_, sessions⟩ := no_lost_update rfl 0 overlap 10 commits
  obtain ⟨x, writes⟩ : ∃ x : Session (create {} 0) overlap 2,
      (x.moments.flatMap fun m => written 2 m.event.call m.outcome) = [3, 4] :=
    ⟨⟨overlap.take 4, 5, "/a", .append, overlap.drop 5, rfl, rfl⟩, rfl⟩
  obtain ⟨_, _, appended⟩ := sessions x
  obtain ⟨node, after, found, _, found', _, data⟩ := appended rfl
  rw [writes] at data
  exact ⟨commits, node, after, found, found', data⟩

end MemoryStore

end MountFs
