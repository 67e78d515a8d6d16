import MountFs.Proofs.HandleTable
import MountFs.Proofs.Refusals

/-!
# Handles do not get in each other's way

What a call on a handle of a store in memory does can be said by three things: the answer, the
handle after the call, and a `Trace` on the entry that the handle is on.  `Handle.serve` gives
them from the handle alone, the limits, and whether the entry is still there
(`call_eq_settle`).  No call on a handle changes any of this for another handle.

So calls on two handles may be made in either order (`calls_commute`).  The answers are always
the same.  The stores at the end are the same but for the times of the entries, unless both calls
commit to one entry: then the last one decides the content.
-/

namespace MountFs

/-! ## A change of every value -/

namespace Registry

variable {κ : Type} {α : Type} [DecidableEq κ]

/-- The registry with every value changed. -/
def map (r : Registry κ α) (f : α → α) : Registry κ α := ⟨r.rows.map fun row => (row.1, f row.2)⟩

theorem map_adjust (r : Registry κ α) (key : κ) {f change change' : α → α}
    (moves : ∀ a, f (change a) = change' (f a)) :
    (r.adjust key change).map f = (r.map f).adjust key change' := by
  simp only [adjust, map, List.map_map]
  refine congrArg Registry.mk (List.map_congr_left fun row _ => ?_)
  by_cases here : row.1 = key
  · simp [here, moves]
  · simp [here]

end Registry

/-! ## The trace of a use -/

/-- What a call on a handle leaves on the entry of the handle. -/
inductive Trace where
  | nothing
  | read
  | commit (content : Bytes)
deriving DecidableEq, Repr, Inhabited

namespace Trace

/-- Whether the content is replaced. -/
def isCommit : Trace → Bool
  | .commit _ => true
  | _ => false

/-- An entry with a trace. -/
def on (now : Time) : Trace → MemoryNode → MemoryNode
  | .nothing, node => node
  | .read, node => { node with entry := node.entry.noteRead now }
  | .commit content, node =>
      { node with entry := node.entry.noteCommit now content, data := content }

/-- A trace on the entry with identity `id`, and on no other. -/
def mark (now : Time) (id : Nat) (trace : Trace) (node : MemoryNode) : MemoryNode :=
  if node.id = id then trace.on now node else node

variable {now : Time} {id other : Nat} {trace first second : Trace} {node : MemoryNode}

@[simp] theorem on_id : (trace.on now node).id = node.id := by
  cases trace <;> rfl

@[simp] theorem mark_id : (trace.mark now id node).id = node.id := by
  rw [mark]
  split
  · exact on_id
  · rfl

theorem mark_of_eq (here : node.id = id) : trace.mark now id node = trace.on now node := if_pos here

theorem mark_of_ne (there : node.id ≠ id) : trace.mark now id node = node := if_neg there

/-- Two traces at one time come to the same in either order, unless both replace the content. -/
theorem on_comm (apart : ¬(first.isCommit = true ∧ second.isCommit = true)) :
    second.on now (first.on now node) = first.on now (second.on now node) := by
  cases first with
  | nothing => rfl
  | read => cases second <;> rfl
  | commit content =>
      cases second with
      | commit => exact absurd ⟨rfl, rfl⟩ apart
      | _ => rfl

theorem mark_comm (apart : id = other → ¬(first.isCommit = true ∧ second.isCommit = true)) :
    second.mark now other (first.mark now id node)
      = first.mark now id (second.mark now other node) := by
  by_cases here : node.id = id
  · by_cases there : node.id = other
    · rw [mark_of_eq here, mark_of_eq there, mark_of_eq (on_id.trans there),
        mark_of_eq (on_id.trans here)]
      exact on_comm (apart (here.symm.trans there))
    · rw [mark_of_ne there, mark_of_ne fun same => there (mark_id.symm.trans same)]
  · rw [mark_of_ne here, mark_of_ne fun same => here (mark_id.symm.trans same)]

end Trace

/-! ## What a call makes of its handle -/

/-- What a call makes of the handle that it names. -/
structure Served where
  answer : Outcome Answer
  /-- The handle after the call, unless its session is over. -/
  left : Option Handle
  trace : Trace

/-- What a use makes of a handle, with its trace if it is let in. -/
def Served.ofUse (h : Handle) (trace : Trace) : Outcome (Handle × Answer) → Served
  | .ok (h', a) => ⟨.ok a, some h', trace⟩
  | .error e => ⟨.error e, some h, .nothing⟩

/-- What a call makes of a live handle.  The entry of the handle is there or it is not.  A call
that names no handle makes nothing of it. -/
def Handle.serve (h : Handle) (limits : Limits) (there : Bool) : Call → Served
  | .read _ size => .ofUse h .read ((h.read size).map fun used => (used.1, .bytes used.2))
  | .write _ data =>
      .ofUse h .nothing ((h.write limits data).map fun used => (used.1, .number used.2))
  | .seek _ offset => .ofUse h .nothing ((h.seek offset).map fun used => (used.1, .number used.2))
  | .close id =>
      if there then ⟨.ok .done, none, if h.mode.isWriter then .commit h.buffer else .nothing⟩
      else ⟨.error (.staleHandle id h.path), none, .nothing⟩
  | .abort _ => ⟨.ok .done, none, .nothing⟩
  | _ => ⟨.ok .done, some h, .nothing⟩

theorem Served.isCommit_ofUse {h : Handle} {trace : Trace} (quiet : trace.isCommit = false)
    (made : Outcome (Handle × Answer)) : (Served.ofUse h trace made).trace.isCommit = false := by
  cases made with
  | error e => rfl
  | ok next => exact quiet

/-- Only the close of a writer commits. -/
theorem Handle.isCommit_serve {h : Handle} {limits : Limits} {there : Bool} {c : Call}
    (commits : (h.serve limits there c).trace.isCommit = true) :
    c.isClose = true ∧ h.mode.isWriter = true := by
  cases c with
  | close id =>
      refine ⟨rfl, ?_⟩
      rw [serve] at commits
      split at commits
      · split at commits
        next writer => exact writer
        next => cases commits
      · cases commits
  | read | write | seek =>
      rw [serve, Served.isCommit_ofUse rfl] at commits
      cases commits
  | _ => cases commits

/-! ## The table -/

namespace Handles

variable {t : Handles} {id other : HandleId} {h : Handle}

/-- The table with a live handle replaced or without it. -/
def settle (t : Handles) (id : HandleId) : Option Handle → Handles
  | some h => { t with live := t.live.adjust id fun _ => h }
  | none => t.without id

theorem settle_eq_put {h' : Handle} (named : h'.id = id) : t.settle id (some h') = t.put h' := by
  cases named
  rfl

theorem Numbered.settle_self (num : t.Numbered) (live : t.live.get? id = some h) :
    t.settle id (some h) = t := by
  have same : t.live.adjust id (fun _ => h) = t.live := by
    refine (Registry.adjust_congr num.keys_nodup fun found => ?_).trans (t.live.adjust_id id)
    exact Option.some.inj (live.symm.trans found)
  rw [settle, same]

theorem get?_settle (differ : other ≠ id) (left : Option Handle) :
    (t.settle id left).live.get? other = t.live.get? other := by
  cases left with
  | some h => exact (Registry.get?_adjust _ _ _ _).trans (if_neg differ)
  | none => exact (Registry.get?_erase _ _ _).trans (if_neg differ)

theorem settle_comm (differ : id ≠ other) (left right : Option Handle) :
    (t.settle id left).settle other right = (t.settle other right).settle id left := by
  cases left with
  | some h =>
      cases right with
      | some k => simp only [settle, Registry.adjust_comm _ differ]
      | none => simp only [settle, without, Registry.erase_adjust_comm]
  | none =>
      cases right with
      | some k => simp only [settle, without, Registry.erase_adjust_comm]
      | none => simp only [settle, without, Registry.erase_comm _ id other]

end Handles

/-! ## The store -/

namespace MemoryStore

variable {s : MemoryStore} {now : Time} {i j : HandleId} {h k : Handle} {a b c : Call}

/-- Whether the entry that a handle was opened on is still there. -/
def holds (s : MemoryStore) (h : Handle) : Bool := (s.nodeWithId? h.path h.entryId).isSome

/-- The store after a call made something of a handle. -/
def settle (s : MemoryStore) (now : Time) (id : HandleId) (h : Handle) (made : Served) :
    MemoryStore :=
  { s with
    nodes := s.nodes.adjust h.path (made.trace.mark now h.entryId)
    handles := s.handles.settle id made.left }

/-- A trace on the entry of a handle, as a change of the registry. -/
theorem adjust_mark {trace : Trace} {node : MemoryNode} (nodup : s.nodes.keys.Nodup)
    (there : s.nodeWithId? h.path h.entryId = some node) :
    s.nodes.adjust h.path (trace.on now) = s.nodes.adjust h.path (trace.mark now h.entryId) := by
  obtain ⟨found, same⟩ := nodeWithId?_eq_some_iff.mp there
  refine Registry.adjust_congr nodup fun found' => ?_
  cases found.symm.trans found'
  exact (Trace.mark_of_eq same).symm

theorem adjust_mark_of_gone {trace : Trace} (nodup : s.nodes.keys.Nodup)
    (gone : s.nodeWithId? h.path h.entryId = none) :
    s.nodes.adjust h.path (trace.mark now h.entryId) = s.nodes := by
  refine (Registry.adjust_congr nodup fun found => ?_).trans (s.nodes.adjust_id h.path)
  exact Trace.mark_of_ne (nodeWithId?_eq_none_iff.mp gone _ found)

theorem adjust_mark_nothing : s.nodes.adjust h.path (Trace.nothing.mark now h.entryId) = s.nodes := by
  have same : Trace.nothing.mark now h.entryId = id := by
    funext node
    exact ite_self node
  rw [same, Registry.adjust_id]

/-- A call that leaves no trace changes the table only. -/
theorem settle_nothing (answer : Outcome Answer) (left : Option Handle) :
    s.settle now i h ⟨answer, left, .nothing⟩
      = { s with handles := s.handles.settle i left } := by
  rw [settle, adjust_mark_nothing]

/-- A call that is refused leaves the store as it is. -/
theorem settle_refused (num : s.handles.Numbered) (live : s.handles.live.get? i = some h)
    (answer : Outcome Answer) : s.settle now i h ⟨answer, some h, .nothing⟩ = s := by
  rw [settle_nothing, num.settle_self live]

theorem settle_read (nodup : s.nodes.keys.Nodup) {h' : Handle} (named : h'.id = i)
    (answer : Outcome Answer) :
    s.settle now i h ⟨answer, some h', .read⟩
      = { s with handles := s.handles.put h' }.noteRead now h.path h.entryId := by
  rw [settle, Handles.settle_eq_put named, noteRead]
  split
  next node there =>
    have there : s.nodeWithId? h.path h.entryId = some node := there
    rw [← adjust_mark nodup there]
    rfl
  next gone =>
    have gone : s.nodeWithId? h.path h.entryId = none := gone
    rw [adjust_mark_of_gone nodup gone]

/-- What a call on a live handle answers, and leaves of the store. -/
theorem WellFormed.call_eq_settle (wf : s.WellFormed) (asked : c.handle? = some i)
    (live : s.handles.live.get? i = some h) (now : Time) :
    s.call now c = ⟨s.settle now i h (h.serve s.limits (s.holds h) c),
      (h.serve s.limits (s.holds h) c).answer⟩ := by
  have num := wf.table
  have nodup := wf.layout.keys_nodup
  have get : s.handles.get i = .ok h := Handles.get_eq_ok_iff.mpr live
  have named {h' : Handle} (same : h.SameSession h') : h'.id = i :=
    same.id.trans (num.id_eq live)
  cases c with
  | read id size =>
      cases asked
      cases use : h.read size with
      | error e =>
          simp only [Handle.serve, use, Except.map, Served.ofUse, settle_refused num live]
          simp only [call, read, Handles.read, get, use, bind, Except.bind]
          rfl
      | ok next =>
          obtain ⟨h', data⟩ := next
          simp only [Handle.serve, use, Except.map, Served.ofUse,
            settle_read nodup (named (Handle.read_sameSession use).1)]
          simp only [call, read, Handles.read, get, use, bind, Except.bind]
          rfl
  | write id data =>
      cases asked
      cases use : h.write s.limits data with
      | error e =>
          simp only [Handle.serve, use, Except.map, Served.ofUse, settle_refused num live]
          simp only [call, write, Handles.write, get, use, bind, Except.bind]
          rfl
      | ok next =>
          obtain ⟨h', count⟩ := next
          simp only [Handle.serve, use, Except.map, Served.ofUse, settle_nothing,
            Handles.settle_eq_put (named (Handle.write_eq_ok use).1)]
          simp only [call, write, Handles.write, get, use, bind, Except.bind]
          rfl
  | seek id offset =>
      cases asked
      cases use : h.seek offset with
      | error e =>
          simp only [Handle.serve, use, Except.map, Served.ofUse, settle_refused num live]
          simp only [call, seek, Handles.seek, get, use, bind, Except.bind]
          rfl
      | ok next =>
          obtain ⟨h', result⟩ := next
          simp only [Handle.serve, use, Except.map, Served.ofUse, settle_nothing,
            Handles.settle_eq_put (named (Handle.seek_sameSession use).1)]
          simp only [call, seek, Handles.seek, get, use, bind, Except.bind]
          rfl
  | close id =>
      cases asked
      rw [call, close_of_live now live, holds]
      cases there : s.nodeWithId? h.path h.entryId with
      | none =>
          rw [Option.isSome_none, Handle.serve, if_neg Bool.false_ne_true, settle_nothing]
          rfl
      | some node =>
          rw [Option.isSome_some, Handle.serve, if_pos rfl]
          by_cases writer : h.mode.isWriter = true
          · simp only [if_pos writer, settle, ← adjust_mark nodup there]
            rfl
          · simp only [if_neg writer, settle_nothing]
            rfl
  | abort id =>
      cases asked
      simp only [Handle.serve, settle_nothing]
      simp only [call, abort, Handles.remove, get]
      rfl
  | _ => cases asked

/-! ## Two calls -/

theorem holds_settle (made : Served) (k : Handle) :
    (s.settle now i h made).holds k = s.holds k := by
  rw [holds, holds, nodeWithId?, nodeWithId?, settle, Registry.get?_adjust_map]
  cases s.nodes.get? k.path with
  | none => rfl
  | some node =>
      rw [Option.map_some, Option.isSome_filter, Option.isSome_filter, Option.any_some,
        Option.any_some]
      split
      · rw [Trace.mark_id]
      · rfl

/-- A call after a call on another handle makes of its handle what it makes of it at once. -/
theorem WellFormed.call_call (wf : s.WellFormed) (asksA : a.handle? = some i)
    (asksB : b.handle? = some j) (differ : i ≠ j) (liveA : s.handles.live.get? i = some h)
    (liveB : s.handles.live.get? j = some k) (t₁ t₂ : Time) :
    (s.call t₁ a).state.call t₂ b
      = ⟨(s.settle t₁ i h (h.serve s.limits (s.holds h) a)).settle t₂ j k
          (k.serve s.limits (s.holds k) b), (k.serve s.limits (s.holds k) b).answer⟩ := by
  have wf' := wf.effect (s.call_effect t₁ a)
  rw [wf.call_eq_settle asksA liveA t₁] at wf' ⊢
  have liveB' : (s.settle t₁ i h (h.serve s.limits (s.holds h) a)).handles.live.get? j = some k :=
    (Handles.get?_settle differ.symm _).trans liveB
  have second := wf'.call_eq_settle asksB liveB' t₂
  rw [holds_settle] at second
  exact second

/-- The store with all times of entries at zero. -/
def timeless (s : MemoryStore) : MemoryStore :=
  { s with nodes := s.nodes.map fun node => { node with entry := { node.entry with times := .at 0 } } }

theorem timeless_settle (made : Served) :
    (s.settle now i h made).timeless = s.timeless.settle 0 i h made := by
  rw [timeless, settle, timeless, settle]
  refine congrArg (fun nodes => MemoryStore.mk nodes _ _ _ _ _) (Registry.map_adjust _ _ ?_)
  intro node
  rw [Trace.mark, Trace.mark]
  split
  · cases made.trace <;> rfl
  · rfl

/-- Two handles are settled in either order, unless two commits go to one entry. -/
theorem settle_comm (differ : i ≠ j) {first second : Served}
    (apart : h.path = k.path → h.entryId = k.entryId →
      ¬(first.trace.isCommit = true ∧ second.trace.isCommit = true)) :
    (s.settle now i h first).settle now j k second
      = (s.settle now j k second).settle now i h first := by
  have nodes : (s.nodes.adjust h.path (first.trace.mark now h.entryId)).adjust k.path
      (second.trace.mark now k.entryId) = (s.nodes.adjust k.path
        (second.trace.mark now k.entryId)).adjust h.path (first.trace.mark now h.entryId) := by
    by_cases path : h.path = k.path
    · rw [path, Registry.adjust_adjust, Registry.adjust_adjust]
      congr 1
      funext node
      exact Trace.mark_comm (apart path)
    · exact Registry.adjust_comm _ path _ _
  simp only [settle, nodes, Handles.settle_comm differ]

/-- Calls on two live handles may be made in either order, at any times.  Each is answered the
same.  The store is the same at the end but for the times of the entries, unless both calls are
closes of writers on one entry. -/
theorem calls_commute (config : Config) (origin : Time) (events : List Timed)
    (asksA : a.handle? = some i) (asksB : b.handle? = some j) (differ : i ≠ j)
    (liveA : ((create config origin).run events).handles.live.get? i = some h)
    (liveB : ((create config origin).run events).handles.live.get? j = some k)
    (t₁ t₂ t₃ t₄ : Time) :
    let s := (create config origin).run events
    ((s.call t₃ b).state.call t₄ a).outcome = (s.call t₁ a).outcome
    ∧ ((s.call t₁ a).state.call t₂ b).outcome = (s.call t₃ b).outcome
    ∧ (¬(a.isClose = true ∧ b.isClose = true ∧ h.mode.isWriter = true ∧ k.mode.isWriter = true
          ∧ h.path = k.path ∧ h.entryId = k.entryId) →
        ((s.call t₁ a).state.call t₂ b).state.timeless
          = ((s.call t₃ b).state.call t₄ a).state.timeless) := by
  intro s
  have wf : s.WellFormed := wellFormed_run config origin events
  rw [wf.call_call asksA asksB differ liveA liveB, wf.call_call asksB asksA differ.symm liveB liveA,
    wf.call_eq_settle asksA liveA, wf.call_eq_settle asksB liveB]
  refine ⟨rfl, rfl, fun apart => ?_⟩
  simp only [timeless_settle]
  refine settle_comm differ fun path entryId commits => apart ?_
  obtain ⟨closeA, writerA⟩ := Handle.isCommit_serve commits.1
  obtain ⟨closeB, writerB⟩ := Handle.isCommit_serve commits.2
  exact ⟨closeA, closeB, writerA, writerB, path, entryId⟩

/-- A file with two writers and a reader, under the policy that lets the second writer in. -/
def sharedEvents : List Timed :=
  [⟨1, .createFile "/f" [1, 2]⟩, ⟨2, .openFile "/f" .write⟩, ⟨2, .openFile "/f" .append⟩,
    ⟨3, .openFile "/f" .read⟩, ⟨4, .write 1 [9]⟩]

/-- The commit of a writer and a read may be made in either order.  The commits of two writers
may not. -/
theorem calls_commute_shared :
    let s := (create { writePolicy := .lastCloseWins } 0).run sharedEvents
    (∃ h k, s.handles.live.get? 1 = some h ∧ s.handles.live.get? 3 = some k
      ∧ h.path = k.path ∧ h.entryId = k.entryId)
    ∧ ((s.call 7 (.read 3 none)).state.call 8 (.close 1)).outcome = (s.call 5 (.close 1)).outcome
    ∧ ((s.call 5 (.close 1)).state.call 6 (.read 3 none)).outcome = .ok (.bytes [1, 2])
    ∧ ((s.call 5 (.close 1)).state.call 6 (.read 3 none)).state.timeless
        = ((s.call 7 (.read 3 none)).state.call 8 (.close 1)).state.timeless
    ∧ ((s.call 5 (.close 1)).state.call 6 (.close 2)).state.timeless
        ≠ ((s.call 7 (.close 2)).state.call 8 (.close 1)).state.timeless := by
  intro s
  have writer : s.handles.live.get? 1 = some ⟨1, "/f", 2, .write, 1, [9]⟩ := rfl
  have reader : s.handles.live.get? 3 = some ⟨3, "/f", 2, .read, 0, [1, 2]⟩ := rfl
  obtain ⟨closed, read, same⟩ := calls_commute { writePolicy := .lastCloseWins } 0 sharedEvents
    (a := .close 1) (b := .read 3 none) rfl rfl (by decide) writer reader 5 6 7 8
  refine ⟨⟨_, _, writer, reader, rfl, rfl⟩, closed, read, same fun both => (nomatch both.2.1), ?_⟩
  intro alike
  have content := congrArg (fun t => (t.nodes.get? "/f").map MemoryNode.data) alike
  have first : (((s.call 5 (.close 1)).state.call 6 (.close 2)).state.timeless.nodes.get? "/f").map
      MemoryNode.data = some [1, 2] := rfl
  have last : (((s.call 7 (.close 2)).state.call 8 (.close 1)).state.timeless.nodes.get? "/f").map
      MemoryNode.data = some [9] := rfl
  exact absurd (first.symm.trans (content.trans last)) (by decide)

end MemoryStore

end MountFs
