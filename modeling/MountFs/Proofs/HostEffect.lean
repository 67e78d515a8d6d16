import MountFs.Proofs.Confinement

/-!
# What a call does to a store on the host

`HostStore.Effect s w c now` says that the call `c` on the store `s` in the world `w` may leave
the store and the world `now`.  It is about who may change what, and not about where in the
world a change is made.  The world changes by a new or a removed name and by the commit of a
writer.  The first asks whether the store takes changes, and so does the open of a writer.
-/

namespace MountFs

namespace HostStore

variable {s : HostStore} {w : World}

/-- What a call may leave of the store and of its host. -/
inductive Effect (s : HostStore) (w : World) : Call → HostStore × World → Prop
  | kept {c : Call} : Effect s w c (s, w)
  /-- A name comes or goes. -/
  | renamed {c : Call} {after : World} (writable : s.readOnly = false) : Effect s w c (s, after)
  /-- A session starts. -/
  | opened {path : String} {mode : OpenMode} {t : HostStore} {id : HandleId}
      (opens : s.openFile w path mode = .ok (t, id)) : Effect s w (.openFile path mode) (t, w)
  | used {c : Call} {id : HandleId} {h h' : Handle} (live : s.handles.live.get? id = some h)
      (same : h.SameSession h') : Effect s w c ({ s with handles := s.handles.put h' }, w)
  | ended {c : Call} (id : HandleId) :
      Effect s w c ({ s with handles := s.handles.without id }, w)
  /-- The session of a writer ends, and what it wrote is committed. -/
  | committed {id : HandleId} {h : Handle} {after : World}
      (live : s.handles.live.get? id = some h) (writer : h.mode.isWriter = true) :
      Effect s w (.close id) ({ s with handles := s.handles.without id }, after)

/-- An operation that asks for leave first and does not touch the table. -/
theorem effect_of_checkWritable {c : Call} {α : Type} {rest : Unit → Outcome α}
    {wrap : α → (HostStore × World) × Answer} (table : ∀ a, (wrap a).1.1 = s) :
    Effect s w c (Step.ofOutcome (s, w) ((s.checkWritable >>= rest).map wrap)).state := by
  cases h : s.checkWritable >>= rest with
  | error e => exact .kept
  | ok a =>
      obtain ⟨_, leave, _⟩ := Except.bind_eq_ok.mp h
      have same := table a
      simp only [Except.map]
      generalize wrap a = made at same
      obtain ⟨⟨t, after⟩, answer⟩ := made
      cases same
      exact .renamed (checkWritable_eq_ok_iff.mp leave)

theorem close_effect (s : HostStore) (w : World) (id : HandleId) :
    Effect s w (.close id) (s.call w (.close id)).state := by
  rw [call, close, Step.map]
  cases h : s.handles.remove id with
  | error e => exact .kept
  | ok rest =>
      obtain ⟨live, eq⟩ := Handles.remove_eq_ok_iff.mp h
      dsimp only
      rw [eq]
      split
      · split
        next writer =>
          split
          · exact .committed live writer
          · exact .ended id
        · exact .ended id
      · exact .ended id

/-- Every call does one of the things listed. -/
theorem call_effect (s : HostStore) (w : World) (c : Call) : Effect s w c (s.call w c).state := by
  cases c with
  | createDirectory path => exact effect_of_checkWritable fun _ => rfl
  | createFile path content => exact effect_of_checkWritable fun _ => rfl
  | deleteFile path => exact effect_of_checkWritable fun _ => rfl
  | openFile path mode =>
      rw [call]
      cases h : s.openFile w path mode with
      | error e => exact .kept
      | ok made => exact .opened h
  | close id => exact s.close_effect w id
  | read id size =>
      rw [call]
      cases h : s.read id size with
      | error e => exact .kept
      | ok after =>
          obtain ⟨⟨handles, data⟩, use, h⟩ := Except.bind_eq_ok.mp h
          cases h
          obtain ⟨held, next, live, moved, rfl⟩ := Handles.read_eq_ok_iff.mp use
          exact .used live (Handle.read_sameSession moved).1
  | write id data =>
      rw [call]
      cases h : s.write id data with
      | error e => exact .kept
      | ok after =>
          obtain ⟨⟨handles, count⟩, use, h⟩ := Except.bind_eq_ok.mp h
          cases h
          obtain ⟨held, next, live, moved, rfl⟩ := Handles.write_eq_ok_iff.mp use
          exact .used live (Handle.write_eq_ok moved).1
  | seek id offset =>
      rw [call]
      cases h : s.seek id offset with
      | error e => exact .kept
      | ok after =>
          obtain ⟨⟨handles, result⟩, use, h⟩ := Except.bind_eq_ok.mp h
          cases h
          obtain ⟨held, next, live, moved, rfl⟩ := Handles.seek_eq_ok_iff.mp use
          exact .used live (Handle.seek_sameSession moved).1
  | abort id =>
      rw [call]
      cases h : s.abort id with
      | error e => exact .kept
      | ok after =>
          obtain ⟨⟨handles, held⟩, removed, h⟩ := Except.bind_eq_ok.mp h
          cases h
          obtain ⟨_, rfl⟩ := Handles.remove_eq_ok_iff.mp removed
          exact .ended id
  | listDirectory path => exact .kept
  | stat path => exact .kept
  | present path => exact .kept
  | usage => exact .kept
  | describe => exact .kept

end HostStore

end MountFs
