import MountFs.Proofs.Cuts
import MountFs.Proofs.Escapes

/-!
# Sessions on the host

A run of a store on the host is a list of calls with changes of the host in between.  A
`HostSession` is such a run, cut at the open that answered the number of a handle.  A live
handle has such an open behind it (`nonempty_of_live`), and it is still on the path and on the
file that the open found (`sameSession_of_live`).  For this the host does not matter, only the
table.
-/

namespace MountFs

open HostStore

/-- A store on the host keeps a table of handles.  Its events have no time. -/
theorem HostStore.serving :
    History.Serving meet (fun _ : Unit => HostEvent.call) fun here => here.1.handles := by
  intro here e
  cases e with
  | change f => exact Or.inl rfl
  | call c => exact Or.inr ⟨(), c, here.1.limits, rfl, here.1.call_serves here.2 c⟩

/-- A run of a store on the host, cut at the open that answered the number `id`. -/
abbrev HostSession (first : HostStore × World) (events : List HostEvent) (id : HandleId) : Type :=
  History.Cut meet (fun _ : Unit => HostEvent.call) first events id

namespace HostSession

variable {first : HostStore × World} {events : List HostEvent} {id : HandleId} {h : Handle}

/-- A handle that is live after a run of a new store has its session in the run. -/
theorem nonempty_of_live {w : World} {root : String} {readOnly : Bool} {config : Config}
    (live : (History.final meet (create w root readOnly config, w) events).1.handles.live.get? id
      = some h) :
    Nonempty (HostSession (create w root readOnly config, w) events id) :=
  History.Cut.nonempty_of_live serving rfl live

/-- The open of a session started it, and the host stayed as it was. -/
theorem exists_opens (x : HostSession first events id) :
    ∃ k, x.found.1.Opens x.found.2 x.text x.mode k ∧ id = x.found.1.handles.nextId
      ∧ x.opened = ({ x.found.1 with handles := x.found.1.handles.extended k }, x.found.2) := by
  have answer : (x.found.1.call x.found.2 (.openFile x.text x.mode)).outcome = .ok (.handle id) :=
    x.answer
  have opened : x.opened = (x.found.1.call x.found.2 (.openFile x.text x.mode)).state := rfl
  rw [call] at answer opened
  cases opens : x.found.1.openFile x.found.2 x.text x.mode with
  | error e =>
      rw [opens] at answer
      cases answer
  | ok made =>
      rw [opens] at answer opened
      cases answer
      obtain ⟨k, starts, fresh, same⟩ := HostStore.exists_opens opens
      refine ⟨k, starts, fresh, opened.trans ?_⟩
      rw [← same]
      rfl

/-- A live handle is in the session that its open started. -/
theorem sameSession_of_live (x : HostSession first events id) (num : first.1.handles.Numbered)
    (live : (History.final meet first events).1.handles.live.get? id = some h) :
    ∃ k, x.found.1.Opens x.found.2 x.text x.mode k ∧ k.SameSession h := by
  obtain ⟨k, starts, fresh, opened⟩ := x.exists_opens
  have same := History.Cut.sameSession_of_live x serving num starts.id_eq fresh
    (congrArg (fun here => here.1.handles) opened) live
  exact ⟨k, starts, same⟩

end HostSession

end MountFs
