import MountFs.Proofs.Integrity

/-!
# Calls that fail

A call of a store in memory that fails leaves the store as it was: every entry with all that
is known of it, every handle with its cursor and its buffer, and both counters.  There is one
exception.  The close of a live handle fails if the entry of the handle is gone, and the
session ends all the same.

So a run can be told without its failures.  `effective` leaves out every call that fails and
is not a close, and the run comes to the same end.
-/

namespace MountFs

/-- Whether a call ends a session with a commit. -/
def Call.isClose : Call → Bool
  | .close _ => true
  | _ => false

namespace MemoryStore

variable {s t : MemoryStore} {now : Time} {c : Call} {e : FsError}

/-- A failing call that is not a close leaves the store as it was. -/
theorem Effect.eq_of_error (h : Effect s now c (.error e) t) (other : c.isClose = false) :
    t = s := by
  cases h with
  | refused => rfl
  | closedStale => cases other

/-- The close of a handle that is not live leaves the store as it was. -/
theorem close_of_unknown {id : HandleId} (now : Time) (unknown : s.handles.live.get? id = none) :
    (s.call now (.close id)).state = s := by
  rw [call, Step.map, close, Handles.remove, Handles.get_eq_error unknown]
  rfl

/-- The close of a live handle fails in one way only, and ends the session. -/
theorem close_of_error {id : HandleId} {h : Handle} (live : s.handles.live.get? id = some h)
    (failed : (s.call now (.close id)).outcome = .error e) :
    e = .staleHandle id h.path
      ∧ (s.call now (.close id)).state = { s with handles := s.handles.without id } := by
  rw [call, Step.map, close_of_live now live] at failed ⊢
  cases there : s.nodeWithId? h.path h.entryId with
  | none =>
      rw [there] at failed
      cases failed
      exact ⟨rfl, rfl⟩
  | some node =>
      rw [there] at failed
      cases failed

/-- A failing call that does not end a live session leaves the store as it was. -/
theorem state_of_error (failed : (s.call now c).outcome = .error e)
    (ends : ∀ id h, c = .close id → s.handles.live.get? id ≠ some h) :
    (s.call now c).state = s := by
  cases close : c.isClose with
  | false =>
      have effect := s.call_effect now c
      rw [failed] at effect
      exact effect.eq_of_error close
  | true =>
      cases c with
      | close id =>
          refine close_of_unknown now (Option.eq_none_iff_forall_ne_some.mpr fun h => ?_)
          exact ends id h rfl
      | _ => cases close

/-! ## Runs without their failures -/

/-- The calls of a run that have an effect: those that succeed, and the closes. -/
def effective (s : MemoryStore) : List Timed → List Timed
  | [] => []
  | e :: rest =>
      if (s.step e).outcome.isOk || e.call.isClose then e :: effective (s.step e).state rest
      else effective s rest

/-- A run comes to the same end without the calls that have no effect. -/
theorem run_effective (s : MemoryStore) (events : List Timed) :
    s.run (s.effective events) = s.run events := by
  induction events generalizing s with
  | nil => rfl
  | cons e rest ih =>
      rw [effective]
      split
      · exact ih (s.step e).state
      next idle =>
        rw [Bool.or_eq_true, not_or] at idle
        have same : (s.step e).state = s := by
          have effect := step_effect s e
          cases failed : (s.step e).outcome with
          | ok a => exact absurd (congrArg Except.isOk failed) idle.1
          | error cause =>
              rw [failed] at effect
              exact effect.eq_of_error (Bool.not_eq_true _ ▸ idle.2)
        rw [ih s]
        exact (congrArg (History.final step · rest) same).symm

/-- A call that fails leaves the store as it was, or it is the close of a live handle whose
entry is gone, and then only that handle is gone with it.  A run comes to the same end without
the failures that leave the store as it was. -/
theorem failed_call_keeps_store (s : MemoryStore) :
    (∀ now c e, (s.call now c).outcome = .error e →
      (s.call now c).state = s ∧ (∀ id h, c = .close id → s.handles.live.get? id ≠ some h)
      ∨ ∃ id h, c = .close id ∧ s.handles.live.get? id = some h ∧ e = .staleHandle id h.path
        ∧ (s.call now c).state = { s with handles := s.handles.without id }
        ∧ ∀ other, (s.handles.without id).live.get? other
          = if other = id then none else s.handles.live.get? other)
    ∧ ∀ events, s.run (s.effective events) = s.run events := by
  refine ⟨fun now c e failed => ?_, s.run_effective⟩
  by_cases ends : ∃ id h, c = .close id ∧ s.handles.live.get? id = some h
  · obtain ⟨id, h, rfl, live⟩ := ends
    obtain ⟨stale, left⟩ := close_of_error live failed
    exact Or.inr ⟨id, h, rfl, live, stale, left, Registry.get?_erase s.handles.live id⟩
  · have others : ∀ id h, c = .close id → s.handles.live.get? id ≠ some h :=
      fun id h close live => ends ⟨id, h, close, live⟩
    exact Or.inl ⟨state_of_error failed others, others⟩

/-- A session with a write that is too large and a read that its mode does not allow.  Then
its file goes. -/
def refusedEvents : List Timed :=
  [⟨1, .createFile "/f" [120]⟩, ⟨2, .openFile "/f" .append⟩, ⟨3, .write 1 [1, 2, 3, 4]⟩,
    ⟨4, .write 1 [121]⟩, ⟨5, .read 1 none⟩, ⟨6, .createFile "/f" []⟩, ⟨7, .deleteFile "/f"⟩]

/-- A store that takes files of four bytes. -/
def tight : MemoryStore := create { limits := { maxFileSize := 4 } } 0

theorem failed_call_keeps_store_refused :
    (((tight.run refusedEvents).call 8 (.write 1 [1, 2, 3])).outcome
        = .error (.fileTooLarge "/f" 5 4)
      ∧ ((tight.run refusedEvents).call 8 (.write 1 [1, 2, 3])).state = tight.run refusedEvents)
    ∧ (((tight.run refusedEvents).call 8 (.close 1)).outcome = .error (.staleHandle 1 "/f")
      ∧ ((tight.run refusedEvents).call 8 (.close 1)).state
        = { tight.run refusedEvents with handles := (tight.run refusedEvents).handles.without 1 })
    ∧ (tight.effective refusedEvents).length = 4
    ∧ tight.run (tight.effective refusedEvents) = tight.run refusedEvents := by
  have tooLarge : ((tight.run refusedEvents).call 8 (.write 1 [1, 2, 3])).outcome
      = .error (.fileTooLarge "/f" 5 4) := by rfl
  have stale : ((tight.run refusedEvents).call 8 (.close 1)).outcome
      = .error (.staleHandle 1 "/f") := by rfl
  obtain ⟨failed, _⟩ := failed_call_keeps_store (tight.run refusedEvents)
  obtain ⟨_, same⟩ := failed_call_keeps_store tight
  refine ⟨⟨tooLarge, ?_⟩, ⟨stale, ?_⟩, by rfl, same refusedEvents⟩
  · rcases failed _ _ _ tooLarge with ⟨kept, _⟩ | ⟨id, h, close, _⟩
    · exact kept
    · cases close
  · rcases failed _ _ _ stale with ⟨_, others⟩ | ⟨id, h, close, _, _, left, _⟩
    · exact absurd (by rfl) (others 1 ⟨1, "/f", 2, .append, 2, [120, 121]⟩ rfl)
    · cases close
      exact left

end MemoryStore

end MountFs
