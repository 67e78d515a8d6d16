import MountFs.Proofs.HandleTable

/-!
# Runs cut at an open

A session starts with the open that answers the number of its handle, and what happens to it
later is said about the moments since that open.  A `History.Cut` is a run cut in two there.

The machine may be any one that keeps a table of handles (`History.Serving`): a store in memory,
whose events are calls with a time, or a store on a host that changes in between.  Two facts
about the table carry over to its runs.

* Only an open puts a new number into the table (`Handles.Serves.moves`).  So a live handle
  has a cut behind it (`Cut.nonempty_of_live`).
* A number is given out once (`Handles.Reserved`).  So a live handle is in the session that the
  open of the cut started (`Cut.sameSession_of_live`).
-/

namespace MountFs

/-! ## A number across a call -/

namespace Handles

variable {t t' : Handles} {limits : Limits} {c : Call} {o : Outcome Answer} {id : HandleId}
  {h k : Handle}

/-- The number `id` belongs to the session of `k`: it was given out, and no other session has
it. -/
structure Reserved (t : Handles) (id : HandleId) (k : Handle) : Prop where
  num : t.Numbered
  old : id < t.nextId
  same : ∀ {h}, t.live.get? id = some h → k.SameSession h

theorem Reserved.serves (res : t.Reserved id k) (serves : t.Serves limits c o t') :
    t'.Reserved id k where
  num := serves.numbered res.num
  old := Nat.lt_of_lt_of_le res.old serves.moves.nextId_le
  same := by
    intro h live
    rcases serves.moves.get?_live res.num live with ⟨k', live', same⟩ | ⟨fresh, _⟩
    · exact (res.same live').trans same
    · exact absurd fresh (Nat.ne_of_lt res.old)

theorem reserved_extended (num : t.Numbered) (fresh : k.id = t.nextId) (number : id = t.nextId) :
    (t.extended k).Reserved id k where
  num := num.extended fresh
  old := number ▸ Nat.lt_succ_self _
  same := by
    intro h live
    rcases get?_extended.mp live with ⟨_, rfl⟩ | ⟨differ, _⟩
    · exact .refl _
    · exact absurd number differ

end Handles

namespace History

variable {σ ε τ : Type} {step : σ → ε → Step σ Answer} {ask : τ → Call → ε} {table : σ → Handles}
  {first : σ} {events : List ε} {id : HandleId} {h k : Handle}

/-! ## A table across a run -/

/-- A machine keeps a table of handles: an event is a call that the table serves, or it leaves
the table as it is. -/
def Serving (step : σ → ε → Step σ Answer) (ask : τ → Call → ε) (table : σ → Handles) : Prop :=
  ∀ s e, table (step s e).state = table s ∨ ∃ now c limits, e = ask now c
    ∧ (table s).Serves limits c (step s e).outcome (table (step s e).state)

theorem Serving.numbered_step (serving : Serving step ask table) {s : σ}
    (num : (table s).Numbered) (e : ε) : (table (step s e).state).Numbered := by
  rcases serving s e with same | ⟨_, _, _, _, serves⟩
  · exact same ▸ num
  · exact serves.numbered num

theorem Serving.numbered_run (serving : Serving step ask table) (num : (table first).Numbered)
    (events : List ε) : (table (final step first events)).Numbered :=
  final_induction (motive := fun s => (table s).Numbered) num
    (fun _ e num => serving.numbered_step num e) events

theorem Serving.reserved_run (serving : Serving step ask table)
    (res : (table first).Reserved id k) (events : List ε) :
    (table (final step first events)).Reserved id k := by
  refine final_induction (motive := fun s => (table s).Reserved id k) res ?_ events
  intro s e res
  rcases serving s e with same | ⟨_, _, _, _, serves⟩
  · exact same ▸ res
  · exact res.serves serves

/-! ## Cuts -/

/-- A run, cut at the open that answered the number `id`.  To ask for a call is the event
`ask now c`. -/
structure Cut (step : σ → ε → Step σ Answer) (ask : τ → Call → ε) (first : σ) (events : List ε)
    (id : HandleId) where
  /-- What happened before the open. -/
  before : List ε
  /-- The time of the open. -/
  now : τ
  /-- The path asked for. -/
  text : String
  /-- The mode asked for. -/
  mode : OpenMode
  /-- What happened since the open. -/
  since : List ε
  /-- This is all that happened. -/
  split : events = before ++ ask now (.openFile text mode) :: since
  /-- The open answered the number. -/
  answer : (step (final step first before) (ask now (.openFile text mode))).outcome
    = .ok (.handle id)

namespace Cut

/-- The state that the open found. -/
def found (x : Cut step ask first events id) : σ := final step first x.before

/-- The state right after the open. -/
def opened (x : Cut step ask first events id) : σ :=
  (step x.found (ask x.now (.openFile x.text x.mode))).state

/-- What happened since the open. -/
def moments (x : Cut step ask first events id) : List (Moment σ ε Answer) :=
  History.moments step x.opened x.since

theorem final_eq (x : Cut step ask first events id) :
    final step first events = final step x.opened x.since :=
  (congrArg (final step first) x.split).trans (final_append _ _ _)

/-- The same cut in a run that has one more event at its start. -/
def cons {e : ε} {rest : List ε} (x : Cut step ask (step first e).state rest id) :
    Cut step ask first (e :: rest) id where
  before := e :: x.before
  now := x.now
  text := x.text
  mode := x.mode
  since := x.since
  split := congrArg (e :: ·) x.split
  answer := x.answer

/-- A handle that is live after a run was live before it, or the run has a cut at its open. -/
theorem live_or_nonempty (serving : Serving step ask table) (num : (table first).Numbered)
    (live : (table (final step first events)).live.get? id = some h) :
    (∃ k, (table first).live.get? id = some k) ∨ Nonempty (Cut step ask first events id) := by
  induction events generalizing first with
  | nil => exact Or.inl ⟨h, live⟩
  | cons e rest ih =>
      rcases ih (serving.numbered_step num e) live with ⟨k, live'⟩ | ⟨⟨x⟩⟩
      · rcases serving first e with same | ⟨now, c, limits, asked, serves⟩
        · exact Or.inl ⟨k, same ▸ live'⟩
        · rcases serves.moves.get?_live num live' with ⟨k', old, _⟩ | ⟨rfl, path, mode, rfl, answer⟩
          · exact Or.inl ⟨k', old⟩
          · cases asked
            exact Or.inr ⟨⟨[], now, path, mode, rest, rfl, answer⟩⟩
      · exact Or.inr ⟨x.cons⟩

/-- A handle that is live after a run from an empty table has a cut behind it. -/
theorem nonempty_of_live (serving : Serving step ask table) {maxOpen : Nat}
    (none : table first = .empty maxOpen)
    (live : (table (final step first events)).live.get? id = some h) :
    Nonempty (Cut step ask first events id) := by
  rcases live_or_nonempty serving (none ▸ Handles.numbered_empty _) live with ⟨k, old⟩ | session
  · rw [none] at old
    cases old
  · exact session

/-- A live handle is in the session that the open of a cut started. -/
theorem sameSession_of_live (x : Cut step ask first events id) (serving : Serving step ask table)
    (num : (table first).Numbered) (fresh : k.id = (table x.found).nextId)
    (number : id = (table x.found).nextId)
    (starts : table x.opened = (table x.found).extended k)
    (live : (table (final step first events)).live.get? id = some h) : k.SameSession h := by
  have reserved : (table x.opened).Reserved id k := by
    rw [starts]
    exact Handles.reserved_extended (serving.numbered_run num x.before) fresh number
  rw [x.final_eq] at live
  exact (serving.reserved_run reserved x.since).same live

end Cut

end History

end MountFs
