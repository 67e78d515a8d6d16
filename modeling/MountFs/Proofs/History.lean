import MountFs.Call

/-!
# Histories

A machine answers one event at a time.  `step` takes a state and an event to the
state after it and the outcome.  From a first state and a list of events come the
last state (`final`) and the *moments* on the way, each with the state before the
event, the event, and what the machine did.

Both inductions over a run are here once.  `final_induction` carries a property of
states.  `moments_induction` carries a relation between the state and all that
happened before it, and grows the run at its end.  Each has a form for runs of which
more is known (`_of_mem`).
-/

namespace MountFs

/-- One event of a run. -/
structure Moment (σ : Type) (ε : Type) (α : Type) where
  /-- The state before the event. -/
  before : σ
  /-- The event. -/
  event : ε
  /-- What the machine did. -/
  result : Step σ α

namespace Moment

variable {σ ε α : Type}

/-- The state after the event. -/
abbrev after (m : Moment σ ε α) : σ := m.result.state

/-- What the machine answered. -/
abbrev outcome (m : Moment σ ε α) : Outcome α := m.result.outcome

end Moment

namespace History

variable {σ ε α : Type}

/-- The state after events. -/
def final (step : σ → ε → Step σ α) (s : σ) : List ε → σ
  | [] => s
  | e :: rest => final step (step s e).state rest

/-- The moments of a run, oldest first. -/
def moments (step : σ → ε → Step σ α) (s : σ) : List ε → List (Moment σ ε α)
  | [] => []
  | e :: rest => ⟨s, e, step s e⟩ :: moments step (step s e).state rest

/-- The answers of a run. -/
def outcomes (step : σ → ε → Step σ α) (s : σ) (events : List ε) : List (Outcome α) :=
  (moments step s events).map Moment.outcome

variable {step : σ → ε → Step σ α}

theorem final_append (s : σ) (before since : List ε) :
    final step s (before ++ since) = final step (final step s before) since := by
  induction before generalizing s with
  | nil => rfl
  | cons first rest ih => exact ih _

/-- A property that the steps of a run keep holds after it. -/
theorem final_induction_of_mem {motive : σ → Prop} {s : σ} (start : motive s) (events : List ε)
    (next : ∀ s, ∀ e ∈ events, motive s → motive (step s e).state) :
    motive (final step s events) := by
  induction events generalizing s with
  | nil => exact start
  | cons e rest ih =>
      exact ih (next s e List.mem_cons_self start)
        fun s e there => next s e (List.mem_cons_of_mem _ there)

/-- A property that every step keeps holds after every run. -/
theorem final_induction {motive : σ → Prop} {s : σ} (start : motive s)
    (next : ∀ s e, motive s → motive (step s e).state) (events : List ε) :
    motive (final step s events) :=
  final_induction_of_mem start events fun s e _ => next s e

/-- A relation between a state and the moments before it that the steps of a run keep holds
after it. -/
theorem moments_induction_of_mem {motive : σ → List (Moment σ ε α) → Prop} {s : σ}
    (start : motive s []) (events : List ε)
    (next : ∀ s past, ∀ e ∈ events,
      motive s past → motive (step s e).state (past ++ [⟨s, e, step s e⟩])) :
    motive (final step s events) (moments step s events) := by
  suffices grown : ∀ past s, motive s past →
      motive (final step s events) (past ++ moments step s events) from grown [] s start
  clear start
  induction events with
  | nil =>
      intro past s h
      rw [moments, List.append_nil]
      exact h
  | cons e rest ih =>
      intro past s h
      have hstep := ih (fun s past e there => next s past e (List.mem_cons_of_mem _ there)) _ _
        (next s past e List.mem_cons_self h)
      rw [List.append_assoc] at hstep
      exact hstep

/-- A relation between a state and the moments before it that every step keeps holds
after every run. -/
theorem moments_induction {motive : σ → List (Moment σ ε α) → Prop} {s : σ} (start : motive s [])
    (next : ∀ s past e, motive s past → motive (step s e).state (past ++ [⟨s, e, step s e⟩]))
    (events : List ε) : motive (final step s events) (moments step s events) :=
  moments_induction_of_mem start events fun s past e _ => next s past e

/-- What is picked from a list that grows at its end. -/
theorem filterMap_snoc {β : Type} (pick : α → Option β) (past : List α) (last : α) :
    (past ++ [last]).filterMap pick = past.filterMap pick ++ (pick last).toList := by
  rw [List.filterMap_append]
  cases picked : pick last with
  | none => exact congrArg (_ ++ ·) (List.filterMap_cons_none picked)
  | some b => exact congrArg (_ ++ ·) (List.filterMap_cons_some picked)

end History

end MountFs
