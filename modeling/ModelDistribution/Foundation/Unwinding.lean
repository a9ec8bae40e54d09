/-
Module: ModelDistribution.Foundation.Unwinding
Layer: Foundation
Purpose: Non-interference for deterministic machines. Events that an observer need not know are purged
  from a run, where what is purged may depend on the state in which an event comes. If a purged event
  leaves the view of the observer alone, and a kept one is answered and changes the view from the view
  alone, then the purged run gives the same view and the same answers.
Imports: none (Mathlib-free)
Trusted boundary: none
Main exports: purge, outputs, keptOutputs, Unwinding, Unwinding.purged
-/

namespace ModelDistribution.Foundation

variable {State Event View Output : Type}

/-- The events of a run that are kept in the states in which they come. -/
def purge (step : State → Event → State) (keep : State → Event → Bool) :
    State → List Event → List Event
  | _, [] => []
  | state, event :: events =>
      if keep state event then event :: purge step keep (step state event) events
      else purge step keep (step state event) events

/-- The answers to the events of a run. -/
def outputs (step : State → Event → State) (output : State → Event → Output) :
    State → List Event → List Output
  | _, [] => []
  | state, event :: events => output state event :: outputs step output (step state event) events

/-- The answers of a run to the events that are kept. -/
def keptOutputs (step : State → Event → State) (keep : State → Event → Bool)
    (output : State → Event → Output) : State → List Event → List Output
  | _, [] => []
  | state, event :: events =>
      if keep state event then
        output state event :: keptOutputs step keep output (step state event) events
      else keptOutputs step keep output (step state event) events

/-- The conditions on single steps. -/
structure Unwinding (step : State → Event → State) (keep : State → Event → Bool)
    (output : State → Event → Output) (view : State → View) : Prop where
  /-- A purged event leaves the view alone. -/
  unseen : ∀ state event, keep state event = false → view (step state event) = view state
  /-- A kept event changes the view from the view alone. -/
  consistent : ∀ state other event, view state = view other → keep state event = true →
    view (step state event) = view (step other event)
  /-- A kept event is answered from the view alone. -/
  answered : ∀ state other event, view state = view other → keep state event = true →
    output state event = output other event

/-- From states with the same view, a run and its purge end with the same view, and the purged run
gives the answers that the run gave to the events that were kept. -/
theorem Unwinding.purged {step : State → Event → State} {keep : State → Event → Bool}
    {output : State → Event → Output} {view : State → View}
    (unwinding : Unwinding step keep output view) {state other : State}
    (same : view state = view other) (events : List Event) :
    view ((purge step keep state events).foldl step other) = view (events.foldl step state) ∧
      outputs step output other (purge step keep state events) =
        keptOutputs step keep output state events := by
  induction events generalizing state other with
  | nil => exact ⟨same.symm, rfl⟩
  | cons event events ih =>
      cases kept : keep state event with
      | true =>
          have next := unwinding.consistent state other event same kept
          have answer := unwinding.answered state other event same kept
          simp only [purge, keptOutputs, kept, if_true, List.foldl_cons, outputs, answer]
          exact ⟨(ih next).1, congrArg _ (ih next).2⟩
      | false =>
          have next := (unwinding.unseen state event kept).trans same
          simp only [purge, keptOutputs, kept, Bool.false_eq_true, if_false, List.foldl_cons]
          exact ih next

end ModelDistribution.Foundation
