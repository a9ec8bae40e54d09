/-
Module: ModelDistribution.Foundation.Behaviour
Layer: Foundation
Purpose: Infinite behaviours of partial machines, idling included: a finite run that idles at its end,
  or one that comes back to its start over and over. What every step keeps holds at every time, and a
  rank that falls again and again leads to the goal.
Imports: ModelDistribution.Foundation.Machine, Mathlib.Algebra.Order.BigOperators.Group.List,
  Mathlib.Algebra.Order.Ring.Nat
Trusted boundary: none
Main exports: Behaviour, Behaviour.invariant, Behaviour.ofRun, Behaviour.cycle,
  same_or_changes, reaches_of_rank, sum_map_add_le
-/
import ModelDistribution.Foundation.Machine
import Mathlib.Algebra.Order.BigOperators.Group.List
import Mathlib.Algebra.Order.Ring.Nat

namespace ModelDistribution.Foundation

variable {State Event : Type}

/-- A behaviour of a machine: at every time nothing happens or one event does. -/
structure Behaviour (step : State → Event → Option State) (start : State) where
  state : Nat → State
  starts : state 0 = start
  moves : ∀ t, state (t + 1) = state t ∨ ∃ event, step (state t) event = some (state (t + 1))

/-- What every step preserves holds at every time. -/
theorem Behaviour.invariant {step : State → Event → Option State} {start : State}
    (behaviour : Behaviour step start) (Inv : State → Prop) (initially : Inv start)
    (preserved : ∀ state event next, Inv state → step state event = some next → Inv next) :
    ∀ t, Inv (behaviour.state t) := by
  intro t
  induction t with
  | zero => exact behaviour.starts.symm ▸ initially
  | succ t ih =>
      rcases behaviour.moves t with idle | ⟨event, stepped⟩
      · exact idle.symm ▸ ih
      · exact preserved _ event _ ih stepped

/-- Every event of a run steps from where the events before it lead. -/
theorem runEvents_take {step : State → Event → Option State} {start final : State}
    {events : List Event} (ran : runEvents step start events = some final) {k : Nat}
    (inside : k < events.length) :
    ∃ event before next, events[k]? = some event ∧
      runEvents step start (events.take k) = some before ∧ step before event = some next ∧
      runEvents step start (events.take (k + 1)) = some next := by
  rw [← List.take_append_drop (k + 1) events] at ran
  obtain ⟨next, reached, _⟩ := runEvents_append.mp ran
  have split := reached
  rw [List.take_succ_eq_append_getElem inside] at split
  obtain ⟨before, earlier, stepped⟩ := runEvents_snoc.mp split
  exact ⟨events[k], before, next, List.getElem?_eq_getElem inside, earlier, stepped, reached⟩

/-- A finite run as a behaviour that idles at its end. -/
def Behaviour.ofRun {step : State → Event → Option State} {start final : State}
    {events : List Event} (ran : runEvents step start events = some final) :
    Behaviour step start where
  state t := (runEvents step start (events.take t)).getD start
  starts := rfl
  moves t := by
    rcases Nat.lt_or_ge t events.length with inside | behind
    · obtain ⟨event, before, next, _, earlier, stepped, reached⟩ := runEvents_take ran inside
      refine .inr ⟨event, ?_⟩
      rw [earlier, reached]
      exact stepped
    · rw [List.take_of_length_le behind, List.take_of_length_le (Nat.le_succ_of_le behind)]
      exact .inl rfl

theorem Behaviour.ofRun_state {step : State → Event → Option State} {start final : State}
    {events : List Event} (ran : runEvents step start events = some final) {t : Nat}
    (behind : events.length ≤ t) : (Behaviour.ofRun ran).state t = final := by
  simp [Behaviour.ofRun, List.take_of_length_le behind, ran]

/-- Where a run that comes back to its start is after `t` events, over and over. -/
def cycleState (step : State → Event → Option State) (start : State) (events : List Event)
    (t : Nat) : State :=
  (runEvents step start (events.take (t % events.length))).getD start

theorem cycleState_step {step : State → Event → Option State} {start : State}
    {events : List Event} (ran : runEvents step start events = some start)
    (someEvent : 0 < events.length) (t : Nat) :
    ∃ event, events[t % events.length]? = some event ∧
      step (cycleState step start events t) event =
        some (cycleState step start events (t + 1)) := by
  have inside := Nat.mod_lt t someEvent
  obtain ⟨event, before, next, found, earlier, stepped, reached⟩ := runEvents_take ran inside
  refine ⟨event, found, ?_⟩
  have after : cycleState step start events (t + 1) = next := by
    rw [cycleState, ← Nat.mod_add_mod]
    have upTo : t % events.length + 1 ≤ events.length := inside
    rcases Nat.lt_or_eq_of_le upTo with within | last
    · rw [Nat.mod_eq_of_lt within, reached, Option.getD_some]
    · rw [last, List.take_length, ran] at reached
      rw [last, Nat.mod_self]
      exact Option.some.inj reached
  rw [after, cycleState, earlier]
  exact stepped

theorem cycleState_mul (step : State → Event → Option State) (start : State) (events : List Event)
    (t : Nat) : cycleState step start events (events.length * t) = start := by
  simp [cycleState]

/-- A run that comes back to its start, over and over. -/
def Behaviour.cycle {step : State → Event → Option State} {start : State} {events : List Event}
    (ran : runEvents step start events = some start) (someEvent : 0 < events.length) :
    Behaviour step start where
  state := cycleState step start events
  starts := cycleState_mul step start events 0
  moves t := by
    obtain ⟨event, _, stepped⟩ := cycleState_step ran someEvent t
    exact .inr ⟨event, stepped⟩

/-- What every event of the run preserves holds at every time of its repetition. -/
theorem Behaviour.cycle_invariant {step : State → Event → Option State} {start : State}
    {events : List Event} (ran : runEvents step start events = some start)
    (someEvent : 0 < events.length) (Inv : State → Prop) (initially : Inv start)
    (preserved : ∀ state event next, event ∈ events → Inv state → step state event = some next →
      Inv next) : ∀ t, Inv ((Behaviour.cycle ran someEvent).state t) := by
  intro t
  induction t with
  | zero => exact (Behaviour.cycle ran someEvent).starts.symm ▸ initially
  | succ t ih =>
      obtain ⟨event, found, stepped⟩ := cycleState_step ran someEvent t
      exact preserved _ event _ (List.mem_of_getElem? found) ih stepped

/-- From one time to a later one a value stays the same, or there is a first time it changes. -/
theorem same_or_changes {Value : Type} (value : Nat → Value) {t u : Nat} (ordered : t ≤ u) :
    (∀ w, t ≤ w → w ≤ u → value w = value t) ∨
      ∃ v, t ≤ v ∧ (∀ w, t ≤ w → w ≤ v → value w = value t) ∧ value (v + 1) ≠ value v := by
  induction ordered with
  | refl =>
      refine .inl fun w after before => ?_
      rw [Nat.le_antisymm before after]
  | @step u later ih =>
      rcases ih with same | changed
      · by_cases still : value (u + 1) = value t
        · refine .inl fun w after before => ?_
          rcases Nat.lt_or_eq_of_le before with earlier | last
          · exact same w after (Nat.le_of_lt_succ earlier)
          · exact last ▸ still
        · refine .inr ⟨u, later, same, ?_⟩
          rwa [same u later (Nat.le_refl u)]
      · exact .inr changed

/-- If the rank falls again and again before the goal is reached, then it is reached. -/
theorem reaches_of_rank (rank : Nat → Nat) (Inv Goal : Nat → Prop)
    (progress : ∀ t, Inv t → ¬ Goal t → ∃ u, t < u ∧ (∀ w, t ≤ w → w < u → ¬ Goal w) ∧ Inv u ∧
      (Goal u ∨ rank u < rank t))
    {t : Nat} (holds : Inv t) :
    ∃ u, t ≤ u ∧ (∀ w, t ≤ w → w < u → ¬ Goal w) ∧ Inv u ∧ Goal u := by
  induction bound : rank t using Nat.strongRecOn generalizing t with
  | _ bound ih =>
      by_cases goal : Goal t
      · refine ⟨t, Nat.le_refl t, fun w after before => ?_, holds, goal⟩
        exact absurd after (Nat.not_le_of_lt before)
      · obtain ⟨u, later, notYet, holds', reached | falls⟩ := progress t holds goal
        · exact ⟨u, Nat.le_of_lt later, notYet, holds', reached⟩
        · obtain ⟨v, after, notYet', holdsEnd, goal'⟩ := ih (rank u) (bound ▸ falls) holds' rfl
          refine ⟨v, Nat.le_trans (Nat.le_of_lt later) after, fun w from_t before => ?_, holdsEnd,
            goal'⟩
          rcases Nat.lt_or_ge w u with early | late
          · exact notYet w from_t early
          · exact notYet' w late before

/-- A sum falls by what one of its terms falls when no term rises. -/
theorem sum_map_add_le {α : Type} {l : List α} {before after : α → Nat} {d : Nat}
    (noRise : ∀ a ∈ l, after a ≤ before a) {x : α} (mem : x ∈ l) (falls : after x + d ≤ before x) :
    (l.map after).sum + d ≤ (l.map before).sum := by
  induction l with
  | nil => cases mem
  | cons a l ih =>
      have head := noRise a List.mem_cons_self
      have tail : ∀ b ∈ l, after b ≤ before b := fun b hb => noRise b (List.mem_cons_of_mem a hb)
      simp only [List.map_cons, List.sum_cons]
      rcases List.mem_cons.mp mem with rfl | later
      · have rest : (l.map after).sum ≤ (l.map before).sum := List.sum_le_sum tail
        omega
      · have := ih tail later
        omega

end ModelDistribution.Foundation
