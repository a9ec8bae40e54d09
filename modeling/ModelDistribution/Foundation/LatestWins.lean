/-
Module: ModelDistribution.Foundation.LatestWins
Layer: Foundation
Purpose: Tables as replays of a log. Each event of a log puts a value under a key, sweeps all values
  that fail a check, or does neither; what a key holds is then the value of its last put, unless a
  later sweep took it away.
Imports: Mathlib.Data.List.Induction
Trusted boundary: none
Main exports: TableEffect, replay, replay_snoc, replay_eq_some_iff, lookup_eq_replay
-/
import Mathlib.Data.List.Induction

namespace ModelDistribution.Foundation

/-- What one event does to a table. -/
inductive TableEffect (K V : Type) where
  | put (key : K) (value : V)
  | sweep (keep : V → Bool)
  | skip

variable {K V Event : Type} [DecidableEq K]

/-- What a key holds after one effect. -/
def TableEffect.apply (key : K) (held : Option V) : TableEffect K V → Option V
  | .put other value => if other = key then some value else held
  | .sweep keep => held.filter keep
  | .skip => held

/-- What a key holds after a log, in a table that starts empty. -/
def replay (effect : Event → TableEffect K V) (log : List Event) (key : K) : Option V :=
  log.foldl (fun held event => (effect event).apply key held) none

section Replay

variable {effect : Event → TableEffect K V} {key : K}

@[simp] theorem replay_nil : replay effect [] key = none := rfl

@[simp] theorem replay_snoc (log : List Event) (event : Event) :
    replay effect (log ++ [event]) key = (effect event).apply key (replay effect log key) := by
  simp [replay]

/-- The event puts a value under the key. -/
def Puts (effect : Event → TableEffect K V) (key : K) (event : Event) : Prop :=
  ∃ value, effect event = .put key value

/-- The value survives the event: a sweep keeps it. -/
def Survives (effect : Event → TableEffect K V) (value : V) (event : Event) : Prop :=
  ∀ keep, effect event = .sweep keep → keep value = true

/-- A key that the last event did not put holds what it held before, if that survives the event. -/
theorem apply_eq_some_of_not_puts {event : Event} {held : Option V} {value : V}
    (other : ¬ Puts effect key event) :
    (effect event).apply key held = some value ↔ held = some value ∧ Survives effect value event := by
  cases same : effect event with
  | put put' value' =>
      have different : put' ≠ key := fun eq => other ⟨value', eq ▸ same⟩
      simp [TableEffect.apply, Survives, same, different]
  | sweep keep =>
      simp [TableEffect.apply, Survives, same, Option.filter_eq_some_iff]
  | skip =>
      simp [TableEffect.apply, Survives, same]

omit [DecidableEq K] in
/-- The ways to single out an event of a log that ends with a given one. -/
private theorem snoc_eq_append_cons {log before after : List Event} {last event : Event}
    (split : log ++ [last] = before ++ event :: after) :
    (log = before ∧ last = event ∧ after = []) ∨
      ∃ earlier, log = before ++ event :: earlier ∧ after = earlier ++ [last] := by
  rcases List.eq_nil_or_concat after with rfl | ⟨earlier, final, rfl⟩
  · obtain ⟨sameLog, sameEnd⟩ := List.append_inj' split rfl
    cases sameEnd
    exact .inl ⟨sameLog, rfl, rfl⟩
  · have whole : log ++ [last] = (before ++ event :: earlier) ++ [final] := by
      simpa using split
    obtain ⟨sameLog, sameEnd⟩ := List.append_inj' whole rfl
    cases sameEnd
    exact .inr ⟨earlier, sameLog, by simp⟩

/-- A key holds a value exactly when the value was put and, behind that event, the key was not put
again and every sweep kept the value. -/
theorem replay_eq_some_iff {log : List Event} {value : V} :
    replay effect log key = some value ↔
      ∃ before event after, log = before ++ event :: after ∧ effect event = .put key value ∧
        (∀ later ∈ after, ¬ Puts effect key later) ∧
        ∀ later ∈ after, Survives effect value later := by
  induction log using List.reverseRecOn with
  | nil => simp
  | append_singleton log last ih =>
      rw [replay_snoc]
      by_cases puts : Puts effect key last
      · rcases puts with ⟨newest, isPut⟩
        constructor
        · intro held
          simp only [isPut, TableEffect.apply, if_true, Option.some.injEq] at held
          subst held
          exact ⟨log, last, [], rfl, isPut, by simp, by simp⟩
        · rintro ⟨before, event, after, split, put, quiet, _⟩
          rcases snoc_eq_append_cons split with ⟨_, rfl, rfl⟩ | ⟨earlier, _, rfl⟩
          · simp [put, TableEffect.apply]
          · exact absurd ⟨newest, isPut⟩ (quiet last (by simp))
      · rw [apply_eq_some_of_not_puts puts, ih]
        constructor
        · rintro ⟨⟨before, event, after, rfl, put, quiet, kept⟩, survives⟩
          refine ⟨before, event, after ++ [last], by simp, put, ?_, ?_⟩
          · intro later mem
            rcases List.mem_append.mp mem with old | new
            · exact quiet later old
            · cases List.mem_singleton.mp new
              exact puts
          · intro later mem
            rcases List.mem_append.mp mem with old | new
            · exact kept later old
            · cases List.mem_singleton.mp new
              exact survives
        · rintro ⟨before, event, after, split, put, quiet, kept⟩
          rcases snoc_eq_append_cons split with ⟨_, rfl, rfl⟩ | ⟨earlier, rfl, rfl⟩
          · exact absurd ⟨value, put⟩ puts
          · refine ⟨⟨before, event, earlier, rfl, put, ?_, ?_⟩, kept last (by simp)⟩
            · intro later mem
              exact quiet later (by simp [mem])
            · intro later mem
              exact kept later (by simp [mem])

end Replay

/-- A table whose every step changes what a key holds as the effect of its event says is the replay of
its run. -/
theorem lookup_eq_replay {State : Type} {step : State → Event → State}
    {effect : Event → TableEffect K V} {lookup : State → K → Option V} {Inv : State → Prop}
    {Admitted : Event → Prop}
    (preserved : ∀ state event, Admitted event → Inv state → Inv (step state event))
    (simulates : ∀ state event key, Admitted event → Inv state →
      lookup (step state event) key = (effect event).apply key (lookup state key))
    {start : State} (inv : Inv start) (empty : ∀ key, lookup start key = none)
    {log : List Event} (admitted : ∀ event ∈ log, Admitted event) (key : K) :
    lookup (log.foldl step start) key = replay effect log key := by
  have reached : ∀ pre, (∀ event ∈ pre, Admitted event) →
      Inv (pre.foldl step start) ∧ lookup (pre.foldl step start) key = replay effect pre key := by
    intro pre
    induction pre using List.reverseRecOn with
    | nil => exact fun _ => ⟨inv, empty key⟩
    | append_singleton pre event ih =>
        intro allowed
        have here := allowed event (by simp)
        obtain ⟨kept, same⟩ := ih fun other mem => allowed other (by simp [mem])
        rw [List.foldl_append, List.foldl_cons, List.foldl_nil, replay_snoc, ← same]
        exact ⟨preserved _ _ here kept, simulates _ _ key here kept⟩
  exact (reached log admitted).2

end ModelDistribution.Foundation
