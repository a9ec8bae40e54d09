/-
Module: ModelDistribution.Foundation.Machine
Layer: Foundation
Purpose: Runs of event-driven machines. A machine is a step function over events; a partial machine
  refuses the events that its state does not offer. The rules lift what one step preserves to what a
  whole run preserves, and a per-step equivalence to an equivalence over every prefix of a run. A state
  may have parts at positions, one of which a step replaces.
Imports: Mathlib.Data.List.Induction
Trusted boundary: none
Main exports: runEvents, runEvents_append, runEvents_invariant, runEvents_traced, runEvents_related,
  runEvents_unchanged, Reaches, Reaches.trans, Reaches.invariant, Reaches.follow, foldl_invariant,
  foldl_exact, getElem?_set_cases
-/
import Mathlib.Data.List.Induction

namespace ModelDistribution.Foundation

variable {State Event : Type}

/-- Run a partial machine over a list of events; `none` when some event was refused. -/
def runEvents (step : State → Event → Option State) (state : State) : List Event → Option State
  | [] => some state
  | event :: events => (step state event).bind fun next => runEvents step next events

/-! ### Partial machines -/

section Partial

variable {step : State → Event → Option State}

@[simp] theorem runEvents_nil (state : State) : runEvents step state [] = some state := rfl

theorem runEvents_cons_eq_some {state final : State} {event : Event} {events : List Event} :
    runEvents step state (event :: events) = some final ↔
      ∃ next, step state event = some next ∧ runEvents step next events = some final :=
  Option.bind_eq_some_iff

theorem runEvents_append {state final : State} {first second : List Event} :
    runEvents step state (first ++ second) = some final ↔
      ∃ middle, runEvents step state first = some middle ∧
        runEvents step middle second = some final := by
  induction first generalizing state with
  | nil => simp
  | cons event events ih =>
      rw [List.cons_append, runEvents_cons_eq_some]
      constructor
      · rintro ⟨next, stepped, rest⟩
        obtain ⟨middle, ran, tail⟩ := ih.mp rest
        exact ⟨middle, runEvents_cons_eq_some.mpr ⟨next, stepped, ran⟩, tail⟩
      · rintro ⟨middle, ran, tail⟩
        obtain ⟨next, stepped, rest⟩ := runEvents_cons_eq_some.mp ran
        exact ⟨next, stepped, ih.mpr ⟨middle, rest, tail⟩⟩

theorem runEvents_snoc {state final : State} {events : List Event} {event : Event} :
    runEvents step state (events ++ [event]) = some final ↔
      ∃ middle, runEvents step state events = some middle ∧ step middle event = some final := by
  simp [runEvents_append, runEvents_cons_eq_some]

/-- What every step preserves holds after every run. -/
theorem runEvents_invariant (Inv : State → Prop)
    (preserved : ∀ state event next, Inv state → step state event = some next → Inv next)
    {state final : State} {events : List Event} (start : Inv state)
    (ran : runEvents step state events = some final) : Inv final := by
  induction events generalizing state with
  | nil =>
      cases ran
      exact start
  | cons event events ih =>
      obtain ⟨next, stepped, rest⟩ := runEvents_cons_eq_some.mp ran
      exact ih (preserved _ _ _ start stepped) rest

/-- What every step carries from the events before it to those up to it holds after every run of the
events of that run. -/
theorem runEvents_traced (Inv : List Event → State → Prop)
    (preserved : ∀ past state event next, Inv past state → step state event = some next →
      Inv (past ++ [event]) next)
    {state final : State} {events : List Event} (start : Inv [] state)
    (ran : runEvents step state events = some final) : Inv events final := by
  induction events using List.reverseRecOn generalizing final with
  | nil =>
      cases ran
      exact start
  | append_singleton events event ih =>
      obtain ⟨middle, before, stepped⟩ := runEvents_snoc.mp ran
      exact preserved _ _ _ _ (ih before) stepped

/-- A reflexive and transitive relation between the two ends of a step, under an invariant, relates
the two ends of a run. -/
theorem runEvents_related {Inv : State → Prop} {Rel : State → State → Prop}
    (preserved : ∀ state event next, Inv state → step state event = some next → Inv next)
    (refl : ∀ state, Rel state state)
    (trans : ∀ {a b c}, Rel a b → Rel b c → Rel a c)
    (related : ∀ state event next, Inv state → step state event = some next → Rel state next)
    {state final : State} {events : List Event} (start : Inv state)
    (ran : runEvents step state events = some final) : Rel state final := by
  induction events generalizing state with
  | nil =>
      cases ran
      exact refl _
  | cons event events ih =>
      obtain ⟨next, stepped, rest⟩ := runEvents_cons_eq_some.mp ran
      exact trans (related _ _ _ start stepped) (ih (preserved _ _ _ start stepped) rest)

/-- What no event of the run touches is the same at both ends. -/
theorem runEvents_unchanged {Value : Type} (value : State → Value) {Idle : Event → Prop}
    (kept : ∀ state event next, Idle event → step state event = some next →
      value next = value state)
    {state final : State} {events : List Event} (idle : ∀ event ∈ events, Idle event)
    (ran : runEvents step state events = some final) : value final = value state := by
  induction events generalizing state with
  | nil =>
      cases ran
      rfl
  | cons event events ih =>
      rcases runEvents_cons_eq_some.mp ran with ⟨next, stepped, rest⟩
      have later := ih (fun other mem => idle other (List.mem_cons_of_mem event mem)) rest
      exact later.trans (kept state event next (idle event List.mem_cons_self) stepped)

end Partial

/-! ### What can be reached -/

/-- Admitted events lead from the one state to the other. -/
def Reaches (step : State → Event → Option State) (Admitted : Event → Prop)
    (state next : State) : Prop :=
  ∃ events, (∀ event ∈ events, Admitted event) ∧ runEvents step state events = some next

namespace Reaches

variable {step : State → Event → Option State} {Admitted : Event → Prop} {state middle next : State}

theorem refl (state : State) : Reaches step Admitted state state :=
  ⟨[], by simp, rfl⟩

theorem single {event : Event} (admitted : Admitted event)
    (stepped : step state event = some next) : Reaches step Admitted state next :=
  ⟨[event], by simp [admitted], runEvents_cons_eq_some.mpr ⟨next, stepped, rfl⟩⟩

theorem trans (first : Reaches step Admitted state middle)
    (second : Reaches step Admitted middle next) : Reaches step Admitted state next := by
  rcases first with ⟨events, admitted, ran⟩
  rcases second with ⟨more, admittedMore, ranMore⟩
  refine ⟨events ++ more, ?_, runEvents_append.mpr ⟨middle, ran, ranMore⟩⟩
  intro event mem
  rcases List.mem_append.mp mem with early | late
  · exact admitted event early
  · exact admittedMore event late

theorem mono {Wider : Event → Prop} (wider : ∀ event, Admitted event → Wider event)
    (reaches : Reaches step Admitted state next) : Reaches step Wider state next := by
  rcases reaches with ⟨events, admitted, ran⟩
  exact ⟨events, fun event mem => wider event (admitted event mem), ran⟩

/-- What every step preserves is kept on the way. -/
theorem invariant (reaches : Reaches step Admitted state next) (Inv : State → Prop)
    (preserved : ∀ state event next, Inv state → step state event = some next → Inv next)
    (start : Inv state) : Inv next := by
  rcases reaches with ⟨events, _, ran⟩
  exact runEvents_invariant Inv preserved start ran

end Reaches

/-! ### Total machines -/

section Total

variable {step : State → Event → State}

/-- What every admitted step preserves holds after every run of admitted events. -/
theorem foldl_invariant {Inv : State → Prop} {Admitted : Event → Prop}
    (preserved : ∀ state event, Admitted event → Inv state → Inv (step state event))
    {state : State} {events : List Event} (start : Inv state)
    (admitted : ∀ event ∈ events, Admitted event) : Inv (events.foldl step state) := by
  induction events generalizing state with
  | nil => exact start
  | cons event events ih =>
      exact ih (preserved _ _ (admitted _ (by simp)) start)
        fun other mem => admitted other (List.mem_cons_of_mem _ mem)

/-- If, wherever the property holds, one step keeps it exactly when the guard holds, then a run keeps
it at every prefix exactly when every step of the run meets the guard. -/
theorem foldl_exact {Inv Property : State → Prop} {Admitted : Event → Prop}
    {Guard : State → Event → Prop}
    (preserved : ∀ state event, Admitted event → Inv state → Inv (step state event))
    (exact' : ∀ state event, Admitted event → Inv state → Property state →
      (Property (step state event) ↔ Guard state event))
    {state : State} {events : List Event} (start : Inv state) (holds : Property state)
    (admitted : ∀ event ∈ events, Admitted event) :
    (∀ pre, pre <+: events → Property (pre.foldl step state)) ↔
      ∀ pre event, pre ++ [event] <+: events → Guard (pre.foldl step state) event := by
  have reached : ∀ pre, pre <+: events → Inv (pre.foldl step state) := fun pre isPrefix =>
    foldl_invariant preserved start fun event mem => admitted event (isPrefix.subset mem)
  have oneStep : ∀ pre event, pre ++ [event] <+: events → Property (pre.foldl step state) →
      (Property ((pre ++ [event]).foldl step state) ↔ Guard (pre.foldl step state) event) := by
    intro pre event isPrefix before
    rw [List.foldl_append, List.foldl_cons, List.foldl_nil]
    exact exact' _ _ (admitted event (isPrefix.subset (by simp)))
      (reached pre ((List.prefix_append _ _).trans isPrefix)) before
  constructor
  · intro always pre event isPrefix
    exact (oneStep pre event isPrefix
      (always pre ((List.prefix_append _ _).trans isPrefix))).mp (always _ isPrefix)
  · intro guarded pre
    -- The property is carried along the prefix by the guards already passed.
    induction pre using List.reverseRecOn with
    | nil => exact fun _ => holds
    | append_singleton pre event ih =>
        intro isPrefix
        have before := ih ((List.prefix_append _ _).trans isPrefix)
        exact (oneStep pre event isPrefix before).mpr (guarded pre event isPrefix)

/-- The steps of a run that starts with an event are that event and the steps behind it. -/
theorem forall_step_cons {Guard : List Event → Event → Prop} {first : Event}
    {events : List Event} :
    (∀ pre event, pre ++ [event] <+: first :: events → Guard pre event) ↔
      Guard [] first ∧ ∀ pre event, pre ++ [event] <+: events → Guard (first :: pre) event := by
  constructor
  · intro all
    refine ⟨all [] first (by simp), ?_⟩
    intro pre event isPrefix
    exact all (first :: pre) event (List.cons_prefix_cons.mpr ⟨rfl, isPrefix⟩)
  · rintro ⟨head, tail⟩ pre event isPrefix
    cases pre with
    | nil =>
        obtain ⟨rfl, _⟩ := List.cons_prefix_cons.mp isPrefix
        exact head
    | cons other pre =>
        obtain ⟨rfl, rest⟩ := List.cons_prefix_cons.mp isPrefix
        exact tail pre event rest

/-- The steps of a run that ends with an event are the steps before it and that event. -/
theorem forall_step_snoc {Guard : List Event → Event → Prop} {last : Event}
    {events : List Event} :
    (∀ pre event, pre ++ [event] <+: events ++ [last] → Guard pre event) ↔
      (∀ pre event, pre ++ [event] <+: events → Guard pre event) ∧ Guard events last := by
  constructor
  · intro all
    refine ⟨?_, all events last List.prefix_rfl⟩
    intro pre event isPrefix
    exact all pre event (isPrefix.trans (List.prefix_append _ _))
  · rintro ⟨before, here⟩ pre event isPrefix
    rcases List.prefix_concat_iff.mp isPrefix with whole | earlier
    · obtain ⟨rfl, sameEnd⟩ := List.append_inj' whole rfl
      cases sameEnd
      exact here
    · exact before pre event earlier

theorem forall_step_nil {Guard : List Event → Event → Prop} :
    (∀ pre event, pre ++ [event] <+: ([] : List Event) → Guard pre event) ↔ True := by
  simp

end Total

/-! ### States with parts at positions -/

/-- The part at a position after one has been replaced. -/
theorem getElem?_set_cases {Part : Type} {parts : List Part} {k j : Nat} {put found : Part}
    (here : (parts.set k put)[j]? = some found) :
    (j = k ∧ found = put) ∨ (j ≠ k ∧ parts[j]? = some found) := by
  rw [List.getElem?_set] at here
  split at here
  · rename_i same
    split at here
    · cases here
      exact .inl ⟨same.symm, rfl⟩
    · cases here
  · rename_i different
    exact .inr ⟨Ne.symm different, here⟩

end ModelDistribution.Foundation
