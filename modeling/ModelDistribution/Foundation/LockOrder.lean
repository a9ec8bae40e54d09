/-
Module: ModelDistribution.Foundation.LockOrder
Layer: Foundation
Purpose: Threads that share reader-writer locks. While every thread takes its locks in rising order
  they never wait for one another in a circle: some thread can always go on, also where a reader
  waits behind a waiting writer, and all of them come to their end. A thread that waits for itself
  stays where it is, and nobody gets past a guard of it.
Imports: Mathlib.Algebra.Order.Ring.Nat, Mathlib.Data.List.MinMax,
  ModelDistribution.Foundation.LockTrace
Trusted boundary: human-reviewed spec
Main exports: LockTask, LockEvent, grants, stepTask, lockStep, Barred, Rising, rising_append,
  rising_bracket, rising_flatMap, rising_scan, AllRising, Exclusive, rising_progress,
  rising_completes, NeverDone, needs_neverDone, blocked_neverDone, held_of_waits, stops_of_none,
  run_alone
-/
import Mathlib.Algebra.Order.Ring.Nat
import Mathlib.Data.List.MinMax
import ModelDistribution.Foundation.LockTrace

namespace ModelDistribution.Foundation

/-- A thread: the guards that it holds and the steps that are still to come. -/
structure LockTask (L : Type) where
  held : List (L × LockMode)
  rest : List (LockAction L)
deriving DecidableEq, Repr

/-- What happens next: a thread starts with its steps, or the one at a position takes a step. -/
inductive LockEvent (L : Type) where
  | call (trace : List (LockAction L))
  | step (k : Nat)
deriving DecidableEq, Repr

variable {L : Type} [DecidableEq L]

/-- No thread holds a guard that stands in the way of the step. -/
def grants (tasks : List (LockTask L)) : LockAction L → Bool
  | .acquire lock mode =>
      tasks.all fun task =>
        task.held.all fun guard => !(decide (guard.1 = lock) && guard.2.conflicts mode)
  | .release _ _ => true

/-- The thread at a position takes its next step; `none` when it has none or has to wait. -/
def stepTask (tasks : List (LockTask L)) (k : Nat) : Option (List (LockTask L)) :=
  tasks[k]?.bind fun task =>
    match task.rest with
    | [] => none
    | action :: rest =>
        if grants tasks action then
          (action.perform task.held).map fun held => tasks.set k { held, rest }
        else none

def lockStep (tasks : List (LockTask L)) : LockEvent L → Option (List (LockTask L))
  | .call trace => some (tasks ++ [{ held := [], rest := trace }])
  | .step k => stepTask tasks k

/-- What the next step of a thread takes. -/
def LockTask.wants (task : LockTask L) : Option (L × LockMode) :=
  match task.rest with
  | .acquire lock mode :: _ => some (lock, mode)
  | _ => none

/-- The thread at a position wants to read what another one waits to write. -/
def Barred (tasks : List (LockTask L)) (k : Nat) : Prop :=
  ∃ task lock, tasks[k]? = some task ∧ task.wants = some (lock, .shared) ∧
    ∃ other ∈ tasks, other.wants = some (lock, .exclusive)

theorem grants_acquire {tasks : List (LockTask L)} {lock : L} {mode : LockMode} :
    grants tasks (.acquire lock mode) = true ↔ ∀ task ∈ tasks, Free task.held lock mode := by
  simp [grants, Free, imp_iff_not_or]

/-- Everything one step can do. -/
theorem stepTask_eq_some {tasks next : List (LockTask L)} {k : Nat} :
    stepTask tasks k = some next ↔
      ∃ task action rest held, tasks[k]? = some task ∧ task.rest = action :: rest ∧
        grants tasks action = true ∧ action.perform task.held = some held ∧
        next = tasks.set k { held, rest } := by
  constructor
  · intro stepped
    rcases Option.bind_eq_some_iff.mp stepped with ⟨task, found, rest⟩
    split at rest
    · cases rest
    · rename_i action later steps
      split at rest
      · rename_i granted
        rcases Option.map_eq_some_iff.mp rest with ⟨held, performed, rfl⟩
        exact ⟨task, action, later, held, found, steps, granted, performed, rfl⟩
      · cases rest
  · rintro ⟨task, action, rest, held, found, steps, granted, performed, rfl⟩
    rw [stepTask, found, Option.bind_some, steps]
    simp [granted, performed]

/-! ### Rising traces -/

section Rising

variable {R : Type} [LinearOrder R] (rank : L → R)

/-- All that is held lies below the lock. -/
def Below (held : List (L × LockMode)) (lock : L) : Prop :=
  ∀ guard ∈ held, rank guard.1 < rank lock

/-- The trace takes only locks above all that are held, drops only guards that are held, and ends with
the given guards. -/
def Rising (held : List (L × LockMode)) : List (LockAction L) → List (L × LockMode) → Prop
  | [], final => held = final
  | .acquire lock mode :: rest, final =>
      Below rank held lock ∧ Rising ((lock, mode) :: held) rest final
  | .release lock mode :: rest, final =>
      (lock, mode) ∈ held ∧ Rising (held.erase (lock, mode)) rest final

variable {rank} {held middle final : List (L × LockMode)} {first second : List (LockAction L)}
  {lock : L} {mode : LockMode}

theorem rising_append (one : Rising rank held first middle) (two : Rising rank middle second final) :
    Rising rank held (first ++ second) final := by
  induction first generalizing held with
  | nil =>
      cases one
      exact two
  | cons action first ih =>
      cases action with
      | acquire lock mode => exact ⟨one.1, ih one.2⟩
      | release lock mode => exact ⟨one.1, ih one.2⟩

omit [DecidableEq L] in
theorem below_nil : Below rank [] lock := by
  intro guard mem
  cases mem

omit [DecidableEq L] in
theorem below_cons {guard : L × LockMode} :
    Below rank (guard :: held) lock ↔ rank guard.1 < rank lock ∧ Below rank held lock := by
  simp [Below]

/-- A guard around a rising body. -/
theorem rising_bracket {body : List (LockAction L)} (above : Below rank held lock)
    (inner : Rising rank ((lock, mode) :: held) body ((lock, mode) :: held)) :
    Rising rank held (.acquire lock mode :: body ++ [.release lock mode]) held := by
  refine ⟨above, rising_append inner ⟨List.mem_cons_self, ?_⟩⟩
  rw [List.erase_cons_head]
  rfl

theorem rising_touch (above : Below rank held lock) :
    Rising rank held [.acquire lock mode, .release lock mode] held := by
  have around : Rising rank held (.acquire lock mode :: [] ++ [.release lock mode]) held :=
    rising_bracket above rfl
  exact around

theorem rising_flatMap {α : Type} {trace : α → List (LockAction L)} {items : List α}
    (each : ∀ item ∈ items, Rising rank held (trace item) held) :
    Rising rank held (items.flatMap trace) held := by
  induction items with
  | nil => rfl
  | cons item items ih =>
      rw [List.flatMap_cons]
      apply rising_append (each item List.mem_cons_self)
      exact ih fun other mem => each other (List.mem_cons_of_mem item mem)

/-- Dropping the guard that a scan still holds. -/
theorem rising_dropGuard (guard : Nat → L) (previous : Option Nat) :
    Rising rank (scanHeld guard held previous) (dropGuard guard previous) held := by
  cases previous with
  | none => rfl
  | some s =>
      refine ⟨List.mem_cons_self, ?_⟩
      rw [scanHeld, List.erase_cons_head]
      rfl

/-- A scan that goes up a rising row of locks above all that are held. -/
theorem rising_scanGuards {guard : Nat → L} {body : Nat → List (LockAction L)} {stop : Nat → Bool}
    (rises : ∀ s t, s < t → rank (guard s) < rank (guard t)) {positions : List Nat}
    (sorted : positions.Pairwise (· < ·)) (above : ∀ s ∈ positions, Below rank held (guard s))
    (bodies : ∀ s ∈ positions, Rising rank ((guard s, .shared) :: held) (body s)
      ((guard s, .shared) :: held))
    (previous : Option Nat) (behind : ∀ p ∈ previous, ∀ s ∈ positions, p < s) :
    Rising rank (scanHeld guard held previous) (scanGuards guard body stop previous positions)
      held := by
  induction positions generalizing previous with
  | nil => exact rising_dropGuard guard previous
  | cons s rest ih =>
      rcases List.pairwise_cons.mp sorted with ⟨first, sorted⟩
      have here := List.mem_cons_self (a := s) (l := rest)
      have moved : Rising rank ((guard s, .shared) :: scanHeld guard held previous)
          (dropGuard guard previous) ((guard s, .shared) :: held) := by
        cases previous with
        | none => rfl
        | some p =>
            refine ⟨List.mem_cons_of_mem _ List.mem_cons_self, ?_⟩
            have dropped := perform_release_second (guard s, .shared) held (guard p) .shared
            exact Option.some.inj dropped
      rw [scanGuards, List.append_assoc, List.cons_append]
      constructor
      · cases previous with
        | none => exact above s here
        | some p => exact below_cons.mpr ⟨rises p s (behind p rfl s here), above s here⟩
      · apply rising_append moved
        apply rising_append (bodies s here)
        split
        · exact rising_dropGuard guard (some s)
        · have behind' : ∀ p ∈ some s, ∀ t ∈ rest, p < t := by
            intro p same t mem
            cases same
            exact first t mem
          exact ih sorted (fun t mem => above t (List.mem_cons_of_mem s mem))
            (fun t mem => bodies t (List.mem_cons_of_mem s mem)) (some s) behind'

/-- A scan over all positions below `n`. -/
theorem rising_scan {guard : Nat → L} {body : Nat → List (LockAction L)} {stop : Nat → Bool} {n : Nat}
    (rises : ∀ s t, s < t → rank (guard s) < rank (guard t))
    (above : ∀ s, Below rank held (guard s))
    (bodies : ∀ s, Rising rank ((guard s, .shared) :: held) (body s)
      ((guard s, .shared) :: held)) :
    Rising rank held (scanGuards guard body stop none (List.range n)) held :=
  rising_scanGuards rises List.pairwise_lt_range (fun s _ => above s) (fun s _ => bodies s) none
    (by simp)

end Rising

/-! ### Threads that rise never wait in a circle -/

section Progress

variable {R : Type} [LinearOrder R] {rank : L → R} {tasks next : List (LockTask L)}

/-- What every thread still has to do rises from what it holds and gives all of it back. -/
def AllRising (rank : L → R) (tasks : List (LockTask L)) : Prop :=
  ∀ task ∈ tasks, Rising rank task.held task.rest []

/-- No two threads hold guards that conflict. -/
def Exclusive (tasks : List (LockTask L)) : Prop :=
  ∀ (i j : Nat) (one other : LockTask L), i ≠ j → tasks[i]? = some one → tasks[j]? = some other →
    ∀ guard ∈ one.held, Free other.held guard.1 guard.2

/-- The steps that are still to come. -/
def remaining (tasks : List (LockTask L)) : Nat := (tasks.map fun task => task.rest.length).sum

theorem Rising.perform {held final after : List (L × LockMode)} {action : LockAction L}
    {rest : List (LockAction L)} (rises : Rising rank held (action :: rest) final)
    (performed : action.perform held = some after) : Rising rank after rest final := by
  cases action with
  | acquire lock mode =>
      simp only [LockAction.perform] at performed
      split at performed
      · cases performed
      · cases performed
        exact rises.2
  | release lock mode =>
      cases performed
      exact rises.2

theorem allRising_step {k : Nat} (rises : AllRising rank tasks)
    (stepped : stepTask tasks k = some next) : AllRising rank next := by
  rcases stepTask_eq_some.mp stepped with
    ⟨task, action, rest, held, found, steps, _, performed, rfl⟩
  intro other mem
  rcases List.mem_or_eq_of_mem_set mem with earlier | rfl
  · exact rises other earlier
  · have before := rises task (List.mem_of_getElem? found)
    rw [steps] at before
    exact before.perform performed

/-- A step can be taken when no thread holds a guard in its way. -/
theorem stepTask_of_grants {k : Nat} {task : LockTask L} {action : LockAction L}
    {rest : List (LockAction L)} (found : tasks[k]? = some task) (steps : task.rest = action :: rest)
    (granted : grants tasks action = true) : ∃ next, stepTask tasks k = some next := by
  have performs : ∃ held, action.perform task.held = some held := by
    cases action with
    | acquire lock mode =>
        exact ⟨_, perform_acquire (grants_acquire.mp granted task (List.mem_of_getElem? found))⟩
    | release lock mode => exact ⟨_, rfl⟩
  rcases performs with ⟨held, performed⟩
  exact ⟨_, stepTask_eq_some.mpr
    ⟨task, action, rest, held, found, steps, granted, performed, rfl⟩⟩

omit [DecidableEq L] in
/-- Among threads that wait, one waits for a lock that none of the others' locks lies above. -/
theorem exists_highest (rank : L → R) (waits : ∃ task ∈ tasks, task.wants ≠ none) :
    ∃ task ∈ tasks, ∃ lock mode, task.wants = some (lock, mode) ∧
      ∀ other ∈ tasks, ∀ lock' mode', other.wants = some (lock', mode') → rank lock' ≤ rank lock := by
  let wanted := tasks.filterMap LockTask.wants
  have some_wanted : wanted ≠ [] := by
    rcases waits with ⟨task, mem, wants⟩
    rcases Option.ne_none_iff_exists'.mp wants with ⟨want, wants⟩
    exact List.ne_nil_of_mem (List.mem_filterMap.mpr ⟨task, mem, wants⟩)
  cases highest : wanted.argmax fun want => rank want.1 with
  | none => exact absurd (List.argmax_eq_none.mp highest) some_wanted
  | some want =>
      rcases List.mem_filterMap.mp (List.argmax_mem highest) with ⟨task, mem, wants⟩
      refine ⟨task, mem, want.1, want.2, wants, ?_⟩
      intro other otherMem lock' mode' otherWants
      have inWanted : (lock', mode') ∈ wanted := List.mem_filterMap.mpr ⟨other, otherMem, otherWants⟩
      have le := List.le_of_mem_argmax inWanted highest
      exact le

/-- While a thread is not done, some thread can take its step, and it is no reader behind a waiting
writer. -/
theorem rising_progress (rises : AllRising rank tasks) (open' : ∃ task ∈ tasks, task.rest ≠ []) :
    ∃ k next, stepTask tasks k = some next ∧ ¬ Barred tasks k := by
  by_cases drops : ∃ task ∈ tasks, ∃ lock mode rest, task.rest = .release lock mode :: rest
  · rcases drops with ⟨task, mem, lock, mode, rest, steps⟩
    rcases List.getElem?_of_mem mem with ⟨k, found⟩
    rcases stepTask_of_grants found steps rfl with ⟨next, stepped⟩
    refine ⟨k, next, stepped, ?_⟩
    rintro ⟨other, _, found', wants, _⟩
    rw [found] at found'
    cases found'
    rw [LockTask.wants, steps] at wants
    cases wants
  · -- every thread that is not done waits for a lock
    have waits : ∀ task ∈ tasks, task.rest ≠ [] →
        ∃ lock mode rest, task.rest = .acquire lock mode :: rest := by
      intro task mem undone
      cases steps : task.rest with
      | nil => exact absurd steps undone
      | cons action rest =>
          cases action with
          | acquire lock mode => exact ⟨lock, mode, rest, rfl⟩
          | release lock mode => exact absurd ⟨task, mem, lock, mode, rest, steps⟩ drops
    have someWaits : ∃ task ∈ tasks, task.wants ≠ none := by
      rcases open' with ⟨task, mem, undone⟩
      rcases waits task mem undone with ⟨lock, mode, rest, steps⟩
      exact ⟨task, mem, by simp [LockTask.wants, steps]⟩
    rcases exists_highest rank someWaits with ⟨task, mem, lock, mode, wants, highest⟩
    -- whoever held a guard on it would wait for a lock above it
    have unheld : ∀ other ∈ tasks, ∀ guard ∈ other.held, guard.1 ≠ lock := by
      intro other otherMem guard held same
      have rise := rises other otherMem
      have undone : other.rest ≠ [] := by
        intro done
        rw [done] at rise
        have empty : other.held = [] := rise
        rw [empty] at held
        cases held
      rcases waits other otherMem undone with ⟨lock', mode', rest, steps⟩
      have le := highest other otherMem lock' mode' (by simp [LockTask.wants, steps])
      rw [steps] at rise
      have above := rise.1 guard held
      rw [same] at above
      exact absurd above (not_lt_of_ge le)
    have goes : ∀ other ∈ tasks, ∀ mode', other.wants = some (lock, mode') →
        ∃ k next, tasks[k]? = some other ∧ stepTask tasks k = some next := by
      intro other otherMem mode' otherWants
      rcases List.getElem?_of_mem otherMem with ⟨k, found⟩
      have undone : other.rest ≠ [] := by
        intro done
        rw [LockTask.wants, done] at otherWants
        cases otherWants
      rcases waits other otherMem undone with ⟨lock', mode'', rest, steps⟩
      rw [LockTask.wants, steps] at otherWants
      cases otherWants
      have granted : grants tasks (.acquire lock mode') = true := by
        apply grants_acquire.mpr
        intro holder holderMem guard held same
        exact absurd same (unheld holder holderMem guard held)
      rcases stepTask_of_grants found steps granted with ⟨next, stepped⟩
      exact ⟨k, next, found, stepped⟩
    -- a waiting writer of the lock goes first
    by_cases writes : ∃ other ∈ tasks, other.wants = some (lock, .exclusive)
    · rcases writes with ⟨writer, writerMem, writerWants⟩
      rcases goes writer writerMem _ writerWants with ⟨k, next, found, stepped⟩
      refine ⟨k, next, stepped, ?_⟩
      rintro ⟨other, _, found', wants', _⟩
      rw [found] at found'
      cases found'
      rw [writerWants] at wants'
      cases wants'
    · rcases goes task mem _ wants with ⟨k, next, found, stepped⟩
      refine ⟨k, next, stepped, ?_⟩
      rintro ⟨other, lock', found', wants', writer⟩
      rw [found] at found'
      cases found'
      rw [wants] at wants'
      cases wants'
      exact writes writer

/-- Every step is one of those that were still to come. -/
theorem remaining_step {k : Nat} (stepped : stepTask tasks k = some next) :
    remaining next + 1 = remaining tasks := by
  rcases stepTask_eq_some.mp stepped with ⟨task, action, rest, held, found, steps, _, _, rfl⟩
  rcases List.getElem?_eq_some_iff.mp found with ⟨below, at_k⟩
  have cut : tasks = tasks.take k ++ task :: tasks.drop (k + 1) := by
    rw [← at_k, List.getElem_cons_drop, List.take_append_drop]
  have moved : tasks.set k { held, rest } =
      tasks.take k ++ { held, rest } :: tasks.drop (k + 1) := by
    rw [List.set_eq_take_append_cons_drop, if_pos below]
  have count : remaining tasks = remaining (tasks.take k ++ task :: tasks.drop (k + 1)) :=
    congrArg remaining cut
  rw [count, moved]
  simp [remaining, steps]
  omega

/-- A schedule is never longer than the steps that were still to come. -/
theorem remaining_run {schedule : List Nat} (ran : runEvents stepTask tasks schedule = some next) :
    schedule.length + remaining next = remaining tasks := by
  induction schedule generalizing tasks with
  | nil =>
      cases ran
      exact Nat.zero_add _
  | cons k schedule ih =>
      rcases runEvents_cons_eq_some.mp ran with ⟨middle, stepped, rest⟩
      have one := remaining_step stepped
      have others := ih rest
      rw [List.length_cons]
      omega

/-- The threads that are done when all are: without steps and without guards. -/
def Done (tasks : List (LockTask L)) : Prop := ∀ task ∈ tasks, task.rest = [] ∧ task.held = []

theorem AllRising.done (rises : AllRising rank tasks) (ended : ∀ task ∈ tasks, task.rest = []) :
    Done tasks := by
  intro task mem
  have rise := rises task mem
  rw [ended task mem] at rise
  exact ⟨ended task mem, rise⟩

/-- From every state there is a schedule to the end, and every schedule that cannot be continued is
one. -/
theorem rising_completes (rises : AllRising rank tasks) :
    ∃ schedule final, runEvents stepTask tasks schedule = some final ∧ Done final := by
  induction work : remaining tasks generalizing tasks with
  | zero =>
      refine ⟨[], tasks, rfl, rises.done ?_⟩
      intro task mem
      have none := List.sum_eq_zero_iff_forall_eq_nat.mp work _ (List.mem_map_of_mem mem)
      exact List.length_eq_zero_iff.mp none
  | succ n ih =>
      by_cases open' : ∃ task ∈ tasks, task.rest ≠ []
      · rcases rising_progress rises open' with ⟨k, next, stepped, _⟩
        have one := remaining_step stepped
        rcases ih (allRising_step rises stepped) (by omega) with ⟨schedule, final, ran, done⟩
        exact ⟨k :: schedule, final, runEvents_cons_eq_some.mpr ⟨next, stepped, ran⟩, done⟩
      · refine ⟨[], tasks, rfl, rises.done ?_⟩
        intro task mem
        by_contra undone
        exact open' ⟨task, mem, undone⟩

end Progress

/-! ### Guards that conflict -/

omit [DecidableEq L] in
theorem LockMode.conflicts_comm (one other : LockMode) :
    one.conflicts other = other.conflicts one := by
  cases one <;> cases other <;> rfl

theorem exclusive_step {tasks next : List (LockTask L)} {k : Nat} (exclusive : Exclusive tasks)
    (stepped : stepTask tasks k = some next) : Exclusive next := by
  rcases stepTask_eq_some.mp stepped with
    ⟨task, action, rest, held, found, steps, granted, performed, rfl⟩
  -- a guard of the thread is an old one, or stands in the way of nobody
  have guards : ∀ guard ∈ held, guard ∈ task.held ∨
      ∀ other ∈ tasks, Free other.held guard.1 guard.2 := by
    intro guard mem
    cases action with
    | acquire lock mode =>
        have free := grants_acquire.mp granted
        rw [perform_acquire (free task (List.mem_of_getElem? found))] at performed
        cases performed
        rcases List.mem_cons.mp mem with rfl | earlier
        · exact .inr free
        · exact .inl earlier
    | release lock mode =>
        cases performed
        exact .inl (List.mem_of_mem_erase mem)
  have mine : ∀ (j : Nat) (other : LockTask L), j ≠ k → tasks[j]? = some other →
      ∀ guard ∈ held, Free other.held guard.1 guard.2 := by
    intro j other different there guard mem
    rcases guards guard mem with earlier | free
    · exact exclusive k j task other (Ne.symm different) found there guard earlier
    · exact free other (List.mem_of_getElem? there)
  intro i j one other different here there
  rcases getElem?_set_cases here with ⟨sameI, rfl⟩ | ⟨notI, hereOld⟩
  · rcases getElem?_set_cases there with ⟨sameJ, _⟩ | ⟨notJ, thereOld⟩
    · exact absurd (sameI.trans sameJ.symm) different
    · exact mine j other notJ thereOld
  · rcases getElem?_set_cases there with ⟨_, rfl⟩ | ⟨_, thereOld⟩
    · intro guard mem own ownMem same
      rw [LockMode.conflicts_comm]
      exact mine i one notI hereOld own ownMem guard mem same.symm
    · exact exclusive i j one other different hereOld thereOld

omit [DecidableEq L] in
/-- A thread that starts holds nothing. -/
theorem exclusive_call {tasks : List (LockTask L)} {trace : List (LockAction L)}
    (exclusive : Exclusive tasks) : Exclusive (tasks ++ [{ held := [], rest := trace }]) := by
  intro i j one other different here there
  have fresh : ∀ (j : Nat) (task : LockTask L),
      (tasks ++ [{ held := [], rest := trace }])[j]? = some task →
      tasks[j]? = some task ∨ task.held = [] := by
    intro j task found
    rw [List.getElem?_append] at found
    split at found
    · exact .inl found
    · rw [List.mem_singleton.mp (List.mem_of_getElem? found)]
      exact .inr rfl
  rcases fresh i one here with hereOld | empty
  · rcases fresh j other there with thereOld | empty
    · exact exclusive i j one other different hereOld thereOld
    · intro guard _
      rw [empty]
      exact free_nil _ _
  · intro guard mem
    rw [empty] at mem
    cases mem

/-! ### A thread that waits for itself -/

/-- The next step takes a lock that the thread itself stands in the way of. -/
def LockTask.WaitsForItself (task : LockTask L) : Prop :=
  ∃ action rest, task.rest = action :: rest ∧ action.perform task.held = none

/-- Such a thread stays where it is. -/
theorem stuck_step {tasks next : List (LockTask L)} {event : LockEvent L} {k : Nat}
    {task : LockTask L} (found : tasks[k]? = some task) (stuck : task.WaitsForItself)
    (stepped : lockStep tasks event = some next) : next[k]? = some task := by
  cases event with
  | call trace =>
      cases stepped
      rw [List.getElem?_append_left (List.getElem?_eq_some_iff.mp found).1, found]
  | step j =>
      rcases stepTask_eq_some.mp stepped with
        ⟨other, action, rest, held, there, steps, _, performed, rfl⟩
      have different : j ≠ k := by
        rintro rfl
        rw [found] at there
        cases there
        rcases stuck with ⟨action', rest', steps', blocked⟩
        rw [steps] at steps'
        cases steps'
        rw [performed] at blocked
        cases blocked
      rw [List.getElem?_set_ne different, found]

/-- The thread still has to take the lock in this mode. -/
def LockTask.Needs (task : LockTask L) (lock : L) (mode : LockMode) : Prop :=
  .acquire lock mode ∈ task.rest

/-- Behind a guard of a stuck thread, a thread that needs the lock in a conflicting mode will always
need it. -/
theorem needs_step {tasks next : List (LockTask L)} {event : LockEvent L} {k j : Nat}
    {task other : LockTask L} {guard : L × LockMode} {mode : LockMode}
    (found : tasks[k]? = some task) (held : guard ∈ task.held)
    (conflict : guard.2.conflicts mode = true) (there : tasks[j]? = some other)
    (needs : other.Needs guard.1 mode) (stepped : lockStep tasks event = some next) :
    ∃ after, next[j]? = some after ∧ after.Needs guard.1 mode := by
  cases event with
  | call trace =>
      cases stepped
      exact ⟨other, by rw [List.getElem?_append_left (List.getElem?_eq_some_iff.mp there).1, there],
        needs⟩
  | step i =>
      rcases stepTask_eq_some.mp stepped with
        ⟨moved, action, rest, held', here, steps, granted, _, rfl⟩
      by_cases same : i = j
      · subst same
        rw [there] at here
        cases here
        refine ⟨{ held := held', rest }, ?_, ?_⟩
        · rw [List.getElem?_set_self (List.getElem?_eq_some_iff.mp there).1]
        · rw [LockTask.Needs, steps] at needs
          rcases List.mem_cons.mp needs with rfl | later
          · have free := grants_acquire.mp granted task (List.mem_of_getElem? found)
            rw [free guard held rfl] at conflict
            cases conflict
          · exact later
      · exact ⟨other, by rw [List.getElem?_set_ne same, there], needs⟩

/-- So it never comes to its end. -/
theorem needs_run {tasks final : List (LockTask L)} {events : List (LockEvent L)} {k j : Nat}
    {task other : LockTask L} {guard : L × LockMode} {mode : LockMode}
    (found : tasks[k]? = some task) (stuck : task.WaitsForItself) (held : guard ∈ task.held)
    (conflict : guard.2.conflicts mode = true) (there : tasks[j]? = some other)
    (needs : other.Needs guard.1 mode) (ran : runEvents lockStep tasks events = some final) :
    ∃ after, final[j]? = some after ∧ after.Needs guard.1 mode := by
  have both := runEvents_invariant
    (fun tasks => tasks[k]? = some task ∧ ∃ after, tasks[j]? = some after ∧
      after.Needs guard.1 mode)
    (fun _ _ _ holds stepped => ⟨stuck_step holds.1 stuck stepped, by
      rcases holds.2 with ⟨after, there, needs⟩
      exact needs_step holds.1 held conflict there needs stepped⟩)
    ⟨found, other, there, needs⟩ ran
  exact both.2

/-- In every run from the state the thread at the position stays short of its end. -/
def NeverDone (tasks : List (LockTask L)) (k : Nat) : Prop :=
  ∀ events final, runEvents lockStep tasks events = some final →
    ∃ task, final[k]? = some task ∧ task.rest ≠ []

/-- Behind a guard of a thread that waits for itself nobody who needs the lock comes to the end. -/
theorem needs_neverDone {tasks : List (LockTask L)} {k j : Nat} {task other : LockTask L}
    {guard : L × LockMode} {mode : LockMode} (found : tasks[k]? = some task)
    (stuck : task.WaitsForItself) (held : guard ∈ task.held)
    (conflict : guard.2.conflicts mode = true) (there : tasks[j]? = some other)
    (needs : other.Needs guard.1 mode) : NeverDone tasks j := by
  intro events final ran
  rcases needs_run found stuck held conflict there needs ran with ⟨after, found', needs'⟩
  exact ⟨after, found', List.ne_nil_of_mem needs'⟩

/-! ### How far a thread is in its trace -/

/-- The thread has taken a front of the trace, as it would alone. -/
def LockTask.Follows (task : LockTask L) (trace : List (LockAction L)) : Prop :=
  ∃ front, trace = front ++ task.rest ∧ performAll [] front = some task.held

theorem follows_step {tasks next : List (LockTask L)} {event : LockEvent L} {k : Nat}
    {task : LockTask L} {trace : List (LockAction L)} (found : tasks[k]? = some task)
    (follows : task.Follows trace) (stepped : lockStep tasks event = some next) :
    ∃ after, next[k]? = some after ∧ after.Follows trace := by
  cases event with
  | call other =>
      cases stepped
      refine ⟨task, ?_, follows⟩
      rw [List.getElem?_append_left (List.getElem?_eq_some_iff.mp found).1, found]
  | step j =>
      rcases stepTask_eq_some.mp stepped with
        ⟨moved, action, rest, held, there, steps, _, performed, rfl⟩
      by_cases same : j = k
      · subst same
        rw [found] at there
        cases there
        rcases follows with ⟨front, split, ran⟩
        refine ⟨{ held, rest }, ?_, front ++ [action], ?_, ?_⟩
        · rw [List.getElem?_set_self (List.getElem?_eq_some_iff.mp found).1]
        · rw [split, steps, List.append_assoc]
          rfl
        · exact runEvents_snoc.mpr ⟨task.held, ran, performed⟩
      · exact ⟨task, by rw [List.getElem?_set_ne same, found], follows⟩

theorem follows_run {tasks final : List (LockTask L)} {events : List (LockEvent L)} {k : Nat}
    {task : LockTask L} {trace : List (LockAction L)} (found : tasks[k]? = some task)
    (follows : task.Follows trace) (ran : runEvents lockStep tasks events = some final) :
    ∃ after, final[k]? = some after ∧ after.Follows trace :=
  runEvents_invariant (fun tasks => ∃ task, tasks[k]? = some task ∧ task.Follows trace)
    (fun _ _ _ holds stepped => by
      rcases holds with ⟨task, found, follows⟩
      exact follows_step found follows stepped)
    ⟨task, found, follows⟩ ran

/-- A thread whose trace waits for itself never comes to its end, whatever the others do. -/
theorem blocked_neverDone {trace : List (LockAction L)} (blocked : performAll [] trace = none)
    (tasks : List (LockTask L)) : NeverDone (tasks ++ [{ held := [], rest := trace }]) tasks.length := by
  intro events final ran
  have start : (tasks ++ [{ held := [], rest := trace }])[tasks.length]? =
      some { held := [], rest := trace } := by
    simp
  have follows : LockTask.Follows { held := [], rest := trace } trace := ⟨[], rfl, rfl⟩
  rcases follows_run start follows ran with ⟨after, found, front, split, performed⟩
  refine ⟨after, found, ?_⟩
  intro done
  rw [done, List.append_nil] at split
  rw [split, performed] at blocked
  cases blocked

/-- Where a trace waits for itself is one place, so the guards held there are known. -/
theorem held_of_waits {task : LockTask L} {front rest : List (LockAction L)} {action : LockAction L}
    {middle : List (L × LockMode)} (ran : performAll [] front = some middle)
    (stops : action.perform middle = none) (follows : task.Follows (front ++ action :: rest))
    (waits : task.WaitsForItself) : task.held = middle := by
  rcases follows with ⟨other, split, performed⟩
  rcases waits with ⟨stop, later, steps, stopped⟩
  -- a front that runs cannot contain the place where another one stops
  have short : ∀ {one two tail : List (LockAction L)} {stop : LockAction L}
      {held final : List (L × LockMode)}, performAll [] one = some held →
      stop.perform held = none → performAll [] two = some final → two ≠ one ++ stop :: tail := by
    intro one two tail stop held final ranOne stops ranTwo same
    rw [same] at ranTwo
    rcases performAll_append.mp ranTwo with ⟨between, first, second⟩
    rw [ranOne] at first
    cases first
    rw [performAll_cons_blocked stops] at second
    cases second
  rw [steps] at split
  rcases List.append_eq_append_iff.mp split with ⟨more, longer, tail⟩ | ⟨more, longer, tail⟩
  · cases more with
    | nil =>
        rw [List.append_nil] at longer
        rw [longer, ran] at performed
        exact (Option.some.inj performed).symm
    | cons next more =>
        cases tail
        exact absurd longer (short ran stops performed)
  · cases more with
    | nil =>
        rw [List.append_nil] at longer
        rw [longer, performed] at ran
        exact Option.some.inj ran
    | cons next more =>
        cases tail
        exact absurd longer (short performed stopped ran)

/-! ### A thread alone -/

/-- Where a trace stops when it waits for itself. -/
theorem stops_of_none {held : List (L × LockMode)} {trace : List (LockAction L)}
    (blocked : performAll held trace = none) :
    ∃ front action rest middle, trace = front ++ action :: rest ∧
      performAll held front = some middle ∧ action.perform middle = none := by
  induction trace generalizing held with
  | nil => cases blocked
  | cons action trace ih =>
      cases performed : action.perform held with
      | none => exact ⟨[], action, trace, held, rfl, rfl, performed⟩
      | some after =>
          rw [performAll_cons performed] at blocked
          rcases ih blocked with ⟨front, stop, rest, middle, split, ran, stopped⟩
          refine ⟨action :: front, stop, rest, middle, by rw [split]; rfl, ?_, stopped⟩
          rw [performAll_cons performed, ran]

/-- A guard is kept by steps that do not drop it. -/
theorem mem_of_performAll {held final : List (L × LockMode)} {trace : List (LockAction L)}
    {guard : L × LockMode} (mem : guard ∈ held) (kept : .release guard.1 guard.2 ∉ trace)
    (ran : performAll held trace = some final) : guard ∈ final := by
  induction trace generalizing held with
  | nil =>
      cases ran
      exact mem
  | cons action trace ih =>
      rcases runEvents_cons_eq_some.mp ran with ⟨after, performed, rest⟩
      apply ih _ (fun later => kept (List.mem_cons_of_mem action later)) rest
      cases action with
      | acquire lock mode =>
          simp only [LockAction.perform] at performed
          split at performed
          · cases performed
          · cases performed
            exact List.mem_cons_of_mem _ mem
      | release lock mode =>
          cases performed
          apply (List.mem_erase_of_ne _).mpr mem
          rintro rfl
          exact kept List.mem_cons_self

/-- A thread that runs alone goes as far as its trace does. -/
theorem run_alone {held final : List (L × LockMode)} {front : List (LockAction L)}
    (rest : List (LockAction L)) (ran : performAll held front = some final) :
    runEvents lockStep [{ held, rest := front ++ rest }]
      (List.replicate front.length (.step 0)) = some [{ held := final, rest }] := by
  induction front generalizing held with
  | nil =>
      cases ran
      rfl
  | cons action front ih =>
      rcases runEvents_cons_eq_some.mp ran with ⟨after, performed, onward⟩
      have granted : grants [{ held, rest := action :: front ++ rest }] action = true := by
        cases action with
        | release lock mode => rfl
        | acquire lock mode =>
            apply grants_acquire.mpr
            intro task mem
            rw [List.mem_singleton.mp mem]
            by_contra taken
            rw [perform_acquire_blocked taken] at performed
            cases performed
      have stepped : stepTask [{ held, rest := action :: front ++ rest }] 0 =
          some [{ held := after, rest := front ++ rest }] :=
        stepTask_eq_some.mpr ⟨_, action, front ++ rest, after, rfl, rfl, granted, performed, rfl⟩
      rw [List.length_cons, List.replicate_succ]
      exact runEvents_cons_eq_some.mpr ⟨_, stepped, ih onward⟩

end ModelDistribution.Foundation
