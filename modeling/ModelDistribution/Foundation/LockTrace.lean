/-
Module: ModelDistribution.Foundation.LockTrace
Layer: Foundation
Purpose: Reader-writer locks that are not re-entrant, seen by one thread. An operation is the list of
  acquire and release steps its body performs; running it keeps the guards it holds and stops at an
  acquisition that conflicts with one of them. Balanced traces return the guards they started with.
Imports: ModelDistribution.Foundation.Machine
Trusted boundary: human-reviewed spec
Main exports: LockMode, LockAction, LockAction.perform, Balanced, Free, balanced_bracket,
  scanGuards, balanced_scan, balanced_scan_of_stop, scan_blocks, mem_scanGuards
-/
import ModelDistribution.Foundation.Machine

namespace ModelDistribution.Foundation

/-- A guard is held for reading or for writing. -/
inductive LockMode where
  | shared
  | exclusive
deriving DecidableEq, Repr

/-- Two guards on one lock conflict unless both are for reading. -/
def LockMode.conflicts : LockMode → LockMode → Bool
  | .shared, .shared => false
  | _, _ => true

/-- One step of a thread on the locks named by `L`. -/
inductive LockAction (L : Type) where
  | acquire (lock : L) (mode : LockMode)
  | release (lock : L) (mode : LockMode)
deriving DecidableEq, Repr

variable {L : Type} [DecidableEq L]

/-- The guards after one step; `none` when the thread would wait for itself. -/
def LockAction.perform (held : List (L × LockMode)) : LockAction L → Option (List (L × LockMode))
  | .acquire lock mode =>
      if held.any fun guard => decide (guard.1 = lock) && guard.2.conflicts mode then none
      else some ((lock, mode) :: held)
  | .release lock mode => some (held.erase (lock, mode))

/-- The guards after a whole trace; `none` when some acquisition waits for the thread itself. -/
def performAll (held : List (L × LockMode)) (trace : List (LockAction L)) :
    Option (List (L × LockMode)) :=
  runEvents LockAction.perform held trace

/-- The trace runs to its end and gives back exactly the guards it took. -/
def Balanced (held : List (L × LockMode)) (trace : List (LockAction L)) : Prop :=
  performAll held trace = some held

/-- No held guard conflicts with taking the lock in this mode. -/
def Free (held : List (L × LockMode)) (lock : L) (mode : LockMode) : Prop :=
  ∀ guard ∈ held, guard.1 = lock → guard.2.conflicts mode = false

omit [DecidableEq L] in
theorem free_nil (lock : L) (mode : LockMode) : Free [] lock mode := by
  simp [Free]

omit [DecidableEq L] in
theorem free_cons {guard : L × LockMode} {held : List (L × LockMode)} {lock : L} {mode : LockMode} :
    Free (guard :: held) lock mode ↔
      (guard.1 = lock → guard.2.conflicts mode = false) ∧ Free held lock mode := by
  simp [Free]

omit [DecidableEq L] in
theorem free_cons_of_ne {guard : L × LockMode} {held : List (L × LockMode)} {lock : L}
    {mode : LockMode} (different : guard.1 ≠ lock) (free : Free held lock mode) :
    Free (guard :: held) lock mode :=
  free_cons.mpr ⟨fun same => absurd same different, free⟩

theorem perform_acquire {held : List (L × LockMode)} {lock : L} {mode : LockMode}
    (free : Free held lock mode) :
    LockAction.perform held (.acquire lock mode) = some ((lock, mode) :: held) := by
  refine if_neg ?_
  rw [Bool.not_eq_true, List.any_eq_false]
  rintro guard mem
  simpa using free guard mem

/-- Taking a lock that is held in a conflicting mode stops the thread. -/
theorem perform_acquire_blocked {held : List (L × LockMode)} {lock : L} {mode : LockMode}
    (taken : ¬ Free held lock mode) :
    LockAction.perform held (.acquire lock mode) = none := by
  refine if_pos ?_
  rw [List.any_eq_true]
  unfold Free at taken
  push Not at taken
  obtain ⟨guard, mem, same, conflict⟩ := taken
  exact ⟨guard, mem, by simpa [same] using conflict⟩

theorem perform_release_head (held : List (L × LockMode)) (lock : L) (mode : LockMode) :
    LockAction.perform ((lock, mode) :: held) (.release lock mode) = some held := by
  simp [LockAction.perform]

/-- The guard below the newest one can be dropped first. -/
theorem perform_release_second (guard : L × LockMode) (held : List (L × LockMode)) (lock : L)
    (mode : LockMode) :
    LockAction.perform (guard :: (lock, mode) :: held) (.release lock mode) =
      some (guard :: held) := by
  by_cases same : guard = (lock, mode)
  · simp [LockAction.perform, same]
  · have different : (guard == (lock, mode)) = false := by simpa using same
    simp [LockAction.perform, different]

/-! ### Composing traces -/

theorem performAll_append {held final : List (L × LockMode)} {first second : List (LockAction L)} :
    performAll held (first ++ second) = some final ↔
      ∃ middle, performAll held first = some middle ∧ performAll middle second = some final :=
  runEvents_append

theorem performAll_cons {held next : List (L × LockMode)} {action : LockAction L}
    {trace : List (LockAction L)} (stepped : LockAction.perform held action = some next) :
    performAll held (action :: trace) = performAll next trace := by
  simp [performAll, runEvents, stepped]

theorem performAll_of_balanced {held : List (L × LockMode)} {first second : List (LockAction L)}
    (balanced : Balanced held first) :
    performAll held (first ++ second) = performAll held second := by
  refine Option.ext fun final => ?_
  rw [performAll_append, balanced]
  simp

theorem performAll_cons_blocked {held : List (L × LockMode)} {action : LockAction L}
    (stuck : LockAction.perform held action = none) (rest : List (LockAction L)) :
    performAll held (action :: rest) = none := by
  simp [performAll, runEvents, stuck]

theorem performAll_blocked_append {held : List (L × LockMode)} {first : List (LockAction L)}
    (stuck : performAll held first = none) (second : List (LockAction L)) :
    performAll held (first ++ second) = none := by
  refine Option.eq_none_iff_forall_ne_some.mpr fun final reached => ?_
  obtain ⟨middle, ranFirst, _⟩ := performAll_append.mp reached
  rw [stuck] at ranFirst
  cases ranFirst

theorem balanced_nil (held : List (L × LockMode)) : Balanced held ([] : List (LockAction L)) := rfl

theorem Balanced.append {held : List (L × LockMode)} {first second : List (LockAction L)}
    (one : Balanced held first) (two : Balanced held second) : Balanced held (first ++ second) :=
  performAll_append.mpr ⟨held, one, two⟩

theorem balanced_flatMap {α : Type} {held : List (L × LockMode)} {trace : α → List (LockAction L)}
    {items : List α} (each : ∀ item ∈ items, Balanced held (trace item)) :
    Balanced held (items.flatMap trace) := by
  induction items with
  | nil => exact balanced_nil held
  | cons item items ih =>
      rw [List.flatMap_cons]
      exact (each item (by simp)).append (ih fun other mem => each other (by simp [mem]))

/-- A guard around a balanced body is balanced when the lock is free. -/
theorem balanced_bracket {held : List (L × LockMode)} {lock : L} {mode : LockMode}
    {body : List (LockAction L)} (free : Free held lock mode)
    (inner : Balanced ((lock, mode) :: held) body) :
    Balanced held (.acquire lock mode :: body ++ [.release lock mode]) := by
  unfold Balanced
  rw [List.cons_append, performAll_cons (perform_acquire free), performAll_of_balanced inner,
    performAll_cons (perform_release_head held lock mode)]
  rfl

/-- Taking a free lock and dropping it at once. -/
theorem balanced_touch {held : List (L × LockMode)} {lock : L} {mode : LockMode}
    (free : Free held lock mode) : Balanced held [.acquire lock mode, .release lock mode] :=
  balanced_bracket free (balanced_nil _)

/-! ### Scans that walk from guard to guard -/

/-- Drop the guard a scan still holds. -/
def dropGuard (guard : Nat → L) : Option Nat → List (LockAction L)
  | none => []
  | some s => [.release (guard s) .shared]

/-- Read-lock the positions one after another; each new guard is taken before the previous one is
dropped, and the scan ends early behind a position where it is told to stop. -/
def scanGuards (guard : Nat → L) (body : Nat → List (LockAction L)) (stop : Nat → Bool) :
    Option Nat → List Nat → List (LockAction L)
  | previous, [] => dropGuard guard previous
  | previous, s :: rest =>
      .acquire (guard s) .shared :: dropGuard guard previous ++ body s ++
        (if stop s then dropGuard guard (some s) else scanGuards guard body stop (some s) rest)

/-- The guards a scan holds between two positions. -/
def scanHeld (guard : Nat → L) (held : List (L × LockMode)) : Option Nat → List (L × LockMode)
  | none => held
  | some s => (guard s, .shared) :: held

omit [DecidableEq L] in
/-- Read guards of the scan itself never stand in the way of its next read guard. -/
theorem free_scanHeld {guard : Nat → L} {held : List (L × LockMode)} {previous : Option Nat}
    {lock : L} (free : Free held lock .shared) :
    Free (scanHeld guard held previous) lock .shared := by
  cases previous with
  | none => exact free
  | some s => exact free_cons.mpr ⟨fun _ => rfl, free⟩

theorem dropGuard_runs (guard : Nat → L) (held : List (L × LockMode)) (previous : Option Nat) :
    performAll (scanHeld guard held previous) (dropGuard guard previous) = some held := by
  cases previous with
  | none => rfl
  | some s => exact performAll_cons (perform_release_head held _ _)

/-- Moving on to a free position replaces the guard that is held. -/
theorem scan_advance {guard : Nat → L} {held : List (L × LockMode)} {previous : Option Nat} {s : Nat}
    {rest : List (LockAction L)} (free : Free held (guard s) .shared) :
    performAll (scanHeld guard held previous)
        (.acquire (guard s) .shared :: dropGuard guard previous ++ rest) =
      performAll (scanHeld guard held (some s)) rest := by
  rw [List.cons_append, performAll_cons (perform_acquire (free_scanHeld free))]
  cases previous with
  | none => rfl
  | some p =>
      exact performAll_cons (perform_release_second (guard s, .shared) held (guard p) .shared)

/-- A scan over free positions with balanced bodies drops everything it took. -/
theorem scanGuards_balanced {guard : Nat → L} {body : Nat → List (LockAction L)}
    {stop : Nat → Bool} {held : List (L × LockMode)} {positions : List Nat}
    (free : ∀ s ∈ positions, Free held (guard s) .shared)
    (bodies : ∀ s ∈ positions, Balanced (scanHeld guard held (some s)) (body s))
    (previous : Option Nat) :
    performAll (scanHeld guard held previous) (scanGuards guard body stop previous positions) =
      some held := by
  induction positions generalizing previous with
  | nil => exact dropGuard_runs guard held previous
  | cons s rest ih =>
      rw [scanGuards, List.append_assoc, scan_advance (free s (by simp)),
        performAll_of_balanced (bodies s (by simp))]
      by_cases stopped : stop s = true
      · rw [if_pos stopped]
        exact dropGuard_runs guard held (some s)
      · rw [if_neg stopped]
        exact ih (fun t mem => free t (by simp [mem])) (fun t mem => bodies t (by simp [mem])) _

omit [DecidableEq L] in
/-- A scan that stops in front of a position never gets there. -/
theorem scanGuards_append_of_stop {guard : Nat → L} {body : Nat → List (LockAction L)}
    {stop : Nat → Bool} {before after : List Nat} (stops : ∃ s ∈ before, stop s = true)
    (previous : Option Nat) :
    scanGuards guard body stop previous (before ++ after) =
      scanGuards guard body stop previous before := by
  induction before generalizing previous with
  | nil => simp at stops
  | cons s rest ih =>
      rw [List.cons_append, scanGuards, scanGuards]
      by_cases stopped : stop s = true
      · rw [if_pos stopped, if_pos stopped]
      · rw [if_neg stopped, if_neg stopped, ih]
        obtain ⟨t, mem, tStops⟩ := stops
        rcases List.mem_cons.mp mem with rfl | later
        · exact absurd tStops stopped
        · exact ⟨t, later, tStops⟩

/-- A scan that walks up to a position whose lock is held for writing waits for itself there. -/
theorem scanGuards_blocks {guard : Nat → L} {body : Nat → List (LockAction L)}
    {stop : Nat → Bool} {held : List (L × LockMode)} {before after : List Nat} {s : Nat}
    (free : ∀ t ∈ before, Free held (guard t) .shared)
    (bodies : ∀ t ∈ before, Balanced (scanHeld guard held (some t)) (body t))
    (walks : ∀ t ∈ before, stop t = false) (taken : (guard s, LockMode.exclusive) ∈ held)
    (previous : Option Nat) :
    performAll (scanHeld guard held previous)
      (scanGuards guard body stop previous (before ++ s :: after)) = none := by
  induction before generalizing previous with
  | nil =>
      rw [List.nil_append, scanGuards, List.cons_append, List.cons_append]
      refine performAll_cons_blocked (perform_acquire_blocked fun free' => ?_) _
      have inScan : (guard s, LockMode.exclusive) ∈ scanHeld guard held previous := by
        cases previous with
        | none => exact taken
        | some p => exact List.mem_cons_of_mem _ taken
      simpa [LockMode.conflicts] using free' _ inScan rfl
  | cons t rest ih =>
      rw [List.cons_append, scanGuards, List.append_assoc, scan_advance (free t (by simp)),
        performAll_of_balanced (bodies t (by simp)), if_neg (by simp [walks t (by simp)])]
      exact ih (fun u mem => free u (by simp [mem])) (fun u mem => bodies u (by simp [mem]))
        (fun u mem => walks u (by simp [mem])) _

/-- A scan from its beginning over free positions with balanced bodies is balanced. -/
theorem balanced_scan {guard : Nat → L} {body : Nat → List (LockAction L)}
    {stop : Nat → Bool} {held : List (L × LockMode)} {positions : List Nat}
    (free : ∀ s ∈ positions, Free held (guard s) .shared)
    (bodies : ∀ s ∈ positions, Balanced ((guard s, .shared) :: held) (body s)) :
    Balanced held (scanGuards guard body stop none positions) :=
  scanGuards_balanced free bodies none

/-- A scan over all positions below `n`, cut in front of position `s`. -/
theorem range_split {s n : Nat} (below : s ≤ n) :
    List.range n = List.range s ++ List.range' s (n - s) := by
  have joined := List.range'_append_1 (s := 0) (m := s) (n := n - s)
  rw [Nat.zero_add, Nat.add_sub_cancel' below] at joined
  rw [List.range_eq_range', List.range_eq_range']
  exact joined.symm

/-- A scan over all positions below `n` that stops in front of position `s` is balanced if the
positions below `s` are free and have balanced bodies. -/
theorem balanced_scan_of_stop {guard : Nat → L} {body : Nat → List (LockAction L)}
    {stop : Nat → Bool} {held : List (L × LockMode)} {s n : Nat} (below : s ≤ n)
    (free : ∀ t < s, Free held (guard t) .shared)
    (bodies : ∀ t < s, Balanced ((guard t, .shared) :: held) (body t))
    (stops : ∃ t < s, stop t = true) :
    Balanced held (scanGuards guard body stop none (List.range n)) := by
  rw [range_split below, scanGuards_append_of_stop]
  · apply balanced_scan
    · intro t mem
      exact free t (List.mem_range.mp mem)
    · intro t mem
      exact bodies t (List.mem_range.mp mem)
  · obtain ⟨t, before, stopped⟩ := stops
    exact ⟨t, List.mem_range.mpr before, stopped⟩

/-- A scan over all positions below `n` that walks up to a write-locked position blocks. -/
theorem scan_blocks {guard : Nat → L} {body : Nat → List (LockAction L)} {stop : Nat → Bool}
    {held : List (L × LockMode)} {s n : Nat} (below : s < n)
    (free : ∀ t < s, Free held (guard t) .shared)
    (bodies : ∀ t < s, Balanced ((guard t, .shared) :: held) (body t))
    (walks : ∀ t < s, stop t = false) (taken : (guard s, LockMode.exclusive) ∈ held) :
    performAll held (scanGuards guard body stop none (List.range n)) = none := by
  obtain ⟨more, rfl⟩ : ∃ more, n = s + (more + 1) := ⟨n - s - 1, by omega⟩
  rw [range_split (Nat.le_add_right s (more + 1)), Nat.add_sub_cancel_left, List.range'_succ]
  apply scanGuards_blocks _ _ _ taken none
  · intro t mem
    exact free t (List.mem_range.mp mem)
  · intro t mem
    exact bodies t (List.mem_range.mp mem)
  · intro t mem
    exact walks t (List.mem_range.mp mem)

/-! ### What a scan contains -/

omit [DecidableEq L] in
/-- A scan that never stops takes the guard of each position and does its body. -/
theorem mem_scanGuards {guard : Nat → L} {body : Nat → List (LockAction L)} {stop : Nat → Bool}
    {positions : List Nat} {s : Nat} {action : LockAction L}
    (walks : ∀ t ∈ positions, stop t = false) (mem : s ∈ positions)
    (does : action = .acquire (guard s) .shared ∨ action ∈ body s) (previous : Option Nat) :
    action ∈ scanGuards guard body stop previous positions := by
  induction positions generalizing previous with
  | nil => cases mem
  | cons t rest ih =>
      rw [scanGuards, walks t (by simp)]
      rcases List.mem_cons.mp mem with rfl | later
      · rcases does with rfl | inBody
        · simp
        · simp [inBody]
      · simp [ih (fun u mem => walks u (by simp [mem])) later (some t)]

omit [DecidableEq L] in
/-- A scan drops its own read guards and what its bodies drop. -/
theorem release_of_mem_scanGuards {guard : Nat → L} {body : Nat → List (LockAction L)}
    {stop : Nat → Bool} {positions : List Nat} {lock : L} {mode : LockMode} {previous : Option Nat}
    (mem : .release lock mode ∈ scanGuards guard body stop previous positions) :
    mode = .shared ∨ ∃ s ∈ positions, .release lock mode ∈ body s := by
  have dropped : ∀ previous, LockAction.release lock mode ∈ dropGuard guard previous →
      mode = .shared := by
    intro previous mem
    cases previous with
    | none => cases mem
    | some s =>
        cases List.mem_singleton.mp mem
        rfl
  induction positions generalizing previous with
  | nil => exact .inl (dropped previous mem)
  | cons s rest ih =>
      rw [scanGuards, List.cons_append, List.cons_append, List.append_assoc] at mem
      rcases List.mem_cons.mp mem with same | mem
      · cases same
      · rcases List.mem_append.mp mem with drops | mem
        · exact .inl (dropped previous drops)
        · rcases List.mem_append.mp mem with inBody | mem
          · exact .inr ⟨s, by simp, inBody⟩
          · split at mem
            · exact .inl (dropped (some s) mem)
            · rcases ih mem with shared | ⟨t, later, inBody⟩
              · exact .inl shared
              · exact .inr ⟨t, by simp [later], inBody⟩

end ModelDistribution.Foundation
