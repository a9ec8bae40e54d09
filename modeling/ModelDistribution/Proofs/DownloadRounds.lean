/-
Module: ModelDistribution.Proofs.DownloadRounds
Layer: Proofs
Purpose: The download loop without the inside of its tasks: the bitmap, the place of the loop, and the
  chunks that have a live task. The download machine refines the machine on these views, and what
  rounds of it keep is proved there: live and pending chunks are distinct and still missing.
Imports: ModelDistribution.Proofs.DownloadEffect, ModelDistribution.Proofs.BitmapSequence,
  ModelDistribution.Foundation.Behaviour
Trusted boundary: none
Main exports: RoundView, Downloader.view, RoundStep, step_view, RoundInvariant, RoundInvariant.effect,
  RoundInvariant.step, loopStep_enabled, RoundView.EndsBy, Downloader.Fair, Downloader.keeps_of_step,
  Downloader.Fair.next_step, Downloader.Fair.reaches
-/
import ModelDistribution.Proofs.DownloadEffect
import ModelDistribution.Proofs.BitmapSequence
import ModelDistribution.Foundation.Behaviour

namespace ModelDistribution

open Foundation

/-- What the loop of `run` depends on: the bitmap, its own place, and the chunks with a live task. -/
structure RoundView where
  bitmap : ChunkBitmap
  loop : LoopPc
  live : List UInt32

/-- The view of a download. -/
def Downloader.view (state : Downloader) : RoundView where
  bitmap := state.bitmap
  loop := state.loop
  live := state.tasks.map Task.chunk

/-- How far the loop is from the end of its round. -/
def LoopPc.phase : LoopPc → Nat
  | .returned => 0
  | .check => 1
  | .joining => 2
  | .acquiring _ _ => 2
  | .spawning _ => 3

/-- Everything that can change in a view. -/
inductive RoundStep (concurrency : Nat) : RoundView → RoundView → Prop where
  | returns {bitmap : ChunkBitmap} {live : List UInt32} (complete : bitmap.isComplete = true) :
      RoundStep concurrency ⟨bitmap, .check, live⟩ ⟨bitmap, .returned, live⟩
  | chooses {bitmap : ChunkBitmap} {live : List UInt32} (incomplete : bitmap.isComplete = false) :
      RoundStep concurrency ⟨bitmap, .check, live⟩
        ⟨bitmap, .spawning (bitmap.missing.take (concurrency * 2)), live⟩
  | skips {bitmap : ChunkBitmap} {live rest : List UInt32} {chunk : UInt32}
      (present : bitmap.has chunk = .ok true) :
      RoundStep concurrency ⟨bitmap, .spawning (chunk :: rest), live⟩ ⟨bitmap, .spawning rest, live⟩
  | awaits {bitmap : ChunkBitmap} {live rest : List UInt32} {chunk : UInt32}
      (absent : bitmap.has chunk = .ok false) :
      RoundStep concurrency ⟨bitmap, .spawning (chunk :: rest), live⟩
        ⟨bitmap, .acquiring chunk rest, live⟩
  | spawns {bitmap : ChunkBitmap} {live rest : List UInt32} {chunk : UInt32}
      (permit : live.length < concurrency) :
      RoundStep concurrency ⟨bitmap, .acquiring chunk rest, live⟩
        ⟨bitmap, .spawning rest, live ++ [chunk]⟩
  | joins {bitmap : ChunkBitmap} {live : List UInt32} :
      RoundStep concurrency ⟨bitmap, .spawning [], live⟩ ⟨bitmap, .joining, live⟩
  | repeats {bitmap : ChunkBitmap} :
      RoundStep concurrency ⟨bitmap, .joining, []⟩ ⟨bitmap, .check, []⟩
  /-- A task ends without its chunk. -/
  | fails {bitmap : ChunkBitmap} {loop : LoopPc} {live : List UInt32} (k : Nat) (chunk : UInt32)
      (found : live[k]? = some chunk) :
      RoundStep concurrency ⟨bitmap, loop, live⟩ ⟨bitmap, loop, live.eraseIdx k⟩
  /-- A task marks its chunk and ends. -/
  | marks {bitmap : ChunkBitmap} {loop : LoopPc} {live : List UInt32} (k : Nat) (chunk : UInt32)
      {fresh : Bool} {marked : ChunkBitmap} (found : live[k]? = some chunk)
      (result : bitmap.markComplete chunk = .ok (fresh, marked)) :
      RoundStep concurrency ⟨bitmap, loop, live⟩ ⟨marked, loop, live.eraseIdx k⟩

/-- No step of a view loses bits of the storage. -/
theorem RoundStep.full {concurrency : Nat} {view next : RoundView}
    (stepped : RoundStep concurrency view next) (full : view.bitmap.Full) : next.bitmap.Full := by
  cases stepped with
  | marks k chunk found result =>
      obtain ⟨_, _, returned, raised, _⟩ := ChunkBitmap.markComplete_raises full chunk
      rw [returned] at result
      cases result
      exact raised.full full
  | _ => exact full

/-! ### The machine refines its views -/

/-- Every step of the loop is a step of the view. -/
theorem loopStep_view {cfg : DownloaderConfig} {state next : Downloader}
    (stepped : state.loopStep cfg = some next) :
    RoundStep cfg.concurrency.toNat state.view next.view := by
  obtain ⟨bitmap, disk, loop, tasks⟩ := state
  cases loop with
  | check =>
      simp only [Downloader.loopStep] at stepped
      split at stepped
      · rename_i complete
        cases stepped
        exact .returns complete
      · rename_i incomplete
        cases stepped
        exact .chooses (Bool.eq_false_iff.mpr incomplete)
  | spawning chosen =>
      cases chosen with
      | nil =>
          cases stepped
          exact .joins
      | cons chunk rest =>
          simp only [Downloader.loopStep] at stepped
          split at stepped
          · rename_i present
            cases stepped
            exact .skips present
          · rename_i absent
            cases stepped
            exact .awaits absent
          · cases stepped
  | acquiring chunk rest =>
      simp only [Downloader.loopStep] at stepped
      split at stepped
      · rename_i permit
        cases stepped
        have grown : Downloader.view ⟨bitmap, disk, .spawning rest,
            tasks ++ [{ chunk, attempt := 0, pc := .askTracker }]⟩ =
              ⟨bitmap, .spawning rest, tasks.map Task.chunk ++ [chunk]⟩ := by
          simp [Downloader.view]
        rw [grown]
        exact .spawns (by simpa using permit)
      · cases stepped
  | joining =>
      simp only [Downloader.loopStep] at stepped
      split at stepped
      · rename_i empty
        cases stepped
        cases List.isEmpty_iff.mp empty
        exact .repeats
      · cases stepped
  | returned => cases stepped

/-- A task that moves keeps its chunk, and one that ends leaves the list. -/
theorem view_putTask {state : Downloader} {k : Nat} {task : Task} {result : Option Task}
    (concurrency : Nat) (disk : String → Option (List UInt8)) (found : state.tasks[k]? = some task)
    (sameChunk : ∀ next, result = some next → next.chunk = task.chunk) :
    let next : Downloader := { state with disk, tasks := putTask state.tasks k result }
    next.view = state.view ∨ RoundStep concurrency state.view next.view := by
  have chunkAt : (state.tasks.map Task.chunk)[k]? = some task.chunk := by
    rw [List.getElem?_map, found, Option.map_some]
  cases result with
  | none =>
      have shrunk : (putTask state.tasks k none).map Task.chunk =
          (state.tasks.map Task.chunk).eraseIdx k := (List.eraseIdx_map ..).symm
      refine .inr ?_
      simp only [Downloader.view, shrunk]
      exact .fails k task.chunk chunkAt
  | some moved =>
      have unchanged : (putTask state.tasks k (some moved)).map Task.chunk =
          state.tasks.map Task.chunk := by
        rw [putTask, List.map_set, sameChunk moved rfl]
        obtain ⟨inside, here⟩ := List.getElem?_eq_some_iff.mp chunkAt
        rw [← here]
        exact List.set_getElem_self inside
      refine .inl ?_
      simp only [Downloader.view, unchanged]

/-- Every step of the machine leaves its view alone or is a step of the view. -/
theorem step_view {platform : Platform} {cfg : DownloaderConfig} {state next : Downloader}
    {event : DownloadEvent} (stepped : state.step platform cfg event = some next) :
    next.view = state.view ∨ RoundStep cfg.concurrency.toNat state.view next.view := by
  cases step_effect stepped with
  | returns atCheck complete => exact .inr (loopStep_view stepped)
  | chooses n atCheck => exact .inr (loopStep_view stepped)
  | loopMoves next pending notReturned joined => exact .inr (loopStep_view stepped)
  | spawns chunk rest atAcquire => exact .inr (loopStep_view stepped)
  | taskMoves k task result found moves =>
      exact view_putTask _ state.disk found fun moved eq => (moves moved eq).sameChunk
  | taskWrites k task content data rest found persisting => exact .inl rfl
  | taskFails k task content result found moves =>
      exact view_putTask _ _ found fun moved eq => (moves moved eq).sameChunk
  | taskWritten k task data rest found persisting =>
      refine view_putTask _ _ found ?_
      intro moved eq
      cases eq
      rfl
  | taskMarks k task fresh marked found marking result =>
      have chunkAt : (state.tasks.map Task.chunk)[k]? = some task.chunk := by
        rw [List.getElem?_map, found, Option.map_some]
      have shrunk : (putTask state.tasks k none).map Task.chunk =
          (state.tasks.map Task.chunk).eraseIdx k := (List.eraseIdx_map ..).symm
      refine .inr ?_
      simp only [Downloader.view, shrunk]
      exact .marks k task.chunk chunkAt result

/-! ### What rounds keep -/

/-- Live and pending chunks are distinct and missing, and there are none between two rounds. -/
structure RoundInvariant (n : UInt32) (view : RoundView) : Prop where
  chunkCount : view.bitmap.chunkCount = n
  distinct : view.live.Nodup
  unset : ∀ i ∈ view.live, i < n ∧ view.bitmap.has i = .ok false
  pendingDistinct : view.loop.pending.Nodup
  pendingUnset : ∀ i ∈ view.loop.pending, i < n ∧ view.bitmap.has i = .ok false
  pendingFree : ∀ i ∈ view.loop.pending, i ∉ view.live
  idle : view.loop = .check ∨ view.loop = .returned → view.live = []
  done : view.loop = .returned → view.bitmap.isComplete = true

/-- The task of a chunk ends: it leaves the list, and at most its own bit changes. -/
structure RoundView.Ends (view : RoundView) (chunk : UInt32) (next : RoundView) : Prop where
  live : chunk ∈ view.live
  sameLoop : next.loop = view.loop
  sameCount : next.bitmap.chunkCount = view.bitmap.chunkCount
  sublist : next.live.Sublist view.live
  shorter : next.live.length < view.live.length
  left : ∀ i, i ∈ next.live ↔ i ∈ view.live ∧ i ≠ chunk
  frame : ∀ i, i ≠ chunk → next.bitmap.has i = view.bitmap.has i

/-- What is left of a list without the element at a position. -/
theorem mem_eraseIdx_of_nodup {live : List UInt32} (distinct : live.Nodup) {k : Nat}
    {chunk i : UInt32} (found : live[k]? = some chunk) :
    i ∈ live.eraseIdx k ↔ i ∈ live ∧ i ≠ chunk := by
  rw [List.mem_eraseIdx_iff_getElem?]
  constructor
  · rintro ⟨j, different, at_j⟩
    refine ⟨List.mem_of_getElem? at_j, ?_⟩
    rintro rfl
    obtain ⟨inside, _⟩ := List.getElem?_eq_some_iff.mp at_j
    exact different ((List.getElem?_inj inside distinct).mp (at_j.trans found.symm))
  · rintro ⟨mem, different⟩
    obtain ⟨j, at_j⟩ := List.getElem?_of_mem mem
    refine ⟨j, ?_, at_j⟩
    rintro rfl
    rw [found] at at_j
    exact different (Option.some.inj at_j).symm

theorem ends_of_eraseIdx {bitmap marked : ChunkBitmap} {loop : LoopPc} {live : List UInt32}
    {k : Nat} {chunk : UInt32} (distinct : live.Nodup) (found : live[k]? = some chunk)
    (sameCount : marked.chunkCount = bitmap.chunkCount)
    (frame : ∀ i, i ≠ chunk → marked.has i = bitmap.has i) :
    RoundView.Ends ⟨bitmap, loop, live⟩ chunk ⟨marked, loop, live.eraseIdx k⟩ where
  live := List.mem_of_getElem? found
  sameLoop := rfl
  sameCount := sameCount
  sublist := List.eraseIdx_sublist live k
  shorter := by
    obtain ⟨inside, _⟩ := List.getElem?_eq_some_iff.mp found
    have := List.length_eraseIdx_add_one inside
    exact Nat.lt_of_lt_of_eq (Nat.lt_succ_self _) this
  left _ := mem_eraseIdx_of_nodup distinct found
  frame := frame

/-- The three kinds of steps: the loop moves on, the loop spawns a task, or a task ends. -/
inductive RoundEffect (view next : RoundView) : Prop where
  | moves (sameBitmap : next.bitmap = view.bitmap) (sameLive : next.live = view.live)
  | spawns (chunk : UInt32) (rest : List UInt32) (before : view.loop = .acquiring chunk rest)
      (after : next = ⟨view.bitmap, .spawning rest, view.live ++ [chunk]⟩)
  | ends (chunk : UInt32) (ends : view.Ends chunk next)

namespace RoundInvariant

variable {n : UInt32} {concurrency : Nat} {bitmap : ChunkBitmap} {loop : LoopPc}
  {live : List UInt32}

/-- Where a round begins. -/
theorem start (count : bitmap.chunkCount = n) : RoundInvariant n ⟨bitmap, .check, []⟩ := by
  constructor <;> simp [LoopPc.pending, count]

theorem fails {k : Nat} {chunk : UInt32} (inv : RoundInvariant n ⟨bitmap, loop, live⟩)
    (found : live[k]? = some chunk) :
    RoundView.Ends ⟨bitmap, loop, live⟩ chunk ⟨bitmap, loop, live.eraseIdx k⟩ :=
  ends_of_eraseIdx inv.distinct found rfl fun _ _ => rfl

theorem marks {k : Nat} {chunk : UInt32} {fresh : Bool} {marked : ChunkBitmap}
    (inv : RoundInvariant n ⟨bitmap, loop, live⟩) (found : live[k]? = some chunk)
    (result : bitmap.markComplete chunk = .ok (fresh, marked)) :
    RoundView.Ends ⟨bitmap, loop, live⟩ chunk ⟨marked, loop, live.eraseIdx k⟩ := by
  obtain ⟨below, absent⟩ := inv.unset chunk (List.mem_of_getElem? found)
  obtain ⟨marked', returned, _, _, sameCount⟩ :=
    ChunkBitmap.markComplete_of_missing (inv.chunkCount ▸ below) absent
  have frame := fun (i : UInt32) (other : i ≠ chunk) =>
    ChunkBitmap.has_markComplete_of_ne result other
  rw [returned] at result
  cases result
  exact ends_of_eraseIdx inv.distinct found sameCount frame

theorem effect {view next : RoundView} (inv : RoundInvariant n view)
    (stepped : RoundStep concurrency view next) : RoundEffect view next := by
  cases stepped with
  | returns complete => exact .moves rfl rfl
  | chooses incomplete => exact .moves rfl rfl
  | skips present => exact .moves rfl rfl
  | awaits absent => exact .moves rfl rfl
  | spawns permit => exact .spawns _ _ rfl rfl
  | joins => exact .moves rfl rfl
  | repeats => exact .moves rfl rfl
  | fails k chunk found => exact .ends chunk (inv.fails found)
  | marks k chunk found result => exact .ends chunk (inv.marks found result)

/-- The loop moves on with no new chunks to go through. -/
theorem loop_moves (inv : RoundInvariant n ⟨bitmap, loop, live⟩) {next : LoopPc}
    (pending : List.Sublist next.pending loop.pending)
    (idle : next = .check ∨ next = .returned → live = [])
    (done : next = .returned → bitmap.isComplete = true) :
    RoundInvariant n ⟨bitmap, next, live⟩ where
  chunkCount := inv.chunkCount
  distinct := inv.distinct
  unset := inv.unset
  pendingDistinct := pending.nodup inv.pendingDistinct
  pendingUnset i mem := inv.pendingUnset i (pending.subset mem)
  pendingFree i mem := inv.pendingFree i (pending.subset mem)
  idle := idle
  done := done

/-- The loop chooses from the missing chunks while no task lives. -/
theorem chooses (inv : RoundInvariant n ⟨bitmap, .check, live⟩) (window : Nat) :
    RoundInvariant n ⟨bitmap, .spawning (bitmap.missing.take window), live⟩ where
  chunkCount := inv.chunkCount
  distinct := inv.distinct
  unset := inv.unset
  pendingDistinct := (List.take_sublist window _).nodup bitmap.nodup_missing
  pendingUnset i mem := inv.chunkCount ▸
    ChunkBitmap.mem_missing.mp ((List.take_sublist window _).subset mem)
  pendingFree i _ := by
    have none : live = [] := inv.idle (.inl rfl)
    simp [none]
  idle := by simp
  done := by simp

/-- A pending chunk gets its task. -/
theorem spawns {chunk : UInt32} {rest : List UInt32}
    (inv : RoundInvariant n ⟨bitmap, .acquiring chunk rest, live⟩) :
    RoundInvariant n ⟨bitmap, .spawning rest, live ++ [chunk]⟩ := by
  have pendingDistinct : (chunk :: rest).Nodup := inv.pendingDistinct
  rw [List.nodup_cons] at pendingDistinct
  have free : chunk ∉ live := inv.pendingFree chunk List.mem_cons_self
  refine ⟨inv.chunkCount, ?_, ?_, pendingDistinct.2, ?_, ?_, by simp, by simp⟩
  · exact List.Nodup.append inv.distinct (List.nodup_singleton chunk) (by simpa using free)
  · intro i mem
    rcases List.mem_append.mp mem with old | new
    · exact inv.unset i old
    · rw [List.mem_singleton.mp new]
      exact inv.pendingUnset chunk List.mem_cons_self
  · intro i mem
    exact inv.pendingUnset i (List.mem_cons_of_mem chunk mem)
  · intro i mem
    have notOld : i ∉ live := inv.pendingFree i (List.mem_cons_of_mem chunk mem)
    have notNew : i ≠ chunk := by
      rintro rfl
      exact pendingDistinct.1 mem
    simp [notOld, notNew]

/-- A task ends. -/
theorem ends {view next : RoundView} {chunk : UInt32} (inv : RoundInvariant n view)
    (ends : view.Ends chunk next) : RoundInvariant n next := by
  have busy : view.live ≠ [] := List.ne_nil_of_mem ends.live
  refine ⟨ends.sameCount.trans inv.chunkCount, ends.sublist.nodup inv.distinct, ?_, ?_, ?_, ?_, ?_,
    ?_⟩
  · intro i still
    obtain ⟨old, different⟩ := (ends.left i).mp still
    rw [ends.frame i different]
    exact inv.unset i old
  · exact ends.sameLoop ▸ inv.pendingDistinct
  · intro i pending
    rw [ends.sameLoop] at pending
    have different : i ≠ chunk := by
      rintro rfl
      exact inv.pendingFree i pending ends.live
    rw [ends.frame i different]
    exact inv.pendingUnset i pending
  · intro i pending still
    rw [ends.sameLoop] at pending
    exact inv.pendingFree i pending ((ends.left i).mp still).1
  · intro atRest
    exact absurd (inv.idle (ends.sameLoop ▸ atRest)) busy
  · intro atReturn
    exact absurd (inv.idle (.inr (ends.sameLoop ▸ atReturn))) busy

/-- Every step of a view keeps the invariant. -/
theorem step {view next : RoundView} (inv : RoundInvariant n view)
    (stepped : RoundStep concurrency view next) : RoundInvariant n next := by
  cases stepped with
  | returns complete =>
      exact inv.loop_moves (List.nil_sublist _) (fun _ => inv.idle (.inl rfl)) fun _ => complete
  | chooses incomplete => exact inv.chooses _
  | skips present => exact inv.loop_moves (List.sublist_cons_self _ _) (by simp) (by simp)
  | awaits absent => exact inv.loop_moves (List.Sublist.refl _) (by simp) (by simp)
  | spawns permit => exact inv.spawns
  | joins => exact inv.loop_moves (List.nil_sublist _) (by simp) (by simp)
  | repeats => exact inv.loop_moves (List.nil_sublist _) (fun _ => rfl) (by simp)
  | fails k chunk found => exact inv.ends (inv.fails found)
  | marks k chunk found result => exact inv.ends (inv.marks found result)

end RoundInvariant

/-- Between the end of its tasks and its return the loop can always move. -/
theorem loopStep_enabled {cfg : DownloaderConfig} {state : Downloader} {n : UInt32}
    (positive : 0 < cfg.concurrency.toNat) (inv : RoundInvariant n state.view)
    (noTasks : state.tasks = []) (running : state.loop ≠ .returned) :
    ∃ next, state.loopStep cfg = some next := by
  obtain ⟨bitmap, disk, loop, tasks⟩ := state
  subst noTasks
  cases loop with
  | check =>
      simp only [Downloader.loopStep]
      split <;> exact ⟨_, rfl⟩
  | spawning chosen =>
      cases chosen with
      | nil => exact ⟨_, rfl⟩
      | cons chunk rest =>
          have absent : bitmap.has chunk = .ok false :=
            (inv.pendingUnset chunk List.mem_cons_self).2
          simp [Downloader.loopStep, absent]
  | acquiring chunk rest => exact ⟨_, if_pos positive⟩
  | joining => exact ⟨_, rfl⟩
  | returned => exact absurd rfl running

/-! ### Behaviours -/

/-- The tasks that end in a step have their bit exactly where the verdict on them says so. -/
def RoundView.EndsBy (verdict : UInt32 → Prop) (before after : RoundView) : Prop :=
  ∀ i ∈ before.live, i ∉ after.live → (after.bitmap.has i = .ok true ↔ verdict i)

instance {verdict : UInt32 → Prop} [DecidablePred verdict] (before after : RoundView) :
    Decidable (RoundView.EndsBy verdict before after) :=
  List.decidableBAll (fun i => i ∉ after.live → (after.bitmap.has i = .ok true ↔ verdict i))
    before.live

namespace Downloader

variable {platform : Platform} {cfg : DownloaderConfig} {first : Downloader} {n : UInt32}
  {run : Behaviour (step platform cfg) first}

/-- Nobody is left waiting: the loop takes a step again wherever it can, and every task ends. -/
structure Fair (run : Behaviour (step platform cfg) first) : Prop where
  loop : ∀ t, ∃ u, t ≤ u ∧
    ((run.state u).loopStep cfg = none ∨ (run.state u).loopStep cfg = some (run.state (u + 1)))
  tasks : ∀ t, ∀ i ∈ (run.state t).view.live, ∃ u, t ≤ u ∧ i ∉ (run.state u).view.live

/-- What the steps of a view keep, the machine keeps. -/
theorem keeps_of_step {state next : Downloader} {event : DownloadEvent} (keeps : RoundView → Prop)
    (kept : ∀ next, RoundStep cfg.concurrency.toNat state.view next → keeps next)
    (before : keeps state.view) (stepped : state.step platform cfg event = some next) :
    keeps next.view := by
  rcases step_view stepped with same | moved
  · exact same.symm ▸ before
  · exact kept next.view moved

theorem round_of_step {state next : Downloader} {event : DownloadEvent}
    (inv : RoundInvariant n state.view) (stepped : state.step platform cfg event = some next) :
    RoundInvariant n next.view :=
  keeps_of_step (RoundInvariant n) (fun _ moved => inv.step moved) inv stepped

theorem full_of_step {state next : Downloader} {event : DownloadEvent} (full : state.bitmap.Full)
    (stepped : state.step platform cfg event = some next) : next.bitmap.Full :=
  keeps_of_step (·.bitmap.Full) (fun _ moved => moved.full full) full stepped

theorem view_moves (run : Behaviour (step platform cfg) first) (t : Nat) :
    (run.state (t + 1)).view = (run.state t).view ∨
      RoundStep cfg.concurrency.toNat (run.state t).view (run.state (t + 1)).view := by
  rcases run.moves t with idle | ⟨event, stepped⟩
  · exact .inl (congrArg view idle)
  · exact step_view stepped

theorem view_invariant (inv : RoundInvariant n first.view)
    (run : Behaviour (step platform cfg) first) (t : Nat) :
    RoundInvariant n (run.state t).view := by
  refine run.invariant (fun state => RoundInvariant n state.view) inv ?_ t
  intro state event next before stepped
  exact round_of_step before stepped

theorem startFrom_eq_some_iff {bitmap : ChunkBitmap} {disk : String → Option (List UInt8)} :
    startFrom cfg bitmap disk = some first ↔
      cfg.concurrency.toNat ≤ maxPermits ∧ first = ⟨bitmap, disk, .check, []⟩ := by
  simp only [startFrom, Option.ite_none_right_eq_some, Option.some.injEq, eq_comm (a := first)]

/-- As long as the loop has not returned, a fair behaviour leaves every view by a step. -/
theorem Fair.next_step (fair : Fair run) (positive : 0 < cfg.concurrency.toNat)
    (inv : RoundInvariant n first.view) {t : Nat} (running : (run.state t).loop ≠ .returned) :
    ∃ u, t ≤ u ∧ (∀ w, t ≤ w → w ≤ u → (run.state w).view = (run.state t).view) ∧
      RoundStep cfg.concurrency.toNat (run.state u).view (run.state (u + 1)).view := by
  have byChange : (∃ u, t ≤ u ∧ (∀ w, t ≤ w → w ≤ u → (run.state w).view = (run.state t).view) ∧
      (run.state (u + 1)).view ≠ (run.state u).view) →
      ∃ u, t ≤ u ∧ (∀ w, t ≤ w → w ≤ u → (run.state w).view = (run.state t).view) ∧
        RoundStep cfg.concurrency.toNat (run.state u).view (run.state (u + 1)).view := by
    rintro ⟨u, later, same, changes⟩
    exact ⟨u, later, same, (view_moves run u).resolve_left changes⟩
  cases tasks : (run.state t).view.live with
  | cons i others =>
      -- A live task ends, so the view changes.
      obtain ⟨u, later, ended⟩ := fair.tasks t i (tasks ▸ List.mem_cons_self)
      rcases same_or_changes (fun w => (run.state w).view) later with same | changed
      · rw [same u later (Nat.le_refl u), tasks] at ended
        exact absurd List.mem_cons_self ended
      · exact byChange changed
  | nil =>
      -- Without tasks the loop can step until it does.
      obtain ⟨u, later, turn⟩ := fair.loop t
      rcases same_or_changes (fun w => (run.state w).view) later with same | changed
      · have here := same u later (Nat.le_refl u)
        have noTasks : (run.state u).tasks = [] :=
          List.map_eq_nil_iff.mp ((congrArg RoundView.live here).trans tasks)
        have sameLoop : (run.state u).loop = (run.state t).loop := congrArg RoundView.loop here
        obtain ⟨next, enabled⟩ := loopStep_enabled positive (view_invariant inv run u) noTasks
          (sameLoop ▸ running)
        have stepped := turn.resolve_left (by simp [enabled])
        exact ⟨u, later, same, loopStep_view stepped⟩
      · exact byChange changed

/-- A fair behaviour reaches a goal if, until then, a rank never rises while its view stays and falls
at every step of its view. -/
theorem Fair.reaches (fair : Fair run) (positive : 0 < cfg.concurrency.toNat)
    (inv : RoundInvariant n first.view) (rank : Nat → Nat) (Inv : Nat → Prop)
    (Goal : RoundView → Prop)
    (running : ∀ t, Inv t → ¬ Goal (run.state t).view → (run.state t).loop ≠ .returned)
    (idles : ∀ t, Inv t → (run.state (t + 1)).view = (run.state t).view →
      Inv (t + 1) ∧ rank (t + 1) ≤ rank t)
    (steps : ∀ t, Inv t → ¬ Goal (run.state t).view →
      RoundStep cfg.concurrency.toNat (run.state t).view (run.state (t + 1)).view →
      Inv (t + 1) ∧ (Goal (run.state (t + 1)).view ∨ rank (t + 1) < rank t))
    {t : Nat} (holds : Inv t) :
    ∃ u, t ≤ u ∧ (∀ w, t ≤ w → w < u → ¬ Goal (run.state w).view) ∧ Inv u ∧
      Goal (run.state u).view := by
  -- While the view stays the same, the invariant is kept and the rank does not rise.
  have stays : ∀ t u, t ≤ u → (∀ w, t ≤ w → w ≤ u → (run.state w).view = (run.state t).view) →
      Inv t → Inv u ∧ rank u ≤ rank t := by
    intro t u later same holds
    induction later with
    | refl => exact ⟨holds, Nat.le_refl _⟩
    | @step u later ih =>
        obtain ⟨here, below⟩ := ih fun w after before => same w after (Nat.le_succ_of_le before)
        have idle := (same (u + 1) (Nat.le_succ_of_le later) (Nat.le_refl _)).trans
          (same u later (Nat.le_succ u)).symm
        obtain ⟨next, falling⟩ := idles u here idle
        exact ⟨next, Nat.le_trans falling below⟩
  refine reaches_of_rank rank Inv (fun t => Goal (run.state t).view) ?_ holds
  intro t here notYet
  obtain ⟨u, later, same, stepped⟩ := fair.next_step positive inv (running t here notYet)
  obtain ⟨before, below⟩ := stays t u later same here
  have still : ∀ w, t ≤ w → w < u + 1 → ¬ Goal (run.state w).view := by
    intro w after inside
    rw [same w after (Nat.le_of_lt_succ inside)]
    exact notYet
  obtain ⟨after, outcome⟩ := steps u before (still u later (Nat.lt_succ_self u)) stepped
  refine ⟨u + 1, Nat.lt_succ_of_le later, still, after, ?_⟩
  rcases outcome with reached | falls
  · exact .inl reached
  · exact .inr (Nat.lt_of_lt_of_le falls below)

/-- A behaviour that has returned for good was fair. -/
theorem fair_of_returned (last : Nat)
    (ended : ∀ t, last ≤ t → (run.state t).loop = .returned ∧ (run.state t).view.live = []) :
    Fair run where
  loop t := by
    refine ⟨max t last, Nat.le_max_left t last, .inl ?_⟩
    simp only [loopStep, (ended (max t last) (Nat.le_max_right t last)).1]
  tasks t i _ := by
    refine ⟨max t last, Nat.le_max_left t last, ?_⟩
    simp [(ended (max t last) (Nat.le_max_right t last)).2]

end Downloader

end ModelDistribution
