/-
Module: ModelDistribution.Proofs.RoundProgress
Layer: Proofs
Purpose: One iteration of the download loop. An iteration only attempts the first missing chunks, twice
  as many as there are permits, so it makes progress exactly if one of them can be obtained. Otherwise
  it leaves everything as it was, and the chunks behind the window wait forever.
Imports: ModelDistribution.Proofs.DownloadRounds, ModelDistribution.Proofs.DownloadIntegrity
Trusted boundary: none
Main exports: Downloader.Respects, Downloader.FirstRound, Downloader.Progresses, Carried,
  Downloader.first_round_marks, Downloader.window_starves, Downloader.round_progress_iff
-/
import ModelDistribution.Proofs.DownloadRounds
import ModelDistribution.Proofs.DownloadIntegrity

namespace ModelDistribution

open Foundation

namespace Downloader

variable {platform : Platform} {cfg : DownloaderConfig} {first : Downloader}

/-- The task of a chunk succeeds exactly if the chunk can be obtained. -/
def Respects (obtainable : UInt32 → Prop) (run : Behaviour (step platform cfg) first) : Prop :=
  ∀ t, RoundView.EndsBy obtainable (run.state t).view (run.state (t + 1)).view

/-- The first iteration of the loop: it leaves the top after `s` and is back there at `t`. -/
structure FirstRound (run : Behaviour (step platform cfg) first) (s t : Nat) : Prop where
  waits : ∀ u ≤ s, (run.state u).loop = .check
  leaves : s + 1 < t
  inside : ∀ u, s < u → u < t → (run.state u).loop ≠ .check
  back : (run.state t).loop = .check

/-- If some missing chunk can be obtained, then `run` starts and, whatever the order of events, its
first iteration ends with a new chunk. -/
def Progresses (platform : Platform) (cfg : DownloaderConfig) (bitmap : ChunkBitmap)
    (disk : String → Option (List UInt8)) (obtainable : UInt32 → Prop) : Prop :=
  (∃ i ∈ bitmap.missing, obtainable i) →
    ∃ first, startFrom cfg bitmap disk = some first ∧
      ∀ run : Behaviour (step platform cfg) first, Fair run → Respects obtainable run →
        ∃ s t, FirstRound run s t ∧ ∃ i ∈ bitmap.missing, (run.state t).bitmap.has i = .ok true

end Downloader

/-! ### An iteration with an obtainable chunk in its window -/

/-- What becomes of a chosen chunk within its round: it is still pending, it has a task, or it is there
if it can be obtained. -/
structure Carried (obtainable : UInt32 → Prop) (chunk : UInt32) (view : RoundView) : Prop where
  running : view.loop ≠ .returned
  fate : chunk ∈ view.loop.pending ∨ chunk ∈ view.live ∨
    (obtainable chunk → view.bitmap.has chunk = .ok true)

/-- What is left to do in a round. -/
def RoundView.rest (view : RoundView) : Nat :=
  3 * view.loop.pending.length + view.live.length + view.loop.phase

section Round

variable {n : UInt32} {concurrency : Nat} {obtainable : UInt32 → Prop} {chunk : UInt32}
  {view next : RoundView}

theorem Carried.ends {other : UInt32} (carried : Carried obtainable chunk view)
    (ends : view.Ends other next) (respects : RoundView.EndsBy obtainable view next) :
    Carried obtainable chunk next where
  running := ends.sameLoop ▸ carried.running
  fate := by
    by_cases same : chunk = other
    · subst same
      have left : chunk ∉ next.live := fun mem => ((ends.left chunk).mp mem).2 rfl
      exact .inr (.inr (respects chunk ends.live left).mpr)
    · rcases carried.fate with pending | live | there
      · exact .inl (ends.sameLoop ▸ pending)
      · exact .inr (.inl ((ends.left chunk).mpr ⟨live, same⟩))
      · exact .inr (.inr (ends.frame chunk same ▸ there))

theorem rest_of_ends {other : UInt32} (ends : view.Ends other next) : next.rest < view.rest := by
  have shorter := ends.shorter
  simp only [RoundView.rest, ends.sameLoop]
  omega

/-- Every step within a round carries the chunk on, and ends the round or leaves less to do. -/
theorem Carried.step (carried : Carried obtainable chunk view) (inv : RoundInvariant n view)
    (notCheck : view.loop ≠ .check) (stepped : RoundStep concurrency view next)
    (respects : RoundView.EndsBy obtainable view next) :
    Carried obtainable chunk next ∧ (next.loop = .check ∨ next.rest < view.rest) := by
  cases stepped with
  | returns complete => exact absurd rfl notCheck
  | chooses incomplete => exact absurd rfl notCheck
  | skips present =>
      have absent := (inv.pendingUnset _ List.mem_cons_self).2
      rw [present] at absent
      cases absent
  | awaits absent => exact ⟨⟨by simp, carried.fate⟩, .inr (Nat.lt_succ_self _)⟩
  | spawns permit =>
      refine ⟨⟨by simp, ?_⟩, .inr ?_⟩
      · rcases carried.fate with pending | live | there
        · rcases List.mem_cons.mp pending with rfl | later
          · exact .inr (.inl (by simp))
          · exact .inl later
        · exact .inr (.inl (List.mem_append_left _ live))
        · exact .inr (.inr there)
      · simp only [RoundView.rest, LoopPc.pending, LoopPc.phase, List.length_cons,
          List.length_append, List.length_nil]
        omega
  | joins => exact ⟨⟨by simp, carried.fate⟩, .inr (Nat.lt_succ_self _)⟩
  | repeats => exact ⟨⟨by simp, carried.fate⟩, .inl rfl⟩
  | fails k other found =>
      have ended := inv.fails found
      exact ⟨carried.ends ended respects, .inr (rest_of_ends ended)⟩
  | marks k other found result =>
      have ended := inv.marks found result
      exact ⟨carried.ends ended respects, .inr (rest_of_ends ended)⟩

/-- Behind its round a chunk is there if it can be obtained. -/
theorem Carried.at_top (carried : Carried obtainable chunk view) (inv : RoundInvariant n view)
    (atTop : view.loop = .check) (can : obtainable chunk) :
    view.bitmap.has chunk = .ok true := by
  rcases carried.fate with pending | live | there
  · simp [atTop, LoopPc.pending] at pending
  · simp [inv.idle (.inl atTop)] at live
  · exact there can

/-- A bitmap that misses a chunk is not complete. -/
theorem incomplete_of_missing {bitmap : ChunkBitmap} (missing : chunk ∈ bitmap.missing) :
    bitmap.isComplete = false := by
  obtain ⟨below, absent⟩ := ChunkBitmap.mem_missing.mp missing
  by_contra complete
  have all := ChunkBitmap.isComplete_iff.mp (Bool.of_not_eq_false complete)
  rw [all chunk below] at absent
  cases absent

/-- At the top with no task and a chunk missing, the only step is to choose. -/
theorem RoundStep.of_top {bitmap : ChunkBitmap}
    (stepped : RoundStep concurrency ⟨bitmap, .check, []⟩ next)
    (incomplete : bitmap.isComplete = false) :
    next = ⟨bitmap, .spawning (bitmap.missing.take (concurrency * 2)), []⟩ := by
  cases stepped with
  | returns complete =>
      rw [complete] at incomplete
      cases incomplete
  | chooses incomplete => rfl
  | fails k chunk found => simp at found
  | marks k chunk found result => simp at found

/-- As long as the loop chooses from a set of chunks, pending and live chunks stay within it. -/
theorem RoundStep.within {chunks : List UInt32} (stepped : RoundStep concurrency view next)
    (chosen : view.bitmap.missing.take (concurrency * 2) ⊆ chunks)
    (pending : view.loop.pending ⊆ chunks) (live : view.live ⊆ chunks) :
    next.loop.pending ⊆ chunks ∧ next.live ⊆ chunks := by
  cases stepped with
  | returns complete => exact ⟨pending, live⟩
  | chooses incomplete => exact ⟨chosen, live⟩
  | skips present => exact ⟨fun i mem => pending (List.mem_cons_of_mem _ mem), live⟩
  | awaits absent => exact ⟨pending, live⟩
  | spawns permit =>
      refine ⟨fun i mem => pending (List.mem_cons_of_mem _ mem), fun i mem => ?_⟩
      rcases List.mem_append.mp mem with old | new
      · exact live old
      · exact List.mem_singleton.mp new ▸ pending List.mem_cons_self
  | joins => exact ⟨pending, live⟩
  | repeats => exact ⟨pending, live⟩
  | fails k other found => exact ⟨pending, fun i mem => live (List.mem_of_mem_eraseIdx mem)⟩
  | marks k other found result => exact ⟨pending, fun i mem => live (List.mem_of_mem_eraseIdx mem)⟩

end Round

/-- Only the end of a task touches the bitmap. -/
theorem bitmap_kept {platform : Platform} {cfg : DownloaderConfig} {state next : Downloader}
    {event : DownloadEvent} (notMark : ∀ k, event ≠ .mark k)
    (stepped : state.step platform cfg event = some next) : next.bitmap = state.bitmap := by
  cases step_effect stepped with
  | taskMarks k => exact absurd rfl (notMark k)
  | _ => rfl

namespace Downloader

variable {platform : Platform} {cfg : DownloaderConfig} {first : Downloader} {bitmap : ChunkBitmap}
  {obtainable : UInt32 → Prop} {run : Behaviour (step platform cfg) first}

/-- With a chunk missing, a fair behaviour goes from the top of the loop into a round. -/
theorem Fair.leaves_top (fair : Fair run) (positive : 0 < cfg.concurrency.toNat)
    (atTop : first.view = ⟨bitmap, .check, []⟩) (incomplete : bitmap.isComplete = false) :
    ∃ s, (∀ u ≤ s, (run.state u).loop = .check) ∧
      (run.state (s + 1)).view =
        ⟨bitmap, .spawning (bitmap.missing.take (cfg.concurrency.toNat * 2)), []⟩ := by
  have begins : (run.state 0).view = ⟨bitmap, .check, []⟩ := run.starts.symm ▸ atTop
  have running : (run.state 0).loop ≠ .returned := by
    rw [show (run.state 0).loop = .check from congrArg RoundView.loop begins]
    simp
  obtain ⟨s, _, same, stepped⟩ :=
    fair.next_step positive (atTop ▸ RoundInvariant.start rfl) running
  refine ⟨s, ?_, ?_⟩
  · intro u before
    exact congrArg RoundView.loop ((same u (Nat.zero_le u) before).trans begins)
  · rw [(same s (Nat.zero_le s) (Nat.le_refl s)).trans begins] at stepped
    exact stepped.of_top incomplete

/-- An obtainable chunk in the window of the first iteration is there at its end. -/
theorem first_round_marks (fair : Fair run) (respects : Respects obtainable run)
    (atTop : first.view = ⟨bitmap, .check, []⟩) {chunk : UInt32}
    (chosen : chunk ∈ bitmap.missing.take (cfg.concurrency.toNat * 2)) (can : obtainable chunk) :
    ∃ s t, FirstRound run s t ∧ (run.state t).bitmap.has chunk = .ok true := by
  have positive : 0 < cfg.concurrency.toNat := by
    cases zero : cfg.concurrency.toNat with
    | zero => simp [zero] at chosen
    | succ c => exact Nat.succ_pos c
  have incomplete := incomplete_of_missing (List.mem_of_mem_take chosen)
  have inv : RoundInvariant bitmap.chunkCount first.view := atTop ▸ RoundInvariant.start rfl
  obtain ⟨s, waits, entered⟩ := fair.leaves_top positive atTop incomplete
  have carried : Carried obtainable chunk (run.state (s + 1)).view := by
    rw [entered]
    exact ⟨by simp, .inl chosen⟩
  obtain ⟨t, later, inside, carried', back⟩ := fair.reaches positive inv
    (fun t => (run.state t).view.rest) (fun t => Carried obtainable chunk (run.state t).view)
    (fun view => view.loop = .check) (fun _ carried _ => carried.running)
    (fun t carried idle => ⟨idle.symm ▸ carried, idle ▸ Nat.le_refl _⟩)
    (fun t carried notCheck stepped =>
      carried.step (view_invariant inv run t) notCheck stepped (respects t))
    carried
  have away : (run.state (s + 1)).view.loop ≠ .check := by simp [entered]
  have leaves : s + 1 ≠ t := fun same => away (same ▸ back)
  exact ⟨s, t, ⟨waits, Nat.lt_of_le_of_ne later leaves, inside, back⟩,
    carried'.at_top (view_invariant inv run t) back can⟩

/-! ### An iteration without one -/

/-- A chunk gets its task, and the tracker knows no peer for it in any of the attempts. -/
def failedTask : List DownloadEvent :=
  [.loop, .loop, .tracker 0 (.ok []), .tracker 0 (.ok []), .tracker 0 (.ok [])]

/-- An iteration in which all tasks fail, one after the other. -/
def failedRound (window : List UInt32) : List DownloadEvent :=
  .loop :: (window.flatMap (fun _ => failedTask) ++ [.loop, .loop])

theorem mem_failedRound {window : List UInt32} {event : DownloadEvent}
    (mem : event ∈ failedRound window) : event = .loop ∨ event = .tracker 0 (.ok []) := by
  simp only [failedRound, failedTask, List.mem_cons, List.mem_append, List.mem_flatMap,
    List.not_mem_nil, or_false] at mem
  rcases mem with first | ⟨_, _, inTask⟩ | last
  · exact .inl first
  · tauto
  · tauto

theorem failedTask_run {chunk : UInt32} {rest : List UInt32}
    {disk : String → Option (List UInt8)} (positive : 0 < cfg.concurrency.toNat)
    (absent : bitmap.has chunk = .ok false) :
    runEvents (step platform cfg) ⟨bitmap, disk, .spawning (chunk :: rest), []⟩ failedTask =
      some ⟨bitmap, disk, .spawning rest, []⟩ := by
  simp [failedTask, runEvents, step, loopStep, absent, positive, Task.afterTracker, Task.tryRest,
    Task.failAttempt, maxAttempts, putTask]

theorem failedTasks_run {window : List UInt32} {disk : String → Option (List UInt8)}
    (ready : ∀ i ∈ window, 0 < cfg.concurrency.toNat ∧ bitmap.has i = .ok false) :
    runEvents (step platform cfg) ⟨bitmap, disk, .spawning window, []⟩
      (window.flatMap fun _ => failedTask) = some ⟨bitmap, disk, .spawning [], []⟩ := by
  induction window with
  | nil => rfl
  | cons chunk rest ih =>
      obtain ⟨positive, absent⟩ := ready chunk List.mem_cons_self
      rw [List.flatMap_cons]
      exact runEvents_append.mpr ⟨_, failedTask_run positive absent,
        ih fun i mem => ready i (List.mem_cons_of_mem chunk mem)⟩

/-- The iteration ends where it began. -/
theorem failedRound_run {disk : String → Option (List UInt8)}
    (incomplete : bitmap.isComplete = false) :
    runEvents (step platform cfg) ⟨bitmap, disk, .check, []⟩
      (failedRound (bitmap.missing.take (cfg.concurrency.toNat * 2))) =
        some ⟨bitmap, disk, .check, []⟩ := by
  have chooses : step platform cfg ⟨bitmap, disk, .check, []⟩ .loop =
      some ⟨bitmap, disk, .spawning (bitmap.missing.take (cfg.concurrency.toNat * 2)), []⟩ := by
    simp [step, loopStep, incomplete]
  refine runEvents_cons_eq_some.mpr ⟨_, chooses, runEvents_append.mpr ⟨_, failedTasks_run ?_, rfl⟩⟩
  intro i mem
  refine ⟨Nat.pos_of_ne_zero fun zero => ?_,
    (ChunkBitmap.mem_missing.mp (List.mem_of_mem_take mem)).2⟩
  simp [zero] at mem

/-- A repetition that begins without tasks and with a step of the loop is fair. -/
theorem fair_cycle {events : List DownloadEvent}
    (ran : runEvents (step platform cfg) first (.loop :: events) = some first)
    (idle : first.view.live = []) : Fair (Behaviour.cycle ran (Nat.succ_pos _)) := by
  have someEvent : 0 < (DownloadEvent.loop :: events).length := Nat.succ_pos _
  have later : ∀ t, t ≤ (DownloadEvent.loop :: events).length * t := fun t =>
    Nat.le_mul_of_pos_left t someEvent
  constructor
  · intro t
    obtain ⟨event, found, stepped⟩ :=
      cycleState_step ran someEvent ((DownloadEvent.loop :: events).length * t)
    rw [Nat.mul_mod_right] at found
    cases found
    exact ⟨_, later t, .inr stepped⟩
  · intro t i _
    refine ⟨_, later t, ?_⟩
    have atStart : (Behaviour.cycle ran someEvent).state
        ((DownloadEvent.loop :: events).length * t) = first := cycleState_mul _ _ _ _
    rw [atStart, idle]
    exact List.not_mem_nil

/-- The failing iterations keep to their window and never change the bitmap. -/
theorem failedRound_confined {disk : String → Option (List UInt8)} {window : List UInt32}
    (chosen : bitmap.missing.take (cfg.concurrency.toNat * 2) ⊆ window)
    (ran : runEvents (step platform cfg) ⟨bitmap, disk, .check, []⟩ (failedRound window) =
      some ⟨bitmap, disk, .check, []⟩) (t : Nat) :
    let state := (Behaviour.cycle ran (Nat.succ_pos _)).state t
    state.bitmap = bitmap ∧ state.loop.pending ⊆ window ∧ state.view.live ⊆ window := by
  refine Behaviour.cycle_invariant ran (Nat.succ_pos _)
    (fun state => state.bitmap = bitmap ∧ state.loop.pending ⊆ window ∧ state.view.live ⊆ window)
    ⟨rfl, List.nil_subset _, List.nil_subset _⟩ ?_ t
  rintro state event next mem ⟨sameBitmap, pending, live⟩ stepped
  have notMark : ∀ k, event ≠ .mark k := by
    rintro k rfl
    rcases mem_failedRound mem with isLoop | isTracker
    · cases isLoop
    · cases isTracker
  refine ⟨(bitmap_kept notMark stepped).trans sameBitmap, ?_⟩
  rcases step_view stepped with same | moved
  · have samePending : next.loop.pending = state.loop.pending :=
      congrArg (fun view => view.loop.pending) same
    rw [samePending, same]
    exact ⟨pending, live⟩
  · have chosen' : state.view.bitmap.missing.take (cfg.concurrency.toNat * 2) ⊆ window := by
      rw [show state.view.bitmap = bitmap from sameBitmap]
      exact chosen
    exact moved.within chosen' pending live

/-- If no chunk of the window can be obtained, there is a fair behaviour that respects it and never
changes the bitmap: its iterations fail, one like the other. -/
theorem window_starves (platform : Platform) (cfg : DownloaderConfig)
    (disk : String → Option (List UInt8)) (incomplete : bitmap.isComplete = false)
    (none : ∀ i ∈ bitmap.missing.take (cfg.concurrency.toNat * 2), ¬ obtainable i) :
    ∃ run : Behaviour (step platform cfg) ⟨bitmap, disk, .check, []⟩,
      Fair run ∧ Respects obtainable run ∧ ∀ t, (run.state t).bitmap = bitmap := by
  have ran : runEvents (step platform cfg) ⟨bitmap, disk, .check, []⟩
      (failedRound (bitmap.missing.take (cfg.concurrency.toNat * 2))) =
        some ⟨bitmap, disk, .check, []⟩ := failedRound_run incomplete
  have confined := failedRound_confined (List.Subset.refl _) ran
  refine ⟨Behaviour.cycle ran (Nat.succ_pos _), fair_cycle ran rfl, ?_, fun t => (confined t).1⟩
  intro t i live _
  have chosen := (confined t).2.2 live
  have absent := (ChunkBitmap.mem_missing.mp (List.mem_of_mem_take chosen)).2
  have sameBitmap : ((Behaviour.cycle ran (Nat.succ_pos _)).state (t + 1)).view.bitmap = bitmap :=
    (confined (t + 1)).1
  rw [sameBitmap, absent]
  simp [none i chosen]

/-- A window without an obtainable chunk makes no progress, whatever is behind it. -/
theorem not_progresses (platform : Platform) (cfg : DownloaderConfig)
    (disk : String → Option (List UInt8)) (behind : UInt32) (missing : behind ∈ bitmap.missing)
    (can : obtainable behind)
    (none : ∀ i ∈ bitmap.missing.take (cfg.concurrency.toNat * 2), ¬ obtainable i) :
    ¬ Progresses platform cfg bitmap disk obtainable := by
  intro progresses
  obtain ⟨first, started, ends⟩ := progresses ⟨behind, missing, can⟩
  have incomplete := incomplete_of_missing missing
  obtain ⟨_, rfl⟩ := startFrom_eq_some_iff.mp started
  obtain ⟨run, fair, respects, same⟩ := window_starves platform cfg disk incomplete none
  obtain ⟨s, t, _, i, stillMissing, there⟩ := ends run fair respects
  rw [same t, (ChunkBitmap.mem_missing.mp stillMissing).2] at there
  cases there

/-- An iteration of the loop makes progress exactly if no missing chunk can be obtained, or if the
semaphore can be built and one of the first missing chunks, two for each permit, can be obtained. -/
theorem round_progress_iff (platform : Platform) (cfg : DownloaderConfig) (bitmap : ChunkBitmap)
    (disk : String → Option (List UInt8)) (obtainable : UInt32 → Prop) :
    Progresses platform cfg bitmap disk obtainable ↔
      ((∃ i ∈ bitmap.missing, obtainable i) → cfg.concurrency.toNat ≤ maxPermits ∧
        ∃ i ∈ bitmap.missing.take (cfg.concurrency.toNat * 2), obtainable i) := by
  constructor
  · rintro progresses ⟨behind, missing, can⟩
    obtain ⟨first, started, _⟩ := progresses ⟨behind, missing, can⟩
    refine ⟨(startFrom_eq_some_iff.mp started).1, ?_⟩
    by_contra none
    refine not_progresses platform cfg disk behind missing can ?_ progresses
    exact fun i chosen can => none ⟨i, chosen, can⟩
  · intro condition some
    obtain ⟨permits, chunk, chosen, can⟩ := condition some
    refine ⟨_, startFrom_eq_some_iff.mpr ⟨permits, rfl⟩, fun run fair respects => ?_⟩
    obtain ⟨s, t, round, there⟩ := first_round_marks fair respects rfl chosen can
    exact ⟨s, t, round, chunk, List.mem_of_mem_take chosen, there⟩

/-- Three chunks, one permit, and only the last chunk can be obtained: no iteration ever gets it. -/
theorem third_chunk_starves :
    ∃ (cfg : DownloaderConfig) (bitmap : ChunkBitmap), 0 < cfg.concurrency ∧
      cfg.manifest.WellFormed ∧ bitmap = .new cfg.manifest.chunkCount ∧
      ∀ disk, ¬ Progresses samplePlatform cfg bitmap disk (fun i => i = 2) := by
  let cfg : DownloaderConfig := { sampleConfig with
    manifest := Manifest.built Manifest.sampleDigest "m" "1" [1, 2, 3] 1
    concurrency := 1 }
  refine ⟨cfg, .new 3, by decide, ?_, rfl, fun disk => ?_⟩
  · exact Manifest.wellFormed_built Manifest.sampleDigest "m" "1" ⟨by decide, by decide, by decide⟩
  · have window : (ChunkBitmap.new 3).missing.take (cfg.concurrency.toNat * 2) = [0, 1] := by decide
    refine not_progresses samplePlatform cfg disk 2 (by decide) rfl fun i chosen isLast => ?_
    rw [window, isLast] at chosen
    simp at chosen

end Downloader

end ModelDistribution
