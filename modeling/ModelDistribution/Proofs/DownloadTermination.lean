/-
Module: ModelDistribution.Proofs.DownloadTermination
Layer: Proofs
Purpose: The download loop ends under finitely many failures. Every chunk has a number of tasks that
  fail before one succeeds; a rank of the failures still to come falls at every step of a view, so in a
  fair behaviour the loop returns, and the ledger of spawned tasks says how many it took.
Imports: ModelDistribution.Proofs.DownloadRounds, ModelDistribution.Proofs.DownloadIntegrity
Trusted boundary: none
Main exports: RoundView.book, Downloader.spawned, Downloader.Follows, Ledger, Ledger.step, rank,
  rank_falls, Downloader.terminates_after_failures
-/
import ModelDistribution.Proofs.DownloadRounds
import ModelDistribution.Proofs.DownloadIntegrity

namespace ModelDistribution

open Foundation

/-! ### Counting tasks -/

/-- The number of tasks spawned for each chunk, kept up over one step. -/
def RoundView.book (before after : RoundView) (spawned : UInt32 → Nat) (i : UInt32) : Nat :=
  if after.live = before.live ++ [i] then spawned i + 1 else spawned i

theorem RoundView.book_of_length_le {before after : RoundView} {spawned : UInt32 → Nat}
    (noLonger : after.live.length ≤ before.live.length) : before.book after spawned = spawned := by
  funext i
  have notSpawned : after.live ≠ before.live ++ [i] := by
    intro same
    have longer := congrArg List.length same
    simp only [List.length_append, List.length_singleton] at longer
    omega
  exact if_neg notSpawned

theorem RoundView.book_of_spawn {before after : RoundView} {spawned : UInt32 → Nat}
    {chunk : UInt32} (grown : after.live = before.live ++ [chunk]) (i : UInt32) :
    before.book after spawned i = if i = chunk then spawned i + 1 else spawned i := by
  simp [book, grown, eq_comm]

namespace Downloader

variable {platform : Platform} {cfg : DownloaderConfig} {first : Downloader}

/-- The number of tasks spawned for each chunk up to a time. -/
def spawned (run : Behaviour (step platform cfg) first) : Nat → UInt32 → Nat
  | 0 => fun _ => 0
  | t + 1 => (run.state t).view.book (run.state (t + 1)).view (spawned run t)

/-- The first `failures i` tasks of chunk `i` fail and the later ones succeed. -/
def Follows (failures : UInt32 → Nat) (run : Behaviour (step platform cfg) first) : Prop :=
  ∀ t, RoundView.EndsBy (fun i => failures i < spawned run t i) (run.state t).view
    (run.state (t + 1)).view

end Downloader

/-! ### The ledger -/

/-- What the number of spawned tasks says about a chunk, in terms of the first bitmap. -/
structure Ledger (first : ChunkBitmap) (failures spawned : UInt32 → Nat) (view : RoundView) :
    Prop where
  kept : ∀ i, first.has i = .ok true → view.bitmap.has i = .ok true
  live : ∀ i ∈ view.live, spawned i ≤ failures i + 1
  waiting : ∀ i, view.bitmap.has i = .ok false → i ∉ view.live → spawned i ≤ failures i
  untouched : ∀ i, i ∉ first.missing → spawned i = 0
  settled : ∀ i ∈ first.missing, view.bitmap.has i = .ok true → spawned i = failures i + 1

section Step

variable {n : UInt32} {concurrency : Nat} {first : ChunkBitmap} {failures spawned : UInt32 → Nat}
  {view next : RoundView}

/-- Nothing is spawned before the first step. -/
theorem Ledger.start (bitmap : ChunkBitmap) (failures : UInt32 → Nat) :
    Ledger bitmap failures (fun _ => 0) ⟨bitmap, .check, []⟩ where
  kept _ present := present
  live := by simp
  waiting _ _ _ := Nat.zero_le _
  untouched _ _ := rfl
  settled i missing present := by
    rw [(ChunkBitmap.mem_missing.mp missing).2] at present
    cases present

theorem Ledger.spawns (ledger : Ledger first failures spawned view) {chunk : UInt32}
    (absent : view.bitmap.has chunk = .ok false) (free : chunk ∉ view.live)
    (missing : chunk ∈ first.missing) (sameBitmap : next.bitmap = view.bitmap)
    (grown : next.live = view.live ++ [chunk]) :
    Ledger first failures (view.book next spawned) next where
  kept := sameBitmap ▸ ledger.kept
  live i mem := by
    rw [RoundView.book_of_spawn grown]
    by_cases same : i = chunk
    · subst same
      rw [if_pos rfl]
      exact Nat.succ_le_succ (ledger.waiting i absent free)
    · rw [if_neg same]
      exact ledger.live i (by simpa [grown, same] using mem)
  waiting i missing' notLive := by
    have other : i ∉ view.live ∧ i ≠ chunk := by simpa [grown] using notLive
    rw [RoundView.book_of_spawn grown, if_neg other.2]
    exact ledger.waiting i (sameBitmap ▸ missing') other.1
  untouched i present := by
    have other : i ≠ chunk := by
      rintro rfl
      exact present missing
    rw [RoundView.book_of_spawn grown, if_neg other]
    exact ledger.untouched i present
  settled i missing' present := by
    rw [sameBitmap] at present
    have other : i ≠ chunk := by
      rintro rfl
      rw [absent] at present
      cases present
    rw [RoundView.book_of_spawn grown, if_neg other]
    exact ledger.settled i missing' present

theorem Ledger.ends (ledger : Ledger first failures spawned view) {chunk : UInt32}
    (ends : view.Ends chunk next) (absent : view.bitmap.has chunk = .ok false)
    (verdict : next.bitmap.has chunk = .ok true ↔ failures chunk < spawned chunk) :
    Ledger first failures spawned next where
  kept i present := by
    have other : i ≠ chunk := by
      rintro rfl
      have held := ledger.kept i present
      rw [absent] at held
      cases held
    rw [ends.frame i other]
    exact ledger.kept i present
  live i mem := ledger.live i ((ends.left i).mp mem).1
  waiting i missing notLive := by
    by_cases same : i = chunk
    · subst same
      apply Nat.le_of_not_lt
      intro succeeded
      rw [verdict.mpr succeeded] at missing
      cases missing
    · rw [ends.frame i same] at missing
      exact ledger.waiting i missing fun old => notLive ((ends.left i).mpr ⟨old, same⟩)
  untouched := ledger.untouched
  settled i missing present := by
    by_cases same : i = chunk
    · subst same
      exact Nat.le_antisymm (ledger.live i ends.live) (verdict.mp present)
    · rw [ends.frame i same] at present
      exact ledger.settled i missing present

/-- A chunk without its bit was missing from the start. -/
theorem Ledger.mem_missing (ledger : Ledger first failures spawned view)
    (full : first.Full) (count : first.chunkCount = n) {i : UInt32}
    (unset : i < n ∧ view.bitmap.has i = .ok false) : i ∈ first.missing := by
  obtain ⟨below, absent⟩ := unset
  refine ChunkBitmap.mem_missing.mpr ⟨count ▸ below, ?_⟩
  cases looked : (decide (i < first.chunkCount) && first.bits.bit i.toNat) with
  | false => rw [full.has_eq, looked]
  | true =>
      have held := ledger.kept i (by rw [full.has_eq, looked])
      rw [absent] at held
      cases held

/-- Every step of a view that follows the failures keeps the ledger. -/
theorem Ledger.step (ledger : Ledger first failures spawned view) (full : first.Full)
    (count : first.chunkCount = n) (inv : RoundInvariant n view)
    (stepped : RoundStep concurrency view next)
    (follows : RoundView.EndsBy (fun i => failures i < spawned i) view next) :
    Ledger first failures (view.book next spawned) next := by
  cases inv.effect stepped with
  | moves sameBitmap sameLive =>
      rw [RoundView.book_of_length_le (sameLive ▸ Nat.le_refl _)]
      exact
        { kept := sameBitmap ▸ ledger.kept
          live := sameLive ▸ ledger.live
          waiting := sameBitmap ▸ sameLive ▸ ledger.waiting
          untouched := ledger.untouched
          settled := sameBitmap ▸ ledger.settled }
  | spawns chunk rest before after =>
      have isPending : chunk ∈ view.loop.pending := before ▸ List.mem_cons_self
      have unset := inv.pendingUnset chunk isPending
      refine ledger.spawns unset.2 (inv.pendingFree chunk isPending)
        (ledger.mem_missing full count unset) ?_ ?_
      · rw [after]
      · rw [after]
  | ends chunk ended =>
      rw [RoundView.book_of_length_le (Nat.le_of_lt ended.shorter)]
      have left : chunk ∉ next.live := fun mem => ((ended.left chunk).mp mem).2 rfl
      exact ledger.ends ended (inv.unset chunk ended.live).2 (follows chunk ended.live left)

end Step

/-! ### The rank -/

/-- What is left to do for a chunk: the failures to come, and how far away its next task is. -/
def RoundView.work (failures spawned : UInt32 → Nat) (view : RoundView) (i : UInt32) : Nat :=
  if (view.bitmap.has i).holds then 0
  else if i ∈ view.live then 6 * (failures i + 1 - spawned i) + 1
  else if i ∈ view.loop.pending then 6 * (failures i - spawned i) + 3
  else 6 * (failures i - spawned i) + 6

/-- What is left to do for all chunks and in the round. -/
def rank (n : UInt32) (failures spawned : UInt32 → Nat) (view : RoundView) : Nat :=
  ((ChunkBitmap.indices n).map (view.work failures spawned)).sum + view.loop.phase

section Rank

variable {n : UInt32} {concurrency : Nat} {first : ChunkBitmap} {failures spawned : UInt32 → Nat}
  {view next : RoundView}

theorem work_of_absent {i : UInt32} (absent : view.bitmap.has i = .ok false) :
    view.work failures spawned i =
      if i ∈ view.live then 6 * (failures i + 1 - spawned i) + 1
      else if i ∈ view.loop.pending then 6 * (failures i - spawned i) + 3
      else 6 * (failures i - spawned i) + 6 := by
  simp [RoundView.work, absent, Checked.holds]

/-- A step that only moves the loop on within its phases. -/
theorem rank_of_phase (sameBitmap : next.bitmap = view.bitmap) (sameLive : next.live = view.live)
    (samePending : next.loop.pending = view.loop.pending)
    (moves : next.loop.phase < view.loop.phase) :
    rank n failures (view.book next spawned) next < rank n failures spawned view := by
  have sameWork : next.work failures (view.book next spawned) = view.work failures spawned := by
    rw [RoundView.book_of_length_le (sameLive ▸ Nat.le_refl _)]
    funext i
    simp only [RoundView.work, sameBitmap, sameLive, samePending]
  rw [rank, rank, sameWork]
  exact Nat.add_lt_add_left moves _

/-- A step that lets the work on one chunk fall by more than the loop moves back. -/
theorem rank_of_work {spawned' : UInt32 → Nat} {chunk : UInt32} (d : Nat) (below : chunk < n)
    (noRise : ∀ i, i ≠ chunk → next.work failures spawned' i ≤ view.work failures spawned i)
    (falls : next.work failures spawned' chunk + d ≤ view.work failures spawned chunk)
    (moves : next.loop.phase < view.loop.phase + d) :
    rank n failures spawned' next < rank n failures spawned view := by
  have noRise' : ∀ i ∈ ChunkBitmap.indices n,
      next.work failures spawned' i ≤ view.work failures spawned i := by
    intro i _
    by_cases same : i = chunk
    · exact same ▸ Nat.le_trans (Nat.le_add_right _ _) falls
    · exact noRise i same
  have sum := sum_map_add_le noRise' (ChunkBitmap.mem_indices.mpr below) falls
  unfold rank
  omega

theorem rank_of_chooses (positive : 0 < concurrency) (full : view.bitmap.Full)
    (inv : RoundInvariant n view) (incomplete : view.bitmap.isComplete = false)
    (before : view.loop = .check)
    (after : next =
      ⟨view.bitmap, .spawning (view.bitmap.missing.take (concurrency * 2)), view.live⟩) :
    rank n failures (view.book next spawned) next < rank n failures spawned view := by
  have noSpawn : view.book next spawned = spawned :=
    RoundView.book_of_length_le (after ▸ Nat.le_refl _)
  have sameBitmap : next.bitmap = view.bitmap := by rw [after]
  have idle : view.live = [] := inv.idle (.inl before)
  have idleNext : next.live = [] := by rw [after, idle]
  have noPending : view.loop.pending = [] := by simp [before, LoopPc.pending]
  have pendingNext : next.loop.pending = view.bitmap.missing.take (concurrency * 2) := by
    rw [after, LoopPc.pending]
  rw [noSpawn]
  cases missing : view.bitmap.missing with
  | nil =>
      rw [full.inStep.complete_iff_none.mpr missing] at incomplete
      cases incomplete
  | cons chunk rest =>
      obtain ⟨below, absent⟩ := ChunkBitmap.mem_missing.mp (missing ▸ List.mem_cons_self)
      have chosen : chunk ∈ next.loop.pending := by
        obtain ⟨window, size⟩ := Nat.exists_eq_succ_of_ne_zero (n := concurrency * 2) (by omega)
        rw [pendingNext, missing, size, List.take_succ_cons]
        exact List.mem_cons_self
      refine rank_of_work 3 (inv.chunkCount ▸ below) ?_ ?_ ?_
      · intro i _
        simp only [RoundView.work, sameBitmap, idle, idleNext, noPending, List.not_mem_nil, if_false]
        by_cases held : (view.bitmap.has i).holds
        · simp [held]
        · by_cases chosen : i ∈ next.loop.pending
          · simp [held, chosen]
          · simp [held, chosen]
      · rw [work_of_absent absent, work_of_absent (sameBitmap ▸ absent)]
        simp [idle, idleNext, noPending, chosen]
      · rw [after, before]
        exact Nat.lt_succ_self _

theorem rank_of_spawns {chunk : UInt32} {rest : List UInt32} (inv : RoundInvariant n view)
    (ledger : Ledger first failures spawned view) (before : view.loop = .acquiring chunk rest)
    (after : next = ⟨view.bitmap, .spawning rest, view.live ++ [chunk]⟩) :
    rank n failures (view.book next spawned) next < rank n failures spawned view := by
  have isPending : chunk ∈ view.loop.pending := before ▸ List.mem_cons_self
  obtain ⟨below, absent⟩ := inv.pendingUnset chunk isPending
  have free := inv.pendingFree chunk isPending
  have waiting := ledger.waiting chunk absent free
  have grown : next.live = view.live ++ [chunk] := by rw [after]
  have booked : ∀ i, view.book next spawned i = if i = chunk then spawned i + 1 else spawned i :=
    RoundView.book_of_spawn grown
  refine rank_of_work 2 below ?_ ?_ ?_
  · intro i other
    have sameSpawned : view.book next spawned i = spawned i := by rw [booked, if_neg other]
    have sameBitmap : next.bitmap = view.bitmap := by rw [after]
    have sameLive : i ∈ next.live ↔ i ∈ view.live := by simp [grown, other]
    have samePending : i ∈ next.loop.pending ↔ i ∈ view.loop.pending := by
      simp [after, before, LoopPc.pending, other]
    simp only [RoundView.work, sameSpawned, sameBitmap, sameLive, samePending]
    exact Nat.le_refl _
  · have absentNext : next.bitmap.has chunk = .ok false := by rw [after, absent]
    have spawnedNow : chunk ∈ next.live := by simp [grown]
    rw [work_of_absent absentNext, work_of_absent absent, if_pos spawnedNow, if_neg free,
      if_pos isPending, booked chunk, if_pos rfl]
    omega
  · rw [after, before]
    exact Nat.lt_succ_self _

theorem rank_of_ends {chunk : UInt32} (inv : RoundInvariant n view)
    (ledger : Ledger first failures spawned view) (ends : view.Ends chunk next)
    (follows : RoundView.EndsBy (fun i => failures i < spawned i) view next) :
    rank n failures (view.book next spawned) next < rank n failures spawned view := by
  obtain ⟨below, absent⟩ := inv.unset chunk ends.live
  have left : chunk ∉ next.live := fun mem => ((ends.left chunk).mp mem).2 rfl
  have free : chunk ∉ view.loop.pending := fun mem => inv.pendingFree chunk mem ends.live
  have bound := ledger.live chunk ends.live
  have verdict := follows chunk ends.live left
  rw [RoundView.book_of_length_le (Nat.le_of_lt ends.shorter)]
  refine rank_of_work 1 below ?_ ?_ ?_
  · intro i other
    have sameLive : i ∈ next.live ↔ i ∈ view.live := by simp [ends.left, other]
    simp only [RoundView.work, ends.frame i other, sameLive, ends.sameLoop]
    exact Nat.le_refl _
  · rw [work_of_absent absent, if_pos ends.live, RoundView.work]
    split
    · omega
    · rename_i failed
      have notYet : ¬ failures chunk < spawned chunk := by
        intro succeeded
        rw [verdict.mpr succeeded] at failed
        exact failed rfl
      rw [ends.sameLoop, if_neg free]
      omega
  · rw [ends.sameLoop]
    exact Nat.lt_succ_self _

/-- Every step of a view that follows the failures lets the rank fall. -/
theorem rank_falls (positive : 0 < concurrency) (full : view.bitmap.Full)
    (inv : RoundInvariant n view) (ledger : Ledger first failures spawned view)
    (stepped : RoundStep concurrency view next)
    (follows : RoundView.EndsBy (fun i => failures i < spawned i) view next) :
    rank n failures (view.book next spawned) next < rank n failures spawned view := by
  cases stepped with
  | returns complete => exact rank_of_phase rfl rfl rfl (by simp [LoopPc.phase])
  | chooses incomplete => exact rank_of_chooses positive full inv incomplete rfl rfl
  | skips present =>
      have absent := (inv.pendingUnset _ List.mem_cons_self).2
      rw [present] at absent
      cases absent
  | awaits absent => exact rank_of_phase rfl rfl rfl (by simp [LoopPc.phase])
  | spawns permit => exact rank_of_spawns inv ledger rfl rfl
  | joins => exact rank_of_phase rfl rfl rfl (by simp [LoopPc.phase])
  | repeats => exact rank_of_phase rfl rfl rfl (by simp [LoopPc.phase])
  | fails k chunk found => exact rank_of_ends inv ledger (inv.fails found) follows
  | marks k chunk found result => exact rank_of_ends inv ledger (inv.marks found result) follows

end Rank

/-! ### Whole behaviours -/

namespace Downloader

variable {platform : Platform} {cfg : DownloaderConfig} {first : Downloader} {n : UInt32}
  {failures : UInt32 → Nat} {run : Behaviour (step platform cfg) first}

theorem view_full (full : first.bitmap.Full) (run : Behaviour (step platform cfg) first) (t : Nat) :
    (run.state t).view.bitmap.Full := by
  refine run.invariant (fun state => state.view.bitmap.Full) full ?_ t
  intro state event next before stepped
  exact full_of_step before stepped

theorem spawned_idle {t : Nat} (idle : (run.state (t + 1)).view = (run.state t).view) :
    spawned run (t + 1) = spawned run t :=
  RoundView.book_of_length_le (idle ▸ Nat.le_refl _)

/-- The ledger holds at every time of a behaviour that follows the failures. -/
theorem ledger_holds (full : first.bitmap.Full) (count : first.bitmap.chunkCount = n)
    (fresh : first.view = ⟨first.bitmap, .check, []⟩) (follows : Follows failures run) (t : Nat) :
    Ledger first.bitmap failures (spawned run t) (run.state t).view := by
  have inv : RoundInvariant n first.view := fresh ▸ RoundInvariant.start count
  induction t with
  | zero =>
      rw [run.starts, fresh]
      exact Ledger.start first.bitmap failures
  | succ t ih =>
      rcases view_moves run t with idle | stepped
      · rw [spawned_idle idle, idle]
        exact ih
      · exact ih.step full count (view_invariant inv run t) stepped (follows t)

/-- A fair behaviour that follows the failures returns. -/
theorem eventually_returned (positive : 0 < cfg.concurrency.toNat) (full : first.bitmap.Full)
    (count : first.bitmap.chunkCount = n) (fresh : first.view = ⟨first.bitmap, .check, []⟩)
    (fair : Fair run) (follows : Follows failures run) :
    ∃ t, (run.state t).loop = .returned := by
  have inv : RoundInvariant n first.view := fresh ▸ RoundInvariant.start count
  have falls : ∀ t, RoundStep cfg.concurrency.toNat (run.state t).view (run.state (t + 1)).view →
      rank n failures (spawned run (t + 1)) (run.state (t + 1)).view <
        rank n failures (spawned run t) (run.state t).view := fun t stepped =>
    rank_falls positive (view_full full run t) (view_invariant inv run t)
      (ledger_holds full count fresh follows t) stepped (follows t)
  have idles : ∀ t, (run.state (t + 1)).view = (run.state t).view →
      rank n failures (spawned run (t + 1)) (run.state (t + 1)).view ≤
        rank n failures (spawned run t) (run.state t).view := by
    intro t idle
    rw [spawned_idle idle, idle]
  obtain ⟨t, _, _, _, returned⟩ := fair.reaches positive inv
    (fun t => rank n failures (spawned run t) (run.state t).view) (fun _ => True)
    (fun view => view.loop = .returned) (fun _ _ running => running)
    (fun t _ idle => ⟨trivial, idles t idle⟩)
    (fun t _ _ stepped => ⟨trivial, .inr (falls t stepped)⟩) (t := 0) trivial
  exact ⟨t, returned⟩

/-- With at least one permit and no more than a semaphore can have, `run` starts on every bitmap
built by `new` and `mark_complete`. If the first `failures i` tasks of every chunk `i` fail and the
later ones succeed, it returns, with a complete bitmap, after `failures i + 1` tasks for every chunk
that was missing and none for the others. -/
theorem terminates_after_failures (platform : Platform) (cfg : DownloaderConfig)
    (positive : 0 < cfg.concurrency) (permits : cfg.concurrency.toNat ≤ maxPermits) (n : UInt32)
    (calls : List UInt32) (disk : String → Option (List UInt8)) (failures : UInt32 → Nat) :
    ∃ answers bitmap first, (ChunkBitmap.new n).markAll calls = .ok (answers, bitmap) ∧
      startFrom cfg bitmap disk = some first ∧
      ∀ run : Behaviour (step platform cfg) first, Follows failures run →
        (Fair run → ∃ t, (run.state t).loop = .returned) ∧
        ∀ t, (run.state t).loop = .returned →
          (run.state t).bitmap.isComplete = true ∧
          (∀ i < n, (run.state t).bitmap.has i = .ok true) ∧
          (∀ i ∈ bitmap.missing, spawned run t i = failures i + 1) ∧
          ∀ i, i ∉ bitmap.missing → spawned run t i = 0 := by
  obtain ⟨answers, bitmap, built, _, raised⟩ :=
    ChunkBitmap.markAll_raises (ChunkBitmap.full_new n) calls
  have full : bitmap.Full := raised.full (ChunkBitmap.full_new n)
  have count : bitmap.chunkCount = n := raised.chunkCount
  refine ⟨answers, bitmap, ⟨bitmap, disk, .check, []⟩, built, if_pos permits, ?_⟩
  intro run follows
  have inv : RoundInvariant n ⟨bitmap, .check, []⟩ := RoundInvariant.start count
  have positive' : 0 < cfg.concurrency.toNat := UInt64.lt_iff_toNat_lt.mp positive
  refine ⟨fun fair => eventually_returned positive' full count rfl fair follows, ?_⟩
  intro t returned
  have ledger := ledger_holds full count rfl follows t
  have here := view_invariant inv run t
  have complete : ∀ i < n, (run.state t).bitmap.has i = .ok true := by
    intro i below
    exact ChunkBitmap.isComplete_iff.mp (here.done returned) i (here.chunkCount.symm ▸ below)
  refine ⟨here.done returned, complete, ?_, ledger.untouched⟩
  intro i missing
  exact ledger.settled i missing (complete i (count ▸ (ChunkBitmap.mem_missing.mp missing).1))

/-! ### A concrete download with a failure -/

/-- The first task of the first chunk fails, in the second round it succeeds. -/
def sampleRetry : List DownloadEvent :=
  let peer : PeerInfo := { nodeId := "p", peerAddr := "a", rackId := "r", uploadBwMbps := 0 }
  [.loop, .loop, .loop, .loop, .loop,
    .tracker 0 (.error (.proto "down")), .tracker 0 (.error (.proto "down")),
    .tracker 1 (.ok [peer]), .tracker 0 (.error (.proto "down")), .exchange 0 (sampleAnswer [3]),
    .loop, .writeDone 0, .mark 0, .loop, .loop, .loop, .loop,
    .tracker 0 (.ok [peer]), .exchange 0 (sampleAnswer [1, 2]), .writeDone 0, .mark 0,
    .loop, .loop, .loop]

/-- The failures of the sample download. -/
def sampleFailures (i : UInt32) : Nat := if i = 0 then 1 else 0

/-- The sample download with nothing there yet. -/
def sampleStart : Downloader where
  bitmap := .new 2
  disk := fun _ => none
  loop := .check
  tasks := []

theorem sampleRetry_runs :
    (runEvents (step samplePlatform sampleConfig) sampleStart sampleRetry).isSome = true := by
  decide +kernel

/-- The sample download as a behaviour. -/
def sampleRun : Behaviour (step samplePlatform sampleConfig) sampleStart :=
  Behaviour.ofRun (Option.some_get sampleRetry_runs).symm

theorem sampleRun_ended {t : Nat} (behind : sampleRetry.length ≤ t) :
    sampleRun.state t = sampleRun.state sampleRetry.length := by
  rw [sampleRun, Behaviour.ofRun_state _ behind, Behaviour.ofRun_state _ (Nat.le_refl _)]

theorem sampleRun_follows : Follows sampleFailures sampleRun := by
  intro t
  rcases Nat.lt_or_ge t sampleRetry.length with inside | behind
  · revert t
    decide +kernel
  · rw [sampleRun_ended behind, sampleRun_ended (Nat.le_succ_of_le behind)]
    exact fun i here gone => absurd here gone

theorem sampleRun_fair : Fair sampleRun := by
  refine fair_of_returned sampleRetry.length fun t behind => ?_
  rw [sampleRun_ended behind]
  decide +kernel

/-- Two permits, two chunks, and one failure of the first: two tasks for it and one for the other. -/
theorem terminates_after_failures_two :
    ∃ t, (sampleRun.state t).loop = .returned ∧ (sampleRun.state t).bitmap.isComplete = true ∧
      spawned sampleRun t 0 = 2 ∧ spawned sampleRun t 1 = 1 := by
  obtain ⟨answers, bitmap, first, built, started, terminates⟩ :=
    terminates_after_failures samplePlatform sampleConfig (by decide) (by decide) 2 [] (fun _ => none)
      sampleFailures
  cases built
  cases started
  obtain ⟨returns, counts⟩ := terminates sampleRun sampleRun_follows
  obtain ⟨t, returned⟩ := returns sampleRun_fair
  obtain ⟨complete, _, missing, _⟩ := counts t returned
  exact ⟨t, returned, complete, missing 0 (by decide), missing 1 (by decide)⟩

/-- More permits than a semaphore can have panic, although the window of chunks does not overflow. -/
theorem too_many_permits_panic :
    ∃ cfg : DownloaderConfig, 0 < cfg.concurrency ∧ cfg.concurrency.toNat * 2 < 2 ^ 64 ∧
      ∀ disk, startFrom cfg (.new 2) disk = none :=
  ⟨{ sampleConfig with concurrency := 0x2000000000000000 }, by decide, by decide,
    fun _ => if_neg (by decide)⟩

end Downloader

end ModelDistribution
