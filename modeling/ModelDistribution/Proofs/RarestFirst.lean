/-
Module: ModelDistribution.Proofs.RarestFirst
Layer: Proofs
Purpose: The chunks that one round of the download loop attempts, and when they are the rarest missing
  ones in the order of the scheduler. A round attempts the first missing chunks in index order, so the
  two agree exactly when the replica counts already rise that way.
Imports: ModelDistribution.Proofs.DownloadIntegrity, ModelDistribution.Proofs.DownloadRounds,
  ModelDistribution.Proofs.RarityRanking
Trusted boundary: none
Main exports: Downloader.attempt, Downloader.roundAttempts, roundAttempts_eq_window,
  Downloader.RarestFirst, rarestFirst_window_iff
-/
import ModelDistribution.Proofs.DownloadIntegrity
import ModelDistribution.Proofs.DownloadRounds
import ModelDistribution.Proofs.RarityRanking

namespace ModelDistribution

open Foundation

namespace Downloader

/-! ### The attempts of a round -/

/-- The chunk that an event of the loop spawns a task for. -/
def attempt (state : Downloader) : DownloadEvent → Option UInt32
  | .loop =>
      match state.loop with
      | .acquiring chunk _ => some chunk
      | _ => none
  | _ => none

/-- The chunks that are attempted, in their order, when the events lead from the state to the end of
the same round. -/
def roundAttempts (platform : Platform) (cfg : DownloaderConfig) :
    Downloader → List DownloadEvent → Option (List UInt32)
  | state, [] => if state.loop = .joining then some [] else none
  | state, event :: events => do
      let next ← state.step platform cfg event
      if next.loop = .check then none
      else
        let later ← roundAttempts platform cfg next events
        return (state.attempt event).toList ++ later

variable {platform : Platform} {cfg : DownloaderConfig} {n : UInt32} {state next : Downloader}
  {event : DownloadEvent} {events : List DownloadEvent} {attempted : List UInt32}

/-- The events of tasks leave the loop where it is. -/
theorem loop_of_taskStep (notLoop : event ≠ .loop)
    (stepped : state.step platform cfg event = some next) : next.loop = state.loop := by
  cases step_effect stepped with
  | returns | chooses | loopMoves | spawns => exact absurd rfl notLoop
  | taskMoves | taskWrites | taskFails | taskWritten | taskMarks => rfl

/-- Inside a round a step attempts the chunks that it takes off the pending ones. -/
theorem pending_of_step (inv : RoundInvariant n state.view)
    (inRound : state.loop ≠ .check) (stepped : state.step platform cfg event = some next) :
    state.loop.pending = (state.attempt event).toList ++ next.loop.pending := by
  cases event with
  | loop =>
      obtain ⟨bitmap, disk, loop, tasks⟩ := state
      cases loop with
      | check => exact absurd rfl inRound
      | spawning chosen =>
          cases chosen with
          | nil =>
              cases stepped
              exact rfl
          | cons chunk rest =>
              -- A pending chunk is missing, so the second look never skips it.
              have absent : bitmap.has chunk = .ok false :=
                (inv.pendingUnset chunk List.mem_cons_self).2
              simp only [step, loopStep, absent] at stepped
              cases stepped
              exact rfl
      | acquiring chunk rest =>
          simp only [step, loopStep] at stepped
          split at stepped
          · cases stepped
            exact rfl
          · cases stepped
      | joining =>
          simp only [step, loopStep] at stepped
          split at stepped
          · cases stepped
            exact rfl
          · cases stepped
      | returned => cases stepped
  | _ =>
      rw [loop_of_taskStep (by simp) stepped]
      rfl

/-- The rest of a round attempts exactly the chunks that are still pending. -/
theorem roundAttempts_eq_pending (inv : RoundInvariant n state.view)
    (inRound : state.loop ≠ .check)
    (round : state.roundAttempts platform cfg events = some attempted) :
    attempted = state.loop.pending := by
  induction events generalizing state attempted with
  | nil =>
      simp only [roundAttempts, Option.ite_none_right_eq_some, Option.some.injEq] at round
      obtain ⟨joining, rfl⟩ := round
      rw [joining]
      rfl
  | cons event events ih =>
      simp only [roundAttempts, Option.bind_eq_bind, Option.bind_eq_some_iff] at round
      obtain ⟨next, stepped, round⟩ := round
      split at round
      · cases round
      · rename_i stillInRound
        obtain ⟨later, following, gathered⟩ := Option.bind_eq_some_iff.mp round
        cases gathered
        rw [pending_of_step inv inRound stepped,
          ih (round_of_step inv stepped) stillInRound following]

/-- No round leaves a returned loop. -/
theorem roundAttempts_of_returned (inv : RoundInvariant n state.view)
    (returned : state.loop = .returned) : state.roundAttempts platform cfg events = none := by
  have noTasks : state.tasks = [] := List.map_eq_nil_iff.mp (inv.idle (.inr returned))
  cases events with
  | nil => simp [roundAttempts, returned]
  | cons event events =>
      have stuck : state.step platform cfg event = none := by
        cases event <;> simp [step, loopStep, returned, noTasks]
      simp [roundAttempts, stuck]

/-- A whole round attempts the first missing chunks, twice as many as it has permits. -/
theorem roundAttempts_eq_window (inv : RoundInvariant n state.view) (atCheck : state.loop = .check)
    (round : state.roundAttempts platform cfg events = some attempted) :
    attempted = state.bitmap.missing.take (cfg.concurrency.toNat * 2) := by
  have noTasks : state.tasks = [] := List.map_eq_nil_iff.mp (inv.idle (.inl atCheck))
  cases events with
  | nil => simp [roundAttempts, atCheck] at round
  | cons event events =>
      simp only [roundAttempts, Option.bind_eq_bind, Option.bind_eq_some_iff] at round
      obtain ⟨next, stepped, round⟩ := round
      split at round
      · cases round
      · rename_i inRound
        obtain ⟨later, following, gathered⟩ := Option.bind_eq_some_iff.mp round
        cases gathered
        have after := round_of_step inv stepped
        -- Without tasks only the loop can move.
        cases event with
        | loop =>
            simp only [step, loopStep, atCheck] at stepped
            split at stepped
            · cases stepped
              rw [roundAttempts_of_returned after rfl] at following
              cases following
            · cases stepped
              rw [roundAttempts_eq_pending after inRound following]
              simp [attempt, atCheck, LoopPc.pending]
        | _ => simp [step, noTasks] at stepped

/-! ### The rarest missing chunks -/

/-- The chunk has no more replicas than the other. -/
def NoMoreReplicas (counts : List UInt32) (i j : UInt32) : Prop :=
  counts.getD i.toNat 0 ≤ counts.getD j.toNat 0

/-- The attempts are as many of the missing chunks as the window holds, no missing chunk without an
attempt has fewer replicas than one with an attempt, and they come in the order of `rarity_order`. -/
structure RarestFirst (profile : Profile) (layout : Layout String NodeState) (job : Job)
    (concurrency : Nat) (missing attempted : List UInt32) : Prop where
  size : attempted.length = min (2 * concurrency) missing.length
  chosen : attempted ⊆ missing ∧ attempted.Nodup
  rarest : ∃ counts, job.replicaCounts profile layout = .ok counts ∧
    ∀ i ∈ attempted, ∀ j ∈ missing, j ∉ attempted → NoMoreReplicas counts i j
  ordered : ∃ ranked, Scheduler.rarityOrder profile layout job missing = .ok ranked ∧
    attempted.Sublist (ranked.map Prod.fst)

/-- The ranking of the missing chunks, without the counts, is sorted by them. -/
theorem ranked_sorted {counts missing : List UInt32} {ranked : List (UInt32 × UInt32)}
    (stable : StableSorted ByRarity (missing.map fun i => (i, counts.getD i.toNat 0)) ranked) :
    (ranked.map Prod.fst).Pairwise (NoMoreReplicas counts) := by
  have counted : ∀ entry ∈ ranked, entry.2 = counts.getD entry.1.toNat 0 := by
    intro entry mem
    obtain ⟨i, _, rfl⟩ := List.mem_map.mp (stable.perm.mem_iff.mp mem)
    rfl
  rw [List.pairwise_map]
  refine stable.sorted.imp_of_mem fun {a b} memA memB rarer => ?_
  have rarer : a.2 ≤ b.2 := rarer
  rwa [counted a memA, counted b memB] at rarer

/-- Chunks that are sorted by their counts already keep their order in the ranking. -/
theorem sublist_ranked {counts missing chosen : List UInt32} {ranked : List (UInt32 × UInt32)}
    (stable : StableSorted ByRarity (missing.map fun i => (i, counts.getD i.toNat 0)) ranked)
    (among : chosen.Sublist missing) (sorted : chosen.Pairwise (NoMoreReplicas counts)) :
    chosen.Sublist (ranked.map Prod.fst) := by
  let entry (i : UInt32) : UInt32 × UInt32 := (i, counts.getD i.toNat 0)
  have entries : (chosen.map entry).Sublist ranked := by
    rw [stable.unique]
    exact List.sublist_insertionSort (List.pairwise_map.mpr sorted) (among.map entry)
  have names := entries.map Prod.fst
  rw [List.map_map] at names
  exact (List.map_id chosen ▸ names :)

/-- The first missing chunks are the rarest ones in the order of the scheduler exactly when each of
them has no more replicas than any missing chunk behind it. -/
theorem rarestFirst_window_iff {profile : Profile} {layout : Layout String NodeState} {job : Job}
    {missing : List UInt32} (distinct : missing.Nodup) (concurrency : Nat) :
    RarestFirst profile layout job concurrency missing (missing.take (concurrency * 2)) ↔
      ∃ counts, job.replicaCounts profile layout = .ok counts ∧
        RankedPrefix (NoMoreReplicas counts) (concurrency * 2) missing := by
  have left : ∀ j, j ∈ missing.drop (concurrency * 2) ↔
      j ∈ missing ∧ j ∉ missing.take (concurrency * 2) := by
    intro j
    have apart := List.disjoint_take_drop distinct (Nat.le_refl (concurrency * 2))
    have joined : j ∈ missing ↔ j ∈ missing.take (concurrency * 2) ∨
        j ∈ missing.drop (concurrency * 2) := by
      rw [← List.mem_append, List.take_append_drop]
    constructor
    · intro cut
      exact ⟨joined.mpr (.inr cut), fun kept => apart kept cut⟩
    · rintro ⟨mem, notKept⟩
      exact (joined.mp mem).resolve_left notKept
  simp only [rankedPrefix_iff]
  constructor
  · intro rarest
    obtain ⟨counts, counted, least⟩ := rarest.rarest
    obtain ⟨ranked, ordered, sublist⟩ := rarest.ordered
    obtain ⟨ranked', ordered', stable⟩ := Scheduler.rarityOrder_stable counted missing
    rw [ordered] at ordered'
    cases ordered'
    refine ⟨counts, counted, (ranked_sorted stable).sublist sublist, ?_⟩
    intro i kept j cut
    obtain ⟨mem, notKept⟩ := (left j).mp cut
    exact least i kept j mem notKept
  · rintro ⟨counts, counted, sorted, cut⟩
    obtain ⟨ranked, ordered, stable⟩ := Scheduler.rarityOrder_stable counted missing
    have among := List.take_sublist (concurrency * 2) missing
    exact {
      size := by rw [List.length_take, Nat.mul_comm]
      chosen := ⟨among.subset, among.nodup distinct⟩
      rarest := ⟨counts, counted, fun i kept j mem notKept =>
        cut i kept j ((left j).mpr ⟨mem, notKept⟩)⟩
      ordered := ⟨ranked, ordered, sublist_ranked stable among sorted⟩ }

/-- One round of the download loop, in any run from any bitmap, attempts the rarest missing chunks in
the order of the scheduler exactly when the counts rise in index order: each of the first missing
chunks that fill the window has no more replicas than any missing chunk behind it. -/
theorem round_rarestFirst_iff (platform : Platform) (cfg : DownloaderConfig) (bitmap : ChunkBitmap)
    (disk : String → Option (List UInt8)) (first state : Downloader)
    (before events : List DownloadEvent) (attempted : List UInt32)
    (started : startFrom cfg bitmap disk = some first)
    (reached : runEvents (step platform cfg) first before = some state)
    (atCheck : state.loop = .check)
    (round : state.roundAttempts platform cfg events = some attempted)
    (profile : Profile) (layout : Layout String NodeState) (job : Job) :
    RarestFirst profile layout job cfg.concurrency.toNat state.bitmap.missing attempted ↔
      ∃ counts, job.replicaCounts profile layout = .ok counts ∧
        RankedPrefix (NoMoreReplicas counts) (cfg.concurrency.toNat * 2) state.bitmap.missing := by
  obtain ⟨_, rfl⟩ := startFrom_eq_some_iff.mp started
  have inv : RoundInvariant bitmap.chunkCount state.view := by
    refine runEvents_invariant (fun state => RoundInvariant bitmap.chunkCount state.view) ?_
      (RoundInvariant.start rfl) reached
    intro _ _ _ inv stepped
    exact round_of_step inv stepped
  rw [roundAttempts_eq_window inv atCheck round]
  exact rarestFirst_window_iff state.bitmap.nodup_missing _

/-! ### A round over three chunks -/

/-- A node with one permit that downloads a file of three chunks. -/
def threeChunkConfig : DownloaderConfig :=
  { sampleConfig with
    manifest := .built Manifest.sampleDigest "m" "1" [1, 2, 3] 1
    concurrency := 1 }

/-- The node before its first chunk. -/
def threeChunkStart : Downloader := ⟨.new 3, fun _ => none, .check, []⟩

/-- One node has all three chunks, another one those of the given bits. -/
def threeChunkJob (bits : UInt8) : Job :=
  let state (nodeId : String) (bits : UInt8) : NodeState :=
    { nodeId, rackId := "r", peerAddr := nodeId ++ ":9000", bitmap := .fromBytes [bits] 3,
      uploadBwMbps := 10, lastSeen := 0 }
  { Job.new "job" threeChunkConfig.manifest .rarityFirst with
    nodes := (ShardedMap.empty.insert "a" (state "a" 0xE0)).insert "b" (state "b" bits) }

/-- A round in which both attempts fail: the tracker does not answer. -/
def unansweredRound : List DownloadEvent :=
  let unanswered : DownloadEvent := .tracker 0 (.error (.io ⟨.unexpectedEof, "early eof"⟩))
  [.loop, .loop, .loop, unanswered, unanswered, unanswered, .loop, .loop,
    unanswered, unanswered, unanswered, .loop]

/-- Its first two chunks are attempted, and they are the rarest when the third has more replicas. -/
theorem round_rarestFirst_rising :
    threeChunkStart.roundAttempts samplePlatform threeChunkConfig unansweredRound = some [0, 1] ∧
      (threeChunkJob 0x20).replicaCounts .debug (.byLength NodeState) = .ok [1, 1, 2] ∧
      RarestFirst .debug (.byLength NodeState) (threeChunkJob 0x20) 1 [0, 1, 2] [0, 1] := by
  have round : threeChunkStart.roundAttempts samplePlatform threeChunkConfig unansweredRound =
      some [0, 1] := by decide +kernel
  have counted : (threeChunkJob 0x20).replicaCounts .debug (.byLength NodeState) =
      .ok [1, 1, 2] := by decide +kernel
  refine ⟨round, counted, ?_⟩
  have missing : threeChunkStart.bitmap.missing = [0, 1, 2] := by decide
  have rising : RankedPrefix (NoMoreReplicas [1, 1, 2]) 2 [0, 1, 2] := by
    simp [RankedPrefix, NoMoreReplicas]
  have rarest := (round_rarestFirst_iff samplePlatform threeChunkConfig (.new 3) (fun _ => none)
    threeChunkStart threeChunkStart [] unansweredRound [0, 1] rfl rfl rfl round .debug
    (.byLength NodeState) (threeChunkJob 0x20)).mpr ⟨_, counted, missing ▸ rising⟩
  exact missing ▸ rarest

/-- They are attempted as well when the third has fewer replicas, although `rarity_order` puts it
first. -/
theorem round_not_rarestFirst :
    threeChunkStart.roundAttempts samplePlatform threeChunkConfig unansweredRound = some [0, 1] ∧
      threeChunkStart.bitmap.missing = [0, 1, 2] ∧
      Scheduler.rarityOrder .debug (.byLength NodeState) (threeChunkJob 0xC0) [0, 1, 2] =
        .ok [(2, 1), (0, 2), (1, 2)] ∧
      ¬ RarestFirst .debug (.byLength NodeState) (threeChunkJob 0xC0) 1 [0, 1, 2] [0, 1] := by
  refine ⟨by decide +kernel, by decide, by decide +kernel, ?_⟩
  intro rarest
  obtain ⟨counts, counted, least⟩ := rarest.rarest
  have known : (threeChunkJob 0xC0).replicaCounts .debug (.byLength NodeState) =
      .ok [2, 2, 1] := by decide +kernel
  rw [known] at counted
  cases counted
  have fewer := least 0 (by decide) 2 (by decide) (by decide)
  revert fewer
  unfold NoMoreReplicas
  decide

end Downloader

end ModelDistribution
