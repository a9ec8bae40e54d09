/-
Module: ModelDistribution.Proofs.DownloadIntegrity
Layer: Proofs
Purpose: A set bit means a verified chunk file. The invariant links the bitmap, the files and the live
  tasks: at most one task for each chunk, none for a set chunk, and what a task holds or has written
  is accepted. It holds in every run, whatever the tracker, the peers and the disk do.
Imports: ModelDistribution.Foundation.Machine, ModelDistribution.Proofs.DownloadRounds,
  ModelDistribution.Proofs.Reassembly
Trusted boundary: none
Main exports: DownloadInvariant, download_invariant, bits_kept, download_integrity
-/
import ModelDistribution.Foundation.Machine
import ModelDistribution.Proofs.DownloadRounds
import ModelDistribution.Proofs.Reassembly

namespace ModelDistribution

open Foundation

/-- The file of the chunk holds accepted data. -/
def FileAccepted (platform : Platform) (cfg : DownloaderConfig)
    (disk : String → Option (List UInt8)) (i : UInt32) : Prop :=
  ∃ data, disk (cfg.path i) = some data ∧ Accepted platform cfg.manifest i data

/-- What holds between bitmap, files, loop and tasks. -/
structure DownloadInvariant (platform : Platform) (cfg : DownloaderConfig)
    (state : Downloader) : Prop where
  full : state.bitmap.Full
  chunkCount : state.bitmap.chunkCount = cfg.manifest.chunkCount
  /-- A set bit stands for an accepted file. -/
  bits : ∀ i, state.bitmap.has i = .ok true → FileAccepted platform cfg state.disk i
  /-- No two live tasks have the same chunk. -/
  distinct : (state.tasks.map Task.chunk).Nodup
  /-- A live task has a chunk of the file whose bit is not set. -/
  unset : ∀ task ∈ state.tasks,
    task.chunk < state.bitmap.chunkCount ∧ state.bitmap.has task.chunk = .ok false
  received : ∀ task ∈ state.tasks, ∀ data rest, task.pc = .persist data rest →
    Accepted platform cfg.manifest task.chunk data
  written : ∀ task ∈ state.tasks, task.pc = .markBit →
    FileAccepted platform cfg state.disk task.chunk
  /-- The chunks still to come in a round are distinct, unset and without a task. -/
  pendingDistinct : state.loop.pending.Nodup
  pendingUnset : ∀ chunk ∈ state.loop.pending,
    chunk < state.bitmap.chunkCount ∧ state.bitmap.has chunk = .ok false
  pendingFree : ∀ chunk ∈ state.loop.pending, chunk ∉ state.tasks.map Task.chunk
  /-- Between two rounds and after the return there are no tasks. -/
  idle : state.loop = .check ∨ state.loop = .returned → state.tasks = []
  done : state.loop = .returned → state.bitmap.isComplete = true

section Steps

variable {platform : Platform} {cfg : DownloaderConfig} {state : Downloader}

/-- The part of the invariant about the rounds of the loop is the one about the view. -/
theorem DownloadInvariant.round (inv : DownloadInvariant platform cfg state) :
    RoundInvariant cfg.manifest.chunkCount state.view where
  chunkCount := inv.chunkCount
  distinct := inv.distinct
  unset i mem := by
    obtain ⟨task, live, rfl⟩ := List.mem_map.mp mem
    exact inv.chunkCount ▸ inv.unset task live
  pendingDistinct := inv.pendingDistinct
  pendingUnset := inv.chunkCount ▸ inv.pendingUnset
  pendingFree := inv.pendingFree
  idle atRest := List.map_eq_nil_iff.mpr (inv.idle atRest)
  done := inv.done

/-- The part of the invariant about the files: a set bit stands for an accepted file, and so does what
a task holds or has written. -/
structure FilesAccepted (platform : Platform) (cfg : DownloaderConfig) (state : Downloader) :
    Prop where
  bits : ∀ i, state.bitmap.has i = .ok true → FileAccepted platform cfg state.disk i
  received : ∀ task ∈ state.tasks, ∀ data rest, task.pc = .persist data rest →
    Accepted platform cfg.manifest task.chunk data
  written : ∀ task ∈ state.tasks, task.pc = .markBit →
    FileAccepted platform cfg state.disk task.chunk

theorem DownloadInvariant.files (inv : DownloadInvariant platform cfg state) :
    FilesAccepted platform cfg state :=
  ⟨inv.bits, inv.received, inv.written⟩

/-- The invariant from its parts. -/
theorem RoundInvariant.download (round : RoundInvariant cfg.manifest.chunkCount state.view)
    (full : state.bitmap.Full) (files : FilesAccepted platform cfg state) :
    DownloadInvariant platform cfg state where
  full := full
  chunkCount := round.chunkCount
  bits := files.bits
  distinct := round.distinct
  unset task live := by
    have unset := round.unset task.chunk (List.mem_map_of_mem live)
    exact ⟨Eq.symm round.chunkCount ▸ unset.1, unset.2⟩
  received := files.received
  written := files.written
  pendingDistinct := round.pendingDistinct
  pendingUnset chunk mem := by
    have unset := round.pendingUnset chunk mem
    exact ⟨Eq.symm round.chunkCount ▸ unset.1, unset.2⟩
  pendingFree := round.pendingFree
  idle atRest := List.map_eq_nil_iff.mp (round.idle atRest)
  done := round.done

/-- Writing the file of one chunk leaves the files of all others. -/
theorem writeFile_other (disk : Disk) (content : Option (List UInt8)) {i chunk : UInt32}
    (different : i ≠ chunk) :
    writeFile disk (cfg.path chunk) content (cfg.path i) = disk (cfg.path i) :=
  writeFile_ne disk content fun same => different (chunkPath_injective same)

/-- A set bit is not the bit of a live task. -/
theorem DownloadInvariant.ne_of_set (inv : DownloadInvariant platform cfg state) {task : Task}
    (live : task ∈ state.tasks) {i : UInt32} (set : state.bitmap.has i = .ok true) :
    i ≠ task.chunk := by
  rintro rfl
  have clear := (inv.unset task live).2
  rw [set] at clear
  cases clear

/-- The start of `run` over any files. -/
theorem invariant_start {disk : String → Option (List UInt8)}
    (started : Downloader.start cfg disk = some state) : DownloadInvariant platform cfg state := by
  unfold Downloader.start at started
  split at started
  · cases started
    have round : RoundInvariant cfg.manifest.chunkCount
        ⟨.new cfg.manifest.chunkCount, .check, []⟩ := RoundInvariant.start rfl
    refine round.download (ChunkBitmap.full_new _) ⟨?_, by simp, by simp⟩
    intro i set
    rw [ChunkBitmap.has_new] at set
    cases set
  · cases started

theorem files_spawns (files : FilesAccepted platform cfg state) (chunk : UInt32) (next : LoopPc) :
    FilesAccepted platform cfg
      { state with
        loop := next
        tasks := state.tasks ++ [{ chunk, attempt := 0, pc := .askTracker }] } := by
  have newOrOld : ∀ task ∈ state.tasks ++ [{ chunk, attempt := 0, pc := .askTracker }],
      task ∈ state.tasks ∨ task = { chunk, attempt := 0, pc := .askTracker } := by
    intro task mem
    simpa using mem
  refine ⟨files.bits, ?_, ?_⟩
  · intro task mem data others persisting
    rcases newOrOld task mem with old | rfl
    · exact files.received task old data others persisting
    · cases persisting
  · intro task mem marking
    rcases newOrOld task mem with old | rfl
    · exact files.written task old marking
    · cases marking

/-- A task is replaced or dropped, and its own file may change: every other task keeps its file, and
the invariant needs only what it says of the new task. -/
theorem files_task (inv : DownloadInvariant platform cfg state) {k : Nat} {task : Task}
    (found : state.tasks[k]? = some task) {disk : String → Option (List UInt8)}
    (frame : ∀ i, i ≠ task.chunk → disk (cfg.path i) = state.disk (cfg.path i))
    {result : Option Task}
    (sameChunk : ∀ next, result = some next → next.chunk = task.chunk)
    (received : ∀ next, result = some next → ∀ data rest, next.pc = .persist data rest →
      Accepted platform cfg.manifest task.chunk data)
    (written : ∀ next, result = some next → next.pc = .markBit →
      FileAccepted platform cfg disk task.chunk) :
    FilesAccepted platform cfg
      { state with disk := disk, tasks := putTask state.tasks k result } := by
  have live : task ∈ state.tasks := List.mem_of_getElem? found
  have keepsFile : ∀ i, i ≠ task.chunk → FileAccepted platform cfg state.disk i →
      FileAccepted platform cfg disk i := by
    rintro i different ⟨data, stored, checked⟩
    exact ⟨data, by rw [frame i different, stored], checked⟩
  refine ⟨?_, ?_, ?_⟩
  · intro i set
    exact keepsFile i (inv.ne_of_set live set) (inv.bits i set)
  · intro other mem data rest persisting
    rcases mem_putTask inv.distinct found mem with new | ⟨old, _⟩
    · rw [sameChunk other new]
      exact received other new data rest persisting
    · exact inv.received other old data rest persisting
  · intro other mem marking
    rcases mem_putTask inv.distinct found mem with new | ⟨old, different⟩
    · rw [sameChunk other new]
      exact written other new marking
    · exact keepsFile other.chunk different (inv.written other old marking)

/-- A task moves on without marking, whatever it did to its own file. -/
theorem files_moves (inv : DownloadInvariant platform cfg state) {k : Nat} {task : Task}
    (found : state.tasks[k]? = some task) {disk : String → Option (List UInt8)}
    (frame : ∀ i, i ≠ task.chunk → disk (cfg.path i) = state.disk (cfg.path i))
    {result : Option Task}
    (moves : ∀ next, result = some next → Moves platform cfg.manifest task next) :
    FilesAccepted platform cfg
      { state with disk := disk, tasks := putTask state.tasks k result } := by
  apply files_task inv found frame
  · intro moved eq
    exact (moves moved eq).sameChunk
  · intro moved eq
    exact (moves moved eq).holdsAccepted
  · intro moved eq marking
    exact absurd marking (moves moved eq).notMarking

/-- Marking the bit of a task whose file is written, and dropping the task. -/
theorem files_marks (inv : DownloadInvariant platform cfg state) {k : Nat} {task : Task}
    (found : state.tasks[k]? = some task) (marking : task.pc = .markBit) {fresh : Bool}
    {marked : ChunkBitmap} (result : state.bitmap.markComplete task.chunk = .ok (fresh, marked)) :
    FilesAccepted platform cfg
      { state with bitmap := marked, tasks := putTask state.tasks k none } := by
  have left : ∀ other ∈ putTask state.tasks k none, other ∈ state.tasks := fun _ mem =>
    List.mem_of_mem_eraseIdx mem
  refine ⟨?_, ?_, ?_⟩
  · intro i set
    by_cases same : i = task.chunk
    · exact same ▸ inv.written task (List.mem_of_getElem? found) marking
    · rw [ChunkBitmap.has_markComplete_of_ne result same] at set
      exact inv.bits i set
  · intro other mem
    exact inv.received other (left other mem)
  · intro other mem
    exact inv.written other (left other mem)

/-- One step keeps what the invariant says of the files: one case for each effect. -/
theorem files_step (inv : DownloadInvariant platform cfg state) {event : DownloadEvent}
    {next : Downloader} (stepped : state.step platform cfg event = some next) :
    FilesAccepted platform cfg next := by
  cases step_effect stepped with
  | returns atCheck complete => exact ⟨inv.bits, inv.received, inv.written⟩
  | chooses n atCheck => exact ⟨inv.bits, inv.received, inv.written⟩
  | loopMoves nextLoop pending notReturned joined => exact ⟨inv.bits, inv.received, inv.written⟩
  | spawns chunk rest atAcquire => exact files_spawns inv.files chunk (.spawning rest)
  | taskMoves k task result found moves => exact files_moves inv found (fun _ _ => rfl) moves
  | taskWrites k task content data rest found persisting =>
      have live := List.mem_of_getElem? found
      have unchanged : putTask state.tasks k (some task) = state.tasks := by
        obtain ⟨inside, at_k⟩ := List.getElem?_eq_some_iff.mp found
        rw [putTask, ← at_k, List.set_getElem_self]
      rw [← unchanged]
      apply files_task inv found
        (fun i different => writeFile_other state.disk content different)
      · intro same eq
        cases eq
        rfl
      · intro same eq
        cases eq
        exact inv.received task live
      · intro same eq marking
        cases eq
        rw [persisting] at marking
        cases marking
  | taskFails k task content result found moves =>
      exact files_moves inv found
        (fun i different => writeFile_other state.disk content different) moves
  | taskWritten k task data rest found persisting =>
      have live := List.mem_of_getElem? found
      apply files_task inv found
        (fun i different => writeFile_other state.disk (some data) different)
      · intro moved eq
        cases eq
        rfl
      · intro moved eq data' rest' persisting'
        cases eq
        cases persisting'
      · intro moved eq _
        exact ⟨data, writeFile_same _ _ _, inv.received task live data rest persisting⟩
  | taskMarks k task fresh marked found marking result =>
      exact files_marks inv found marking result

/-- One step keeps the invariant: the view keeps the rounds, and the files are kept. -/
theorem invariant_step (inv : DownloadInvariant platform cfg state) {event : DownloadEvent}
    {next : Downloader} (stepped : state.step platform cfg event = some next) :
    DownloadInvariant platform cfg next := by
  have round := Downloader.round_of_step inv.round stepped
  have full := Downloader.full_of_step inv.full stepped
  exact round.download full (files_step inv stepped)

/-- A step keeps every set bit. -/
theorem bits_kept (inv : DownloadInvariant platform cfg state) {event : DownloadEvent}
    {next : Downloader} (stepped : state.step platform cfg event = some next) {i : UInt32}
    (set : state.bitmap.has i = .ok true) : next.bitmap.has i = .ok true := by
  cases step_effect stepped with
  | taskMarks k task fresh marked found marking result =>
      obtain ⟨_, _, returned, _, _, _, _, raised⟩ :=
        ChunkBitmap.markComplete_spec inv.full task.chunk
      rw [returned] at result
      cases result
      exact (raised i).mpr (.inl set)
  | _ => exact set

/-- A step leaves the file of a set bit as it is. -/
theorem file_kept (inv : DownloadInvariant platform cfg state) {event : DownloadEvent}
    {next : Downloader} (stepped : state.step platform cfg event = some next) {i : UInt32}
    (set : state.bitmap.has i = .ok true) : next.disk (cfg.path i) = state.disk (cfg.path i) := by
  cases step_effect stepped with
  | taskWrites k task content data rest found persisting =>
      exact writeFile_other _ _ (inv.ne_of_set (List.mem_of_getElem? found) set)
  | taskFails k task content result found moves =>
      exact writeFile_other _ _ (inv.ne_of_set (List.mem_of_getElem? found) set)
  | taskWritten k task data rest found persisting =>
      exact writeFile_other _ _ (inv.ne_of_set (List.mem_of_getElem? found) set)
  | _ => rfl

/-- No step writes the file of a set bit. -/
theorem not_writtenPath_of_set (inv : DownloadInvariant platform cfg state) {i : UInt32}
    (set : state.bitmap.has i = .ok true) (event : DownloadEvent) :
    Downloader.writtenPath cfg state event ≠ some (cfg.path i) := by
  have noTask : ∀ k : Nat, (state.tasks[k]?.map fun task : Task => cfg.path task.chunk) ≠
      some (cfg.path i) := by
    intro k written
    obtain ⟨task, found, samePath⟩ := Option.map_eq_some_iff.mp written
    exact inv.ne_of_set (List.mem_of_getElem? found) set (chunkPath_injective samePath).symm
  cases event with
  | writing k content => exact noTask k
  | writeDone k => exact noTask k
  | writeFailed k left => exact noTask k
  | _ => simp [Downloader.writtenPath]

end Steps

/-- The file of the chunk holds a verified chunk. -/
def VerifiedFile (platform : Platform) (cfg : DownloaderConfig)
    (disk : String → Option (List UInt8)) (i : UInt32) : Prop :=
  ∃ data, disk (cfg.path i) = some data ∧
    cfg.manifest.ChunkVerified platform.profile platform.sha256 i data

section Runs

variable {platform : Platform} {cfg : DownloaderConfig} {first final : Downloader}
  {events : List DownloadEvent}

/-- The invariant holds after every run. -/
theorem download_invariant {disk : String → Option (List UInt8)}
    (started : Downloader.start cfg disk = some first)
    (ran : runEvents (Downloader.step platform cfg) first events = some final) :
    DownloadInvariant platform cfg final :=
  runEvents_invariant (DownloadInvariant platform cfg)
    (fun _ _ _ inv stepped => invariant_step inv stepped) (invariant_start started) ran

/-- Through a whole run, set bits stay set and their files stay as they are. -/
theorem run_keeps (inv : DownloadInvariant platform cfg first)
    (ran : runEvents (Downloader.step platform cfg) first events = some final) :
    ∀ i, first.bitmap.has i = .ok true →
      final.bitmap.has i = .ok true ∧ final.disk (cfg.path i) = first.disk (cfg.path i) := by
  let Kept (before after : Downloader) : Prop := ∀ i, before.bitmap.has i = .ok true →
    after.bitmap.has i = .ok true ∧ after.disk (cfg.path i) = before.disk (cfg.path i)
  have preserved : ∀ state event next, DownloadInvariant platform cfg state →
      state.step platform cfg event = some next → DownloadInvariant platform cfg next :=
    fun _ _ _ before stepped => invariant_step before stepped
  have refl : ∀ state, Kept state state := fun _ _ set => ⟨set, rfl⟩
  have trans : ∀ {a b c}, Kept a b → Kept b c → Kept a c := by
    intro a b c early late i set
    obtain ⟨setB, fileB⟩ := early i set
    obtain ⟨setC, fileC⟩ := late i setB
    exact ⟨setC, fileC.trans fileB⟩
  have kept : ∀ state event next, DownloadInvariant platform cfg state →
      state.step platform cfg event = some next → Kept state next := by
    intro state event next before stepped i set
    exact ⟨bits_kept before stepped set, file_kept before stepped set⟩
  exact runEvents_related preserved refl trans kept inv ran

/-- Under a well-formed manifest a set bit has a verified file. -/
theorem DownloadInvariant.verifiedFile (inv : DownloadInvariant platform cfg final)
    (wellFormed : cfg.manifest.WellFormed) {i : UInt32} (set : final.bitmap.has i = .ok true) :
    VerifiedFile platform cfg final.disk i := by
  obtain ⟨data, stored, accepted⟩ := inv.bits i set
  have below : i < cfg.manifest.chunkCount := inv.chunkCount ▸ ChunkBitmap.has_lt set
  exact ⟨data, stored, accepted.chunkVerified wellFormed below⟩

/-- In every reachable state a set bit has a verified file; from the step that sets it on, no step
writes that file; and `run` returns only with all chunks verified. -/
theorem download_integrity (platform : Platform) (cfg : DownloaderConfig)
    (wellFormed : cfg.manifest.WellFormed) (disk : String → Option (List UInt8))
    (first final : Downloader) (events : List DownloadEvent)
    (started : Downloader.start cfg disk = some first)
    (ran : runEvents (Downloader.step platform cfg) first events = some final) :
    (∀ i, final.bitmap.has i = .ok true → VerifiedFile platform cfg final.disk i) ∧
      (∀ before event after middle i, events = before ++ event :: after →
        runEvents (Downloader.step platform cfg) first before = some middle →
        middle.bitmap.has i = .ok true →
        Downloader.writtenPath cfg middle event ≠ some (cfg.path i) ∧
          final.bitmap.has i = .ok true ∧
          final.disk (cfg.path i) = middle.disk (cfg.path i)) ∧
      (final.loop = .returned →
        ∀ i < cfg.manifest.chunkCount, VerifiedFile platform cfg final.disk i) := by
  have inv : DownloadInvariant platform cfg final := download_invariant started ran
  refine ⟨?_, ?_, ?_⟩
  · intro i set
    exact inv.verifiedFile wellFormed set
  · intro before event after middle i split reached set
    have invMiddle : DownloadInvariant platform cfg middle := download_invariant started reached
    rw [split] at ran
    obtain ⟨same, toMiddle, onwards⟩ := runEvents_append.mp ran
    rw [reached] at toMiddle
    cases toMiddle
    exact ⟨not_writtenPath_of_set invMiddle set event, run_keeps invMiddle onwards i set⟩
  · intro returned i below
    apply inv.verifiedFile wellFormed
    exact ChunkBitmap.isComplete_iff.mp (inv.done returned) i (inv.chunkCount.symm ▸ below)

end Runs

/-! ### A concrete download -/

/-- A debug build with the sample digest. -/
def samplePlatform : Platform where
  profile := .debug
  sha256 := Manifest.sampleDigest

/-- A node that downloads the sample file with two permits. -/
def sampleConfig : DownloaderConfig where
  nodeId := "n"
  jobId := "j"
  rackId := "r"
  trackerAddr := "t"
  dataDir := "d"
  manifest := sampleManifest
  concurrency := 2

/-- An answer of a peer with these bytes as the chunk. -/
def sampleAnswer (data : List UInt8) : Exchange :=
  .answered {
    bytes := [0, 0, 0, 0] ++ [0, 0, 0, 0, 0, 0, 0, UInt8.ofNat data.length] ++ data
    ending := ⟨.unexpectedEof, "early eof"⟩ }

/-- The two tasks of the sample download: the first is sent a corrupted chunk before the right one,
the second is interrupted in the middle of its write. -/
def sampleDownload : List DownloadEvent :=
  let peer : PeerInfo := { nodeId := "p", peerAddr := "a", rackId := "r", uploadBwMbps := 0 }
  [.loop, .loop, .loop, .loop, .loop, .loop,
    .tracker 0 (.ok [peer, peer]), .exchange 0 (sampleAnswer [2, 1]), .tracker 1 (.ok [peer]),
    .exchange 0 (sampleAnswer [1, 2]), .exchange 1 (sampleAnswer [3]), .writing 1 (some []),
    .writeDone 0, .mark 0, .writeDone 0, .mark 0, .loop, .loop]

/-- The sample download returns. -/
theorem sampleDownload_returns :
    ((Downloader.start sampleConfig fun _ => none).bind fun first =>
      (runEvents (Downloader.step samplePlatform sampleConfig) first sampleDownload).map
        Downloader.loop) = some .returned := by
  decide +kernel

/-- Both files of the sample download are verified. -/
theorem download_integrity_sample :
    ∃ first final, Downloader.start sampleConfig (fun _ => none) = some first ∧
      runEvents (Downloader.step samplePlatform sampleConfig) first sampleDownload = some final ∧
      ∀ i < sampleManifest.chunkCount, VerifiedFile samplePlatform sampleConfig final.disk i := by
  obtain ⟨first, started, rest⟩ := Option.bind_eq_some_iff.mp sampleDownload_returns
  obtain ⟨final, ran, returned⟩ := Option.map_eq_some_iff.mp rest
  obtain ⟨_, _, complete⟩ := download_integrity samplePlatform sampleConfig
    sampleManifest_wellFormed (fun _ => none) first final sampleDownload started ran
  exact ⟨first, final, started, ran, complete returned⟩

end ModelDistribution
