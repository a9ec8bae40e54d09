/-
Module: ModelDistribution.Proofs.DownloadEffect
Layer: Proofs
Purpose: What one step of the download machine can do, said once: the loop moves, chooses or spawns,
  and a task moves, writes its own file, or marks its own bit. Data that a task holds has passed the
  length and hash checks.
Imports: ModelDistribution.Peer.Downloader
Trusted boundary: none
Main exports: Accepted, receiveChunk_accepted, Accepted.chunkVerified, LoopPc.pending, Effect,
  step_effect, mem_putTask
-/
import ModelDistribution.Peer.Downloader

namespace ModelDistribution

open Foundation

/-- The data passed the checks of the downloader: its length is the computed length of the range, and
its hash is the one of the manifest. -/
def Accepted (platform : Platform) (manifest : Manifest) (i : UInt32) (data : List UInt8) : Prop :=
  ∃ start stop len, manifest.chunkRange platform.profile i = .ok (start, stop) ∧
    platform.profile.subU64 stop start = .ok len ∧ data.length = len.toNat ∧
    manifest.chunkHashes[i.toNat]? = some (hashBytes platform.sha256 data)

/-- Whatever a peer sends, the data that comes out of an exchange is accepted. -/
theorem receiveChunk_accepted {Stream : Type} [ExactReader Stream IoError] {platform : Platform}
    {manifest : Manifest} {peer : PeerInfo} {i : UInt32} {stream : Stream} {data : List UInt8}
    (received : receiveChunk platform manifest peer i stream = .ok (.ok data)) :
    Accepted platform manifest i data := by
  unfold receiveChunk at received
  split at received
  · cases received
  · split at received
    · cases received
    · split at received
      · cases received
      · rename_i dataLen afterLength _
        rcases bind_eq_ok_iff.mp received with ⟨⟨start, stop⟩, range, checkLength⟩
        rcases bind_eq_ok_iff.mp checkLength with ⟨len, length, afterCheck⟩
        split at afterCheck
        · cases afterCheck
        · rename_i sameLength
          rcases bind_eq_ok_iff.mp afterCheck with ⟨_, _, readData⟩
          split at readData
          · cases readData
          · rename_i bytes rest dataRead
            rcases bind_eq_ok_iff.mp readData with ⟨verdict, checked, verified⟩
            cases verdict with
            | error e => cases verified
            | ok accepted =>
                cases verified
                have lengthEq : dataLen = len := by simpa using sameLength
                subst lengthEq
                exact ⟨start, stop, dataLen, range, length, length_of_readExact dataRead,
                  Manifest.verifyChunk_eq_ok_iff.mp checked⟩

/-- Under a well-formed manifest accepted data is a verified chunk. -/
theorem Accepted.chunkVerified {platform : Platform} {manifest : Manifest} {i : UInt32}
    {data : List UInt8} (accepted : Accepted platform manifest i data)
    (wellFormed : manifest.WellFormed) (below : i < manifest.chunkCount) :
    manifest.ChunkVerified platform.profile platform.sha256 i data := by
  obtain ⟨start, stop, len, range, length, sized, hashed⟩ := accepted
  obtain ⟨exactLen, exactLength, exactSize⟩ :=
    platform.profile.subU64_exact (wellFormed.start_le_stop below range)
  rw [length] at exactLength
  cases exactLength
  exact ⟨⟨start, stop, range, sized.trans exactSize⟩, hashed⟩

/-! ### Replacing and dropping tasks -/

/-- A task behind a replacement is the new one, or an old one with another chunk. -/
theorem mem_putTask {tasks : List Task} {k : Nat} {task t : Task} {result : Option Task}
    (distinct : (tasks.map Task.chunk).Nodup) (found : tasks[k]? = some task)
    (mem : t ∈ putTask tasks k result) :
    result = some t ∨ (t ∈ tasks ∧ t.chunk ≠ task.chunk) := by
  have otherChunk : ∀ i, i ≠ k → tasks[i]? = some t → t ∈ tasks ∧ t.chunk ≠ task.chunk := by
    intro i different at_i
    refine ⟨List.mem_of_getElem? at_i, ?_⟩
    intro same
    obtain ⟨inside, _⟩ := List.getElem?_eq_some_iff.mp at_i
    apply different
    apply (List.getElem?_inj (by simpa using inside) distinct).mp
    rw [List.getElem?_map, List.getElem?_map, at_i, found, Option.map_some, Option.map_some, same]
  cases result with
  | none =>
      obtain ⟨i, different, at_i⟩ := List.mem_eraseIdx_iff_getElem?.mp mem
      exact .inr (otherChunk i different at_i)
  | some new =>
      obtain ⟨i, at_i⟩ := List.getElem?_of_mem mem
      rw [putTask, List.getElem?_set] at at_i
      split at at_i
      · split at at_i
        · exact .inl at_i
        · cases at_i
      · rename_i different
        exact .inr (otherChunk i (Ne.symm different) at_i)

/-! ### The effect of a step -/

/-- The chunks that the loop still goes through in this round. -/
def LoopPc.pending : LoopPc → List UInt32
  | .spawning rest => rest
  | .acquiring chunk rest => chunk :: rest
  | _ => []

/-- A task may become this one without touching the disk. -/
structure Moves (platform : Platform) (manifest : Manifest) (task next : Task) : Prop where
  sameChunk : next.chunk = task.chunk
  notMarking : next.pc ≠ .markBit
  holdsAccepted : ∀ data rest, next.pc = .persist data rest →
    Accepted platform manifest task.chunk data

/-- Everything one step can do. -/
inductive Effect (platform : Platform) (cfg : DownloaderConfig) (state : Downloader) :
    DownloadEvent → Downloader → Prop where
  /-- The loop finds the bitmap complete and returns. -/
  | returns (atCheck : state.loop = .check) (complete : state.bitmap.isComplete = true) :
      Effect platform cfg state .loop { state with loop := .returned }
  /-- The loop chooses the first missing chunks. -/
  | chooses (n : Nat) (atCheck : state.loop = .check) :
      Effect platform cfg state .loop { state with loop := .spawning (state.bitmap.missing.take n) }
  /-- The loop moves on within the round or to the next one. -/
  | loopMoves (next : LoopPc) (pending : List.Sublist next.pending state.loop.pending)
      (notReturned : next ≠ .returned) (joined : next = .check → state.tasks = []) :
      Effect platform cfg state .loop { state with loop := next }
  /-- The loop spawns the task of a chunk. -/
  | spawns (chunk : UInt32) (rest : List UInt32)
      (atAcquire : state.loop = .acquiring chunk rest) :
      Effect platform cfg state .loop
        { state with
          loop := .spawning rest
          tasks := state.tasks ++ [{ chunk, attempt := 0, pc := .askTracker }] }
  /-- A task moves on or ends. -/
  | taskMoves {event : DownloadEvent} (k : Nat) (task : Task) (result : Option Task)
      (found : state.tasks[k]? = some task)
      (moves : ∀ next, result = some next → Moves platform cfg.manifest task next) :
      Effect platform cfg state event { state with tasks := putTask state.tasks k result }
  /-- A task that persists data is in the middle of writing its file. -/
  | taskWrites {event : DownloadEvent} (k : Nat) (task : Task) (content : Option (List UInt8))
      (data : List UInt8) (rest : List PeerInfo) (found : state.tasks[k]? = some task)
      (persisting : task.pc = .persist data rest) :
      Effect platform cfg state event
        { state with disk := writeFile state.disk (cfg.path task.chunk) content }
  /-- A task that persists data has failed to write its file and moves on or ends. -/
  | taskFails {event : DownloadEvent} (k : Nat) (task : Task) (content : Option (List UInt8))
      (result : Option Task) (found : state.tasks[k]? = some task)
      (moves : ∀ next, result = some next → Moves platform cfg.manifest task next) :
      Effect platform cfg state event
        { state with
          disk := writeFile state.disk (cfg.path task.chunk) content
          tasks := putTask state.tasks k result }
  /-- A task has written its data and goes on to mark its bit. -/
  | taskWritten {event : DownloadEvent} (k : Nat) (task : Task) (data : List UInt8)
      (rest : List PeerInfo) (found : state.tasks[k]? = some task)
      (persisting : task.pc = .persist data rest) :
      Effect platform cfg state event
        { state with
          disk := writeFile state.disk (cfg.path task.chunk) (some data)
          tasks := putTask state.tasks k (some { task with pc := .markBit }) }
  /-- A task marks its bit and ends. -/
  | taskMarks (k : Nat) (task : Task) (fresh : Bool) (marked : ChunkBitmap)
      (found : state.tasks[k]? = some task) (marking : task.pc = .markBit)
      (result : state.bitmap.markComplete task.chunk = .ok (fresh, marked)) :
      Effect platform cfg state (.mark k)
        { state with bitmap := marked, tasks := putTask state.tasks k none }

section Moves

variable {platform : Platform} {cfg : DownloaderConfig} {task next : Task}

theorem failAttempt_moves {manifest : Manifest} (failed : task.failAttempt = some next) :
    Moves platform manifest task next := by
  unfold Task.failAttempt at failed
  split at failed
  · cases failed
    exact ⟨rfl, by simp, by simp⟩
  · cases failed

theorem tryRest_moves {manifest : Manifest} {rest : List PeerInfo}
    (tried : task.tryRest rest = some next) : Moves platform manifest task next := by
  unfold Task.tryRest at tried
  split at tried
  · exact failAttempt_moves tried
  · cases tried
    exact ⟨rfl, by simp, by simp⟩

theorem afterTracker_moves {manifest : Manifest} {answer : Except DistError (List PeerInfo)}
    (moved : task.afterTracker answer = some next) : Moves platform manifest task next := by
  unfold Task.afterTracker at moved
  split at moved
  · exact failAttempt_moves moved
  · exact tryRest_moves moved

theorem afterExchange_moves {peer : PeerInfo} {rest : List PeerInfo} {exchange : Exchange}
    (moved : task.afterExchange platform cfg peer rest exchange = some next) :
    Moves platform cfg.manifest task next := by
  unfold Task.afterExchange at moved
  split at moved
  · exact tryRest_moves moved
  · split at moved
    · cases moved
    · exact tryRest_moves moved
    · rename_i data received
      cases moved
      refine ⟨rfl, by simp, ?_⟩
      intro data' rest' same
      cases same
      exact receiveChunk_accepted received

end Moves

/-- The loop's own steps. -/
theorem loopStep_effect {platform : Platform} {cfg : DownloaderConfig} {state next : Downloader}
    (stepped : state.loopStep cfg = some next) : Effect platform cfg state .loop next := by
  unfold Downloader.loopStep at stepped
  split at stepped
  · rename_i atCheck
    split at stepped
    · rename_i complete
      cases stepped
      exact .returns atCheck complete
    · cases stepped
      exact .chooses _ atCheck
  · cases stepped
    exact .loopMoves .joining (List.nil_sublist _) (by simp) (by simp)
  · rename_i chunk rest atSpawn
    split at stepped
    · cases stepped
      refine .loopMoves (.spawning rest) ?_ (by simp) (by simp)
      rw [atSpawn]
      exact List.sublist_cons_self chunk rest
    · cases stepped
      refine .loopMoves (.acquiring chunk rest) ?_ (by simp) (by simp)
      rw [atSpawn]
      exact List.Sublist.refl _
    · cases stepped
  · rename_i chunk rest atAcquire
    split at stepped
    · cases stepped
      exact .spawns chunk rest atAcquire
    · cases stepped
  · split at stepped
    · rename_i empty
      cases stepped
      exact .loopMoves .check (List.nil_sublist _) (by simp) fun _ => List.isEmpty_iff.mp empty
    · cases stepped
  · cases stepped

/-- Every step has one of the effects. -/
theorem step_effect {platform : Platform} {cfg : DownloaderConfig} {state next : Downloader}
    {event : DownloadEvent} (stepped : state.step platform cfg event = some next) :
    Effect platform cfg state event next := by
  cases event with
  | loop => exact loopStep_effect stepped
  | tracker k answer =>
      simp only [Downloader.step] at stepped
      split at stepped
      · rename_i task found
        split at stepped
        · cases stepped
          exact .taskMoves k task _ found fun _ moved => afterTracker_moves moved
        · cases stepped
      · cases stepped
  | exchange k exchange =>
      simp only [Downloader.step] at stepped
      split at stepped
      · rename_i task found
        split at stepped
        · cases stepped
          exact .taskMoves k task _ found fun _ moved => afterExchange_moves moved
        · cases stepped
      · cases stepped
  | writing k content =>
      simp only [Downloader.step] at stepped
      split at stepped
      · rename_i task found
        split at stepped
        · rename_i data rest persisting
          cases stepped
          exact .taskWrites k task content data rest found persisting
        · cases stepped
      · cases stepped
  | writeDone k =>
      simp only [Downloader.step] at stepped
      split at stepped
      · rename_i task found
        split at stepped
        · rename_i data rest persisting
          cases stepped
          exact .taskWritten k task data rest found persisting
        · cases stepped
      · cases stepped
  | writeFailed k left =>
      simp only [Downloader.step] at stepped
      split at stepped
      · rename_i task found
        split at stepped
        · cases stepped
          exact .taskFails k task left _ found fun _ moved => tryRest_moves moved
        · cases stepped
      · cases stepped
  | mark k =>
      simp only [Downloader.step] at stepped
      split at stepped
      · rename_i task found
        split at stepped
        · rename_i marking
          split at stepped
          · rename_i fresh marked result
            cases stepped
            exact .taskMarks k task fresh marked found marking result
          · cases stepped
            exact .taskMoves k task none found (by simp)
        · cases stepped
      · cases stepped

end ModelDistribution
