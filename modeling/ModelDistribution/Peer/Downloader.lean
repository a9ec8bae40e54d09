/-
Module: ModelDistribution.Peer.Downloader
Layer: Model
Purpose: The download loop of a node as a machine. The loop and the chunk tasks it spawns take turns;
  what the tracker, the peers and the disk do is part of the events, so any behaviour of theirs is a
  run. One step is what happens between two suspension points of a task.
Imports: ModelDistribution.ChunkBitmap, ModelDistribution.ChunkPath, ModelDistribution.FileStore,
  ModelDistribution.Manifest, ModelDistribution.Proto, ModelDistribution.Foundation.ByteStream
Trusted boundary: human-reviewed spec
Main exports: DownloaderConfig, Platform, receiveChunk, chunkRequest, NodeStore,
  downloadChunkFromPeer, Task, Downloader, DownloadEvent, Downloader.start, Downloader.startFrom,
  Downloader.step, writtenPath

[src/peer/downloader.rs]
-/
import ModelDistribution.ChunkBitmap
import ModelDistribution.ChunkPath
import ModelDistribution.FileStore
import ModelDistribution.Manifest
import ModelDistribution.Proto
import ModelDistribution.Foundation.ByteStream

namespace ModelDistribution

open Foundation

/-- What the code of a node is built and linked with. -/
structure Platform where
  profile : Profile
  sha256 : List UInt8 → List UInt8

/-- `DownloaderConfig`, without the bitmap, which is part of the state. -/
structure DownloaderConfig where
  nodeId : String
  jobId : String
  rackId : String
  trackerAddr : String
  dataDir : String
  manifest : Manifest
  concurrency : UInt64
deriving DecidableEq, Repr

/-- The path of a chunk file of this node. -/
def DownloaderConfig.path (cfg : DownloaderConfig) (chunk : UInt32) : String :=
  chunkPath cfg.dataDir cfg.manifest.fileId chunk

/-- `download_chunk_from_peer` from the response on: status word, length word, length check against
the range, the data, and its verification. -/
def receiveChunk {Stream : Type} [ExactReader Stream IoError] (platform : Platform)
    (manifest : Manifest) (peer : PeerInfo) (chunkIndex : UInt32) (stream : Stream) :
    Checked (Except DistError (List UInt8)) := do
  match readU32 stream with
  | .error e => return .error (.io e)
  | .ok (status, stream) =>
      if status ≠ 0 then
        return .error (.proto
          s!"peer {peer.nodeId} returned error status {status} for chunk {chunkIndex}")
      else
        match readU64 stream with
        | .error e => return .error (.io e)
        | .ok (dataLen, stream) => do
            let (expectedStart, expectedEnd) ← manifest.chunkRange platform.profile chunkIndex
            let expectedLen ← platform.profile.subU64 expectedEnd expectedStart
            if dataLen ≠ expectedLen then
              return .error (.proto
                s!"chunk {chunkIndex}: expected {expectedLen} bytes, got {dataLen}")
            else
              checkCapacity dataLen.toNat
              match readExact dataLen.toNat stream with
              | .error e => return .error (.io e)
              | .ok (data, _) =>
                  match ← manifest.verifyChunk platform.sha256 chunkIndex data with
                  | .error e => return .error e
                  | .ok () => return .ok data

/-- The bytes of a job identifier. -/
def jobIdBytes (jobId : String) : List UInt8 := utf8 jobId.toList

/-- The request for a chunk: the length of the job identifier, which the cast to 32 bits wraps, its
bytes, and the chunk index. -/
def chunkRequest (jobId : String) (chunkIndex : UInt32) : List (List UInt8) :=
  [u32Bytes (UInt32.ofNat (jobIdBytes jobId).length), jobIdBytes jobId, u32Bytes chunkIndex]

/-- The shared bitmap, which has a bit for every chunk of the manifest, and the files of the node. -/
structure NodeStore (manifest : Manifest) where
  bitmap : ChunkBitmap
  disk : String → Option (List UInt8)
  full : bitmap.Full
  sized : bitmap.chunkCount = manifest.chunkCount

/-- `mark_complete` under the lock. -/
def NodeStore.markComplete {manifest : Manifest} (store : NodeStore manifest) (chunk : UInt32) :
    Checked (NodeStore manifest) :=
  match marked : store.bitmap.markComplete chunk with
  | .error panic => .error panic
  | .ok (_, bitmap) =>
      .ok { store with
        bitmap
        full := by
          obtain ⟨_, bitmap', returned, full, _⟩ := ChunkBitmap.markComplete_spec store.full chunk
          rw [marked] at returned
          cases returned
          exact full
        sized := by
          obtain ⟨_, bitmap', returned, _, sized, _⟩ :=
            ChunkBitmap.markComplete_spec store.full chunk
          rw [marked] at returned
          cases returned
          exact sized.trans store.sized }

/-- `download_chunk_from_peer`. `connection` is what connecting gives, `answer` the stream that comes
back for the bytes that were sent, and `fault` the error of the file write with what it leaves. -/
def downloadChunkFromPeer {Stream : Type} [ExactReader Stream IoError] (platform : Platform)
    (cfg : DownloaderConfig) (peer : PeerInfo) (chunkIndex : UInt32)
    (connection : Except IoError (Outgoing IoError)) (answer : List UInt8 → Stream)
    (fault : Option (IoError × Option (List UInt8))) (store : NodeStore cfg.manifest) :
    Checked (NodeStore cfg.manifest × Except DistError Unit) := do
  match connection with
  | .error e => return (store, .error (.io e))
  | .ok out =>
      match out.writeEach (chunkRequest cfg.jobId chunkIndex) with
      | (_, .error e) => return (store, .error (.io e))
      | (out, .ok ()) =>
          match ← receiveChunk platform cfg.manifest peer chunkIndex (answer out.sent) with
          | .error e => return (store, .error e)
          | .ok data =>
              match fault with
              | some (e, left) =>
                  let disk := writeFile store.disk (cfg.path chunkIndex) left
                  return ({ store with disk }, .error (.io e))
              | none =>
                  let disk := writeFile store.disk (cfg.path chunkIndex) (some data)
                  let marked ← { store with disk : NodeStore _ }.markComplete chunkIndex
                  return (marked, .ok ())

/-- Where a chunk task is. -/
inductive TaskPc where
  /-- Waiting for the tracker's list of candidates. -/
  | askTracker
  /-- Waiting for the exchange with the first of the remaining candidates. -/
  | tryPeers (peers : List PeerInfo)
  /-- Writing verified data to the chunk file; the other candidates are still to come. -/
  | persist (data : List UInt8) (rest : List PeerInfo)
  /-- The file is written and the bitmap is still to be marked. -/
  | markBit
deriving DecidableEq, Repr

/-- A spawned chunk task, which holds one permit of the semaphore while it lives. -/
structure Task where
  chunk : UInt32
  attempt : Nat
  pc : TaskPc
deriving DecidableEq, Repr

/-- Where the loop of `run` is. -/
inductive LoopPc where
  /-- At the top of a round. -/
  | check
  /-- Going through the chunks chosen for the round. -/
  | spawning (rest : List UInt32)
  /-- Waiting for a permit for a chunk. -/
  | acquiring (chunk : UInt32) (rest : List UInt32)
  /-- Waiting for the tasks of the round. -/
  | joining
  /-- `run` has returned `Ok`. -/
  | returned
deriving DecidableEq, Repr

/-- The shared bitmap, the files of the node, the loop and its live tasks. -/
structure Downloader where
  bitmap : ChunkBitmap
  disk : String → Option (List UInt8)
  loop : LoopPc
  tasks : List Task

/-- The outcome of connecting to a peer and sending it the request. -/
inductive Exchange where
  | failed (error : IoError)
  | answered (stream : Incoming IoError)
deriving DecidableEq, Repr

/-- What happens next. Task events name a live task by its position. -/
inductive DownloadEvent where
  | loop
  | tracker (task : Nat) (answer : Except DistError (List PeerInfo))
  | exchange (task : Nat) (exchange : Exchange)
  /-- The file is in the middle of being written. -/
  | writing (task : Nat) (content : Option (List UInt8))
  | writeDone (task : Nat)
  /-- The write fails and leaves the file as it is given. -/
  | writeFailed (task : Nat) (left : Option (List UInt8))
  | mark (task : Nat)

/-- The most permits a semaphore can have. -/
def maxPermits : Nat := (2 ^ 64 - 1) >>> 3

/-- The number of attempts of a task. -/
def maxAttempts : Nat := 3

/-- The task goes to its next attempt, or ends behind the last one. -/
def Task.failAttempt (task : Task) : Option Task :=
  if task.attempt + 1 < maxAttempts then
    some { task with attempt := task.attempt + 1, pc := .askTracker }
  else none

/-- The task goes to its next candidate, or the attempt has failed. -/
def Task.tryRest (task : Task) : List PeerInfo → Option Task
  | [] => task.failAttempt
  | peers => some { task with pc := .tryPeers peers }

/-- The task after the tracker's answer: an error and an empty list fail the attempt. -/
def Task.afterTracker (task : Task) : Except DistError (List PeerInfo) → Option Task
  | .error _ => task.failAttempt
  | .ok peers => task.tryRest peers

/-- The task after an exchange with a candidate; a panic ends it. -/
def Task.afterExchange (platform : Platform) (cfg : DownloaderConfig) (task : Task)
    (peer : PeerInfo) (rest : List PeerInfo) : Exchange → Option Task
  | .failed _ => task.tryRest rest
  | .answered stream =>
      match receiveChunk platform cfg.manifest peer task.chunk stream with
      | .error _ => none
      | .ok (.error _) => task.tryRest rest
      | .ok (.ok data) => some { task with pc := .persist data rest }

/-- Replace a live task, or drop it when it has ended. -/
def putTask (tasks : List Task) (k : Nat) : Option Task → List Task
  | some task => tasks.set k task
  | none => tasks.eraseIdx k

namespace Downloader

/-- `run` with a fresh bitmap over whatever files there are; too many permits panic. -/
def start (cfg : DownloaderConfig) (disk : String → Option (List UInt8)) : Option Downloader :=
  if cfg.concurrency.toNat ≤ maxPermits then
    some { bitmap := .new cfg.manifest.chunkCount, disk := disk, loop := .check, tasks := [] }
  else none

/-- `run` with a bitmap that may hold chunks already. -/
def startFrom (cfg : DownloaderConfig) (bitmap : ChunkBitmap)
    (disk : String → Option (List UInt8)) : Option Downloader :=
  if cfg.concurrency.toNat ≤ maxPermits then
    some { bitmap := bitmap, disk := disk, loop := .check, tasks := [] }
  else none

example (cfg : DownloaderConfig) (disk : String → Option (List UInt8)) :
    start cfg disk = startFrom cfg (.new cfg.manifest.chunkCount) disk := rfl

/-- One step of the loop of `run`; `none` while it waits for a permit or a task, and after it has
returned. -/
def loopStep (cfg : DownloaderConfig) (state : Downloader) : Option Downloader :=
  match state.loop with
  | .check =>
      if state.bitmap.isComplete then some { state with loop := .returned }
      else
        some { state with
          loop := .spawning (state.bitmap.missing.take (cfg.concurrency.toNat * 2)) }
  | .spawning [] => some { state with loop := .joining }
  | .spawning (chunk :: rest) =>
      match state.bitmap.has chunk with
      | .ok true => some { state with loop := .spawning rest }
      | .ok false => some { state with loop := .acquiring chunk rest }
      | .error _ => none
  | .acquiring chunk rest =>
      if state.tasks.length < cfg.concurrency.toNat then
        some { state with
          loop := .spawning rest
          tasks := state.tasks ++ [{ chunk, attempt := 0, pc := .askTracker }] }
      else none
  | .joining => if state.tasks.isEmpty then some { state with loop := .check } else none
  | .returned => none

/-- One step of the machine; `none` when the event cannot happen in the state. -/
def step (platform : Platform) (cfg : DownloaderConfig) (state : Downloader) :
    DownloadEvent → Option Downloader
  | .loop => state.loopStep cfg
  | .tracker k answer =>
      match state.tasks[k]? with
      | some task =>
          match task.pc with
          | .askTracker =>
              some { state with tasks := putTask state.tasks k (task.afterTracker answer) }
          | _ => none
      | none => none
  | .exchange k exchange =>
      match state.tasks[k]? with
      | some task =>
          match task.pc with
          | .tryPeers (peer :: rest) =>
              some { state with
                tasks := putTask state.tasks k
                  (task.afterExchange platform cfg peer rest exchange) }
          | _ => none
      | none => none
  | .writing k content =>
      match state.tasks[k]? with
      | some task =>
          match task.pc with
          | .persist _ _ =>
              some { state with disk := writeFile state.disk (cfg.path task.chunk) content }
          | _ => none
      | none => none
  | .writeDone k =>
      match state.tasks[k]? with
      | some task =>
          match task.pc with
          | .persist data _ =>
              some { state with
                disk := writeFile state.disk (cfg.path task.chunk) (some data)
                tasks := putTask state.tasks k (some { task with pc := .markBit }) }
          | _ => none
      | none => none
  | .writeFailed k left =>
      match state.tasks[k]? with
      | some task =>
          match task.pc with
          | .persist _ rest =>
              some { state with
                disk := writeFile state.disk (cfg.path task.chunk) left
                tasks := putTask state.tasks k (task.tryRest rest) }
          | _ => none
      | none => none
  | .mark k =>
      match state.tasks[k]? with
      | some task =>
          match task.pc with
          | .markBit =>
              match state.bitmap.markComplete task.chunk with
              | .ok (_, marked) =>
                  some { state with bitmap := marked, tasks := putTask state.tasks k none }
              | .error _ => some { state with tasks := putTask state.tasks k none }
          | _ => none
      | none => none

/-- The file that an event writes in a state, if it is a write. -/
def writtenPath (cfg : DownloaderConfig) (state : Downloader) : DownloadEvent → Option String
  | .writing k _ | .writeDone k | .writeFailed k _ =>
      state.tasks[k]?.map fun task => cfg.path task.chunk
  | _ => none

end Downloader

end ModelDistribution
