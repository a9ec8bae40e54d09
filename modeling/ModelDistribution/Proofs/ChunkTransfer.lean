/-
Module: ModelDistribution.Proofs.ChunkTransfer
Layer: Proofs
Purpose: A downloading node against a chunk server over a reliable connection. The server decodes the
  request exactly, and the node takes the chunk exactly when the server's file is the verified chunk.
Imports: ModelDistribution.Peer.ChunkServer, ModelDistribution.Proofs.DownloadIntegrity
Trusted boundary: none
Main exports: transfer, readRequest_front, receiveChunk_served, receiveChunk_refused,
  receiveChunk_incoming, transfer_cases, transfer_agrees, runEvents_download
-/
import ModelDistribution.Peer.ChunkServer
import ModelDistribution.Proofs.DownloadIntegrity

namespace ModelDistribution

open Foundation

/-- What the node sends to ask for a chunk. -/
def requestBytes (cfg : DownloaderConfig) (i : UInt32) : List UInt8 :=
  (chunkRequest cfg.jobId i).flatten

/-- The node downloads a chunk from a server: each side reads what the other has written, in the
fragments of its wire. -/
def transfer (platform : Platform) (cfg : DownloaderConfig) (server : ChunkServer) (peer : PeerInfo)
    (toServer toClient : Wire IoError) (i : UInt32) (store : NodeStore cfg.manifest) :
    Checked (NodeStore cfg.manifest × Except DistError Unit) :=
  downloadChunkFromPeer platform cfg peer i (.ok .reliable)
    (fun sent => toClient.cut (server.handleChunkRequest (toServer.cut sent) .reliable).1.sent) none
    store

section Streams

variable {Stream : Type} [ExactReader Stream IoError]

/-- A request in front of the stream is decoded to the bytes and the index that were encoded. -/
theorem readRequest_front {stream : Stream} {jobId : String} {i : UInt32} {back : List UInt8}
    (short : (jobIdBytes jobId).length < 2 ^ 32)
    (arrives : (incoming stream).bytes = (chunkRequest jobId i).flatten ++ back) :
    ∃ rest, readRequest stream = .ok ((jobIdBytes jobId, i), rest) ∧
      (incoming rest).bytes = back := by
  have length : (UInt32.ofNat (jobIdBytes jobId).length).toNat = (jobIdBytes jobId).length :=
    UInt32.toNat_ofNat_of_lt' short
  simp only [chunkRequest, List.flatten_cons, List.flatten_nil, List.append_nil,
    List.append_assoc] at arrives
  obtain ⟨afterLength, lengthRead, _, left⟩ := readU32_front arrives
  obtain ⟨afterId, idRead, _, left⟩ := readExact_front left
  obtain ⟨rest, indexRead, _, left⟩ := readU32_front left
  refine ⟨rest, ?_, left⟩
  simp only [readRequest, lengthRead, length, idRead, indexRead, bind, Except.bind, pure, Except.pure]

/-- An error status is refused. -/
theorem receiveChunk_refused (platform : Platform) (manifest : Manifest) (peer : PeerInfo)
    (i : UInt32) {stream : Stream} (arrives : (incoming stream).bytes = u32Bytes 1) :
    ∃ e, receiveChunk platform manifest peer i stream = .ok (.error e) := by
  obtain ⟨rest, status, _⟩ := readU32_front (arrives.trans (List.append_nil _).symm)
  simp only [receiveChunk, status]
  exact ⟨_, rfl⟩

/-- What becomes of data that is served under a good status: it is verified if its length is that of
the range. -/
theorem receiveChunk_of_data {platform : Platform} {manifest : Manifest} (peer : PeerInfo)
    {i : UInt32} (data : FileBuffer) {stream : Stream}
    (arrives : (incoming stream).bytes = u32Bytes 0 ++
      (u64Bytes (UInt64.ofNat data.val.length) ++ (data.val ++ [])))
    {start stop expected : UInt64} {verdict : Except DistError Unit}
    (range : manifest.chunkRange platform.profile i = .ok (start, stop))
    (subtracted : platform.profile.subU64 stop start = .ok expected)
    (checked : manifest.verifyChunk platform.sha256 i data.val = .ok verdict) :
    receiveChunk platform manifest peer i stream =
      .ok (if UInt64.ofNat data.val.length = expected then verdict.map fun _ => data.val
        else .error (.proto
          s!"chunk {i}: expected {expected} bytes, got {UInt64.ofNat data.val.length}")) := by
  have dataLen : (UInt64.ofNat data.val.length).toNat = data.val.length :=
    UInt64.toNat_ofNat_of_lt' (Nat.lt_trans data.property (by decide))
  obtain ⟨afterStatus, status, _, left⟩ := readU32_front arrives
  obtain ⟨afterLength, length, _, left⟩ := readU64_front left
  obtain ⟨rest, content, _, _⟩ := readExact_front left
  simp only [receiveChunk, status, length, range, subtracted, ne_eq, not_true_eq_false, if_false,
    bind, Except.bind, pure, Except.pure]
  by_cases sameLength : UInt64.ofNat data.val.length = expected
  · rw [if_neg (not_not_intro sameLength), if_pos sameLength, dataLen,
      checkCapacity_of_lt data.property]
    simp only [content, checked]
    cases verdict <;> rfl
  · rw [if_pos sameLength, if_neg sameLength]

/-- Data that is served under a good status is taken exactly when it is the verified chunk. -/
theorem receiveChunk_served {platform : Platform} {manifest : Manifest} (peer : PeerInfo)
    {i : UInt32} (wellFormed : manifest.WellFormed) (below : i < manifest.chunkCount)
    (data : FileBuffer) {stream : Stream}
    (arrives : (incoming stream).bytes = u32Bytes 0 ++
      (u64Bytes (UInt64.ofNat data.val.length) ++ (data.val ++ []))) :
    (manifest.ChunkVerified platform.profile platform.sha256 i data.val ∧
      receiveChunk platform manifest peer i stream = .ok (.ok data.val)) ∨
    (¬ manifest.ChunkVerified platform.profile platform.sha256 i data.val ∧
      ∃ e, receiveChunk platform manifest peer i stream = .ok (.error e)) := by
  have hashed : i.toNat < manifest.chunkHashes.length := by
    rw [wellFormed.hashes]
    exact UInt32.lt_iff_toNat_lt.mp below
  obtain ⟨start, stop, range, _, _⟩ := wellFormed.chunkRange_exact platform.profile below
  obtain ⟨expected, subtracted, expectedLen⟩ :=
    platform.profile.subU64_exact (wellFormed.start_le_stop below range)
  obtain ⟨verdict, checked⟩ := Manifest.verifyChunk_returns hashed platform.sha256 data.val
  have inRange : UInt64.ofNat data.val.length = expected ↔
      data.val.length = stop.toNat - start.toNat := by
    rw [← UInt64.toNat_inj, expectedLen,
      UInt64.toNat_ofNat_of_lt' (Nat.lt_trans data.property (by decide))]
  rw [receiveChunk_of_data peer data arrives range subtracted checked]
  by_cases sameLength : UInt64.ofNat data.val.length = expected
  · rw [if_pos sameLength]
    cases verdict with
    | ok accepted =>
        have hash := Manifest.verifyChunk_eq_ok_iff.mp checked
        exact .inl ⟨⟨⟨start, stop, range, inRange.mp sameLength⟩, hash⟩, rfl⟩
    | error e =>
        refine .inr ⟨?_, e, rfl⟩
        intro verified
        rw [Manifest.verifyChunk_eq_ok_iff.mpr verified.hash] at checked
        cases checked
  · rw [if_neg sameLength]
    refine .inr ⟨?_, _, rfl⟩
    intro verified
    obtain ⟨start', stop', range', sized⟩ := verified.range
    rw [range] at range'
    cases range'
    exact sameLength (inRange.mpr sized)

/-- How a response is cut makes no difference. -/
theorem receiveChunk_incoming (platform : Platform) (manifest : Manifest) (peer : PeerInfo)
    (i : UInt32) (stream : Stream) :
    receiveChunk platform manifest peer i stream =
      receiveChunk platform manifest peer i (incoming stream) := by
  unfold receiveChunk
  rw [← readU32_incoming]
  cases readU32 stream with
  | error e => rfl
  | ok status =>
      obtain ⟨status, stream⟩ := status
      simp only [Except.map, Prod.map, id]
      split
      · rfl
      · rw [← readU64_incoming]
        cases readU64 stream with
        | error e => rfl
        | ok length =>
            obtain ⟨dataLen, stream⟩ := length
            have content := readExact_incoming dataLen.toNat stream
            change _ = readExact dataLen.toNat (incoming stream) at content
            simp only [Except.map, Prod.map, id, ← content]
            cases readExact dataLen.toNat stream <;> rfl

end Streams

/-! ### Both sides -/

/-- The request of the node, cut in any way, is decoded by the server. -/
theorem readRequest_wire (cfg : DownloaderConfig) (wire : Wire IoError) (i : UInt32)
    (short : (jobIdBytes cfg.jobId).length < 2 ^ 32) :
    ∃ rest, readRequest (wire.cut (requestBytes cfg i)) = .ok ((jobIdBytes cfg.jobId, i), rest) := by
  have arrives : (incoming (wire.cut (requestBytes cfg i))).bytes =
      (chunkRequest cfg.jobId i).flatten ++ [] :=
    (wire.lossless _).trans (List.append_nil _).symm
  obtain ⟨rest, decoded, _⟩ := readRequest_front short arrives
  exact ⟨rest, decoded⟩

/-- The server answers it with the response for the chunk. -/
theorem handleChunkRequest_wire (cfg : DownloaderConfig) (server : ChunkServer)
    (wire : Wire IoError) (i : UInt32) (short : (jobIdBytes cfg.jobId).length < 2 ^ 32) :
    server.handleChunkRequest (wire.cut (requestBytes cfg i)) .reliable =
      ({ sent := (server.response i).flatten, fault := none }, .ok ()) := by
  obtain ⟨rest, decoded⟩ := readRequest_wire cfg wire i short
  simp only [ChunkServer.handleChunkRequest, decoded, Outgoing.writeEach_reliable]

/-- The node makes of the server's response what it receives of it. -/
theorem transfer_eq (platform : Platform) (cfg : DownloaderConfig) (server : ChunkServer)
    (peer : PeerInfo) (toServer toClient : Wire IoError) (i : UInt32)
    (short : (jobIdBytes cfg.jobId).length < 2 ^ 32) (store : NodeStore cfg.manifest) :
    transfer platform cfg server peer toServer toClient i store = do
      match ← receiveChunk platform cfg.manifest peer i
          (toClient.cut (server.response i).flatten) with
      | .error e => return (store, .error e)
      | .ok data =>
          let disk := writeFile store.disk (cfg.path i) (some data)
          let marked ← { store with disk : NodeStore _ }.markComplete i
          return (marked, .ok ()) := by
  have served := handleChunkRequest_wire cfg server toServer i short
  rw [requestBytes] at served
  have sent : Outgoing.writeEach (chunkRequest cfg.jobId i) (.reliable : Outgoing IoError) = _ :=
    Outgoing.writeEach_reliable _
  have answered : (server.handleChunkRequest (toServer.cut (chunkRequest cfg.jobId i).flatten)
      .reliable).1.sent = (server.response i).flatten := by
    rw [served]
  unfold transfer downloadChunkFromPeer
  rw [← answered]
  generalize Outgoing.writeEach (chunkRequest cfg.jobId i) .reliable = written at sent
  subst sent
  rfl

/-- The server has a file for the chunk, and it is the verified chunk of the node's manifest. -/
def ChunkServer.Holds (server : ChunkServer) (platform : Platform) (cfg : DownloaderConfig)
    (i : UInt32) (data : FileBuffer) : Prop :=
  server.read (server.path i) = .ok data ∧
    cfg.manifest.ChunkVerified platform.profile platform.sha256 i data.val

/-- The node receives the verified chunk of the server, or the server has none and the response is
refused. -/
theorem receive_cases {platform : Platform} {cfg : DownloaderConfig} (server : ChunkServer)
    (peer : PeerInfo) (wire : Wire IoError) {i : UInt32} (wellFormed : cfg.manifest.WellFormed)
    (below : i < cfg.manifest.chunkCount) :
    (∃ data, server.Holds platform cfg i data ∧
      receiveChunk platform cfg.manifest peer i (wire.cut (server.response i).flatten) =
        .ok (.ok data.val)) ∨
    ((∀ data, ¬ server.Holds platform cfg i data) ∧
      ∃ e, receiveChunk platform cfg.manifest peer i (wire.cut (server.response i).flatten) =
        .ok (.error e)) := by
  have arrives : (incoming (wire.cut (server.response i).flatten)).bytes =
      (server.response i).flatten := wire.lossless _
  cases served : server.read (server.path i) with
  | error e =>
      have response : server.response i = [u32Bytes 1] := by
        rw [ChunkServer.response, served]
      right
      constructor
      · intro data holds
        rw [holds.1] at served
        cases served
      · rw [response] at arrives ⊢
        exact receiveChunk_refused platform cfg.manifest peer i arrives
  | ok data =>
      have response : server.response i =
          [u32Bytes 0, u64Bytes (UInt64.ofNat data.val.length), data.val] := by
        rw [ChunkServer.response, served]
      rw [response] at arrives ⊢
      rcases receiveChunk_served peer wellFormed below data arrives with
        ⟨verified, taken⟩ | ⟨unverified, refused⟩
      · exact .inl ⟨data, ⟨served, verified⟩, taken⟩
      · right
        constructor
        · intro other holds
          rw [holds.1] at served
          cases served
          exact unverified holds.2
        · exact refused

/-- Marking a chunk of the manifest raises its bit and no other, and leaves the files. -/
theorem NodeStore.markComplete_spec {manifest : Manifest} (store : NodeStore manifest) {i : UInt32}
    (below : i < manifest.chunkCount) :
    ∃ after, store.markComplete i = .ok after ∧ after.disk = store.disk ∧
      ∀ j, after.bitmap.has j = .ok true ↔ store.bitmap.has j = .ok true ∨ j = i := by
  obtain ⟨_, bitmap, returned, _, _, _, _, bits⟩ := ChunkBitmap.markComplete_spec store.full i
  unfold NodeStore.markComplete
  split
  · rename_i marked
    rw [returned] at marked
    cases marked
  · rename_i marked
    rw [returned] at marked
    cases marked
    refine ⟨_, rfl, rfl, ?_⟩
    intro j
    rw [bits j]
    simp [store.sized, below]

/-- A transfer either stores the verified chunk of the server and marks it, or the server has none
and nothing changes. -/
theorem transfer_cases {platform : Platform} {cfg : DownloaderConfig} (server : ChunkServer)
    (peer : PeerInfo) (toServer toClient : Wire IoError) {i : UInt32}
    (wellFormed : cfg.manifest.WellFormed)
    (below : i < cfg.manifest.chunkCount) (short : (jobIdBytes cfg.jobId).length < 2 ^ 32)
    (store : NodeStore cfg.manifest) :
    (∃ data after, server.Holds platform cfg i data ∧
      transfer platform cfg server peer toServer toClient i store = .ok (after, .ok ()) ∧
      after.disk = writeFile store.disk (cfg.path i) (some data.val) ∧
      ∀ j, after.bitmap.has j = .ok true ↔ store.bitmap.has j = .ok true ∨ j = i) ∨
    ((∀ data, ¬ server.Holds platform cfg i data) ∧
      ∃ e, transfer platform cfg server peer toServer toClient i store = .ok (store, .error e)) := by
  rw [transfer_eq platform cfg server peer toServer toClient i short store]
  rcases receive_cases server peer toClient wellFormed below with
    ⟨data, holds, taken⟩ | ⟨none, e, refused⟩
  · left
    obtain ⟨after, marked, disk, bits⟩ := NodeStore.markComplete_spec
      { store with disk := writeFile store.disk (cfg.path i) (some data.val) } below
    refine ⟨data, after, holds, ?_, disk, bits⟩
    simp only [taken, marked, bind, Except.bind, pure, Except.pure]
  · right
    refine ⟨none, e, ?_⟩
    simp only [refused, bind, Except.bind, pure, Except.pure]

/-- Over a reliable connection, however it cuts the bytes, the server decodes exactly the identifier
and the index that the node encodes. The download succeeds exactly when the server has the verified
chunk; then the node's file is the server's and its bitmap gains exactly that bit, and otherwise
nothing of the node changes. -/
theorem transfer_agrees (platform : Platform) (cfg : DownloaderConfig) (server : ChunkServer)
    (peer : PeerInfo) (toServer toClient : Wire IoError) (i : UInt32)
    (shared : server.manifest = cfg.manifest)
    (wellFormed : cfg.manifest.WellFormed) (below : i < cfg.manifest.chunkCount)
    (short : (jobIdBytes cfg.jobId).length < 2 ^ 32) (store : NodeStore cfg.manifest) :
    (∃ rest, readRequest (toServer.cut (requestBytes cfg i)) =
      .ok ((jobIdBytes cfg.jobId, i), rest)) ∧
    ∃ after result, transfer platform cfg server peer toServer toClient i store = .ok (after, result) ∧
      (result = .ok () ↔ ∃ data : FileBuffer,
        server.read (chunkPath server.dataDir cfg.manifest.fileId i) = .ok data ∧
        cfg.manifest.ChunkVerified platform.profile platform.sha256 i data.val) ∧
      (result = .ok () → ∀ data : FileBuffer,
        server.read (chunkPath server.dataDir cfg.manifest.fileId i) = .ok data →
        after.disk = writeFile store.disk (cfg.path i) (some data.val) ∧
        ∀ j, after.bitmap.has j = .ok true ↔ store.bitmap.has j = .ok true ∨ j = i) ∧
      (result ≠ .ok () → after = store) := by
  have path : chunkPath server.dataDir cfg.manifest.fileId i = server.path i := by
    rw [ChunkServer.path, shared]
  rw [path]
  refine ⟨readRequest_wire cfg toServer i short, ?_⟩
  rcases transfer_cases server peer toServer toClient wellFormed below short store with
    ⟨data, after, holds, transferred, disk, bits⟩ | ⟨none, e, transferred⟩
  · refine ⟨after, .ok (), transferred, ?_, ?_, fun failed => absurd rfl failed⟩
    · exact ⟨fun _ => ⟨data, holds⟩, fun _ => rfl⟩
    · intro _ other found
      rw [holds.1] at found
      cases found
      exact ⟨disk, bits⟩
  · refine ⟨store, .error e, transferred, ?_, ?_, fun _ => rfl⟩
    · constructor
      · intro succeeded
        cases succeeded
      · intro held
        obtain ⟨data, holds⟩ := held
        exact absurd holds (none data)
    · intro succeeded
      cases succeeded

/-! ### The download machine -/

/-- A download that succeeds has received data, written it and marked the chunk. -/
theorem downloaded_ok {Stream : Type} [ExactReader Stream IoError] {platform : Platform}
    {cfg : DownloaderConfig} {peer : PeerInfo} {i : UInt32} {answer : List UInt8 → Stream}
    {store after : NodeStore cfg.manifest}
    (downloaded : downloadChunkFromPeer platform cfg peer i (.ok .reliable) answer none store =
      .ok (after, .ok ())) :
    ∃ data fresh, receiveChunk platform cfg.manifest peer i (answer (requestBytes cfg i)) =
        .ok (.ok data) ∧
      after.disk = writeFile store.disk (cfg.path i) (some data) ∧
      store.bitmap.markComplete i = .ok (fresh, after.bitmap) := by
  simp only [downloadChunkFromPeer, Outgoing.writeEach_reliable] at downloaded
  obtain ⟨received, read, stored⟩ := bind_eq_ok_iff.mp downloaded
  cases received with
  | error e => cases stored
  | ok data =>
      obtain ⟨marked, raised, returned⟩ := bind_eq_ok_iff.mp stored
      cases returned
      unfold NodeStore.markComplete at raised
      split at raised
      · cases raised
      · rename_i fresh bitmap mark
        cases raised
        exact ⟨data, fresh, read, rfl, mark⟩

/-- A download of a chunk task without an interruption is what the function does: from the exchange
with a candidate on, the machine reaches the files and the bitmap that the function returns. -/
theorem runEvents_download {platform : Platform} {cfg : DownloaderConfig} {state : Downloader}
    {k : Nat} {task : Task} {peer : PeerInfo} {rest : List PeerInfo} {stream : Fragmented IoError}
    {store after : NodeStore cfg.manifest} (found : state.tasks[k]? = some task)
    (trying : task.pc = .tryPeers (peer :: rest)) (sameBitmap : state.bitmap = store.bitmap)
    (sameDisk : state.disk = store.disk)
    (downloaded : downloadChunkFromPeer platform cfg peer task.chunk (.ok .reliable)
      (fun _ => stream) none store = .ok (after, .ok ())) :
    ∃ final, runEvents (Downloader.step platform cfg) state
        [.exchange k (.answered (incoming stream)), .writeDone k, .mark k] = some final ∧
      final.bitmap = after.bitmap ∧ final.disk = after.disk := by
  obtain ⟨data, fresh, received, disk, marked⟩ := downloaded_ok downloaded
  rw [receiveChunk_incoming] at received
  have replaced : ∀ (tasks : List Task) (next : Task), k < tasks.length →
      (putTask tasks k (some next))[k]? = some next := by
    intro tasks next inside
    simp [putTask, inside]
  obtain ⟨inside, _⟩ := List.getElem?_eq_some_iff.mp found
  let holding := putTask state.tasks k (some { task with pc := .persist data rest })
  let written := putTask holding k (some { task with pc := .markBit })
  have atHolding : holding[k]? = some { task with pc := .persist data rest } :=
    replaced _ _ inside
  have atWritten : written[k]? = some { task with pc := .markBit } :=
    replaced _ _ (by simpa [holding, putTask] using inside)
  have exchanged : state.step platform cfg (.exchange k (.answered (incoming stream))) =
      some { state with tasks := holding } := by
    simp only [Downloader.step, found, trying, Task.afterExchange, received, holding]
  have stored : Downloader.step platform cfg { state with tasks := holding } (.writeDone k) =
      some { state with disk := after.disk, tasks := written } := by
    simp only [Downloader.step, atHolding, disk, sameDisk, written]
  have raised : Downloader.step platform cfg { state with disk := after.disk, tasks := written }
      (.mark k) = some { state with
        bitmap := after.bitmap, disk := after.disk, tasks := putTask written k none } := by
    simp only [Downloader.step, atWritten, sameBitmap, marked]
  have ran : runEvents (Downloader.step platform cfg) state
      [.exchange k (.answered (incoming stream)), .writeDone k, .mark k] = some { state with
        bitmap := after.bitmap, disk := after.disk, tasks := putTask written k none } := by
    rw [runEvents, exchanged, Option.bind_some, runEvents, stored, Option.bind_some, runEvents,
      raised, Option.bind_some, runEvents]
  exact ⟨_, ran, rfl, rfl⟩

/-- A wire that delivers single bytes. -/
def bytewise : Wire IoError where
  cut bytes := { fragments := bytes.map fun byte => [byte], ending := ⟨.unexpectedEof, "early eof"⟩ }
  lossless bytes := by
    induction bytes with
    | nil => rfl
    | cons byte bytes ih => exact congrArg (byte :: ·) ih

/-- A server of the sample manifest that has only its last chunk. -/
def sampleChunkServer : ChunkServer where
  manifest := sampleManifest
  dataDir := "s"
  read path :=
    if path = "s/m.chunk.000001" then .ok ⟨[3], by decide⟩ else .error ⟨.notFound, "not found"⟩

/-- The node of the sample configuration before any chunk. -/
def sampleStore : NodeStore sampleConfig.manifest where
  bitmap := .new sampleManifest.chunkCount
  disk := fun _ => none
  full := ChunkBitmap.full_new _
  sized := rfl

/-- The last chunk is transferred byte by byte. -/
theorem transfer_agrees_sample :
    ∃ after, transfer samplePlatform sampleConfig sampleChunkServer
        { nodeId := "p", peerAddr := "a", rackId := "r", uploadBwMbps := 0 } bytewise bytewise 1
        sampleStore =
        .ok (after, .ok ()) ∧
      after.disk "d/m.chunk.000001" = some [3] ∧ after.bitmap.has 1 = .ok true := by
  have served : sampleChunkServer.read
      (chunkPath sampleChunkServer.dataDir sampleConfig.manifest.fileId 1) =
      .ok ⟨[3], by decide⟩ := by
    decide
  have verified : sampleConfig.manifest.ChunkVerified samplePlatform.profile samplePlatform.sha256 1
      [3] := by
    constructor
    · exact ⟨2, 3, by decide +kernel, by decide⟩
    · decide +kernel
  obtain ⟨_, after, result, transferred, succeeds, stored, _⟩ := transfer_agrees samplePlatform
    sampleConfig sampleChunkServer
    { nodeId := "p", peerAddr := "a", rackId := "r", uploadBwMbps := 0 } bytewise bytewise 1 rfl
    sampleManifest_wellFormed (by decide +kernel) (by decide) sampleStore
  have succeeded := succeeds.mpr ⟨⟨[3], by decide⟩, served, verified⟩
  obtain ⟨disk, bits⟩ := stored succeeded _ served
  subst succeeded
  refine ⟨after, transferred, ?_, (bits 1).mpr (.inr rfl)⟩
  rw [disk]
  decide

end ModelDistribution
