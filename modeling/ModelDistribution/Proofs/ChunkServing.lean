/-
Module: ModelDistribution.Proofs.ChunkServing
Layer: Proofs
Purpose: What the chunk server gives away. It answers with any file it finds under the name of the
  requested index, so its answers are verified chunks exactly when the directory holds no other file
  under such a name; a chunk that the download beside it has marked is always served verified.
Imports: ModelDistribution.Proofs.ChunkTransfer
Trusted boundary: none
Main exports: ChunkServer.Answers, ChunkServer.ServesVerified, answers_reliable_iff,
  servesVerified_iff, servesVerified_of_marked
-/
import ModelDistribution.Proofs.ChunkTransfer

namespace ModelDistribution

open Foundation

/-- The request asks for chunk `i`. -/
def RequestsChunk {Stream : Type} [ExactReader Stream IoError] (request : Stream) (i : UInt32) :
    Prop :=
  ∃ jobBuf rest, readRequest request = .ok ((jobBuf, i), rest)

/-- A well-formed request for chunk `i` of a job, before it is cut into fragments. -/
def requestFor (jobId : String) (i : UInt32) : Incoming IoError where
  bytes := (chunkRequest jobId i).flatten
  ending := ⟨.unexpectedEof, "early eof"⟩

namespace ChunkServer

section Answers

variable {Stream : Type} [ExactReader Stream IoError] (server : ChunkServer) (request : Stream)

/-- The server answers the request for chunk `i` with status 0 and the data. -/
structure Answers (out : Outgoing IoError) (i : UInt32) (data : List UInt8) : Prop where
  asked : RequestsChunk request i
  returned : (server.handleChunkRequest request out).2 = .ok ()
  sent : (server.handleChunkRequest request out).1.sent =
    out.sent ++ (u32Bytes 0 ++ (u64Bytes (UInt64.ofNat data.length) ++ data))

/-- Whatever the server answers to the request is a verified chunk of its manifest. -/
def ServesVerified (sha256 : List UInt8 → List UInt8) : Prop :=
  ∀ out i data, server.Answers request out i data →
    i < server.manifest.chunkCount ∧
      server.manifest.verifyChunk sha256 i data = .ok (.ok ())

end Answers

/-- The file that the server can read for chunk `i` is a verified chunk of its manifest. -/
def HoldsOnlyVerified (sha256 : List UInt8 → List UInt8) (server : ChunkServer) (i : UInt32) :
    Prop :=
  ∀ buffer, server.read (server.path i) = .ok buffer →
    i < server.manifest.chunkCount ∧
      server.manifest.chunkHashes[i.toNat]? = some (hashBytes sha256 buffer.val)

variable {Stream : Type} [ExactReader Stream IoError] {server : ChunkServer} {request : Stream}
  {out : Outgoing IoError} {i : UInt32} {data : List UInt8}

/-- Handling a request that names a chunk is writing the response for it. -/
theorem handleChunkRequest_eq {jobBuf : List UInt8} {rest : Stream}
    (decoded : readRequest request = .ok ((jobBuf, i), rest)) {after : Outgoing IoError}
    (written : out.writeEach (server.response i) = (after, .ok ())) :
    server.handleChunkRequest request out = (after, .ok ()) := by
  simp only [handleChunkRequest, decoded, written]

/-- A handler that returns without an error has sent the whole response. -/
theorem sent_of_handled {jobBuf : List UInt8} {rest : Stream}
    (decoded : readRequest request = .ok ((jobBuf, i), rest))
    (returned : (server.handleChunkRequest request out).2 = .ok ()) :
    (server.handleChunkRequest request out).1.sent = out.sent ++ (server.response i).flatten := by
  cases written : out.writeEach (server.response i) with
  | mk after result =>
      cases result with
      | error e => simp [handleChunkRequest, decoded, written] at returned
      | ok _ =>
          rw [handleChunkRequest_eq decoded written]
          exact Outgoing.sent_of_writeEach written

/-- What is answered with status 0 is the file under the name of the chunk. -/
theorem Answers.file (answers : server.Answers request out i data) :
    ∃ buffer, server.read (server.path i) = .ok buffer ∧ buffer.val = data := by
  obtain ⟨⟨jobBuf, rest, decoded⟩, returned, sent⟩ := answers
  rw [sent_of_handled decoded returned] at sent
  have response := List.append_cancel_left sent
  cases read : server.read (server.path i) with
  | error e =>
      have lengths := congrArg List.length response
      simp [ChunkServer.response, read] at lengths
  | ok buffer =>
      refine ⟨buffer, rfl, ?_⟩
      simp only [ChunkServer.response, read, List.flatten_cons, List.flatten_nil,
        List.append_nil] at response
      have behindStatus := List.append_cancel_left response
      exact (List.append_inj behindStatus (by simp)).2

/-- Over a reliable connection every file under the name of the chunk is answered. -/
theorem answers_reliable_iff :
    server.Answers request .reliable i data ↔ RequestsChunk request i ∧
      ∃ buffer, server.read (server.path i) = .ok buffer ∧ buffer.val = data := by
  constructor
  · intro answers
    exact ⟨answers.asked, answers.file⟩
  · rintro ⟨⟨jobBuf, rest, decoded⟩, buffer, read, rfl⟩
    have handled : server.handleChunkRequest request .reliable = (_, .ok ()) :=
      handleChunkRequest_eq decoded (Outgoing.writeEach_reliable _)
    refine ⟨⟨jobBuf, rest, decoded⟩, ?_, ?_⟩
    · rw [handled]
    · rw [handled]
      simp [ChunkServer.response, read, Outgoing.reliable]

theorem requestsChunk_requestFor (i : UInt32) : RequestsChunk (requestFor "" i) i := by
  have arrives : (incoming (requestFor "" i)).bytes = (chunkRequest "" i).flatten ++ [] :=
    (List.append_nil _).symm
  obtain ⟨rest, decoded, _⟩ := readRequest_front (by decide) arrives
  exact ⟨_, rest, decoded⟩

/-- A request is served with verified chunks only exactly when the file under the requested name, if
there is one, is the verified chunk; and every request is, exactly when every file under the name of
a chunk is. -/
theorem servesVerified_iff (sha256 : List UInt8 → List UInt8) (server : ChunkServer)
    (request : Stream) :
    (server.ServesVerified request sha256 ↔
      ∀ i, RequestsChunk request i → server.HoldsOnlyVerified sha256 i) ∧
    ((∀ anyRequest : Incoming IoError, server.ServesVerified anyRequest sha256) ↔
      ∀ i, server.HoldsOnlyVerified sha256 i) := by
  have single : ∀ {Source : Type} [ExactReader Source IoError] (source : Source),
      server.ServesVerified source sha256 ↔
        ∀ i, RequestsChunk source i → server.HoldsOnlyVerified sha256 i := by
    intro Source _ source
    constructor
    · intro verified i asked buffer read
      obtain ⟨below, accepted⟩ :=
        verified .reliable i buffer.val (answers_reliable_iff.mpr ⟨asked, buffer, read, rfl⟩)
      exact ⟨below, Manifest.verifyChunk_eq_ok_iff.mp accepted⟩
    · intro clean out i data answers
      obtain ⟨buffer, read, rfl⟩ := answers.file
      obtain ⟨below, hashed⟩ := clean i answers.asked buffer read
      exact ⟨below, Manifest.verifyChunk_eq_ok_iff.mpr hashed⟩
  refine ⟨single request, ?_⟩
  constructor
  · intro all i
    exact (single (requestFor "" i)).mp (all _) i (requestsChunk_requestFor i)
  · intro clean anyRequest
    exact (single anyRequest).mpr fun i _ => clean i

/-- Beside a download from whatever directory there was, the server serves the chunks that the
download has marked verified. -/
theorem servesVerified_of_marked {platform : Platform} {cfg : DownloaderConfig}
    {disk : String → Option (List UInt8)} {first state : Downloader} {events : List DownloadEvent}
    (started : Downloader.start cfg disk = some first)
    (ran : runEvents (Downloader.step platform cfg) first events = some state)
    (wellFormed : cfg.manifest.WellFormed)
    (sameManifest : server.manifest = cfg.manifest) (sameDir : server.dataDir = cfg.dataDir)
    (sameFiles : ∀ path buffer, server.read path = .ok buffer → state.disk path = some buffer.val)
    (marked : ∀ i, RequestsChunk request i → state.bitmap.has i = .ok true) :
    server.ServesVerified request platform.sha256 := by
  refine (servesVerified_iff platform.sha256 server request).1.mpr ?_
  intro i asked buffer read
  have inv := download_invariant started ran
  have set := marked i asked
  obtain ⟨data, stored, verified⟩ := inv.verifiedFile wellFormed set
  have samePath : server.path i = cfg.path i := by
    rw [path, DownloaderConfig.path, sameManifest, sameDir]
  have sameData : buffer.val = data := by
    have found := sameFiles _ buffer read
    rw [samePath, stored] at found
    exact (Option.some.inj found).symm
  rw [sameManifest, sameData]
  exact ⟨inv.chunkCount ▸ ChunkBitmap.has_lt set, verified.hash⟩

end ChunkServer

/-- A server of the sample manifest over a directory with the first byte of its first chunk and with
the third chunk of an earlier, longer version. -/
def sampleStaleServer : ChunkServer where
  manifest := sampleManifest
  dataDir := "s"
  read path :=
    if path = "s/m.chunk.000000" then .ok ⟨[1], by decide⟩
    else if path = "s/m.chunk.000002" then .ok ⟨[9], by decide⟩
    else .error ⟨.notFound, "not found"⟩

/-- It serves the unfinished chunk, which does not verify, and the third of two chunks. -/
theorem staleServer_serves_unverified :
    sampleStaleServer.Answers (requestFor "" 0) .reliable 0 [1] ∧
      sampleStaleServer.manifest.verifyChunk Manifest.sampleDigest 0 [1] ≠ .ok (.ok ()) ∧
      sampleStaleServer.Answers (requestFor "" 2) .reliable 2 [9] ∧
      ¬ 2 < sampleStaleServer.manifest.chunkCount ∧
      ¬ sampleStaleServer.ServesVerified (requestFor "" 0) Manifest.sampleDigest ∧
      ¬ sampleStaleServer.ServesVerified (requestFor "" 2) Manifest.sampleDigest := by
  have unfinished : sampleStaleServer.Answers (requestFor "" 0) .reliable 0 [1] :=
    ChunkServer.answers_reliable_iff.mpr
      ⟨ChunkServer.requestsChunk_requestFor 0, ⟨[1], by decide⟩, by decide, rfl⟩
  have stale : sampleStaleServer.Answers (requestFor "" 2) .reliable 2 [9] :=
    ChunkServer.answers_reliable_iff.mpr
      ⟨ChunkServer.requestsChunk_requestFor 2, ⟨[9], by decide⟩, by decide, rfl⟩
  have unverified :
      sampleStaleServer.manifest.verifyChunk Manifest.sampleDigest 0 [1] ≠ .ok (.ok ()) := by
    decide +kernel
  have behind : ¬ 2 < sampleStaleServer.manifest.chunkCount := by decide
  refine ⟨unfinished, unverified, stale, behind, ?_, ?_⟩
  · intro verified
    exact unverified (verified _ _ _ unfinished).2
  · intro verified
    exact behind (verified _ _ _ stale).1

end ModelDistribution
