/-
Module: ModelDistribution.Proofs.FrameSize
Layer: Proofs
Purpose: The size of every control-plane message counted from its fields, and when the reader takes
  what the writer has sent: exactly up to the cap. The writer does not check the cap, and a manifest
  with very many chunks passes it.
Imports: ModelDistribution.Proto.Encoding, ModelDistribution.Proofs.FramedMessages,
  ModelDistribution.Proofs.Reassembly, ModelDistribution.Foundation.Digest
Trusted boundary: none
Main exports: Manifest.wireSize, Request.wireSize, Response.wireSize, FramesAgree,
  frames_agree_iff, createJob_large_manifest, large_manifest_refused
-/
import ModelDistribution.Proto.Encoding
import ModelDistribution.Proofs.FramedMessages
import ModelDistribution.Proofs.Reassembly
import ModelDistribution.Foundation.Digest

namespace ModelDistribution

open Foundation

/-! ### Sizes by fields -/

/-- The bytes of an encoded manifest. -/
def Manifest.wireSize (manifest : Manifest) : Nat :=
  82 + textSize manifest.fileId + textSize manifest.version +
    decimalSize manifest.totalSize.toNat + decimalSize manifest.chunkSize.toNat +
    decimalSize manifest.chunkCount.toNat + arraySize (manifest.chunkHashes.map textSize)

/-- The bytes of an encoded request. -/
def Request.wireSize : Request → Nat
  | .createJob manifestBytes policy => 49 + byteListSize manifestBytes + textSize policy
  | .heartbeat jobId nodeId rackId peerAddr bitmapBytes uploadBwMbps =>
      99 + textSize jobId + textSize nodeId + textSize rackId + textSize peerAddr +
        byteListSize bitmapBytes + decimalSize uploadBwMbps.toNat
  | .getPeers jobId nodeId rackId chunkIndex topN =>
      76 + textSize jobId + textSize nodeId + textSize rackId + decimalSize chunkIndex.toNat +
        decimalSize topN.toNat
  | .getStatus jobId => 31 + textSize jobId
  | .cancelJob jobId => 31 + textSize jobId
  | .listJobs => 20

/-- The bytes of an encoded peer. -/
def PeerInfo.wireSize (peer : PeerInfo) : Nat :=
  54 + textSize peer.nodeId + textSize peer.peerAddr + textSize peer.rackId +
    decimalSize peer.uploadBwMbps.toNat

/-- The bytes of an encoded response. -/
def Response.wireSize (floatText : JsonNumber → List Char) : Response → Nat
  | .jobCreated jobId => 32 + textSize jobId
  | .heartbeatAck true => 44
  | .heartbeatAck false => 45
  | .peers found => 25 + arraySize (found.map PeerInfo.wireSize)
  | .status body => 25 + body.size floatText
  | .jobList jobs => 27 + arraySize (jobs.map (Json.size floatText))
  | .ok => 13
  | .error message => 27 + textSize message

private theorem keySizes : textSize "type" = 6 ∧ textSize "job_id" = 8 ∧ textSize "node_id" = 9 ∧
    textSize "rack_id" = 9 ∧ textSize "peer_addr" = 11 ∧ textSize "upload_bw_mbps" = 16 ∧
    textSize "bitmap_bytes" = 14 ∧ textSize "manifest_bytes" = 16 ∧ textSize "policy" = 8 ∧
    textSize "chunk_index" = 13 ∧ textSize "top_n" = 7 ∧ textSize "job_complete" = 14 ∧
    textSize "peers" = 7 ∧ textSize "body" = 6 ∧ textSize "jobs" = 6 ∧ textSize "message" = 9 ∧
    textSize "file_id" = 9 ∧ textSize "version" = 9 ∧ textSize "total_size" = 12 ∧
    textSize "chunk_size" = 12 ∧ textSize "chunk_count" = 13 ∧ textSize "chunk_hashes" = 14 := by
  decide

private theorem variantSizes : textSize "create_job" = 12 ∧ textSize "heartbeat" = 11 ∧
    textSize "get_peers" = 11 ∧ textSize "get_status" = 12 ∧ textSize "cancel_job" = 12 ∧
    textSize "list_jobs" = 11 ∧ textSize "job_created" = 13 ∧ textSize "heartbeat_ack" = 15 ∧
    textSize "status" = 8 ∧ textSize "job_list" = 10 ∧ textSize "ok" = 4 ∧
    textSize "error" = 7 := by
  decide

private theorem size_ofNat (floatText : JsonNumber → List Char) (n : Nat) :
    (Json.ofNat n).size floatText = decimalSize n := rfl

/-- The size of an array of mapped items. -/
private theorem sizeItems_map {α : Type} (floatText : JsonNumber → List Char) (toValue : α → Json)
    (items : List α) : 2 + Json.sizeItems floatText (items.map toValue) =
      arraySize (items.map fun item => (toValue item).size floatText) := by
  have counted := Json.size_array floatText (items.map toValue)
  rwa [List.map_map] at counted

theorem Manifest.size_toValue (manifest : Manifest) :
    manifest.toValue.size noFloats = manifest.wireSize := by
  have hashes : 2 + Json.sizeItems noFloats (manifest.chunkHashes.map .string) =
      arraySize (manifest.chunkHashes.map textSize) :=
    sizeItems_map noFloats .string manifest.chunkHashes
  simp only [toValue, wireSize, Json.size, Json.sizeFields, size_ofNat, keySizes]
  omega

theorem Request.size_toValue (request : Request) :
    request.toValue.size noFloats = request.wireSize := by
  cases request <;>
    simp only [toValue, wireSize, Json.size, Json.sizeFields, size_ofNat, Json.size_bytes,
      keySizes, variantSizes] <;> omega

theorem PeerInfo.size_toValue (floatText : JsonNumber → List Char) (peer : PeerInfo) :
    peer.toValue.size floatText = peer.wireSize := by
  simp only [toValue, wireSize, Json.size, Json.sizeFields, size_ofNat, keySizes]
  omega

theorem Response.size_toValue (floatText : JsonNumber → List Char) (response : Response) :
    response.toValue.size floatText = response.wireSize floatText := by
  cases response with
  | heartbeatAck jobComplete => cases jobComplete <;> rfl
  | peers found =>
      have each : 2 + Json.sizeItems floatText (found.map PeerInfo.toValue) =
          arraySize (found.map PeerInfo.wireSize) := by
        rw [sizeItems_map]
        simp only [PeerInfo.size_toValue]
      simp only [toValue, wireSize, Json.size, Json.sizeFields, keySizes]
      omega
  | jobList jobs =>
      have each : 2 + Json.sizeItems floatText jobs = arraySize (jobs.map (Json.size floatText)) :=
        Json.size_array floatText jobs
      simp only [toValue, wireSize, Json.size, Json.sizeFields, keySizes, variantSizes]
      omega
  | _ =>
      simp only [toValue, wireSize, Json.size, Json.sizeFields, keySizes, variantSizes]
      try omega

/-! ### Agreement on one message -/

variable {T : Type}

/-- If the message is written without an error, the four bytes in front of its payload are the length
of the payload, and the reader of the connection does not refuse the frame as too large. -/
def FramesAgree (codec : Codec T) (msg : T) : Prop :=
  ∀ (out after : Outgoing IoError) (payload : List UInt8), codec.toVec msg = .ok payload →
    writeMsg codec msg out = (after, .ok ()) →
    ∃ header, after.sent = out.sent ++ (header ++ payload) ∧ header.length = 4 ∧
      bigEndian header = payload.length ∧
      ∀ (stream : Fragmented IoError) (suffix : List UInt8),
        stream.fragments.flatten = header ++ payload ++ suffix →
        ∀ len : UInt32, readMsg codec stream ≠ .error (.proto s!"frame too large: {len}")

/-- Writer and reader agree exactly on the payloads up to the cap. -/
theorem framesAgree_iff {codec : Codec T} {msg : T} {payload : List UInt8}
    (encoded : codec.toVec msg = .ok payload) :
    FramesAgree codec msg ↔ payload.length ≤ maxFrame := by
  constructor
  · intro agree
    obtain ⟨header, sent, fourBytes, length, accepted⟩ :=
      agree _ _ payload encoded (writeMsg_reliable encoded)
    -- what was sent fixes the header: the length after the cast
    change frame payload = [] ++ (header ++ payload) at sent
    rw [List.nil_append, frame] at sent
    obtain ⟨rfl, _⟩ := List.append_inj sent ((length_u32Bytes _).trans fourBytes.symm)
    rw [bigEndian_u32Bytes] at length
    apply Nat.le_of_not_lt
    intro large
    let stream : Fragmented IoError :=
      { fragments := [frame payload], ending := ⟨.unexpectedEof, "early eof"⟩ }
    have whole : (incoming stream).bytes =
        u32Bytes (UInt32.ofNat payload.length) ++ payload := List.append_nil _
    have long : maxFrame < (UInt32.ofNat payload.length).toNat := by
      rw [length]
      exact large
    apply accepted stream [] (whole.trans (List.append_nil _).symm) (UInt32.ofNat payload.length)
    exact readMsg_tooLarge whole long
  · intro small out after payload' encoded' written
    rw [encoded] at encoded'
    cases encoded'
    obtain ⟨payload', encoded', sent⟩ := sent_of_writeMsg written
    rw [encoded] at encoded'
    cases encoded'
    have length : bigEndian (u32Bytes (UInt32.ofNat payload.length)) = payload.length := by
      rw [bigEndian_u32Bytes, toNat_length_of_le small]
    refine ⟨_, sent, length_u32Bytes _, length, ?_⟩
    intro stream suffix arrives len refused
    obtain ⟨header, rest, fourBytes, large, consumed⟩ := readMsg_proto refused
    have bytes : header ++ (incoming rest).bytes =
        u32Bytes (UInt32.ofNat payload.length) ++ (payload ++ suffix) := by
      rw [← consumed.bytes, ← List.append_assoc]
      exact arrives
    obtain ⟨rfl, _⟩ := List.append_inj bytes (fourBytes.trans (length_u32Bytes _).symm)
    rw [length] at large
    exact absurd small (Nat.not_le_of_lt large)

/-- For every request and every response: the header is the true length and the reader does not refuse
the frame as too large exactly when the size counted from the fields is at most the cap. -/
theorem frames_agree_iff (requestFromSlice : List UInt8 → Except String Request)
    (responseFromSlice : List UInt8 → Except String Response) (floatText : JsonNumber → List Char)
    (request : Request) (response : Response) :
    (FramesAgree (Request.codec requestFromSlice) request ↔ request.wireSize ≤ maxFrame) ∧
      (FramesAgree (Response.codec floatText responseFromSlice) response ↔
        response.wireSize floatText ≤ maxFrame) := by
  constructor
  · have encoded : (Request.codec requestFromSlice).toVec request =
        .ok (request.toValue.toBytes noFloats) := rfl
    rw [framesAgree_iff encoded, Json.length_toBytes, Request.size_toValue]
  · have encoded : (Response.codec floatText responseFromSlice).toVec response =
        .ok (response.toValue.toBytes floatText) := rfl
    rw [framesAgree_iff encoded, Json.length_toBytes, Response.size_toValue]

/-! ### The manifest in a job request -/

/-- The hex text of a digest has two characters for each byte, and two quotes. -/
theorem textSize_hexEncode (digest : List UInt8) :
    textSize (hexEncode digest) = 2 + 2 * digest.length := by
  have digits : ∀ n < 16, charSize (Nat.digitChar n) = 1 := by decide
  have chars : ((digest.flatMap hexByte).map charSize).sum = 2 * digest.length := by
    induction digest with
    | nil => rfl
    | cons byte digest ih =>
        have high : byte.toNat / 16 < 16 := Nat.div_lt_of_lt_mul byte.toNat_lt
        simp only [List.flatMap_cons, hexByte, List.cons_append, List.nil_append, List.map_cons,
          List.sum_cons, List.length_cons, digits _ high, digits _ (Nat.mod_lt _ (by decide)), ih]
        omega
  rw [textSize, hexEncode, String.toList_ofList, chars]

/-- The bytes of an encoded manifest are counted from its fields, and each of them takes at least two
digits and a comma, and at most three digits and a comma, in the job request. -/
theorem createJobRequest_bounds (manifest : Manifest) (policy : String) :
    3 * manifest.wireSize ≤ (TrackerClient.createJobRequest manifest policy).wireSize ∧
      (TrackerClient.createJobRequest manifest policy).wireSize ≤
        4 * manifest.wireSize + 51 + textSize policy := by
  have length : manifest.serialise.length = manifest.wireSize := by
    rw [Manifest.serialise, Json.length_toBytes, Manifest.size_toValue]
  have printable : ∀ byte ∈ manifest.serialise, 32 ≤ byte.toNat := fun byte mem =>
    Json.le_of_mem_utf8 (Json.printable_render (fun _ => Json.printable_nil) _) mem
  have lower := Json.le_byteListSize printable
  have upper := Json.byteListSize_le manifest.serialise
  rw [length] at lower upper
  simp only [TrackerClient.createJobRequest, Request.wireSize]
  omega

/-- A built manifest takes 67 bytes for each chunk. -/
theorem le_wireSize_built {sha256 : List UInt8 → List UInt8}
    (width : ∀ data, (sha256 data).length = 32) (fileId version : String) (data : List UInt8)
    (chunkSize : UInt64) :
    67 * ceilDiv data.length chunkSize.toNat ≤
      (Manifest.built sha256 fileId version data chunkSize).wireSize := by
  have each : ∀ size ∈ (Manifest.built sha256 fileId version data chunkSize).chunkHashes.map textSize,
      66 ≤ size := by
    intro size mem
    obtain ⟨hash, inHashes, rfl⟩ := List.mem_map.mp mem
    obtain ⟨i, _, rfl⟩ := List.mem_map.mp inHashes
    exact Nat.le_of_eq (by rw [hashBytes, textSize_hexEncode, width])
  have count : (Manifest.built sha256 fileId version data chunkSize).chunkHashes.length =
      ceilDiv data.length chunkSize.toNat := by
    rw [Manifest.built, List.length_map, List.length_range]
  have hashes := Json.le_arraySize each
  rw [List.length_map, count] at hashes
  unfold Manifest.wireSize
  omega

/-- A manifest with more than 83,468 chunks does not reach the tracker. -/
theorem createJob_large_manifest {sha256 : List UInt8 → List UInt8}
    (width : ∀ data, (sha256 data).length = 32) (fileId version policy : String)
    (data : List UInt8) (chunkSize : UInt64)
    (many : maxFrame < 201 * ceilDiv data.length chunkSize.toNat)
    (fromSlice : List UInt8 → Except String Request) :
    ¬ FramesAgree (Request.codec fromSlice) (TrackerClient.createJobRequest
      (Manifest.built sha256 fileId version data chunkSize) policy) := by
  have manifestSize := le_wireSize_built width fileId version data chunkSize
  have requestSize := (createJobRequest_bounds
    (Manifest.built sha256 fileId version data chunkSize) policy).1
  have encoded : (Request.codec fromSlice).toVec (TrackerClient.createJobRequest
      (Manifest.built sha256 fileId version data chunkSize) policy) = .ok _ := rfl
  rw [framesAgree_iff encoded, Json.length_toBytes, Request.size_toValue]
  omega

/-- A job request for 96,000 chunks of 1 MiB is written and refused as too large. The digest is the
one of 1 MiB of zeros. -/
theorem large_manifest_refused :
    ∃ manifest, Manifest.build .debug
        (fun _ => digestOfNat 0x30e14955ebf1352266dc2ff8067e68104607e750abb9d3b36582b8af909fcb58)
        "model" "1.0" (List.replicate 100663296000 0) 1048576 = .ok (.ok manifest) ∧
      ¬ FramesAgree (Request.codec fun _ => .error "not reached")
        (TrackerClient.createJobRequest manifest "rarity-first") := by
  have size : (1048576 : UInt64).toNat = 1048576 := rfl
  have measurable : Manifest.Measurable (List.replicate 100663296000 0) 1048576 := by
    constructor
    · rw [size]
      decide
    · rw [List.length_replicate, size]
      decide
    · rw [List.length_replicate, size]
      decide
  refine ⟨_, Manifest.build_eq_built measurable (.inl ?_), ?_⟩
  · rw [List.length_replicate, size]
    decide
  · apply createJob_large_manifest fun _ => length_digestOfNat _
    rw [List.length_replicate, size]
    decide

/-- The heartbeats of a job with up to `2 ^ 20` chunks are far below the cap unless the texts in them
are long. -/
theorem heartbeat_agrees {jobId nodeId rackId peerAddr : String} {bitmapBytes : List UInt8}
    (uploadBwMbps : UInt64) (few : bitmapBytes.length ≤ 2 ^ 17)
    (short : textSize jobId + textSize nodeId + textSize rackId + textSize peerAddr ≤ 2 ^ 23)
    (fromSlice : List UInt8 → Except String Request) :
    FramesAgree (Request.codec fromSlice)
      (.heartbeat jobId nodeId rackId peerAddr bitmapBytes uploadBwMbps) := by
  have encoded : (Request.codec fromSlice).toVec
      (.heartbeat jobId nodeId rackId peerAddr bitmapBytes uploadBwMbps) = .ok _ := rfl
  have bitmap := Json.byteListSize_le bitmapBytes
  have digits : decimalSize uploadBwMbps.toNat ≤ 20 :=
    (Json.decimalSize_le_iff (by decide)).mpr (Nat.lt_trans uploadBwMbps.toNat_lt (by decide))
  rw [framesAgree_iff encoded, Json.length_toBytes, Request.size_toValue]
  simp only [Request.wireSize, maxFrame]
  omega

end ModelDistribution
