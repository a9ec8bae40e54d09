/-
Module: ModelDistribution.Proofs.MessageCodec
Layer: Proofs
Purpose: The derived codecs give back what they encode: every request and every manifest exactly, and
  every response up to what reading makes of the numbers and the member order of a status.
Imports: ModelDistribution.Proto.Decoding, ModelDistribution.Proofs.FramedMessages,
  ModelDistribution.Tracker.Server
Trusted boundary: none
Main exports: Request.fromValue_toValue, Manifest.fromMembers_toValue, Response.fromValue_toValue,
  message_codec
-/
import ModelDistribution.Proto.Decoding
import ModelDistribution.Proofs.FramedMessages
import ModelDistribution.Tracker.Server

namespace ModelDistribution

open Foundation

/-! ### Requests -/

theorem Request.words (request : Request) : Json.Within JsonNumber.IsWord 2 request.toValue := by
  cases request with
  | createJob manifestBytes policy =>
      simp [Request.toValue, Json.Within, Json.WithinFields, Json.within_bytes]
  | heartbeat jobId nodeId rackId peerAddr bitmapBytes uploadBwMbps =>
      simp [Request.toValue, Json.Within, Json.WithinFields, Json.within_bytes,
        Json.within_ofNat uploadBwMbps.toNat_lt]
  | getPeers jobId nodeId rackId chunkIndex topN =>
      have chunk : chunkIndex.toNat < 2 ^ 64 := Nat.lt_trans chunkIndex.toNat_lt (by decide)
      simp [Request.toValue, Json.Within, Json.WithinFields, Json.within_ofNat chunk,
        Json.within_ofNat topN.toNat_lt]
  | getStatus jobId => simp [Request.toValue, Json.Within, Json.WithinFields]
  | cancelJob jobId => simp [Request.toValue, Json.Within, Json.WithinFields]
  | listJobs => simp [Request.toValue, Json.Within, Json.WithinFields]

/-- A peer query from the values of its numbers. -/
private theorem Request.fromValue_getPeers (jobId nodeId rackId : String) (chunkIndex topN : Json) :
    Request.fromValue (.object
      [("type", .string "get_peers"), ("job_id", .string jobId), ("node_id", .string nodeId),
       ("rack_id", .string rackId), ("chunk_index", chunkIndex), ("top_n", topN)]) = do
      return .getPeers jobId nodeId rackId (← chunkIndex.asUInt32?) (← topN.asUInt64?) := by
  simp [Request.fromValue, Json.tagged, Json.members, Json.sole]

/-- A heartbeat from the values of its bitmap and its bandwidth. -/
private theorem Request.fromValue_heartbeat (jobId nodeId rackId peerAddr : String)
    (bitmapBytes uploadBwMbps : Json) :
    Request.fromValue (.object
      [("type", .string "heartbeat"), ("job_id", .string jobId), ("node_id", .string nodeId),
       ("rack_id", .string rackId), ("peer_addr", .string peerAddr), ("bitmap_bytes", bitmapBytes),
       ("upload_bw_mbps", uploadBwMbps)]) = do
      return .heartbeat jobId nodeId rackId peerAddr (← bitmapBytes.asBytes?)
        (← uploadBwMbps.asUInt64?) := by
  simp [Request.fromValue, Json.tagged, Json.members, Json.sole]

theorem Request.fromValue_toValue (request : Request) :
    Request.fromValue request.toValue = some request := by
  cases request with
  | createJob manifestBytes policy =>
      simp [Request.toValue, Request.fromValue, Json.tagged, Json.members, Json.sole]
  | heartbeat jobId nodeId rackId peerAddr bitmapBytes uploadBwMbps =>
      rw [Request.toValue, Request.fromValue_heartbeat, Json.asBytes?_bytes, Json.asUInt64?_ofNat]
      rfl
  | getPeers jobId nodeId rackId chunkIndex topN =>
      rw [Request.toValue, Request.fromValue_getPeers, Json.asUInt32?_ofNat, Json.asUInt64?_ofNat]
      rfl
  | getStatus jobId =>
      simp [Request.toValue, Request.fromValue, Json.tagged, Json.members, Json.sole]
  | cancelJob jobId =>
      simp [Request.toValue, Request.fromValue, Json.tagged, Json.members, Json.sole]
  | listJobs => simp [Request.toValue, Request.fromValue, Json.tagged, Json.sole, Json.isUnit]

/-! ### Manifests -/

theorem Manifest.words (manifest : Manifest) : Json.Within JsonNumber.IsWord 2 manifest.toValue := by
  have count : manifest.chunkCount.toNat < 2 ^ 64 :=
    Nat.lt_trans manifest.chunkCount.toNat_lt (by decide)
  simp [Manifest.toValue, Json.Within, Json.WithinFields, Json.withinItems_iff,
    Json.within_ofNat count, Json.within_ofNat manifest.totalSize.toNat_lt,
    Json.within_ofNat manifest.chunkSize.toNat_lt]

/-- A manifest from the values of its numbers and its hashes. -/
private theorem Manifest.fromMembers_fields (fileId version : String)
    (totalSize chunkSize chunkCount chunkHashes : Json) :
    Manifest.fromMembers (.object
      [("file_id", .string fileId), ("version", .string version), ("total_size", totalSize),
       ("chunk_size", chunkSize), ("chunk_count", chunkCount), ("chunk_hashes", chunkHashes)]) =
      Except.toOption (do
        let totalSize ← totalSize.asUInt64
        let chunkSize ← chunkSize.asUInt64
        let chunkCount ← chunkCount.asUInt32
        let chunkHashes ← chunkHashes.asStrings
        return { fileId, version, totalSize, chunkSize, chunkCount, chunkHashes }) := by
  simp [Manifest.fromMembers, Manifest.fromValue, Json.members, Json.sole, Json.field, Json.get?,
    Json.asString, bind, Except.bind]

theorem asStrings_strings (texts : List String) :
    Json.asStrings (.array (texts.map .string)) = .ok texts := by
  rw [Json.asStrings]
  induction texts with
  | nil => rfl
  | cons text texts ih =>
      simp [List.mapM_cons, Json.asString, ih, bind, Except.bind, pure, Except.pure]

theorem Manifest.fromMembers_toValue (manifest : Manifest) :
    Manifest.fromMembers manifest.toValue = some manifest := by
  rw [Manifest.toValue, Manifest.fromMembers_fields, Json.asUInt64_ofNat, Json.asUInt64_ofNat,
    Json.asUInt32_ofNat, asStrings_strings]
  rfl

/-! ### Responses -/

theorem PeerInfo.words (peer : PeerInfo) : Json.Within JsonNumber.IsWord 1 peer.toValue := by
  simp [PeerInfo.toValue, Json.Within, Json.WithinFields,
    Json.within_ofNat peer.uploadBwMbps.toNat_lt]

/-- A peer from the value of its bandwidth. -/
private theorem PeerInfo.fromValue_fields (nodeId peerAddr rackId : String) (uploadBwMbps : Json) :
    PeerInfo.fromValue (.object
      [("node_id", .string nodeId), ("peer_addr", .string peerAddr), ("rack_id", .string rackId),
       ("upload_bw_mbps", uploadBwMbps)]) = do
      let uploadBwMbps ← uploadBwMbps.asUInt64?
      return { nodeId, peerAddr, rackId, uploadBwMbps } := by
  simp [PeerInfo.fromValue, Json.members, Json.sole]

theorem PeerInfo.fromValue_toValue (peer : PeerInfo) :
    PeerInfo.fromValue peer.toValue = some peer := by
  rw [PeerInfo.toValue, PeerInfo.fromValue_fields, Json.asUInt64?_ofNat]
  rfl

/-- The values that a response carries as they are. -/
def Response.bodies : Response → List Json
  | .status body => [body]
  | .jobList jobs => jobs
  | _ => []

/-- The numbers of what a response carries are in range, and its brackets within the recursion limit of
the parser. -/
def Response.Readable (response : Response) : Prop :=
  ∀ body ∈ response.bodies, Json.Within JsonNumber.InRange 125 body

theorem Response.within {response : Response} (readable : response.Readable) :
    Json.Within JsonNumber.InRange 127 response.toValue := by
  cases response with
  | jobCreated jobId => simp [Response.toValue, Json.Within, Json.WithinFields]
  | heartbeatAck jobComplete => simp [Response.toValue, Json.Within, Json.WithinFields]
  | peers found =>
      have peers : ∀ peer : PeerInfo, Json.Within JsonNumber.InRange 125 peer.toValue := fun peer =>
        Json.Within.mono (fun _ isWord => isWord.1) _ (by decide) peer.words
      simp [Response.toValue, Json.Within, Json.WithinFields, Json.withinItems_iff, peers]
  | status body =>
      have inside : Json.Within JsonNumber.InRange 126 body :=
        Json.Within.mono (fun _ range => range) body (by decide)
          (readable body List.mem_cons_self)
      simp [Response.toValue, Json.Within, Json.WithinFields, inside]
  | jobList jobs =>
      have inside : ∀ job ∈ jobs, Json.Within JsonNumber.InRange 125 job := readable
      simpa [Response.toValue, Json.Within, Json.WithinFields, Json.withinItems_iff] using inside
  | ok => simp [Response.toValue, Json.Within, Json.WithinFields]
  | error message => simp [Response.toValue, Json.Within, Json.WithinFields]

theorem Response.fromValue_toValue (response : Response) {reread : JsonNumber → JsonNumber}
    (same : ∀ value, reread (.integer value) = .integer value) :
    Response.fromValue (response.toValue.mapNumber reread) = some (response.asRead reread) := by
  cases response with
  | jobCreated jobId =>
      simp [Response.toValue, Json.mapNumber, Json.mapFields, Response.fromValue, Json.tagged,
        Json.members, Json.sole, Response.asRead]
  | heartbeatAck jobComplete =>
      simp [Response.toValue, Json.mapNumber, Json.mapFields, Response.fromValue, Json.tagged,
        Json.members, Json.sole, Json.asBool?, Response.asRead]
  | peers found =>
      have peers : ∀ item ∈ found.map PeerInfo.toValue, Json.Within JsonNumber.IsWord 1 item := by
        intro item mem
        rcases List.mem_map.mp mem with ⟨peer, _, rfl⟩
        exact peer.words
      have kept : Json.mapItems reread (found.map PeerInfo.toValue) = found.map PeerInfo.toValue :=
        Json.mapItems_words same _ (Json.withinItems_iff.mpr peers)
      have back : found.mapM (PeerInfo.fromValue ∘ PeerInfo.toValue) = some found := by
        rw [← List.mapM_map]
        exact mapM_decode fun peer _ => peer.fromValue_toValue
      simp [Response.toValue, Json.mapNumber, Json.mapFields, kept, Response.fromValue, Json.tagged,
        Json.members, Json.sole, Json.asArray?, back, Response.asRead]
  | status body =>
      simp [Response.toValue, Json.mapNumber, Json.mapFields, Response.fromValue, Json.tagged,
        Json.members, Json.sole, Response.asRead]
  | jobList jobs =>
      simp [Response.toValue, Json.mapNumber, Json.mapFields, Json.mapItems_eq_map,
        Response.fromValue, Json.tagged, Json.members, Json.sole, Json.asArray?, Response.asRead]
  | ok =>
      simp [Response.toValue, Json.mapNumber, Json.mapFields, Response.fromValue, Json.tagged,
        Json.sole, Json.isUnit, Response.asRead]
  | error message =>
      simp [Response.toValue, Json.mapNumber, Json.mapFields, Response.fromValue, Json.tagged,
        Json.members, Json.sole, Response.asRead]

/-! ### What the tracker answers -/

theorem NodeSnapshot.words (snapshot : NodeSnapshot) :
    Json.Within JsonNumber.IsWord 1 snapshot.toValue := by
  have completed : snapshot.completedChunks.toNat < 2 ^ 64 :=
    Nat.lt_trans snapshot.completedChunks.toNat_lt (by decide)
  have total : snapshot.totalChunks.toNat < 2 ^ 64 :=
    Nat.lt_trans snapshot.totalChunks.toNat_lt (by decide)
  simp [NodeSnapshot.toValue, Json.Within, Json.WithinFields, Json.within_ofNat completed,
    Json.within_ofNat total, Json.within_ofNat snapshot.uploadBwMbps.toNat_lt,
    Json.within_ofNat snapshot.lastSeenSecs.toNat_lt]

theorem within_ofFloat32 (limit : Nat) (value : Float32) :
    Json.Within JsonNumber.InRange limit (.ofFloat32 value) := by
  unfold Json.ofFloat32
  split <;> simp [Json.Within, JsonNumber.InRange]

theorem JobSnapshot.within (snapshot : JobSnapshot) :
    Json.Within JsonNumber.InRange 125 snapshot.toValue := by
  have word : ∀ (value : UInt32) (limit : Nat),
      Json.Within JsonNumber.InRange limit (.ofNat value.toNat) := fun value limit =>
    Json.Within.mono (fun _ isWord => isWord.1) _ (Nat.le_refl limit)
      (Json.within_ofNat (Nat.lt_trans value.toNat_lt (by decide)))
  have nodes : ∀ node : NodeSnapshot, Json.Within JsonNumber.InRange 123 node.toValue := fun node =>
    Json.Within.mono (fun _ isWord => isWord.1) _ (by decide) node.words
  simp [JobSnapshot.toValue, Json.Within, Json.WithinFields, Json.withinItems_iff, word, nodes,
    within_ofFloat32]

/-- Every response of the tracker can be read. -/
theorem Server.readable_dispatch {server : Server} {tracker after : Tracker} {now : Nat}
    {freshId : String} {request : Request} {response : Response}
    (answered : server.dispatch tracker now freshId request = (after, .ok response)) :
    response.Readable := by
  have plain : response.bodies = [] → response.Readable := by
    intro nothing body carried
    rw [nothing] at carried
    cases carried
  cases request with
  | createJob manifestBytes policy =>
      simp only [Server.dispatch] at answered
      split at answered
      · cases answered
        exact plain rfl
      · split at answered <;> cases answered <;> exact plain rfl
  | heartbeat jobId nodeId rackId peerAddr bitmapBytes uploadBwMbps =>
      simp only [Server.dispatch] at answered
      split at answered <;> cases answered <;> exact plain rfl
  | getPeers jobId nodeId rackId chunkIndex topN =>
      simp only [Server.dispatch] at answered
      split at answered <;> cases answered <;> exact plain rfl
  | getStatus jobId =>
      simp only [Server.dispatch] at answered
      split at answered
      · cases answered
        exact plain rfl
      · cases answered
        intro body carried
        rcases List.mem_singleton.mp carried with rfl
        exact JobSnapshot.within _
  | cancelJob jobId =>
      simp only [Server.dispatch] at answered
      split at answered <;> cases answered <;> exact plain rfl
  | listJobs =>
      cases answered
      intro body carried
      rcases List.mem_map.mp carried with ⟨snapshot, _, rfl⟩
      exact snapshot.within

/-! ### The codecs -/

theorem JsonParser.fromSlice_of_read {T : Type} {parser : JsonParser} {type : String}
    {decode : Json → Option T} {bytes : List UInt8} {value : Json} {decoded : T}
    (read : parser.read bytes = some value) (back : decode value = some decoded) :
    parser.fromSlice type decode bytes = .ok decoded := by
  simp [JsonParser.fromSlice, read, back]

section ReadsBack

variable {parser : JsonParser} {floatText : JsonNumber → List Char} {reread : JsonNumber → JsonNumber}

/-- A parser that reads values back decodes every request from its encoding. -/
theorem JsonParser.requests_roundTrip (reads : ReadsBack floatText 127 reread parser.read) :
    parser.requests.RoundTrip := by
  intro request payload encoded
  cases encoded
  have words : Json.Within JsonNumber.IsWord 127 request.toValue :=
    Json.Within.mono (fun _ isWord => isWord) _ (by decide) request.words
  exact JsonParser.fromSlice_of_read (reads.words words) request.fromValue_toValue

theorem JsonParser.manifest_serialise (reads : ReadsBack floatText 127 reread parser.read)
    (manifest : Manifest) : parser.manifest manifest.serialise = .ok manifest := by
  have words : Json.Within JsonNumber.IsWord 127 manifest.toValue :=
    Json.Within.mono (fun _ isWord => isWord) _ (by decide) manifest.words
  exact JsonParser.fromSlice_of_read (reads.words words) manifest.fromMembers_toValue

/-- A response is decoded as it is read. -/
theorem JsonParser.responses_asRead (reads : ReadsBack floatText 127 reread parser.read)
    {response : Response} (readable : response.Readable) :
    (parser.responses floatText).fromSlice (response.toValue.toBytes floatText) =
      .ok (response.asRead reread) :=
  JsonParser.fromSlice_of_read (reads.reads _ (Response.within readable))
    (response.fromValue_toValue reads.integer)

end ReadsBack

/-- Over any parser that reads values back, every request and every manifest is decoded from its
encoding, and so is every response whose status can be read, up to what reading makes of the numbers and
the order of members there. All that the tracker answers can be read. -/
theorem message_codec (parser : JsonParser) (floatText : JsonNumber → List Char)
    (reread : JsonNumber → JsonNumber) (reads : ReadsBack floatText 127 reread parser.read) :
    parser.requests.RoundTrip ∧
    (∀ manifest : Manifest, parser.manifest manifest.serialise = .ok manifest) ∧
    (∀ (response : Response) (payload : List UInt8), response.Readable →
      (parser.responses floatText).toVec response = .ok payload →
      (parser.responses floatText).fromSlice payload = .ok (response.asRead reread)) ∧
    ∀ (server : Server) (tracker after : Tracker) (now : Nat) (freshId : String)
      (request : Request) (response : Response),
      server.dispatch tracker now freshId request = (after, .ok response) → response.Readable := by
  refine ⟨JsonParser.requests_roundTrip reads, JsonParser.manifest_serialise reads, ?_, ?_⟩
  · intro response payload readable encoded
    cases encoded
    exact JsonParser.responses_asRead reads readable
  · intro server tracker after now freshId request response answered
    exact Server.readable_dispatch answered

/-! ### A concrete parser -/

/-- The reader, with zero for every floating-point number. -/
def sampleJsonParser : JsonParser where
  read := Json.read fun _ => some (.double 0)
  errorText := fun _ _ => "EOF while parsing a value at line 1 column 0"

/-- The text of a zero. -/
def sampleFloatText : JsonNumber → List Char := fun _ => ['0', '.', '0']

def sampleReread : JsonNumber → JsonNumber
  | .integer value => .integer value
  | _ => .double 0

theorem sampleJsonParser_readsBack :
    ReadsBack sampleFloatText 127 sampleReread sampleJsonParser.read := by
  apply Json.readsBack_read
  constructor
  · intro value
    rfl
  · intro value
    exact ⟨'0', ['.', '0'], rfl, rfl⟩
  · intro value c mem
    simp only [sampleFloatText, List.mem_cons, List.not_mem_nil, or_false] at mem
    rcases mem with rfl | rfl | rfl <;> rfl
  · intro value
    rfl
  · intro value
    rfl

/-- A heartbeat with a quote, a line break, a control character and other letters in its texts. -/
theorem message_codec_sample :
    sampleJsonParser.requests.fromSlice
      ((Request.heartbeat "j" "a\"b\n" "\x01" "ä:ß" [0, 255] 8000).toValue.toBytes noFloats) =
      .ok (.heartbeat "j" "a\"b\n" "\x01" "ä:ß" [0, 255] 8000) :=
  (message_codec sampleJsonParser sampleFloatText sampleReread sampleJsonParser_readsBack).1 _ _ rfl

end ModelDistribution
