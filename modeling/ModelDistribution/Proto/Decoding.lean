/-
Module: ModelDistribution.Proto.Decoding
Layer: Model
Purpose: The derived decodings of manifests and control-plane messages from JSON values. The JSON
  parser is a parameter: the value that bytes hold, and the texts of its errors.
Imports: ModelDistribution.Foundation.DerivedDecoding, ModelDistribution.Manifest,
  ModelDistribution.Proto.Encoding
Trusted boundary: human-reviewed spec
Main exports: JsonParser, JsonParser.fromSlice, Manifest.fromMembers, JsonParser.manifest,
  PeerInfo.fromValue, Request.fromValue, Response.fromValue, JsonParser.requests,
  JsonParser.responses, Codecs, Response.ordered, Response.asRead

[src/proto/mod.rs, src/manifest.rs]
-/
import ModelDistribution.Foundation.DerivedDecoding
import ModelDistribution.Manifest
import ModelDistribution.Proto.Encoding

namespace ModelDistribution

open Foundation

/-- What `serde_json::from_slice` rests on: the parser of values, and the text of the error at a type.
-/
structure JsonParser where
  read : List UInt8 → Option Json
  errorText : (type : String) → List UInt8 → String

/-- `serde_json::from_slice` at a type with a derived decoder. -/
def JsonParser.fromSlice {T : Type} (parser : JsonParser) (type : String)
    (decode : Json → Option T) (bytes : List UInt8) : Except String T :=
  match (parser.read bytes).bind decode with
  | some decoded => .ok decoded
  | none => .error (parser.errorText type bytes)

/-- Derived decoding of a manifest from text, where a field may come twice and is then refused. -/
def Manifest.fromMembers (value : Json) : Option Manifest := do
  let _ ← value.members
    ["file_id", "version", "total_size", "chunk_size", "chunk_count", "chunk_hashes"]
  (Manifest.fromValue value).toOption

/-- `serde_json::from_slice` in `Manifest::deserialise`. -/
def JsonParser.manifest (parser : JsonParser) : List UInt8 → Except String Manifest :=
  parser.fromSlice "Manifest" Manifest.fromMembers

/-- Derived decoding of a peer. -/
def PeerInfo.fromValue (value : Json) : Option PeerInfo := do
  let [nodeId, peerAddr, rackId, uploadBwMbps] ←
    value.members ["node_id", "peer_addr", "rack_id", "upload_bw_mbps"] | none
  let nodeId ← nodeId.asString?
  let peerAddr ← peerAddr.asString?
  let rackId ← rackId.asString?
  let uploadBwMbps ← uploadBwMbps.asUInt64?
  return { nodeId, peerAddr, rackId, uploadBwMbps }

/-- Derived decoding of a request. -/
def Request.fromValue (value : Json) : Option Request := do
  let (name, content) ← value.tagged "type"
  match name with
  | "create_job" =>
      let [manifestBytes, policy] ← content.members ["manifest_bytes", "policy"] | none
      return .createJob (← manifestBytes.asBytes?) (← policy.asString?)
  | "heartbeat" =>
      let [jobId, nodeId, rackId, peerAddr, bitmapBytes, uploadBwMbps] ←
        content.members
          ["job_id", "node_id", "rack_id", "peer_addr", "bitmap_bytes", "upload_bw_mbps"] | none
      return .heartbeat (← jobId.asString?) (← nodeId.asString?) (← rackId.asString?)
        (← peerAddr.asString?) (← bitmapBytes.asBytes?) (← uploadBwMbps.asUInt64?)
  | "get_peers" =>
      let [jobId, nodeId, rackId, chunkIndex, topN] ←
        content.members ["job_id", "node_id", "rack_id", "chunk_index", "top_n"] | none
      return .getPeers (← jobId.asString?) (← nodeId.asString?) (← rackId.asString?)
        (← chunkIndex.asUInt32?) (← topN.asUInt64?)
  | "get_status" =>
      let [jobId] ← content.members ["job_id"] | none
      return .getStatus (← jobId.asString?)
  | "cancel_job" =>
      let [jobId] ← content.members ["job_id"] | none
      return .cancelJob (← jobId.asString?)
  | "list_jobs" => if content.isUnit then some .listJobs else none
  | _ => none

/-- Derived decoding of a response; a status is kept as a value. -/
def Response.fromValue (value : Json) : Option Response := do
  let (name, content) ← value.tagged "type"
  match name with
  | "job_created" =>
      let [jobId] ← content.members ["job_id"] | none
      return .jobCreated (← jobId.asString?)
  | "heartbeat_ack" =>
      let [jobComplete] ← content.members ["job_complete"] | none
      return .heartbeatAck (← jobComplete.asBool?)
  | "peers" =>
      let [found] ← content.members ["peers"] | none
      return .peers (← (← found.asArray?).mapM PeerInfo.fromValue)
  | "status" =>
      let [body] ← content.members ["body"] | none
      return .status body.ordered
  | "job_list" =>
      let [jobs] ← content.members ["jobs"] | none
      return .jobList ((← jobs.asArray?).map Json.ordered)
  | "ok" => if content.isUnit then some .ok else none
  | "error" =>
      let [message] ← content.members ["message"] | none
      return .error (← message.asString?)
  | _ => none

/-- The codec of requests. -/
def JsonParser.requests (parser : JsonParser) : Codec Request :=
  Request.codec (parser.fromSlice "Request" Request.fromValue)

/-- The codec of responses. -/
def JsonParser.responses (parser : JsonParser) (floatText : JsonNumber → List Char) :
    Codec Response :=
  Response.codec floatText (parser.fromSlice "Response" Response.fromValue)

/-- The codecs of the control plane. -/
structure Codecs where
  requests : Codec Request
  responses : Codec Response

def JsonParser.codecs (parser : JsonParser) (floatText : JsonNumber → List Char) : Codecs where
  requests := parser.requests
  responses := parser.responses floatText

/-- A response as it is sent: a status that `to_value` has made has its members ordered. -/
def Response.ordered : Response → Response
  | .status body => .status body.ordered
  | .jobList jobs => .jobList (jobs.map Json.ordered)
  | other => other

/-- A response as it is read: the numbers of a status are what reading makes of their texts, and its
members are ordered. -/
def Response.asRead (reread : JsonNumber → JsonNumber) : Response → Response
  | .status body => .status (body.mapNumber reread).ordered
  | .jobList jobs => .jobList (jobs.map fun job => (job.mapNumber reread).ordered)
  | other => other

end ModelDistribution
