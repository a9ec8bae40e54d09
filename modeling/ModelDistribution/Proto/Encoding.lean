/-
Module: ModelDistribution.Proto.Encoding
Layer: Model
Purpose: The derived encodings of manifests and control-plane messages as JSON values, and the bytes
  of them that are sent. A variant is an object with its name under `type` and then its fields.
Imports: ModelDistribution.Proto, ModelDistribution.Proto.Framing,
  ModelDistribution.Foundation.JsonText
Trusted boundary: human-reviewed spec
Main exports: Manifest.toValue, Request.toValue, Response.toValue, Manifest.serialise,
  Request.codec, Response.codec, TrackerClient.createJobRequest

[src/proto/mod.rs, src/proto/client.rs, src/manifest.rs]
-/
import ModelDistribution.Proto
import ModelDistribution.Proto.Framing
import ModelDistribution.Foundation.JsonText

namespace ModelDistribution

open Foundation

/-- Derived encoding of a manifest. -/
def Manifest.toValue (manifest : Manifest) : Json :=
  .object
    [("file_id", .string manifest.fileId),
     ("version", .string manifest.version),
     ("total_size", .ofNat manifest.totalSize.toNat),
     ("chunk_size", .ofNat manifest.chunkSize.toNat),
     ("chunk_count", .ofNat manifest.chunkCount.toNat),
     ("chunk_hashes", .array (manifest.chunkHashes.map .string))]

/-- Derived encoding of a request. -/
def Request.toValue : Request → Json
  | .createJob manifestBytes policy =>
      .object
        [("type", .string "create_job"),
         ("manifest_bytes", .bytes manifestBytes),
         ("policy", .string policy)]
  | .heartbeat jobId nodeId rackId peerAddr bitmapBytes uploadBwMbps =>
      .object
        [("type", .string "heartbeat"),
         ("job_id", .string jobId),
         ("node_id", .string nodeId),
         ("rack_id", .string rackId),
         ("peer_addr", .string peerAddr),
         ("bitmap_bytes", .bytes bitmapBytes),
         ("upload_bw_mbps", .ofNat uploadBwMbps.toNat)]
  | .getPeers jobId nodeId rackId chunkIndex topN =>
      .object
        [("type", .string "get_peers"),
         ("job_id", .string jobId),
         ("node_id", .string nodeId),
         ("rack_id", .string rackId),
         ("chunk_index", .ofNat chunkIndex.toNat),
         ("top_n", .ofNat topN.toNat)]
  | .getStatus jobId => .object [("type", .string "get_status"), ("job_id", .string jobId)]
  | .cancelJob jobId => .object [("type", .string "cancel_job"), ("job_id", .string jobId)]
  | .listJobs => .object [("type", .string "list_jobs")]

/-- Derived encoding of a peer. -/
def PeerInfo.toValue (peer : PeerInfo) : Json :=
  .object
    [("node_id", .string peer.nodeId),
     ("peer_addr", .string peer.peerAddr),
     ("rack_id", .string peer.rackId),
     ("upload_bw_mbps", .ofNat peer.uploadBwMbps.toNat)]

/-- Derived encoding of a response. -/
def Response.toValue : Response → Json
  | .jobCreated jobId => .object [("type", .string "job_created"), ("job_id", .string jobId)]
  | .heartbeatAck jobComplete =>
      .object [("type", .string "heartbeat_ack"), ("job_complete", .bool jobComplete)]
  | .peers found =>
      .object [("type", .string "peers"), ("peers", .array (found.map PeerInfo.toValue))]
  | .status body => .object [("type", .string "status"), ("body", body)]
  | .jobList jobs => .object [("type", .string "job_list"), ("jobs", .array jobs)]
  | .ok => .object [("type", .string "ok")]
  | .error message => .object [("type", .string "error"), ("message", .string message)]

/-- The texts of floating-point numbers where there are none. -/
def noFloats : JsonNumber → List Char := fun _ => []

/-- `Manifest::serialise`. -/
def Manifest.serialise (manifest : Manifest) : List UInt8 := manifest.toValue.toBytes noFloats

/-- The codec of requests; decoding is a parameter. -/
def Request.codec (fromSlice : List UInt8 → Except String Request) : Codec Request where
  toVec request := .ok (request.toValue.toBytes noFloats)
  fromSlice := fromSlice

/-- The codec of responses; decoding is a parameter, and so are the texts of the floating-point numbers
in a job status. -/
def Response.codec (floatText : JsonNumber → List Char)
    (fromSlice : List UInt8 → Except String Response) : Codec Response where
  toVec response := .ok (response.toValue.toBytes floatText)
  fromSlice := fromSlice

/-- The request that `TrackerClient::create_job` writes for the manifest it has built. -/
def TrackerClient.createJobRequest (manifest : Manifest) (policy : String) : Request :=
  .createJob manifest.serialise policy

end ModelDistribution
