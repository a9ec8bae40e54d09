/-
Module: ModelDistribution.Proto
Layer: Model
Purpose: The control-plane messages between the tracker and its clients.
Imports: ModelDistribution.Tracker.Types
Trusted boundary: human-reviewed spec
Main exports: Request, Response, PeerInfo

[src/proto/mod.rs, message types]
-/
import ModelDistribution.Tracker.Types

namespace ModelDistribution

open Foundation

/-- `Request`. -/
inductive Request where
  | createJob (manifestBytes : List UInt8) (policy : String)
  | heartbeat (jobId nodeId rackId peerAddr : String) (bitmapBytes : List UInt8)
      (uploadBwMbps : UInt64)
  | getPeers (jobId nodeId rackId : String) (chunkIndex : UInt32) (topN : UInt64)
  | getStatus (jobId : String)
  | cancelJob (jobId : String)
  | listJobs
deriving DecidableEq, Repr

/-- `PeerInfo`. -/
structure PeerInfo where
  nodeId : String
  peerAddr : String
  rackId : String
  uploadBwMbps : UInt64
deriving DecidableEq, Repr

/-- `PeerInfo::from`. -/
def PeerInfo.fromCandidate (peer : CandidatePeer) : PeerInfo where
  nodeId := peer.nodeId
  peerAddr := peer.peerAddr
  rackId := peer.rackId
  uploadBwMbps := peer.uploadBwMbps

/-- `Response`. -/
inductive Response where
  | jobCreated (jobId : String)
  | heartbeatAck (jobComplete : Bool)
  | peers (peers : List PeerInfo)
  | status (body : Json)
  | jobList (jobs : List Json)
  | ok
  | error (message : String)

end ModelDistribution
