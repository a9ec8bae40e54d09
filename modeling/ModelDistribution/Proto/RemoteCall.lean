/-
Module: ModelDistribution.Proto.RemoteCall
Layer: Model
Purpose: Calls of the tracker client over a connection: a request is written and one response is read.
  What comes back on the connection is free.
Imports: ModelDistribution.Proto.Client, ModelDistribution.Proto.Decoding
Trusted boundary: human-reviewed spec
Main exports: TrackerClient.sendRecv, TrackerClient.createJobOver

[src/proto/client.rs]
-/
import ModelDistribution.Proto.Client
import ModelDistribution.Proto.Decoding

namespace ModelDistribution

open Foundation

namespace TrackerClient

variable {Stream : Type} [ExactReader Stream IoError]

/-- `send_recv` behind the connect: what has been written, and the reply. -/
def sendRecv (codecs : Codecs) (request : Request) (out : Outgoing IoError) (back : Stream) :
    Outgoing IoError × Reply :=
  match writeMsg codecs.requests request out with
  | (out, .error e) => (out, .error e)
  | (out, .ok ()) => (out, (readMsg codecs.responses back).map Prod.fst)

/-- `create_job`: reading the file, building its manifest and sending it. Without a manifest nothing is
sent. -/
def createJobOver (debugText : Response → String) (profile : Profile)
    (sha256 : List UInt8 → List UInt8) (codecs : Codecs) (file : Except IoError (List UInt8))
    (fileId version : String) (chunkSize : UInt64) (policy : String) (out : Outgoing IoError)
    (back : Stream) : Checked (Outgoing IoError × Except DistError String) :=
  match file with
  | .error e => .ok (out, .error (.io e))
  | .ok data => do
      match ← Manifest.build profile sha256 fileId version data chunkSize with
      | .error e => return (out, .error e)
      | .ok manifest =>
          let (out, reply) := sendRecv codecs (createJobRequest manifest policy) out back
          return (out, createJob debugText reply)

end TrackerClient

end ModelDistribution
