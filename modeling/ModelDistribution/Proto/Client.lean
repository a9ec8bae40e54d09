/-
Module: ModelDistribution.Proto.Client
Layer: Model
Purpose: The tracker client: what each call makes of the reply to its request. A reply is the
  response that was read, or the error of connecting, writing or reading. The debug text of an
  unexpected response is a parameter.
Imports: ModelDistribution.Proto
Trusted boundary: human-reviewed spec
Main exports: Reply, TrackerClient.createJob, TrackerClient.jobStatus, TrackerClient.cancelJob,
  TrackerClient.heartbeat, TrackerClient.getPeers

[src/proto/client.rs]
-/
import ModelDistribution.Proto

namespace ModelDistribution

open Foundation

/-- What sending a request and reading its response gives. -/
abbrev Reply := Except DistError Response

namespace TrackerClient

variable (debugText : Response → String)

/-- The arms that all calls share: an error response, and one of another kind. -/
def refuse {α : Type} : Response → Except DistError α
  | .error message => .error (.proto message)
  | other => .error (.proto s!"unexpected: {debugText other}")

/-- `create_job`, from the reply on. -/
def createJob (reply : Reply) : Except DistError String := do
  match ← reply with
  | .jobCreated jobId => return jobId
  | other => refuse debugText other

/-- `job_status`. -/
def jobStatus (reply : Reply) : Except DistError Json := do
  match ← reply with
  | .status body => return body
  | other => refuse debugText other

/-- `cancel_job`. -/
def cancelJob (reply : Reply) : Except DistError Unit := do
  match ← reply with
  | .ok => return ()
  | other => refuse debugText other

/-- `heartbeat`. -/
def heartbeat (reply : Reply) : Except DistError Bool := do
  match ← reply with
  | .heartbeatAck jobComplete => return jobComplete
  | other => refuse debugText other

/-- `get_peers`. -/
def getPeers (reply : Reply) : Except DistError (List PeerInfo) := do
  match ← reply with
  | .peers peers => return peers
  | other => refuse debugText other

end TrackerClient

end ModelDistribution
