/-
Module: ModelDistribution.Peer.Node
Layer: Model
Purpose: A peer node: fetching its manifest, and its process, in which the heartbeat task and the
  download loop share the bitmap. The process ends when the loop returns, and with it the heartbeat
  task, wherever that is.
Imports: ModelDistribution.Peer.Downloader, ModelDistribution.Proto.Client
Trusted boundary: human-reviewed spec
Main exports: PeerNodeConfig, PeerNode, PeerNode.fetchManifest, PeerNode.downloaderConfig,
  PeerNode.heartbeat, HeartbeatPc, NodeProcess, NodeEvent, NodeProcess.start, NodeProcess.step

[src/peer/mod.rs]
-/
import ModelDistribution.Peer.Downloader
import ModelDistribution.Proto.Client

namespace ModelDistribution

open Foundation

/-- `PeerNodeConfig`. -/
structure PeerNodeConfig where
  trackerAddr : String
  peerAddr : String
  rackId : String
  jobId : String
  dataDir : String
  concurrency : UInt64
deriving DecidableEq, Repr

/-- `PeerNode`. -/
structure PeerNode where
  nodeId : String
  config : PeerNodeConfig
deriving DecidableEq, Repr

namespace PeerNode

/-- `fetch_manifest`, from the reply to the status request on: the member `manifest` of the body, or
else the body, is decoded as a manifest. -/
def fetchManifest (debugText : Response → String) (reply : Reply) : Except DistError Manifest := do
  let status ← TrackerClient.jobStatus debugText reply
  match Manifest.fromValue ((status.get? "manifest").getD status) with
  | .ok manifest => return manifest
  | .error message => .error (.proto message)

/-- The configuration that `run` gives to its download loop. -/
def downloaderConfig (node : PeerNode) (manifest : Manifest) : DownloaderConfig where
  nodeId := node.nodeId
  jobId := node.config.jobId
  rackId := node.config.rackId
  trackerAddr := node.config.trackerAddr
  dataDir := node.config.dataDir
  manifest := manifest
  concurrency := node.config.concurrency

/-- The heartbeat that `run` sends with the bytes of a bitmap. -/
def heartbeat (node : PeerNode) (bitmapBytes : List UInt8) : Request :=
  .heartbeat node.config.jobId node.nodeId node.config.rackId node.config.peerAddr bitmapBytes 8000

end PeerNode

/-- Where the heartbeat task is. -/
inductive HeartbeatPc where
  /-- Waiting for the reply to a heartbeat or for the next tick. -/
  | waiting
  /-- Connecting to the tracker with the bytes of the bitmap at the tick. -/
  | sending (bitmapBytes : List UInt8)
deriving DecidableEq, Repr

/-- The process of a node behind the fetch of its manifest. `sent` collects the bitmap bytes of the
heartbeats it has sent. -/
structure NodeProcess where
  download : Downloader
  heartbeat : HeartbeatPc
  sent : List (List UInt8)

/-- What happens next in the process. -/
inductive NodeEvent where
  | download (event : DownloadEvent)
  | tick
  | heartbeatSent
  | heartbeatFailed

namespace NodeProcess

/-- `run` behind the fetch of the manifest: an empty bitmap over whatever files there are. -/
def start (cfg : DownloaderConfig) (disk : String → Option (List UInt8)) : Option NodeProcess :=
  (Downloader.start cfg disk).map fun download => { download, heartbeat := .waiting, sent := [] }

/-- One step of the process; `none` when the event cannot happen, as after the end of `run`. -/
def step (platform : Platform) (cfg : DownloaderConfig) (process : NodeProcess)
    (event : NodeEvent) : Option NodeProcess :=
  if process.download.loop = .returned then none
  else
    match event with
    | .download event =>
        (process.download.step platform cfg event).map fun download => { process with download }
    | .tick =>
        match process.heartbeat with
        | .waiting => some { process with heartbeat := .sending process.download.bitmap.asBytes }
        | .sending _ => none
    | .heartbeatSent =>
        match process.heartbeat with
        | .waiting => none
        | .sending bitmapBytes =>
            some { process with heartbeat := .waiting, sent := process.sent ++ [bitmapBytes] }
    | .heartbeatFailed =>
        match process.heartbeat with
        | .waiting => none
        | .sending _ => some { process with heartbeat := .waiting }

/-! ### What one step does -/

/-- Everything one step can do. -/
inductive Effect (platform : Platform) (cfg : DownloaderConfig) (process : NodeProcess) :
    NodeEvent → NodeProcess → Prop where
  | downloads {event : DownloadEvent} {download : Downloader}
      (stepped : process.download.step platform cfg event = some download) :
      Effect platform cfg process (.download event) { process with download }
  | ticks (waiting : process.heartbeat = .waiting) :
      Effect platform cfg process .tick
        { process with heartbeat := .sending process.download.bitmap.asBytes }
  | sends {bitmapBytes : List UInt8} (sending : process.heartbeat = .sending bitmapBytes) :
      Effect platform cfg process .heartbeatSent
        { process with heartbeat := .waiting, sent := process.sent ++ [bitmapBytes] }
  | fails {bitmapBytes : List UInt8} (sending : process.heartbeat = .sending bitmapBytes) :
      Effect platform cfg process .heartbeatFailed { process with heartbeat := .waiting }

theorem step_effect {platform : Platform} {cfg : DownloaderConfig} {process next : NodeProcess}
    {event : NodeEvent} (stepped : process.step platform cfg event = some next) :
    process.download.loop ≠ .returned ∧ Effect platform cfg process event next := by
  unfold step at stepped
  split at stepped
  · cases stepped
  · rename_i running
    refine ⟨running, ?_⟩
    cases event with
    | download event =>
        rcases Option.map_eq_some_iff.mp stepped with ⟨download, downloaded, rfl⟩
        exact .downloads downloaded
    | tick =>
        cases pc : process.heartbeat with
        | waiting =>
            simp only [pc, Option.some.injEq] at stepped
            subst stepped
            exact .ticks pc
        | sending bitmapBytes => simp [pc] at stepped
    | heartbeatSent =>
        cases pc : process.heartbeat with
        | waiting => simp [pc] at stepped
        | sending bitmapBytes =>
            simp only [pc, Option.some.injEq] at stepped
            subst stepped
            exact .sends pc
    | heartbeatFailed =>
        cases pc : process.heartbeat with
        | waiting => simp [pc] at stepped
        | sending bitmapBytes =>
            simp only [pc, Option.some.injEq] at stepped
            subst stepped
            exact .fails pc

end NodeProcess

end ModelDistribution
