/-
Module: ModelDistribution.Network
Layer: Model
Purpose: The tracker process and the nodes of one job, with a connection for every heartbeat and
  every peer query of theirs; a node is given its manifest, as `fetch_manifest` never delivers one. A
  heartbeat task writes its request to a new connection and reads no more of the reply than that it
  came; a chunk task waits for the reply to its query. Any front of what a client writes may arrive,
  cut in any way, and any front of what the tracker writes may come back; other clients may send any
  bytes.
Imports: ModelDistribution.Proto.RemoteCall, ModelDistribution.Swarm,
  ModelDistribution.Tracker.Listener
Trusted boundary: human-reviewed spec
Main exports: Caller, Network, NetworkEvent, Network.start, Network.step, Network.Effect,
  Network.step_effect

[src/peer/mod.rs, src/peer/downloader.rs, src/proto/client.rs, src/tracker/server.rs]
-/
import ModelDistribution.Proto.RemoteCall
import ModelDistribution.Swarm
import ModelDistribution.Tracker.Listener

namespace ModelDistribution

open Foundation

/-- Who has opened a connection to the tracker. -/
inductive Caller where
  /-- The heartbeat task of a node. -/
  | heartbeat (nodeId : String)
  /-- The task of a node for a chunk. -/
  | query (nodeId : String) (chunk : UInt32)
  | outside
deriving DecidableEq, Repr

/-- The tracker process, the nodes, the callers of the connections in their order, and the connection
over which the task of a node for a chunk waits for its reply. -/
structure Network where
  listener : Listener
  members : String → Option Member
  callers : List Caller
  asking : String → UInt32 → Option Nat

/-- What happens next. `fault` says when the way back of a new connection will fail. -/
inductive NetworkEvent where
  /-- A node starts with the manifest of the job, which it is given. -/
  | join (node : PeerNode) (disk : String → Option (List UInt8))
  /-- A step of a node's process without a message to or from the tracker; a call that fails on the
  side of its client is such a step. -/
  | member (nodeId : String) (event : NodeEvent)
  /-- The heartbeat task of a node connects and writes its request. -/
  | heartbeat (nodeId : String) (stream : Fragmented IoError) (fault : Option (Nat × IoError))
  /-- The task at the position connects and writes its query. -/
  | query (nodeId : String) (k : Nat) (stream : Fragmented IoError) (fault : Option (Nat × IoError))
  /-- Another client connects. -/
  | outside (stream : Fragmented IoError) (fault : Option (Nat × IoError))
  /-- A step of the tracker process other than accepting a connection. -/
  | tracker (event : ListenerEvent)
  /-- The task at the position reads what has come back over its connection. -/
  | reply (nodeId : String) (k : Nat) (back : Fragmented IoError)

/-- A step that brings no message to or from the tracker. -/
def NodeEvent.isLocal : NodeEvent → Bool
  | .download (.tracker _ (.ok _)) => false
  | .heartbeatSent => false
  | _ => true

/-- A step of the tracker process that accepts no connection and does not draw the identifier of the
job again. -/
def ListenerEvent.isOwn (jobId : String) : ListenerEvent → Bool
  | .accept _ _ => false
  | .read _ _ freshId => freshId != jobId
  | _ => true

namespace Network

/-- The tracker has just created the job, over one of its connections, and no node has started. -/
def start (listener : Listener) : Network where
  listener := listener
  members := fun _ => none
  callers := List.replicate listener.connections.length .outside
  asking := fun _ _ => none

/-- The tracker and the nodes, without what is between them. -/
def cluster (network : Network) : Cluster where
  tracker := network.listener.tracker
  members := network.members

/-- The task of a node at a position. -/
def task? (network : Network) (nodeId : String) (k : Nat) : Option (Member × Task) :=
  ({ cluster := network.cluster, answers := [] } : Swarm).task? nodeId k

/-- The tracker accepts a new connection. -/
def accept (network : Network) (caller : Caller) (stream : Fragmented IoError)
    (fault : Option (Nat × IoError)) : Network :=
  { network with
    listener := { network.listener with
      connections := network.listener.connections ++
        [{ stream, out := { sent := [], fault }, pc := .reading }] }
    callers := network.callers ++ [caller] }

/-- The task of a node for a chunk waits for no reply any more. -/
def hangUp (network : Network) (nodeId : String) (chunk : UInt32) : Network :=
  { network with
    asking := fun other i =>
      if other = nodeId ∧ i = chunk then none else network.asking other i }

/-- The node has made a step. A task that has failed to get a reply waits no more. -/
def moved (network : Network) (nodeId : String) (event : NodeEvent) (cluster : Cluster) : Network :=
  let after := { network with members := cluster.members }
  match event with
  | .download (.tracker k _) =>
      match network.task? nodeId k with
      | some (_, task) => after.hangUp nodeId task.chunk
      | none => after
  | _ => after

/-- The bytes that arrive are a front of what a client writes for its request. -/
def Sends (codecs : Codecs) (request : Request) (stream : Fragmented IoError) : Prop :=
  stream.fragments.flatten <+: (writeMsg codecs.requests request .reliable).1.sent

instance (codecs : Codecs) (request : Request) (stream : Fragmented IoError) :
    Decidable (Sends codecs request stream) :=
  inferInstanceAs (Decidable (_ <+: _))

/-- One step of the system; `none` when the event cannot happen in the state. -/
def step (debugText : Response → String) (codecs : Codecs) (deployment : Deployment)
    (network : Network) : NetworkEvent → Option Network
  | .join node disk =>
      (network.cluster.step deployment (.join node disk)).map fun cluster =>
        { network with members := cluster.members }
  | .member nodeId event =>
      if event.isLocal then
        (network.cluster.step deployment (.member nodeId event)).map fun cluster =>
          network.moved nodeId event cluster
      else none
  | .heartbeat nodeId stream fault =>
      (network.members nodeId).bind fun member =>
        match member.process.heartbeat with
        | .sending bitmapBytes =>
            if Sends codecs (member.node.heartbeat bitmapBytes) stream then
              (network.cluster.step deployment (.member nodeId .heartbeatSent)).map fun cluster =>
                (network.moved nodeId .heartbeatSent cluster).accept (.heartbeat nodeId) stream fault
            else none
        | .waiting => none
  | .query nodeId k stream fault =>
      (network.task? nodeId k).bind fun (member, task) =>
        let query := (member.config deployment).peersQuery task.chunk
        if task.pc = .askTracker ∧ network.asking nodeId task.chunk = none ∧
            Sends codecs query stream then
          let connected := network.accept (.query nodeId task.chunk) stream fault
          some { connected with
            asking := fun other i =>
              if other = nodeId ∧ i = task.chunk then some network.listener.connections.length
              else network.asking other i }
        else none
  | .outside stream fault => some (network.accept .outside stream fault)
  | .tracker event =>
      if event.isOwn deployment.jobId then
        (network.listener.step deployment.server codecs event).map fun listener =>
          { network with listener }
      else none
  | .reply nodeId k back =>
      (network.task? nodeId k).bind fun (_, task) =>
        (network.asking nodeId task.chunk).bind fun c =>
          (network.listener.connections[c]?).bind fun connection =>
            match connection.pc with
            | .closed _ out _ =>
                if back.fragments.flatten <+: out.sent then
                  let reply := (readMsg codecs.responses back).map Prod.fst
                  let event := NodeEvent.download
                    (.tracker k (TrackerClient.getPeers debugText reply))
                  (network.cluster.step deployment (.member nodeId event)).map fun cluster =>
                    network.moved nodeId event cluster
                else none
            | _ => none

/-! ### What one step does -/

/-- Everything one step can do. -/
inductive Effect (debugText : Response → String) (codecs : Codecs) (deployment : Deployment)
    (network : Network) : NetworkEvent → Network → Prop where
  | joins {node : PeerNode} {disk : String → Option (List UInt8)} {cluster : Cluster}
      (joined : network.cluster.step deployment (.join node disk) = some cluster) :
      Effect debugText codecs deployment network (.join node disk)
        { network with members := cluster.members }
  | moves {nodeId : String} {event : NodeEvent} {cluster : Cluster}
      (isLocal : event.isLocal = true)
      (stepped : network.cluster.step deployment (.member nodeId event) = some cluster) :
      Effect debugText codecs deployment network (.member nodeId event)
        (network.moved nodeId event cluster)
  | reports {nodeId : String} {member : Member} {bitmapBytes : List UInt8} {cluster : Cluster}
      {stream : Fragmented IoError} {fault : Option (Nat × IoError)}
      (found : network.members nodeId = some member)
      (sending : member.process.heartbeat = .sending bitmapBytes)
      (sends : Sends codecs (member.node.heartbeat bitmapBytes) stream)
      (stepped : network.cluster.step deployment (.member nodeId .heartbeatSent) = some cluster) :
      Effect debugText codecs deployment network (.heartbeat nodeId stream fault)
        ((network.moved nodeId .heartbeatSent cluster).accept (.heartbeat nodeId) stream fault)
  | asks {nodeId : String} {k : Nat} {member : Member} {task : Task}
      {stream : Fragmented IoError} {fault : Option (Nat × IoError)}
      (found : network.members nodeId = some member)
      (live : member.process.download.tasks[k]? = some task) (pc : task.pc = .askTracker)
      (idle : network.asking nodeId task.chunk = none)
      (sends : Sends codecs ((member.config deployment).peersQuery task.chunk) stream) :
      Effect debugText codecs deployment network (.query nodeId k stream fault)
        { network.accept (.query nodeId task.chunk) stream fault with
          asking := fun other i =>
            if other = nodeId ∧ i = task.chunk then some network.listener.connections.length
            else network.asking other i }
  | knocks (stream : Fragmented IoError) (fault : Option (Nat × IoError)) :
      Effect debugText codecs deployment network (.outside stream fault)
        (network.accept .outside stream fault)
  | tracks {event : ListenerEvent} {listener : Listener} (own : event.isOwn deployment.jobId = true)
      (stepped : network.listener.step deployment.server codecs event = some listener) :
      Effect debugText codecs deployment network (.tracker event) { network with listener }
  | hears {nodeId : String} {k c : Nat} {member : Member} {task : Task} {connection : Connection}
      {response : Option Response} {out : Outgoing IoError} {result : Checked (Except DistError Unit)}
      {back : Fragmented IoError} {cluster : Cluster}
      (found : network.members nodeId = some member)
      (live : member.process.download.tasks[k]? = some task)
      (waits : network.asking nodeId task.chunk = some c)
      (at_c : network.listener.connections[c]? = some connection)
      (ended : connection.pc = .closed response out result)
      (front : back.fragments.flatten <+: out.sent)
      (stepped : network.cluster.step deployment (.member nodeId (.download (.tracker k
        (TrackerClient.getPeers debugText ((readMsg codecs.responses back).map Prod.fst))))) =
          some cluster) :
      Effect debugText codecs deployment network (.reply nodeId k back)
        (network.moved nodeId (.download (.tracker k
          (TrackerClient.getPeers debugText ((readMsg codecs.responses back).map Prod.fst)))) cluster)

theorem step_effect {debugText : Response → String} {codecs : Codecs} {deployment : Deployment}
    {network next : Network} {event : NetworkEvent}
    (stepped : network.step debugText codecs deployment event = some next) :
    Effect debugText codecs deployment network event next := by
  cases event with
  | join node disk =>
      rcases Option.map_eq_some_iff.mp stepped with ⟨cluster, joined, rfl⟩
      exact .joins joined
  | member nodeId event =>
      simp only [step] at stepped
      split at stepped
      · rename_i isLocal
        rcases Option.map_eq_some_iff.mp stepped with ⟨cluster, moved, rfl⟩
        exact .moves isLocal moved
      · cases stepped
  | heartbeat nodeId stream fault =>
      rcases Option.bind_eq_some_iff.mp stepped with ⟨member, found, rest⟩
      split at rest
      · rename_i bitmapBytes sending
        split at rest
        · rename_i sends
          rcases Option.map_eq_some_iff.mp rest with ⟨cluster, moved, rfl⟩
          exact .reports found sending sends moved
        · cases rest
      · cases rest
  | query nodeId k stream fault =>
      rcases Option.bind_eq_some_iff.mp stepped with ⟨⟨member, task⟩, located, rest⟩
      rcases Swarm.task?_eq_some located with ⟨found, live⟩
      simp only at rest
      split at rest
      · rename_i allowed
        cases rest
        exact .asks found live allowed.1 allowed.2.1 allowed.2.2
      · cases rest
  | outside stream fault =>
      cases stepped
      exact .knocks stream fault
  | tracker event =>
      simp only [step] at stepped
      split at stepped
      · rename_i own
        rcases Option.map_eq_some_iff.mp stepped with ⟨listener, moved, rfl⟩
        exact .tracks own moved
      · cases stepped
  | reply nodeId k back =>
      rcases Option.bind_eq_some_iff.mp stepped with ⟨⟨member, task⟩, located, rest⟩
      rcases Swarm.task?_eq_some located with ⟨found, live⟩
      rcases Option.bind_eq_some_iff.mp rest with ⟨c, waits, rest⟩
      rcases Option.bind_eq_some_iff.mp rest with ⟨connection, at_c, rest⟩
      split at rest
      · rename_i response out result ended
        split at rest
        · rename_i front
          rcases Option.map_eq_some_iff.mp rest with ⟨cluster, moved, rfl⟩
          exact .hears found live waits at_c ended front moved
        · cases rest
      · cases rest

end Network

end ModelDistribution
