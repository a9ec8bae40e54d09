/-
Module: ModelDistribution.Tracker.Listener
Layer: Model
Purpose: The accept loop of the tracker: a task for every connection, which reads one request, handles
  it and writes the response, beside the background eviction. The tasks share the tracker and take
  their steps in any order. Every call of the tracker is taken as one atomic step, and the two that a
  heartbeat makes as two: a peer query, a snapshot, a listing and the eviction walk the tables shard by
  shard beside the other tasks, and their locks are those of Tracker.Locks. What a client sends and how
  long the way back to it holds are free.
Imports: ModelDistribution.Proto.Decoding, ModelDistribution.Tracker.Server
Trusted boundary: human-reviewed spec
Main exports: ConnectionPc, Connection, Logged, Listener, ListenerEvent, Tracker.jobComplete,
  Server.begin, Listener.step

[src/tracker/server.rs, run and handle_connection]
-/
import ModelDistribution.Proto.Decoding
import ModelDistribution.Tracker.Server

namespace ModelDistribution

open Foundation

/-- Where the task of a connection is in `handle_connection`. -/
inductive ConnectionPc where
  /-- The request is not read yet. -/
  | reading
  /-- Reading has failed, and the error is to be reported. -/
  | refusing (error : DistError)
  /-- A heartbeat is recorded; the status of its job is not read yet. -/
  | updated (jobId : String)
  | answering (response : Response)
  /-- The task has ended: with the response that it tried to write, what it has written, and its
  result. A panic ends it as well. -/
  | closed (response : Option Response) (out : Outgoing IoError)
      (result : Checked (Except DistError Unit))

/-- A connection of the tracker: what its client sends, the way back to it, and where its task is. -/
structure Connection where
  stream : Fragmented IoError
  out : Outgoing IoError
  pc : ConnectionPc

/-- An event that the tracker has handled, and the connection it came over. -/
structure Logged where
  connection : Option Nat
  event : TrackerEvent
deriving DecidableEq, Repr

/-- The tracker with its connections in the order in which they were accepted. `log` collects the events
that it has handled. -/
structure Listener where
  tracker : Tracker
  connections : List Connection
  log : List Logged

/-- What happens next. -/
inductive ListenerEvent where
  | accept (stream : Fragmented IoError) (out : Outgoing IoError)
  /-- The task reads the request and the tracker handles it. -/
  | read (k : Nat) (now : Nat) (freshId : String)
  /-- The task of a heartbeat reads the status of the job. -/
  | status (k : Nat)
  /-- The task writes its response. -/
  | write (k : Nat)
  /-- A tick of the background eviction. -/
  | evict (now : Nat)

/-- Whether the job is known and complete. -/
def Tracker.jobComplete (tracker : Tracker) (jobId : String) : Bool :=
  match tracker.getJob jobId with
  | .ok job => decide (job.status = .complete)
  | .error _ => false

/-- `dispatch` up to the end of its first call of the tracker, taken as one step. It is the only one
except for a heartbeat. -/
def Server.begin (server : Server) (tracker : Tracker) (now : Nat) (freshId : String)
    (out : Outgoing IoError) : Request → Tracker × ConnectionPc
  | .heartbeat jobId nodeId rackId peerAddr bitmapBytes uploadBwMbps =>
      match tracker.updateNode server.layouts now jobId
          { nodeId, rackId, peerAddr, bitmapBytes, uploadBwMbps } with
      | .error e => (tracker, .answering (.error e.toString))
      | .ok after => (after, .updated jobId)
  | request =>
      match server.dispatch tracker now freshId request with
      | (after, .ok response) => (after, .answering response)
      | (after, .error panic) => (after, .closed none out (.error panic))

namespace Listener

/-- Nothing has been accepted yet. -/
def start : Listener where
  tracker := .new
  connections := []
  log := []

/-- The listener with another connection at the position. -/
def put (listener : Listener) (k : Nat) (connection : Connection) : Listener :=
  { listener with connections := listener.connections.set k connection }

/-- One step of the tracker process, with a whole call of the tracker in it; `none` when the event
cannot happen in the state. -/
def step (server : Server) (codecs : Codecs) (listener : Listener) :
    ListenerEvent → Option Listener
  | .accept stream out =>
      some { listener with
        connections := listener.connections ++ [{ stream, out, pc := .reading }] }
  | .read k now freshId =>
      listener.connections[k]?.bind fun connection =>
        match connection.pc with
        | .reading =>
            match readMsg codecs.requests connection.stream with
            | .error e => some (listener.put k { connection with pc := .refusing e })
            | .ok (request, _) =>
                let begun := server.begin listener.tracker now freshId connection.out request
                some {
                  tracker := begun.1
                  connections := listener.connections.set k { connection with pc := begun.2 }
                  log := listener.log ++ [⟨some k, .request now freshId request⟩] }
        | _ => none
  | .status k =>
      listener.connections[k]?.bind fun connection =>
        match connection.pc with
        | .updated jobId =>
            let jobComplete := listener.tracker.jobComplete jobId
            some (listener.put k { connection with pc := .answering (.heartbeatAck jobComplete) })
        | _ => none
  | .write k =>
      listener.connections[k]?.bind fun connection =>
        match connection.pc with
        | .refusing e =>
            let response := Response.error e.toString
            let written := writeMsg codecs.responses response connection.out
            some (listener.put k
              { connection with pc := .closed (some response) written.1 (.ok (.error e)) })
        | .answering response =>
            let written := writeMsg codecs.responses response.ordered connection.out
            some (listener.put k
              { connection with pc := .closed (some response) written.1 (.ok written.2) })
        | _ => none
  | .evict now =>
      some { listener with
        tracker := listener.tracker.evictStaleNodes now 60
        log := listener.log ++ [⟨none, .evict now 60⟩] }

end Listener

end ModelDistribution
