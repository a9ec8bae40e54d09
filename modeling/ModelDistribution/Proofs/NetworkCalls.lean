/-
Module: ModelDistribution.Proofs.NetworkCalls
Layer: Proofs
Purpose: What the parts of the system with connections can do when nothing fails: the tracker serves a
  request that has arrived, and a node makes its own steps, sends its query or its heartbeat and takes
  the reply. From these, a run in which a node fetches a chunk and reports it, all over connections.
Imports: ModelDistribution.Proofs.NetworkCoupling
Trusted boundary: none
Main exports: Request.arriving, Network.tracks_run, Network.moves_run, Network.step_heartbeat,
  Network.step_query, Network.step_reply, Network.call_served, sampleNetwork_runs
-/
import ModelDistribution.Proofs.NetworkCoupling

namespace ModelDistribution

open Foundation

/-- A request that arrives as a whole. -/
def Request.arriving (request : Request) : Fragmented IoError where
  fragments := [frame request.payload]
  ending := ⟨.unexpectedEof, "early eof"⟩

theorem Request.flatten_arriving (request : Request) :
    request.arriving.fragments.flatten = frame request.payload :=
  List.append_nil _

theorem Request.sends_arriving (request : Request) (parser : JsonParser)
    (floatText : JsonNumber → List Char) :
    Network.Sends (parser.codecs floatText) request request.arriving := by
  have written : writeMsg (parser.codecs floatText).requests request .reliable =
      ({ sent := frame request.payload, fault := none }, .ok ()) := writeMsg_reliable rfl
  have front : request.arriving.fragments.flatten <+: frame request.payload :=
    request.flatten_arriving ▸ List.prefix_rfl
  rw [Network.Sends, written]
  exact front

/-! ### What the parts can do -/

section Forward

variable {debugText : Response → String} {codecs : Codecs} {deployment : Deployment}
  {network : Network} {listener : Listener} {nodeId : String} {member : Member} {task : Task}

/-- The tracker process makes its own steps in the system. -/
theorem Network.tracks_run {events : List ListenerEvent}
    (own : ∀ event ∈ events, event.isOwn deployment.jobId = true)
    (ran : runEvents (Listener.step deployment.server codecs) network.listener events =
      some listener) :
    runEvents (Network.step debugText codecs deployment) network (events.map .tracker) =
      some { network with listener } := by
  induction events generalizing network with
  | nil =>
      cases ran
      rfl
  | cons event events ih =>
      rcases runEvents_cons_eq_some.mp ran with ⟨next, stepped, rest⟩
      refine runEvents_cons_eq_some.mpr ⟨{ network with listener := next }, ?_, ?_⟩
      · simp only [Network.step, own event List.mem_cons_self, if_true, stepped, Option.map_some]
      · exact ih (fun other mem => own other (List.mem_cons_of_mem _ mem)) rest

/-- A connection with a request can be served. -/
theorem Network.served {c : Nat} {connection : Connection} {request : Request} {response : Response}
    {rest : Fragmented IoError} (found : network.listener.connections[c]? = some connection)
    (reading : connection.pc = .reading) (now : Nat) {freshId : String}
    (fresh : freshId ≠ deployment.jobId)
    (read : readMsg codecs.requests connection.stream = .ok (request, rest))
    (answered : (deployment.server.dispatch network.listener.tracker now freshId request).2 =
      .ok response) :
    ∃ events listener,
      runEvents (Network.step debugText codecs deployment) network events =
        some { network with listener } ∧
      listener.tracker = deployment.server.step network.listener.tracker
        (.request now freshId request) ∧
      listener.connections = network.listener.connections.set c { connection with
        pc := .closed (some response) (writeMsg codecs.responses response.ordered connection.out).1
          (.ok (writeMsg codecs.responses response.ordered connection.out).2) } := by
  rcases served_accepted found reading now freshId read answered with
    ⟨events, listener, shapes, ran, tracker, _, connections⟩
  refine ⟨events.map .tracker, listener, Network.tracks_run ?_ ran, tracker, connections⟩
  intro event mem
  rcases shapes event mem with rfl | rfl | rfl
  · exact bne_iff_ne.mpr fresh
  · rfl
  · rfl

/-- A step of a node that has nothing to do with the tracker. -/
def NodeEvent.isAlone : NodeEvent → Bool
  | .download (.tracker _ _) => false
  | .heartbeatSent => false
  | _ => true

theorem Network.step_alone {event : NodeEvent} {cluster : Cluster} (alone : event.isAlone = true)
    (moved : network.cluster.step deployment (.member nodeId event) = some cluster) :
    network.step debugText codecs deployment (.member nodeId event) =
      some { network with members := cluster.members } := by
  have isLocal : event.isLocal = true := by
    cases event with
    | download event =>
        cases event with
        | tracker k answer => cases alone
        | _ => rfl
    | heartbeatSent => cases alone
    | _ => rfl
  simp only [Network.step, isLocal, if_true, moved, Option.map_some]
  unfold Network.moved
  split
  · cases alone
  · rfl

/-- A node makes its steps in the system as long as they have nothing to do with the tracker. -/
theorem Network.moves_run {events : List NodeEvent} {process : NodeProcess}
    (alone : ∀ event ∈ events, event.isAlone = true)
    (found : network.members nodeId = some member)
    (ran : runEvents (NodeProcess.step deployment.platform (member.config deployment)) member.process
      events = some process) :
    ∃ members, runEvents (Network.step debugText codecs deployment) network
        (events.map (.member nodeId)) = some { network with members } ∧
      members nodeId = some { member with process } ∧
      ∀ other, other ≠ nodeId → members other = network.members other := by
  induction events generalizing network member with
  | nil =>
      cases ran
      exact ⟨network.members, rfl, found, fun _ _ => rfl⟩
  | cons event events ih =>
      rcases runEvents_cons_eq_some.mp ran with ⟨next, stepped, rest⟩
      have known : network.cluster.members nodeId = some member := found
      have moved : network.cluster.step deployment (.member nodeId event) =
          some (network.cluster.setMember nodeId { member with process := next }) := by
        simp only [Cluster.step, known, stepped, Option.bind_some, Option.map_some]
      let after : Network :=
        { network with
          members := (network.cluster.setMember nodeId { member with process := next }).members }
      have first : network.step debugText codecs deployment (.member nodeId event) = some after :=
        Network.step_alone (alone event List.mem_cons_self) moved
      have here : after.members nodeId = some { member with process := next } :=
        (Cluster.setMember_members _ _ _ _).trans (if_pos rfl)
      rcases ih (fun other mem => alone other (List.mem_cons_of_mem _ mem)) here rest with
        ⟨members, run, there, others⟩
      refine ⟨members, runEvents_cons_eq_some.mpr ⟨after, first, run⟩, there, ?_⟩
      intro other different
      rw [others other different]
      exact (Cluster.setMember_members _ _ _ _).trans (if_neg different)

/-- A node whose heartbeat is due can send it. -/
theorem Network.step_heartbeat (debugText : Response → String) {bitmapBytes : List UInt8}
    {stream : Fragmented IoError} {cluster : Cluster} (fault : Option (Nat × IoError))
    (found : network.members nodeId = some member)
    (sending : member.process.heartbeat = .sending bitmapBytes)
    (sends : Network.Sends codecs (member.node.heartbeat bitmapBytes) stream)
    (stepped : network.cluster.step deployment (.member nodeId .heartbeatSent) = some cluster) :
    network.step debugText codecs deployment (.heartbeat nodeId stream fault) =
      some
        ((network.moved nodeId .heartbeatSent cluster).accept (.heartbeat nodeId) stream fault) := by
  simp only [Network.step, found, Option.bind_some, sending, if_pos sends, stepped, Option.map_some]

/-- A task that waits for the tracker can send its query. -/
theorem Network.step_query (debugText : Response → String) {k : Nat} {stream : Fragmented IoError}
    (fault : Option (Nat × IoError)) (found : network.members nodeId = some member)
    (live : member.process.download.tasks[k]? = some task) (pc : task.pc = .askTracker)
    (idle : network.asking nodeId task.chunk = none)
    (sends : Network.Sends codecs ((member.config deployment).peersQuery task.chunk) stream) :
    network.step debugText codecs deployment (.query nodeId k stream fault) =
      some { network.accept (.query nodeId task.chunk) stream fault with
        asking := fun other i =>
          if other = nodeId ∧ i = task.chunk then some network.listener.connections.length
          else network.asking other i } := by
  have located : network.task? nodeId k = some (member, task) := by
    have known : network.cluster.members nodeId = some member := found
    simp only [Network.task?, Swarm.task?, known, live, Option.bind_some, Option.map_some]
  simp only [Network.step, located, Option.bind_some, pc, idle, sends, and_self, if_true]

/-- What has come back over its connection reaches it. -/
theorem Network.step_reply {k c : Nat} {connection : Connection} {response : Option Response}
    {out : Outgoing IoError} {result : Checked (Except DistError Unit)} {back : Fragmented IoError}
    {cluster : Cluster} {answer : Except DistError (List PeerInfo)}
    (found : network.members nodeId = some member)
    (live : member.process.download.tasks[k]? = some task)
    (waits : network.asking nodeId task.chunk = some c)
    (at_c : network.listener.connections[c]? = some connection)
    (ended : connection.pc = .closed response out result)
    (front : back.fragments.flatten <+: out.sent)
    (taken : TrackerClient.getPeers debugText ((readMsg codecs.responses back).map Prod.fst) = answer)
    (stepped : network.cluster.step deployment (.member nodeId (.download (.tracker k answer))) =
      some cluster) :
    network.step debugText codecs deployment (.reply nodeId k back) =
      some (network.moved nodeId (.download (.tracker k answer)) cluster) := by
  have located : network.task? nodeId k = some (member, task) := by
    have known : network.cluster.members nodeId = some member := found
    simp only [Network.task?, Swarm.task?, known, live, Option.bind_some, Option.map_some]
  simp only [Network.step, located, Option.bind_some, waits, at_c, ended, front, if_true, taken,
    stepped, Option.map_some]

/-- A connection over which the whole request has come and the whole response has gone back. -/
def Connection.answered (codecs : Codecs) (request : Request) (response : Response) : Connection where
  stream := request.arriving
  out := .reliable
  pc := .closed (some response) (writeMsg codecs.responses response.ordered .reliable).1
    (.ok (writeMsg codecs.responses response.ordered .reliable).2)

/-- A call over a new connection gets its answer. -/
theorem Network.call_served (debugText : Response → String) {parser : JsonParser}
    {floatText : JsonNumber → List Char} {reread : JsonNumber → JsonNumber}
    (reads : ReadsBack floatText 127 reread parser.read)
    (caller : Caller) (asking : String → UInt32 → Option Nat) {request : Request}
    {response : Response} (fits : request.payload.length ≤ maxFrame) (now : Nat) {freshId : String}
    (fresh : freshId ≠ deployment.jobId)
    (answered : (deployment.server.dispatch network.listener.tracker now freshId request).2 =
      .ok response) :
    ∃ events listener,
      runEvents (Network.step debugText (parser.codecs floatText) deployment)
        { network.accept caller request.arriving none with asking } events =
          some { network with listener, callers := network.callers ++ [caller], asking } ∧
      listener.tracker = deployment.server.step network.listener.tracker
        (.request now freshId request) ∧
      listener.connections = network.listener.connections ++
        [.answered (parser.codecs floatText) request response] := by
  rcases readMsg_request reads fits request.flatten_arriving with ⟨rest, whole⟩
  have read : readMsg (parser.codecs floatText).requests request.arriving = .ok (request, rest) :=
    whole
  let accepted : Network := { network.accept caller request.arriving none with asking }
  have found : accepted.listener.connections[network.listener.connections.length]? =
      some { stream := request.arriving, out := .reliable, pc := .reading } :=
    List.getElem?_concat_length
  rcases Network.served found rfl now fresh read answered with
    ⟨events, listener, ran, tracker, connections⟩
  refine ⟨events, listener, ran, tracker, ?_⟩
  rw [connections]
  refine (List.set_append_right _ _ (Nat.le_refl _)).trans ?_
  rw [Nat.sub_self]
  rfl

end Forward

/-! ### A chunk that comes over connections -/

/-- The sample job under the identifier that the tracker has drawn for it. -/
def sampleNetwork : Deployment :=
  { sampleDeployment with server := announcementServer, jobId := "x" }

/-- The sample node, for that job. -/
def sampleReporter : PeerNode :=
  { sampleNode with config := { sampleNode.config with jobId := "x" } }

/-- The process at its start. -/
def sampleIdle : NodeProcess where
  download := {
    bitmap := .new sampleManifest.chunkCount
    disk := fun _ => none
    loop := .check
    tasks := [] }
  heartbeat := .waiting
  sent := []

/-- The answer to the creation of the sample job is short. -/
theorem sampleCreation_small {created : Listener} (length : created.connections.length = 1)
    {reply : Reply}
    (replied : Replied (sampleJsonParser.codecs sampleFloatText) sampleFloatText created
      sampleCreation 0 reply) {c : Nat} {connection : Connection} {response : Response}
    {out : Outgoing IoError} {result : Checked (Except DistError Unit)}
    (at_c : created.connections[c]? = some connection)
    (closed : connection.pc = .closed (some response) out result) :
    (response.payload sampleFloatText).length < 2 ^ 32 := by
  rcases replied.call with ⟨first, _, _, called, small, _⟩
  have inside := (List.getElem?_eq_some_iff.mp at_c).1
  have zero : c = 0 := by omega
  subst zero
  rcases called.ended with ⟨_, _, ended, _⟩
  rw [called.found] at at_c
  cases at_c
  rw [closed] at ended
  cases ended
  exact small response rfl

/-- All queries of the sample node are short. -/
theorem sampleReporter_queries (process : NodeProcess) (chunk : UInt32) :
    ((Member.config sampleNetwork { node := sampleReporter, process }).peersQuery
      chunk).payload.length < 2 ^ 32 := by
  have digits : decimalSize chunk.toNat ≤ 10 :=
    (Json.decimalSize_le_iff (by decide)).mpr (Nat.lt_trans chunk.toNat_lt (by decide))
  have most : 76 + textSize "x" + textSize "n" + textSize "r" + 10 + decimalSize 5 < 2 ^ 32 := by
    decide
  rw [Request.payload, Json.length_toBytes, Request.size_toValue]
  exact Nat.lt_of_le_of_lt (Nat.add_le_add_right (Nat.add_le_add_left digits _) _) most

/-- The seed of the sample job announces its first chunk. -/
def sampleSeedReport : Request := .heartbeat "x" "s" "r" "b" [128] 10000

/-- The query of the sample node for its first chunk. -/
def sampleChunkQuery : Request := .getPeers "x" "n" "r" 0 5

/-- The heartbeat of the sample node behind that chunk. -/
def sampleReport : Request := sampleReporter.heartbeat [128]

/-- The seed as a candidate. -/
def sampleSeedPeer : PeerInfo := ⟨"s", "b", "r", 10000⟩

theorem sampleSeedReport_fits : sampleSeedReport.payload.length ≤ maxFrame := by
  rw [Request.payload, Json.length_toBytes, Request.size_toValue]
  decide

theorem sampleReport_fits : sampleReport.payload.length ≤ maxFrame := by
  rw [Request.payload, Json.length_toBytes, Request.size_toValue]
  decide

theorem sampleChunkQuery_fits : sampleChunkQuery.payload.length ≤ maxFrame := by
  rw [Request.payload, Json.length_toBytes, Request.size_toValue]
  decide

/-- The tracker with the sample job. -/
def sampleCreated : Tracker := (Tracker.new.createJob "x" sampleManifest .rarityFirst).2

/-- The codecs of the sample. -/
def sampleCodecs : Codecs := sampleJsonParser.codecs sampleFloatText

/-- Steps of the process of the sample node. -/
def sampleSteps (process : NodeProcess) (events : List NodeEvent) : Option NodeProcess :=
  runEvents (NodeProcess.step sampleNetwork.platform (sampleReporter.downloaderConfig sampleManifest))
    process events

/-- The node asks for its chunks, takes the seed as a candidate, fetches the first chunk and reports
it. -/
theorem sampleNode_fetches : ∃ asking task fetching fetched reported,
    sampleSteps sampleIdle (List.replicate 6 (.download .loop)) = some asking ∧
    asking.download.tasks[0]? = some task ∧ task.chunk = 0 ∧ task.pc = .askTracker ∧
    sampleSteps asking [.download (.tracker 0 (.ok [sampleSeedPeer]))] = some fetching ∧
    sampleSteps fetching [.download (.exchange 0 (sampleAnswer [1, 2])), .download (.writeDone 0),
      .download (.mark 0), .tick] = some fetched ∧
    fetched.heartbeat = .sending [128] ∧
    sampleSteps fetched [.heartbeatSent] = some reported ∧
    reported.sent = [[128]] ∧ reported.download.bitmap.has 0 = .ok true := by
  refine ⟨_, _, _, _, _, rfl, rfl, rfl, rfl, rfl, rfl, rfl, rfl, rfl, rfl⟩

/-- What comes back for the query. -/
def sampleReply : Fragmented IoError where
  fragments := [(writeMsg sampleCodecs.responses (.peers [sampleSeedPeer]) .reliable).1.sent]
  ending := ⟨.unexpectedEof, "early eof"⟩

theorem sampleReply_front : sampleReply.fragments.flatten <+:
    (writeMsg sampleCodecs.responses (.peers [sampleSeedPeer]) .reliable).1.sent := by
  have whole : sampleReply.fragments.flatten =
      (writeMsg sampleCodecs.responses (.peers [sampleSeedPeer]) .reliable).1.sent :=
    List.append_nil _
  exact whole ▸ List.prefix_rfl

theorem sampleReply_read : TrackerClient.getPeers noDebugText
    ((readMsg sampleCodecs.responses sampleReply).map Prod.fst) = .ok [sampleSeedPeer] := by
  have fits : ((Response.peers [sampleSeedPeer]).payload sampleFloatText).length ≤ maxFrame := by
    rw [Response.payload, Json.length_toBytes, Response.size_toValue]
    decide
  have readable : (Response.peers [sampleSeedPeer]).Readable := by
    intro body carried
    cases carried
  have written : writeMsg sampleCodecs.responses (.peers [sampleSeedPeer]) .reliable =
      ({ sent := frame ((Response.peers [sampleSeedPeer]).payload sampleFloatText),
         fault := none }, .ok ()) := writeMsg_reliable rfl
  have arrives : sampleReply.fragments.flatten =
      frame ((Response.peers [sampleSeedPeer]).payload sampleFloatText) := by
    rw [sampleReply, written]
    exact List.append_nil _
  have read : (readMsg sampleCodecs.responses sampleReply).map Prod.fst = _ :=
    readMsg_response sampleJsonParser_readsBack readable fits arrives
  rw [read]
  rfl

/-- Only the sample node has started, with this process. -/
def Network.OnlySample (network : Network) (process : NodeProcess) : Prop :=
  network.members "n" = some { node := sampleReporter, process } ∧
    ∀ other, other ≠ "n" → network.members other = none

theorem Network.OnlySample.moves {network : Network} {process process' : NodeProcess}
    {events : List NodeEvent} (only : network.OnlySample process)
    (alone : ∀ event ∈ events, event.isAlone = true)
    (ran : sampleSteps process events = some process') :
    ∃ members, runEvents (Network.step noDebugText sampleCodecs sampleNetwork) network
        (events.map (.member "n")) = some { network with members } ∧
      Network.OnlySample { network with members } process' := by
  rcases Network.moves_run alone only.1 ran with ⟨members, moved, here, others⟩
  refine ⟨members, moved, here, ?_⟩
  intro other different
  exact (others other different).trans (only.2 other different)

theorem sampleNode_starts (created : Listener) {asking : NodeProcess}
    (asks : sampleSteps sampleIdle (List.replicate 6 (.download .loop)) = some asking) :
    ∃ events network,
      runEvents (Network.step noDebugText sampleCodecs sampleNetwork) (.start created) events =
        some network ∧
      network.listener = created ∧ network.asking = (fun _ _ => none) ∧
      network.OnlySample asking := by
  let joined : Network :=
    { Network.start created with
      members := Function.update (fun _ => none) "n"
        (some { node := sampleReporter, process := sampleIdle }) }
  have join : (Network.start created).step noDebugText sampleCodecs sampleNetwork
      (.join sampleReporter fun _ => none) = some joined := rfl
  have only : joined.OnlySample sampleIdle := by
    refine ⟨rfl, fun other different => ?_⟩
    exact Function.update_of_ne (f := fun _ => none) different _
  rcases only.moves (by decide) asks with ⟨members, moved, only'⟩
  exact ⟨_, _, runEvents_cons_eq_some.mpr ⟨joined, join, moved⟩, rfl, rfl, only'⟩

/-- Another client announces the seed. -/
theorem sampleSeed_announces {network : Network}
    (tracker : network.listener.tracker = sampleCreated) :
    ∃ events listener callers,
      runEvents (Network.step noDebugText sampleCodecs sampleNetwork) network events =
        some { network with listener, callers } ∧
      listener.tracker = announcementServer.step sampleCreated (.request 6 "y" sampleSeedReport) ∧
      listener.connections = network.listener.connections ++
        [.answered sampleCodecs sampleSeedReport (.heartbeatAck false)] := by
  have fresh : "y" ≠ sampleNetwork.jobId := by decide
  have answered : (sampleNetwork.server.dispatch network.listener.tracker 6 "y"
      sampleSeedReport).2 = .ok (.heartbeatAck false) := by
    rw [tracker]
    rfl
  rcases Network.call_served noDebugText sampleJsonParser_readsBack .outside network.asking
    sampleSeedReport_fits 6 fresh answered with ⟨events, listener, ran, tracker', connections⟩
  have knocked : network.step noDebugText sampleCodecs sampleNetwork
      (.outside sampleSeedReport.arriving none) =
        some (network.accept .outside sampleSeedReport.arriving none) := rfl
  rw [tracker] at tracker'
  exact ⟨_, listener, _, runEvents_cons_eq_some.mpr ⟨_, knocked, ran⟩, tracker', connections⟩

/-- The node asks for its first chunk and is given the seed. -/
theorem sampleNode_asks (network : Network) {asking fetching : NodeProcess} {task : Task}
    (tracker : network.listener.tracker =
      announcementServer.step sampleCreated (.request 6 "y" sampleSeedReport))
    (idle : network.asking = fun _ _ => none) (only : network.OnlySample asking)
    (live : asking.download.tasks[0]? = some task) (chunk : task.chunk = 0)
    (pc : task.pc = .askTracker)
    (taken : sampleSteps asking [.download (.tracker 0 (.ok [sampleSeedPeer]))] = some fetching) :
    ∃ events next,
      runEvents (Network.step noDebugText sampleCodecs sampleNetwork) network events = some next ∧
      next.OnlySample fetching ∧
      next.listener.tracker = announcementServer.step network.listener.tracker
        (.request 7 "z" sampleChunkQuery) ∧
      next.listener.connections = network.listener.connections ++
        [.answered sampleCodecs sampleChunkQuery (.peers [sampleSeedPeer])] := by
  have query : (Member.config sampleNetwork { node := sampleReporter, process := asking }).peersQuery
      task.chunk = sampleChunkQuery := by
    rw [chunk]
    rfl
  have sends : Network.Sends sampleCodecs ((Member.config sampleNetwork
      { node := sampleReporter, process := asking }).peersQuery task.chunk)
        sampleChunkQuery.arriving := by
    rw [query]
    exact sampleChunkQuery.sends_arriving sampleJsonParser sampleFloatText
  have asked := Network.step_query noDebugText none only.1 live pc (by rw [idle]) sends
  have fresh : "z" ≠ sampleNetwork.jobId := by decide
  have answered : (sampleNetwork.server.dispatch network.listener.tracker 7 "z"
      sampleChunkQuery).2 = .ok (.peers [sampleSeedPeer]) := by
    rw [tracker]
    rfl
  let asks : String → UInt32 → Option Nat := fun other i =>
    if other = "n" ∧ i = task.chunk then some network.listener.connections.length
    else network.asking other i
  rcases Network.call_served noDebugText sampleJsonParser_readsBack (.query "n" task.chunk) asks
    sampleChunkQuery_fits 7 fresh answered with ⟨events, listener, ran, handled, connections⟩
  let waiting : Network :=
    { network with listener, callers := network.callers ++ [.query "n" task.chunk], asking := asks }
  have at_c : waiting.listener.connections[network.listener.connections.length]? =
      some (.answered sampleCodecs sampleChunkQuery (.peers [sampleSeedPeer])) := by
    rw [connections]
    exact List.getElem?_concat_length
  rcases runEvents_cons_eq_some.mp taken with ⟨_, moved, last⟩
  cases last
  have found : waiting.members "n" = some { node := sampleReporter, process := asking } := only.1
  have known : waiting.cluster.members "n" = some { node := sampleReporter, process := asking } :=
    found
  have waits : waiting.asking "n" task.chunk = some network.listener.connections.length :=
    if_pos ⟨rfl, rfl⟩
  have stepped : waiting.cluster.step sampleNetwork
      (.member "n" (.download (.tracker 0 (.ok [sampleSeedPeer])))) =
        some (waiting.cluster.setMember "n" { node := sampleReporter, process := fetching }) := by
    simp only [Cluster.step, known, Option.bind_some]
    exact congrArg (Option.map _) moved
  have heard := Network.step_reply found live waits at_c rfl sampleReply_front sampleReply_read
    stepped
  refine ⟨_, _, runEvents_cons_eq_some.mpr ⟨_, asked, runEvents_snoc.mpr ⟨waiting, ran, heard⟩⟩,
    ?_, ?_, ?_⟩
  · rw [Network.moved_eq]
    have members := fun other => Cluster.setMember_members waiting.cluster "n" other
      { node := sampleReporter, process := fetching }
    refine ⟨(members "n").trans (if_pos rfl), ?_⟩
    intro other different
    exact (members other).trans ((if_neg different).trans (only.2 other different))
  · rw [Network.moved_eq]
    exact handled
  · rw [Network.moved_eq]
    exact connections

/-- The heartbeat of the node is sent, handled and answered. -/
theorem sampleNode_reports (network : Network) {fetched reported : NodeProcess}
    (tracker : network.listener.tracker =
      announcementServer.step (announcementServer.step sampleCreated
        (.request 6 "y" sampleSeedReport)) (.request 7 "z" sampleChunkQuery))
    (only : network.OnlySample fetched) (sending : fetched.heartbeat = .sending [128])
    (sent : sampleSteps fetched [.heartbeatSent] = some reported) :
    ∃ events next,
      runEvents (Network.step noDebugText sampleCodecs sampleNetwork) network events = some next ∧
      next.OnlySample reported ∧
      next.listener.connections = network.listener.connections ++
        [.answered sampleCodecs sampleReport (.heartbeatAck false)] := by
  rcases runEvents_cons_eq_some.mp sent with ⟨_, moved, last⟩
  cases last
  have known : network.cluster.members "n" = some { node := sampleReporter, process := fetched } :=
    only.1
  have stepped : network.cluster.step sampleNetwork (.member "n" .heartbeatSent) =
      some (network.cluster.setMember "n" { node := sampleReporter, process := reported }) := by
    simp only [Cluster.step, known, Option.bind_some]
    exact congrArg (Option.map _) moved
  have connected := Network.step_heartbeat noDebugText none only.1 sending
    (sampleReport.sends_arriving sampleJsonParser sampleFloatText) stepped
  let after : Network := network.moved "n" .heartbeatSent
    (network.cluster.setMember "n" { node := sampleReporter, process := reported })
  have fresh : "w" ≠ sampleNetwork.jobId := by decide
  have answered : (sampleNetwork.server.dispatch after.listener.tracker 8 "w" sampleReport).2 =
      .ok (.heartbeatAck false) := by
    have same : after.listener.tracker = network.listener.tracker := rfl
    rw [same, tracker]
    rfl
  rcases Network.call_served noDebugText sampleJsonParser_readsBack (.heartbeat "n") after.asking
    sampleReport_fits 8 fresh answered with ⟨events, listener, ran, _, connections⟩
  refine ⟨_, _, runEvents_cons_eq_some.mpr ⟨_, connected, ran⟩, ?_, connections⟩
  have members := fun other => Cluster.setMember_members network.cluster "n" other
    { node := sampleReporter, process := reported }
  refine ⟨(members "n").trans (if_pos rfl), ?_⟩
  intro other different
  exact (members other).trans ((if_neg different).trans (only.2 other different))

/-- The node starts, fetches its first chunk from the seed that another client has announced, and
reports it. -/
theorem sampleNode_gets (created : Listener) (tracker : created.tracker = sampleCreated) :
    ∃ events final process,
      runEvents (Network.step noDebugText sampleCodecs sampleNetwork) (.start created) events =
        some final ∧
      final.OnlySample process ∧ process.sent = [[128]] ∧
      process.download.bitmap.has 0 = .ok true ∧
      final.listener.connections = created.connections ++
        [.answered sampleCodecs sampleSeedReport (.heartbeatAck false)] ++
        [.answered sampleCodecs sampleChunkQuery (.peers [sampleSeedPeer])] ++
        [.answered sampleCodecs sampleReport (.heartbeatAck false)] := by
  rcases sampleNode_fetches with ⟨asking, task, fetching, fetched, reported, asks, live, chunk, pc,
    taken, fetches, sending, sends, sent, marked⟩
  rcases sampleNode_starts created asks with ⟨starting, network, started, same, idle, onlyAsking⟩
  rcases sampleSeed_announces (same ▸ tracker) with
    ⟨announcing, listener, callers, announced, announcedTo, announcement⟩
  rcases sampleNode_asks { network with listener, callers } announcedTo idle onlyAsking live chunk
    pc taken with ⟨querying, next, given, onlyFetching, askedOf, query⟩
  rcases onlyFetching.moves (by decide) fetches with ⟨members, moved, onlyFetched⟩
  have handled : next.listener.tracker = announcementServer.step (announcementServer.step
      sampleCreated (.request 6 "y" sampleSeedReport)) (.request 7 "z" sampleChunkQuery) := by
    rw [askedOf, ← announcedTo]
  rcases sampleNode_reports { next with members } handled onlyFetched sending sends with
    ⟨reporting, final, reports, onlyReported, report⟩
  refine ⟨_, final, reported, runEvents_append.mpr ⟨network, started, runEvents_append.mpr
    ⟨_, announced, runEvents_append.mpr ⟨next, given, runEvents_append.mpr
      ⟨_, moved, reports⟩⟩⟩⟩, onlyReported, sent, marked, ?_⟩
  rw [report, ← same, ← announcement]
  exact congrArg (· ++ _) query

/-- No message of that run has a false header. -/
theorem sampleNode_headers {created : Listener} {network : Network} {process : NodeProcess}
    {reply : Reply} (length : created.connections.length = 1)
    (replied : Replied (sampleJsonParser.codecs sampleFloatText) sampleFloatText created
      sampleCreation 0 reply)
    (only : network.OnlySample process) (sent : process.sent = [[128]])
    (connections : network.listener.connections = created.connections ++
      [.answered sampleCodecs sampleSeedReport (.heartbeatAck false)] ++
      [.answered sampleCodecs sampleChunkQuery (.peers [sampleSeedPeer])] ++
      [.answered sampleCodecs sampleReport (.heartbeatAck false)]) :
    network.TrueHeaders sampleNetwork sampleFloatText := by
  have same : ∀ nodeId member, network.members nodeId = some member →
      member = { node := sampleReporter, process } := by
    intro nodeId member found
    by_cases here : nodeId = "n"
    · rw [here, only.1] at found
      exact (Option.some.inj found).symm
    · rw [only.2 nodeId here] at found
      cases found
  constructor
  · intro c connection response out result at_c closed
    rw [connections] at at_c
    rcases getElem?_snoc_cases at_c with earlier | ⟨_, rfl⟩
    · rcases getElem?_snoc_cases earlier with earlier | ⟨_, rfl⟩
      · rcases getElem?_snoc_cases earlier with old | ⟨_, rfl⟩
        · exact sampleCreation_small length replied old closed
        · cases closed
          rw [Response.payload, Json.length_toBytes, Response.size_toValue]
          decide
      · cases closed
        rw [Response.payload, Json.length_toBytes, Response.size_toValue]
        decide
    · cases closed
      rw [Response.payload, Json.length_toBytes, Response.size_toValue]
      decide
  · intro nodeId member found bitmapBytes carried
    cases same nodeId member found
    rw [sent] at carried
    cases List.mem_singleton.mp carried
    exact Nat.lt_of_le_of_lt sampleReport_fits (by decide)
  · intro nodeId member found chunk
    cases same nodeId member found
    exact sampleReporter_queries process chunk

/-- The sample node gets and reports its first chunk behind the creation of the job. -/
theorem sampleNetwork_runs : ∃ before created events final process,
    runEvents (Listener.step sampleNetwork.server sampleCodecs) .start before = some created ∧
    created.tracker = sampleCreated ∧
    runEvents (Network.step noDebugText sampleCodecs sampleNetwork) (.start created) events =
      some final ∧
    final.OnlySample process ∧ process.sent = [[128]] ∧
    process.download.bitmap.has 0 = .ok true ∧
    final.TrueHeaders sampleNetwork sampleFloatText := by
  rcases sampleCreation_served with ⟨before, created, ranBefore, log, length, replied⟩
  have tracker : created.tracker = sampleCreated := by
    rw [(linear_of_run ranBefore).tracker, log, after_sampleCreation]
    rfl
  rcases sampleNode_gets created tracker with
    ⟨events, final, process, ran, only, sent, marked, connections⟩
  exact ⟨before, created, events, final, process, ranBefore, tracker, ran, only, sent, marked,
    sampleNode_headers length replied only sent connections⟩

end ModelDistribution
