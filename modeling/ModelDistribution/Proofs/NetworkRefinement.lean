/-
Module: ModelDistribution.Proofs.NetworkRefinement
Layer: Proofs
Purpose: The system with its connections refines the swarm. Whatever the interleaving of the tracker's
  tasks, the cuts and breaks of the connections and the bytes of other clients, every step is one of
  the swarm or none at all; so what holds in every run of the swarm, where a request is handled and
  answered in one step and answers are values, holds of the nodes of the system and of its tracker. The
  calls of the tracker are atomic in both.
Imports: ModelDistribution.Proofs.NetworkCalls
Trusted boundary: none
Main exports: Network.Coupled.step, Network.coupled_of_run, network_refines_swarm
-/
import ModelDistribution.Proofs.NetworkCalls

namespace ModelDistribution

open Foundation

/-! ### One step -/

section Step

variable {debugText : Response → String} {parser : JsonParser} {floatText : JsonNumber → List Char}
  {reread : JsonNumber → JsonNumber} {deployment : Deployment} {network next : Network}
  {past : List SwarmEvent} {swarm : Swarm} {nodeId : String}

/-- A request that is read from a front of its frame is that request. -/
theorem read_of_brings (reads : ReadsBack floatText 127 reread parser.read) {connection : Connection}
    {request other : Request} {rest : Fragmented IoError} (small : request.payload.length < 2 ^ 32)
    (brings : connection.Brings request)
    (read : readMsg parser.requests connection.stream = .ok (other, rest)) : other = request := by
  have decoded := decoded_of_front small brings read
  have own : parser.requests.fromSlice request.payload = .ok request :=
    JsonParser.requests_roundTrip reads request request.payload rfl
  rw [own] at decoded
  cases decoded
  rfl

/-- A list of peers that comes back over a connection is what the tracker has given over it. -/
theorem given_of_reply (reads : ReadsBack floatText 127 reread parser.read) {server : Server}
    {listener : Listener} (linear : listener.Linear server (parser.codecs floatText)) {c : Nat}
    {connection : Connection} (at_c : listener.connections[c]? = some connection)
    {response : Option Response} {out : Outgoing IoError} {result : Checked (Except DistError Unit)}
    (ended : connection.pc = .closed response out result) (unused : connection.out.sent = [])
    (small : ∀ given, response = some given → (given.payload floatText).length < 2 ^ 32)
    {back rest : Fragmented IoError} (front : back.fragments.flatten <+: out.sent)
    {peers : List PeerInfo}
    (read : readMsg (parser.responses floatText) back = .ok (.peers peers, rest)) :
    response = some (.peers peers) := by
  have sound := linear.connections c connection at_c
  rw [Connection.Sound, ended] at sound
  cases response with
  | none =>
      rcases sound with ⟨rfl, _⟩
      rw [unused, List.prefix_nil] at front
      rw [readMsg_nothing front] at read
      cases read
  | some given =>
      have written : ∀ msg : Response,
          (writeMsg (parser.responses floatText) msg connection.out).1.sent <+:
            frame (msg.toValue.toBytes floatText) := fun msg => sent_writeMsg_front unused rfl
      rcases sound with ⟨e, _, _, rfl, _, rfl⟩ | ⟨⟨_, _, _, _, _, answers⟩, rfl, _⟩
      · have readable : (Response.error e.toString).Readable := by
          intro body carried
          cases carried
        have got := read_of_front reads readable (small _ rfl) (front.trans (written _)) read
        cases got
      · have readable := Answers.readable answers
        have got := read_of_front reads readable (small _ rfl) (front.trans (written _)) read
        rw [asRead_peers got]

/-- A step of a node that the swarm can make as well. -/
theorem Network.Coupled.member {codecs : Codecs}
    (coupled : network.Coupled deployment codecs past swarm) {event : NodeEvent} {cluster : Cluster}
    (stepped : network.cluster.step deployment (.member nodeId event) = some cluster)
    (swarmEvent : SwarmEvent) (quiet : swarmEvent.outsideReport deployment.jobId = none)
    (follows : swarm.step debugText deployment swarmEvent = some { swarm with cluster }) :
    ∃ later after, runEvents (Swarm.step debugText deployment) swarm later = some after ∧
      (network.moved nodeId event cluster).Coupled deployment codecs (past ++ later) after := by
  rcases Cluster.step_member stepped with ⟨same, kept, _⟩
  have asked : ∀ other i c, network.asking other i = some c → Asks network.members other i :=
    fun other i c waits => (coupled.asking other i c waits).2
  have moved := coupled.nodes kept (Network.moved_asking asked stepped) swarmEvent quiet
  rw [← Network.moved_eq, ← same] at moved
  exact ⟨[swarmEvent], _, runEvents_cons_eq_some.mpr ⟨_, follows, rfl⟩, moved⟩

/-- Nothing happens in the swarm while the tracker moves the task of a connection that gives no new
list of peers. -/
theorem Network.Coupled.idles {codecs : Codecs}
    (coupled : network.Coupled deployment codecs past swarm) {c : Nat} {connection : Connection}
    (found : network.listener.connections[c]? = some connection) {pc : ConnectionPc}
    (gives : ∀ peers, pc.Gives (.peers peers) → connection.pc.Gives (.peers peers)) :
    ∃ later after, runEvents (Swarm.step debugText deployment) swarm later = some after ∧
      Network.Coupled deployment codecs
        { network with listener := network.listener.put c { connection with pc } } (past ++ later)
        after := by
  refine ⟨[], swarm, rfl, ?_⟩
  apply coupled.serves found coupled.cluster (List.Subset.refl _)
  · intro other i peers waits given
    exact coupled.answered other i c connection peers waits found (gives peers given)
  · intro event mem
    cases mem

/-- The tracker handles what does not come from a node. -/
theorem arrives_outside (coupled : swarm.cluster = network.cluster) (event : TrackerEvent)
    (other : event.createsOther deployment.jobId = true) :
    runEvents (Swarm.step debugText deployment) swarm [.outside event] = some {
      swarm with
      cluster := { network.cluster with
        tracker := deployment.server.step network.listener.tracker event } } := by
  simp only [runEvents, Swarm.step, other, if_true, Option.bind_some, coupled]
  rfl

/-- The tracker handles a request over a connection, and the swarm a heartbeat, a query or an event
from outside, by who has opened it. -/
theorem Network.Coupled.handles (reads : ReadsBack floatText 127 reread parser.read)
    (headers : network.TrueHeaders deployment floatText)
    (coupled : network.Coupled deployment (parser.codecs floatText) past swarm) {c now : Nat}
    {freshId : String} (fresh : freshId ≠ deployment.jobId) {connection : Connection}
    (found : network.listener.connections[c]? = some connection) {request : Request}
    {rest : Fragmented IoError}
    (read : readMsg parser.requests connection.stream = .ok (request, rest)) {pc : ConnectionPc}
    (begun : Begun deployment.server network.listener.tracker now freshId connection.out request pc) :
    ∃ later after, runEvents (Swarm.step debugText deployment) swarm later = some after ∧
      Network.Coupled deployment (parser.codecs floatText)
        { network with
          listener := {
            tracker := deployment.server.step network.listener.tracker (.request now freshId request)
            connections := network.listener.connections.set c { connection with pc }
            log := network.listener.log ++ [⟨some c, .request now freshId request⟩] } }
        (past ++ later) after := by
  have inside : c < network.callers.length := by
    rw [coupled.length]
    exact (List.getElem?_eq_some_iff.mp found).1
  have called : network.callers[c]? = some network.callers[c] := List.getElem?_eq_getElem inside
  generalize network.callers[c] = caller at called
  have opened := coupled.callers c connection caller found called
  -- only the task of a query waits over its connection
  have waiter : ∀ other i, network.asking other i = some c → caller = .query other i := by
    intro other i waits
    have asked := (coupled.asking other i c waits).1
    rw [called] at asked
    exact Option.some.inj asked
  have creates : (TrackerEvent.request now freshId request).createsOther deployment.jobId = true := by
    cases request with
    | createJob => exact bne_iff_ne.mpr fresh
    | _ => rfl
  cases caller with
  | heartbeat nodeId =>
      rcases opened with ⟨member, bitmapBytes, known, sent, brings⟩
      have same := read_of_brings reads (headers.heartbeats nodeId member known bitmapBytes sent)
        brings read
      subst same
      rcases List.getElem?_of_mem sent with ⟨j, at_j⟩
      have delivered : runEvents (Swarm.step debugText deployment) swarm
          [.deliver nodeId j now freshId] = some { swarm with
            cluster := { network.cluster with
              tracker := deployment.server.step network.listener.tracker
                (.request now freshId (member.node.heartbeat bitmapBytes)) } } := by
        have known' : network.cluster.members nodeId = some member := known
        simp only [runEvents, Swarm.step, Cluster.step, coupled.cluster, known', at_j,
          Option.bind_some, Option.map_some]
        rfl
      refine ⟨_, _, delivered, ?_⟩
      refine coupled.serves found rfl (fun _ given => given) ?_ ?_
      · intro other i peers waits
        cases waiter other i waits
      · exact told_of_quiet rfl
  | query nodeId chunk =>
      rcases opened with ⟨_, member, known, brings⟩
      have same := read_of_brings reads (headers.queries nodeId member known chunk) brings read
      subst same
      by_cases waiting : network.asking nodeId chunk = some c
      · rcases (coupled.asking nodeId chunk c waiting).2 with ⟨member', task, known', live, rfl, pc'⟩
        rw [known] at known'
        cases known'
        rcases List.getElem?_of_mem live with ⟨k, at_k⟩
        have queried : runEvents (Swarm.step debugText deployment) swarm
            [.query nodeId k now freshId] = some {
              cluster := { network.cluster with
                tracker := deployment.server.step network.listener.tracker
                  (.request now freshId ((member.config deployment).peersQuery task.chunk)) }
              answers := swarm.answers ++ PeersAnswer.ofResponse debugText nodeId task.chunk
                (deployment.server.dispatch network.listener.tracker now freshId
                  ((member.config deployment).peersQuery task.chunk)).2 } := by
          have known' : network.cluster.members nodeId = some member := known
          simp only [runEvents, Swarm.step, Swarm.task?, coupled.cluster, known', at_k, pc',
            Option.bind_some, Option.map_some, if_true]
          rfl
        refine ⟨_, _, queried, ?_⟩
        refine coupled.serves found rfl (fun _ given => List.mem_append_left _ given) ?_ ?_
        · intro other i peers waits gives
          cases waiter other i waits
          apply List.mem_append_right
          cases begun with
          | answering answered =>
              cases ConnectionPc.gives_answering.mp gives
              rw [answered]
              exact List.mem_singleton_self _
          | updated reported _ => cases reported
          | panicked _ => simp at gives
        · exact told_of_quiet rfl
      · refine ⟨_, _, arrives_outside coupled.cluster _ creates, ?_⟩
        refine coupled.serves found rfl (fun _ given => given) ?_ ?_
        · intro other i peers waits
          cases waiter other i waits
          exact absurd waits waiting
        · exact told_of_quiet rfl
  | outside =>
      refine ⟨_, _, arrives_outside coupled.cluster _ creates, ?_⟩
      refine coupled.serves found rfl (fun _ given => given) ?_ ?_
      · intro other i peers waits
        cases waiter other i waits
      · intro event mem report outside
        rw [List.mem_singleton.mp mem] at outside
        rcases Option.bind_eq_some_iff.mp outside with ⟨⟨jobId, carried⟩, reported, own⟩
        simp only at own
        split at own
        · rename_i same
          cases own
          exact ⟨c, connection, request, rest, called, found, read, same ▸ reported⟩
        · cases own

theorem front_of_sends {request : Request} {stream : Fragmented IoError}
    (sends : Network.Sends (parser.codecs floatText) request stream) :
    stream.fragments.flatten <+: frame request.payload := by
  have written : writeMsg (parser.codecs floatText).requests request .reliable =
      ({ sent := frame request.payload, fault := none }, .ok ()) := writeMsg_reliable rfl
  rw [Network.Sends, written] at sends
  exact sends

/-- A heartbeat that was sent is kept. -/
theorem sent_of_heartbeatSent {cluster after : Cluster} {member : Member} {bitmapBytes : List UInt8}
    (found : cluster.members nodeId = some member)
    (sending : member.process.heartbeat = .sending bitmapBytes)
    (stepped : cluster.step deployment (.member nodeId .heartbeatSent) = some after) :
    ∃ member', after.members nodeId = some member' ∧ member'.node = member.node ∧
      bitmapBytes ∈ member'.process.sent := by
  rcases Option.bind_eq_some_iff.mp stepped with ⟨other, known, rest⟩
  rw [found] at known
  cases known
  rcases Option.map_eq_some_iff.mp rest with ⟨process, moved, rfl⟩
  refine ⟨{ member with process }, ?_, rfl, ?_⟩
  · rw [Cluster.setMember_members, if_pos rfl]
  · rcases NodeProcess.step_effect moved with ⟨_, effect⟩
    cases effect with
    | sends sending' =>
        rw [sending] at sending'
        cases sending'
        exact List.mem_append_right _ (List.mem_singleton_self _)

/-- A step of the tracker process. -/
theorem Network.Coupled.tracks (reads : ReadsBack floatText 127 reread parser.read)
    (headers : network.TrueHeaders deployment floatText)
    (coupled : network.Coupled deployment (parser.codecs floatText) past swarm)
    {event : ListenerEvent} (own : event.isOwn deployment.jobId = true) {listener : Listener}
    (stepped : network.listener.step deployment.server (parser.codecs floatText) event =
      some listener) :
    ∃ later after, runEvents (Swarm.step debugText deployment) swarm later = some after ∧
      Network.Coupled deployment (parser.codecs floatText) { network with listener }
        (past ++ later) after := by
  cases event with
  | accept stream out => cases own
  | evict now =>
      cases stepped
      refine ⟨_, _, arrives_outside coupled.cluster (.evict now 60) rfl, ?_⟩
      refine ⟨rfl, coupled.length, coupled.callers, coupled.asking, coupled.answered, ?_⟩
      intro other mem report outside
      rcases List.mem_append.mp mem with earlier | last
      · exact coupled.told other earlier report outside
      · exact told_of_quiet rfl other last report outside
  | read c now freshId =>
      rcases Option.bind_eq_some_iff.mp stepped with ⟨connection, found, rest⟩
      split at rest
      · split at rest
        · cases rest
          apply coupled.idles found
          intro peers gives
          simp at gives
        · rename_i request left read
          cases rest
          rcases begin_spec deployment.server network.listener.tracker now freshId connection.out
            request with ⟨same, begun⟩
          rw [same]
          exact coupled.handles reads headers (bne_iff_ne.mp own) found read begun
      · cases rest
  | status c =>
      rcases Option.bind_eq_some_iff.mp stepped with ⟨connection, found, rest⟩
      split at rest
      · cases rest
        apply coupled.idles found
        intro peers gives
        simp at gives
      · cases rest
  | write c =>
      rcases Option.bind_eq_some_iff.mp stepped with ⟨connection, found, rest⟩
      split at rest
      · cases rest
        apply coupled.idles found
        intro peers gives
        simp at gives
      · rename_i response pc
        cases rest
        apply coupled.idles found
        intro peers gives
        rw [pc, ConnectionPc.gives_answering]
        simpa using gives
      · cases rest

/-- A task reads what has come back over its connection: an answer of the swarm, or an error. -/
theorem Network.Coupled.hears (reads : ReadsBack floatText 127 reread parser.read)
    (linear : network.listener.Linear deployment.server (parser.codecs floatText))
    (headers : network.TrueHeaders deployment floatText)
    (coupled : network.Coupled deployment (parser.codecs floatText) past swarm) {k c : Nat}
    {member : Member} {task : Task} {connection : Connection} {response : Option Response}
    {out : Outgoing IoError} {result : Checked (Except DistError Unit)} {back : Fragmented IoError}
    {cluster : Cluster} {answer : Except DistError (List PeerInfo)}
    (found : network.members nodeId = some member)
    (live : member.process.download.tasks[k]? = some task)
    (waits : network.asking nodeId task.chunk = some c)
    (at_c : network.listener.connections[c]? = some connection)
    (ended : connection.pc = .closed response out result)
    (front : back.fragments.flatten <+: out.sent)
    (taken : TrackerClient.getPeers debugText
      ((readMsg (parser.codecs floatText).responses back).map Prod.fst) = answer)
    (stepped : network.cluster.step deployment
      (.member nodeId (.download (.tracker k answer))) = some cluster) :
    ∃ later after, runEvents (Swarm.step debugText deployment) swarm later = some after ∧
      (network.moved nodeId (.download (.tracker k answer)) cluster).Coupled deployment
        (parser.codecs floatText) (past ++ later) after := by
  have stepped' : swarm.cluster.step deployment (.member nodeId (.download (.tracker k answer))) =
      some cluster := coupled.cluster ▸ stepped
  cases answer with
  | error e =>
      apply coupled.member stepped (.member nodeId (.download (.tracker k (.error e)))) rfl
      simp only [Swarm.step, NodeEvent.takesNoPeers, if_true, stepped', Option.map_some]
  | ok peers =>
      have got := TrackerClient.getPeers_eq_ok taken
      cases read : readMsg (parser.responses floatText) back with
      | error e =>
          have failed : readMsg (parser.codecs floatText).responses back = .error e := read
          rw [failed] at got
          cases got
      | ok pair =>
          rcases pair with ⟨message, rest⟩
          have arrived : readMsg (parser.codecs floatText).responses back = .ok (message, rest) := read
          rw [arrived] at got
          cases got
          have called := (coupled.asking nodeId task.chunk c waits).1
          have unused : connection.out.sent = [] :=
            (coupled.callers c connection _ at_c called).1
          have small : ∀ given, response = some given →
              (given.payload floatText).length < 2 ^ 32 := by
            rintro given rfl
            exact headers.responses c connection given out result at_c ended
          have given := given_of_reply reads linear at_c ended unused small front read
          subst given
          have known := coupled.answered nodeId task.chunk c connection peers waits at_c
            (.inr ⟨out, result, ended⟩)
          rcases List.getElem?_of_mem known with ⟨j, at_j⟩
          apply coupled.member stepped (.answer nodeId k j) rfl
          have found' : swarm.cluster.members nodeId = some member := by
            rw [coupled.cluster]
            exact found
          simp only [Swarm.step, Swarm.task?, found', live, at_j, Option.bind_some, Option.map_some,
            and_self, if_true, stepped']

/-- Every step of the network is one of the swarm, or none. -/
theorem Network.Coupled.step (reads : ReadsBack floatText 127 reread parser.read)
    (linear : network.listener.Linear deployment.server (parser.codecs floatText))
    (headers : network.TrueHeaders deployment floatText)
    (coupled : network.Coupled deployment (parser.codecs floatText) past swarm)
    {event : NetworkEvent}
    (stepped : network.step debugText (parser.codecs floatText) deployment event = some next) :
    ∃ later after, runEvents (Swarm.step debugText deployment) swarm later = some after ∧
      next.Coupled deployment (parser.codecs floatText) (past ++ later) after := by
  cases Network.step_effect stepped with
  | joins joined =>
      rename_i node disk cluster
      rcases Cluster.step_join joined with ⟨same, kept, asks⟩
      have joined' : swarm.cluster.step deployment (.join node disk) = some cluster :=
        coupled.cluster ▸ joined
      have moved := coupled.nodes kept
        (fun other i c waits => ⟨waits, asks other i (coupled.asking other i c waits).2⟩)
        (.join node disk) rfl
      rw [← same] at moved
      refine ⟨[.join node disk], _, ?_, moved⟩
      simp only [runEvents, Swarm.step, joined', Option.map_some, Option.bind_some]
  | moves isLocal moved =>
      rename_i nodeId event cluster
      have moved' : swarm.cluster.step deployment (.member nodeId event) = some cluster :=
        coupled.cluster ▸ moved
      have noPeers : event.takesNoPeers = true := by
        unfold NodeEvent.isLocal at isLocal
        unfold NodeEvent.takesNoPeers
        split
        · cases isLocal
        · rfl
      apply coupled.member moved (.member nodeId event) rfl
      simp only [Swarm.step, noPeers, if_true, moved', Option.map_some]
  | reports found sending sends moved =>
      rename_i nodeId member bitmapBytes cluster stream fault
      have moved' : swarm.cluster.step deployment (.member nodeId .heartbeatSent) = some cluster :=
        coupled.cluster ▸ moved
      have follows : swarm.step debugText deployment (.member nodeId .heartbeatSent) =
          some { swarm with cluster } := by
        simp only [Swarm.step, NodeEvent.takesNoPeers, if_true, moved', Option.map_some]
      rcases coupled.member moved _ rfl follows with ⟨later, after, ran, coupled'⟩
      refine ⟨later, after, ran, ?_⟩
      rcases sent_of_heartbeatSent found sending moved with ⟨member', found', sameNode, sent⟩
      refine coupled'.accept ?_ fun _ _ _ waits => .inl waits
      refine ⟨member', bitmapBytes, ?_, sent, ?_⟩
      · rw [Network.moved_eq]
        exact found'
      · rw [sameNode]
        exact front_of_sends sends
  | asks found live pc idle sends =>
      rename_i nodeId k member task stream fault
      refine ⟨[], swarm, rfl, ?_⟩
      rw [List.append_nil]
      have opened : Connection.From deployment network.members
          { stream, out := { sent := [], fault }, pc := .reading } (.query nodeId task.chunk) :=
        ⟨rfl, member, found, front_of_sends sends⟩
      refine coupled.accept opened ?_
      intro other i c waits
      split at waits
      · rename_i same
        rcases same with ⟨rfl, rfl⟩
        cases waits
        exact .inr ⟨rfl, rfl, member, task, found, List.mem_of_getElem? live, rfl, pc⟩
      · exact .inl waits
  | knocks stream fault =>
      refine ⟨[], swarm, rfl, ?_⟩
      rw [List.append_nil]
      have opened : Connection.From deployment network.members
          { stream, out := { sent := [], fault }, pc := .reading } .outside := trivial
      exact coupled.accept opened fun _ _ _ waits => .inl waits
  | tracks own moved => exact coupled.tracks reads headers own moved
  | hears found live waits at_c ended front moved =>
      exact coupled.hears reads linear headers found live waits at_c ended front rfl moved

/-! ### Whole runs -/

/-- The tracker process of a network makes only its own steps. -/
theorem Network.Effect.linear {codecs : Codecs} {event : NetworkEvent}
    (effect : Network.Effect debugText codecs deployment network event next)
    (linear : network.listener.Linear deployment.server codecs) :
    next.listener.Linear deployment.server codecs := by
  cases effect with
  | joins _ => exact linear
  | moves _ _ =>
      rw [Network.moved_eq]
      exact linear
  | reports _ _ _ _ =>
      rw [Network.moved_eq]
      exact (Listener.Effect.accepts _ _).linear linear
  | asks _ _ _ _ _ => exact (Listener.Effect.accepts _ _).linear linear
  | knocks stream fault => exact (Listener.Effect.accepts _ _).linear linear
  | tracks _ stepped => exact linear_step linear stepped
  | hears _ _ _ _ _ _ _ =>
      rw [Network.moved_eq]
      exact linear

/-- At the start every connection is one of another client. -/
theorem Network.Coupled.start {codecs : Codecs} {listener : Listener} {policy : SchedulingPolicy}
    {tracker : Tracker}
    (created : listener.tracker =
      (tracker.createJob deployment.jobId deployment.manifest policy).2) :
    (Network.start listener).Coupled deployment codecs [] (.start deployment policy tracker) := by
  constructor
  · rw [Swarm.start, Cluster.start, ← created]
    rfl
  · exact List.length_replicate
  · intro c connection caller at_c called
    have other : caller = .outside := List.eq_of_mem_replicate (List.mem_of_getElem? called)
    rw [other]
    trivial
  · intro nodeId i c waits
    cases waits
  · intro nodeId i c connection peers waits
    cases waits
  · intro event mem
    cases mem

/-- After every run whose length headers are true there is a run of the swarm behind it. -/
theorem Network.coupled_of_run (reads : ReadsBack floatText 127 reread parser.read)
    {policy : SchedulingPolicy} {tracker : Tracker} {listener : Listener}
    (linear : listener.Linear deployment.server (parser.codecs floatText))
    (created : listener.tracker =
      (tracker.createJob deployment.jobId deployment.manifest policy).2)
    {events : List NetworkEvent} {final : Network}
    (ran : runEvents (Network.step debugText (parser.codecs floatText) deployment) (.start listener)
      events = some final)
    (headers : final.TrueHeaders deployment floatText) :
    ∃ swarmEvents swarm, runEvents (Swarm.step debugText deployment)
        (.start deployment policy tracker) swarmEvents = some swarm ∧
      final.Coupled deployment (parser.codecs floatText) swarmEvents swarm := by
  have inv : final.listener.Linear deployment.server (parser.codecs floatText) ∧
      (final.TrueHeaders deployment floatText → ∃ swarmEvents swarm,
        runEvents (Swarm.step debugText deployment) (.start deployment policy tracker) swarmEvents =
          some swarm ∧
        final.Coupled deployment (parser.codecs floatText) swarmEvents swarm) := by
    apply runEvents_invariant (fun network : Network =>
      network.listener.Linear deployment.server (parser.codecs floatText) ∧
      (network.TrueHeaders deployment floatText → ∃ swarmEvents swarm,
        runEvents (Swarm.step debugText deployment) (.start deployment policy tracker) swarmEvents =
          some swarm ∧
        network.Coupled deployment (parser.codecs floatText) swarmEvents swarm)) _ _ ran
    · rintro network event next ⟨linear, simulated⟩ stepped
      have effect := Network.step_effect stepped
      refine ⟨effect.linear linear, ?_⟩
      intro headers
      -- the messages of the earlier state are still there
      have earlier := headers.of_grows effect.grows
      rcases simulated earlier with ⟨swarmEvents, swarm, sofar, coupled⟩
      rcases coupled.step reads linear earlier stepped with ⟨later, after, moved, coupled'⟩
      exact ⟨swarmEvents ++ later, after, runEvents_append.mpr ⟨swarm, sofar, moved⟩, coupled'⟩
    · exact ⟨linear, fun _ => ⟨[], _, rfl, .start created⟩⟩
  exact inv.2 headers

end Step

/-- The system with its connections refines the swarm. Once the job is created, and whatever the
interleaving of the tracker's tasks, the cuts and breaks of the connections and the bytes of other
clients, the tracker and the nodes are those of a run of the swarm, in which a request is handled and
answered in one step and answers are values; and what reaches the tracker of that swarm from outside
about the job has come over a connection that another client has opened. Only a message of 4 GiB,
which makes its length header false, is excluded. -/
theorem network_refines_swarm (debugText : Response → String) (parser : JsonParser)
    (floatText : JsonNumber → List Char) (reread : JsonNumber → JsonNumber)
    (reads : ReadsBack floatText 127 reread parser.read) (deployment : Deployment)
    (policy : SchedulingPolicy) (tracker : Tracker) (before : List ListenerEvent)
    (listener : Listener)
    (ranBefore : runEvents (Listener.step deployment.server (parser.codecs floatText)) .start before =
      some listener)
    (created : listener.tracker =
      (tracker.createJob deployment.jobId deployment.manifest policy).2)
    (events : List NetworkEvent) (final : Network)
    (ran : runEvents (Network.step debugText (parser.codecs floatText) deployment) (.start listener)
      events = some final)
    (headers : final.TrueHeaders deployment floatText) :
    ∃ swarmEvents swarm, runEvents (Swarm.step debugText deployment)
        (.start deployment policy tracker) swarmEvents = some swarm ∧
      swarm.cluster = final.cluster ∧
      ∀ event ∈ swarmEvents, ∀ report, event.outsideReport deployment.jobId = some report →
        final.HeardOutside (parser.codecs floatText) deployment.jobId report := by
  rcases Network.coupled_of_run reads (linear_of_run ranBefore) created ran headers with
    ⟨swarmEvents, swarm, behind, coupled⟩
  exact ⟨swarmEvents, swarm, behind, coupled.cluster, coupled.told⟩

/-- The node that fetches its first chunk over connections and reports it is that of a run of the swarm.
-/
theorem network_refines_swarm_sample : ∃ swarmEvents swarm member,
    runEvents (Swarm.step noDebugText sampleNetwork) (.start sampleNetwork .rarityFirst .new)
      swarmEvents = some swarm ∧
    swarm.cluster.members "n" = some member ∧ member.process.sent = [[128]] ∧
    member.process.download.bitmap.has 0 = .ok true := by
  rcases sampleNetwork_runs with
    ⟨before, created, events, final, process, ranBefore, tracker, ran, only, sent, marked, headers⟩
  rcases network_refines_swarm noDebugText sampleJsonParser sampleFloatText sampleReread
    sampleJsonParser_readsBack sampleNetwork .rarityFirst .new before created ranBefore tracker events
    final ran headers with ⟨swarmEvents, swarm, behind, same, _⟩
  have found : swarm.cluster.members "n" = some { node := sampleReporter, process } := by
    rw [same]
    exact only.1
  exact ⟨swarmEvents, swarm, _, behind, found, sent, marked⟩

end ModelDistribution
