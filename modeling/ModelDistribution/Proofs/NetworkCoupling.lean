/-
Module: ModelDistribution.Proofs.NetworkCoupling
Layer: Proofs
Purpose: How a state of the system with connections and one of the swarm belong together: what is known
  of a connection by its caller, of the task that waits over it, and of the reports from outside. What
  keeps the coupling while nodes move, connections are accepted and the tracker's tasks run; and the
  messages, which are never lost.
Imports: ModelDistribution.Network, ModelDistribution.Proofs.ChunkOrigin,
  ModelDistribution.Proofs.FramedMessages, ModelDistribution.Proofs.PeerQueries
Trusted boundary: none
Main exports: Connection.From, Network.HeardOutside, Network.Coupled, Network.Coupled.nodes,
  Network.Coupled.accept, Network.Coupled.serves, Network.TrueHeaders, Network.Effect.grows
-/
import ModelDistribution.Network
import ModelDistribution.Proofs.ChunkOrigin
import ModelDistribution.Proofs.FramedMessages
import ModelDistribution.Proofs.PeerQueries

namespace ModelDistribution

open Foundation

/-! ### Tasks that ask -/

section Asking

variable {platform : Platform} {cfg : DownloaderConfig} {state next : Downloader} {task : Task}

theorem mem_putTask_of_ne {tasks : List Task} {k : Nat} {other : Task} {result : Option Task}
    (live : task ∈ tasks) (found : tasks[k]? = some other) (different : other ≠ task) :
    task ∈ putTask tasks k result := by
  rcases List.getElem?_of_mem live with ⟨i, at_i⟩
  have elsewhere : i ≠ k := by
    rintro rfl
    rw [at_i] at found
    cases found
    exact different rfl
  cases result with
  | none => exact List.mem_eraseIdx_iff_getElem?.mpr ⟨i, elsewhere, at_i⟩
  | some moved =>
      apply List.mem_of_getElem? (i := i)
      rw [putTask, List.getElem?_set_ne (Ne.symm elsewhere), at_i]

/-- The loop drops no task. -/
theorem loopStep_keeps (stepped : state.loopStep cfg = some next) : state.tasks ⊆ next.tasks := by
  unfold Downloader.loopStep at stepped
  split at stepped
  · split at stepped <;> cases stepped <;> exact List.Subset.refl _
  · cases stepped
    exact List.Subset.refl _
  · split at stepped
    · cases stepped
      exact List.Subset.refl _
    · cases stepped
      exact List.Subset.refl _
    · cases stepped
  · split at stepped
    · cases stepped
      exact List.subset_append_left _ _
    · cases stepped
  · split at stepped
    · cases stepped
      exact List.Subset.refl _
    · cases stepped
  · cases stepped

/-- A task that waits for the tracker goes on waiting until it gets an answer or an error. -/
theorem asks_until_answered {event : DownloadEvent}
    (stepped : state.step platform cfg event = some next) (live : task ∈ state.tasks)
    (asks : task.pc = .askTracker) :
    task ∈ next.tasks ∨ ∃ k answer, event = .tracker k answer ∧ state.tasks[k]? = some task := by
  have kept : ∀ {k : Nat} {other : Task} (result : Option Task), state.tasks[k]? = some other →
      other.pc ≠ .askTracker → task ∈ putTask state.tasks k result := by
    intro k other result found pc
    apply mem_putTask_of_ne live found
    rintro rfl
    exact pc asks
  cases event with
  | loop => exact .inl (loopStep_keeps stepped live)
  | tracker k answer =>
      simp only [Downloader.step] at stepped
      split at stepped
      · rename_i other found
        split at stepped
        · cases stepped
          by_cases same : other = task
          · exact .inr ⟨k, answer, rfl, same ▸ found⟩
          · exact .inl (mem_putTask_of_ne live found same)
        · cases stepped
      · cases stepped
  | exchange k exchange =>
      simp only [Downloader.step] at stepped
      split at stepped
      · rename_i other found
        split at stepped
        · rename_i pc
          cases stepped
          exact .inl (kept _ found (by simp [pc]))
        · cases stepped
      · cases stepped
  | writing k content =>
      simp only [Downloader.step] at stepped
      split at stepped
      · split at stepped
        · cases stepped
          exact .inl live
        · cases stepped
      · cases stepped
  | writeDone k =>
      simp only [Downloader.step] at stepped
      split at stepped
      · rename_i other found
        split at stepped
        · rename_i pc
          cases stepped
          exact .inl (kept (some _) found (by simp [pc]))
        · cases stepped
      · cases stepped
  | writeFailed k left =>
      simp only [Downloader.step] at stepped
      split at stepped
      · rename_i other found
        split at stepped
        · rename_i pc
          cases stepped
          exact .inl (kept _ found (by simp [pc]))
        · cases stepped
      · cases stepped
  | mark k =>
      simp only [Downloader.step] at stepped
      split at stepped
      · rename_i other found
        split at stepped
        · rename_i pc
          split at stepped
          · cases stepped
            exact .inl (kept none found (by simp [pc]))
          · cases stepped
            exact .inl (kept none found (by simp [pc]))
        · cases stepped
      · cases stepped

end Asking

/-! ### The coupling -/

/-- Every node stays what it is and keeps what it has sent. -/
def NodesKept (members members' : String → Option Member) : Prop :=
  ∀ nodeId member, members nodeId = some member → ∃ member', members' nodeId = some member' ∧
    member'.node = member.node ∧ member.process.sent ⊆ member'.process.sent

/-- A task of the node for the chunk waits for the tracker. -/
def Asks (members : String → Option Member) (nodeId : String) (i : UInt32) : Prop :=
  ∃ member task, members nodeId = some member ∧ task ∈ member.process.download.tasks ∧
    task.chunk = i ∧ task.pc = .askTracker

/-- What arrives over the connection is a front of the request. -/
def Connection.Brings (connection : Connection) (request : Request) : Prop :=
  connection.stream.fragments.flatten <+: frame request.payload

/-- What is known of a connection by its caller: a node sends one of its heartbeats or a query of its
own. -/
def Connection.From (deployment : Deployment) (members : String → Option Member)
    (connection : Connection) : Caller → Prop
  | .heartbeat nodeId => ∃ member bitmapBytes, members nodeId = some member ∧
      bitmapBytes ∈ member.process.sent ∧ connection.Brings (member.node.heartbeat bitmapBytes)
  | .query nodeId chunk => connection.out.sent = [] ∧ ∃ member, members nodeId = some member ∧
      connection.Brings ((member.config deployment).peersQuery chunk)
  | .outside => True

/-- The task of the connection has the response to write, or has written it as far as it could. -/
def ConnectionPc.Gives (pc : ConnectionPc) (response : Response) : Prop :=
  pc = .answering response ∨ ∃ out result, pc = .closed (some response) out result

namespace ConnectionPc

variable {response given : Response}

@[simp] theorem not_gives_reading : ¬ reading.Gives response := by
  simp [Gives]

@[simp] theorem not_gives_refusing {e : DistError} : ¬ (refusing e).Gives response := by
  simp [Gives]

@[simp] theorem not_gives_updated {jobId : String} : ¬ (updated jobId).Gives response := by
  simp [Gives]

@[simp] theorem gives_answering : (answering given).Gives response ↔ given = response := by
  simp [Gives]

@[simp] theorem gives_closed {given : Option Response} {out : Outgoing IoError}
    {result : Checked (Except DistError Unit)} :
    (closed given out result).Gives response ↔ given = some response := by
  simp [Gives]

end ConnectionPc

/-- The report was read from the connection of another client. -/
def Network.HeardOutside (codecs : Codecs) (jobId : String) (network : Network)
    (report : NodeReport) : Prop :=
  ∃ (c : Nat) (connection : Connection) (request : Request) (rest : Fragmented IoError),
    network.callers[c]? = some .outside ∧ network.listener.connections[c]? = some connection ∧
    readMsg codecs.requests connection.stream = .ok (request, rest) ∧
    Server.reportOf request = some (jobId, report)

/-- The swarm behind the events is that of the network: the same nodes and tracker; a task that waits
over a connection still asks, and what that connection gives is an answer of the swarm; and reports
from outside come over connections of other clients. -/
structure Network.Coupled (deployment : Deployment) (codecs : Codecs) (network : Network)
    (past : List SwarmEvent) (swarm : Swarm) : Prop where
  cluster : swarm.cluster = network.cluster
  length : network.callers.length = network.listener.connections.length
  callers : ∀ (c : Nat) (connection : Connection) (caller : Caller),
    network.listener.connections[c]? = some connection → network.callers[c]? = some caller →
    connection.From deployment network.members caller
  asking : ∀ nodeId i c, network.asking nodeId i = some c →
    network.callers[c]? = some (.query nodeId i) ∧ Asks network.members nodeId i
  answered : ∀ nodeId i c (connection : Connection) peers, network.asking nodeId i = some c →
    network.listener.connections[c]? = some connection → connection.pc.Gives (.peers peers) →
    { nodeId, chunk := i, peers } ∈ swarm.answers
  told : ∀ event ∈ past, ∀ report, event.outsideReport deployment.jobId = some report →
    network.HeardOutside codecs deployment.jobId report

section Coupling

variable {deployment : Deployment} {codecs : Codecs} {network : Network} {past : List SwarmEvent}
  {swarm : Swarm} {members members' : String → Option Member} {nodeId : String} {member : Member}

theorem NodesKept.refl (members : String → Option Member) : NodesKept members members :=
  fun _ member found => ⟨member, found, rfl, List.Subset.refl _⟩

theorem NodesKept.setMember {cluster : Cluster} {process : NodeProcess}
    (found : cluster.members nodeId = some member)
    (grows : member.process.sent ⊆ process.sent) :
    NodesKept cluster.members (cluster.setMember nodeId { member with process }).members := by
  intro other old known
  rw [Cluster.setMember_members]
  split
  · rename_i same
    rw [same, found] at known
    cases known
    exact ⟨_, rfl, rfl, grows⟩
  · exact ⟨old, known, rfl, List.Subset.refl _⟩

theorem Connection.From.mono {connection : Connection} {caller : Caller}
    (opened : connection.From deployment members caller) (kept : NodesKept members members') :
    connection.From deployment members' caller := by
  cases caller with
  | heartbeat nodeId =>
      rcases opened with ⟨member, bitmapBytes, found, sent, brings⟩
      rcases kept nodeId member found with ⟨member', found', sameNode, grows⟩
      refine ⟨member', bitmapBytes, found', grows sent, ?_⟩
      rw [sameNode]
      exact brings
  | query nodeId chunk =>
      rcases opened with ⟨unused, member, found, brings⟩
      rcases kept nodeId member found with ⟨member', found', sameNode, _⟩
      refine ⟨unused, member', found', ?_⟩
      rw [Member.config, sameNode]
      exact brings
  | outside => exact opened

/-- An event that reports nothing from outside has nothing to show. -/
theorem told_of_quiet {event : SwarmEvent} (quiet : event.outsideReport deployment.jobId = none) :
    ∀ other ∈ [event], ∀ report, other.outsideReport deployment.jobId = some report →
      network.HeardOutside codecs deployment.jobId report := by
  intro other mem report outside
  rw [List.mem_singleton.mp mem, quiet] at outside
  cases outside

/-- The nodes move, and no other tasks wait for a reply. -/
theorem Network.Coupled.nodes (coupled : network.Coupled deployment codecs past swarm)
    {asking : String → UInt32 → Option Nat} (kept : NodesKept network.members members')
    (asks : ∀ nodeId i c, asking nodeId i = some c →
      network.asking nodeId i = some c ∧ Asks members' nodeId i)
    (event : SwarmEvent) (quiet : event.outsideReport deployment.jobId = none) :
    Network.Coupled deployment codecs { network with members := members', asking }
      (past ++ [event])
      { swarm with cluster := { network.cluster with members := members' } } where
  cluster := rfl
  length := coupled.length
  callers c connection caller at_c called :=
    (coupled.callers c connection caller at_c called).mono kept
  asking nodeId i c waits :=
    ⟨(coupled.asking nodeId i c (asks nodeId i c waits).1).1, (asks nodeId i c waits).2⟩
  answered nodeId i c connection peers waits :=
    coupled.answered nodeId i c connection peers (asks nodeId i c waits).1
  told other mem report outside := by
    rcases List.mem_append.mp mem with earlier | last
    · exact coupled.told other earlier report outside
    · exact told_of_quiet quiet other last report outside

/-- The connection at a position, when another one comes behind. -/
theorem getElem?_snoc_cases {α : Type} {xs : List α} {last found : α} {c : Nat}
    (here : (xs ++ [last])[c]? = some found) :
    xs[c]? = some found ∨ (c = xs.length ∧ found = last) := by
  rw [List.getElem?_append] at here
  split at here
  · exact .inl here
  · rw [List.getElem?_singleton] at here
    split at here
    · rename_i past zero
      cases here
      exact .inr ⟨by omega, rfl⟩
    · cases here

theorem getElem?_snoc_of_some {α : Type} {xs : List α} {found : α} (last : α) {c : Nat}
    (here : xs[c]? = some found) : (xs ++ [last])[c]? = some found := by
  rw [List.getElem?_append_left (List.getElem?_eq_some_iff.mp here).1, here]

/-- A connection is accepted; a task may wait over it when it is there for its query. -/
theorem Network.Coupled.accept (coupled : network.Coupled deployment codecs past swarm)
    {caller : Caller} {stream : Fragmented IoError} {fault : Option (Nat × IoError)}
    (opened : Connection.From deployment network.members
      { stream, out := { sent := [], fault }, pc := .reading } caller)
    {asking : String → UInt32 → Option Nat}
    (asks : ∀ nodeId i c, asking nodeId i = some c → network.asking nodeId i = some c ∨
      (c = network.listener.connections.length ∧ caller = .query nodeId i ∧
        Asks network.members nodeId i)) :
    Network.Coupled deployment codecs { network.accept caller stream fault with asking } past
      swarm := by
  constructor
  · exact coupled.cluster
  · simp only [Network.accept, List.length_append, List.length_singleton, coupled.length]
  · intro c connection other at_c called
    rcases getElem?_snoc_cases at_c with old | ⟨new, rfl⟩
    · rcases getElem?_snoc_cases called with known | ⟨behind, _⟩
      · exact coupled.callers c connection other old known
      · have inside := (List.getElem?_eq_some_iff.mp old).1
        rw [behind, coupled.length] at inside
        exact absurd inside (Nat.lt_irrefl _)
    · rcases getElem?_snoc_cases called with known | ⟨_, rfl⟩
      · have inside := (List.getElem?_eq_some_iff.mp known).1
        rw [new, coupled.length] at inside
        exact absurd inside (Nat.lt_irrefl _)
      · exact opened
  · intro nodeId i c waits
    rcases asks nodeId i c waits with old | ⟨rfl, rfl, asked⟩
    · rcases coupled.asking nodeId i c old with ⟨called, asked⟩
      exact ⟨getElem?_snoc_of_some _ called, asked⟩
    · refine ⟨?_, asked⟩
      simp only [Network.accept]
      rw [← coupled.length, List.getElem?_concat_length]
  · intro nodeId i c connection peers waits at_c gives
    rcases getElem?_snoc_cases at_c with found | ⟨new, rfl⟩
    · rcases asks nodeId i c waits with old | ⟨rfl, _⟩
      · exact coupled.answered nodeId i c connection peers old found gives
      · exact absurd (List.getElem?_eq_some_iff.mp found).1 (Nat.lt_irrefl _)
    · simp at gives
  · intro event mem report outside
    rcases coupled.told event mem report outside with
      ⟨c, connection, request, rest, called, at_c, read⟩
    exact ⟨c, connection, request, rest, getElem?_snoc_of_some _ called,
      getElem?_snoc_of_some _ at_c, read⟩

/-- The task of a connection moves, with the tracker and the swarm. -/
theorem Network.Coupled.serves (coupled : network.Coupled deployment codecs past swarm) {c : Nat}
    {connection : Connection} (found : network.listener.connections[c]? = some connection)
    {pc : ConnectionPc} {tracker : Tracker} {log : List Logged} {later : List SwarmEvent}
    {after : Swarm} (cluster : after.cluster = { network.cluster with tracker })
    (grows : swarm.answers ⊆ after.answers)
    (gives : ∀ nodeId i peers, network.asking nodeId i = some c → pc.Gives (.peers peers) →
      { nodeId, chunk := i, peers } ∈ after.answers)
    (told : ∀ event ∈ later, ∀ report, event.outsideReport deployment.jobId = some report →
      network.HeardOutside codecs deployment.jobId report) :
    Network.Coupled deployment codecs
      { network with
        listener := {
          tracker
          connections := network.listener.connections.set c { connection with pc }
          log } }
      (past ++ later) after := by
  have heard : ∀ report, network.HeardOutside codecs deployment.jobId report →
      Network.HeardOutside codecs deployment.jobId
        { network with
          listener := {
            tracker
            connections := network.listener.connections.set c { connection with pc }
            log } } report := by
    rintro report ⟨d, other, request, rest, called, at_d, read, reported⟩
    by_cases same : d = c
    · subst same
      rw [found] at at_d
      cases at_d
      refine ⟨d, { connection with pc }, request, rest, called, ?_, read, reported⟩
      exact List.getElem?_set_self (List.getElem?_eq_some_iff.mp found).1
    · refine ⟨d, other, request, rest, called, ?_, read, reported⟩
      rw [← at_d]
      exact List.getElem?_set_ne (Ne.symm same)
  constructor
  · exact cluster
  · simp only [List.length_set, coupled.length]
  · intro d other caller at_d called
    rcases getElem?_set_cases at_d with ⟨rfl, rfl⟩ | ⟨_, earlier⟩
    · have opened := coupled.callers d connection caller found called
      cases caller with
      | heartbeat nodeId => exact opened
      | query nodeId chunk => exact opened
      | outside => exact opened
    · exact coupled.callers d other caller earlier called
  · exact coupled.asking
  · intro nodeId i d other peers waits at_d given
    rcases getElem?_set_cases at_d with ⟨rfl, rfl⟩ | ⟨_, earlier⟩
    · exact gives nodeId i peers waits given
    · exact grows (coupled.answered nodeId i d other peers waits earlier given)
  · intro event mem report outside
    rcases List.mem_append.mp mem with earlier | last
    · exact heard report (coupled.told event earlier report outside)
    · exact heard report (told event last report outside)

end Coupling

/-! ### What is never lost -/

/-- No message reaches 4 GiB, so all length headers are true: of the responses that were written, of
the heartbeats that were sent, and of what the started nodes may ask. -/
structure Network.TrueHeaders (deployment : Deployment) (floatText : JsonNumber → List Char)
    (network : Network) : Prop where
  responses : ∀ (c : Nat) (connection : Connection) response out result,
    network.listener.connections[c]? = some connection →
    connection.pc = .closed (some response) out result →
    (response.payload floatText).length < 2 ^ 32
  heartbeats : ∀ nodeId member, network.members nodeId = some member →
    ∀ bitmapBytes ∈ member.process.sent,
      (member.node.heartbeat bitmapBytes).payload.length < 2 ^ 32
  queries : ∀ nodeId member, network.members nodeId = some member → ∀ chunk,
    ((member.config deployment).peersQuery chunk).payload.length < 2 ^ 32

/-- Nodes stay and keep what they have sent, and connections that have ended stay as they are. -/
structure Network.Grows (network next : Network) : Prop where
  members : NodesKept network.members next.members
  ended : ∀ (c : Nat) (connection : Connection),
    network.listener.connections[c]? = some connection → connection.pc.ended = true →
    next.listener.connections[c]? = some connection

section Growth

variable {debugText : Response → String} {codecs : Codecs} {deployment : Deployment}
  {floatText : JsonNumber → List Char} {network next : Network} {cluster after : Cluster}
  {nodeId : String}

/-- What was true of the headers of more messages is true of those of fewer. -/
theorem Network.TrueHeaders.of_grows (headers : next.TrueHeaders deployment floatText)
    (grows : network.Grows next) : network.TrueHeaders deployment floatText where
  responses c connection response out result at_c closed := by
    have kept := grows.ended c connection at_c (by rw [closed]; rfl)
    exact headers.responses c connection response out result kept closed
  heartbeats nodeId member found bitmapBytes sent := by
    rcases grows.members nodeId member found with ⟨member', found', sameNode, more⟩
    rw [← sameNode]
    exact headers.heartbeats nodeId member' found' bitmapBytes (more sent)
  queries nodeId member found chunk := by
    rcases grows.members nodeId member found with ⟨member', found', sameNode, _⟩
    rw [Member.config, ← sameNode]
    exact headers.queries nodeId member' found' chunk

theorem sent_grows {platform : Platform} {cfg : DownloaderConfig} {process process' : NodeProcess}
    {event : NodeEvent} (stepped : process.step platform cfg event = some process') :
    process.sent ⊆ process'.sent := by
  rcases NodeProcess.step_effect stepped with ⟨_, effect⟩
  cases effect with
  | sends _ => exact List.subset_append_left _ _
  | _ => exact List.Subset.refl _

/-- A step of a node leaves the tracker alone, and every task that asks goes on asking but the one that
the step answers. -/
theorem Cluster.step_member {event : NodeEvent}
    (stepped : cluster.step deployment (.member nodeId event) = some after) :
    after = { cluster with members := after.members } ∧ NodesKept cluster.members after.members ∧
    ∀ other i, Asks cluster.members other i → Asks after.members other i ∨
      ∃ k answer member task, event = .download (.tracker k answer) ∧ other = nodeId ∧
        cluster.members nodeId = some member ∧
        member.process.download.tasks[k]? = some task ∧ task.chunk = i := by
  rcases Option.bind_eq_some_iff.mp stepped with ⟨member, found, rest⟩
  rcases Option.map_eq_some_iff.mp rest with ⟨process, moved, rfl⟩
  refine ⟨rfl, .setMember found (sent_grows moved), ?_⟩
  rintro other i ⟨old, task, known, live, chunk, pc⟩
  by_cases same : other = nodeId
  · subst same
    rw [found] at known
    cases known
    have continued : task ∈ process.download.tasks ∨ ∃ k answer,
        event = .download (.tracker k answer) ∧ member.process.download.tasks[k]? = some task := by
      rcases NodeProcess.step_effect moved with ⟨_, effect⟩
      cases effect with
      | downloads downloaded =>
          rcases asks_until_answered downloaded live pc with kept | ⟨k, answer, rfl, at_k⟩
          · exact .inl kept
          · exact .inr ⟨k, answer, rfl, at_k⟩
      | _ => exact .inl live
    rcases continued with kept | ⟨k, answer, rfl, at_k⟩
    · left
      refine ⟨{ member with process }, task, ?_, kept, chunk, pc⟩
      rw [Cluster.setMember_members, if_pos rfl]
    · exact .inr ⟨k, answer, member, task, rfl, rfl, found, at_k, chunk⟩
  · left
    refine ⟨old, task, ?_, live, chunk, pc⟩
    rw [Cluster.setMember_members, if_neg same, known]

/-- A node that starts leaves the others alone. -/
theorem Cluster.step_join {node : PeerNode} {disk : String → Option (List UInt8)}
    (joined : cluster.step deployment (.join node disk) = some after) :
    after = { cluster with members := after.members } ∧ NodesKept cluster.members after.members ∧
    ∀ other i, Asks cluster.members other i → Asks after.members other i := by
  simp only [Cluster.step] at joined
  split at joined
  · rename_i allowed
    rcases Option.map_eq_some_iff.mp joined with ⟨process, _, rfl⟩
    have fresh : cluster.members node.nodeId = none := Option.isNone_iff_eq_none.mp allowed.2
    have others : ∀ other member, cluster.members other = some member →
        (cluster.setMember node.nodeId { node, process }).members other = some member := by
      intro other member found
      rw [Cluster.setMember_members]
      split
      · rename_i same
        rw [same, fresh] at found
        cases found
      · exact found
    refine ⟨rfl, ?_, ?_⟩
    · intro other member found
      exact ⟨member, others other member found, rfl, List.Subset.refl _⟩
    · rintro other i ⟨member, task, found, asks⟩
      exact ⟨member, task, others other member found, asks⟩
  · cases joined

/-- A step of a node changes the nodes and who waits for a reply. -/
theorem Network.moved_eq (network : Network) (nodeId : String) (event : NodeEvent)
    (cluster : Cluster) :
    network.moved nodeId event cluster =
      { network with
        members := cluster.members
        asking := (network.moved nodeId event cluster).asking } := by
  unfold moved
  split
  · split <;> rfl
  · rfl

/-- Who still waits for a reply has waited before, and still asks. -/
theorem Network.moved_asking {event : NodeEvent}
    (asked : ∀ other i c, network.asking other i = some c → Asks network.members other i)
    (stepped : network.cluster.step deployment (.member nodeId event) = some after) :
    ∀ other i c, (network.moved nodeId event after).asking other i = some c →
      network.asking other i = some c ∧ Asks after.members other i := by
  intro other i c waits
  have waited : network.asking other i = some c := by
    unfold moved at waits
    split at waits
    · split at waits
      · simp only [hangUp] at waits
        split at waits
        · cases waits
        · exact waits
      · exact waits
    · exact waits
  refine ⟨waited, ?_⟩
  rcases (Cluster.step_member stepped).2.2 other i (asked other i c waited) with
    asks | ⟨k, answer, member, task, rfl, rfl, found, at_k, rfl⟩
  · exact asks
  · -- the task that was answered waits no more
    have located : network.task? other k = some (member, task) := by
      have known : network.cluster.members other = some member := found
      simp [task?, Swarm.task?, known, at_k]
    simp [moved, located, hangUp] at waits

theorem Network.Effect.grows {event : NetworkEvent}
    (effect : Network.Effect debugText codecs deployment network event next) :
    network.Grows next := by
  cases effect with
  | joins joined => exact ⟨(Cluster.step_join joined).2.1, fun _ _ at_c _ => at_c⟩
  | moves isLocal stepped =>
      rw [Network.moved_eq]
      exact ⟨(Cluster.step_member stepped).2.1, fun _ _ at_c _ => at_c⟩
  | reports found sending sends stepped =>
      rw [Network.moved_eq]
      exact ⟨(Cluster.step_member stepped).2.1, fun _ _ at_c _ => getElem?_snoc_of_some _ at_c⟩
  | asks found live pc idle sends =>
      exact ⟨.refl _, fun _ _ at_c _ => getElem?_snoc_of_some _ at_c⟩
  | knocks stream fault => exact ⟨.refl _, fun _ _ at_c _ => getElem?_snoc_of_some _ at_c⟩
  | tracks own stepped => exact ⟨.refl _, (Listener.step_effect stepped).grows.ended⟩
  | hears found live waits at_c ended front stepped =>
      rw [Network.moved_eq]
      exact ⟨(Cluster.step_member stepped).2.1, fun _ _ at_c _ => at_c⟩

end Growth

end ModelDistribution
