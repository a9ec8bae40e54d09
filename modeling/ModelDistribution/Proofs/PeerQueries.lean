/-
Module: ModelDistribution.Proofs.PeerQueries
Layer: Proofs
Purpose: Peer queries from end to end, under concurrent traffic, with every call of the tracker taken
  as one atomic step. The list that a client gets names exactly the best of the nodes with a standing
  heartbeat for the chunk at one place in the order of all requests, and that place is behind every
  heartbeat that was acknowledged before the query began; so a node that has announced a chunk is
  found.
Imports: ModelDistribution.Proofs.NodeHistory, ModelDistribution.Proofs.RemoteCalls
Trusted boundary: none
Main exports: Replied, Replied.handled, peer_query_end_to_end
-/
import ModelDistribution.Proofs.NodeHistory
import ModelDistribution.Proofs.RemoteCalls

namespace ModelDistribution

open Foundation

/-! ### Replies -/

/-- The reply that a call has got by the state, when the length headers of its messages are true. -/
structure Replied (codecs : Codecs) (floatText : JsonNumber → List Char) (listener : Listener)
    (request : Request) (k : Nat) (reply : Reply) : Prop where
  call : ∃ connection back answer, Called codecs listener request k connection back answer ∧
    (∀ response, answer = some response → (response.payload floatText).length < 2 ^ 32) ∧
    reply = (TrackerClient.sendRecv codecs request .reliable back).2
  small : request.payload.length < 2 ^ 32

section Replies

variable {server : Server} {parser : JsonParser} {floatText : JsonNumber → List Char}
  {reread : JsonNumber → JsonNumber} {listener : Listener} {request : Request} {k : Nat}
  {reply : Reply}

/-- A reply other than an error is the answer of the tracker at the place of the request. -/
theorem Replied.handled {response : Response} (reads : ReadsBack floatText 127 reread parser.read)
    (linear : listener.Linear server (parser.codecs floatText))
    (replied : Replied (parser.codecs floatText) floatText listener request k (.ok response))
    (accepted : ∀ message, response ≠ .error message) :
    ∃ before now freshId after given,
      listener.log = before ++ ⟨some k, .request now freshId request⟩ :: after ∧
      Unheard before k ∧ Unheard after k ∧
      Answers server listener.log before k now freshId request (some given) ∧
      response = given.ordered.asRead reread := by
  rcases replied.call with ⟨connection, back, answer, called, smallAnswer, same⟩
  have arrives := called.delivered
  rw [sendRecv_reliable] at arrives
  rcases Nat.lt_or_ge maxFrame request.payload.length with large | fits
  · have attempted := called.attempted
    rcases attempted.refused reads linear
      (readMsg_refuses replied.small large attempted.front attempted.header) with ⟨_, _, only⟩
    rcases read_of_sendRecv same.symm with ⟨rest, read⟩
    exact absurd (only response rest read) (accepted _)
  · rcases called.handled reads linear (readMsg_request reads fits arrives) with
      ⟨before, now, freshId, heard, answers, repliedTo⟩
    rw [sendRecv_reliable] at same
    have got : .ok response = (readMsg (parser.responses floatText) back).map Prod.fst := same
    rw [← got] at repliedTo
    rcases heard.later with ⟨after, split, unheard⟩
    cases answer with
    | none =>
        have nothing := repliedTo.nothing rfl
        cases nothing
    | some given =>
        refine ⟨before, now, freshId, after, given, split, heard.earlier, unheard, answers, ?_⟩
        rcases Nat.lt_or_ge maxFrame (given.payload floatText).length with large | fits
        · have refused := repliedTo.refused given rfl large (smallAnswer given rfl)
          cases refused
        · exact Except.ok.inj (repliedTo.read given rfl fits)

/-- Whatever has happened before, a call whose messages fit can be made, and gets its answer. -/
theorem replied_of_served (server : Server) (request : Request) (response : Response)
    (reads : ReadsBack floatText 127 reread parser.read)
    (linear : listener.Linear server (parser.codecs floatText)) (now : Nat) (freshId : String)
    (fits : request.payload.length ≤ maxFrame)
    (answered : (server.dispatch (server.after listener.log) now freshId request).2 = .ok response)
    (fitsAnswer : (response.payload floatText).length ≤ maxFrame) :
    ∃ events final,
      runEvents (Listener.step server (parser.codecs floatText)) listener events = some final ∧
      final.Linear server (parser.codecs floatText) ∧
      final.log = listener.log ++ [⟨some listener.connections.length, .request now freshId request⟩] ∧
      final.connections.length = listener.connections.length + 1 ∧
      Replied (parser.codecs floatText) floatText final request listener.connections.length
        (.ok (response.ordered.asRead reread)) := by
  have capped : maxFrame < 2 ^ 32 := by decide
  rw [← linear.tracker] at answered
  rcases called_of_served reads listener now freshId fits answered ⟨.unexpectedEof, "early eof"⟩ with
    ⟨events, final, connection, back, ran, log, length, called⟩
  have linear' : final.Linear server (parser.codecs floatText) :=
    runEvents_invariant (Listener.Linear server (parser.codecs floatText)) (fun _ _ _ => linear_step)
      linear ran
  have arrives := called.delivered
  rw [sendRecv_reliable] at arrives
  rcases called.handled reads linear' (readMsg_request reads fits arrives) with
    ⟨_, _, _, _, _, repliedTo⟩
  refine ⟨events, final, ran, linear', log, length, ?_⟩
  constructor
  · refine ⟨connection, back, some response, called, ?_, ?_⟩
    · intro _ same
      cases same
      exact Nat.lt_of_le_of_lt fitsAnswer capped
    · rw [sendRecv_reliable]
      exact (repliedTo.read response rfl fitsAnswer).symm
  · exact Nat.lt_of_le_of_lt fits capped

end Replies

/-! ### The order of two calls -/

/-- What comes over a connection that a log has not heard stands behind all of the log. -/
theorem behind_unheard {log later before after : List Logged} {l : Nat} {event : TrackerEvent}
    (unheard : Unheard log l) (split : log ++ later = before ++ ⟨some l, event⟩ :: after) :
    ∃ between, before = log ++ between := by
  rcases List.append_eq_append_iff.mp split with ⟨between, same, _⟩ | ⟨rest, same, tail⟩
  · exact ⟨between, same⟩
  · cases rest with
    | nil => exact ⟨[], by rw [same, List.append_nil, List.append_nil]⟩
    | cons entry rest =>
        rw [List.cons_append, List.cons.injEq] at tail
        refine absurd rfl (unheard ⟨some l, event⟩ ?_)
        rw [same, tail.1]
        exact List.mem_append_right before List.mem_cons_self

/-- A peer query from end to end, whatever other clients do meanwhile, with every call of the tracker
taken as one atomic step. When `get_peers` returns a list, the tracker has handled the query once, at
some place in the order of all requests, where the job was known, and the list names distinct nodes
whose standing heartbeats carry the chunk, no more than were asked for; a node with such a heartbeat
is left out only when the list is full and it ranks above none of the others. Every heartbeat that
`heartbeat` has acknowledged before the connection of the query was accepted stands in front of that
place; so what a node has announced is found, unless it was evicted, has reported anew, or the job was
created anew. -/
theorem peer_query_end_to_end (server : Server) (parser : JsonParser)
    (floatText : JsonNumber → List Char) (reread : JsonNumber → JsonNumber)
    (reads : ReadsBack floatText 127 reread parser.read) (debugText : Response → String)
    (sooner rest : List ListenerEvent) (middle final : Listener)
    (ranSooner : runEvents (Listener.step server (parser.codecs floatText)) .start sooner =
      some middle)
    (ranRest : runEvents (Listener.step server (parser.codecs floatText)) middle rest = some final)
    (jobId requesterId requesterRack : String) (chunkIndex : UInt32) (topN : UInt64) (l : Nat)
    (accepted : middle.connections.length ≤ l) (reply : Reply) (peers : List PeerInfo)
    (replied : Replied (parser.codecs floatText) floatText final
      (.getPeers jobId requesterId requesterRack chunkIndex topN) l reply)
    (returned : TrackerClient.getPeers debugText reply = .ok peers) :
    ∃ before now freshId after job candidates,
      final.log = before ++ ⟨some l, .request now freshId
        (.getPeers jobId requesterId requesterRack chunkIndex topN)⟩ :: after ∧
      Unheard before l ∧ Unheard after l ∧
      (server.after before).jobs.get? jobId = some job ∧
      peers = candidates.map PeerInfo.fromCandidate ∧
      server.NamesHolders jobId (before.map Logged.event) job requesterId requesterRack chunkIndex
        topN candidates ∧
      ∀ k request report announcement jobComplete, Server.reportOf request = some (jobId, report) →
        Replied (parser.codecs floatText) floatText middle request k announcement →
        TrackerClient.heartbeat debugText announcement = .ok jobComplete →
        ∃ earlier sentAt freshId' later,
          before = earlier ++ ⟨some k, .request sentAt freshId' request⟩ :: later ∧
          (server.Undisturbed jobId report.nodeId sentAt (later.map Logged.event) →
            Server.Offers job requesterId chunkIndex report →
            Server.Named job requesterRack topN candidates report) := by
  have linearMiddle := linear_of_run ranSooner
  have linear : final.Linear server (parser.codecs floatText) :=
    runEvents_invariant (Listener.Linear server (parser.codecs floatText)) (fun _ _ _ => linear_step)
      linearMiddle ranRest
  have grows : middle.Grows final :=
    runEvents_related (fun _ _ _ => linear_step) Listener.Grows.refl Listener.Grows.trans
      (fun _ _ _ _ stepped => (Listener.step_effect stepped).grows) linearMiddle ranRest
  rw [TrackerClient.getPeers_eq_ok returned] at replied
  rcases replied.handled reads linear (fun _ same => by cases same) with
    ⟨before, now, freshId, after, given, split, unheard, quiet, answers, read⟩
  rw [asRead_peers read] at answers
  rcases answers with atomic | acknowledges
  · rcases Server.namesHolders_of_answer atomic with ⟨job, candidates, found, same, names⟩
    refine ⟨before, now, freshId, after, job, candidates, split, unheard, quiet, found, same, names,
      ?_⟩
    intro k request report announcement jobComplete heartbeat announced acknowledged
    rw [TrackerClient.heartbeat_eq_ok acknowledged] at announced
    rcases announced.handled reads linearMiddle (fun _ same => by cases same) with
      ⟨earlier, sentAt, freshId', later, _, heard, _⟩
    -- the query was not heard before its connection was accepted
    rcases grows.log with ⟨added, grown, _⟩
    rcases behind_unheard (linearMiddle.unheard accepted) (grown ▸ split) with ⟨between, rfl⟩
    refine ⟨earlier, sentAt, freshId', later ++ between, ?_, ?_⟩
    · rw [heard, List.append_assoc, List.cons_append]
    · intro undisturbed offers
      apply names.named sentAt report _ offers
      refine ⟨earlier.map Logged.event, freshId', request, (later ++ between).map Logged.event, ?_,
        heartbeat, undisturbed⟩
      rw [heard, List.append_assoc, List.cons_append, List.map_append, List.map_cons]
  · rcases acknowledges.status with ⟨_, _, _, _, _, _, status⟩
    cases status

/-! ### An announcement and a query -/

/-- The creation of the sample job. -/
def sampleCreation : Request := TrackerClient.createJobRequest sampleManifest "rarity-first"

/-- The announcement of the first chunk of the sample file. -/
def sampleAnnouncement : Request := .heartbeat "x" "n" "rack-A" "n:7100" [128] 8000

/-- A query of another node for that chunk. -/
def sampleQuery : Request := .getPeers "x" "m" "rack-A" 0 5

/-- The tracker of these calls. -/
def announcementServer : Server := sampleJsonParser.server sampleServer.layouts

theorem sampleCreation_fits : sampleCreation.payload.length ≤ maxFrame := by
  have bound := (createJobRequest_bounds sampleManifest "rarity-first").2
  have size : sampleManifest.wireSize ≤ 400 := by decide
  have policy : textSize "rarity-first" = 14 := by decide
  have cap : 2000 ≤ maxFrame := by decide
  rw [sampleCreation, Request.payload, Json.length_toBytes, Request.size_toValue]
  omega

theorem after_sampleCreation :
    announcementServer.after [⟨some 0, .request 5 "x" sampleCreation⟩] =
      (Tracker.new.createJob "x" sampleManifest .rarityFirst).2 := by
  have parsed : announcementServer.deserialise sampleManifest.serialise = .ok sampleManifest :=
    deserialise_serialise sampleServer.layouts sampleManifest sampleJsonParser_readsBack
  have created : announcementServer.step .new (.request 5 "x" sampleCreation) =
      (Tracker.new.createJob "x" sampleManifest .rarityFirst).2 :=
    Server.step_createJob .new 5 "x" parsed rfl
  rw [← List.nil_append [_], Server.after_snoc, Server.after_nil, created]

/-- The job has been created for a call, and no message of it has a false header. -/
theorem sampleCreation_served : ∃ events created,
    runEvents (Listener.step announcementServer (sampleJsonParser.codecs sampleFloatText)) .start
      events = some created ∧
    created.log = [⟨some 0, .request 5 "x" sampleCreation⟩] ∧ created.connections.length = 1 ∧
    Replied (sampleJsonParser.codecs sampleFloatText) sampleFloatText created sampleCreation 0
      (.ok ((creationAnswer "x" "rarity-first").ordered.asRead sampleReread)) := by
  have answerFits : ((creationAnswer "x" "rarity-first").payload sampleFloatText).length ≤
      maxFrame := by
    rw [Response.payload, Json.length_toBytes, Response.size_toValue]
    decide
  rcases replied_of_served announcementServer sampleCreation _ sampleJsonParser_readsBack
    Listener.linear_start 5 "x" sampleCreation_fits
    (dispatch_createJobRequest sampleServer.layouts sampleJsonParser_readsBack .new) answerFits with
    ⟨events, created, ran, _, log, length, replied⟩
  exact ⟨events, created, ran, log, length, replied⟩

/-- The three calls, one behind the other. -/
theorem sampleCalls : ∃ sooner rest middle final,
    runEvents (Listener.step announcementServer (sampleJsonParser.codecs sampleFloatText)) .start
      sooner = some middle ∧
    runEvents (Listener.step announcementServer (sampleJsonParser.codecs sampleFloatText)) middle
      rest = some final ∧
    middle.connections.length = 2 ∧
    final.log = [⟨some 0, .request 5 "x" sampleCreation⟩,
      ⟨some 1, .request 6 "y" sampleAnnouncement⟩, ⟨some 2, .request 7 "z" sampleQuery⟩] ∧
    Replied (sampleJsonParser.codecs sampleFloatText) sampleFloatText middle sampleAnnouncement 1
      (.ok (.heartbeatAck false)) ∧
    Replied (sampleJsonParser.codecs sampleFloatText) sampleFloatText final sampleQuery 2
      (.ok (.peers [⟨"n", "n:7100", "rack-A", 8000⟩])) := by
  have announcementFits : sampleAnnouncement.payload.length ≤ maxFrame := by
    rw [Request.payload, Json.length_toBytes, Request.size_toValue]
    decide
  have announcementAnswers : ((Response.heartbeatAck false).payload sampleFloatText).length ≤
      maxFrame := by
    rw [Response.payload, Json.length_toBytes, Response.size_toValue]
    decide
  have queryFits : sampleQuery.payload.length ≤ maxFrame := by
    rw [Request.payload, Json.length_toBytes, Request.size_toValue]
    decide
  have queryAnswers : ((Response.peers [⟨"n", "n:7100", "rack-A", 8000⟩]).payload
      sampleFloatText).length ≤ maxFrame := by
    rw [Response.payload, Json.length_toBytes, Response.size_toValue]
    decide
  rcases sampleCreation_served with ⟨events₁, created, ran₁, log₁, length₁, _⟩
  rcases replied_of_served announcementServer sampleAnnouncement (.heartbeatAck false)
    sampleJsonParser_readsBack (linear_of_run ran₁) 6 "y" announcementFits
    (by rw [log₁, after_sampleCreation]; rfl) announcementAnswers with
    ⟨events₂, announced, ran₂, linear₂, log₂, length₂, told⟩
  rw [log₁, length₁] at log₂
  rw [length₁] at length₂ told
  have tracker₂ : announcementServer.after announced.log =
      announcementServer.step (Tracker.new.createJob "x" sampleManifest .rarityFirst).2
        (.request 6 "y" sampleAnnouncement) := by
    rw [log₂, Server.after_snoc, after_sampleCreation]
  rcases replied_of_served announcementServer sampleQuery
    (.peers [⟨"n", "n:7100", "rack-A", 8000⟩]) sampleJsonParser_readsBack linear₂ 7 "z"
    queryFits (by rw [tracker₂]; rfl) queryAnswers with
    ⟨events₃, final, ran₃, _, log₃, _, answered⟩
  rw [log₂, length₂] at log₃
  rw [length₂] at answered
  refine ⟨events₁ ++ events₂, events₃, announced, final, ?_, ran₃, length₂, log₃, told, answered⟩
  exact runEvents_append.mpr ⟨created, ran₁, ran₂⟩

/-- There is one way to find the last two of them in that log. -/
theorem sampleCalls_split {earlier later after : List Logged} {sentAt now : Nat}
    {freshId freshId' : String}
    (split : [⟨some 0, .request 5 "x" sampleCreation⟩, ⟨some 1, .request 6 "y" sampleAnnouncement⟩,
        ⟨some 2, .request 7 "z" sampleQuery⟩] =
      earlier ++ (⟨some 1, .request sentAt freshId' sampleAnnouncement⟩ :: later ++
        ⟨some 2, .request now freshId sampleQuery⟩ :: after)) :
    earlier = [⟨some 0, .request 5 "x" sampleCreation⟩] ∧ sentAt = 6 ∧ freshId' = "y" ∧
      later = [] := by
  cases earlier with
  | nil => simp at split
  | cons first earlier =>
      cases earlier with
      | nil =>
          cases later with
          | nil => simp_all
          | cons entry later => simp at split
      | cons second earlier =>
          cases earlier with
          | nil => simp at split
          | cons third earlier => simp at split

/-- The node that has announced the chunk is in the list that the query brings back. -/
theorem peer_query_end_to_end_sample :
    ∃ (final : Listener) (peers : List PeerInfo),
      Replied (sampleJsonParser.codecs sampleFloatText) sampleFloatText final sampleQuery 2
        (.ok (.peers peers)) ∧
      ⟨"n", "n:7100", "rack-A", 8000⟩ ∈ peers := by
  rcases sampleCalls with
    ⟨sooner, rest, middle, final, ranSooner, ranRest, length, log, told, answered⟩
  rcases peer_query_end_to_end announcementServer sampleJsonParser sampleFloatText sampleReread
    sampleJsonParser_readsBack (fun _ => "") sooner rest middle final ranSooner ranRest "x" "m" "rack-A"
    0 5 2 (Nat.le_of_eq length) _ _ answered rfl with
    ⟨before, now, freshId, after, job, candidates, split, _, _, found, same, _, announced⟩
  rcases announced 1 sampleAnnouncement _ _ false rfl told rfl with
    ⟨earlier, sentAt, freshId', later, front, named⟩
  rw [log, front, List.append_assoc] at split
  rcases sampleCalls_split split with ⟨rfl, rfl, rfl, rfl⟩
  have count : job.manifest.chunkCount = 2 := by
    have created : (Tracker.new.createJob "x" sampleManifest .rarityFirst).2.jobs.get? "x" =
        some (.new "x" sampleManifest .rarityFirst) := by
      rw [Tracker.get?_createJob, if_pos rfl]
    rw [front, Server.after_snoc, after_sampleCreation, Server.step_report rfl created] at found
    cases found
    rw [Job.afterReport_manifest]
    rfl
  have undisturbed : announcementServer.Undisturbed "x" "n" 6 [] :=
    ⟨by simp, by simp, by simp⟩
  have carries : Server.Carries job.manifest.chunkCount [128] 0 := by
    rw [count]
    unfold Server.Carries
    decide
  refine ⟨final, _, answered, ?_⟩
  rw [same]
  rcases named undisturbed ⟨by decide, carries⟩ with mem | ⟨full, _⟩
  · exact List.mem_map_of_mem mem
  · have one := congrArg List.length same
    rw [List.length_map, full] at one
    cases one

end ModelDistribution
