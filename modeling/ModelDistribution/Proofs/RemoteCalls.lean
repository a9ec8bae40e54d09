/-
Module: ModelDistribution.Proofs.RemoteCalls
Layer: Proofs
Purpose: A call of the tracker from end to end: a client that writes its request to a connection and
  reads what the task of the connection has written back when it has ended gets the response of that
  request, as it is read, and the request is handled exactly once. A request above the cap is never
  handled; the tracker closes the connection with the rest of it unread, so that the client need not
  see the refusal, but it gets no other response.
Imports: ModelDistribution.Proto.RemoteCall, ModelDistribution.Proofs.FrameSize,
  ModelDistribution.Proofs.FramedMessages, ModelDistribution.Proofs.ListenerHistory,
  ModelDistribution.Proofs.MessageCodec, ModelDistribution.Proofs.NonInterference
Trusted boundary: none
Main exports: Request.payload, Response.payload, refusal, decoded_of_front, sent_writeMsg_front,
  Called, Attempted, remote_call, create_job_end_to_end
-/
import ModelDistribution.Proto.RemoteCall
import ModelDistribution.Proofs.FrameSize
import ModelDistribution.Proofs.FramedMessages
import ModelDistribution.Proofs.ListenerHistory
import ModelDistribution.Proofs.MessageCodec
import ModelDistribution.Proofs.NonInterference

namespace ModelDistribution

open Foundation

/-- The bytes of a request behind its header. -/
def Request.payload (request : Request) : List UInt8 := request.toValue.toBytes noFloats

/-- The bytes of a response behind its header. -/
def Response.payload (floatText : JsonNumber → List Char) (response : Response) : List UInt8 :=
  response.ordered.toValue.toBytes floatText

/-- The refusal of a frame with a payload of this length. -/
def refusal (length : Nat) : DistError :=
  .proto s!"frame too large: {UInt32.ofNat length}"

/-! ### Frames on their way -/

section Frames

variable {codecs : Codecs} {parser : JsonParser} {floatText : JsonNumber → List Char}
  {reread : JsonNumber → JsonNumber}

/-- Nothing can be read where nothing has been written. -/
theorem readMsg_nothing {T : Type} {codec : Codec T} {stream : Fragmented IoError}
    (nothing : stream.fragments.flatten = []) :
    readMsg codec stream = .error (.io stream.ending) := by
  have whole := readU32_incoming stream
  have empty : readU32 (incoming stream) = .error stream.ending := by
    change readU32 stream.joined = _
    rw [Fragmented.joined, nothing]
    rfl
  rw [empty] at whole
  cases read : readU32 stream with
  | error e =>
      rw [read] at whole
      cases whole
      rw [readMsg, read]
  | ok result =>
      rw [read] at whole
      cases whole

theorem toNat_length_of_lt {payload : List UInt8} (small : payload.length < 2 ^ 32) :
    (UInt32.ofNat payload.length).toNat = payload.length :=
  UInt32.toNat_ofNat_of_lt' small

theorem isFrame_of_lt {payload : List UInt8} (small : payload.length < 2 ^ 32) :
    IsFrame (frame payload) := by
  refine ⟨_, payload, rfl, length_u32Bytes _, ?_⟩
  rw [bigEndian_u32Bytes, toNat_length_of_lt small]

/-- A message that is read from a front of a frame has taken all of it. -/
theorem decoded_of_front {T : Type} {codec : Codec T} {msg : T} {payload : List UInt8}
    {stream rest : Fragmented IoError} (small : payload.length < 2 ^ 32)
    (front : stream.fragments.flatten <+: frame payload)
    (read : readMsg codec stream = .ok (msg, rest)) : codec.fromSlice payload = .ok msg := by
  by_cases whole : stream.fragments.flatten = frame payload
  · rcases readMsg_consumed read with ⟨header, taken, fourBytes, length, _, decoded, consumed⟩
    have bytes : frame payload = header ++ (taken ++ rest.fragments.flatten) := by
      rw [← whole, ← List.append_assoc]
      exact consumed.bytes
    rcases List.append_inj bytes ((length_u32Bytes _).trans fourBytes.symm) with ⟨rfl, behind⟩
    rw [bigEndian_u32Bytes, toNat_length_of_lt small] at length
    rcases List.append_inj (behind.symm.trans (List.append_nil payload).symm) length with ⟨rfl, _⟩
    exact decoded
  · have cut : ∃ e, readMsg codec stream = .error e := readMsg_cutOff (isFrame_of_lt small) front whole
    rcases cut with ⟨e, failed⟩
    rw [failed] at read
    cases read

/-- Whatever becomes of the connection, a front of the frame is sent. -/
theorem sent_writeMsg_front {T : Type} {codec : Codec T} {msg : T} {payload : List UInt8}
    {out : Outgoing IoError} (unused : out.sent = [])
    (encoded : codec.toVec msg = .ok payload) : (writeMsg codec msg out).1.sent <+: frame payload := by
  rcases out with ⟨sent, fault⟩
  cases unused
  simp only [writeMsg, encoded, Outgoing.writeAll, List.nil_append]
  cases fault with
  | none => exact List.prefix_rfl
  | some limit =>
      rcases limit with ⟨room, error⟩
      by_cases fits : (frame payload).length ≤ room
      · simp only [if_pos fits]
        exact List.prefix_rfl
      · simp only [if_neg fits]
        exact List.take_prefix room (frame payload)

/-- A frame above the cap is refused as soon as its header has arrived. -/
theorem readMsg_refuses {T : Type} {codec : Codec T} {stream : Fragmented IoError}
    {payload : List UInt8} (small : payload.length < 2 ^ 32) (large : maxFrame < payload.length)
    (front : stream.fragments.flatten <+: frame payload)
    (header : 4 ≤ stream.fragments.flatten.length) :
    readMsg codec stream = .error (refusal payload.length) := by
  have first : u32Bytes (UInt32.ofNat payload.length) <+: stream.fragments.flatten := by
    apply List.prefix_of_prefix_length_le (List.prefix_append _ payload) front
    rw [length_u32Bytes]
    exact header
  obtain ⟨behind, split⟩ := first
  have arrives : (incoming stream).bytes = u32Bytes (UInt32.ofNat payload.length) ++ behind :=
    split.symm
  apply readMsg_tooLarge arrives
  rw [toNat_length_of_lt small]
  exact large

theorem header_le_frame (payload : List UInt8) : 4 ≤ (frame payload).length := by
  rw [frame, List.length_append, length_u32Bytes]
  omega

/-- The order of its members does not matter for reading a response. -/
theorem Response.Readable.ordered {response : Response} (readable : response.Readable) :
    response.ordered.Readable := by
  intro body carried
  cases response with
  | status body' =>
      rcases List.mem_singleton.mp carried with rfl
      exact Json.within_ordered _ (readable body' List.mem_cons_self)
  | jobList jobs =>
      rcases List.mem_map.mp carried with ⟨job, mem, rfl⟩
      exact Json.within_ordered _ (readable job mem)
  | jobCreated => cases carried
  | heartbeatAck => cases carried
  | peers => cases carried
  | ok => cases carried
  | error => cases carried

/-- A response that fits is read. -/
theorem readMsg_response (reads : ReadsBack floatText 127 reread parser.read) {response : Response}
    (readable : response.Readable) {stream : Fragmented IoError}
    (fits : (response.payload floatText).length ≤ maxFrame)
    (arrives : stream.fragments.flatten = frame (response.payload floatText)) :
    (readMsg (parser.responses floatText) stream).map Prod.fst =
      .ok (response.ordered.asRead reread) := by
  have decoded : (parser.responses floatText).fromSlice (response.payload floatText) =
      .ok (response.ordered.asRead reread) := JsonParser.responses_asRead reads readable.ordered
  have front : (incoming stream).bytes =
      u32Bytes (UInt32.ofNat (response.payload floatText).length) ++
        (response.payload floatText ++ []) := by
    rw [List.append_nil]
    exact arrives
  have length := toNat_length_of_le fits
  have bounded : (UInt32.ofNat (response.payload floatText).length).toNat ≤ maxFrame := by
    rw [length]
    exact fits
  rcases readMsg_front front length.symm bounded decoded with ⟨rest, read, _⟩
  rw [read]
  rfl

/-- A response that is read from a front of its frame is that response, as it is read. -/
theorem read_of_front (reads : ReadsBack floatText 127 reread parser.read) {given got : Response}
    (readable : given.Readable) (small : (given.payload floatText).length < 2 ^ 32)
    {back rest : Fragmented IoError}
    (front : back.fragments.flatten <+: frame (given.payload floatText))
    (read : readMsg (parser.responses floatText) back = .ok (got, rest)) :
    got = given.ordered.asRead reread := by
  have decoded := decoded_of_front small front read
  have own : (parser.responses floatText).fromSlice (given.payload floatText) =
      .ok (given.ordered.asRead reread) := JsonParser.responses_asRead reads readable.ordered
  rw [own] at decoded
  cases decoded
  rfl

/-- A request that fits is read. -/
theorem readMsg_request (reads : ReadsBack floatText 127 reread parser.read) {request : Request}
    {stream : Fragmented IoError} (fits : request.payload.length ≤ maxFrame)
    (arrives : stream.fragments.flatten = frame request.payload) :
    ∃ rest, readMsg parser.requests stream = .ok (request, rest) := by
  have whole : (incoming stream).bytes = frame request.payload ++ [] := by
    rw [List.append_nil]
    exact arrives
  rcases readMsg_frame (JsonParser.requests_roundTrip reads) rfl fits whole with ⟨rest, read, _⟩
  exact ⟨rest, read⟩

/-- The text of a refusal is far below the cap. -/
theorem refusal_fits (length : Nat) :
    ((Response.error (refusal length).toString).payload floatText).length ≤ maxFrame := by
  have digits : (UInt32.ofNat length).toNat.repr.length ≤ 10 :=
    (Nat.length_repr_le_iff (by decide)).mpr
      (Nat.lt_trans (UInt32.ofNat length).toNat_lt (by decide))
  have short : (refusal length).toString.length ≤ 100 := by
    change ("protocol error: " ++ ("frame too large: " ++ (UInt32.ofNat length).toNat.repr)).length ≤ _
    rw [String.length_append, String.length_append]
    have texts : "protocol error: ".length = 16 ∧ "frame too large: ".length = 17 := by decide
    omega
  have size := Json.textSize_le (refusal length).toString
  have counted : ((Response.error (refusal length).toString).payload floatText).length =
      27 + textSize (refusal length).toString := by
    rw [Response.payload, Json.length_toBytes]
    exact Response.size_toValue floatText (.error _)
  rw [counted, maxFrame]
  omega

end Frames

/-! ### What the client makes of a reply -/

section Client

variable {reread : JsonNumber → JsonNumber} {reply : Reply} {debugText : Response → String}

theorem TrackerClient.heartbeat_eq_ok {jobComplete : Bool}
    (returned : TrackerClient.heartbeat debugText reply = .ok jobComplete) :
    reply = .ok (.heartbeatAck jobComplete) := by
  cases reply with
  | error e => cases returned
  | ok response =>
      cases response with
      | heartbeatAck acknowledged =>
          cases returned
          rfl
      | _ => cases returned

theorem TrackerClient.getPeers_eq_ok {peers : List PeerInfo}
    (returned : TrackerClient.getPeers debugText reply = .ok peers) :
    reply = .ok (.peers peers) := by
  cases reply with
  | error e => cases returned
  | ok response =>
      cases response with
      | peers named =>
          cases returned
          rfl
      | _ => cases returned

/-- Reading changes nothing in a list of peers. -/
theorem asRead_peers {given : Response} {peers : List PeerInfo}
    (read : .peers peers = given.ordered.asRead reread) : given = .peers peers := by
  cases given with
  | peers named =>
      cases read
      rfl
  | _ => cases read

end Client

/-! ### A call over one connection -/

/-- A call whose task at the tracker has ended. The client has written its request to the connection and
reads what has come back over it; the way back holds. -/
structure Called (codecs : Codecs) (final : Listener) (request : Request) (k : Nat)
    (connection : Connection) (back : Fragmented IoError) (response : Option Response) : Prop where
  found : final.connections[k]? = some connection
  delivered : connection.stream.fragments.flatten =
    (TrackerClient.sendRecv codecs request .reliable back).1.sent
  holds : connection.out = .reliable
  ended : ∃ out result, connection.pc = .closed response out result ∧
    back.fragments.flatten = out.sent

/-- What the task of the connection has written. -/
def Connection.written (connection : Connection) : List UInt8 :=
  match connection.pc with
  | .closed _ out _ => out.sent
  | _ => connection.out.sent

/-- A call over a connection that may break at any point. A front of the request has arrived, at least
its header, and a front of what has been written for it comes back. -/
structure Attempted (final : Listener) (request : Request) (k : Nat) (connection : Connection)
    (back : Fragmented IoError) : Prop where
  found : final.connections[k]? = some connection
  front : connection.stream.fragments.flatten <+: frame request.payload
  header : 4 ≤ connection.stream.fragments.flatten.length
  unused : connection.out.sent = []
  returned : back.fragments.flatten <+: connection.written

/-- What the tracker answers to a request that it has heard behind the given part of the log; nothing
when answering has raised a panic. -/
def Answers (server : Server) (log before : List Logged) (k now : Nat) (freshId : String)
    (request : Request) : Option Response → Prop
  | none => ∃ panic, (server.dispatch (server.after before) now freshId request).2 = .error panic
  | some response =>
      (server.dispatch (server.after before) now freshId request).2 = .ok response ∨
        Acknowledges server log before k now freshId request response

/-- What a client makes of a way back on which the tracker has tried to answer. -/
structure RepliedTo (floatText : JsonNumber → List Char) (reread : JsonNumber → JsonNumber)
    (reply : Reply) (ending : IoError) (answer : Option Response) : Prop where
  nothing : answer = none → reply = .error (.io ending)
  read : ∀ response, answer = some response → (response.payload floatText).length ≤ maxFrame →
    reply = .ok (response.ordered.asRead reread)
  refused : ∀ response, answer = some response → maxFrame < (response.payload floatText).length →
    (response.payload floatText).length < 2 ^ 32 →
    reply = .error (refusal (response.payload floatText).length)

section Called

variable {server : Server} {parser : JsonParser} {floatText : JsonNumber → List Char}
  {reread : JsonNumber → JsonNumber} {final : Listener} {log before : List Logged} {k now : Nat}
  {freshId : String} {request : Request} {connection : Connection} {back : Fragmented IoError}
  {answer : Option Response}

/-- What a client sends and gets over a way that holds. -/
theorem sendRecv_reliable (parser : JsonParser) (floatText : JsonNumber → List Char)
    (request : Request) (back : Fragmented IoError) :
    TrackerClient.sendRecv (parser.codecs floatText) request .reliable back =
      ({ sent := frame request.payload, fault := none },
       (readMsg (parser.responses floatText) back).map Prod.fst) := by
  have written : writeMsg (parser.codecs floatText).requests request .reliable =
      ({ sent := frame request.payload, fault := none }, .ok ()) := writeMsg_reliable rfl
  rw [TrackerClient.sendRecv, written]
  rfl

/-- A response that a client gets was read from what has come back, whatever became of its request. -/
theorem read_of_sendRecv {codecs : Codecs} {out : Outgoing IoError} {response : Response}
    (got : (TrackerClient.sendRecv codecs request out back).2 = .ok response) :
    ∃ rest, readMsg codecs.responses back = .ok (response, rest) := by
  unfold TrackerClient.sendRecv at got
  split at got
  · cases got
  · cases read : readMsg codecs.responses back with
    | error e =>
        rw [read] at got
        cases got
    | ok result =>
        rw [read] at got
        cases got
        exact ⟨result.2, rfl⟩

/-- All that the tracker answers can be read. -/
theorem Answers.readable {response : Response}
    (answers : Answers server log before k now freshId request (some response)) :
    response.Readable := by
  rcases answers with atomic | acknowledges
  · exact Server.readable_dispatch (Prod.ext rfl atomic)
  · rcases acknowledges.status with ⟨_, _, _, _, _, _, status⟩
    intro body carried
    rw [status] at carried
    cases carried

/-- The reply when the tracker has written nothing. -/
theorem repliedTo_nothing (nothing : back.fragments.flatten = []) :
    RepliedTo floatText reread ((readMsg (parser.responses floatText) back).map Prod.fst)
      back.ending none where
  nothing _ := by
    rw [readMsg_nothing nothing]
    rfl
  read _ same := by cases same
  refused _ same := by cases same

/-- The reply when the tracker has written a response over a way that holds. -/
theorem repliedTo_written {response : Response}
    (reads : ReadsBack floatText 127 reread parser.read) (readable : response.Readable)
    (returned : back.fragments.flatten =
      (writeMsg (parser.responses floatText) response.ordered .reliable).1.sent) :
    RepliedTo floatText reread ((readMsg (parser.responses floatText) back).map Prod.fst)
      back.ending (some response) := by
  have encoded : (parser.responses floatText).toVec response.ordered =
      .ok (response.payload floatText) := rfl
  rw [writeMsg_reliable encoded] at returned
  constructor
  · intro same
    cases same
  · intro _ same fits
    cases same
    exact readMsg_response reads readable fits returned
  · intro _ same large small
    cases same
    have whole : back.fragments.flatten <+: frame (response.payload floatText) :=
      returned ▸ List.prefix_rfl
    rw [readMsg_refuses small large whole (returned ▸ header_le_frame _)]
    rfl

/-- A call whose request is read: it is handled, and its reply is made of the response. -/
theorem Called.handled (reads : ReadsBack floatText 127 reread parser.read)
    (linear : final.Linear server (parser.codecs floatText))
    (called : Called (parser.codecs floatText) final request k connection back answer)
    (read : ∃ rest, readMsg parser.requests connection.stream = .ok (request, rest)) :
    ∃ before now freshId,
      HeardAs (parser.codecs floatText) final.log k connection before now freshId request ∧
      Answers server final.log before k now freshId request answer ∧
      RepliedTo floatText reread ((readMsg (parser.responses floatText) back).map Prod.fst)
        back.ending answer := by
  rcases read with ⟨rest, read⟩
  -- what was heard over the connection is what was read from it
  have same : ∀ {before now freshId other},
      HeardAs (parser.codecs floatText) final.log k connection before now freshId other →
      other = request := by
    intro before now freshId other heard
    rcases heard.read with ⟨left, read'⟩
    cases read.symm.trans read'
    rfl
  have sound := linear.connections k connection called.found
  rcases called.ended with ⟨out, result, ended, returned⟩
  rw [Connection.Sound, ended] at sound
  cases answer with
  | none =>
      rcases sound with ⟨rfl, panic, before, now, freshId, other, _, heard, raised⟩
      cases same heard
      rw [called.holds] at returned
      exact ⟨before, now, freshId, heard, ⟨panic, raised⟩, repliedTo_nothing returned⟩
  | some response =>
      rcases sound with ⟨e, failed, _⟩ | ⟨answered, rfl, _⟩
      · cases read.symm.trans failed
      · rcases answered with ⟨before, now, freshId, other, heard, answers⟩
        cases same heard
        rw [called.holds] at returned
        have answers : Answers server final.log before k now freshId request (some response) :=
          answers
        exact ⟨before, now, freshId, heard, answers,
          repliedTo_written reads answers.readable returned⟩

/-- A call over a way that holds is one over a way that may break. -/
theorem Called.attempted
    (called : Called (parser.codecs floatText) final request k connection back answer) :
    Attempted final request k connection back := by
  have arrives := called.delivered
  rw [sendRecv_reliable] at arrives
  rcases called.ended with ⟨out, result, ended, returned⟩
  constructor
  · exact called.found
  · exact arrives ▸ List.prefix_rfl
  · exact arrives ▸ header_le_frame _
  · rw [called.holds]
    rfl
  · have written : connection.written = back.fragments.flatten := by
      rw [Connection.written, ended, returned]
    exact written ▸ List.prefix_rfl

/-- A call whose request is too large: it is not handled, the task ends with the refusal, and nothing
else is ever read by the client. -/
theorem Attempted.refused (reads : ReadsBack floatText 127 reread parser.read)
    (linear : final.Linear server (parser.codecs floatText))
    (attempted : Attempted final request k connection back)
    (failed : readMsg parser.requests connection.stream =
      .error (refusal request.payload.length)) :
    Unheard final.log k ∧
    (∀ response out result, connection.pc = .closed response out result →
      response = some (.error (refusal request.payload.length).toString)) ∧
    ∀ response rest, readMsg (parser.responses floatText) back = .ok (response, rest) →
      response = .error (refusal request.payload.length).toString := by
  have unread : ∀ {before now freshId other},
      ¬ HeardAs (parser.codecs floatText) final.log k connection before now freshId other := by
    intro before now freshId other heard
    rcases heard.read with ⟨left, read⟩
    cases failed.symm.trans read
  -- nothing can be read as long as nothing has been written
  have silent : connection.written = [] → ∀ response rest,
      readMsg (parser.responses floatText) back ≠ .ok (response, rest) := by
    intro nothing response rest read
    have returned := attempted.returned
    rw [nothing, List.prefix_nil] at returned
    rw [readMsg_nothing returned] at read
    cases read
  have sound := linear.connections k connection attempted.found
  unfold Connection.Sound at sound
  unfold Connection.written at silent
  have unused := attempted.unused
  cases pc : connection.pc with
  | reading =>
      rw [pc] at sound silent
      refine ⟨sound, (by intro _ _ _ same; cases same), ?_⟩
      intro response rest read
      exact absurd read (silent unused response rest)
  | refusing e =>
      rw [pc] at sound silent
      refine ⟨sound.2, (by intro _ _ _ same; cases same), ?_⟩
      intro response rest read
      exact absurd read (silent unused response rest)
  | updated jobId =>
      rw [pc] at sound
      rcases sound with ⟨_, _, _, _, _, _, heard, _⟩
      exact absurd heard unread
  | answering response =>
      rw [pc] at sound
      rcases sound with ⟨_, _, _, _, heard, _⟩
      exact absurd heard unread
  | closed answer out result =>
      rw [pc] at sound
      cases answer with
      | none =>
          rcases sound with ⟨_, _, _, _, _, _, _, heard, _⟩
          exact absurd heard unread
      | some answer =>
          rcases sound with ⟨e, failed', unheard, rfl, _, rfl⟩ | ⟨⟨_, _, _, _, heard, _⟩, _⟩
          · cases failed.symm.trans failed'
            refine ⟨unheard, ?_, ?_⟩
            · intro _ _ _ same
              cases same
              rfl
            · intro response rest read
              have front := attempted.returned
              rw [Connection.written, pc] at front
              have readable : (Response.error (refusal request.payload.length).toString).Readable := by
                intro body carried
                cases carried
              have short : ((Response.error (refusal request.payload.length).toString).payload
                  floatText).length < 2 ^ 32 :=
                Nat.lt_of_le_of_lt (refusal_fits _) (by decide)
              exact read_of_front reads readable short
                (front.trans (sent_writeMsg_front unused rfl)) read
          · exact absurd heard unread

end Called

/-! ### A call can always be served -/

/-- The acknowledgement of a heartbeat reads the status right behind it. -/
theorem acknowledged_status {server : Server} {tracker : Tracker} {now : Nat} {freshId jobId : String}
    {request : Request} {report : NodeReport} {jobComplete : Bool}
    (reported : Server.reportOf request = some (jobId, report))
    (answered : (server.dispatch tracker now freshId request).2 =
      .ok (.heartbeatAck jobComplete)) :
    jobComplete = (server.step tracker (.request now freshId request)).jobComplete jobId := by
  cases request with
  | heartbeat other nodeId rackId peerAddr bitmapBytes uploadBwMbps =>
      cases reported
      cases updated : tracker.updateNode server.layouts now jobId
          { nodeId, rackId, peerAddr, bitmapBytes, uploadBwMbps } with
      | error e =>
          simp only [Server.dispatch, updated] at answered
          cases answered
      | ok after =>
          simp only [Server.dispatch, updated] at answered
          simp only [Server.step, Server.dispatch, updated, Tracker.jobComplete]
          cases answered
          cases known : after.getJob jobId with
          | ok job => rfl
          | error e => rfl
  | _ => cases reported

/-- Whatever the other connections are at, one with a request can be served by its two steps, or three
when it brings a heartbeat. -/
theorem served_accepted {server : Server} {codecs : Codecs} {request : Request} {response : Response}
    {rest : Fragmented IoError} {listener : Listener} {k : Nat} {connection : Connection}
    (found : listener.connections[k]? = some connection) (reading : connection.pc = .reading)
    (now : Nat) (freshId : String)
    (read : readMsg codecs.requests connection.stream = .ok (request, rest))
    (answered : (server.dispatch listener.tracker now freshId request).2 = .ok response) :
    ∃ events final,
      (∀ event ∈ events, event = .read k now freshId ∨ event = .status k ∨ event = .write k) ∧
      runEvents (Listener.step server codecs) listener events = some final ∧
      final.tracker = server.step listener.tracker (.request now freshId request) ∧
      final.log = listener.log ++ [⟨some k, .request now freshId request⟩] ∧
      final.connections = listener.connections.set k { connection with
        pc := .closed (some response) (writeMsg codecs.responses response.ordered connection.out).1
          (.ok (writeMsg codecs.responses response.ordered connection.out).2) } := by
  rcases begin_spec server listener.tracker now freshId connection.out request with ⟨after, spec⟩
  rcases List.getElem?_eq_some_iff.mp found with ⟨inside, here⟩
  cases begun : server.begin listener.tracker now freshId connection.out request with
  | mk tracker pc =>
      simp only [begun] at after spec
      cases spec with
      | answering answered' =>
          rw [answered, Except.ok.injEq] at answered'
          subst answered'
          refine ⟨[.read k now freshId, .write k], ?_⟩
          simp [runEvents, Listener.step, Listener.put, here, inside, reading, read, begun, after]
      | updated reported answered' =>
          have status := acknowledged_status reported answered'
          rw [← after] at status
          rw [answered, Except.ok.injEq] at answered'
          subst answered'
          refine ⟨[.read k now freshId, .status k, .write k], ?_⟩
          simp [runEvents, Listener.step, Listener.put, here, inside, reading, read, begun, after,
            status]
      | panicked raised =>
          rw [answered] at raised
          cases raised

/-- A new connection can be served. -/
theorem served {server : Server} {codecs : Codecs} {request : Request} {response : Response}
    {stream rest : Fragmented IoError} (listener : Listener) (now : Nat) (freshId : String)
    (read : readMsg codecs.requests stream = .ok (request, rest))
    (answered : (server.dispatch listener.tracker now freshId request).2 = .ok response) :
    ∃ events final connection,
      runEvents (Listener.step server codecs) listener events = some final ∧
      final.log = listener.log ++ [⟨some listener.connections.length, .request now freshId request⟩] ∧
      final.connections.length = listener.connections.length + 1 ∧
      final.connections[listener.connections.length]? = some connection ∧
      connection.stream = stream ∧ connection.out = .reliable ∧
      ∃ result, connection.pc = .closed (some response)
        (writeMsg codecs.responses response.ordered .reliable).1 result := by
  let opened : Connection := { stream, out := .reliable, pc := .reading }
  let accepted : Listener :=
    { listener with connections := listener.connections ++ [opened] }
  have found : accepted.connections[listener.connections.length]? = some opened :=
    List.getElem?_concat_length
  rcases served_accepted found rfl now freshId read answered with
    ⟨events, final, _, ran, _, log, connections⟩
  have closed : final.connections[listener.connections.length]? = some { opened with
      pc := .closed (some response) (writeMsg codecs.responses response.ordered .reliable).1
        (.ok (writeMsg codecs.responses response.ordered .reliable).2) } := by
    rw [connections]
    exact List.getElem?_set_self (List.getElem?_eq_some_iff.mp found).1
  refine ⟨.accept stream .reliable :: events, final, _,
    runEvents_cons_eq_some.mpr ⟨accepted, rfl, ran⟩, log, ?_, closed, rfl, rfl, _, rfl⟩
  rw [connections, List.length_set, List.length_append, List.length_singleton]

/-- The call that `served` serves. -/
theorem called_of_served {server : Server} {parser : JsonParser} {floatText : JsonNumber → List Char}
    {reread : JsonNumber → JsonNumber} {request : Request} {response : Response}
    (reads : ReadsBack floatText 127 reread parser.read) (listener : Listener) (now : Nat)
    (freshId : String) (fits : request.payload.length ≤ maxFrame)
    (answered : (server.dispatch listener.tracker now freshId request).2 = .ok response)
    (ending : IoError) :
    ∃ (events : List ListenerEvent) (final : Listener) (connection : Connection)
      (back : Fragmented IoError),
      runEvents (Listener.step server (parser.codecs floatText)) listener events = some final ∧
      final.log = listener.log ++ [⟨some listener.connections.length, .request now freshId request⟩] ∧
      final.connections.length = listener.connections.length + 1 ∧
      Called (parser.codecs floatText) final request listener.connections.length connection back
        (some response) := by
  let stream : Fragmented IoError := { fragments := [frame request.payload], ending }
  have arrives : stream.fragments.flatten = frame request.payload := List.append_nil _
  rcases readMsg_request reads fits arrives with ⟨rest, read⟩
  let codecs := parser.codecs floatText
  have read : readMsg codecs.requests stream = .ok (request, rest) := read
  rcases served listener now freshId read answered with
    ⟨events, final, connection, ran, log, length, found, sent, holds, result, ended⟩
  let back : Fragmented IoError :=
    { fragments := [(writeMsg codecs.responses response.ordered .reliable).1.sent], ending }
  refine ⟨events, final, connection, back, ran, log, length, ?_⟩
  constructor
  · exact found
  · rw [sendRecv_reliable, sent]
    exact arrives
  · exact holds
  · exact ⟨_, result, ended, List.append_nil _⟩

section CreateJob

variable {layouts : TableLayouts} {parser : JsonParser} {floatText : JsonNumber → List Char}
  {reread : JsonNumber → JsonNumber} {log before : List Logged} {k now : Nat}
  {freshId policyText : String} {manifest : Manifest} {answer : Option Response}

/-- The tracker that parses manifests with the parser of its messages. -/
def JsonParser.server (parser : JsonParser) (layouts : TableLayouts) : Server where
  layouts := layouts
  manifestFromSlice := parser.manifest

theorem deserialise_serialise (layouts : TableLayouts) (manifest : Manifest)
    (reads : ReadsBack floatText 127 reread parser.read) :
    (parser.server layouts).deserialise manifest.serialise = .ok manifest :=
  Server.deserialise_eq_ok (JsonParser.manifest_serialise reads manifest)

/-- The answer to the creation of a job with a readable manifest. -/
def creationAnswer (freshId policyText : String) : Response :=
  match SchedulingPolicy.fromStr policyText with
  | .ok _ => .jobCreated freshId
  | .error e => .error e.toString

theorem dispatch_createJobRequest (layouts : TableLayouts)
    (reads : ReadsBack floatText 127 reread parser.read) (tracker : Tracker) :
    ((parser.server layouts).dispatch tracker now freshId
      (TrackerClient.createJobRequest manifest policyText)).2 =
      .ok (creationAnswer freshId policyText) := by
  have parsed := deserialise_serialise layouts manifest reads
  unfold creationAnswer
  cases known : SchedulingPolicy.fromStr policyText with
  | ok policy => exact Server.dispatch_createJob parsed known
  | error e => simp only [TrackerClient.createJobRequest, Server.dispatch, parsed, known]

theorem Answers.creation (reads : ReadsBack floatText 127 reread parser.read)
    (answers : Answers (parser.server layouts) log before k now freshId
      (TrackerClient.createJobRequest manifest policyText) answer) :
    answer = some (creationAnswer freshId policyText) := by
  cases answer with
  | none =>
      rcases answers with ⟨panic, raised⟩
      rw [dispatch_createJobRequest layouts reads] at raised
      cases raised
  | some response =>
      rcases answers with atomic | acknowledges
      · rw [dispatch_createJobRequest layouts reads] at atomic
        cases atomic
        rfl
      · rcases acknowledges.status with ⟨_, _, _, _, carried, _, _⟩
        cases carried

/-- The request has created the job at its place in the log, and what it has stored stays until the
identifier is drawn again. -/
def CreatedBy (server : Server) (final : Listener) (k : Nat) (request : Request) (jobId : String)
    (manifest : Manifest) (policy : SchedulingPolicy) : Prop :=
  ∃ before after now, Unheard before k ∧ Unheard after k ∧
    final.log = before ++ ⟨some k, .request now jobId request⟩ :: after ∧
    (server.after (before ++ [⟨some k, .request now jobId request⟩])).jobs.get? jobId =
      some (.new jobId manifest policy) ∧
    ((∀ entry ∈ after, Server.NoReuse jobId entry.event) →
      ∃ job, final.tracker.jobs.get? jobId = some job ∧ job.manifest = manifest ∧
        job.policy = policy)

/-- A creation that has been heard has stored the job when its policy is known. -/
theorem HeardAs.created {final : Listener} {connection : Connection} {policy : SchedulingPolicy}
    {codecs : Codecs} (reads : ReadsBack floatText 127 reread parser.read)
    (linear : final.Linear (parser.server layouts) codecs)
    (heard : HeardAs codecs final.log k connection before now freshId
      (TrackerClient.createJobRequest manifest policyText))
    (known : SchedulingPolicy.fromStr policyText = .ok policy) :
    CreatedBy (parser.server layouts) final k (TrackerClient.createJobRequest manifest policyText)
      freshId manifest policy := by
  rcases heard.later with ⟨after, split, unheard⟩
  have parsed := deserialise_serialise layouts manifest reads
  have stored : ((parser.server layouts).after (before ++ [⟨some k, .request now freshId
      (TrackerClient.createJobRequest manifest policyText)⟩])).jobs.get? freshId =
      some (.new freshId manifest policy) := by
    have stepped := Server.step_createJob ((parser.server layouts).after before) now freshId parsed
      known
    rw [Server.after_snoc, TrackerClient.createJobRequest, stepped, Tracker.get?_createJob,
      if_pos rfl]
  refine ⟨before, after, now, heard.earlier, unheard, split, stored, ?_⟩
  intro noReuse
  have whole : final.tracker = (after.map Logged.event).foldl (parser.server layouts).step
      ((parser.server layouts).after (before ++ [⟨some k, .request now freshId
        (TrackerClient.createJobRequest manifest policyText)⟩])) := by
    rw [linear.tracker, split, Server.after, Server.after, ← Server.run_append, ← List.map_append,
      List.append_assoc, List.singleton_append]
  rw [whole]
  apply Server.manifest_policy_run _ stored
  intro event mem
  rcases List.mem_map.mp mem with ⟨other, inAfter, rfl⟩
  exact noReuse other inAfter

/-- What the client makes of its reply, from the answer of the tracker. -/
theorem createJob_of_repliedTo (debugText : Response → String) {reply : Reply} {ending : IoError}
    (replied : RepliedTo floatText reread reply ending (some (creationAnswer freshId policyText)))
    (small : ((creationAnswer freshId policyText).payload floatText).length < 2 ^ 32) :
    (∀ jobId, TrackerClient.createJob debugText reply = .ok jobId →
      jobId = freshId ∧ ∃ policy, SchedulingPolicy.fromStr policyText = .ok policy) ∧
    (((creationAnswer freshId policyText).payload floatText).length ≤ maxFrame →
      ∀ policy, SchedulingPolicy.fromStr policyText = .ok policy →
        TrackerClient.createJob debugText reply = .ok freshId) := by
  constructor
  · intro jobId returned
    rcases Nat.lt_or_ge maxFrame ((creationAnswer freshId policyText).payload floatText).length
      with large | fits
    · rw [replied.refused _ rfl large small] at returned
      cases returned
    · rw [replied.read _ rfl fits, creationAnswer] at returned
      cases known : SchedulingPolicy.fromStr policyText with
      | ok policy =>
          rw [known] at returned
          cases returned
          exact ⟨rfl, policy, rfl⟩
      | error e =>
          rw [known] at returned
          cases returned
  · intro fits policy known
    rw [replied.read _ rfl fits, creationAnswer, known]
    rfl

end CreateJob

/-- Creating a job from end to end, whatever other clients do meanwhile, with what the tracker does
for one request taken as one atomic step. The call of the client builds the manifest of its file.
Where its request is up to the cap and its task at the tracker has ended, it returns an identifier
only when the tracker has handled the request, once, and has stored the job with exactly this manifest
and policy under that identifier, where both stay until the identifier is drawn again; and it returns
one whenever the policy is known and the response is up to the cap as well. A request above the cap is
never handled, and the call fails wherever the connection breaks. -/
theorem create_job_end_to_end (layouts : TableLayouts) (parser : JsonParser)
    (floatText : JsonNumber → List Char) (reread : JsonNumber → JsonNumber)
    (reads : ReadsBack floatText 127 reread parser.read) (events : List ListenerEvent)
    (final : Listener)
    (ran : runEvents (Listener.step (parser.server layouts) (parser.codecs floatText)) .start events =
      some final)
    (debugText : Response → String) (profile : Profile) (sha256 : List UInt8 → List UInt8)
    (fileId version policyText : String) (data : List UInt8) (chunkSize : UInt64)
    (manifest : Manifest)
    (built : Manifest.build profile sha256 fileId version data chunkSize = .ok (.ok manifest))
    (request : Request) (asked : request = TrackerClient.createJobRequest manifest policyText)
    (k : Nat) (connection : Connection) (back : Fragmented IoError)
    (small : request.payload.length < 2 ^ 32) :
    (request.payload.length ≤ maxFrame →
      ∀ answer, Called (parser.codecs floatText) final request k connection back answer →
      (∀ response, answer = some response → (response.payload floatText).length < 2 ^ 32) →
      ∃ out result,
        TrackerClient.createJobOver debugText profile sha256 (parser.codecs floatText) (.ok data)
          fileId version chunkSize policyText .reliable back = .ok (out, result) ∧
        (∀ jobId, result = .ok jobId → ∃ policy,
          SchedulingPolicy.fromStr policyText = .ok policy ∧
          CreatedBy (parser.server layouts) final k request jobId manifest policy) ∧
        ((∀ response, answer = some response → (response.payload floatText).length ≤ maxFrame) →
          ∀ policy, SchedulingPolicy.fromStr policyText = .ok policy →
            ∃ jobId, result = .ok jobId)) ∧
    (maxFrame < request.payload.length → Attempted final request k connection back →
      Unheard final.log k ∧
      ∀ out, ∃ after e,
        TrackerClient.createJobOver debugText profile sha256 (parser.codecs floatText) (.ok data)
          fileId version chunkSize policyText out back = .ok (after, .error e)) := by
  subst asked
  have linear := linear_of_run ran
  have called_over : ∀ out,
      TrackerClient.createJobOver debugText profile sha256 (parser.codecs floatText) (.ok data)
        fileId version chunkSize policyText out back =
      .ok ((TrackerClient.sendRecv (parser.codecs floatText)
          (TrackerClient.createJobRequest manifest policyText) out back).1,
        TrackerClient.createJob debugText (TrackerClient.sendRecv (parser.codecs floatText)
          (TrackerClient.createJobRequest manifest policyText) out back).2) := by
    intro out
    rw [TrackerClient.createJobOver, built]
    simp only [bind, Except.bind, pure, Except.pure]
  constructor
  · intro fits answer called smallAnswer
    have arrives := called.delivered
    rw [sendRecv_reliable] at arrives
    rcases called.handled reads linear (readMsg_request reads fits arrives) with
      ⟨before, now, freshId, heard, answers, replied⟩
    have given := answers.creation reads
    subst given
    have outcome := createJob_of_repliedTo debugText replied (smallAnswer _ rfl)
    refine ⟨_, _, called_over .reliable, ?_, ?_⟩
    · intro jobId returned
      rw [sendRecv_reliable] at returned
      rcases outcome.1 jobId returned with ⟨rfl, policy, known⟩
      exact ⟨policy, known, heard.created reads linear known⟩
    · intro fitsAnswer policy known
      rw [sendRecv_reliable]
      exact ⟨freshId, outcome.2 (fitsAnswer _ rfl) policy known⟩
  · intro large attempted
    rcases attempted.refused reads linear
      (readMsg_refuses small large attempted.front attempted.header) with ⟨unheard, _, only⟩
    refine ⟨unheard, ?_⟩
    intro out
    have fails : ∃ e, TrackerClient.createJob debugText (TrackerClient.sendRecv
        (parser.codecs floatText) (TrackerClient.createJobRequest manifest policyText) out back).2 =
        .error e := by
      cases got : (TrackerClient.sendRecv (parser.codecs floatText)
          (TrackerClient.createJobRequest manifest policyText) out back).2 with
      | error e => exact ⟨e, rfl⟩
      | ok response =>
          rcases read_of_sendRecv got with ⟨rest, read⟩
          rw [only response rest read]
          exact ⟨_, rfl⟩
    rcases fails with ⟨e, failed⟩
    exact ⟨_, e, by rw [called_over out, failed]⟩

/-- A file of three bytes in two chunks. -/
theorem create_job_end_to_end_sample :
    ∃ (manifest : Manifest) (final : Listener) (jobId : String),
      Manifest.build .debug (fun _ => [171]) "model" "1.0" [1, 2, 3] 2 = .ok (.ok manifest) ∧
      CreatedBy (sampleJsonParser.server sampleServer.layouts) final 0
        (TrackerClient.createJobRequest manifest "rarity-first") jobId manifest .rarityFirst := by
  have built : Manifest.build .debug (fun _ => [171]) "model" "1.0" [1, 2, 3] 2 =
      .ok (.ok ⟨"model", "1.0", 3, 2, 2, ["ab", "ab"]⟩) := by
    decide +kernel
  generalize sample : (⟨"model", "1.0", 3, 2, 2, ["ab", "ab"]⟩ : Manifest) = manifest at built
  have length : (TrackerClient.createJobRequest manifest "rarity-first").payload.length ≤ 2000 := by
    have bound := (createJobRequest_bounds manifest "rarity-first").2
    have size : manifest.wireSize ≤ 400 := by
      rw [← sample]
      decide
    have policy : textSize "rarity-first" = 14 := by decide
    rw [Request.payload, Json.length_toBytes, Request.size_toValue]
    omega
  have fits : (TrackerClient.createJobRequest manifest "rarity-first").payload.length ≤ maxFrame :=
    Nat.le_trans length (by decide)
  have small : (TrackerClient.createJobRequest manifest "rarity-first").payload.length < 2 ^ 32 :=
    Nat.lt_of_le_of_lt length (by decide)
  have answerFits : ((Response.jobCreated "x").payload sampleFloatText).length ≤ maxFrame := by
    rw [Response.payload, Json.length_toBytes, Response.size_toValue]
    decide
  rcases called_of_served sampleJsonParser_readsBack .start 5 "x" fits
      (dispatch_createJobRequest sampleServer.layouts sampleJsonParser_readsBack .new)
      ⟨.unexpectedEof, "early eof"⟩ with ⟨events, final, connection, back, ran, _, _, called⟩
  have only : ∀ response, some (creationAnswer "x" "rarity-first") = some response →
      ((response.payload sampleFloatText).length ≤ maxFrame) := by
    intro response same
    cases same
    exact answerFits
  rcases (create_job_end_to_end sampleServer.layouts sampleJsonParser sampleFloatText sampleReread
    sampleJsonParser_readsBack events final ran (fun _ => "") .debug (fun _ => [171]) "model" "1.0"
    "rarity-first" [1, 2, 3] 2 manifest built _ rfl 0 connection back small).1 fits _ called
    (fun response same => Nat.lt_of_le_of_lt (only response same) (by decide)) with
    ⟨out, result, _, stored, returns⟩
  rcases returns only .rarityFirst rfl with ⟨jobId, returned⟩
  rcases stored jobId returned with ⟨policy, known, created⟩
  cases known
  exact ⟨manifest, final, jobId, built, created⟩

end ModelDistribution
