/-
Module: ModelDistribution.Proofs.ListenerHistory
Layer: Proofs
Purpose: With every call of the tracker taken as one atomic step, the tracker under concurrent
  connections is linearizable. Its state is that of one sequence of events; every connection is heard
  at most once, with the request that its client has sent; a response is the one of the sequence at
  the place of its request, except that the acknowledgement of a heartbeat reads the status of the
  job at some later place; and the sequence keeps the order of real time.
Imports: ModelDistribution.Tracker.Listener, ModelDistribution.Foundation.Machine,
  ModelDistribution.Proofs.TrackerInvariants
Trusted boundary: none
Main exports: Unheard, HeardAs, Answered, Connection.Sound, Listener.Linear, begin_spec,
  Listener.Effect, listener_linearizable
-/
import ModelDistribution.Tracker.Listener
import ModelDistribution.Foundation.Machine
import ModelDistribution.Proofs.TrackerInvariants

namespace ModelDistribution

open Foundation

/-! ### What the log says of a connection -/

/-- Nothing has come over the connection. -/
def Unheard (log : List Logged) (k : Nat) : Prop := ∀ entry ∈ log, entry.connection ≠ some k

/-- The tracker behind the events of a log. -/
def Server.after (server : Server) (log : List Logged) : Tracker :=
  server.run (log.map Logged.event)

/-- The connection is heard exactly once, behind the given part of the log, with the request that its
client has sent. -/
structure HeardAs (codecs : Codecs) (log : List Logged) (k : Nat) (connection : Connection)
    (before : List Logged) (now : Nat) (freshId : String) (request : Request) : Prop where
  read : ∃ rest, readMsg codecs.requests connection.stream = .ok (request, rest)
  earlier : Unheard before k
  later : ∃ after, log = before ++ ⟨some k, .request now freshId request⟩ :: after ∧
    Unheard after k

/-- The acknowledgement of a heartbeat: the status of its job behind some later part of the log. -/
structure Acknowledges (server : Server) (log before : List Logged) (k now : Nat)
    (freshId : String) (request : Request) (response : Response) : Prop where
  recorded : ∃ jobComplete, (server.dispatch (server.after before) now freshId request).2 =
    .ok (.heartbeatAck jobComplete)
  status : ∃ jobId report middle after, Server.reportOf request = some (jobId, report) ∧
    log = before ++ ⟨some k, .request now freshId request⟩ :: (middle ++ after) ∧
    response = .heartbeatAck
      ((server.after (before ++ ⟨some k, .request now freshId request⟩ :: middle)).jobComplete
        jobId)

/-- The response is that of the one sequence of events at the place of the request. -/
def Answered (server : Server) (codecs : Codecs) (log : List Logged) (k : Nat)
    (connection : Connection) (response : Response) : Prop :=
  ∃ before now freshId request, HeardAs codecs log k connection before now freshId request ∧
    ((server.dispatch (server.after before) now freshId request).2 = .ok response ∨
      Acknowledges server log before k now freshId request response)

/-- The task has ended. -/
def ConnectionPc.ended : ConnectionPc → Bool
  | .closed _ _ _ => true
  | _ => false

/-- What holds of a connection, by the place of its task. -/
def Connection.Sound (server : Server) (codecs : Codecs) (log : List Logged) (k : Nat)
    (connection : Connection) : Prop :=
  match connection.pc with
  | .reading => Unheard log k
  | .refusing e => readMsg codecs.requests connection.stream = .error e ∧ Unheard log k
  | .updated jobId =>
      ∃ before now freshId request report jobComplete,
        HeardAs codecs log k connection before now freshId request ∧
        Server.reportOf request = some (jobId, report) ∧
        (server.dispatch (server.after before) now freshId request).2 =
          .ok (.heartbeatAck jobComplete)
  | .answering response => Answered server codecs log k connection response
  | .closed none out result =>
      out = connection.out ∧ ∃ panic before now freshId request, result = .error panic ∧
        HeardAs codecs log k connection before now freshId request ∧
        (server.dispatch (server.after before) now freshId request).2 = .error panic
  | .closed (some response) out result =>
      (∃ e, readMsg codecs.requests connection.stream = .error e ∧ Unheard log k ∧
        response = .error e.toString ∧ result = .ok (.error e) ∧
        out = (writeMsg codecs.responses response connection.out).1) ∨
      (Answered server codecs log k connection response ∧
        out = (writeMsg codecs.responses response.ordered connection.out).1 ∧
        result = .ok (writeMsg codecs.responses response.ordered connection.out).2)

/-- Entries of the log are requests over accepted connections, and eviction passes. -/
def Logged.Sourced (accepted : Nat) (entry : Logged) : Prop :=
  match entry.connection with
  | some k => k < accepted ∧ ∃ now freshId request, entry.event = .request now freshId request
  | none => ∃ now, entry.event = .evict now 60

/-- What holds in every state of the tracker process. -/
structure Listener.Linear (server : Server) (codecs : Codecs) (listener : Listener) : Prop where
  tracker : listener.tracker = server.after listener.log
  connections : ∀ k (connection : Connection), listener.connections[k]? = some connection →
    connection.Sound server codecs listener.log k
  sourced : ∀ entry ∈ listener.log, entry.Sourced listener.connections.length

section Log

variable {server : Server} {codecs : Codecs} {log before : List Logged} {k now : Nat}
  {connection : Connection} {freshId : String} {request : Request} {response : Response}
  {entry : Logged}

theorem unheard_append {more : List Logged} :
    Unheard (log ++ more) k ↔ Unheard log k ∧ Unheard more k :=
  List.forall_mem_append

theorem unheard_singleton : Unheard [entry] k ↔ entry.connection ≠ some k := by
  simp [Unheard]

theorem Unheard.snoc (unheard : Unheard log k) (other : entry.connection ≠ some k) :
    Unheard (log ++ [entry]) k :=
  unheard_append.mpr ⟨unheard, unheard_singleton.mpr other⟩

@[simp] theorem Server.after_nil : server.after [] = .new := rfl

theorem Server.after_snoc (log : List Logged) (entry : Logged) :
    server.after (log ++ [entry]) = server.step (server.after log) entry.event := by
  simp [Server.after, Server.run]

theorem HeardAs.snoc (heard : HeardAs codecs log k connection before now freshId request)
    (other : entry.connection ≠ some k) :
    HeardAs codecs (log ++ [entry]) k connection before now freshId request where
  read := heard.read
  earlier := heard.earlier
  later := by
    rcases heard.later with ⟨after, split, unheard⟩
    refine ⟨after ++ [entry], ?_, unheard.snoc other⟩
    rw [split, List.append_assoc, List.cons_append]

theorem Acknowledges.snoc
    (acknowledges : Acknowledges server log before k now freshId request response) :
    Acknowledges server (log ++ [entry]) before k now freshId request response where
  recorded := acknowledges.recorded
  status := by
    rcases acknowledges.status with ⟨jobId, report, middle, after, carried, split, status⟩
    refine ⟨jobId, report, middle, after ++ [entry], carried, ?_, status⟩
    rw [split, List.append_assoc, List.cons_append, List.append_assoc]

theorem Answered.snoc (answered : Answered server codecs log k connection response)
    (other : entry.connection ≠ some k) :
    Answered server codecs (log ++ [entry]) k connection response := by
  rcases answered with ⟨before, now, freshId, request, heard, atomic | acknowledges⟩
  · exact ⟨before, now, freshId, request, heard.snoc other, .inl atomic⟩
  · exact ⟨before, now, freshId, request, heard.snoc other, .inr acknowledges.snoc⟩

/-- What holds of a connection still does when another event has been handled. -/
theorem Connection.Sound.snoc (sound : connection.Sound server codecs log k)
    (other : entry.connection ≠ some k) : connection.Sound server codecs (log ++ [entry]) k := by
  rcases connection with ⟨stream, out, pc⟩
  cases pc with
  | reading => exact Unheard.snoc sound other
  | refusing e => exact ⟨sound.1, sound.2.snoc other⟩
  | updated jobId =>
      rcases sound with ⟨before, now, freshId, request, report, jobComplete, heard, rest⟩
      exact ⟨before, now, freshId, request, report, jobComplete, heard.snoc other, rest⟩
  | answering response => exact Answered.snoc sound other
  | closed response out result =>
      cases response with
      | none =>
          rcases sound with ⟨same, panic, before, now, freshId, request, ended, heard, raised⟩
          exact ⟨same, panic, before, now, freshId, request, ended, heard.snoc other, raised⟩
      | some response =>
          rcases sound with ⟨e, failed, unheard, rest⟩ | ⟨answered, rest⟩
          · exact .inl ⟨e, failed, unheard.snoc other, rest⟩
          · exact .inr ⟨answered.snoc other, rest⟩

end Log

/-! ### The first call of the tracker -/

section Begin

variable {server : Server} {tracker : Tracker} {now : Nat} {freshId : String}
  {out : Outgoing IoError} {request : Request}

/-- A request other than a heartbeat is handled by its first call. -/
theorem begin_of_no_report (plain : Server.reportOf request = none) :
    server.begin tracker now freshId out request =
      match server.dispatch tracker now freshId request with
      | (after, .ok response) => (after, .answering response)
      | (after, .error panic) => (after, .closed none out (.error panic)) := by
  cases request with
  | heartbeat => cases plain
  | createJob => rfl
  | getPeers => rfl
  | getStatus => rfl
  | cancelJob => rfl
  | listJobs => rfl

/-- What the first call leaves for the task to do. -/
inductive Begun (server : Server) (tracker : Tracker) (now : Nat) (freshId : String)
    (out : Outgoing IoError) (request : Request) : ConnectionPc → Prop where
  | answering {response : Response}
      (answered : (server.dispatch tracker now freshId request).2 = .ok response) :
      Begun server tracker now freshId out request (.answering response)
  | updated {jobId : String} {report : NodeReport} {jobComplete : Bool}
      (reported : Server.reportOf request = some (jobId, report))
      (answered : (server.dispatch tracker now freshId request).2 =
        .ok (.heartbeatAck jobComplete)) :
      Begun server tracker now freshId out request (.updated jobId)
  | panicked {panic : Panic}
      (raised : (server.dispatch tracker now freshId request).2 = .error panic) :
      Begun server tracker now freshId out request (.closed none out (.error panic))

/-- All that handling a request does to the tracker is done by its first call. -/
theorem begin_spec (server : Server) (tracker : Tracker) (now : Nat) (freshId : String)
    (out : Outgoing IoError) (request : Request) :
    (server.begin tracker now freshId out request).1 =
      server.step tracker (.request now freshId request) ∧
    Begun server tracker now freshId out request
      (server.begin tracker now freshId out request).2 := by
  cases reported : Server.reportOf request with
  | none =>
      rw [begin_of_no_report reported, Server.step]
      cases handled : server.dispatch tracker now freshId request with
      | mk after answer =>
          cases answer with
          | ok response => exact ⟨rfl, .answering (by rw [handled])⟩
          | error panic => exact ⟨rfl, .panicked (by rw [handled])⟩
  | some carried =>
      cases request with
      | heartbeat jobId nodeId rackId peerAddr bitmapBytes uploadBwMbps =>
          cases updated : tracker.updateNode server.layouts now jobId
              { nodeId, rackId, peerAddr, bitmapBytes, uploadBwMbps } with
          | error e =>
              have answered : server.dispatch tracker now freshId (.heartbeat jobId nodeId rackId
                  peerAddr bitmapBytes uploadBwMbps) = (tracker, .ok (.error e.toString)) := by
                simp only [Server.dispatch, updated]
              simp only [Server.begin, updated, Server.step, answered, true_and]
              exact .answering (by rw [answered])
          | ok after =>
              have answered : server.dispatch tracker now freshId (.heartbeat jobId nodeId rackId
                  peerAddr bitmapBytes uploadBwMbps) =
                  (after, .ok (.heartbeatAck (after.jobComplete jobId))) := by
                cases known : after.getJob jobId with
                | ok job => simp only [Server.dispatch, updated, Tracker.jobComplete, known]
                | error e => simp only [Server.dispatch, updated, Tracker.jobComplete, known]
              simp only [Server.begin, updated, Server.step, answered, true_and]
              exact .updated rfl (by rw [answered])
      | createJob => cases reported
      | getPeers => cases reported
      | getStatus => cases reported
      | cancelJob => cases reported
      | listJobs => cases reported

end Begin

/-! ### One step -/

/-- Everything one step can do. -/
inductive Listener.Effect (server : Server) (codecs : Codecs) (listener : Listener) :
    Listener → Prop where
  | accepts (stream : Fragmented IoError) (out : Outgoing IoError) :
      Effect server codecs listener { listener with
        connections := listener.connections ++ [{ stream, out, pc := .reading }] }
  | hears {k now : Nat} {freshId : String} {connection : Connection} {request : Request}
      {rest : Fragmented IoError} {pc : ConnectionPc}
      (found : listener.connections[k]? = some connection) (reading : connection.pc = .reading)
      (read : readMsg codecs.requests connection.stream = .ok (request, rest))
      (begun : Begun server listener.tracker now freshId connection.out request pc) :
      Effect server codecs listener {
        tracker := server.step listener.tracker (.request now freshId request)
        connections := listener.connections.set k { connection with pc }
        log := listener.log ++ [⟨some k, .request now freshId request⟩] }
  /-- A task moves and leaves the tracker alone. -/
  | moves {k : Nat} {connection : Connection} {pc : ConnectionPc}
      (found : listener.connections[k]? = some connection)
      (running : connection.pc.ended = false)
      (sound : listener.tracker = server.after listener.log →
        connection.Sound server codecs listener.log k →
        Connection.Sound server codecs listener.log k { connection with pc }) :
      Effect server codecs listener (listener.put k { connection with pc })
  | evicts (now : Nat) :
      Effect server codecs listener { listener with
        tracker := server.step listener.tracker (.evict now 60)
        log := listener.log ++ [⟨none, .evict now 60⟩] }

section Step

variable {server : Server} {codecs : Codecs} {log : List Logged} {k : Nat}
  {connection : Connection}

/-- A recorded heartbeat is acknowledged with the status at the end of the log. -/
theorem acknowledge {jobId : String} (pc : connection.pc = .updated jobId)
    (sound : connection.Sound server codecs log k) :
    Answered server codecs log k connection
      (.heartbeatAck ((server.after log).jobComplete jobId)) := by
  rcases connection with ⟨stream, out, _⟩
  cases pc
  rcases sound with ⟨before, now, freshId, request, report, jobComplete, heard, reported, recorded⟩
  rcases heard.later with ⟨after, split, _⟩
  refine ⟨before, now, freshId, request, heard, .inr ⟨⟨jobComplete, recorded⟩, ?_⟩⟩
  refine ⟨jobId, report, after, [], reported, ?_, ?_⟩
  · rw [List.append_nil, split]
  · rw [← split]

theorem Answered.of_pc {pc : ConnectionPc} {response : Response}
    (answered : Answered server codecs log k connection response) :
    Answered server codecs log k { connection with pc } response := by
  rcases answered with ⟨before, now, freshId, request, heard, rest⟩
  exact ⟨before, now, freshId, request, ⟨heard.read, heard.earlier, heard.later⟩, rest⟩

theorem Listener.step_effect {listener next : Listener} {event : ListenerEvent}
    (stepped : listener.step server codecs event = some next) :
    Listener.Effect server codecs listener next := by
  cases event with
  | accept stream out =>
      cases stepped
      exact .accepts stream out
  | evict now =>
      cases stepped
      exact .evicts now
  | read k now freshId =>
      rcases Option.bind_eq_some_iff.mp stepped with ⟨connection, found, rest⟩
      split at rest
      · rename_i reading
        split at rest
        · rename_i e failed
          cases rest
          apply Effect.moves found (by rw [reading]; rfl)
          intro _ sound
          rcases connection with ⟨stream, out, _⟩
          cases reading
          exact ⟨failed, sound⟩
        · rename_i request left read
          cases rest
          rcases begin_spec server listener.tracker now freshId connection.out request with
            ⟨same, begun⟩
          rw [same]
          exact .hears found reading read begun
      · cases rest
  | status k =>
      rcases Option.bind_eq_some_iff.mp stepped with ⟨connection, found, rest⟩
      split at rest
      · rename_i jobId pc
        cases rest
        apply Effect.moves found (by rw [pc]; rfl)
        intro tracker sound
        rw [tracker]
        exact (acknowledge pc sound).of_pc
      · cases rest
  | write k =>
      rcases Option.bind_eq_some_iff.mp stepped with ⟨connection, found, rest⟩
      split at rest
      · rename_i e pc
        cases rest
        apply Effect.moves found (by rw [pc]; rfl)
        intro _ sound
        rcases connection with ⟨stream, out, _⟩
        cases pc
        exact .inl ⟨e, sound.1, sound.2, rfl, rfl, rfl⟩
      · rename_i response pc
        cases rest
        apply Effect.moves found (by rw [pc]; rfl)
        intro _ sound
        rcases connection with ⟨stream, out, _⟩
        cases pc
        exact .inr ⟨Answered.of_pc sound, rfl, rfl⟩
      · cases rest

/-- A connection that is heard now, behind the whole log. -/
theorem heardAs_now {now : Nat} {freshId : String} {request : Request} {rest : Fragmented IoError}
    (pc : ConnectionPc) (unheard : Unheard log k)
    (read : readMsg codecs.requests connection.stream = .ok (request, rest)) :
    HeardAs codecs (log ++ [⟨some k, .request now freshId request⟩]) k { connection with pc } log
      now freshId request where
  read := ⟨rest, read⟩
  earlier := unheard
  later := ⟨[], rfl, fun _ mem => absurd mem List.not_mem_nil⟩

/-- Where the task of a connection goes that is heard now. -/
theorem Begun.sound {tracker : Tracker} {now : Nat} {freshId : String} {request : Request}
    {rest : Fragmented IoError} {pc : ConnectionPc}
    (begun : Begun server tracker now freshId connection.out request pc)
    (same : tracker = server.after log) (unheard : Unheard log k)
    (read : readMsg codecs.requests connection.stream = .ok (request, rest)) :
    Connection.Sound server codecs (log ++ [⟨some k, .request now freshId request⟩]) k
      { connection with pc } := by
  subst same
  cases begun with
  | answering answered =>
      exact ⟨log, now, freshId, request, heardAs_now _ unheard read, .inl answered⟩
  | updated reported answered =>
      exact ⟨log, now, freshId, request, _, _, heardAs_now _ unheard read, reported, answered⟩
  | panicked raised =>
      exact ⟨rfl, _, log, now, freshId, request, rfl, heardAs_now _ unheard read, raised⟩

theorem Logged.Sourced.mono {entry : Logged} {accepted more : Nat} (le : accepted ≤ more)
    (sourced : entry.Sourced accepted) : entry.Sourced more := by
  rcases entry with ⟨_ | k, event⟩
  · exact sourced
  · exact ⟨Nat.lt_of_lt_of_le sourced.1 le, sourced.2⟩

/-- Nothing has come over a connection that is not accepted yet. -/
theorem Listener.Linear.unheard {listener : Listener} (linear : listener.Linear server codecs)
    (le : listener.connections.length ≤ k) : Unheard listener.log k := by
  intro entry mem same
  have sourced := linear.sourced entry mem
  rcases entry with ⟨_, event⟩
  cases same
  exact absurd sourced.1 (Nat.not_lt.mpr le)

/-- A step keeps what holds. -/
theorem Listener.Effect.linear {listener next : Listener}
    (effect : Listener.Effect server codecs listener next)
    (linear : listener.Linear server codecs) : next.Linear server codecs := by
  cases effect with
  | accepts stream out =>
      constructor
      · exact linear.tracker
      · intro k connection here
        rw [List.getElem?_append] at here
        split at here
        · exact linear.connections k connection here
        · rename_i beyond
          have last := List.mem_singleton.mp (List.mem_of_getElem? here)
          rw [last]
          exact linear.unheard (Nat.le_of_not_lt beyond)
      · intro entry mem
        apply (linear.sourced entry mem).mono
        simp
  | @hears k now freshId connection request rest pc found reading read begun =>
      have unheard : Unheard listener.log k := by
        have sound := linear.connections k connection found
        rcases connection with ⟨stream, out, _⟩
        cases reading
        exact sound
      constructor
      · rw [Server.after_snoc, ← linear.tracker]
      · intro other moved here
        rcases getElem?_set_cases here with ⟨rfl, rfl⟩ | ⟨different, earlier⟩
        · exact begun.sound linear.tracker unheard read
        · apply (linear.connections other moved earlier).snoc
          intro same
          exact different (Option.some.inj same).symm
      · intro entry mem
        rw [List.length_set]
        rcases List.mem_append.mp mem with earlier | last
        · exact linear.sourced entry earlier
        · rw [List.mem_singleton.mp last]
          exact ⟨(List.getElem?_eq_some_iff.mp found).1, now, freshId, request, rfl⟩
  | @moves k connection pc found running sound =>
      constructor
      · exact linear.tracker
      · intro other moved here
        rcases getElem?_set_cases here with ⟨rfl, rfl⟩ | ⟨_, earlier⟩
        · exact sound linear.tracker (linear.connections other connection found)
        · exact linear.connections other moved earlier
      · intro entry mem
        simp only [Listener.put, List.length_set]
        exact linear.sourced entry mem
  | evicts now =>
      constructor
      · rw [Server.after_snoc, ← linear.tracker]
      · intro k connection here
        exact (linear.connections k connection here).snoc (by simp)
      · intro entry mem
        rcases List.mem_append.mp mem with earlier | last
        · exact linear.sourced entry earlier
        · rw [List.mem_singleton.mp last]
          exact ⟨now, rfl⟩

theorem Listener.linear_start : Listener.start.Linear server codecs where
  tracker := rfl
  connections _ _ here := by cases here
  sourced _ mem := by cases mem

/-! ### The order of real time -/

/-- From the one state to the other the log grows, by nothing of a task that has ended. -/
structure Listener.Grows (listener next : Listener) : Prop where
  log : ∃ later, next.log = listener.log ++ later ∧
    ∀ (k : Nat) (connection : Connection), listener.connections[k]? = some connection →
      connection.pc.ended = true → Unheard later k
  ended : ∀ (k : Nat) (connection : Connection), listener.connections[k]? = some connection →
    connection.pc.ended = true → next.connections[k]? = some connection

theorem Listener.Grows.refl (listener : Listener) : listener.Grows listener where
  log := ⟨[], (List.append_nil _).symm, fun _ _ _ _ _ mem => by cases mem⟩
  ended _ _ found _ := found

theorem Listener.Grows.trans {a b c : Listener} (first : a.Grows b) (second : b.Grows c) :
    a.Grows c where
  log := by
    rcases first.log with ⟨sooner, grown, quiet⟩
    rcases second.log with ⟨later, grown', quiet'⟩
    refine ⟨sooner ++ later, by rw [grown', grown, List.append_assoc], ?_⟩
    intro k connection found ended
    exact unheard_append.mpr ⟨quiet k connection found ended,
      quiet' k connection (first.ended k connection found ended) ended⟩
  ended k connection found ended :=
    second.ended k connection (first.ended k connection found ended) ended

/-- The connections that have ended are the same when another is put at a position where none has. -/
theorem ended_set {connections : List Connection} {connection : Connection}
    (found : connections[k]? = some connection) (running : connection.pc.ended = false)
    (moved : Connection) {other : Nat} {done : Connection} (here : connections[other]? = some done)
    (ended : done.pc.ended = true) : (connections.set k moved)[other]? = some done ∧ other ≠ k := by
  have different : other ≠ k := by
    intro same
    rw [same, found] at here
    cases here
    rw [running] at ended
    cases ended
  exact ⟨by rw [List.getElem?_set_ne (Ne.symm different), here], different⟩

theorem Listener.Effect.grows {listener next : Listener}
    (effect : Listener.Effect server codecs listener next) : listener.Grows next := by
  cases effect with
  | accepts stream out =>
      constructor
      · exact ⟨[], (List.append_nil _).symm, fun _ _ _ _ _ mem => by cases mem⟩
      · intro k connection found _
        rw [List.getElem?_append_left (List.getElem?_eq_some_iff.mp found).1, found]
  | @hears k now freshId connection request rest pc found reading read begun =>
      have running : connection.pc.ended = false := by
        rw [reading]
        rfl
      constructor
      · refine ⟨_, rfl, ?_⟩
        intro other done here ended
        apply unheard_singleton.mpr
        intro same
        exact (ended_set found running connection here ended).2 (Option.some.inj same).symm
      · intro other done here ended
        exact (ended_set found running _ here ended).1
  | @moves k connection pc found running sound =>
      constructor
      · exact ⟨[], (List.append_nil _).symm, fun _ _ _ _ _ mem => by cases mem⟩
      · intro other done here ended
        exact (ended_set found running _ here ended).1
  | evicts now =>
      constructor
      · exact ⟨_, rfl, fun _ _ _ _ => unheard_singleton.mpr (by simp)⟩
      · exact fun _ _ found _ => found

theorem linear_step {listener next : Listener} {event : ListenerEvent}
    (linear : listener.Linear server codecs)
    (stepped : listener.step server codecs event = some next) : next.Linear server codecs :=
  (Listener.step_effect stepped).linear linear

theorem linear_of_run {events : List ListenerEvent} {final : Listener}
    (ran : runEvents (Listener.step server codecs) .start events = some final) :
    final.Linear server codecs :=
  runEvents_invariant (Listener.Linear server codecs) (fun _ _ _ => linear_step)
    Listener.linear_start ran

end Step

/-- With every call of the tracker taken as one atomic step, the tracker under concurrent connections
is linearizable. In every run of it, whatever clients send and however long the ways back to them
hold, its state is that of the sequence of events in `log`; every connection is in accord with that
sequence, which has heard it at most once, with the request that was sent; the entries of the sequence
are requests over accepted connections and eviction passes; and what is handled once a connection has
ended, or before one is accepted, is not from that connection, so the sequence keeps the order of real
time. -/
theorem listener_linearizable (server : Server) (codecs : Codecs) (events : List ListenerEvent)
    (final : Listener)
    (ran : runEvents (Listener.step server codecs) .start events = some final) :
    final.tracker = server.after final.log ∧
    (∀ k (connection : Connection), final.connections[k]? = some connection →
      connection.Sound server codecs final.log k) ∧
    (∀ entry ∈ final.log, entry.Sourced final.connections.length) ∧
    ∀ before after middle, events = before ++ after →
      runEvents (Listener.step server codecs) .start before = some middle →
      ∃ later, final.log = middle.log ++ later ∧
        (∀ k (connection : Connection), middle.connections[k]? = some connection →
          connection.pc.ended = true →
          Unheard later k ∧ final.connections[k]? = some connection) ∧
        ∀ k, middle.connections.length ≤ k → Unheard middle.log k := by
  have linear := linear_of_run ran
  refine ⟨linear.tracker, linear.connections, linear.sourced, ?_⟩
  intro before after middle split ranBefore
  rw [split, runEvents_append] at ran
  rcases ran with ⟨middle', ranBefore', ranAfter⟩
  rw [ranBefore] at ranBefore'
  cases ranBefore'
  have grows : middle.Grows final :=
    runEvents_related (fun _ _ _ => linear_step) Listener.Grows.refl Listener.Grows.trans
      (fun _ _ _ _ stepped => (Listener.step_effect stepped).grows) (linear_of_run ranBefore) ranAfter
  rcases grows.log with ⟨later, grown, quiet⟩
  refine ⟨later, grown, ?_, fun k le => (linear_of_run ranBefore).unheard le⟩
  intro k connection found ended
  exact ⟨quiet k connection found ended, grows.ended k connection found ended⟩

/-! ### Two connections -/

/-- What a client sends that asks for the list of jobs, cut behind the header. -/
def sampleListing : Fragmented IoError where
  fragments := [[0, 0, 0, 20], Request.listJobs.toValue.toBytes noFloats]
  ending := ⟨.unexpectedEof, "early eof"⟩

/-- Codecs that know the bytes of that request only. -/
def listingCodecs : Codecs where
  requests := Request.codec fun bytes =>
    if bytes = Request.listJobs.toValue.toBytes noFloats then .ok .listJobs
    else .error "expected value at line 1 column 1"
  responses := Response.codec noFloats fun _ => .error "expected value at line 1 column 1"

/-- The second connection is heard and answered before the first. -/
def sampleOvertaking : List ListenerEvent :=
  [.accept sampleListing .reliable, .accept sampleListing .reliable, .read 1 5 "y", .write 1,
   .read 0 6 "x"]

theorem sampleOvertaking_log :
    (runEvents (Listener.step sampleServer listingCodecs) .start sampleOvertaking).map
      Listener.log =
      some [⟨some 1, .request 5 "y" .listJobs⟩, ⟨some 0, .request 6 "x" .listJobs⟩] := by
  decide +kernel

/-- Its tracker is that of the two requests in the order in which they were heard. -/
theorem listener_linearizable_sample :
    ∃ final, runEvents (Listener.step sampleServer listingCodecs) .start sampleOvertaking =
        some final ∧
      final.tracker = sampleServer.after
        [⟨some 1, .request 5 "y" .listJobs⟩, ⟨some 0, .request 6 "x" .listJobs⟩] := by
  rcases Option.map_eq_some_iff.mp sampleOvertaking_log with ⟨final, ran, log⟩
  have same := (listener_linearizable sampleServer listingCodecs sampleOvertaking final ran).1
  rw [log] at same
  exact ⟨final, ran, same⟩

end ModelDistribution
