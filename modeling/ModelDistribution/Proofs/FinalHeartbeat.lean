/-
Module: ModelDistribution.Proofs.FinalHeartbeat
Layer: Proofs
Purpose: What a node has told the tracker when its `run` returns. Every heartbeat carries the bitmap
  of its tick, so the tracker hears of a complete bitmap exactly when the timer ticks behind the last
  marked chunk and that heartbeat still gets out; nothing in `run` waits for it.
Imports: ModelDistribution.Peer.Node, ModelDistribution.Proofs.DownloadIntegrity
Trusted boundary: none
Main exports: process_invariant, ReportsLastMark, ReportsAll, sent_origin, finished_reported_iff,
  finished_without_report
-/
import ModelDistribution.Peer.Node
import ModelDistribution.Proofs.DownloadIntegrity

namespace ModelDistribution

open Foundation

namespace NodeEvent

/-- An event of the heartbeat task. -/
def isHeartbeat : NodeEvent → Bool
  | .download _ => false
  | _ => true

/-- The marking of a chunk. -/
def isMark : NodeEvent → Bool
  | .download (.mark _) => true
  | _ => false

end NodeEvent

/-- The timer ticks, no chunk is marked from then on, and the heartbeat of that tick is sent. -/
def ReportsLastMark (events : List NodeEvent) : Prop :=
  ∃ before between after,
    events = before ++ .tick :: (between ++ .heartbeatSent :: after) ∧
      (∀ event ∈ between, event.isHeartbeat = false) ∧
      ∀ event ∈ between ++ after, event.isMark = false

/-- The bytes of a bitmap with all bits of the chunks set. -/
def ReportsAll (chunkCount : UInt32) (bitmapBytes : List UInt8) : Prop :=
  ∀ i < chunkCount, (ChunkBitmap.fromBytes bitmapBytes chunkCount).has i = .ok true

section Runs

variable {platform : Platform} {cfg : DownloaderConfig} {first final : NodeProcess}
  {events : List NodeEvent}

/-! ### The download inside the process -/

theorem process_invariant_step {process next : NodeProcess} {event : NodeEvent}
    (inv : DownloadInvariant platform cfg process.download)
    (stepped : process.step platform cfg event = some next) :
    DownloadInvariant platform cfg next.download := by
  rcases NodeProcess.step_effect stepped with ⟨_, effect⟩
  cases effect with
  | downloads downloaded => exact invariant_step inv downloaded
  | ticks _ => exact inv
  | sends _ => exact inv
  | fails _ => exact inv

theorem process_invariant {disk : String → Option (List UInt8)}
    (started : NodeProcess.start cfg disk = some first)
    (ran : runEvents (NodeProcess.step platform cfg) first events = some final) :
    DownloadInvariant platform cfg final.download := by
  rcases Option.map_eq_some_iff.mp started with ⟨download, begun, rfl⟩
  refine runEvents_invariant
    (fun process : NodeProcess => DownloadInvariant platform cfg process.download) ?_
    (invariant_start begun) ran
  intro process event next inv stepped
  exact process_invariant_step inv stepped

/-- Only a mark changes the bitmap. -/
theorem bitmap_step {process next : NodeProcess} {event : NodeEvent}
    (noMark : event.isMark = false) (stepped : process.step platform cfg event = some next) :
    next.download.bitmap = process.download.bitmap := by
  rcases NodeProcess.step_effect stepped with ⟨_, effect⟩
  cases effect with
  | downloads downloaded =>
      cases step_effect downloaded with
      | taskMarks k task fresh marked found marking result => cases noMark
      | _ => rfl
  | _ => rfl

/-- Nothing is marked once the bitmap is complete. -/
theorem noMark_of_complete (inv : DownloadInvariant platform cfg first.download)
    (complete : first.download.bitmap.isComplete = true)
    (ran : runEvents (NodeProcess.step platform cfg) first events = some final) :
    ∀ event ∈ events, event.isMark = false := by
  induction events generalizing first with
  | nil => simp
  | cons event events ih =>
      rcases runEvents_cons_eq_some.mp ran with ⟨next, stepped, rest⟩
      -- A task lives only for a chunk that is not set.
      have noTasks : first.download.tasks = [] := by
        apply List.eq_nil_iff_forall_not_mem.mpr
        intro task live
        rcases inv.unset task live with ⟨below, clear⟩
        rw [ChunkBitmap.isComplete_iff.mp complete task.chunk below] at clear
        cases clear
      have headNoMark : event.isMark = false := by
        rcases NodeProcess.step_effect stepped with ⟨_, effect⟩
        cases effect with
        | @downloads event download downloaded =>
            cases event with
            | mark k => simp [Downloader.step, noTasks] at downloaded
            | _ => rfl
        | _ => rfl
      have completeNext : next.download.bitmap.isComplete = true := by
        rw [bitmap_step headNoMark stepped]
        exact complete
      have tailNoMark := ih (process_invariant_step inv stepped) completeNext rest
      intro other mem
      rcases List.mem_cons.mp mem with rfl | later
      · exact headNoMark
      · exact tailNoMark other later

/-! ### Where heartbeats come from -/

/-- The bytes are those of the bitmap at a tick of the run, behind which the heartbeat task has done
nothing more. -/
def TickedLast (platform : Platform) (cfg : DownloaderConfig) (first : NodeProcess)
    (events : List NodeEvent) (bitmapBytes : List UInt8) : Prop :=
  ∃ before between middle, events = before ++ .tick :: between ∧
    (∀ event ∈ between, event.isHeartbeat = false) ∧
    runEvents (NodeProcess.step platform cfg) first before = some middle ∧
    bitmapBytes = middle.download.bitmap.asBytes

/-- The bytes are those of the bitmap at a tick of the run whose heartbeat was sent. -/
def SentAtTick (platform : Platform) (cfg : DownloaderConfig) (first : NodeProcess)
    (events : List NodeEvent) (bitmapBytes : List UInt8) : Prop :=
  ∃ before between after middle,
    events = before ++ .tick :: (between ++ .heartbeatSent :: after) ∧
    (∀ event ∈ between, event.isHeartbeat = false) ∧
    runEvents (NodeProcess.step platform cfg) first before = some middle ∧
    bitmapBytes = middle.download.bitmap.asBytes

theorem TickedLast.download {bitmapBytes : List UInt8}
    (ticked : TickedLast platform cfg first events bitmapBytes) (event : DownloadEvent) :
    TickedLast platform cfg first (events ++ [.download event]) bitmapBytes := by
  rcases ticked with ⟨before, between, middle, split, quiet, reached, bytes⟩
  refine ⟨before, between ++ [.download event], middle, ?_, ?_, reached, bytes⟩
  · rw [split, List.append_assoc, List.cons_append]
  · intro other mem
    rcases List.mem_append.mp mem with old | new
    · exact quiet other old
    · rw [List.mem_singleton.mp new]
      rfl

theorem TickedLast.sent {bitmapBytes : List UInt8}
    (ticked : TickedLast platform cfg first events bitmapBytes) :
    SentAtTick platform cfg first (events ++ [.heartbeatSent]) bitmapBytes := by
  rcases ticked with ⟨before, between, middle, split, quiet, reached, bytes⟩
  refine ⟨before, between, [], middle, ?_, quiet, reached, bytes⟩
  rw [split, List.append_assoc, List.cons_append]

theorem SentAtTick.later {bitmapBytes : List UInt8}
    (sent : SentAtTick platform cfg first events bitmapBytes) (event : NodeEvent) :
    SentAtTick platform cfg first (events ++ [event]) bitmapBytes := by
  rcases sent with ⟨before, between, after, middle, split, quiet, reached, bytes⟩
  refine ⟨before, between, after ++ [event], middle, ?_, quiet, reached, bytes⟩
  rw [split]
  simp

/-- The bytes that the heartbeat task holds are those of the bitmap at its last tick. -/
theorem sending_origin {bitmapBytes : List UInt8} (waiting : first.heartbeat = .waiting)
    (ran : runEvents (NodeProcess.step platform cfg) first events = some final)
    (sending : final.heartbeat = .sending bitmapBytes) :
    TickedLast platform cfg first events bitmapBytes := by
  induction events using List.reverseRecOn generalizing final with
  | nil =>
      cases ran
      rw [waiting] at sending
      cases sending
  | append_singleton events event ih =>
      rcases runEvents_snoc.mp ran with ⟨last, ranLast, stepped⟩
      rcases NodeProcess.step_effect stepped with ⟨_, effect⟩
      cases effect with
      | downloads _ => exact (ih ranLast sending).download _
      | ticks _ =>
          cases sending
          exact ⟨events, [], last, rfl, by simp, ranLast, rfl⟩
      | sends _ => cases sending
      | fails _ => cases sending

/-- Every heartbeat that was sent carries the bitmap at a tick of the run. -/
theorem sent_origin {bitmapBytes : List UInt8} (waiting : first.heartbeat = .waiting)
    (empty : first.sent = [])
    (ran : runEvents (NodeProcess.step platform cfg) first events = some final)
    (mem : bitmapBytes ∈ final.sent) : SentAtTick platform cfg first events bitmapBytes := by
  induction events using List.reverseRecOn generalizing final with
  | nil =>
      cases ran
      rw [empty] at mem
      cases mem
  | append_singleton events event ih =>
      rcases runEvents_snoc.mp ran with ⟨last, ranLast, stepped⟩
      rcases NodeProcess.step_effect stepped with ⟨_, effect⟩
      cases effect with
      | downloads _ => exact (ih ranLast mem).later _
      | ticks _ => exact (ih ranLast mem).later _
      | fails _ => exact (ih ranLast mem).later _
      | sends sending =>
          rcases List.mem_append.mp mem with old | new
          · exact (ih ranLast old).later _
          · rw [List.mem_singleton.mp new]
            exact (sending_origin waiting ranLast sending).sent

/-- Heartbeats that were sent stay sent. -/
theorem sent_kept {bitmapBytes : List UInt8}
    (ran : runEvents (NodeProcess.step platform cfg) first events = some final)
    (mem : bitmapBytes ∈ first.sent) : bitmapBytes ∈ final.sent := by
  refine runEvents_invariant (fun process : NodeProcess => bitmapBytes ∈ process.sent) ?_ mem ran
  intro process event next old stepped
  rcases NodeProcess.step_effect stepped with ⟨_, effect⟩
  cases effect with
  | sends _ => exact List.mem_append_left _ old
  | _ => exact old

/-- A tick whose heartbeat is sent delivers the bitmap of that moment. -/
theorem mem_sent_of_split {middle : NodeProcess} {between after : List NodeEvent}
    (quiet : ∀ event ∈ between, event.isHeartbeat = false)
    (ran : runEvents (NodeProcess.step platform cfg) middle
      (.tick :: (between ++ .heartbeatSent :: after)) = some final) :
    middle.download.bitmap.asBytes ∈ final.sent := by
  rcases runEvents_cons_eq_some.mp ran with ⟨ticked, tick, rest⟩
  rcases runEvents_append.mp rest with ⟨ready, idle, rest⟩
  rcases runEvents_cons_eq_some.mp rest with ⟨done, send, onwards⟩
  have holds : ticked.heartbeat = .sending middle.download.bitmap.asBytes := by
    rcases NodeProcess.step_effect tick with ⟨_, effect⟩
    cases effect
    rfl
  have still : ready.heartbeat = ticked.heartbeat := by
    refine runEvents_unchanged NodeProcess.heartbeat ?_ quiet idle
    intro process event next notHeartbeat stepped
    rcases NodeProcess.step_effect stepped with ⟨_, effect⟩
    cases effect with
    | downloads _ => rfl
    | _ => cases notHeartbeat
  apply sent_kept onwards
  rcases NodeProcess.step_effect send with ⟨_, effect⟩
  cases effect with
  | sends sending =>
      rw [still, holds] at sending
      cases sending
      exact List.mem_append_right _ List.mem_cons_self

/-- What the tracker decodes from the bytes of a bitmap of the run is that bitmap. -/
theorem reportsAll_asBytes_iff (inv : DownloadInvariant platform cfg first.download) :
    ReportsAll cfg.manifest.chunkCount first.download.bitmap.asBytes ↔
      first.download.bitmap.isComplete = true := by
  rw [ChunkBitmap.isComplete_iff, ← inv.chunkCount]
  constructor
  · intro all i below
    rw [← ChunkBitmap.has_fromBytes_asBytes inv.full]
    exact all i below
  · intro all i below
    rw [ChunkBitmap.has_fromBytes_asBytes inv.full]
    exact all i below

/-- A sent heartbeat with all bits set has its tick behind the last mark. -/
theorem reportsLastMark_of_sent {disk : String → Option (List UInt8)}
    (started : NodeProcess.start cfg disk = some first)
    (ran : runEvents (NodeProcess.step platform cfg) first events = some final)
    {bitmapBytes : List UInt8} (mem : bitmapBytes ∈ final.sent)
    (all : ReportsAll cfg.manifest.chunkCount bitmapBytes) : ReportsLastMark events := by
  have fresh : first.heartbeat = .waiting ∧ first.sent = [] := by
    rcases Option.map_eq_some_iff.mp started with ⟨download, _, rfl⟩
    exact ⟨rfl, rfl⟩
  rcases sent_origin fresh.1 fresh.2 ran mem with
    ⟨before, between, after, middle, split, quiet, reached, rfl⟩
  refine ⟨before, between, after, split, quiet, ?_⟩
  rw [split] at ran
  rcases runEvents_append.mp ran with ⟨same, toMiddle, rest⟩
  rw [reached] at toMiddle
  cases toMiddle
  have inv : DownloadInvariant platform cfg middle.download := process_invariant started reached
  have noMark := noMark_of_complete inv ((reportsAll_asBytes_iff inv).mp all) rest
  intro event inside
  apply noMark
  rcases List.mem_append.mp inside with early | late
  · simp [early]
  · simp [late]

/-- A heartbeat whose tick is behind the last mark carries the bitmap that the loop returns with. -/
theorem sent_of_reportsLastMark {disk : String → Option (List UInt8)}
    (started : NodeProcess.start cfg disk = some first)
    (ran : runEvents (NodeProcess.step platform cfg) first events = some final)
    (returned : final.download.loop = .returned) (reports : ReportsLastMark events) :
    ∃ bitmapBytes ∈ final.sent, ReportsAll cfg.manifest.chunkCount bitmapBytes := by
  have complete := (process_invariant started ran).done returned
  rcases reports with ⟨before, between, after, split, quiet, noMark⟩
  rw [split] at ran
  rcases runEvents_append.mp ran with ⟨middle, reached, rest⟩
  refine ⟨middle.download.bitmap.asBytes, mem_sent_of_split quiet rest, ?_⟩
  apply (reportsAll_asBytes_iff (process_invariant started reached)).mpr
  have same : final.download.bitmap = middle.download.bitmap := by
    refine runEvents_unchanged (fun process : NodeProcess => process.download.bitmap)
      (fun _ _ _ => bitmap_step) ?_ rest
    intro event inside
    rcases List.mem_cons.mp inside with rfl | inside
    · rfl
    rcases List.mem_append.mp inside with early | inside
    · exact noMark event (List.mem_append_left _ early)
    rcases List.mem_cons.mp inside with rfl | late
    · rfl
    · exact noMark event (List.mem_append_right _ late)
  rw [← same]
  exact complete

/-- When `run` has returned, a heartbeat with all bits set has been sent exactly when the timer ticked
behind the last mark and the heartbeat of that tick was sent. -/
theorem finished_reported_iff (platform : Platform) (cfg : DownloaderConfig)
    (disk : String → Option (List UInt8)) (first final : NodeProcess) (events : List NodeEvent)
    (started : NodeProcess.start cfg disk = some first)
    (ran : runEvents (NodeProcess.step platform cfg) first events = some final)
    (returned : final.download.loop = .returned) :
    (∃ bitmapBytes ∈ final.sent, ReportsAll cfg.manifest.chunkCount bitmapBytes) ↔
      ReportsLastMark events := by
  constructor
  · intro reported
    rcases reported with ⟨bitmapBytes, mem, all⟩
    exact reportsLastMark_of_sent started ran mem all
  · intro reports
    exact sent_of_reportsLastMark started ran returned reports

end Runs

/-! ### Concrete runs -/

/-- The state of a sample run that the results are about. -/
def sampleOutcome (events : List NodeEvent) : Option (LoopPc × List (List UInt8)) :=
  (NodeProcess.start sampleConfig fun _ => none).bind fun first =>
    (runEvents (NodeProcess.step samplePlatform sampleConfig) first events).map
      fun final => (final.download.loop, final.sent)

theorem sampleOutcome_eq_some {events : List NodeEvent} {loop : LoopPc}
    {sent : List (List UInt8)} (outcome : sampleOutcome events = some (loop, sent)) :
    ∃ first final, NodeProcess.start sampleConfig (fun _ => none) = some first ∧
      runEvents (NodeProcess.step samplePlatform sampleConfig) first events = some final ∧
      final.download.loop = loop ∧ final.sent = sent := by
  rcases Option.bind_eq_some_iff.mp outcome with ⟨first, started, rest⟩
  rcases Option.map_eq_some_iff.mp rest with ⟨final, ran, same⟩
  cases same
  exact ⟨first, final, started, ran, rfl, rfl⟩

/-- One tick before the download, and none behind it. -/
def silentEnd : List NodeEvent :=
  [.tick, .heartbeatSent] ++ sampleDownload.map .download

/-- `run` returns for a file of two chunks, and the only heartbeat reported none of them. -/
theorem finished_without_report :
    0 < sampleManifest.chunkCount ∧
      ∃ first final, NodeProcess.start sampleConfig (fun _ => none) = some first ∧
        runEvents (NodeProcess.step samplePlatform sampleConfig) first silentEnd = some final ∧
        final.download.loop = .returned ∧
        ¬ ∃ bitmapBytes ∈ final.sent, ReportsAll sampleManifest.chunkCount bitmapBytes := by
  have outcome : sampleOutcome silentEnd = some (.returned, [[0]]) := by decide +kernel
  rcases sampleOutcome_eq_some outcome with ⟨first, final, started, ran, returned, sent⟩
  refine ⟨by decide, first, final, started, ran, returned, ?_⟩
  intro reported
  rcases reported with ⟨bitmapBytes, mem, all⟩
  rw [sent, List.mem_singleton] at mem
  subst mem
  have present := all 0 (by decide)
  have absent : (ChunkBitmap.fromBytes [0] sampleManifest.chunkCount).has 0 = .ok false := by
    decide +kernel
  rw [absent] at present
  cases present

/-- One tick between the last mark and the last round of the loop. -/
def reportedEnd : List NodeEvent :=
  (sampleDownload.take 16).map .download ++ .tick :: ([] ++ .heartbeatSent ::
    (sampleDownload.drop 16).map .download)

/-- With a tick behind the last mark the tracker has heard of the complete bitmap. -/
theorem finished_reported_sample :
    ∃ first final, NodeProcess.start sampleConfig (fun _ => none) = some first ∧
      runEvents (NodeProcess.step samplePlatform sampleConfig) first reportedEnd = some final ∧
      ∃ bitmapBytes ∈ final.sent, ReportsAll sampleManifest.chunkCount bitmapBytes := by
  have outcome : sampleOutcome reportedEnd = some (.returned, [[192]]) := by decide +kernel
  rcases sampleOutcome_eq_some outcome with ⟨first, final, started, ran, returned, _⟩
  refine ⟨first, final, started, ran, ?_⟩
  apply (finished_reported_iff samplePlatform sampleConfig (fun _ => none) first final reportedEnd
    started ran returned).mpr
  refine ⟨(sampleDownload.take 16).map .download, [], (sampleDownload.drop 16).map .download, rfl,
    by simp, ?_⟩
  intro event mem
  rcases List.mem_map.mp mem with ⟨download, inside, rfl⟩
  simp only [sampleDownload, List.drop_succ_cons, List.drop_zero, List.mem_cons, List.not_mem_nil,
    or_false, or_self] at inside
  subst inside
  rfl

end ModelDistribution
