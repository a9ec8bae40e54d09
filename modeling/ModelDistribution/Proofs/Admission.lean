/-
Module: ModelDistribution.Proofs.Admission
Layer: Proofs
Purpose: Which manifests become jobs and what their consumers rely on. Admission only decodes: the
  stored manifest is the decoded one, and the chunk arithmetic, the verifier and the delta computation
  are free of panics on it exactly when its fields agree and its last chunk ends inside 64 bits.
Imports: ModelDistribution.Proofs.DeltaUpdate, ModelDistribution.Proofs.TrackerInvariants,
  ModelDistribution.Proto.Encoding
Trusted boundary: none
Main exports: Manifest.FieldsAgree, Manifest.SafeForConsumers, safeForConsumers_iff,
  Manifest.WellFormed.safeForConsumers, Server.Admits, Server.admits_of_parsed,
  Server.admitted_safe_iff
-/
import ModelDistribution.Proofs.DeltaUpdate
import ModelDistribution.Proofs.TrackerInvariants
import ModelDistribution.Proto.Encoding

namespace ModelDistribution

open Foundation

namespace Manifest

/-- The redundant fields agree: the count is the rounded-up quotient, with a hash for each chunk. -/
structure FieldsAgree (manifest : Manifest) : Prop where
  size_pos : 0 < manifest.chunkSize.toNat
  count : manifest.chunkCount.toNat = ceilDiv manifest.totalSize.toNat manifest.chunkSize.toNat
  hashes : manifest.chunkHashes.length = manifest.chunkCount.toNat

/-- What the consumers of a manifest rely on: fields that agree, chunk ranges without an overflow and
in order, so that the expected length does not underflow, and no index out of range in the verifier
and in the delta against another manifest whose fields agree. -/
structure SafeForConsumers (manifest : Manifest) : Prop where
  agree : manifest.FieldsAgree
  ranges : ∀ (profile : Profile), ∀ i < manifest.chunkCount, ∃ start stop len,
    manifest.chunkRange profile i = .ok (start, stop) ∧ start ≤ stop ∧ stop ≤ manifest.totalSize ∧
      profile.subU64 stop start = .ok len ∧ len.toNat = stop.toNat - start.toNat
  verify : ∀ (sha256 : List UInt8 → List UInt8) (data : List UInt8), ∀ i < manifest.chunkCount,
    ∃ verdict, manifest.verifyChunk sha256 i data = .ok verdict
  delta : ∀ other : Manifest, other.FieldsAgree →
    DeltaPatch.compute manifest other ≠ .error .indexOutOfBounds ∧
      DeltaPatch.compute other manifest ≠ .error .indexOutOfBounds

/-- A chunk whose unclipped end does not fit overflows in a debug build. -/
theorem chunkRange_overflow {manifest : Manifest} {i : UInt32}
    (beyond : 2 ^ 64 ≤ (i.toNat + 1) * manifest.chunkSize.toNat) :
    manifest.chunkRange .debug i = .error .arithmeticOverflow := by
  have widened : i.toUInt64.toNat = i.toNat := UInt32.toNat_toUInt64 i
  rw [Nat.add_mul, Nat.one_mul] at beyond
  unfold chunkRange chunkRangeInner
  by_cases fits : i.toUInt64.toNat * manifest.chunkSize.toNat < 2 ^ 64
  · obtain ⟨start, multiplied, startEq⟩ := Profile.debug.mulU64_exact fits
    have sum : ¬ start.toNat + manifest.chunkSize.toNat < 2 ^ 64 := by
      rw [startEq, widened]
      omega
    have added : Profile.debug.addU64 start manifest.chunkSize = .error .arithmeticOverflow := by
      rw [Profile.addU64, decide_eq_false sum]
      rfl
    simp only [multiplied, added, bind, Except.bind]
  · have multiplied : Profile.debug.mulU64 i.toUInt64 manifest.chunkSize =
        .error .arithmeticOverflow := by
      rw [Profile.mulU64, decide_eq_false fits]
      rfl
    simp only [multiplied, bind, Except.bind]

/-- Between manifests whose fields agree the delta is computed, unless they are of different files. -/
theorem compute_in_bounds {old new : Manifest} (oldAgree : old.FieldsAgree)
    (newAgree : new.FieldsAgree) : DeltaPatch.compute old new ≠ .error .indexOutOfBounds := by
  by_cases sameFile : old.fileId = new.fileId
  · obtain ⟨patch, computed, _⟩ :=
      DeltaPatch.compute_describes sameFile oldAgree.hashes newAgree.hashes
    rw [computed]
    exact fun failed => by cases failed
  · rw [DeltaPatch.compute, if_pos sameFile]
    exact fun failed => by cases failed

/-- When the last chunk does not fit, its range is not computed in a debug build. -/
theorem lastRange_overflow {manifest : Manifest}
    (beyond : 2 ^ 64 ≤ manifest.chunkCount.toNat * manifest.chunkSize.toNat) :
    manifest.chunkCount - 1 < manifest.chunkCount ∧
      manifest.chunkRange .debug (manifest.chunkCount - 1) = .error .arithmeticOverflow := by
  have positive : 0 < manifest.chunkCount.toNat := by
    apply Nat.pos_of_ne_zero
    intro none
    rw [none, Nat.zero_mul] at beyond
    exact absurd beyond (by decide)
  have one : (1 : UInt32) ≤ manifest.chunkCount := UInt32.le_iff_toNat_le.mpr positive
  have last : (manifest.chunkCount - 1).toNat + 1 = manifest.chunkCount.toNat := by
    rw [UInt32.toNat_sub_of_le _ _ one]
    exact Nat.sub_add_cancel positive
  constructor
  · rw [UInt32.lt_iff_toNat_lt, ← last]
    exact Nat.lt_succ_self _
  · apply chunkRange_overflow
    rw [last]
    exact beyond

/-- With agreeing fields and a last chunk that fits, all ranges are computed, in order and inside the
file. -/
theorem FieldsAgree.range_in_order {manifest : Manifest} (agree : manifest.FieldsAgree)
    (fits : manifest.chunkCount.toNat * manifest.chunkSize.toNat < 2 ^ 64) (profile : Profile)
    {i : UInt32} (below : i < manifest.chunkCount) :
    ∃ start stop len, manifest.chunkRange profile i = .ok (start, stop) ∧ start ≤ stop ∧
      stop ≤ manifest.totalSize ∧ profile.subU64 stop start = .ok len ∧
        len.toNat = stop.toNat - start.toNat := by
  have belowNat := UInt32.lt_iff_toNat_lt.mp below
  have inside := start_lt_of_lt_ceilDiv agree.size_pos (agree.count ▸ belowNat)
  have endFits : (i.toNat + 1) * manifest.chunkSize.toNat < 2 ^ 64 :=
    Nat.lt_of_le_of_lt (Nat.mul_le_mul_right _ belowNat) fits
  obtain ⟨start, stop, range, startEq, stopEq⟩ :=
    chunkRangeInner_of_fits profile i manifest.chunkSize manifest.totalSize endFits
  have ordered : start.toNat ≤ stop.toNat := by
    rw [startEq, stopEq, Nat.add_mul]
    omega
  obtain ⟨len, subtracted, lenEq⟩ := profile.subU64_exact ordered
  refine ⟨start, stop, len, range, UInt64.le_iff_toNat_le.mpr ordered, ?_, subtracted, lenEq⟩
  rw [UInt64.le_iff_toNat_le, stopEq]
  exact Nat.min_le_right _ _

/-- With agreeing fields every chunk has a hash. -/
theorem FieldsAgree.hashed {manifest : Manifest} (agree : manifest.FieldsAgree) {i : UInt32}
    (below : i < manifest.chunkCount) : i.toNat < manifest.chunkHashes.length := by
  rw [agree.hashes]
  exact UInt32.lt_iff_toNat_lt.mp below

/-- The consumers are safe exactly when the fields agree and the last chunk ends inside 64 bits. -/
theorem safeForConsumers_iff {manifest : Manifest} :
    manifest.SafeForConsumers ↔ manifest.FieldsAgree ∧
      manifest.chunkCount.toNat * manifest.chunkSize.toNat < 2 ^ 64 := by
  constructor
  · intro safe
    refine ⟨safe.agree, Nat.lt_of_not_le ?_⟩
    intro beyond
    obtain ⟨below, overflows⟩ := lastRange_overflow beyond
    obtain ⟨_, _, _, range, _⟩ := safe.ranges .debug _ below
    rw [overflows] at range
    cases range
  · rintro ⟨agree, fits⟩
    constructor
    · exact agree
    · exact fun profile i below => agree.range_in_order fits profile below
    · exact fun sha256 data i below => verifyChunk_returns (agree.hashed below) sha256 data
    · exact fun other otherAgree =>
        ⟨compute_in_bounds agree otherAgree, compute_in_bounds otherAgree agree⟩

/-- A manifest that was built from a file is safe. -/
theorem WellFormed.safeForConsumers {manifest : Manifest} (wellFormed : manifest.WellFormed) :
    manifest.SafeForConsumers := by
  apply safeForConsumers_iff.mpr
  constructor
  · exact ⟨wellFormed.size_pos, wellFormed.count, wellFormed.hashes⟩
  · calc manifest.chunkCount.toNat * manifest.chunkSize.toNat
        ≤ manifest.totalSize.toNat + manifest.chunkSize.toNat - 1 := by
          rw [wellFormed.count]
          exact Nat.div_mul_le_self _ _
      _ < 2 ^ 64 := wellFormed.fits

end Manifest

/-! ### Admission -/

namespace Server

/-- The bytes become a job with this manifest on every tracker. -/
def Admits (server : Server) (bytes : List UInt8) (policyText : String)
    (manifest : Manifest) : Prop :=
  ∀ (tracker : Tracker) (now : Nat) (freshId : String),
    let outcome := server.dispatch tracker now freshId (.createJob bytes policyText)
    outcome.2 = .ok (.jobCreated freshId) ∧
      (outcome.1.jobs.get? freshId).map Job.manifest = some manifest

/-- What the parser accepts is admitted, whatever its fields say. -/
theorem admits_of_parsed {server : Server} {bytes : List UInt8} {manifest : Manifest}
    {policyText : String} {policy : SchedulingPolicy}
    (parsed : server.manifestFromSlice bytes = .ok manifest)
    (known : SchedulingPolicy.fromStr policyText = .ok policy) :
    server.Admits bytes policyText manifest := by
  intro tracker now freshId
  have decoded := deserialise_eq_ok parsed
  have stepped := step_createJob tracker now freshId decoded known
  have stored := Tracker.get?_createJob tracker freshId freshId manifest policy
  rw [if_pos rfl, ← stepped] at stored
  constructor
  · exact dispatch_createJob decoded known
  · exact congrArg (Option.map Job.manifest) stored

/-- A creation request that is answered with an identifier has stored the manifest that its bytes
decode to, whatever is in it. It is safe for its consumers exactly when its fields agree and its last
chunk ends inside 64 bits. -/
theorem admitted_safe_iff (server : Server) (tracker : Tracker) (now : Nat)
    (freshId jobId policyText : String) (bytes : List UInt8)
    (accepted : (server.dispatch tracker now freshId (.createJob bytes policyText)).2 =
      .ok (.jobCreated jobId)) :
    ∃ manifest, server.manifestFromSlice bytes = .ok manifest ∧
      (((server.dispatch tracker now freshId (.createJob bytes policyText)).1.jobs.get? jobId).map
        Job.manifest) = some manifest ∧
      (manifest.SafeForConsumers ↔ manifest.FieldsAgree ∧
        manifest.chunkCount.toNat * manifest.chunkSize.toNat < 2 ^ 64) := by
  obtain ⟨_, manifest, policy, decoded, _, created⟩ := stored_of_jobCreated accepted
  have stored : (server.dispatch tracker now freshId (.createJob bytes policyText)).1.jobs.get?
      jobId = some (.new jobId manifest policy) := created
  refine ⟨manifest, ?_, ?_, Manifest.safeForConsumers_iff⟩
  · cases parsed : server.manifestFromSlice bytes with
    | ok parsedManifest =>
        rw [deserialise_eq_ok parsed] at decoded
        rw [Except.ok.inj decoded]
    | error message => simp [deserialise, parsed] at decoded
  · rw [stored]
    rfl

/-- The manifest of the sample file is admitted and safe. -/
theorem admitted_safe_iff_sample :
    ∃ manifest, sampleServer.manifestFromSlice sampleManifestBytes = .ok manifest ∧
      manifest.SafeForConsumers := by
  obtain ⟨manifest, parsed, _, safe⟩ := admitted_safe_iff sampleServer .new 0 "j" "j"
    "rarity-first" sampleManifestBytes (dispatch_createSample _ 0 "j")
  have known : manifest = sampleManifest :=
    Except.ok.inj (parsed.symm.trans sampleParser_known)
  subst known
  exact ⟨_, parsed, safe.mpr ⟨⟨by decide, by decide, by decide⟩, by decide⟩⟩

end Server

/-- A manifest that announces two chunks and brings no hash. -/
def hashlessManifest : Manifest where
  fileId := "m"
  version := "1"
  totalSize := 3
  chunkSize := 2
  chunkCount := 2
  chunkHashes := []

/-- A parser that knows the encoding of this manifest. -/
def hashlessParser (bytes : List UInt8) : Except String Manifest :=
  if bytes = hashlessManifest.serialise then .ok hashlessManifest
  else .error "expected value at line 1 column 1"

/-- A server with this parser. -/
def hashlessServer : Server where
  layouts := sampleServer.layouts
  manifestFromSlice := hashlessParser

/-- The manifest without hashes becomes a job, and the verification of its first chunk panics. -/
theorem hashless_manifest_admitted :
    ∃ tracker : Tracker,
      hashlessServer.dispatch .new 0 "j" (.createJob hashlessManifest.serialise "rarity-first") =
        (tracker, .ok (.jobCreated "j")) ∧
      (tracker.jobs.get? "j").map Job.manifest = some hashlessManifest ∧
      ¬ hashlessManifest.SafeForConsumers ∧
      hashlessManifest.verifyChunk Manifest.sampleDigest 0 [1, 2] = .error .indexOutOfBounds := by
  have known : hashlessServer.manifestFromSlice hashlessManifest.serialise =
      .ok hashlessManifest := by
    show hashlessParser hashlessManifest.serialise = _
    unfold hashlessParser
    exact if_pos (Eq.refl hashlessManifest.serialise)
  have admitted : hashlessServer.Admits hashlessManifest.serialise "rarity-first" hashlessManifest :=
    Server.admits_of_parsed known rfl
  obtain ⟨answered, stored⟩ := admitted .new 0 "j"
  refine ⟨_, Prod.ext rfl answered, stored, ?_, rfl⟩
  intro safe
  exact absurd safe.agree.hashes (by decide)

end ModelDistribution
