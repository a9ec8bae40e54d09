/-
Module: ModelDistribution.Proofs.ManifestArithmetic
Layer: Proofs
Purpose: When the arithmetic behind a manifest is exact. The sum of size and chunk size, the quotient,
  its cast to 32 bits and the product of the command line are followed in both build profiles, for
  every contents and every chunk size.
Imports: ModelDistribution.ChunkBitmap, ModelDistribution.Proofs.Reassembly
Trusted boundary: none
Main exports: CountTrace, chunksNeeded_eq_ok_iff, toNat_chunkQuotient_eq_iff, chunkSizeOfMb_exact_iff,
  Manifest.CountsExactly, Manifest.ExactArithmetic, Manifest.exactArithmetic_iff
-/
import ModelDistribution.ChunkBitmap
import ModelDistribution.Proofs.Reassembly

namespace ModelDistribution

open Foundation

/-! ### The steps of the count -/

/-- The values that `chunks_needed` goes through when it returns. -/
structure CountTrace (profile : Profile) (totalSize chunkSize : UInt64) where
  sum : UInt64
  dividend : UInt64
  quotient : UInt64
  added : profile.addU64 totalSize chunkSize = .ok sum
  subtracted : profile.subU64 sum 1 = .ok dividend
  divided : divU64 dividend chunkSize = .ok quotient

namespace CountTrace

variable {profile : Profile} {totalSize chunkSize : UInt64}
  (trace : CountTrace profile totalSize chunkSize)
include trace

theorem chunkSize_pos : 0 < chunkSize.toNat := (divU64_eq_ok_iff.mp trace.divided).1

theorem delivered : totalSize.toNat + chunkSize.toNat < 2 ^ 64 ∨ profile = .release :=
  (Profile.addU64_eq_ok_iff.mp trace.added).1

theorem sum_eq : trace.sum = totalSize + chunkSize := (Profile.addU64_eq_ok_iff.mp trace.added).2

theorem dividend_eq : trace.dividend = totalSize + chunkSize - 1 := by
  rw [(Profile.subU64_eq_ok_iff.mp trace.subtracted).2, trace.sum_eq]

theorem quotient_eq : trace.quotient = (totalSize + chunkSize - 1) / chunkSize := by
  rw [(divU64_eq_ok_iff.mp trace.divided).2, trace.dividend_eq]

end CountTrace

/-- `chunks_needed` returns the cast quotient of its steps. -/
theorem chunksNeeded_eq_ok_iff {profile : Profile} {totalSize chunkSize : UInt64} {count : UInt32} :
    chunksNeeded profile totalSize chunkSize = .ok count ↔
      ∃ trace : CountTrace profile totalSize chunkSize, count = trace.quotient.toUInt32 := by
  simp only [chunksNeeded, bind_eq_ok_iff, pure, Except.pure, Except.ok.injEq]
  constructor
  · rintro ⟨sum, added, dividend, subtracted, quotient, divided, rfl⟩
    exact ⟨⟨sum, dividend, quotient, added, subtracted, divided⟩, rfl⟩
  · rintro ⟨trace, rfl⟩
    exact ⟨_, trace.added, _, trace.subtracted, _, trace.divided, rfl⟩

/-- Adding a chunk size and taking one off wraps at most once in the end. -/
theorem toNat_roundedSum (length : Nat) {chunkSize : UInt64} (positive : 0 < chunkSize.toNat) :
    (UInt64.ofNat length + chunkSize - 1).toNat = (length + chunkSize.toNat - 1) % 2 ^ 64 := by
  rw [UInt64.toNat_sub, UInt64.toNat_add, UInt64.toNat_ofNat', UInt64.toNat_one]
  omega

/-- The cast quotient is the number of chunks exactly when neither the sum nor the count is cut: a
wrapped sum loses at least one chunk size, and so at least one chunk. -/
theorem toNat_chunkQuotient_eq_iff (length : Nat) {chunkSize : UInt64}
    (positive : 0 < chunkSize.toNat) :
    ((UInt64.ofNat length + chunkSize - 1) / chunkSize).toUInt32.toNat =
        ceilDiv length chunkSize.toNat ↔
      length + chunkSize.toNat - 1 < 2 ^ 64 ∧ ceilDiv length chunkSize.toNat < 2 ^ 32 := by
  rw [UInt64.toNat_toUInt32, UInt64.toNat_div, toNat_roundedSum length positive, ceilDiv]
  constructor
  · intro exact
    have few : (length + chunkSize.toNat - 1) / chunkSize.toNat < 2 ^ 32 :=
      exact ▸ Nat.mod_lt _ (by decide)
    refine ⟨?_, few⟩
    by_contra wraps
    have size := chunkSize.toNat_lt
    have lost : (length + chunkSize.toNat - 1) % 2 ^ 64 + chunkSize.toNat ≤
        length + chunkSize.toNat - 1 := by
      omega
    have fewer : (length + chunkSize.toNat - 1) % 2 ^ 64 / chunkSize.toNat + 1 ≤
        (length + chunkSize.toNat - 1) / chunkSize.toNat := by
      rw [← Nat.add_div_right _ positive]
      exact Nat.div_le_div_right lost
    have cut := Nat.mod_le ((length + chunkSize.toNat - 1) % 2 ^ 64 / chunkSize.toNat) (2 ^ 32)
    omega
  · rintro ⟨fits, few⟩
    rw [Nat.mod_eq_of_lt fits, Nat.mod_eq_of_lt few]

/-- The command line asks for the size it names exactly below `2 ^ 44` megabytes. -/
theorem chunkSizeOfMb_exact_iff (profile : Profile) (chunkSizeMb : UInt64) :
    (∃ chunkSize, chunkSizeOfMb profile chunkSizeMb = .ok chunkSize ∧
        chunkSize.toNat = chunkSizeMb.toNat * 2 ^ 20) ↔
      chunkSizeMb.toNat < 2 ^ 44 := by
  constructor
  · rintro ⟨chunkSize, _, exact⟩
    have small := chunkSize.toNat_lt
    omega
  · intro small
    have kb : (1024 : UInt64).toNat = 1024 := rfl
    obtain ⟨chunkSizeKb, first, firstExact⟩ := profile.mulU64_exact (a := chunkSizeMb) (b := 1024)
      (by rw [kb]; omega)
    obtain ⟨chunkSize, second, secondExact⟩ := profile.mulU64_exact (a := chunkSizeKb) (b := 1024)
      (by rw [kb, firstExact, kb]; omega)
    refine ⟨chunkSize, ?_, ?_⟩
    · rw [chunkSizeOfMb, bind_eq_ok_iff]
      exact ⟨chunkSizeKb, first, second⟩
    · rw [secondExact, firstExact, kb]
      omega

namespace Manifest

section Exact

variable (profile : Profile) (sha256 : List UInt8 → List UInt8) (fileId version : String)
  (data : List UInt8) (chunkSize : UInt64)

/-- `build` does not panic, and a manifest that it returns has as many chunks as the file: one hash
for each, and a fresh bitmap is complete only for the empty file. -/
structure CountsExactly : Prop where
  returns : ∃ result, build profile sha256 fileId version data chunkSize = .ok result
  count : ∀ manifest, build profile sha256 fileId version data chunkSize = .ok (.ok manifest) →
    0 < chunkSize.toNat ∧ manifest.chunkCount.toNat = ceilDiv data.length chunkSize.toNat
  hashes : ∀ manifest, build profile sha256 fileId version data chunkSize = .ok (.ok manifest) →
    manifest.chunkHashes.length = ceilDiv data.length chunkSize.toNat
  missing : ∀ manifest, build profile sha256 fileId version data chunkSize = .ok (.ok manifest) →
    data ≠ [] → (ChunkBitmap.new manifest.chunkCount).isComplete = false

/-- The count is exact, and so is every step towards it: neither the sum nor the difference wraps,
and the cast drops nothing. -/
structure ExactArithmetic : Prop
    extends CountsExactly profile sha256 fileId version data chunkSize where
  sum : ∀ trace : CountTrace profile (UInt64.ofNat data.length) chunkSize,
    trace.sum.toNat = data.length + chunkSize.toNat
  dividend : ∀ trace : CountTrace profile (UInt64.ofNat data.length) chunkSize,
    trace.dividend.toNat = data.length + chunkSize.toNat - 1
  cast : ∀ trace : CountTrace profile (UInt64.ofNat data.length) chunkSize,
    trace.quotient.toUInt32.toNat = trace.quotient.toNat

end Exact

variable {profile : Profile} {sha256 : List UInt8 → List UInt8} {fileId version : String}
  {data : List UInt8} {chunkSize : UInt64}

/-- `build` never returns an error, and the count of its manifest is what `chunks_needed` gives. -/
theorem build_eq_ok {result : Except DistError Manifest}
    (returned : build profile sha256 fileId version data chunkSize = .ok result) :
    ∃ manifest, result = .ok manifest ∧
      ∃ trace : CountTrace profile (UInt64.ofNat data.length) chunkSize,
        manifest.chunkCount = trace.quotient.toUInt32 := by
  simp only [build, bind_eq_ok_iff, pure, Except.pure, Except.ok.injEq] at returned
  obtain ⟨count, counted, hashes, _, rfl⟩ := returned
  exact ⟨_, rfl, chunksNeeded_eq_ok_iff.mp counted⟩

/-- The count is exact for contents that the machine's numbers can measure, and for no others. -/
theorem countsExactly_iff_measurable :
    CountsExactly profile sha256 fileId version data chunkSize ↔
      Measurable data chunkSize ∧ SumDelivered profile data chunkSize := by
  constructor
  · intro exact
    obtain ⟨result, returned⟩ := exact.returns
    obtain ⟨manifest, rfl, trace, counted⟩ := build_eq_ok returned
    have positive := trace.chunkSize_pos
    have counts := (exact.count manifest returned).2
    rw [counted, trace.quotient_eq, toNat_chunkQuotient_eq_iff data.length positive] at counts
    have measurable : Measurable data chunkSize := ⟨positive, counts.1, counts.2⟩
    have delivered := trace.delivered
    rw [measurable.toNat_totalSize] at delivered
    exact ⟨measurable, delivered⟩
  · rintro ⟨measurable, delivered⟩
    have isBuilt : ∀ manifest,
        build profile sha256 fileId version data chunkSize = .ok (.ok manifest) →
          manifest = built sha256 fileId version data chunkSize := fun manifest returned =>
      ((build_eq_ok_iff measurable).mp returned).2
    have count : (built sha256 fileId version data chunkSize).chunkCount.toNat =
        ceilDiv data.length chunkSize.toNat := measurable.toNat_chunkCount
    refine ⟨⟨_, build_eq_built measurable delivered⟩, ?_, ?_, ?_⟩
    · intro manifest returned
      rw [isBuilt manifest returned]
      exact ⟨measurable.size_pos, count⟩
    · intro manifest returned
      rw [isBuilt manifest returned, ← count]
      exact (wellFormed_built sha256 fileId version measurable).hashes
    · intro manifest returned nonempty
      have some := ceilDiv_pos (List.length_pos_iff.mpr nonempty) measurable.size_pos
      rw [← count, ← isBuilt manifest returned] at some
      apply decide_eq_false
      intro complete
      have none : 0 = manifest.chunkCount := complete
      rw [← none] at some
      exact Nat.lt_irrefl 0 some

/-- The sum of measurable contents is delivered exactly below `2 ^ 64`, and at `2 ^ 64` in a release
build. -/
theorem measurable_and_sumDelivered_iff :
    Measurable data chunkSize ∧ SumDelivered profile data chunkSize ↔
      1 ≤ chunkSize.toNat ∧ ceilDiv data.length chunkSize.toNat < 2 ^ 32 ∧
        (data.length + chunkSize.toNat < 2 ^ 64 ∨
          profile = .release ∧ data.length + chunkSize.toNat = 2 ^ 64) := by
  constructor
  · rintro ⟨⟨positive, fits, few⟩, delivered⟩
    refine ⟨positive, few, ?_⟩
    rcases delivered with small | release
    · exact .inl small
    · by_cases boundary : data.length + chunkSize.toNat = 2 ^ 64
      · exact .inr ⟨release, boundary⟩
      · exact .inl (by omega)
  · rintro ⟨positive, few, small | ⟨release, boundary⟩⟩
    · exact ⟨⟨positive, Nat.lt_of_le_of_lt (Nat.sub_le _ _) small, few⟩, .inl small⟩
    · exact ⟨⟨positive, by omega, few⟩, .inr release⟩

/-- The manifest's arithmetic is exact at every step just for a positive chunk size whose sum with
the file size stays below `2 ^ 64`, and fewer than `2 ^ 32` chunks; in a release build the result is
still right where the sum is exactly `2 ^ 64`, since the difference wraps back. The product of the
command line is exact below `2 ^ 44` megabytes. -/
theorem exactArithmetic_iff (profile : Profile) (sha256 : List UInt8 → List UInt8)
    (fileId version : String) (data : List UInt8) (chunkSize : UInt64) :
    (ExactArithmetic profile sha256 fileId version data chunkSize ↔
      1 ≤ chunkSize.toNat ∧ ceilDiv data.length chunkSize.toNat < 2 ^ 32 ∧
        data.length + chunkSize.toNat < 2 ^ 64) ∧
    (CountsExactly profile sha256 fileId version data chunkSize ↔
      1 ≤ chunkSize.toNat ∧ ceilDiv data.length chunkSize.toNat < 2 ^ 32 ∧
        (data.length + chunkSize.toNat < 2 ^ 64 ∨
          profile = .release ∧ data.length + chunkSize.toNat = 2 ^ 64)) ∧
    ∀ chunkSizeMb : UInt64, (∃ product, chunkSizeOfMb profile chunkSizeMb = .ok product ∧
      product.toNat = chunkSizeMb.toNat * 2 ^ 20) ↔ chunkSizeMb.toNat < 2 ^ 44 := by
  have counts : CountsExactly profile sha256 fileId version data chunkSize ↔ _ :=
    countsExactly_iff_measurable.trans measurable_and_sumDelivered_iff
  refine ⟨⟨?_, ?_⟩, counts, chunkSizeOfMb_exact_iff profile⟩
  · intro exact
    obtain ⟨positive, few, _⟩ := counts.mp exact.toCountsExactly
    obtain ⟨result, returned⟩ := exact.returns
    obtain ⟨_, _, trace, _⟩ := build_eq_ok returned
    exact ⟨positive, few, exact.sum trace ▸ trace.sum.toNat_lt⟩
  · rintro ⟨positive, few, small⟩
    have total : (UInt64.ofNat data.length).toNat = data.length :=
      UInt64.toNat_ofNat_of_lt' (Nat.lt_of_le_of_lt (Nat.le_add_right _ _) small)
    have dividend : ∀ trace : CountTrace profile (UInt64.ofNat data.length) chunkSize,
        trace.dividend.toNat = data.length + chunkSize.toNat - 1 := by
      intro trace
      rw [trace.dividend_eq, toNat_roundedSum _ positive]
      exact Nat.mod_eq_of_lt (Nat.lt_of_le_of_lt (Nat.sub_le _ _) small)
    refine { counts.mpr ⟨positive, few, .inl small⟩ with sum := ?_, dividend, cast := ?_ }
    · intro trace
      rw [trace.sum_eq, UInt64.toNat_add, total, Nat.mod_eq_of_lt small]
    · intro trace
      rw [UInt64.toNat_toUInt32, (divU64_eq_ok_iff.mp trace.divided).2, UInt64.toNat_div,
        dividend trace]
      exact Nat.mod_eq_of_lt few

/-- Two bytes in chunks of `2 ^ 64 - 1` give a release build a manifest without chunks, complete from
the start, and a debug build panics. `--chunk-size-mb` reaches such sizes, and zero, where every
build panics. -/
theorem build_wrapped_sum :
    build .release sampleDigest "m" "1" [1, 2] 0xffffffffffffffff = .ok (.ok
      { fileId := "m", version := "1", totalSize := 2, chunkSize := 0xffffffffffffffff,
        chunkCount := 0, chunkHashes := [] }) ∧
      (ChunkBitmap.new 0).isComplete = true ∧
      ¬ ExactArithmetic .release sampleDigest "m" "1" [1, 2] 0xffffffffffffffff ∧
      build .debug sampleDigest "m" "1" [1, 2] 0xffffffffffffffff = .error .arithmeticOverflow ∧
      chunkSizeOfMb .debug 0xfffffffffff = .ok 0xfffffffffff00000 ∧
      chunkSizeOfMb .release 0x100000000000 = .ok 0 ∧
      build .release sampleDigest "m" "1" [1, 2] 0 = .error .divideByZero ∧
      build .debug sampleDigest "m" "1" [1, 2] 0 = .error .divideByZero := by
  have wrapped : build .release sampleDigest "m" "1" [1, 2] 0xffffffffffffffff = .ok (.ok
      { fileId := "m", version := "1", totalSize := 2, chunkSize := 0xffffffffffffffff,
        chunkCount := 0, chunkHashes := [] }) := by decide
  refine ⟨wrapped, by decide, ?_, by decide, by decide, by decide, by decide, by decide⟩
  intro exact
  have counted := (exact.count _ wrapped).2
  revert counted
  decide

end Manifest

end ModelDistribution
