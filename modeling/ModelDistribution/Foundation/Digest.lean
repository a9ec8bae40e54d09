/-
Module: ModelDistribution.Foundation.Digest
Layer: Foundation
Purpose: Digest functions given by a table of known 32-byte digests and continued injectively by
  longer values, so that a result under an injectivity assumption can be run on real digests.
Imports: Mathlib.Data.List.Nodup
Trusted boundary: none
Main exports: digestOfNat, tabulatedDigest, tabulatedDigest_injective
-/
import Mathlib.Data.List.Nodup

namespace ModelDistribution.Foundation

/-- The 32 bytes of a digest, most significant first. -/
def digestOfNat (value : Nat) : List UInt8 :=
  (List.range 32).map fun k => UInt8.ofNat (value >>> (8 * (31 - k)))

@[simp] theorem length_digestOfNat (value : Nat) : (digestOfNat value).length = 32 := by
  simp [digestOfNat]

/-- The digest of the table, or a longer value that contains the data. -/
def tabulatedDigest (table : List (List UInt8 × List UInt8)) (data : List UInt8) : List UInt8 :=
  match table.find? fun entry => entry.1 = data with
  | some entry => entry.2
  | none => List.replicate 33 0 ++ data

/-- A table of different 32-byte digests gives an injective function. -/
theorem tabulatedDigest_injective {table : List (List UInt8 × List UInt8)}
    (width : ∀ entry ∈ table, entry.2.length = 32) (different : (table.map Prod.snd).Nodup)
    {xs ys : List UInt8} (same : tabulatedDigest table xs = tabulatedDigest table ys) :
    xs = ys := by
  unfold tabulatedDigest at same
  cases foundX : table.find? fun entry => entry.1 = xs with
  | some entryX =>
      have memX := List.mem_of_find?_eq_some foundX
      have keyX : entryX.1 = xs := by simpa using List.find?_some foundX
      cases foundY : table.find? fun entry => entry.1 = ys with
      | some entryY =>
          have memY := List.mem_of_find?_eq_some foundY
          have keyY : entryY.1 = ys := by simpa using List.find?_some foundY
          rw [foundX, foundY] at same
          have entries := List.inj_on_of_nodup_map different memX memY same
          rw [← keyX, ← keyY, entries]
      | none =>
          rw [foundX, foundY] at same
          have lengths := congrArg List.length same
          simp [width entryX memX] at lengths
  | none =>
      cases foundY : table.find? fun entry => entry.1 = ys with
      | some entryY =>
          have memY := List.mem_of_find?_eq_some foundY
          rw [foundX, foundY] at same
          have lengths := congrArg List.length same
          simp [width entryY memY] at lengths
      | none =>
          rw [foundX, foundY] at same
          exact List.append_cancel_left same

end ModelDistribution.Foundation
