/-
Module: ModelDistribution.Foundation.BitBuffer
Layer: Foundation
Purpose: Growable bit vectors over bytes, most significant bit first. A buffer keeps its raw storage,
  so bits behind the live length stay in the last byte after a truncation; the lemmas describe a
  buffer only by its live bits.
Imports: ModelDistribution.Foundation.Checked
Trusted boundary: human-reviewed spec
Main exports: msb0, setMsb0, BitBuffer, BitBuffer.get, BitBuffer.set, BitBuffer.truncate,
  BitBuffer.countOnes, BitBuffer.fromSlice, BitBuffer.asRawSlice
-/
import ModelDistribution.Foundation.Checked

namespace ModelDistribution.Foundation

/-- Bit `k` of a byte, counted from the most significant one. -/
def msb0 (byte : UInt8) (k : Nat) : Bool := byte.toBitVec.getMsbD k

/-- Set bit `k` of a byte, counted from the most significant one. -/
def setMsb0 (byte : UInt8) (k : Nat) : UInt8 := ⟨byte.toBitVec ||| (0x80#8 >>> k)⟩

private theorem topBit_shifted :
    ∀ k < 8, ∀ j < 8, (0x80#8 >>> k).getMsbD j = decide (j = k) := by
  decide

theorem msb0_setMsb0 (byte : UInt8) {k j : Nat} (hk : k < 8) (hj : j < 8) :
    msb0 (setMsb0 byte k) j = (msb0 byte j || decide (j = k)) := by
  simp [msb0, setMsb0, topBit_shifted k hk j hj]

/-- A byte is its eight bits. -/
theorem msb0_ext {a b : UInt8} (h : ∀ k < 8, msb0 a k = msb0 b k) : a = b := by
  apply UInt8.toBitVec_inj.mp
  apply BitVec.eq_of_getMsbD_eq
  intro k hk
  exact h k hk

/-- A bit vector of `len` live bits stored in whole bytes. -/
structure BitBuffer where
  raw : List UInt8
  len : Nat
  /-- The storage holds every live bit. -/
  fits : len ≤ 8 * raw.length
deriving DecidableEq, Repr

namespace BitBuffer

/-- Storage bit `i`, live or not. -/
def bit (buffer : BitBuffer) (i : Nat) : Bool := msb0 (buffer.raw.getD (i / 8) 0) (i % 8)

/-- `n` cleared bits. -/
def zeros (n : Nat) : BitBuffer where
  raw := List.replicate ((n + 7) / 8) 0
  len := n
  fits := by simp; omega

/-- All bits of a byte slice. -/
def fromSlice (bytes : List UInt8) : BitBuffer where
  raw := bytes
  len := 8 * bytes.length
  fits := Nat.le_refl _

/-- Indexing panics behind the last live bit. -/
def get (buffer : BitBuffer) (i : Nat) : Checked Bool :=
  if i < buffer.len then .ok (buffer.bit i) else .error .indexOutOfBounds

/-- Raise bit `i`. -/
def set (buffer : BitBuffer) (i : Nat) : Checked BitBuffer :=
  if i < buffer.len then
    .ok
      { raw := buffer.raw.modify (i / 8) (setMsb0 · (i % 8))
        len := buffer.len
        fits := by simpa using buffer.fits }
  else .error .indexOutOfBounds

/-- Shorten the live part; the storage keeps its bytes. -/
def truncate (buffer : BitBuffer) (n : Nat) : BitBuffer where
  raw := buffer.raw
  len := min buffer.len n
  fits := Nat.le_trans (Nat.min_le_left _ _) buffer.fits

/-- The live bits in index order. -/
def toList (buffer : BitBuffer) : List Bool := (List.range buffer.len).map buffer.bit

def countOnes (buffer : BitBuffer) : Nat := buffer.toList.count true

/-- The bytes that contain live bits, padding included. -/
def asRawSlice (buffer : BitBuffer) : List UInt8 := buffer.raw.take ((buffer.len + 7) / 8)

/-! ### Reading back each operation -/

@[simp] theorem zeros_len (n : Nat) : (zeros n).len = n := rfl

@[simp] theorem fromSlice_len (bytes : List UInt8) :
    (fromSlice bytes).len = 8 * bytes.length := rfl

@[simp] theorem truncate_len (buffer : BitBuffer) (n : Nat) :
    (buffer.truncate n).len = min buffer.len n := rfl

@[simp] theorem truncate_bit (buffer : BitBuffer) (n i : Nat) :
    (buffer.truncate n).bit i = buffer.bit i := rfl

@[simp] theorem zeros_bit (n i : Nat) : (zeros n).bit i = false := by
  have cleared : (List.replicate ((n + 7) / 8) (0 : UInt8)).getD (i / 8) 0 = 0 := by
    rw [List.getD_eq_getElem?_getD, List.getElem?_replicate]
    split <;> rfl
  have zeroByte : ∀ k < 8, msb0 0 k = false := by decide
  unfold bit zeros
  rw [cleared]
  exact zeroByte _ (Nat.mod_lt _ (by decide))

theorem get_of_lt {buffer : BitBuffer} {i : Nat} (h : i < buffer.len) :
    buffer.get i = .ok (buffer.bit i) := by
  simp [get, h]

theorem get_of_ge {buffer : BitBuffer} {i : Nat} (h : buffer.len ≤ i) :
    buffer.get i = .error .indexOutOfBounds := by
  simp [get, Nat.not_lt.mpr h]

/-- Raising bit `i` keeps the length and changes no other bit. -/
theorem set_of_lt {buffer : BitBuffer} {i : Nat} (h : i < buffer.len) :
    ∃ raised, buffer.set i = .ok raised ∧ raised.len = buffer.len ∧
      ∀ j, raised.bit j = (buffer.bit j || decide (j = i)) := by
  refine ⟨_, if_pos h, rfl, fun j => ?_⟩
  have stored : i / 8 < buffer.raw.length := by
    have := buffer.fits
    omega
  simp only [bit, List.getD_eq_getElem?_getD, List.getElem?_modify]
  by_cases sameByte : i / 8 = j / 8
  · have inside : j / 8 < buffer.raw.length := sameByte ▸ stored
    have sameBit : (j % 8 = i % 8) = (j = i) := propext ⟨fun e => by omega, fun e => by rw [e]⟩
    simp [sameByte, inside, msb0_setMsb0 _ (Nat.mod_lt i (by decide : 0 < 8))
      (Nat.mod_lt j (by decide : 0 < 8)), sameBit]
  · have different : j ≠ i := fun e => sameByte (by rw [e])
    simp [sameByte, different]

/-- Raising a bit writes in place. -/
theorem length_raw_of_set {buffer raised : BitBuffer} {i : Nat}
    (h : buffer.set i = .ok raised) : raised.raw.length = buffer.raw.length := by
  unfold set at h
  split at h
  · cases h
    simp
  · cases h

/-- Two buffers of one size that agree on every storage bit are the same. -/
theorem ext_bit {a b : BitBuffer} (sameStorage : a.raw.length = b.raw.length)
    (sameLen : a.len = b.len) (bits : ∀ i, a.bit i = b.bit i) : a = b := by
  have sameRaw : a.raw = b.raw := by
    refine List.ext_getElem sameStorage fun i inA inB => msb0_ext fun k hk => ?_
    have agreed := bits (8 * i + k)
    have byte : (8 * i + k) / 8 = i := by omega
    have offset : (8 * i + k) % 8 = k := by omega
    simpa [bit, byte, offset, inA, inB] using agreed
  cases a
  cases b
  simp_all

theorem length_asRawSlice (buffer : BitBuffer) :
    buffer.asRawSlice.length = (buffer.len + 7) / 8 := by
  have := buffer.fits
  simp only [asRawSlice, List.length_take]
  omega

/-- Every live bit survives the trip through the raw bytes. -/
theorem fromSlice_asRawSlice_bit (buffer : BitBuffer) {i : Nat} (h : i < buffer.len) :
    (fromSlice buffer.asRawSlice).bit i = buffer.bit i := by
  have kept : i / 8 < (buffer.len + 7) / 8 := by omega
  simp [bit, fromSlice, asRawSlice, kept]

/-! ### Counting -/

theorem length_toList (buffer : BitBuffer) : buffer.toList.length = buffer.len := by
  simp [toList]

theorem countOnes_le (buffer : BitBuffer) : buffer.countOnes ≤ buffer.len := by
  rw [← buffer.length_toList]
  exact List.count_le_length

@[simp] theorem countOnes_zeros (n : Nat) : (zeros n).countOnes = 0 := by
  rw [countOnes, List.count_eq_zero]
  simp [toList]

/-- All live bits are counted exactly when all of them are set. -/
theorem countOnes_eq_len_iff (buffer : BitBuffer) :
    buffer.countOnes = buffer.len ↔ ∀ i < buffer.len, buffer.bit i = true := by
  have counted := List.count_eq_length (a := true) (l := buffer.toList)
  rw [buffer.length_toList] at counted
  rw [countOnes, counted]
  constructor
  · intro allSet i hi
    exact (allSet _ (List.mem_map_of_mem (List.mem_range.mpr hi))).symm
  · intro allSet b hb
    obtain ⟨i, hi, rfl⟩ := List.mem_map.mp hb
    exact (allSet i (List.mem_range.mp hi)).symm

private theorem count_raise (f : Nat → Bool) {i : Nat} (cleared : f i = false) :
    ∀ n, i < n → ((List.range n).map fun j => f j || decide (j = i)).count true =
      ((List.range n).map f).count true + 1
  | 0, h => absurd h (Nat.not_lt_zero _)
  | n + 1, h => by
      rw [List.range_succ]
      simp only [List.map_append, List.map_cons, List.map_nil, List.count_append]
      by_cases last : i = n
      · subst last
        have below : ((List.range i).map fun j => f j || decide (j = i)) =
            (List.range i).map f := by
          refine List.map_congr_left fun j hj => ?_
          have : j ≠ i := Nat.ne_of_lt (List.mem_range.mp hj)
          simp [this]
        simp [below, cleared]
      · have : n ≠ i := fun e => last e.symm
        rw [count_raise f cleared n (by omega)]
        simp only [this, decide_false, Bool.or_false]
        omega

/-- Raising a cleared bit adds one to the count. -/
theorem countOnes_set {buffer raised : BitBuffer} {i : Nat} (inside : i < buffer.len)
    (cleared : buffer.bit i = false) (h : buffer.set i = .ok raised) :
    raised.countOnes = buffer.countOnes + 1 := by
  obtain ⟨other, returned, sameLen, bits⟩ := set_of_lt inside
  rw [returned] at h
  cases h
  have spelled : raised.toList = (List.range buffer.len).map fun j =>
      buffer.bit j || decide (j = i) := by
    unfold toList
    rw [sameLen]
    exact List.map_congr_left fun j _ => bits j
  rw [countOnes, spelled, count_raise buffer.bit cleared buffer.len inside]
  rfl

end BitBuffer

end ModelDistribution.Foundation
