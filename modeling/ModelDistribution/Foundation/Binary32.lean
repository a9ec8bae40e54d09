/-
Module: ModelDistribution.Foundation.Binary32
Layer: Foundation
Purpose: Single-precision quotients of counters. A counter converted to single precision is a finite
  non-zero float, so dividing it by itself gives exactly one and a full counter never falls below a
  threshold of one.
Imports: Mathlib.Algebra.Group.Nat.Defs
Trusted boundary: none
Main exports: toFloat32_unpack_finite, one_le_toFloat32_div_self
-/
import Mathlib.Algebra.Group.Nat.Defs

namespace ModelDistribution.Foundation.Binary32

open Float.Model Float.Model.UnpackedFloat

private theorem shifted_mantissa (em : ExtendedMantissa) :
    ∀ k : Nat, (em >>> k).mantissa = em.mantissa / 2 ^ k
  | 0 => by simp [HShiftRight.hShiftRight, Nat.repeat]
  | k + 1 => by
      change (em >>> k).mantissa / 2 = _
      rw [shifted_mantissa em k, Nat.div_div_eq_div_mul, Nat.pow_succ]

private theorem roundedMantissa_bounds (em : ExtendedMantissa) :
    em.mantissa ≤ em.roundedMantissa ∧ em.roundedMantissa ≤ em.mantissa + 1 := by
  rcases em with ⟨m, r, s⟩
  cases r <;> cases s <;>
    simp only [ExtendedMantissa.roundedMantissa, ExtendedMantissa.accuracy,
      Accuracy.roundToNearestEven] <;> omega

private theorem mantissa_ofExact (m : Nat) :
    (ExtendedMantissa.ofMantissaAndAccuracy m .exact).mantissa = m := rfl

/-- Between `2 ^ 23` and `2 ^ 24` a mantissa has exactly the 24 bits of the format. -/
private theorem log2_of_bounds {m k : Nat} (low : 2 ^ k ≤ m) (high : m < 2 ^ (k + 1)) :
    m.log2 = k := by
  have nonzero : m ≠ 0 := by
    have := Nat.two_pow_pos k
    omega
  have lower := (Nat.le_log2 nonzero).mpr low
  have upper := (Nat.log2_lt nonzero).mpr high
  omega

/-- The exponent that puts the leading bit into the 24th place, bounded below by the subnormals. -/
private theorem targetExponent_binary32 (position : Int) :
    Format.binary32.targetExponent position = max (position - 24) (-149) := rfl

/-- A shift whose target lies `k` above the exponent drops exactly `k` bits. -/
private theorem shiftToTargetExponent_of {m k : Nat} {e : Int} {a : Accuracy}
    (target : Format.binary32.targetExponent (totalExponent m e) = e + (k : Int)) :
    shiftToTargetExponent Format.binary32 m e a =
      (ExtendedMantissa.ofMantissaAndAccuracy m a >>> k, e + (k : Int)) := by
  have amount : (e + (k : Int) - e).toNat = k := by omega
  simp only [shiftToTargetExponent, shiftToExponent, target, amount]

/-- A mantissa of `24 + k` bits in the middle of the exponent range has its target `k` higher. -/
private theorem target_of_log2 {m k : Nat} {e : Int} (bits : m.log2 = 23 + k) (low : -100 ≤ e) :
    Format.binary32.targetExponent (totalExponent m e) = e + (k : Int) := by
  rw [targetExponent_binary32, totalExponent]
  omega

/-- Rounding is two shifts: one that rounds and one that takes up a carry. -/
private theorem roundWithAccuracy_of {m : Nat} {e d d' : Int} {accuracy : Accuracy}
    {em em' : ExtendedMantissa}
    (first : shiftToTargetExponent Format.binary32 m e accuracy = (em, d))
    (second : shiftToTargetExponent Format.binary32 em.roundedMantissa d .exact = (em', d'))
    (positive : 0 < em'.mantissa) :
    roundWithAccuracy Format.binary32 .positive m e accuracy =
      .finite .positive em'.mantissa d' positive := by
  unfold roundWithAccuracy
  rw [first]
  dsimp only
  rw [second]
  exact dif_neg (Nat.pos_iff_ne_zero.mp positive)

/-- Rounding a mantissa of 24 or more bits in the middle of the exponent range gives a normalized
float that stays there. -/
private theorem roundWithAccuracy_normal {m k : Nat} {e : Int} (bits : m.log2 = 23 + k)
    (low : -100 ≤ e) (high : e + k < 100) :
    ∃ f d, ∃ hf : 0 < f, roundWithAccuracy Format.binary32 .positive m e .exact =
      .finite .positive f d hf ∧ f.log2 = 23 ∧ -100 ≤ d ∧ d ≤ 100 := by
  have nonzero : m ≠ 0 := by
    rintro rfl
    simp at bits
    omega
  have lowerPow : 2 ^ 23 * 2 ^ k ≤ m := by
    rw [← Nat.pow_add, ← bits]
    exact Nat.log2_self_le nonzero
  have upperPow : m < 2 ^ 24 * 2 ^ k := by
    rw [← Nat.pow_add, show 24 + k = m.log2 + 1 by omega]
    exact Nat.lt_log2_self
  -- First shift: keep the 24 leading bits and round them.
  obtain ⟨cut, cutEq⟩ : ∃ em, ExtendedMantissa.ofMantissaAndAccuracy m .exact >>> k = em := ⟨_, rfl⟩
  have cutLow : 2 ^ 23 ≤ cut.mantissa := by
    rw [← cutEq, shifted_mantissa]
    exact (Nat.le_div_iff_mul_le (Nat.two_pow_pos k)).mpr lowerPow
  have cutHigh : cut.mantissa < 2 ^ 24 := by
    rw [← cutEq, shifted_mantissa]
    exact (Nat.div_lt_iff_lt_mul (Nat.two_pow_pos k)).mpr upperPow
  obtain ⟨roundLow, roundHigh⟩ := roundedMantissa_bounds cut
  have first := shiftToTargetExponent_of (a := .exact) (target_of_log2 bits low)
  rw [cutEq] at first
  by_cases carry : cut.roundedMantissa = 2 ^ 24
  · -- Rounding up produced a twenty-fifth bit, which the second shift drops.
    have carried : cut.roundedMantissa.log2 = 23 + 1 := by rw [carry]; decide
    have second := shiftToTargetExponent_of (a := .exact)
      (target_of_log2 (e := e + k) carried (by omega))
    have halved :
        (ExtendedMantissa.ofMantissaAndAccuracy cut.roundedMantissa .exact >>> 1).mantissa =
          2 ^ 23 := by
      rw [shifted_mantissa, mantissa_ofExact, carry]
      exact Nat.pow_div (by decide) (by decide)
    refine ⟨_, _, _, roundWithAccuracy_of first second (by omega), ?_, by omega, by omega⟩
    rw [halved]
    decide
  · have kept : cut.roundedMantissa.log2 = 23 + 0 :=
      log2_of_bounds (by omega) (by omega)
    have second := shiftToTargetExponent_of (a := .exact)
      (target_of_log2 (e := e + k) kept (by omega))
    have same : (ExtendedMantissa.ofMantissaAndAccuracy cut.roundedMantissa .exact >>> 0).mantissa =
        cut.roundedMantissa := by
      rw [shifted_mantissa, mantissa_ofExact, Nat.pow_zero, Nat.div_one]
    refine ⟨_, _, _, roundWithAccuracy_of first second (by omega), ?_, by omega, by omega⟩
    rw [same]
    exact kept

/-- A normalized float in the middle of the exponent range is packed with its exponent field. -/
private theorem pack_normal {f : Nat} {d : Int} (hf : 0 < f) (bits : f.log2 = 23)
    (field : (d + 127 + 23).toNat < 255) :
    UnpackedFloat.pack Format.binary32 (.finite .positive f d hf) =
      packComponents Format.binary32 .positive (BitVec.ofNat _ (d + 127 + 23).toNat)
        (BitVec.ofNat _ f) := by
  have noOverflow : ¬ 256 ≤ (d + 127 + 23).toNat + 1 := by omega
  have normal : f.log2 + 1 = 24 := by rw [bits]
  exact (if_neg noOverflow).trans (if_pos normal)

/-- A bit pattern whose exponent field is neither all ones nor zero unpacks to a finite float. -/
private theorem unpack_normal {b : BitVec Format.binary32.numBits}
    (notInfinite : unpackExponent b ≠ -1#8) (notTiny : unpackExponent b ≠ 0#8) :
    ∃ s m e, ∃ hm : 0 < m, UnpackedFloat.unpack Format.binary32 b = .finite s m e hm := by
  have implicitBit : 0 < (1#1 ++ unpackMantissa b).toNat := by
    rw [BitVec.toNat_append]
    exact Nat.lt_of_lt_of_le (by decide) Nat.left_le_or
  exact ⟨_, _, _, implicitBit, (if_neg notInfinite).trans (if_neg notTiny)⟩

/-- Packing a normalized float and unpacking it gives a finite float again. -/
private theorem unpack_pack_normal {f : Nat} {d : Int} (hf : 0 < f) (bits : f.log2 = 23)
    (low : -100 ≤ d) (high : d ≤ 100) :
    ∃ s m e, ∃ hm : 0 < m,
      (Float32.Model.pack (.finite .positive f d hf)).unpack = .finite s m e hm := by
  have field : (d + 127 + 23).toNat < 255 ∧ 0 < (d + 127 + 23).toNat := by omega
  have exponent : unpackExponent (UnpackedFloat.pack Format.binary32 (.finite .positive f d hf)) =
      BitVec.ofNat 8 (d + 127 + 23).toNat := by
    rw [pack_normal hf bits field.1, unpackExponent_packComponents]
  apply unpack_normal
  · intro same
    have fields := congrArg BitVec.toNat (exponent.symm.trans same)
    simp at fields
    omega
  · intro same
    have fields := congrArg BitVec.toNat (exponent.symm.trans same)
    simp at fields
    omega

/-- A non-zero counter converts to a finite float. -/
theorem toFloat32_unpack_finite {n : UInt32} (nonzero : n ≠ 0) :
    ∃ s m e, ∃ hm : 0 < m, n.toFloat32.toModel.unpack = .finite s m e hm := by
  have positive : n.toNat ≠ 0 := fun h => nonzero (UInt32.toNat_inj.mp h)
  have short : n.toNat.log2 < 32 := (Nat.log2_lt positive).mpr n.toNat_lt
  have compared : compare (n.toNat : Int) 0 = .gt := by
    rw [Int.compare_eq_gt]
    omega
  -- The conversion first widens short mantissas to 24 bits.
  have widened : (n.toNat <<< (23 - n.toNat.log2)).log2 = 23 + (n.toNat.log2 - 23) := by
    rw [Nat.shiftLeft_eq]
    refine log2_of_bounds ?_ ?_
    · calc 2 ^ (23 + (n.toNat.log2 - 23)) = 2 ^ n.toNat.log2 * 2 ^ (23 - n.toNat.log2) := by
            rw [← Nat.pow_add]; congr 1; omega
        _ ≤ n.toNat * 2 ^ (23 - n.toNat.log2) :=
            Nat.mul_le_mul_right _ (Nat.log2_self_le positive)
    · calc n.toNat * 2 ^ (23 - n.toNat.log2)
          < 2 ^ (n.toNat.log2 + 1) * 2 ^ (23 - n.toNat.log2) :=
            Nat.mul_lt_mul_of_pos_right Nat.lt_log2_self (Nat.two_pow_pos _)
        _ = 2 ^ (23 + (n.toNat.log2 - 23) + 1) := by
            rw [← Nat.pow_add]; congr 1; omega
  have target : Format.binary32.targetExponent (totalExponent n.toNat 0) =
      (n.toNat.log2 : Int) - 23 := by
    rw [targetExponent_binary32, totalExponent]
    omega
  have amount : ((0 : Int) - ((n.toNat.log2 : Int) - 23)).toNat = 23 - n.toNat.log2 := by omega
  obtain ⟨f, d, hf, rounded, bits, low, high⟩ :=
    roundWithAccuracy_normal (e := 0 - ((23 - n.toNat.log2 : Nat) : Int)) widened
      (by omega) (by omega)
  have widening : UnpackedFloat.round Format.binary32 .positive n.toNat 0 =
      roundWithAccuracy Format.binary32 .positive (n.toNat <<< (23 - n.toNat.log2))
        (0 - ((23 - n.toNat.log2 : Nat) : Int)) .exact := by
    simp only [UnpackedFloat.round, decreaseExponent, target, amount]
  have converted : UnpackedFloat.ofUInt32 Format.binary32 n = .finite .positive f d hf := by
    unfold UnpackedFloat.ofUInt32 UnpackedFloat.ofNat UnpackedFloat.ofInt UnpackedFloat.normalize
    rw [compared]
    exact widening.trans rounded
  have repacked : n.toFloat32.toModel = Float32.Model.pack (.finite .positive f d hf) := by
    rw [← converted]
    rfl
  rw [repacked]
  exact unpack_pack_normal hf bits low high

/-- The quotient of a mantissa by itself is an exact power of two. -/
private theorem divCore_self {m : Nat} (e : Int) (hm : 0 < m) :
    divCore Format.binary32 m e m e = (2 ^ 24, -24, .exact) := by
  have target : min (e - e) (Format.binary32.targetExponent
      (totalExponent m e - totalExponent m e)) = -24 := by
    rw [Int.sub_self, Int.sub_self, targetExponent_binary32]
    omega
  have amount : (e - e - (-24 : Int)).toNat = 24 := by omega
  simp only [divCore, target, amount, Nat.shiftLeft_eq, Nat.mul_div_cancel_left _ hm,
    Nat.mul_mod_right, accuracyOfFraction, if_pos]

/-- A finite float divided by itself rounds the quotient one. -/
private theorem div_self (s : Sign) {m : Nat} (e : Int) (hm : 0 < m) :
    UnpackedFloat.div Format.binary32 (.finite s m e hm) (.finite s m e hm) =
      roundWithAccuracy Format.binary32 .positive (2 ^ 24) (-24) .exact := by
  have sign : s / s = .positive := by cases s <;> rfl
  show (let (m, e, acc) := divCore Format.binary32 m e m e
    roundWithAccuracy Format.binary32 (s / s) m e acc) = _
  rw [divCore_self e hm, sign]

/-- A non-zero counter divided by itself is at least one. -/
theorem one_le_toFloat32_div_self {n : UInt32} (nonzero : n ≠ 0) :
    (1.0 : Float32) ≤ n.toFloat32 / n.toFloat32 := by
  obtain ⟨s, m, e, hm, unpacked⟩ := toFloat32_unpack_finite nonzero
  have quotient : n.toFloat32 / n.toFloat32 = .ofModel (Float32.Model.pack
      (roundWithAccuracy Format.binary32 .positive (2 ^ 24) (-24) .exact)) := by
    change Float32.ofModel (Float32.Model.pack (UnpackedFloat.div Format.binary32
      n.toFloat32.toModel.unpack n.toFloat32.toModel.unpack)) = _
    rw [unpacked, div_self]
  rw [quotient]
  decide +kernel

end ModelDistribution.Foundation.Binary32
