/-
Module: ModelDistribution.Foundation.Chunking
Layer: Foundation
Purpose: Cutting a list into pieces of one size, the last one clipped at the end: the number of
  pieces, their lengths, and that they join to the list again.
Imports: Mathlib.Data.List.Basic, ModelDistribution.Foundation.Checked
Trusted boundary: none
Main exports: ceilDiv, piece, chunks, start_lt_of_lt_ceilDiv, total_le_ceilDiv_mul, length_piece,
  flatMap_piece, getElem?_piece, chunks_of_pos, ceilDiv_le_of_le_mul, flatten_padded_pieces
-/
import Mathlib.Data.List.Basic
import ModelDistribution.Foundation.Checked

namespace ModelDistribution.Foundation

/-- The number of pieces of `size` that cover `total`. -/
def ceilDiv (total size : Nat) : Nat := (total + size - 1) / size

/-- Every piece below the rounded-up quotient starts inside the whole. -/
theorem start_lt_of_lt_ceilDiv {total size i : Nat} (positive : 0 < size)
    (h : i < ceilDiv total size) : i * size < total := by
  have reached : (i + 1) * size ≤ total + size - 1 := by
    calc (i + 1) * size ≤ (total + size - 1) / size * size := Nat.mul_le_mul_right _ h
      _ ≤ total + size - 1 := Nat.div_mul_le_self _ _
  rw [Nat.add_mul] at reached
  omega

/-- The pieces reach the end of the whole. -/
theorem total_le_ceilDiv_mul (total : Nat) {size : Nat} (positive : 0 < size) :
    total ≤ ceilDiv total size * size := by
  have below : total + size - 1 < (ceilDiv total size + 1) * size :=
    (Nat.div_lt_iff_lt_mul positive).mp (Nat.lt_succ_self _)
  rw [Nat.add_mul] at below
  omega

variable {α : Type}

/-- Piece `i` of the list. -/
def piece (data : List α) (size i : Nat) : List α := (data.drop (i * size)).take size

theorem length_piece (data : List α) (size i : Nat) :
    (piece data size i).length = min size (data.length - i * size) := by
  simp [piece]

/-- The first `n` pieces join to the part of the list that they cover. -/
theorem flatMap_piece (data : List α) (size : Nat) :
    ∀ n, (List.range n).flatMap (piece data size) = data.take (n * size)
  | 0 => by simp
  | n + 1 => by
      rw [List.range_succ, List.flatMap_append, flatMap_piece data size n]
      simp only [List.flatMap_cons, List.flatMap_nil, List.append_nil, piece]
      rw [Nat.add_mul, Nat.one_mul, List.take_add]

/-- All pieces together are the list. -/
theorem flatMap_all_pieces (data : List α) {size : Nat} (positive : 0 < size) :
    (List.range (ceilDiv data.length size)).flatMap (piece data size) = data := by
  rw [flatMap_piece]
  exact List.take_of_length_le (total_le_ceilDiv_mul _ positive)

/-- Element `j` of piece `i` is element `i * size + j` of the list. -/
theorem getElem?_piece (data : List α) {size j : Nat} (i : Nat) (inside : j < size) :
    (piece data size i)[j]? = data[i * size + j]? := by
  rw [piece, List.getElem?_take_of_lt inside, List.getElem?_drop]

/-- A quotient that is enough to cover the whole is not below the rounded-up one. -/
theorem ceilDiv_le_of_le_mul {total size count : Nat} (positive : 0 < size)
    (covered : total ≤ count * size) : ceilDiv total size ≤ count := by
  apply Nat.le_of_lt_succ
  rw [ceilDiv, Nat.div_lt_iff_lt_mul positive, Nat.succ_mul]
  omega

theorem ceilDiv_pos {total size : Nat} (some : 0 < total) (positive : 0 < size) :
    0 < ceilDiv total size :=
  Nat.div_pos (by omega) positive

/-- Padding resumes where it was cut. -/
theorem takeD_add (data : List α) (m n : Nat) (x : α) :
    data.takeD (m + n) x = data.takeD m x ++ (data.drop m).takeD n x := by
  induction m generalizing data with
  | zero => simp
  | succ m ih =>
      cases data with
      | nil => simp only [List.drop_nil, List.takeD_nil, List.replicate_append_replicate]
      | cons first rest =>
          rw [Nat.succ_add]
          simp [ih]

theorem takeD_take (data : List α) (n : Nat) (x : α) : (data.take n).takeD n x = data.takeD n x := by
  induction n generalizing data with
  | zero => rfl
  | succ n ih =>
      cases data with
      | nil => rfl
      | cons first rest => simp [ih]

/-- The first `n` pieces, each padded to full size, join to the list padded to their joint size. -/
theorem flatten_padded_pieces (data : List α) (size : Nat) (x : α) (n : Nat) :
    ((List.range n).map fun i => (piece data size i).takeD size x).flatten =
      data.takeD (n * size) x := by
  induction n with
  | zero => simp
  | succ n ih =>
      rw [List.range_succ, List.map_append, List.flatten_append, ih, Nat.succ_mul, takeD_add]
      simp [piece, takeD_take]

/-- Splitting a slice into pieces of one size, which panics on size zero. -/
def chunks (data : List α) (size : Nat) : Checked (List (List α)) :=
  if size = 0 then .error .assertionFailed
  else .ok ((List.range (ceilDiv data.length size)).map (piece data size))

theorem chunks_of_pos (data : List α) {size : Nat} (positive : 0 < size) :
    chunks data size = .ok ((List.range (ceilDiv data.length size)).map (piece data size)) :=
  if_neg (Nat.pos_iff_ne_zero.mp positive)

end ModelDistribution.Foundation
