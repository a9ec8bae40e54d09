/-
Module: ModelDistribution.Foundation.ErasureCode
Layer: Foundation
Purpose: Systematic erasure codes on words of equally long shards, and what is left of a word when only
  some of its shards are kept. That any `k` shards determine the word is a predicate on the code.
Imports: Mathlib.Data.Finset.Card, Mathlib.Data.List.Forall2, ModelDistribution.Foundation.Chunking
Trusted boundary: none
Main exports: BlockCode, Uniform, Erased, BlockCode.Mds, keepOnly, Uniform.piece_flatten,
  Uniform.length_flatten, erased_keepOnly, countP_keepOnly, withoutLost,
  erased_withoutLost, countP_withoutLost
-/
import Mathlib.Data.Finset.Card
import Mathlib.Data.List.Forall2
import ModelDistribution.Foundation.Chunking

namespace ModelDistribution.Foundation

variable {Codec ε β : Type}

/-- A block code with a codec for each number of data and of parity shards. -/
structure BlockCode (Codec ε β : Type) where
  new : Nat → Nat → Except ε Codec
  encode : Codec → List (List β) → Except ε (List (List β))
  reconstruct : Codec → List (Option (List β)) → Except ε (List (Option (List β)))

/-- The word has `count` shards of `size` symbols each. -/
structure Uniform (shards : List (List β)) (count size : Nat) : Prop where
  count_eq : shards.length = count
  size_eq : ∀ shard ∈ shards, shard.length = size

/-- Some shards of the word are missing and the others are as in it. -/
def Erased (shards : List (List β)) (received : List (Option (List β))) : Prop :=
  List.Forall₂ (fun shard slot => slot = none ∨ slot = some shard) shards received

/-- Maximum distance separable: encoding keeps the data shards, and any `k` of the shards of an encoded
word with non-empty shards give the whole word back. -/
structure BlockCode.Mds (code : BlockCode Codec ε β) : Prop where
  data_pos : ∀ {k m : Nat} {codec : Codec}, code.new k m = .ok codec → 0 < k
  encode_ok : ∀ {k m size : Nat} {codec : Codec} {shards : List (List β)},
    code.new k m = .ok codec → Uniform shards (k + m) size → 0 < size →
      ∃ coded, code.encode codec shards = .ok coded ∧ Uniform coded (k + m) size ∧
        coded.take k = shards.take k
  reconstruct_ok : ∀ {k m size : Nat} {codec : Codec} {shards coded : List (List β)}
    {received : List (Option (List β))},
    code.new k m = .ok codec → Uniform shards (k + m) size → 0 < size →
      code.encode codec shards = .ok coded → Erased coded received →
      k ≤ received.countP Option.isSome →
        code.reconstruct codec received = .ok (coded.map some)

/-- Resizing to a larger length pads at the end. -/
theorem takeD_of_length_le {xs : List β} {n : Nat} (short : xs.length ≤ n) (x : β) :
    xs.takeD n x = xs ++ List.replicate (n - xs.length) x := by
  induction xs generalizing n with
  | nil => simp
  | cons first rest ih =>
      cases n with
      | zero => simp at short
      | succ n =>
          have shorter : rest.length ≤ n := Nat.le_of_succ_le_succ short
          simp [ih shorter]

/-! ### Words of equally long shards -/

namespace Uniform

theorem append {xs ys : List (List β)} {m n size : Nat} (left : Uniform xs m size)
    (right : Uniform ys n size) : Uniform (xs ++ ys) (m + n) size where
  count_eq := by rw [List.length_append, left.count_eq, right.count_eq]
  size_eq := by
    intro shard mem
    rcases List.mem_append.mp mem with inLeft | inRight
    · exact left.size_eq shard inLeft
    · exact right.size_eq shard inRight

theorem replicate (n : Nat) {shard : List β} {size : Nat} (length : shard.length = size) :
    Uniform (List.replicate n shard) n size where
  count_eq := List.length_replicate
  size_eq := by
    intro other mem
    rw [List.eq_of_mem_replicate mem, length]

theorem take {shards : List (List β)} {count size k : Nat} (uniform : Uniform shards count size)
    (enough : k ≤ count) : Uniform (shards.take k) k size where
  count_eq := by
    rw [List.length_take, uniform.count_eq]
    exact Nat.min_eq_left enough
  size_eq shard mem := uniform.size_eq shard (List.mem_of_mem_take mem)

theorem length_flatten {shards : List (List β)} {count size : Nat}
    (uniform : Uniform shards count size) : shards.flatten.length = count * size := by
  have lengths : shards.map List.length = List.replicate count size := by
    rw [List.eq_replicate_iff, List.length_map]
    refine ⟨uniform.count_eq, ?_⟩
    intro length mem
    obtain ⟨shard, inShards, rfl⟩ := List.mem_map.mp mem
    exact uniform.size_eq shard inShards
  rw [List.length_flatten, lengths, List.sum_replicate_nat]

/-- Piece `j` of the joined shards is shard `j`. -/
theorem piece_flatten {shards : List (List β)} {count size j : Nat} {shard : List β}
    (uniform : Uniform shards count size) (found : shards[j]? = some shard) :
    piece shards.flatten size j = shard := by
  induction shards generalizing count j with
  | nil => simp at found
  | cons first rest ih =>
      have firstSize : first.length = size := uniform.size_eq first (by simp)
      have restUniform : Uniform rest rest.length size :=
        ⟨rfl, fun other mem => uniform.size_eq other (List.mem_cons_of_mem first mem)⟩
      cases j with
      | zero =>
          have same : first = shard := by simpa using found
          subst same
          rw [piece, Nat.zero_mul, List.drop_zero, List.flatten_cons, ← firstSize]
          exact List.take_left
      | succ j =>
          have later : rest[j]? = some shard := by simpa using found
          have skipped : (first :: rest).flatten.drop ((j + 1) * size) =
              rest.flatten.drop (j * size) := by
            rw [List.flatten_cons, Nat.add_mul, Nat.one_mul, Nat.add_comm, ← List.drop_drop,
              ← firstSize, List.drop_left]
          rw [piece, skipped]
          exact ih restUniform later

end Uniform

/-! ### Words with missing shards -/

/-- The word with only the shards at the listed positions. -/
def keepOnly (shards : List (List β)) (present : List Nat) : List (Option (List β)) :=
  (List.range shards.length).map fun i => if i ∈ present then shards[i]? else none

theorem erased_keepOnly (shards : List (List β)) (present : List Nat) :
    Erased shards (keepOnly shards present) := by
  apply List.forall₂_iff_get.mpr
  constructor
  · simp [keepOnly]
  · intro i inShards inKept
    simp only [keepOnly, List.get_eq_getElem, List.getElem_map, List.getElem_range]
    split
    · exact .inr (List.getElem?_eq_getElem inShards)
    · exact .inl rfl

/-- As many shards are kept as there are different positions inside the word. -/
theorem countP_keepOnly (shards : List (List β)) (present : List Nat) :
    (keepOnly shards present).countP Option.isSome =
      (present.toFinset.filter (· < shards.length)).card := by
  have kept : (List.range shards.length).filter
      (fun i => (if i ∈ present then shards[i]? else none).isSome) =
        (List.range shards.length).filter (fun i => decide (i ∈ present)) := by
    apply List.filter_congr
    intro i mem
    have inside : i < shards.length := List.mem_range.mp mem
    by_cases asked : i ∈ present <;> simp [asked, inside]
  have positions : present.toFinset.filter (· < shards.length) =
      ((List.range shards.length).filter (fun i => decide (i ∈ present))).toFinset := by
    ext i
    simp [and_comm]
  calc (keepOnly shards present).countP Option.isSome
      = ((List.range shards.length).filter
          (fun i => (if i ∈ present then shards[i]? else none).isSome)).length := by
        rw [keepOnly, List.countP_map, List.countP_eq_length_filter]
        rfl
    _ = ((List.range shards.length).filter (fun i => decide (i ∈ present))).length := by rw [kept]
    _ = (present.toFinset.filter (· < shards.length)).card := by
        rw [positions, List.toFinset_card_of_nodup (List.nodup_range.filter _)]

/-- The word without the shards at the lost positions. -/
def withoutLost (shards : List (List β)) (lost : Finset Nat) : List (Option (List β)) :=
  shards.mapIdx fun i shard => if i ∈ lost then none else some shard

/-- Losing some positions is keeping the others. -/
theorem withoutLost_eq_keepOnly (shards : List (List β)) (lost : Finset Nat) :
    withoutLost shards lost =
      keepOnly shards ((List.range shards.length).filter fun i => i ∉ lost) := by
  apply List.ext_getElem
  · simp [withoutLost, keepOnly]
  · intro i inLost inKept
    have inside : i < shards.length := by simpa [withoutLost] using inLost
    by_cases gone : i ∈ lost <;> simp [withoutLost, keepOnly, gone, inside]

theorem erased_withoutLost (shards : List (List β)) (lost : Finset Nat) :
    Erased shards (withoutLost shards lost) :=
  withoutLost_eq_keepOnly shards lost ▸ erased_keepOnly shards _

/-- What is left after a loss inside the word. -/
theorem countP_withoutLost (shards : List (List β)) {lost : Finset Nat}
    (inside : lost ⊆ Finset.range shards.length) :
    (withoutLost shards lost).countP Option.isSome = shards.length - lost.card := by
  have left : (((List.range shards.length).filter fun i => i ∉ lost).toFinset.filter
      (· < shards.length)) = Finset.range shards.length \ lost := by
    ext i
    simp
    tauto
  rw [withoutLost_eq_keepOnly, countP_keepOnly, left, Finset.card_sdiff_of_subset inside,
    Finset.card_range]

/-! ### One parity shard over two data shards -/

/-- The code that only makes codecs of two data shards and one parity shard. The parity is taken symbol
by symbol, and each data symbol is computed from the other one and the parity. -/
def BlockCode.ofParity (parity first second : β → β → β) (refused : ε) :
    BlockCode Unit ε β where
  new k m := if k = 2 ∧ m = 1 then .ok () else .error refused
  encode _ shards :=
    match shards with
    | [xs, ys, _] => .ok [xs, ys, List.zipWith parity xs ys]
    | _ => .error refused
  reconstruct _ received :=
    match received with
    | [some xs, some ys, some zs] => .ok [some xs, some ys, some zs]
    | [some xs, some ys, none] => .ok [some xs, some ys, some (List.zipWith parity xs ys)]
    | [some xs, none, some zs] => .ok [some xs, some (List.zipWith second xs zs), some zs]
    | [none, some ys, some zs] => .ok [some (List.zipWith first ys zs), some ys, some zs]
    | _ => .error refused

section

variable {parity first second : β → β → β}

theorem zipWith_second (cancels : ∀ x y, second x (parity x y) = y) {xs ys : List β}
    (same : xs.length = ys.length) :
    List.zipWith second xs (List.zipWith parity xs ys) = ys := by
  induction xs generalizing ys with
  | nil => rw [List.length_eq_zero_iff.mp same.symm, List.zipWith_nil_left]
  | cons x xs ih =>
      cases ys with
      | nil => simp at same
      | cons y ys =>
          have shorter : xs.length = ys.length := Nat.succ.inj same
          simp [cancels, ih shorter]

theorem zipWith_first (cancels : ∀ x y, first y (parity x y) = x) {xs ys : List β}
    (same : xs.length = ys.length) :
    List.zipWith first ys (List.zipWith parity xs ys) = xs := by
  have turned : List.zipWith parity xs ys = List.zipWith (fun y x => parity x y) ys xs :=
    List.zipWith_comm
  rw [turned]
  exact zipWith_second (fun y x => cancels x y) same.symm

theorem BlockCode.ofParity_sizes {refused : ε} {k m : Nat} {codec : Unit}
    (made : (BlockCode.ofParity parity first second refused).new k m = .ok codec) :
    k = 2 ∧ m = 1 := by
  simp only [ofParity] at made
  split at made
  · assumption
  · cases made

/-- It is maximum distance separable when each data symbol can be computed back. -/
theorem BlockCode.ofParity_mds (firstBack : ∀ x y, first y (parity x y) = x)
    (secondBack : ∀ x y, second x (parity x y) = y) (refused : ε) :
    (BlockCode.ofParity parity first second refused).Mds where
  data_pos := by
    intro k m codec made
    rw [(ofParity_sizes made).1]
    exact Nat.zero_lt_two
  encode_ok := by
    intro k m size codec shards made uniform _
    obtain ⟨rfl, rfl⟩ := ofParity_sizes made
    obtain ⟨xs, ys, zs, rfl⟩ := List.length_eq_three.mp uniform.count_eq
    have xsSize : xs.length = size := uniform.size_eq xs (by simp)
    have ysSize : ys.length = size := uniform.size_eq ys (by simp)
    refine ⟨_, rfl, ⟨rfl, ?_⟩, rfl⟩
    intro shard mem
    simp only [List.mem_cons, List.not_mem_nil, or_false] at mem
    rcases mem with rfl | rfl | rfl
    · exact xsSize
    · exact ysSize
    · rw [List.length_zipWith, xsSize, ysSize, Nat.min_self]
  reconstruct_ok := by
    intro k m size codec shards coded received made uniform _ encoded erased enough
    obtain ⟨rfl, rfl⟩ := ofParity_sizes made
    obtain ⟨xs, ys, zs, rfl⟩ := List.length_eq_three.mp uniform.count_eq
    have same : xs.length = ys.length :=
      (uniform.size_eq xs (by simp)).trans (uniform.size_eq ys (by simp)).symm
    have word : [xs, ys, List.zipWith parity xs ys] = coded := Except.ok.inj encoded
    subst word
    obtain ⟨slotX, restX, keptX, erasedX, rfl⟩ := List.forall₂_cons_left_iff.mp erased
    obtain ⟨slotY, restY, keptY, erasedY, rfl⟩ := List.forall₂_cons_left_iff.mp erasedX
    obtain ⟨slotZ, restZ, keptZ, erasedZ, rfl⟩ := List.forall₂_cons_left_iff.mp erasedY
    obtain rfl := List.forall₂_nil_left_iff.mp erasedZ
    -- at least two of the three shards are left
    rcases keptX with rfl | rfl <;> rcases keptY with rfl | rfl <;> rcases keptZ with rfl | rfl <;>
      simp [ofParity, zipWith_first firstBack same, zipWith_second secondBack same] at enough ⊢

end

end ModelDistribution.Foundation
