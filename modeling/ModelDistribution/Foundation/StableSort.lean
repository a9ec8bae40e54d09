/-
Module: ModelDistribution.Foundation.StableSort
Layer: Foundation
Purpose: What a stable sort promises, and that the promise determines the result: a sorted permutation
  that keeps elements of equal rank in their order is unique, so every stable sort is insertion sort.
  Sorting by a property first and by a rank second is sorting the two halves apart.
Imports: Mathlib.Data.List.Sort
Trusted boundary: none
Main exports: RankedPrefix, rankedPrefix_iff, StableSorted, stableSorted_insertionSort,
  StableSorted.unique, FirstBy, insertionSort_firstBy, rel_of_mem_take_of_mem_drop
-/
import Mathlib.Data.List.Sort

namespace ModelDistribution.Foundation

/-- What the cut leaves out ranks behind everything it keeps. -/
theorem rel_of_mem_take_of_mem_drop {α : Type*} {le : α → α → Prop} {l : List α}
    (sorted : l.Pairwise le) {n : Nat} {a b : α}
    (kept : a ∈ l.take n) (cut : b ∈ l.drop n) : le a b := by
  rw [← List.take_append_drop n l, List.pairwise_append] at sorted
  exact sorted.2.2 a kept b cut

/-- Each of the first `k` elements ranks no later than every element behind it. -/
def RankedPrefix {α : Type*} (le : α → α → Prop) : Nat → List α → Prop
  | 0, _ => True
  | _ + 1, [] => True
  | k + 1, a :: l => (∀ b ∈ l, le a b) ∧ RankedPrefix le k l

/-- The first `k` elements are sorted, and none of them ranks behind one that a cut leaves out. -/
theorem rankedPrefix_iff {α : Type*} {le : α → α → Prop} {k : Nat} {l : List α} :
    RankedPrefix le k l ↔
      (l.take k).Pairwise le ∧ ∀ a ∈ l.take k, ∀ b ∈ l.drop k, le a b := by
  induction k generalizing l with
  | zero => simp [RankedPrefix]
  | succ k ih =>
      cases l with
      | nil => simp [RankedPrefix]
      | cons first rest =>
          have split : (∀ b ∈ rest, le first b) ↔
              (∀ b ∈ rest.take k, le first b) ∧ ∀ b ∈ rest.drop k, le first b := by
            rw [← List.forall_mem_append, List.take_append_drop]
          simp only [RankedPrefix, ih, split, List.take_succ_cons, List.drop_succ_cons,
            List.pairwise_cons, List.forall_mem_cons]
          constructor
          · rintro ⟨⟨near, far⟩, sorted, cut⟩
            exact ⟨⟨near, sorted⟩, far, cut⟩
          · rintro ⟨⟨near, sorted⟩, far, cut⟩
            exact ⟨⟨near, far⟩, sorted, cut⟩

section Rank

variable {α : Type*} {le : α → α → Prop} [DecidableRel le]

/-- `output` is `input` sorted by `le`, with elements of equal rank in their old order. -/
structure StableSorted (le : α → α → Prop) [DecidableRel le] (input output : List α) : Prop where
  perm : output.Perm input
  sorted : output.Pairwise le
  ties : ∀ x, output.filter (fun y => le x y ∧ le y x) = input.filter fun y => le x y ∧ le y x

variable [Std.Total le] [IsTrans α le]

omit [Std.Total le] in
/-- Inserting moves an element only past elements of another rank. -/
theorem filter_tied_orderedInsert (x a : α) (l : List α) :
    (l.orderedInsert le a).filter (fun y => le x y ∧ le y x) =
      (a :: l).filter fun y => le x y ∧ le y x := by
  induction l with
  | nil => rfl
  | cons b l ih =>
      by_cases ordered : le a b
      · rw [List.orderedInsert_cons_of_le le l ordered]
      · rw [List.orderedInsert_of_not_le le l ordered, List.filter_cons, ih]
        have apart : ¬ ((le x a ∧ le a x) ∧ (le x b ∧ le b x)) := by
          intro tied
          exact ordered (IsTrans.trans _ _ _ tied.1.2 tied.2.1)
        by_cases tiedA : le x a ∧ le a x <;> by_cases tiedB : le x b ∧ le b x <;>
          simp_all

/-- Insertion sort is stable. -/
theorem stableSorted_insertionSort (le : α → α → Prop) [DecidableRel le] [Std.Total le]
    [IsTrans α le] (l : List α) : StableSorted le l (l.insertionSort le) where
  perm := List.perm_insertionSort le l
  sorted := List.pairwise_insertionSort le l
  ties := by
    intro x
    induction l with
    | nil => rfl
    | cons a l ih =>
        rw [List.insertionSort_cons, filter_tied_orderedInsert, List.filter_cons, List.filter_cons, ih]

omit [IsTrans α le] in
/-- Two sorted permutations with the same order among equal ranks are the same list. -/
theorem eq_of_sorted_of_ties {a b : List α} (perm : a.Perm b) (sortedA : a.Pairwise le)
    (sortedB : b.Pairwise le)
    (ties : ∀ x, a.filter (fun y => le x y ∧ le y x) = b.filter fun y => le x y ∧ le y x) :
    a = b := by
  induction a generalizing b with
  | nil => exact (List.nil_perm.mp perm).symm
  | cons x a ih =>
      cases b with
      | nil => exact absurd (List.perm_nil.mp perm) (List.cons_ne_nil x a)
      | cons y b =>
          have refl : ∀ z, le z z := fun z => (total_of le z z).elim id id
          have first : le x y := by
            rcases List.mem_cons.mp (perm.mem_iff.mpr List.mem_cons_self) with rfl | later
            · exact refl _
            · exact (List.pairwise_cons.mp sortedA).1 y later
          have second : le y x := by
            rcases List.mem_cons.mp (perm.mem_iff.mp List.mem_cons_self) with rfl | later
            · exact refl _
            · exact (List.pairwise_cons.mp sortedB).1 x later
          -- The two heads have one rank, and each is the first of that rank.
          have heads := ties x
          have same : x = y := by
            simpa [List.filter_cons, refl, first, second] using
              congrArg List.head? heads
          subst same
          have tails := ih (perm.cons_inv) (List.pairwise_cons.mp sortedA).2
            (List.pairwise_cons.mp sortedB).2
          rw [tails]
          intro z
          have both := ties z
          rw [List.filter_cons, List.filter_cons] at both
          split at both
          · exact List.tail_eq_of_cons_eq both
          · exact both

/-- A stable sort has one result. -/
theorem StableSorted.unique {input output : List α} (stable : StableSorted le input output) :
    output = input.insertionSort le := by
  have inserted := stableSorted_insertionSort le input
  apply eq_of_sorted_of_ties (stable.perm.trans inserted.perm.symm) stable.sorted
    inserted.sorted
  intro x
  rw [stable.ties, inserted.ties]

end Rank

/-! ### A property first, a rank second -/

section FirstBy

variable {α : Type*} (p : α → Bool) (le : α → α → Prop)

/-- Elements with the property come first, and within each half `le` decides. -/
def FirstBy (a b : α) : Prop := (p b = true → p a = true) ∧ (p a = p b → le a b)

instance [DecidableRel le] : DecidableRel (FirstBy p le) := fun a b =>
  inferInstanceAs (Decidable ((p b = true → p a = true) ∧ (p a = p b → le a b)))

variable {p le}

theorem firstBy_of_eq {a b : α} (same : p a = p b) : FirstBy p le a b ↔ le a b := by
  simp [FirstBy, same]

instance [total : Std.Total le] : Std.Total (FirstBy p le) where
  total a b := by
    have ranked := total.total a b
    cases decidedA : p a <;> cases decidedB : p b <;> simp [FirstBy, decidedA, decidedB, ranked]

instance [IsTrans α le] : IsTrans α (FirstBy p le) where
  trans a b c := by
    rintro ⟨headAB, rankAB⟩ ⟨headBC, rankBC⟩
    refine ⟨fun hc => headAB (headBC hc), fun sameAC => ?_⟩
    have sameAB : p a = p b := by
      cases decidedA : p a <;> cases decidedB : p b <;> simp_all
    exact IsTrans.trans _ _ _ (rankAB sameAB) (rankBC (sameAB.symm.trans sameAC))

/-- Sorted halves, joined, are sorted by the property first. -/
theorem pairwise_firstBy_append {near far : List α} (allNear : ∀ a ∈ near, p a = true)
    (allFar : ∀ a ∈ far, p a = false) (sortedNear : near.Pairwise le) (sortedFar : far.Pairwise le) :
    (near ++ far).Pairwise (FirstBy p le) := by
  rw [List.pairwise_append]
  refine ⟨?_, ?_, ?_⟩
  · refine sortedNear.imp_of_mem fun {a b} ha hb ranked => ?_
    exact (firstBy_of_eq ((allNear a ha).trans (allNear b hb).symm)).mpr ranked
  · refine sortedFar.imp_of_mem fun {a b} ha hb ranked => ?_
    exact (firstBy_of_eq ((allFar a ha).trans (allFar b hb).symm)).mpr ranked
  · intro a ha b hb
    simp [FirstBy, allNear a ha, allFar b hb]

/-- What lies in one half is found there. -/
theorem filter_halves {q : α → Bool} {c : Bool} (l : List α) (oneHalf : ∀ a, q a = true → p a = c) :
    (l.filter p).filter q ++ (l.filter fun a => !p a).filter q = l.filter q := by
  rw [List.filter_filter, List.filter_filter]
  cases c with
  | true =>
      have noFar : (l.filter fun a => q a && !p a) = [] := by
        rw [List.filter_eq_nil_iff]
        intro a _ both
        rw [Bool.and_eq_true] at both
        simp [oneHalf a both.1] at both
      rw [noFar, List.append_nil]
      refine List.filter_congr fun a _ => ?_
      cases held : q a with
      | true => simp [oneHalf a held]
      | false => rfl
  | false =>
      have noNear : (l.filter fun a => q a && p a) = [] := by
        rw [List.filter_eq_nil_iff]
        intro a _ both
        rw [Bool.and_eq_true] at both
        simp [oneHalf a both.1] at both
      rw [noNear, List.nil_append]
      refine List.filter_congr fun a _ => ?_
      cases held : q a with
      | true => simp [oneHalf a held]
      | false => rfl

/-- Elements of the same rank by the property first are in one half and of the same rank there. -/
theorem tied_firstBy_iff {x y : α} :
    (FirstBy p le x y ∧ FirstBy p le y x) ↔ (le x y ∧ le y x) ∧ p y = p x := by
  cases decidedX : p x <;> cases decidedY : p y <;> simp [FirstBy, decidedX, decidedY]

/-- Sorting by the property first and by rank second is sorting the two halves apart. -/
theorem insertionSort_firstBy (p : α → Bool) (le : α → α → Prop) [DecidableRel le]
    [Std.Total le] [IsTrans α le] (l : List α) :
    l.insertionSort (FirstBy p le) =
      (l.filter p).insertionSort le ++ (l.filter fun a => !p a).insertionSort le := by
  have near := stableSorted_insertionSort le (l.filter p)
  have far := stableSorted_insertionSort le (l.filter fun a => !p a)
  have inNear : ∀ a ∈ (l.filter p).insertionSort le, p a = true := fun a mem =>
    (List.mem_filter.mp ((List.mem_insertionSort le).mp mem)).2
  have inFar : ∀ a ∈ (l.filter fun a => !p a).insertionSort le, p a = false := fun a mem => by
    simpa using (List.mem_filter.mp ((List.mem_insertionSort le).mp mem)).2
  refine (StableSorted.unique ⟨?_, ?_, ?_⟩).symm
  · exact (near.perm.append far.perm).trans (List.filter_append_perm p l)
  · exact pairwise_firstBy_append inNear inFar near.sorted far.sorted
  · intro x
    have split : ∀ half : List α, half.filter (fun y => FirstBy p le x y ∧ FirstBy p le y x) =
        (half.filter fun y => le x y ∧ le y x).filter fun y => p y = p x := by
      intro half
      rw [List.filter_filter]
      refine List.filter_congr fun y _ => ?_
      rw [Bool.eq_iff_iff]
      simp [tied_firstBy_iff, and_comm]
    rw [List.filter_append, split, split, near.ties, far.ties, ← split, ← split]
    refine filter_halves (c := p x) l fun a tied => ?_
    exact (tied_firstBy_iff.mp (of_decide_eq_true tied)).2

end FirstBy

end ModelDistribution.Foundation
