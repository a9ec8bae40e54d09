/-
Module: ModelDistribution.Foundation.Checked
Layer: Foundation
Purpose: Evaluation that may panic. Indexing, slicing, buffer allocation and 64-bit arithmetic are
  given with the panics a debug and a release build raise, each with the lemma that names the inputs
  on which it returns.
Imports: Mathlib.Algebra.Group.Nat.Defs, Mathlib.Data.List.Forall2
Trusted boundary: human-reviewed spec
Main exports: Panic, Checked, Profile, Profile.addU64, Profile.subU64, Profile.mulU64, divU64,
  Profile.addU64_eq_ok_iff, Profile.subU64_eq_ok_iff, divU64_eq_ok_iff,
  divUsize, indexList, sliceList, checkCapacity, filterChecked, bind_eq_ok_iff, mapM_eq_ok,
  mapM_forall₂, filterChecked_eq_ok_iff, foldlM_returns, foldlM_preserves
-/
import Mathlib.Algebra.Group.Nat.Defs
import Mathlib.Data.List.Forall2

namespace ModelDistribution.Foundation

/-- The ways a checked computation can stop without a value. -/
inductive Panic where
  | indexOutOfBounds
  | sliceOutOfRange
  | arithmeticOverflow
  | divideByZero
  | capacityOverflow
  | assertionFailed
deriving DecidableEq, Repr

/-- A computation that returns a value or panics. -/
abbrev Checked (α : Type) := Except Panic α

/-- Build profile: debug builds panic on overflow, release builds wrap around. -/
inductive Profile where
  | debug
  | release
deriving DecidableEq, Repr

/-- Deliver the wrapped result when it is exact, and otherwise what the profile does. -/
def Profile.deliver (profile : Profile) (exact : Bool) (wrapped : UInt64) : Checked UInt64 :=
  match exact, profile with
  | true, _ => .ok wrapped
  | false, .debug => .error .arithmeticOverflow
  | false, .release => .ok wrapped

def Profile.addU64 (profile : Profile) (a b : UInt64) : Checked UInt64 :=
  profile.deliver (decide (a.toNat + b.toNat < 2 ^ 64)) (a + b)

def Profile.subU64 (profile : Profile) (a b : UInt64) : Checked UInt64 :=
  profile.deliver (decide (b.toNat ≤ a.toNat)) (a - b)

def Profile.mulU64 (profile : Profile) (a b : UInt64) : Checked UInt64 :=
  profile.deliver (decide (a.toNat * b.toNat < 2 ^ 64)) (a * b)

/-- Division panics on a zero divisor in every profile. -/
def divU64 (a b : UInt64) : Checked UInt64 :=
  if b = 0 then .error .divideByZero else .ok (a / b)

/-- Division of machine words of the platform's size. -/
def divUsize (a b : Nat) : Checked Nat :=
  if b = 0 then .error .divideByZero else .ok (a / b)

/-- Indexing of a vector. -/
def indexList {α : Type} (xs : List α) (i : Nat) : Checked α :=
  match xs[i]? with
  | some x => .ok x
  | none => .error .indexOutOfBounds

/-- The half-open slice `xs[start..stop]`. -/
def sliceList {α : Type} (xs : List α) (start stop : Nat) : Checked (List α) :=
  if start ≤ stop ∧ stop ≤ xs.length then .ok ((xs.drop start).take (stop - start))
  else .error .sliceOutOfRange

/-- Allocating a byte vector panics above `isize::MAX` bytes. -/
def checkCapacity (bytes : Nat) : Checked Unit :=
  if bytes < 2 ^ 63 then .ok () else .error .capacityOverflow

/-- The panic that stopped the computation. -/
def Checked.panic? {α : Type} : Checked α → Option Panic
  | .ok _ => none
  | .error panic => some panic

/-- The check returned true. -/
def Checked.holds : Checked Bool → Bool
  | .ok answer => answer
  | .error _ => false

/-- Keep the elements that pass a check; a panic of the check stops the traversal. -/
def filterChecked {α : Type} (check : α → Checked Bool) : List α → Checked (List α)
  | [] => .ok []
  | x :: xs => do
      let keep ← check x
      let rest ← filterChecked check xs
      return if keep then x :: rest else rest

/-- A sequence returns exactly when both of its parts do. -/
theorem bind_eq_ok_iff {ε α β : Type} {x : Except ε α} {f : α → Except ε β} {b : β} :
    x >>= f = .ok b ↔ ∃ a, x = .ok a ∧ f a = .ok b := by
  cases x with
  | ok a => simp [bind, Except.bind]
  | error e => simp [bind, Except.bind]

/-! ### When the arithmetic is exact -/

@[simp] theorem Profile.deliver_true (profile : Profile) (wrapped : UInt64) :
    profile.deliver true wrapped = .ok wrapped := by
  cases profile <;> rfl

/-- A release build delivers the wrapped result in every case. -/
@[simp] theorem Profile.deliver_release (exact : Bool) (wrapped : UInt64) :
    Profile.release.deliver exact wrapped = .ok wrapped := by
  cases exact <;> rfl

/-- What is delivered is the wrapped result; a debug build delivers it only when it is exact. -/
theorem Profile.deliver_eq_ok_iff {profile : Profile} {exact : Bool} {wrapped value : UInt64} :
    profile.deliver exact wrapped = .ok value ↔
      (exact = true ∨ profile = .release) ∧ value = wrapped := by
  cases exact <;> cases profile <;> simp [deliver, eq_comm]

theorem Profile.addU64_eq_ok_iff {profile : Profile} {a b sum : UInt64} :
    profile.addU64 a b = .ok sum ↔
      (a.toNat + b.toNat < 2 ^ 64 ∨ profile = .release) ∧ sum = a + b := by
  rw [addU64, deliver_eq_ok_iff, decide_eq_true_iff]

theorem Profile.subU64_eq_ok_iff {profile : Profile} {a b difference : UInt64} :
    profile.subU64 a b = .ok difference ↔
      (b.toNat ≤ a.toNat ∨ profile = .release) ∧ difference = a - b := by
  rw [subU64, deliver_eq_ok_iff, decide_eq_true_iff]

theorem divU64_eq_ok_iff {a b quotient : UInt64} :
    divU64 a b = .ok quotient ↔ 0 < b.toNat ∧ quotient = a / b := by
  by_cases zero : b = 0
  · simp [divU64, zero]
  · have positive : 0 < b.toNat :=
      Nat.pos_of_ne_zero fun none => zero (UInt64.toNat_inj.mp none)
    simp [divU64, zero, positive, eq_comm]

theorem Profile.addU64_of_fits (profile : Profile) {a b : UInt64}
    (fits : a.toNat + b.toNat < 2 ^ 64) : profile.addU64 a b = .ok (a + b) := by
  rw [addU64, decide_eq_true fits, deliver_true]

theorem Profile.subU64_of_le (profile : Profile) {a b : UInt64} (ordered : b.toNat ≤ a.toNat) :
    profile.subU64 a b = .ok (a - b) := by
  rw [subU64, decide_eq_true ordered, deliver_true]

theorem Profile.addU64_exact (profile : Profile) {a b : UInt64}
    (fits : a.toNat + b.toNat < 2 ^ 64) :
    ∃ c, profile.addU64 a b = .ok c ∧ c.toNat = a.toNat + b.toNat := by
  refine ⟨a + b, profile.addU64_of_fits fits, ?_⟩
  rw [UInt64.toNat_add, Nat.mod_eq_of_lt fits]

theorem Profile.subU64_exact (profile : Profile) {a b : UInt64} (ordered : b.toNat ≤ a.toNat) :
    ∃ c, profile.subU64 a b = .ok c ∧ c.toNat = a.toNat - b.toNat :=
  ⟨a - b, profile.subU64_of_le ordered,
    UInt64.toNat_sub_of_le _ _ (UInt64.le_iff_toNat_le.mpr ordered)⟩

theorem Profile.mulU64_exact (profile : Profile) {a b : UInt64}
    (fits : a.toNat * b.toNat < 2 ^ 64) :
    ∃ c, profile.mulU64 a b = .ok c ∧ c.toNat = a.toNat * b.toNat := by
  refine ⟨a * b, ?_, ?_⟩
  · rw [mulU64, decide_eq_true fits, deliver_true]
  · rw [UInt64.toNat_mul, Nat.mod_eq_of_lt fits]

/-! ### When indexing and slicing return -/

theorem indexList_of_lt {α : Type} {xs : List α} {i : Nat} (h : i < xs.length) :
    indexList xs i = .ok xs[i] := by
  simp [indexList, h]

theorem sliceList_of_le {α : Type} {xs : List α} {start stop : Nat} (ordered : start ≤ stop)
    (inside : stop ≤ xs.length) :
    sliceList xs start stop = .ok ((xs.drop start).take (stop - start)) := by
  simp [sliceList, ordered, inside]

theorem length_of_sliceList {α : Type} {xs slice : List α} {start stop : Nat}
    (sliced : sliceList xs start stop = .ok slice) : slice.length = stop - start := by
  unfold sliceList at sliced
  split at sliced
  · rename_i inside
    cases sliced
    rw [List.length_take, List.length_drop]
    omega
  · cases sliced

theorem checkCapacity_of_lt {bytes : Nat} (h : bytes < 2 ^ 63) : checkCapacity bytes = .ok () :=
  if_pos h

/-! ### Traversals that do not panic -/

/-- A traversal whose every call returns is the plain map. -/
theorem mapM_eq_ok {α β : Type} {f : α → Checked β} {g : α → β} :
    ∀ {xs : List α}, (∀ x ∈ xs, f x = .ok (g x)) → xs.mapM f = .ok (xs.map g)
  | [], _ => rfl
  | x :: xs, h => by
      have head := h x (by simp)
      have tail := mapM_eq_ok (f := f) (g := g) (fun y hy => h y (List.mem_cons_of_mem x hy))
      simp [List.mapM_cons, head, tail, bind, Except.bind, pure, Except.pure]

/-- A traversal whose every call returns something in a relation to its argument. -/
theorem mapM_forall₂ {ε α β : Type} {f : α → Except ε β} {R : α → β → Prop} {xs : List α}
    (returns : ∀ x ∈ xs, ∃ y, f x = .ok y ∧ R x y) :
    ∃ ys, xs.mapM f = .ok ys ∧ List.Forall₂ R xs ys := by
  induction xs with
  | nil => exact ⟨[], rfl, .nil⟩
  | cons x xs ih =>
      obtain ⟨y, head, related⟩ := returns x (by simp)
      obtain ⟨ys, tail, rest⟩ := ih fun other mem => returns other (List.mem_cons_of_mem x mem)
      refine ⟨y :: ys, ?_, .cons related rest⟩
      simp [List.mapM_cons, head, tail, bind, Except.bind, pure, Except.pure]

@[simp] theorem Checked.holds_eq_true_iff {answer : Checked Bool} :
    answer.holds = true ↔ answer = .ok true := by
  cases answer with
  | error panic => simp [holds]
  | ok value => simp [holds]

/-- Checked filtering returns exactly when every check returns, and then it is plain filtering. -/
theorem filterChecked_eq_ok_iff {α : Type} {check : α → Checked Bool} {xs ys : List α} :
    filterChecked check xs = .ok ys ↔
      (∀ x ∈ xs, ∃ keep, check x = .ok keep) ∧ ys = xs.filter fun x => (check x).holds := by
  induction xs generalizing ys with
  | nil => simp [filterChecked, eq_comm]
  | cons x xs ih =>
      cases checked : check x with
      | error panic => simp [filterChecked, checked, bind, Except.bind]
      | ok keep =>
          have unfolded : filterChecked check (x :: xs) =
              (filterChecked check xs).map fun rest => if keep then x :: rest else rest := by
            simp only [filterChecked, checked, bind, Except.bind]
            cases filterChecked check xs <;> rfl
          have head : (x :: xs).filter (fun x => (check x).holds) =
              if keep then x :: xs.filter (fun x => (check x).holds)
              else xs.filter fun x => (check x).holds := by
            rw [List.filter_cons, checked]
            rfl
          rw [unfolded, head]
          constructor
          · intro returned
            cases filtered : filterChecked check xs with
            | error panic => simp [filtered, Except.map] at returned
            | ok rest =>
                rw [filtered] at returned
                cases returned
                obtain ⟨all, kept⟩ := ih.mp filtered
                refine ⟨?_, by rw [kept]⟩
                intro y mem
                rcases List.mem_cons.mp mem with rfl | later
                · exact ⟨keep, checked⟩
                · exact all y later
          · rintro ⟨all, rfl⟩
            rw [ih.mpr ⟨fun y mem => all y (List.mem_cons_of_mem x mem), rfl⟩]
            rfl

/-- A loop whose every round returns and keeps the invariant returns with the invariant. -/
theorem foldlM_returns {α β : Type} {f : β → α → Checked β} {Inv : β → Prop} {xs : List α}
    (round : ∀ acc, ∀ x ∈ xs, Inv acc → ∃ next, f acc x = .ok next ∧ Inv next) {acc : β}
    (start : Inv acc) : ∃ final, xs.foldlM f acc = .ok final ∧ Inv final := by
  induction xs generalizing acc with
  | nil => exact ⟨acc, rfl, start⟩
  | cons x xs ih =>
      obtain ⟨next, returned, kept⟩ := round acc x (by simp) start
      obtain ⟨final, rest, done⟩ := ih (fun a y mem => round a y (List.mem_cons_of_mem x mem)) kept
      refine ⟨final, ?_, done⟩
      simpa only [List.foldlM_cons, returned, bind, Except.bind] using rest

/-- What every returning round keeps holds when the loop returns. -/
theorem foldlM_preserves {α β : Type} {f : β → α → Checked β} {Inv : β → Prop} {xs : List α}
    (round : ∀ acc next, ∀ x ∈ xs, Inv acc → f acc x = .ok next → Inv next) {acc final : β}
    (start : Inv acc) (returned : xs.foldlM f acc = .ok final) : Inv final := by
  induction xs generalizing acc with
  | nil =>
      cases returned
      exact start
  | cons x xs ih =>
      rw [List.foldlM_cons] at returned
      cases first : f acc x with
      | error panic => simp [first, bind, Except.bind] at returned
      | ok next =>
          rw [first] at returned
          exact ih (fun a b y mem => round a b y (List.mem_cons_of_mem x mem))
            (round acc next x (by simp) start first) returned

/-- A loop stops with the panic of a round that no earlier round lets it avoid. -/
theorem foldlM_panics {α β : Type} {f : β → α → Checked β} {xs : List α} {x : α} (mem : x ∈ xs)
    (stuck : ∀ acc, ∃ panic, f acc x = .error panic) (acc : β) :
    ∃ panic, xs.foldlM f acc = .error panic := by
  induction xs generalizing acc with
  | nil => simp at mem
  | cons y xs ih =>
      rw [List.foldlM_cons]
      cases first : f acc y with
      | error panic => exact ⟨panic, rfl⟩
      | ok next =>
          rcases List.mem_cons.mp mem with rfl | later
          · obtain ⟨panic, stops⟩ := stuck acc
            rw [stops] at first
            cases first
          · exact ih later next

end ModelDistribution.Foundation
