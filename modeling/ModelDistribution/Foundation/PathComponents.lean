/-
Module: ModelDistribution.Foundation.PathComponents
Layer: Foundation
Purpose: Unix paths as the standard library of the program reads them: the components between the
  separators, where empty segments and `.` behind the beginning are none and `..` stays as it is, and
  direct children by components. Appending behind a separator appends components.
Imports: Mathlib.Data.List.Basic
Trusted boundary: human-reviewed spec
Main exports: PathComponent, segmentComponents, components, IsChild, segmentComponents_leaf,
  components_leaf, segmentComponents_eq_nil_iff, components_append_sep, components_append_trailing,
  components_ne_nil, exists_last_separator
-/
import Mathlib.Data.List.Basic

namespace ModelDistribution.Foundation

/-- `Component`, without the Windows prefixes. -/
inductive PathComponent where
  | rootDir
  | curDir
  | parentDir
  | normal (name : List Char)
deriving DecidableEq, Repr

/-- The component of a segment between separators; empty segments and `.` have none. -/
def segmentComponent (segment : List Char) : Option PathComponent :=
  if segment = [] ∨ segment = ['.'] then none
  else if segment = ['.', '.'] then some .parentDir
  else some (.normal segment)

/-- The components between the separators of a path. -/
def segmentComponents (path : List Char) : List PathComponent :=
  (path.splitOn '/').filterMap segmentComponent

/-- What a path begins with: the root, the current directory if it is spelled out, or neither. -/
def pathStart (path : List Char) : List PathComponent :=
  if path.head? = some '/' then [.rootDir]
  else if (path.splitOn '/').head? = some ['.'] then [.curDir]
  else []

/-- `Path::components`. -/
def components (path : List Char) : List PathComponent := pathStart path ++ segmentComponents path

/-- The path is a file of the directory itself: the components of the directory and one name. Neither
links nor `..` are resolved. -/
def IsChild (path dir : List Char) : Prop :=
  ∃ name, components path = components dir ++ [.normal name]

example : components "./a//b/../c/.".toList =
    [.curDir, .normal ['a'], .normal ['b'], .parentDir, .normal ['c']] := by decide

@[simp] theorem segmentComponents_nil : segmentComponents [] = [] := rfl

@[simp] theorem segmentComponents_append_sep (front back : List Char) :
    segmentComponents (front ++ '/' :: back) =
      segmentComponents front ++ segmentComponents back := by
  rw [segmentComponents, List.splitOn_append_cons_self, List.filterMap_append]
  rfl

/-- Text without a separator that is longer than the special segments is one name. -/
theorem segmentComponents_leaf {name : List Char} (plain : '/' ∉ name) (long : 2 < name.length) :
    segmentComponents name = [.normal name] := by
  have proper : segmentComponent name = some (.normal name) := by
    have others : ∀ short : List Char, short.length ≤ 2 → name ≠ short := by
      rintro short bounded rfl
      omega
    rw [segmentComponent, if_neg, if_neg (others _ (by decide))]
    exact not_or.mpr ⟨others _ (by decide), others _ (by decide)⟩
  rw [segmentComponents, List.splitOn_eq_singleton plain]
  simp [proper]

/-- The same text as a whole path. -/
theorem components_leaf {name : List Char} (plain : '/' ∉ name) (long : 2 < name.length) :
    components name = [.normal name] := by
  have relative : name.head? ≠ some '/' := fun root => plain (List.mem_of_mem_head? root)
  have named : ¬ (name.splitOn '/').head? = some ['.'] := by
    rw [List.splitOn_eq_singleton plain]
    intro current
    rw [Option.some.inj current] at long
    exact absurd long (by decide)
  rw [components, pathStart, if_neg relative, if_neg named, segmentComponents_leaf plain long]
  rfl

/-- There are no components where every segment is empty or `.`. -/
theorem segmentComponents_eq_nil_iff {path : List Char} :
    segmentComponents path = [] ↔ ∀ segment ∈ path.splitOn '/', segment = [] ∨ segment = ['.'] := by
  rw [segmentComponents, List.filterMap_eq_nil_iff]
  refine forall₂_congr fun segment _ => ?_
  unfold segmentComponent
  split
  · rename_i skipped
    simpa using skipped
  · rename_i kept
    split <;> simp [kept]

/-- What stands behind a separator does not change the first segment. -/
theorem head_splitOn_append_sep (front back : List Char) :
    ((front ++ '/' :: back).splitOn '/').head? = (front.splitOn '/').head? := by
  rw [List.splitOn_append_cons_self]
  cases split : front.splitOn '/' with
  | nil => exact absurd split (List.splitOn_ne_nil '/' front)
  | cons segment segments => rfl

/-- What a path begins with is decided in front of its first separator. -/
theorem pathStart_append_sep (front back : List Char) :
    pathStart (front ++ '/' :: back) = pathStart (front ++ ['/']) := by
  have sameHead : (front ++ '/' :: back).head? = (front ++ ['/']).head? := by
    cases front <;> rfl
  rw [pathStart, pathStart, sameHead, head_splitOn_append_sep, head_splitOn_append_sep]

/-- Behind a separator components are appended. -/
theorem components_append_sep (front back : List Char) :
    components (front ++ '/' :: back) = components (front ++ ['/']) ++ segmentComponents back := by
  rw [components, components, pathStart_append_sep, segmentComponents_append_sep,
    segmentComponents_append_sep, segmentComponents_nil, List.append_nil, List.append_assoc]

/-- A separator at the end of a path does not change it. -/
theorem components_append_trailing {front : List Char} (nonempty : front ≠ []) :
    components (front ++ ['/']) = components front := by
  have sameHead : (front ++ ['/']).head? = front.head? := by
    cases front with
    | nil => exact absurd rfl nonempty
    | cons first rest => rfl
  have sameStart : pathStart (front ++ ['/']) = pathStart front := by
    rw [pathStart, sameHead, head_splitOn_append_sep]
    rfl
  rw [components, sameStart, segmentComponents_append_sep, segmentComponents_nil, List.append_nil]
  rfl

/-- Only the empty path has no components. -/
theorem components_ne_nil {path : List Char} (nonempty : path ≠ []) : components path ≠ [] := by
  intro none
  obtain ⟨noStart, noSegment⟩ := List.append_eq_nil_iff.mp none
  rw [segmentComponents_eq_nil_iff] at noSegment
  cases path with
  | nil => exact nonempty rfl
  | cons first rest =>
      by_cases root : first = '/'
      · simp [pathStart, root] at noStart
      · obtain ⟨segment, segments, split⟩ :=
          List.exists_cons_of_ne_nil (List.splitOn_ne_nil '/' rest)
        have whole : (first :: rest).splitOn '/' = (first :: segment) :: segments := by
          simp [List.splitOn_cons_eq_if_modifyHead, root, split]
        -- The first segment is not empty, so it could only be the current directory.
        have current : first :: segment = ['.'] := by
          simpa using noSegment (first :: segment) (by simp [whole])
        simp [pathStart, whole, root, current] at noStart

/-- A text with a separator in it has a last one. -/
theorem exists_last_separator {path : List Char} (separated : '/' ∈ path) :
    ∃ front back, path = front ++ '/' :: back ∧ '/' ∉ back := by
  obtain ⟨back, front, reversed, noneBehind⟩ :=
    List.eq_append_cons_of_mem (List.mem_reverse.mpr separated)
  refine ⟨front.reverse, back.reverse, ?_, by simpa using noneBehind⟩
  have forward := congrArg List.reverse reversed
  simpa using forward

end ModelDistribution.Foundation
