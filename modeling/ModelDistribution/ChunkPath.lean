/-
Module: ModelDistribution.ChunkPath
Layer: Model
Purpose: The paths of chunk files: joining a file name to a directory, and the name of one chunk.
Imports: ModelDistribution.Foundation.Text, Mathlib.Data.List.Basic
Trusted boundary: human-reviewed spec
Main exports: joinPath, chunkPath, chunkFileName, chunkFileName_inj, joinPath_cancel,
  chunkPath_injective

[src/peer/downloader.rs, chunk_path]
-/
import ModelDistribution.Foundation.Text
import Mathlib.Data.List.Basic

namespace ModelDistribution

open Foundation

/-- `PathBuf::join`: an absolute argument replaces the base, and a separator is added unless the base
is empty or ends with one. -/
def joinPath (base part : String) : String :=
  if part.toList.head? = some '/' then part
  else if base.toList.getLast?.all (· = '/') then base ++ part
  else base ++ "/" ++ part

/-- `chunk_path`. -/
def chunkPath (dataDir fileId : String) (chunkIndex : UInt32) : String :=
  joinPath dataDir (fileId ++ ".chunk." ++ String.ofList (paddedDecimal 6 chunkIndex.toNat))

/-- The characters of a chunk file's name. -/
def chunkFileName (fileId : List Char) (chunkIndex : UInt32) : List Char :=
  fileId ++ ".chunk".toList ++ '.' :: paddedDecimal 6 chunkIndex.toNat

theorem toList_chunkFileName (fileId : String) (chunkIndex : UInt32) :
    (fileId ++ ".chunk." ++ String.ofList (paddedDecimal 6 chunkIndex.toNat)).toList =
      chunkFileName fileId.toList chunkIndex := by
  simp [chunkFileName]

/-- The index is what stands behind the last dot, whatever the file identifier and however many digits
the index has. -/
theorem chunkFileName_inj {f g : List Char} {i j : UInt32} :
    chunkFileName f i = chunkFileName g j ↔ f = g ∧ i = j := by
  have noDot : ∀ k : UInt32, '.' ∉ paddedDecimal 6 k.toNat := by
    intro k dot
    exact absurd (isDigit_of_mem_paddedDecimal dot) (by decide)
  constructor
  · intro same
    obtain ⟨front, digits⟩ := append_mark_inj (noDot i) (noDot j) same
    exact ⟨List.append_cancel_right front, UInt32.toNat_inj.mp (paddedDecimal_injective 6 digits)⟩
  · rintro ⟨rfl, rfl⟩
    rfl

/-- The first character of a chunk file's name does not depend on the chunk. -/
theorem head_chunkFileName (fileId : List Char) (i : UInt32) :
    (chunkFileName fileId i).head? = (fileId ++ ".chunk".toList).head? :=
  List.head?_append_of_ne_nil _ (by simp)

/-- Paths that are joined to one base, both absolute or both relative, are different where the parts
are. -/
theorem joinPath_cancel {base part part' : String}
    (sameKind : part.toList.head? = some '/' ↔ part'.toList.head? = some '/')
    (same : joinPath base part = joinPath base part') : part = part' := by
  have cancel : ∀ front : String, front ++ part = front ++ part' → part = part' := by
    intro front same
    exact (String.append_right_inj front).mp same
  unfold joinPath at same
  by_cases absolute : part.toList.head? = some '/'
  · rwa [if_pos absolute, if_pos (sameKind.mp absolute)] at same
  · rw [if_neg absolute, if_neg fun other => absolute (sameKind.mpr other)] at same
    split at same
    · exact cancel _ same
    · exact cancel _ same

/-- Different chunks of one file have different paths. -/
theorem chunkPath_injective {dataDir fileId : String} {i j : UInt32}
    (same : chunkPath dataDir fileId i = chunkPath dataDir fileId j) : i = j := by
  have names := congrArg String.toList (joinPath_cancel ?_ same)
  · rw [toList_chunkFileName, toList_chunkFileName] at names
    exact (chunkFileName_inj.mp names).2
  · rw [toList_chunkFileName, toList_chunkFileName, head_chunkFileName, head_chunkFileName]

end ModelDistribution
