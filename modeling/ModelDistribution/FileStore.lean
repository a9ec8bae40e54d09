/-
Module: ModelDistribution.FileStore
Layer: Model
Purpose: The files of a node and what reading, writing and removing one of them does. Which paths
  fail, and how, is a parameter of the operations that look at the result.
Imports: ModelDistribution.Error
Trusted boundary: human-reviewed spec
Main exports: Disk, writeFile, readFile, RemoveFault, removeFile, writeFile_same, writeFile_ne,
  removeFile_of_fault, removeFile_of_no_fault, RemovedExactly

[file operations of src/peer/downloader.rs and src/delta.rs]
-/
import ModelDistribution.Error

namespace ModelDistribution

/-- The contents of the files that exist. -/
abbrev Disk := String → Option (List UInt8)

/-- The disk after one file has changed. -/
def writeFile (disk : Disk) (path : String) (content : Option (List UInt8)) : Disk :=
  fun other => if other = path then content else disk other

/-- Reading a whole file. -/
def readFile (fault : String → Option IoError) (disk : Disk) (path : String) :
    Except IoError (List UInt8) :=
  match fault path with
  | some e => .error e
  | none =>
      match disk path with
      | some data => .ok data
      | none => .error ⟨.notFound, "No such file or directory (os error 2)"⟩

/-- The error of a removal other than that there is no such file. -/
abbrev RemoveFault := { error : IoError // error.kind ≠ .notFound }

/-- Removing a file; a removal that fails leaves it. -/
def removeFile (fault : String → Option RemoveFault) (disk : Disk) (path : String) :
    Disk × Except IoError Unit :=
  match fault path with
  | some e => (disk, .error e.val)
  | none =>
      match disk path with
      | some _ => (writeFile disk path none, .ok ())
      | none => (disk, .error ⟨.notFound, "No such file or directory (os error 2)"⟩)

/-- What a read delivers is the file. -/
theorem readFile_eq_ok {fault : String → Option IoError} {disk : Disk} {path : String}
    {data : List UInt8} :
    readFile fault disk path = .ok data ↔ fault path = none ∧ disk path = some data := by
  unfold readFile
  cases fault path with
  | some e => simp
  | none => cases disk path <;> simp

theorem writeFile_same (disk : Disk) (path : String) (content : Option (List UInt8)) :
    writeFile disk path content path = content :=
  if_pos rfl

theorem writeFile_ne (disk : Disk) {path other : String} (content : Option (List UInt8))
    (different : other ≠ path) : writeFile disk path content other = disk other :=
  if_neg different

/-- Removing a file that is not there changes nothing. -/
theorem writeFile_none_of_absent {disk : Disk} {path : String} (absent : disk path = none) :
    writeFile disk path none = disk := by
  funext other
  unfold writeFile
  split
  · rename_i same
    rw [same, absent]
  · rfl

/-! ### Removals -/

theorem removeFile_of_fault {fault : String → Option RemoveFault} {path : String} {e : RemoveFault}
    (stopped : fault path = some e) (disk : Disk) :
    removeFile fault disk path = (disk, .error e.val) := by
  rw [removeFile, stopped]

/-- Without a fault the file is gone afterwards, and only a file that was there is reported. -/
theorem removeFile_of_no_fault {fault : String → Option RemoveFault} {path : String}
    (free : fault path = none) (disk : Disk) :
    (∃ data, disk path = some data ∧
      removeFile fault disk path = (writeFile disk path none, .ok ())) ∨
    (disk path = none ∧ ∃ e : IoError, e.kind = .notFound ∧
      removeFile fault disk path = (writeFile disk path none, .error e)) := by
  rw [removeFile, free]
  cases present : disk path with
  | some data => exact .inl ⟨data, rfl, rfl⟩
  | none =>
      rw [writeFile_none_of_absent present]
      exact .inr ⟨rfl, _, rfl, rfl⟩

/-- The files with these paths are gone, and every other file is as it was. -/
structure RemovedExactly (paths : String → Prop) (before after : Disk) : Prop where
  gone : ∀ path, paths path → after path = none
  frame : ∀ path, ¬ paths path → after path = before path

namespace RemovedExactly

variable {paths front back : String → Prop} {first middle last : Disk}

theorem nothing (noPath : ∀ path, ¬ paths path) (disk : Disk) : RemovedExactly paths disk disk where
  gone path removed := absurd removed (noPath path)
  frame _ _ := rfl

theorem one (disk : Disk) (path : String) :
    RemovedExactly (· = path) disk (writeFile disk path none) where
  gone other same := by
    rw [same, writeFile_same]
  frame _ different := writeFile_ne disk none different

/-- One removal after the other removes what either removes. -/
theorem trans (early : RemovedExactly front first middle) (late : RemovedExactly back middle last)
    (either : ∀ path, paths path ↔ front path ∨ back path) : RemovedExactly paths first last where
  gone path removed := by
    by_cases inBack : back path
    · exact late.gone path inBack
    · rw [late.frame path inBack]
      exact early.gone path (((either path).mp removed).resolve_right inBack)
  frame path kept := by
    have neither := not_or.mp fun removed => kept ((either path).mpr removed)
    rw [late.frame path neither.2, early.frame path neither.1]

/-- What is left is determined. -/
theorem unique (left : RemovedExactly paths first middle) (right : RemovedExactly paths first last) :
    middle = last := by
  funext path
  by_cases removed : paths path
  · rw [left.gone path removed, right.gone path removed]
  · rw [left.frame path removed, right.frame path removed]

/-- Removing files that are not there changes nothing. -/
theorem eq_of_absent (removed : RemovedExactly paths first last)
    (absent : ∀ path, paths path → first path = none) : last = first := by
  funext path
  by_cases inPaths : paths path
  · rw [removed.gone path inPaths, absent path inPaths]
  · exact removed.frame path inPaths

end RemovedExactly

end ModelDistribution
