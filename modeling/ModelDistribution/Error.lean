/-
Module: ModelDistribution.Error
Layer: Model
Purpose: The unified error type of all components and its display text.
Imports: none (Mathlib-free)
Trusted boundary: human-reviewed spec
Main exports: IoErrorKind, IoError, DistError, DistError.toString

[src/error.rs]
-/

namespace ModelDistribution

/-- The kinds of I/O error the code tells apart. -/
inductive IoErrorKind where
  | notFound
  | unexpectedEof
  | other
deriving DecidableEq, Repr

structure IoError where
  kind : IoErrorKind
  message : String
deriving DecidableEq, Repr

/-- `DistError`. -/
inductive DistError where
  | hashMismatch (index : UInt32) (expected actual : String)
  | noPeers (chunk : UInt32)
  | jobNotFound (jobId : String)
  | nodeNotFound (nodeId : String)
  | erasureError (message : String)
  | io (error : IoError)
  | serde (message : String)
  | proto (message : String)
deriving DecidableEq, Repr

/-- The `Display` text of each error. -/
def DistError.toString : DistError → String
  | .hashMismatch index expected actual =>
      s!"chunk hash mismatch for chunk {index}: expected={expected} got={actual}"
  | .noPeers chunk => s!"no peers available for chunk {chunk}"
  | .jobNotFound jobId => s!"job not found: {jobId}"
  | .nodeNotFound nodeId => s!"node not found: {nodeId}"
  | .erasureError message => s!"erasure coding error: {message}"
  | .io error => s!"io error: {error.message}"
  | .serde message => s!"serialisation error: {message}"
  | .proto message => s!"protocol error: {message}"

end ModelDistribution
