/-
Module: ModelDistribution.Peer.ChunkServer
Layer: Model
Purpose: The chunk server of a node: it reads one request and answers with the chunk file, or with an
  error status when the file cannot be read. What reading a path gives is part of the server.
Imports: ModelDistribution.ChunkPath, ModelDistribution.Error, ModelDistribution.Manifest,
  ModelDistribution.Foundation.ByteStream
Trusted boundary: human-reviewed spec
Main exports: FileBuffer, ChunkServer, readRequest, ChunkServer.handleChunkRequest

[src/peer/chunk_server.rs]
-/
import ModelDistribution.ChunkPath
import ModelDistribution.Error
import ModelDistribution.Manifest
import ModelDistribution.Foundation.ByteStream

namespace ModelDistribution

open Foundation

/-- The contents of a file that has been read into memory; no buffer is longer than `isize::MAX`. -/
abbrev FileBuffer := { data : List UInt8 // data.length < 2 ^ 63 }

/-- What the server of a node runs with: the manifest, the data directory, and what reading a path
gives. -/
structure ChunkServer where
  manifest : Manifest
  dataDir : String
  read : String → Except IoError FileBuffer

/-- The reading half of `handle_chunk_request`: the bytes of the job identifier and the chunk index. -/
def readRequest {Stream : Type} [ExactReader Stream IoError] (stream : Stream) :
    Except IoError ((List UInt8 × UInt32) × Stream) := do
  let (jobIdLen, stream) ← readU32 stream
  let (jobBuf, stream) ← readExact jobIdLen.toNat stream
  let (chunkIndex, stream) ← readU32 stream
  return ((jobBuf, chunkIndex), stream)

namespace ChunkServer

/-- The path of a chunk file of this server. -/
def path (server : ChunkServer) (chunk : UInt32) : String :=
  chunkPath server.dataDir server.manifest.fileId chunk

/-- The buffers of the response: status 0 with length and data, or status 1. -/
def response (server : ChunkServer) (chunk : UInt32) : List (List UInt8) :=
  match server.read (server.path chunk) with
  | .ok data => [u32Bytes 0, u64Bytes (UInt64.ofNat data.val.length), data.val]
  | .error _ => [u32Bytes 1]

/-- `handle_chunk_request`. -/
def handleChunkRequest {Stream : Type} [ExactReader Stream IoError] (server : ChunkServer)
    (stream : Stream) (out : Outgoing IoError) : Outgoing IoError × Except DistError Unit :=
  match readRequest stream with
  | .error e => (out, .error (.io e))
  | .ok ((_, chunkIndex), _) =>
      match out.writeEach (server.response chunkIndex) with
      | (out, .error e) => (out, .error (.io e))
      | (out, .ok ()) => (out, .ok ())

end ChunkServer

end ModelDistribution
