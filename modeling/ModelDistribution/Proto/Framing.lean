/-
Module: ModelDistribution.Proto.Framing
Layer: Model
Purpose: Length-prefixed framing of control-plane messages over a connection. The encoding of the
  payload is a parameter.
Imports: ModelDistribution.Error, ModelDistribution.Foundation.ByteStream
Trusted boundary: human-reviewed spec
Main exports: Codec, maxFrame, frame, writeMsg, readMsg

[src/proto/mod.rs, wire format]
-/
import ModelDistribution.Error
import ModelDistribution.Foundation.ByteStream

namespace ModelDistribution

open Foundation

/-- `serde_json::to_vec` and `serde_json::from_slice` at a message type. -/
structure Codec (T : Type) where
  toVec : T → Except String (List UInt8)
  fromSlice : List UInt8 → Except String T

/-- `MAX_FRAME`: 16 MB safety cap. -/
def maxFrame : Nat := 16 * 1024 * 1024

/-- The buffer that `write_msg` sends: four bytes of payload length, which the cast to 32 bits wraps,
and the payload. -/
def frame (payload : List UInt8) : List UInt8 :=
  u32Bytes (UInt32.ofNat payload.length) ++ payload

variable {T Stream : Type} [ExactReader Stream IoError]

/-- `write_msg`. -/
def writeMsg (codec : Codec T) (msg : T) (out : Outgoing IoError) :
    Outgoing IoError × Except DistError Unit :=
  match codec.toVec msg with
  | .error message => (out, .error (.serde message))
  | .ok payload =>
      match out.writeAll (frame payload) with
      | (out, .error e) => (out, .error (.io e))
      | (out, .ok ()) => (out, .ok ())

/-- `read_msg`, with what it leaves of the stream. -/
def readMsg (codec : Codec T) (stream : Stream) : Except DistError (T × Stream) :=
  match readU32 stream with
  | .error e => .error (.io e)
  | .ok (len, stream) =>
      if maxFrame < len.toNat then .error (.proto s!"frame too large: {len}")
      else
        match readExact len.toNat stream with
        | .error e => .error (.io e)
        | .ok (buf, stream) =>
            match codec.fromSlice buf with
            | .error message => .error (.serde message)
            | .ok msg => .ok (msg, stream)

/-- A message that was written without an error is a frame behind what had been sent. -/
theorem sent_of_writeMsg {codec : Codec T} {msg : T} {out after : Outgoing IoError}
    (written : writeMsg codec msg out = (after, .ok ())) :
    ∃ payload, codec.toVec msg = .ok payload ∧ after.sent = out.sent ++ frame payload := by
  unfold writeMsg at written
  split at written
  · cases written
  · rename_i payload encoded
    split at written
    · cases written
    · rename_i sent
      cases written
      exact ⟨payload, encoded, Outgoing.sent_of_writeAll sent⟩

/-- Over a connection without a fault, a message with an encoding is written. -/
theorem writeMsg_of_no_fault {codec : Codec T} {msg : T} {payload : List UInt8}
    (encoded : codec.toVec msg = .ok payload) {out : Outgoing IoError} (sound : out.fault = none) :
    writeMsg codec msg out = ({ out with sent := out.sent ++ frame payload }, .ok ()) := by
  simp [writeMsg, encoded, Outgoing.writeAll, sound]

theorem writeMsg_reliable {codec : Codec T} {msg : T} {payload : List UInt8}
    (encoded : codec.toVec msg = .ok payload) :
    writeMsg codec msg .reliable = ({ sent := frame payload, fault := none }, .ok ()) :=
  writeMsg_of_no_fault encoded rfl

/-- What `read_msg` does with a header and its payload in front of the stream. -/
theorem readMsg_front {codec : Codec T} {stream : Stream} {len : UInt32}
    {payload back : List UInt8} {msg : T}
    (arrives : (incoming stream).bytes = u32Bytes len ++ (payload ++ back))
    (length : payload.length = len.toNat) (small : len.toNat ≤ maxFrame)
    (decoded : codec.fromSlice payload = .ok msg) :
    ∃ rest, readMsg codec stream = .ok (msg, rest) ∧ (incoming rest).bytes = back := by
  obtain ⟨behind, header, _, left⟩ := readU32_front arrives
  obtain ⟨rest, read, _, leftOver⟩ := readExact_front left
  rw [length] at read
  refine ⟨rest, ?_, leftOver⟩
  simp only [readMsg, header, if_neg (Nat.not_lt_of_le small), read, decoded]

/-- A message that is read has taken a header and as many bytes as the header says. -/
theorem readMsg_consumed {codec : Codec T} {stream rest : Stream} {msg : T}
    (read : readMsg codec stream = .ok (msg, rest)) :
    ∃ header payload, header.length = 4 ∧
      payload.length = bigEndian header ∧ payload.length ≤ maxFrame ∧
      codec.fromSlice payload = .ok msg ∧ Consumed stream (header ++ payload) rest := by
  unfold readMsg at read
  split at read
  · cases read
  · rename_i len behind lenRead
    obtain ⟨header, fourBytes, spelled, first⟩ := readU32_consumed lenRead
    split at read
    · cases read
    · rename_i small
      split at read
      · cases read
      · rename_i payload left payloadRead
        obtain ⟨length, second⟩ := readExact_consumed payloadRead
        split at read
        · cases read
        · rename_i decoded
          cases read
          refine ⟨header, payload, fourBytes, length.trans spelled, ?_, decoded, first.trans second⟩
          rw [length]
          exact Nat.le_of_not_lt small

/-- A header above the cap is refused, whatever follows it. -/
theorem readMsg_tooLarge {codec : Codec T} {stream : Stream} {len : UInt32} {back : List UInt8}
    (arrives : (incoming stream).bytes = u32Bytes len ++ back)
    (large : maxFrame < len.toNat) :
    readMsg codec stream = .error (.proto s!"frame too large: {len}") := by
  obtain ⟨behind, header, _, _⟩ := readU32_front arrives
  simp only [readMsg, header, if_pos large]

/-- Only a header above the cap is a protocol error. -/
theorem readMsg_proto {codec : Codec T} {stream : Stream} {text : String}
    (read : readMsg codec stream = .error (.proto text)) :
    ∃ (header : List UInt8) (rest : Stream), header.length = 4 ∧ maxFrame < bigEndian header ∧
      Consumed stream header rest := by
  unfold readMsg at read
  split at read
  · cases read
  · rename_i len behind lenRead
    obtain ⟨header, fourBytes, spelled, consumed⟩ := readU32_consumed lenRead
    split at read
    · rename_i large
      exact ⟨header, behind, fourBytes, spelled ▸ large, consumed⟩
    · split at read
      · cases read
      · split at read <;> cases read

end ModelDistribution
