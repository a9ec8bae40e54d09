/-
Module: ModelDistribution.Proofs.FramedMessages
Layer: Proofs
Purpose: The framing of control-plane messages is a lossless prefix code. Messages that were written
  one behind the other are read back in order however the connection cuts the bytes, a read takes
  exactly its header and the payload that the header announces, and a cut-off frame is an error.
Imports: ModelDistribution.Proto.Framing
Trusted boundary: none
Main exports: writeMsgs, readMsgs, IsFrame, framing_lossless
-/
import ModelDistribution.Proto.Framing

namespace ModelDistribution

open Foundation

variable {T Stream : Type} [ExactReader Stream IoError]

/-- Write messages one behind the other, up to the first error. -/
def writeMsgs (codec : Codec T) : List T → Outgoing IoError → Outgoing IoError × Except DistError Unit
  | [], out => (out, .ok ())
  | msg :: msgs, out =>
      match writeMsg codec msg out with
      | (out, .error e) => (out, .error e)
      | (out, .ok ()) => writeMsgs codec msgs out

/-- Read a number of messages one behind the other. -/
def readMsgs (codec : Codec T) : Nat → Stream → Except DistError (List T × Stream)
  | 0, stream => .ok ([], stream)
  | n + 1, stream => do
      let (msg, stream) ← readMsg codec stream
      let (msgs, stream) ← readMsgs codec n stream
      return (msg :: msgs, stream)

/-- The wire format of one message: four bytes of length and as many bytes of payload. -/
def IsFrame (bytes : List UInt8) : Prop :=
  ∃ header payload : List UInt8, bytes = header ++ payload ∧ header.length = 4 ∧
    payload.length = bigEndian header

/-- The codec decodes what it encodes. -/
def Codec.RoundTrip (codec : Codec T) : Prop :=
  ∀ msg payload, codec.toVec msg = .ok payload → codec.fromSlice payload = .ok msg

/-- The message has no encoding above the cap. -/
def Codec.Fits (codec : Codec T) (msg : T) : Prop :=
  ∀ payload, codec.toVec msg = .ok payload → payload.length ≤ maxFrame

/-! ### One message -/

/-- The length of a payload below the cap is not wrapped. -/
theorem toNat_length_of_le {payload : List UInt8} (small : payload.length ≤ maxFrame) :
    (UInt32.ofNat payload.length).toNat = payload.length :=
  UInt32.toNat_ofNat_of_lt' (Nat.lt_of_le_of_lt small (by decide))

/-- The header of a frame is the true length of its payload up to the cap. -/
theorem isFrame_frame {payload : List UInt8} (small : payload.length ≤ maxFrame) :
    IsFrame (frame payload) := by
  refine ⟨_, payload, rfl, length_u32Bytes _, ?_⟩
  rw [bigEndian_u32Bytes, toNat_length_of_le small]

/-- A message in front of the stream is read, and the bytes behind it are left. -/
theorem readMsg_frame {codec : Codec T} (roundTrip : codec.RoundTrip) {msg : T}
    {payload back : List UInt8} (encoded : codec.toVec msg = .ok payload)
    (small : payload.length ≤ maxFrame) {stream : Stream}
    (arrives : (incoming stream).bytes = frame payload ++ back) :
    ∃ rest, readMsg codec stream = .ok (msg, rest) ∧ (incoming rest).bytes = back := by
  have length := toNat_length_of_le small
  rw [frame, List.append_assoc] at arrives
  apply readMsg_front arrives length.symm
  · rw [length]
    exact small
  · exact roundTrip msg payload encoded

/-- A stream that ends inside a frame gives no message. -/
theorem readMsg_cutOff {codec : Codec T} {whole : List UInt8} (framed : IsFrame whole)
    {stream : Stream} (front : (incoming stream).bytes <+: whole)
    (cut : (incoming stream).bytes ≠ whole) : ∃ e, readMsg codec stream = .error e := by
  cases read : readMsg codec stream with
  | error e => exact ⟨e, rfl⟩
  | ok result =>
      -- a message would have taken the whole frame
      obtain ⟨header, payload, fourBytes, length, _, _, consumed⟩ := readMsg_consumed read
      obtain ⟨header', payload', rfl, fourBytes', length'⟩ := framed
      obtain ⟨missing, split⟩ := front
      rw [consumed.bytes, List.append_assoc, List.append_assoc] at split
      obtain ⟨rfl, behind⟩ := List.append_inj split (fourBytes.trans fourBytes'.symm)
      obtain ⟨rfl, nothing⟩ := List.append_inj (behind.trans (List.append_nil payload').symm)
        (length.trans length'.symm)
      have ended := (List.append_eq_nil_iff.mp nothing).1
      rw [consumed.bytes, ended, List.append_nil] at cut
      exact absurd rfl cut

/-! ### Many messages -/

/-- Messages with encodings are all written over a connection without a fault. -/
theorem writeMsgs_of_no_fault {codec : Codec T} {msgs : List T}
    (encodes : ∀ msg ∈ msgs, ∃ payload, codec.toVec msg = .ok payload) {out : Outgoing IoError}
    (sound : out.fault = none) :
    ∃ after, writeMsgs codec msgs out = (after, .ok ()) ∧ after.fault = none := by
  induction msgs generalizing out with
  | nil => exact ⟨out, rfl, sound⟩
  | cons msg msgs ih =>
      obtain ⟨payload, encoded⟩ := encodes msg List.mem_cons_self
      rw [writeMsgs, writeMsg_of_no_fault encoded sound]
      exact ih (fun other mem => encodes other (List.mem_cons_of_mem msg mem)) sound

/-- Whatever follows the messages that were written, reading as many gives them back. -/
theorem readMsgs_written {codec : Codec T} (roundTrip : codec.RoundTrip) {msgs : List T}
    (small : ∀ msg ∈ msgs, codec.Fits msg) {out after : Outgoing IoError}
    (written : writeMsgs codec msgs out = (after, .ok ())) :
    ∃ bytes, after.sent = out.sent ++ bytes ∧
      ∀ (stream : Stream) (suffix : List UInt8), (incoming stream).bytes = bytes ++ suffix →
        ∃ rest, readMsgs codec msgs.length stream = .ok (msgs, rest) ∧
          (incoming rest).bytes = suffix := by
  induction msgs generalizing out with
  | nil =>
      cases written
      exact ⟨[], (List.append_nil _).symm, fun stream suffix arrives => ⟨stream, rfl, arrives⟩⟩
  | cons msg msgs ih =>
      rw [writeMsgs] at written
      split at written
      · cases written
      · rename_i middle first
        obtain ⟨payload, encoded, sent⟩ := sent_of_writeMsg first
        have fits := small msg List.mem_cons_self payload encoded
        obtain ⟨bytes, sentRest, readsRest⟩ :=
          ih (fun other mem => small other (List.mem_cons_of_mem msg mem)) written
        refine ⟨frame payload ++ bytes, ?_, ?_⟩
        · rw [sentRest, sent, List.append_assoc]
        · intro stream suffix arrives
          rw [List.append_assoc] at arrives
          obtain ⟨behind, readFirst, left⟩ := readMsg_frame roundTrip encoded fits arrives
          obtain ⟨rest, readRest, leftOver⟩ := readsRest behind suffix left
          refine ⟨rest, ?_, leftOver⟩
          simp only [List.length_cons, readMsgs, readFirst, readRest, bind, Except.bind, pure,
            Except.pure]

/-- What is written is read: any messages with payloads up to the cap come back in order and leave
exactly the bytes behind them, however the bytes are cut into fragments. Over a connection without a
fault all messages that have an encoding are written. A message that is read has taken its header and
the announced payload, at most the cap. A frame that is cut off is an error. -/
theorem framing_lossless {T : Type} (codec : Codec T) (roundTrip : codec.RoundTrip) :
    (∀ (msgs : List T) (out after : Outgoing IoError), (∀ msg ∈ msgs, codec.Fits msg) →
      writeMsgs codec msgs out = (after, .ok ()) →
      ∃ bytes, after.sent = out.sent ++ bytes ∧
        ∀ (stream : Fragmented IoError) (suffix : List UInt8),
          stream.fragments.flatten = bytes ++ suffix →
          ∃ rest, readMsgs codec msgs.length stream = .ok (msgs, rest) ∧
            rest.fragments.flatten = suffix) ∧
    (∀ (msgs : List T) (out : Outgoing IoError),
      (∀ msg ∈ msgs, ∃ payload, codec.toVec msg = .ok payload) → out.fault = none →
      ∃ after, writeMsgs codec msgs out = (after, .ok ()) ∧ after.fault = none) ∧
    (∀ (stream rest : Fragmented IoError) (msg : T), readMsg codec stream = .ok (msg, rest) →
      ∃ header payload, stream.fragments.flatten = header ++ payload ++ rest.fragments.flatten ∧
        header.length = 4 ∧ payload.length = bigEndian header ∧ payload.length ≤ maxFrame) ∧
    (∀ (whole : List UInt8) (stream : Fragmented IoError), IsFrame whole →
      stream.fragments.flatten <+: whole → stream.fragments.flatten ≠ whole →
      ∃ e, readMsg codec stream = .error e) ∧
    ∀ payload : List UInt8, payload.length ≤ maxFrame → IsFrame (frame payload) := by
  refine ⟨?_, ?_, ?_, ?_, fun payload small => isFrame_frame small⟩
  · intro msgs out after small written
    exact readMsgs_written roundTrip small written
  · intro msgs out encodes sound
    exact writeMsgs_of_no_fault encodes sound
  · intro stream rest msg read
    obtain ⟨header, payload, fourBytes, length, small, _, consumed⟩ := readMsg_consumed read
    exact ⟨header, payload, consumed.bytes, fourBytes, length, small⟩
  · intro whole stream framed front cut
    exact readMsg_cutOff framed front cut

/-- The JSON of Booleans. -/
def boolCodec : Codec Bool where
  toVec msg := .ok (if msg then [116, 114, 117, 101] else [102, 97, 108, 115, 101])
  fromSlice
    | [116, 114, 117, 101] => .ok true
    | [102, 97, 108, 115, 101] => .ok false
    | _ => .error "expected value at line 1 column 1"

/-- Two messages in three fragments that cut the first header and the first payload. -/
theorem framing_lossless_sample :
    ∃ rest, readMsgs boolCodec 2
        { fragments := [[0, 0], [0, 4, 116, 114, 117], [101, 0, 0, 0, 5, 102, 97, 108, 115, 101, 7]]
          ending := (⟨.unexpectedEof, "early eof"⟩ : IoError) : Fragmented IoError } =
        .ok ([true, false], rest) ∧ rest.fragments.flatten = [7] := by
  have roundTrip : boolCodec.RoundTrip := by
    intro msg payload encoded
    cases msg <;> cases encoded <;> rfl
  have small : ∀ msg ∈ [true, false], boolCodec.Fits msg := by
    intro msg _ payload encoded
    cases msg <;> cases encoded <;> decide
  obtain ⟨lossless, written, _⟩ := framing_lossless boolCodec roundTrip
  obtain ⟨after, wrote, _⟩ :=
    written [true, false] .reliable (fun msg _ => ⟨_, rfl⟩) rfl
  obtain ⟨bytes, sent, reads⟩ := lossless [true, false] .reliable after small wrote
  apply reads
  cases wrote
  change _ = [] ++ bytes at sent
  rw [← List.nil_append bytes, ← sent]
  rfl

end ModelDistribution
