/-
Module: ModelDistribution.Foundation.ByteStream
Layer: Foundation
Purpose: Byte streams between two parties. An incoming stream is the bytes that will arrive and the
  error that ends them; exact reads take their bytes from the front or fail with the ending. How the
  bytes are cut into fragments makes no difference to exact reads. Integers travel big-endian.
Imports: Mathlib.Algebra.Order.Ring.Nat, Mathlib.Data.List.Induction
Trusted boundary: human-reviewed spec
Main exports: Incoming, ExactReader, Fragmented, Consumed, bigEndian, u32Bytes, u64Bytes, readU32,
  readU64, Outgoing, Wire, length_of_readExact, readExact_front, readExact_consumed
-/
import Mathlib.Algebra.Order.Ring.Nat
import Mathlib.Data.List.Induction

namespace ModelDistribution.Foundation

/-- Everything a connection will still deliver, and the error of a read behind it. -/
structure Incoming (Error : Type) where
  bytes : List UInt8
  ending : Error
deriving DecidableEq, Repr

variable {Error : Type}

/-- Fill a buffer of `n` bytes; a stream that ends before it fails. -/
def Incoming.readExact (n : Nat) (stream : Incoming Error) :
    Except Error (List UInt8 × Incoming Error) :=
  if n ≤ stream.bytes.length then
    .ok (stream.bytes.take n, { stream with bytes := stream.bytes.drop n })
  else .error stream.ending

/-- Streams with exact reads that depend only on the bytes that will arrive and on their ending. -/
class ExactReader (Stream : Type) (Error : outParam Type) where
  readExact : Nat → Stream → Except Error (List UInt8 × Stream)
  incoming : Stream → Incoming Error
  readExact_incoming : ∀ n stream, (readExact n stream).map (Prod.map id incoming) =
    (incoming stream).readExact n

export ExactReader (readExact incoming)

instance : ExactReader (Incoming Error) Error where
  readExact := Incoming.readExact
  incoming := id
  readExact_incoming n stream := by
    change (Incoming.readExact n stream).map (Prod.map id id) = Incoming.readExact n stream
    cases Incoming.readExact n stream <;> rfl

/-! ### Fragments -/

/-- A connection whose bytes arrive in fragments: one read gets bytes of the first of them only. -/
structure Fragmented (Error : Type) where
  fragments : List (List UInt8)
  ending : Error
deriving DecidableEq, Repr

/-- The loop of an exact read: each `read` takes what the next fragment has, at most the room that is
left in the buffer. -/
def fillBuffer (ending : Error) : Nat → List (List UInt8) →
    Except Error (List UInt8 × List (List UInt8))
  | 0, fragments => .ok ([], fragments)
  | _ + 1, [] => .error ending
  | n + 1, fragment :: rest =>
      if n + 1 < fragment.length then
        .ok (fragment.take (n + 1), fragment.drop (n + 1) :: rest)
      else do
        let (bytes, left) ← fillBuffer ending (n + 1 - fragment.length) rest
        return (fragment ++ bytes, left)

namespace Fragmented

def readExact (n : Nat) (stream : Fragmented Error) :
    Except Error (List UInt8 × Fragmented Error) := do
  let (bytes, left) ← fillBuffer stream.ending n stream.fragments
  return (bytes, { stream with fragments := left })

/-- The same bytes without the cuts. -/
def joined (stream : Fragmented Error) : Incoming Error where
  bytes := stream.fragments.flatten
  ending := stream.ending

/-- The loop takes the first bytes of all fragments together. -/
theorem fillBuffer_flatten (ending : Error) (n : Nat) (fragments : List (List UInt8)) :
    (fillBuffer ending n fragments).map (Prod.map id List.flatten) =
      if n ≤ fragments.flatten.length then
        .ok (fragments.flatten.take n, fragments.flatten.drop n)
      else .error ending := by
  induction fragments generalizing n with
  | nil => cases n <;> rfl
  | cons fragment rest ih =>
      cases n with
      | zero => rfl
      | succ n =>
          rw [fillBuffer]
          split
          · rename_i inside
            have enough : n + 1 ≤ (fragment :: rest).flatten.length := by
              simp only [List.flatten_cons, List.length_append]
              omega
            rw [if_pos enough]
            simp [Except.map, List.take_append_of_le_length (Nat.le_of_lt inside),
              List.drop_append_of_le_length (Nat.le_of_lt inside)]
          · rename_i beyond
            have used : fragment.length ≤ n + 1 := Nat.le_of_not_lt beyond
            have remaining := ih (n + 1 - fragment.length)
            simp only [List.flatten_cons, List.length_append]
            by_cases enough : n + 1 - fragment.length ≤ rest.flatten.length
            · rw [if_pos enough] at remaining
              rw [if_pos (by omega)]
              cases filled : fillBuffer ending (n + 1 - fragment.length) rest with
              | error e => simp [filled, Except.map] at remaining
              | ok result =>
                  rw [filled] at remaining
                  obtain ⟨taken, left⟩ := Prod.mk.inj (Except.ok.inj remaining)
                  simp only [bind, Except.bind, pure, Except.pure, Except.map, Prod.map, left]
                  rw [List.take_append, List.drop_append, List.take_of_length_le used,
                    List.drop_of_length_le used, List.nil_append, ← taken]
                  rfl
            · rw [if_neg enough] at remaining
              rw [if_neg (by omega)]
              cases filled : fillBuffer ending (n + 1 - fragment.length) rest with
              | error e =>
                  rw [filled] at remaining
                  exact remaining
              | ok result => simp [filled, Except.map] at remaining

instance : ExactReader (Fragmented Error) Error where
  readExact := readExact
  incoming := joined
  readExact_incoming n stream := by
    have read := fillBuffer_flatten stream.ending n stream.fragments
    rw [Fragmented.readExact]
    by_cases enough : n ≤ stream.fragments.flatten.length
    · have all : stream.joined.readExact n = .ok (stream.fragments.flatten.take n,
          { stream.joined with bytes := stream.fragments.flatten.drop n }) := if_pos enough
      rw [if_pos enough] at read
      cases filled : fillBuffer stream.ending n stream.fragments with
      | error e => simp [filled, Except.map] at read
      | ok result =>
          rw [filled] at read
          obtain ⟨taken, left⟩ := Prod.mk.inj (Except.ok.inj read)
          rw [all, ← taken, ← left]
          rfl
    · have all : stream.joined.readExact n = .error stream.ending := if_neg enough
      rw [if_neg enough] at read
      cases filled : fillBuffer stream.ending n stream.fragments with
      | error e =>
          rw [filled] at read
          cases read
          rw [all]
          rfl
      | ok result => simp [filled, Except.map] at read

end Fragmented

/-! ### What a read takes -/

section Reading

variable {Stream : Type} [ExactReader Stream Error]

/-- The bytes by which a stream is further when it is left as `rest`. -/
structure Consumed (stream : Stream) (front : List UInt8) (rest : Stream) : Prop where
  bytes : (incoming stream).bytes = front ++ (incoming rest).bytes
  ending : (incoming rest).ending = (incoming stream).ending

theorem Consumed.trans {stream middle rest : Stream} {front back : List UInt8}
    (first : Consumed stream front middle) (second : Consumed middle back rest) :
    Consumed stream (front ++ back) rest where
  bytes := by rw [first.bytes, second.bytes, List.append_assoc]
  ending := second.ending.trans first.ending

/-- An exact read by the bytes that will arrive. -/
theorem readExact_incoming (n : Nat) (stream : Stream) :
    (readExact n stream).map (Prod.map id incoming) = (incoming stream).readExact n :=
  ExactReader.readExact_incoming n stream

/-- A read of the bytes in front delivers them. -/
theorem readExact_front {stream : Stream} {front back : List UInt8}
    (arrives : (incoming stream).bytes = front ++ back) :
    ∃ rest, readExact front.length stream = .ok (front, rest) ∧ Consumed stream front rest ∧
      (incoming rest).bytes = back := by
  have read := readExact_incoming front.length stream
  simp only [Incoming.readExact, arrives, List.length_append, Nat.le_add_right, if_true,
    List.take_left', List.drop_left'] at read
  cases result : readExact front.length stream with
  | error e => simp [result, Except.map] at read
  | ok pair =>
      rw [result] at read
      obtain ⟨taken, left⟩ := Prod.mk.inj (Except.ok.inj read)
      have bytes : (incoming pair.2).bytes = back := congrArg Incoming.bytes left
      have ending : (incoming pair.2).ending = (incoming stream).ending := by
        rw [show incoming pair.2 = _ from left]
      refine ⟨pair.2, ?_, ⟨?_, ending⟩, bytes⟩
      · rw [← taken]
        rfl
      · rw [arrives, bytes]

/-- A read that succeeds has taken exactly the bytes that it delivers. -/
theorem readExact_consumed {n : Nat} {stream rest : Stream} {bytes : List UInt8}
    (read : readExact n stream = .ok (bytes, rest)) :
    bytes.length = n ∧ Consumed stream bytes rest := by
  have seen := readExact_incoming n stream
  rw [read, Incoming.readExact] at seen
  split at seen
  · rename_i enough
    obtain ⟨taken, left⟩ := Prod.mk.inj (Except.ok.inj seen)
    have ending : (incoming rest).ending = (incoming stream).ending := by
      rw [show incoming rest = _ from left]
    refine ⟨?_, ?_, ending⟩
    · rw [show bytes = _ from taken, List.length_take, Nat.min_eq_left enough]
    · rw [show bytes = _ from taken, left, List.take_append_drop]
  · cases seen

/-- A read that succeeds delivers exactly the bytes that were asked for. -/
theorem length_of_readExact {n : Nat} {stream rest : Stream} {bytes : List UInt8}
    (read : readExact n stream = .ok (bytes, rest)) : bytes.length = n :=
  (readExact_consumed read).1

end Reading

/-! ### Big-endian integers -/

/-- The number that bytes spell, most significant byte first. -/
def bigEndian (bytes : List UInt8) : Nat :=
  bytes.foldl (fun value byte => 256 * value + byte.toNat) 0

/-- The last `width` bytes of a number, most significant byte first. -/
def bigEndianBytes : (width n : Nat) → List UInt8
  | 0, _ => []
  | width + 1, n => bigEndianBytes width (n / 256) ++ [UInt8.ofNat n]

@[simp] theorem length_bigEndianBytes (width n : Nat) : (bigEndianBytes width n).length = width := by
  induction width generalizing n with
  | zero => rfl
  | succ width ih => simp [bigEndianBytes, ih]

/-- The bytes spell the number up to their width. -/
theorem bigEndian_bigEndianBytes (width n : Nat) :
    bigEndian (bigEndianBytes width n) = n % 256 ^ width := by
  induction width generalizing n with
  | zero => simp [bigEndianBytes, bigEndian, Nat.mod_one]
  | succ width ih =>
      have unfolded : bigEndian (bigEndianBytes width (n / 256) ++ [UInt8.ofNat n]) =
          256 * bigEndian (bigEndianBytes width (n / 256)) + (UInt8.ofNat n).toNat := by
        simp [bigEndian]
      have byte : (UInt8.ofNat n).toNat = n % 256 := UInt8.toNat_ofNat'
      rw [bigEndianBytes, unfolded, ih, byte, Nat.pow_succ, Nat.mul_comm (256 ^ width),
        Nat.mod_mul, Nat.add_comm]

/-- Bytes spell a number below the power of their count. -/
theorem bigEndian_lt (bytes : List UInt8) : bigEndian bytes < 256 ^ bytes.length := by
  induction bytes using List.reverseRecOn with
  | nil => exact Nat.one_pos
  | append_singleton bytes byte ih =>
      have last := byte.toNat_lt
      simp only [bigEndian, List.foldl_append, List.foldl_cons, List.foldl_nil, List.length_append,
        List.length_cons, List.length_nil, Nat.zero_add, Nat.pow_succ] at ih ⊢
      omega

/-- The four bytes of a 32-bit integer. -/
def u32Bytes (value : UInt32) : List UInt8 := bigEndianBytes 4 value.toNat

/-- The eight bytes of a 64-bit integer. -/
def u64Bytes (value : UInt64) : List UInt8 := bigEndianBytes 8 value.toNat

@[simp] theorem length_u32Bytes (value : UInt32) : (u32Bytes value).length = 4 :=
  length_bigEndianBytes 4 _

@[simp] theorem length_u64Bytes (value : UInt64) : (u64Bytes value).length = 8 :=
  length_bigEndianBytes 8 _

@[simp] theorem bigEndian_u32Bytes (value : UInt32) : bigEndian (u32Bytes value) = value.toNat := by
  rw [u32Bytes, bigEndian_bigEndianBytes]
  exact Nat.mod_eq_of_lt value.toNat_lt

@[simp] theorem bigEndian_u64Bytes (value : UInt64) : bigEndian (u64Bytes value) = value.toNat := by
  rw [u64Bytes, bigEndian_bigEndianBytes]
  exact Nat.mod_eq_of_lt value.toNat_lt

section Integers

variable {Stream : Type} [ExactReader Stream Error]

def readU32 (stream : Stream) : Except Error (UInt32 × Stream) := do
  let (bytes, rest) ← readExact 4 stream
  return (UInt32.ofNat (bigEndian bytes), rest)

def readU64 (stream : Stream) : Except Error (UInt64 × Stream) := do
  let (bytes, rest) ← readExact 8 stream
  return (UInt64.ofNat (bigEndian bytes), rest)

/-- Reading an integer by the bytes that will arrive. -/
theorem readU32_incoming (stream : Stream) :
    (readU32 stream).map (Prod.map id incoming) = readU32 (incoming stream) := by
  have read := readExact_incoming 4 stream
  change _ = readExact 4 (incoming stream) at read
  rw [readU32, readU32, ← read]
  cases readExact 4 stream <;> rfl

theorem readU64_incoming (stream : Stream) :
    (readU64 stream).map (Prod.map id incoming) = readU64 (incoming stream) := by
  have read := readExact_incoming 8 stream
  change _ = readExact 8 (incoming stream) at read
  rw [readU64, readU64, ← read]
  cases readExact 8 stream <;> rfl

/-- An integer that was written in front is read. -/
theorem readU32_front {stream : Stream} {value : UInt32} {back : List UInt8}
    (arrives : (incoming stream).bytes = u32Bytes value ++ back) :
    ∃ rest, readU32 stream = .ok (value, rest) ∧ Consumed stream (u32Bytes value) rest ∧
      (incoming rest).bytes = back := by
  obtain ⟨rest, read, consumed, left⟩ := readExact_front arrives
  rw [length_u32Bytes] at read
  refine ⟨rest, ?_, consumed, left⟩
  simp only [readU32, read, bind, Except.bind, pure, Except.pure, bigEndian_u32Bytes,
    UInt32.ofNat_toNat]

theorem readU64_front {stream : Stream} {value : UInt64} {back : List UInt8}
    (arrives : (incoming stream).bytes = u64Bytes value ++ back) :
    ∃ rest, readU64 stream = .ok (value, rest) ∧ Consumed stream (u64Bytes value) rest ∧
      (incoming rest).bytes = back := by
  obtain ⟨rest, read, consumed, left⟩ := readExact_front arrives
  rw [length_u64Bytes] at read
  refine ⟨rest, ?_, consumed, left⟩
  simp only [readU64, read, bind, Except.bind, pure, Except.pure, bigEndian_u64Bytes,
    UInt64.ofNat_toNat]

/-- Reading an integer takes its four bytes. -/
theorem readU32_consumed {stream rest : Stream} {value : UInt32}
    (read : readU32 stream = .ok (value, rest)) :
    ∃ header : List UInt8, header.length = 4 ∧ value.toNat = bigEndian header ∧
      Consumed stream header rest := by
  unfold readU32 at read
  cases result : readExact 4 stream with
  | error e => simp [result, bind, Except.bind] at read
  | ok pair =>
      obtain ⟨length, consumed⟩ := readExact_consumed result
      have small := bigEndian_lt pair.1
      rw [length] at small
      simp only [result, bind, Except.bind, pure, Except.pure] at read
      cases read
      exact ⟨pair.1, length, UInt32.toNat_ofNat_of_lt' small, consumed⟩

end Integers

/-! ### Writing -/

/-- What has been written to a connection. Where it will fail, `fault` has the number of bytes that it
still takes and the error behind them. -/
structure Outgoing (Error : Type) where
  sent : List UInt8
  fault : Option (Nat × Error)
deriving DecidableEq, Repr

namespace Outgoing

/-- Write a whole buffer, or the part of it that the connection takes before it fails. -/
def writeAll (bytes : List UInt8) (out : Outgoing Error) : Outgoing Error × Except Error Unit :=
  match out.fault with
  | none => ({ out with sent := out.sent ++ bytes }, .ok ())
  | some (room, error) =>
      if bytes.length ≤ room then
        ({ sent := out.sent ++ bytes, fault := some (room - bytes.length, error) }, .ok ())
      else ({ sent := out.sent ++ bytes.take room, fault := some (0, error) }, .error error)

/-- A write that returns without an error has sent all its bytes. -/
theorem sent_of_writeAll {bytes : List UInt8} {out after : Outgoing Error}
    (written : out.writeAll bytes = (after, .ok ())) : after.sent = out.sent ++ bytes := by
  unfold writeAll at written
  split at written
  · cases written
    rfl
  · split at written <;> cases written
    rfl

/-- A connection without a fault that nothing has been written to. -/
def reliable : Outgoing Error where
  sent := []
  fault := none

/-- Write buffers one behind the other, up to the first error. -/
def writeEach : List (List UInt8) → Outgoing Error → Outgoing Error × Except Error Unit
  | [], out => (out, .ok ())
  | bytes :: buffers, out =>
      match out.writeAll bytes with
      | (out, .error e) => (out, .error e)
      | (out, .ok ()) => writeEach buffers out

/-- Writes that return without an error have sent all their buffers. -/
theorem sent_of_writeEach {buffers : List (List UInt8)} {out after : Outgoing Error}
    (written : out.writeEach buffers = (after, .ok ())) :
    after.sent = out.sent ++ buffers.flatten := by
  induction buffers generalizing out with
  | nil =>
      cases written
      simp
  | cons bytes buffers ih =>
      unfold writeEach at written
      split at written
      · cases written
      · rename_i middle first
        rw [ih written, sent_of_writeAll first, List.flatten_cons, List.append_assoc]

/-- Without a fault all buffers are sent. -/
theorem writeEach_of_no_fault (buffers : List (List UInt8)) (sent : List UInt8) :
    writeEach buffers ({ sent, fault := none } : Outgoing Error) =
      ({ sent := sent ++ buffers.flatten, fault := none }, .ok ()) := by
  induction buffers generalizing sent with
  | nil => simp [writeEach]
  | cons bytes buffers ih => simp [writeEach, writeAll, ih]

@[simp] theorem writeEach_reliable (buffers : List (List UInt8)) :
    writeEach buffers (reliable : Outgoing Error) =
      ({ sent := buffers.flatten, fault := none }, .ok ()) :=
  writeEach_of_no_fault buffers []

end Outgoing

/-- A connection that delivers every byte in order, in fragments of its own choice. -/
structure Wire (Error : Type) where
  cut : List UInt8 → Fragmented Error
  lossless : ∀ bytes, (cut bytes).fragments.flatten = bytes

end ModelDistribution.Foundation
