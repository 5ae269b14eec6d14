import SourceScope.Frame.Instruction
import SourceScope.Proofs.Bytes.Reader
import SourceScope.Proofs.Bytes.Leb128

set_option autoImplicit false

namespace SourceScope

namespace Frame

open Leb128

/-- The bytes that stand for an instruction. Those that leave the frame address alone are the rules
for other registers, an empty instruction and the size of arguments. -/
inductive Encodes (order : ByteOrder) : Instruction → List UInt8 → Prop where
  | advance (delta : Nat) (small : delta < 64) :
      Encodes order (.advance (UInt32.ofNat delta)) [UInt8.ofNat (0x40 + delta)]
  | advance1 (delta : UInt8) : Encodes order (.advance delta.toUInt32) [0x02, delta]
  | advance2 (delta : UInt16) : Encodes order (.advance delta.toUInt32) (0x03 :: order.bytes16 delta)
  | advance4 (delta : UInt32) : Encodes order (.advance delta) (0x04 :: order.bytes32 delta)
  | setLocation (address : UInt32) :
      Encodes order (.setLocation address) (0x01 :: order.bytes32 address)
  | defineAddress {r n : Nat} {register offset : List UInt8} (first : Unsigned64 r register)
      (second : Unsigned64 n offset) :
      Encodes order (.defineAddress (UInt16.ofNat r) (Int64.ofInt n))
        (0x0c :: (register ++ offset))
  | defineFactored {r : Nat} {n : Int} {register units : List UInt8}
      (first : Unsigned64 r register) (second : Signed64 n units) :
      Encodes order (.defineFactored (UInt16.ofNat r) (Int64.ofInt n))
        (0x12 :: (register ++ units))
  | defineRegister {r : Nat} {register : List UInt8} (first : Unsigned64 r register) :
      Encodes order (.defineRegister (UInt16.ofNat r)) (0x0d :: register)
  | defineOffset {n : Nat} {offset : List UInt8} (first : Unsigned64 n offset) :
      Encodes order (.defineOffset (Int64.ofInt n)) (0x0e :: offset)
  | defineOffsetFactored {n : Int} {units : List UInt8} (first : Signed64 n units) :
      Encodes order (.defineOffsetFactored (Int64.ofInt n)) (0x13 :: units)
  | rememberState : Encodes order .rememberState [0x0a]
  | restoreState : Encodes order .restoreState [0x0b]
  | nop : Encodes order .skipped [0x00]
  | offset (register : Nat) (small : register < 64) {n : Nat} {operand : List UInt8}
      (first : Unsigned64 n operand) :
      Encodes order .skipped (UInt8.ofNat (0x80 + register) :: operand)
  | restore (register : Nat) (small : register < 64) :
      Encodes order .skipped [UInt8.ofNat (0xc0 + register)]
  | oneOperand (opcode : UInt8) (known : opcode ∈ [0x06, 0x07, 0x08, 0x2e]) {n : Nat}
      {operand : List UInt8} (first : Unsigned64 n operand) :
      Encodes order .skipped (opcode :: operand)
  | offsetExtended {r n : Nat} {register offset : List UInt8} (first : Unsigned64 r register)
      (second : Unsigned64 n offset) : Encodes order .skipped (0x05 :: (register ++ offset))
  | offsetExtendedSigned {r : Nat} {n : Int} {register units : List UInt8}
      (first : Unsigned64 r register) (second : Signed64 n units) :
      Encodes order .skipped (0x11 :: (register ++ units))

namespace Instruction

theorem registerNumber_read {r : Nat} {bytes : List UInt8} (written : Unsigned64 r bytes)
    (rest : List UInt8) : registerNumber (bytes ++ rest) = .ok (UInt16.ofNat r, rest) :=
  Reader.map_ok (unsigned_read written rest) _

theorem unsignedOffset_read {n : Nat} {bytes : List UInt8} (written : Unsigned64 n bytes)
    (rest : List UInt8) : unsignedOffset (bytes ++ rest) = .ok (Int64.ofInt n, rest) :=
  Reader.bind_ok (unsigned_read written rest) _

theorem signedOffset_read {n : Int} {bytes : List UInt8} (written : Signed64 n bytes)
    (rest : List UInt8) : signedOffset (bytes ++ rest) = .ok (Int64.ofInt n, rest) :=
  Reader.map_ok (signed_read written rest) _

theorem oneNumber_read {n : Nat} {bytes : List UInt8} (written : Unsigned64 n bytes)
    (rest : List UInt8) : oneNumber (bytes ++ rest) = .ok ((), rest) :=
  Reader.map_ok (unsigned_read written rest) _

theorem skipping_read {operands : Reader Unit} {input rest : List UInt8}
    (read : operands input = .ok ((), rest)) : skipping operands input = .ok (.skipped, rest) :=
  Reader.bind_ok read _

theorem reader_cons (order : ByteOrder) (opcode : UInt8) (operands : List UInt8) :
    reader order (opcode :: operands) =
      (match opcode.toNat / 64 with
        | 0 => extended order opcode.toNat
        | 1 => return .advance (UInt32.ofNat (opcode.toNat % 64))
        | 2 => skipping oneNumber
        | _ => return .skipped : Reader Instruction) operands :=
  rfl

theorem reader_extended (order : ByteOrder) (opcode : UInt8) (operands : List UInt8)
    (clear : opcode.toNat / 64 = 0) :
    reader order (opcode :: operands) = extended order opcode.toNat operands := by
  rw [reader_cons, clear]
  rfl

theorem reader_encodes {order : ByteOrder} {i : Instruction} {bytes : List UInt8}
    (encodes : Encodes order i bytes) (rest : List UInt8) :
    reader order (bytes ++ rest) = .ok (i, rest) := by
  cases encodes with
  | advance delta small =>
    have opcode : (UInt8.ofNat (0x40 + delta)).toNat = 0x40 + delta := by simp; omega
    have top : (0x40 + delta) / 64 = 1 := by omega
    have low : (0x40 + delta) % 64 = delta := by omega
    rw [List.singleton_append, reader_cons, opcode, top, low]
    rfl
  | advance1 delta => rfl
  | advance2 delta =>
    rw [List.cons_append, reader_extended order 0x03 _ rfl]
    exact Reader.bind_ok (Reader.word16_append order delta rest) _
  | advance4 delta =>
    rw [List.cons_append, reader_extended order 0x04 _ rfl]
    exact Reader.bind_ok (Reader.word32_append order delta rest) _
  | setLocation address =>
    rw [List.cons_append, reader_extended order 0x01 _ rfl]
    exact Reader.bind_ok (Reader.word32_append order address rest) _
  | defineAddress first second =>
    rw [List.cons_append, List.append_assoc, reader_extended order 0x0c _ rfl]
    refine (Reader.bind_ok (registerNumber_read first _) _).trans ?_
    exact Reader.bind_ok (unsignedOffset_read second rest) _
  | defineFactored first second =>
    rw [List.cons_append, List.append_assoc, reader_extended order 0x12 _ rfl]
    refine (Reader.bind_ok (registerNumber_read first _) _).trans ?_
    exact Reader.bind_ok (signedOffset_read second rest) _
  | defineRegister first =>
    rw [List.cons_append, reader_extended order 0x0d _ rfl]
    exact Reader.bind_ok (registerNumber_read first rest) _
  | defineOffset first =>
    rw [List.cons_append, reader_extended order 0x0e _ rfl]
    exact Reader.bind_ok (unsignedOffset_read first rest) _
  | defineOffsetFactored first =>
    rw [List.cons_append, reader_extended order 0x13 _ rfl]
    exact Reader.bind_ok (signedOffset_read first rest) _
  | rememberState => rfl
  | restoreState => rfl
  | nop => rfl
  | @offset register small n operand first =>
    have opcode : (UInt8.ofNat (0x80 + register)).toNat = 0x80 + register := by simp; omega
    have top : (0x80 + register) / 64 = 2 := by omega
    rw [List.cons_append, reader_cons, opcode, top]
    exact skipping_read (oneNumber_read first rest)
  | restore register small =>
    have opcode : (UInt8.ofNat (0xc0 + register)).toNat = 0xc0 + register := by simp; omega
    have top : (0xc0 + register) / 64 = 3 := by omega
    rw [List.singleton_append, reader_cons, opcode, top]
    rfl
  | oneOperand opcode known first =>
    have read := skipping_read (oneNumber_read first rest)
    rw [List.cons_append]
    simp only [List.mem_cons, List.not_mem_nil, or_false] at known
    rcases known with rfl | rfl | rfl | rfl <;>
      · rw [reader_extended order _ _ rfl]
        exact read
  | offsetExtended first second =>
    rw [List.cons_append, List.append_assoc, reader_extended order 0x05 _ rfl]
    refine skipping_read ((Reader.bind_ok (oneNumber_read first _) _).trans ?_)
    exact oneNumber_read second rest
  | offsetExtendedSigned first second =>
    rw [List.cons_append, List.append_assoc, reader_extended order 0x11 _ rfl]
    refine skipping_read ((Reader.bind_ok (oneNumber_read first _) _).trans ?_)
    exact Reader.map_ok (signed_read second rest) _

theorem encodes_cons {order : ByteOrder} {i : Instruction} {bytes : List UInt8}
    (encodes : Encodes order i bytes) : ∃ opcode operands, bytes = opcode :: operands := by
  cases encodes <;> exact ⟨_, _, rfl⟩

end Instruction

end Frame

end SourceScope
