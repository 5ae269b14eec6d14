import SourceScope.Bytes.Leb128

set_option autoImplicit false

namespace SourceScope.Frame

inductive UnfollowedRule where
  | register
  | frameAddressExpression
  | expression
  | valueOffset
  | signedValueOffset
  | valueExpression
  | negativeOffset
  | unknown
deriving DecidableEq, Repr

namespace UnfollowedRule

def name : UnfollowedRule → String
  | register => "DW_CFA_register"
  | frameAddressExpression => "DW_CFA_def_cfa_expression"
  | expression => "DW_CFA_expression"
  | valueOffset => "DW_CFA_val_offset"
  | signedValueOffset => "DW_CFA_val_offset_sf"
  | valueExpression => "DW_CFA_val_expression"
  | negativeOffset => "DW_CFA_GNU_negative_offset_extended"
  | unknown => "unknown CFA instruction"

end UnfollowedRule

inductive Instruction where
  -- Moves the location by a multiple of the code alignment.
  | advance (units : UInt32)
  | setLocation (address : UInt32)
  | defineAddress (register : UInt16) (offset : Int64)
  -- Like `defineAddress`, with an offset in units of the data alignment.
  | defineFactored (register : UInt16) (units : Int64)
  | defineRegister (register : UInt16)
  | defineOffset (offset : Int64)
  | defineOffsetFactored (units : Int64)
  | rememberState
  | restoreState
  -- Leaves the frame address alone.
  | skipped
  | unfollowed (rule : UnfollowedRule)
deriving DecidableEq, Repr

namespace Instruction

def unsignedOffset : Reader Int64 := do return Int64.ofInt (← Leb128.unsigned)

def signedOffset : Reader Int64 := do return Int64.ofInt (← Leb128.signed)

def registerNumber : Reader UInt16 := do return UInt16.ofNat (← Leb128.unsigned)

def skipping (operands : Reader Unit) : Reader Instruction := do
  operands
  return skipped

def oneNumber : Reader Unit := do discard Leb128.unsigned

def extended (order : ByteOrder) (opcode : Nat) : Reader Instruction :=
  match opcode with
  | 0x00 => return skipped
  | 0x01 => return setLocation (← Reader.word32 order)
  | 0x02 => return advance (← Reader.byte).toUInt32
  | 0x03 => return advance (← Reader.word16 order).toUInt32
  | 0x04 => return advance (← Reader.word32 order)
  | 0x05 => skipping (do oneNumber; oneNumber)
  | 0x06 | 0x07 | 0x08 => skipping oneNumber
  | 0x09 => return unfollowed .register
  | 0x0a => return rememberState
  | 0x0b => return restoreState
  | 0x0c => return defineAddress (← registerNumber) (← unsignedOffset)
  | 0x0d => return defineRegister (← registerNumber)
  | 0x0e => return defineOffset (← unsignedOffset)
  | 0x0f => return unfollowed .frameAddressExpression
  | 0x10 => return unfollowed .expression
  | 0x11 => skipping (do oneNumber; discard Leb128.signed)
  | 0x12 => return defineFactored (← registerNumber) (← signedOffset)
  | 0x13 => return defineOffsetFactored (← signedOffset)
  | 0x14 => return unfollowed .valueOffset
  | 0x15 => return unfollowed .signedValueOffset
  | 0x16 => return unfollowed .valueExpression
  | 0x2e => skipping oneNumber
  | 0x2f => return unfollowed .negativeOffset
  | _ => return unfollowed .unknown

def reader (order : ByteOrder) : Reader Instruction := do
  let opcode := (← Reader.byte).toNat
  match opcode / 64 with
  | 0 => extended order opcode
  | 1 => return advance (UInt32.ofNat (opcode % 64))
  | 2 => skipping oneNumber
  | _ => return skipped

end Instruction

end SourceScope.Frame
