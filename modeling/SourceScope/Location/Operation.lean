import SourceScope.Bytes.Leb128
import SourceScope.Text.Hex

set_option autoImplicit false

namespace SourceScope.Location

inductive UnaryOperator where
  | abs
  | neg
  | not
deriving DecidableEq, Repr

inductive BinaryOperator where
  | and
  | div
  | minus
  | mod
  | mul
  | or
  | plus
  | shl
  | shr
  | shra
  | xor
  | eq
  | ge
  | gt
  | le
  | lt
  | ne
deriving DecidableEq, Repr

inductive Operation where
  | const (value : UInt32)
  -- The value lives in a register.
  | register (register : UInt16)
  | registerOffset (register : UInt16) (offset : Int32)
  | frameOffset (offset : Int32)
  | callFrameAddress
  -- Replaces the top by the memory it points at.
  | deref (size : UInt8)
  -- Copies the entry `depth` below the top.
  | pick (depth : UInt8)
  | drop
  | swap
  | rot
  | unary (operator : UnaryOperator)
  | binary (operator : BinaryOperator)
  | plusConst (value : UInt32)
  -- Branches by a byte offset if the popped value is not zero.
  | branch (target : Int16)
  | skip (target : Int16)
  | nop
  -- Ends a piece of `size` bytes.
  | piece (size : UInt32)
  -- The top of the stack is the value and not its address.
  | stackValue
  | implicitValue (value : UInt32)
deriving DecidableEq, Repr

inductive Unsupported where
  | addressSpace
  | splitFrameBase
  | objectAddress
  | threadLocal
  | callInUnit (offset : Nat)
  | callInInfo (offset : Nat)
  | bitPiece (size offset : Nat)
  | implicitPointer (entry : Nat) (offset : Int)
  | addressIndex (index : Nat)
  | constantIndex (index : Nat)
  | entryValue (expression : List UInt8)
  | parameterReference (offset : Nat)
  | typedLiteral (type : Nat) (value : List UInt8)
  | convert (type : Nat)
  | reinterpret (type : Nat)
  | wasmLocal (index : UInt32)
  | wasmGlobal (index : UInt32)
  | wasmStack (index : UInt32)
deriving DecidableEq, Repr

namespace Unsupported

def shownBytes (data : List UInt8) : String :=
  let shown := (data.take 8).map fun b => "0x" ++ Hex.padded 2 b.toNat
  let all := if data.length > 8 then shown ++ [s!"...; {data.length}"] else shown
  "EndianSlice(Little, [" ++ ", ".intercalate all ++ "])"

def fields (name : String) (pairs : List (String × String)) : String :=
  name ++ " \x7b " ++ ", ".intercalate (pairs.map fun (key, value) => key ++ ": " ++ value)
    ++ " \x7d"

def described : Unsupported → String
  | addressSpace => "DW_OP_xderef"
  | splitFrameBase => "split frame base"
  | objectAddress => "PushObjectAddress"
  | threadLocal => "TLS"
  | callInUnit offset => fields "Call" [("offset", s!"UnitRef(UnitOffset({offset}))")]
  | callInInfo offset => fields "Call" [("offset", s!"DebugInfoRef(DebugInfoOffset({offset}))")]
  | bitPiece size offset =>
    fields "Piece" [("size_in_bits", s!"{size}"), ("bit_offset", s!"Some({offset})")]
  | implicitPointer entry offset =>
    fields "ImplicitPointer" [("value", s!"DebugInfoOffset({entry})"), ("byte_offset", s!"{offset}")]
  | addressIndex index => fields "AddressIndex" [("index", s!"DebugAddrIndex({index})")]
  | constantIndex index => fields "ConstantIndex" [("index", s!"DebugAddrIndex({index})")]
  | entryValue expression => fields "EntryValue" [("expression", shownBytes expression)]
  | parameterReference offset => fields "ParameterRef" [("offset", s!"UnitOffset({offset})")]
  | typedLiteral type value =>
    fields "TypedLiteral" [("base_type", s!"UnitOffset({type})"), ("value", shownBytes value)]
  | convert type => fields "Convert" [("base_type", s!"UnitOffset({type})")]
  | reinterpret type => fields "Reinterpret" [("base_type", s!"UnitOffset({type})")]
  | wasmLocal index => fields "WasmLocal" [("index", s!"{index}")]
  | wasmGlobal index => fields "WasmGlobal" [("index", s!"{index}")]
  | wasmStack index => fields "WasmStack" [("index", s!"{index}")]

end Unsupported

namespace Operation

abbrev Decoded := Except Unsupported Operation

def found (operation : Operation) : Reader Decoded := return .ok operation

def refused (reason : Unsupported) : Reader Decoded := return .error reason

def signedOf (bytes n : Nat) : Int := (n : Int).bmod (ByteOrder.capacity bytes)

def constant (n : Int) : Reader Decoded := found (.const (UInt32.ofInt n))

def unsignedConstant (bytes : Nat) : Reader Decoded := do
  constant (← Reader.natural .little bytes)

def signedConstant (bytes : Nat) : Reader Decoded := do
  constant (signedOf bytes (← Reader.natural .little bytes))

def registerNumber : Reader UInt16 := do
  let n ← Leb128.unsigned
  if n < UInt16.size then return UInt16.ofNat n else Reader.fail .wideRegister

def signedOperand : Reader Int32 := do return Int32.ofInt (← Leb128.signed)

def branchTarget : Reader Int16 := do return Int16.ofInt (← Reader.natural .little 2)

def block : Reader (List UInt8) := do Reader.take (← Leb128.unsigned)

def literalWord (data : List UInt8) : UInt32 := UInt32.ofNat (ByteOrder.leastFirst (data.take 4))

def wasmLocation : Reader Decoded := do
  match (← Reader.byte).toNat with
  | 0 => refused (.wasmLocal (← Leb128.unsigned32))
  | 1 => refused (.wasmGlobal (← Leb128.unsigned32))
  | 2 => refused (.wasmStack (← Leb128.unsigned32))
  | 3 => refused (.wasmGlobal (← Reader.word32 .little))
  | _ => Reader.fail .unknownOperation

def operands (opcode : Nat) : Reader Decoded :=
  match opcode with
  | 0x03 => unsignedConstant 4
  | 0x06 => found (.deref 4)
  | 0x08 => unsignedConstant 1
  | 0x09 => signedConstant 1
  | 0x0a => unsignedConstant 2
  | 0x0b => signedConstant 2
  | 0x0c => unsignedConstant 4
  | 0x0d => signedConstant 4
  | 0x0e => unsignedConstant 8
  | 0x0f => signedConstant 8
  | 0x10 => do constant (← Leb128.unsigned)
  | 0x11 => do constant (← Leb128.signed)
  | 0x12 => found (.pick 0)
  | 0x13 => found .drop
  | 0x14 => found (.pick 1)
  | 0x15 => do found (.pick (← Reader.byte))
  | 0x16 => found .swap
  | 0x17 => found .rot
  | 0x18 => refused .addressSpace
  | 0x19 => found (.unary .abs)
  | 0x1a => found (.binary .and)
  | 0x1b => found (.binary .div)
  | 0x1c => found (.binary .minus)
  | 0x1d => found (.binary .mod)
  | 0x1e => found (.binary .mul)
  | 0x1f => found (.unary .neg)
  | 0x20 => found (.unary .not)
  | 0x21 => found (.binary .or)
  | 0x22 => found (.binary .plus)
  | 0x23 => do found (.plusConst (UInt32.ofNat (← Leb128.unsigned)))
  | 0x24 => found (.binary .shl)
  | 0x25 => found (.binary .shr)
  | 0x26 => found (.binary .shra)
  | 0x27 => found (.binary .xor)
  | 0x28 => do found (.branch (← branchTarget))
  | 0x29 => found (.binary .eq)
  | 0x2a => found (.binary .ge)
  | 0x2b => found (.binary .gt)
  | 0x2c => found (.binary .le)
  | 0x2d => found (.binary .lt)
  | 0x2e => found (.binary .ne)
  | 0x2f => do found (.skip (← branchTarget))
  | 0x90 => do found (.register (← registerNumber))
  | 0x91 => do found (.frameOffset (← signedOperand))
  | 0x92 => do found (.registerOffset (← registerNumber) (← signedOperand))
  | 0x93 => do found (.piece (UInt32.ofNat (← Leb128.unsigned)))
  | 0x94 => do found (.deref (← Reader.byte))
  | 0x95 => do
    discard Reader.byte
    refused .addressSpace
  | 0x96 => found .nop
  | 0x97 => refused .objectAddress
  | 0x98 => do refused (.callInUnit (← Reader.natural .little 2))
  | 0x99 => do refused (.callInUnit (← Reader.natural .little 4))
  | 0x9a => do refused (.callInInfo (← Reader.natural .little 4))
  | 0x9b | 0xe0 => refused .threadLocal
  | 0x9c => found .callFrameAddress
  | 0x9d => do refused (.bitPiece (← Leb128.unsigned) (← Leb128.unsigned))
  | 0x9e => do found (.implicitValue (literalWord (← block)))
  | 0x9f => found .stackValue
  | 0xa0 | 0xf2 => do refused (.implicitPointer (← Reader.natural .little 4) (← Leb128.signed))
  | 0xa1 | 0xfb => do refused (.addressIndex (← Leb128.unsigned))
  | 0xa2 | 0xfc => do refused (.constantIndex (← Leb128.unsigned))
  | 0xa3 | 0xf3 => do refused (.entryValue (← block))
  | 0xa4 | 0xf4 => do
    let type ← Leb128.unsigned
    let size ← Reader.byte
    refused (.typedLiteral type (← Reader.take size.toNat))
  | 0xa5 | 0xf5 => do
    let register ← registerNumber
    discard Leb128.unsigned
    found (.registerOffset register 0)
  | 0xa6 | 0xf6 => do
    let size ← Reader.byte
    discard Leb128.unsigned
    found (.deref size)
  | 0xa7 => do
    discard Reader.byte
    discard Leb128.unsigned
    refused .addressSpace
  | 0xa8 | 0xf7 => do refused (.convert (← Leb128.unsigned))
  | 0xa9 | 0xf9 => do refused (.reinterpret (← Leb128.unsigned))
  | 0xed => wasmLocation
  | 0xfa => do refused (.parameterReference (← Reader.natural .little 4))
  | _ =>
    if 0x30 ≤ opcode ∧ opcode ≤ 0x4f then found (.const (UInt32.ofNat (opcode - 0x30)))
    else if 0x50 ≤ opcode ∧ opcode ≤ 0x6f then found (.register (UInt16.ofNat (opcode - 0x50)))
    else if 0x70 ≤ opcode ∧ opcode ≤ 0x8f then do
      found (.registerOffset (UInt16.ofNat (opcode - 0x70)) (← signedOperand))
    else Reader.fail .unknownOperation

def reader : Reader Decoded := do operands (← Reader.byte).toNat

end Operation

end SourceScope.Location
