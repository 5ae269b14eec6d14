import SourceScope.DebugInfo.Form

set_option autoImplicit false

namespace SourceScope

def initialLength (order : ByteOrder) : Reader (Nat × Nat) := do
  let length ← Reader.natural order 4
  if length < 0xfffffff0 then return (length, 4)
  else if length = 0xffffffff then return (← Reader.natural order 8, 8)
  else Reader.fail .reservedLength

def addressSize : Reader Nat := do
  match (← Reader.byte).toNat with
  | 1 => return 1
  | 2 => return 2
  | 4 => return 4
  | 8 => return 8
  | _ => Reader.fail .unsupportedAddressSize

structure UnitHeader where
  version : UInt16
  encoding : Encoding
  -- Where the unit's abbreviations begin.
  abbreviations : Nat
  -- Bytes of the header and of the entries after it.
  size : Nat
  headerSize : Nat
  entries : List UInt8
deriving Repr

namespace UnitHeader

def typeFields (order : ByteOrder) (offsetSize type : Nat) : Reader Unit := do
  match type with
  | 0x01 | 0x03 => return ()
  | 0x02 | 0x06 => do
    discard (Reader.take 8)
    discard (Reader.natural order offsetSize)
  | 0x04 | 0x05 => discard (Reader.take 8)
  | _ => Reader.fail .unknownUnitType

def fields (order : ByteOrder) (offsetSize : Nat) : Reader (UInt16 × Nat × Nat) := do
  let version ← Reader.word16 order
  if 2 ≤ version ∧ version ≤ 4 then
    let abbreviations ← Reader.natural order offsetSize
    return (version, abbreviations, ← addressSize)
  else if version = 5 then
    let type ← Reader.byte
    let addresses ← addressSize
    let abbreviations ← Reader.natural order offsetSize
    typeFields order offsetSize type.toNat
    return (version, abbreviations, addresses)
  else Reader.fail .unknownVersion

def reader (order : ByteOrder) : Reader UnitHeader := do
  let (length, offsetSize) ← initialLength order
  let body ← Reader.take length
  match fields order offsetSize body with
  | .error e => Reader.fail e
  | .ok ((version, abbreviations, addressSize), entries) =>
    let lengthSize := if offsetSize = 8 then 12 else 4
    return {
      version, abbreviations, entries
      encoding := ⟨order, addressSize, offsetSize⟩
      size := lengthSize + length
      headerSize := lengthSize + (body.length - entries.length) }

end UnitHeader

end SourceScope
