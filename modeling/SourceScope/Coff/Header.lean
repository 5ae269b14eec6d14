import SourceScope.Coff.Error
import SourceScope.Image.Table

set_option autoImplicit false

namespace SourceScope

namespace Coff

def words : WordFormat := ⟨.narrow, .little⟩

structure Header where
  machine : Nat
  sectionCount : Nat
  -- Zero if there is no symbol table.
  symbolOffset : Nat
  symbolCount : Nat
  -- Size of what stands between the header and the sections.
  optionalSize : Nat
  flags : Nat
  -- Whether there is room for many sections.
  isBig : Bool
deriving Repr

namespace Header

def reader : Reader Header := do
  let machine ← words.half
  let sectionCount ← words.half
  let _time ← words.word
  let symbolOffset ← words.word
  let symbolCount ← words.word
  let optionalSize ← words.half
  let flags ← words.half
  return { machine, sectionCount, symbolOffset, symbolCount, optionalSize, flags, isBig := false }

def byteCount : Nat := 20

def bigReader : Reader Header := do
  let _signature ← words.word
  let _version ← words.half
  let machine ← words.half
  let _time ← words.word
  let _class ← Reader.take 16
  let _size ← words.word
  let _flags ← words.word
  let _metadataSize ← words.word
  let _metadataOffset ← words.word
  let sectionCount ← words.word
  let symbolOffset ← words.word
  let symbolCount ← words.word
  return { machine, sectionCount, symbolOffset, symbolCount, optionalSize := 0, flags := 0,
           isBig := true }

def bigByteCount : Nat := 56

def order (h : Header) : ByteOrder := if h.machine = 0x1f2 then .big else .little

end Header

def bigClass : List UInt8 :=
  [0xc7, 0xa1, 0xba, 0xd1, 0xee, 0xba, 0xa9, 0x4b, 0xaf, 0x20, 0xfa, 0xf6, 0x6a, 0xa4, 0xdc, 0xb8]

def class? (data : List UInt8) : Option (List UInt8) :=
  (slice? data 0 32).map fun header => (header.drop 12).take 16

def optionalBytes : Width → Nat | .narrow => 96 | .wide => 112

def executableBytes (width : Width) : Nat := 4 + Header.byteCount + optionalBytes width

def executable? (data : List UInt8) : Option (Nat × Width) := do
  let dos ← slice? data 0 64
  let offset := words.order.value (dos.drop 60)
  let header ← slice? data offset (executableBytes .narrow)
  if header.take 4 ≠ [0x50, 0x45, 0, 0] then none
  match (header.drop 24).take 2 with
  | [0x0b, 0x01] => some (offset, .narrow)
  | [0x0b, 0x02] => some (offset, .wide)
  | _ => none

end Coff

end SourceScope
