import SourceScope.Elf.Error
import SourceScope.Image.Table

set_option autoImplicit false

namespace SourceScope

namespace Elf

def headerBytes : Width → Nat | .narrow => 52 | .wide => 64

def programBytes : Width → Nat | .narrow => 32 | .wide => 56

def sectionBytes : Width → Nat | .narrow => 40 | .wide => 64

def symbolBytes : Width → Nat | .narrow => 16 | .wide => 24

structure Header where
  words : WordFormat
  type : Nat
  programOffset : Nat
  sectionOffset : Nat
  programEntrySize : Nat
  -- Its greatest value stands for a number kept in the first section header.
  programCount : Nat
  sectionEntrySize : Nat
  -- Zero stands for a number kept in the first section header.
  sectionCount : Nat
  -- Index of the section with the names of sections.
  nameSection : Nat
deriving Repr

namespace Header

def orderOf : List UInt8 → Option ByteOrder
  | [1] => some .little
  | [2] => some .big
  | _ => none

def body (e : WordFormat) : Reader Header := do
  let type ← e.half
  let _machine ← e.half
  let _version ← e.word
  let _entry ← e.size
  let programOffset ← e.size
  let sectionOffset ← e.size
  let _flags ← e.word
  let _headerSize ← e.half
  let programEntrySize ← e.half
  let programCount ← e.half
  let sectionEntrySize ← e.half
  let sectionCount ← e.half
  let nameSection ← e.half
  return ⟨e, type, programOffset, sectionOffset, programEntrySize, programCount,
    sectionEntrySize, sectionCount, nameSection⟩

def read (width : Width) (data : List UInt8) : Except ElfError Header := do
  if data.length < headerBytes width then throw .headerSize
  let some order := orderOf ((data.drop 5).take 1) | throw .unsupportedHeader
  if (data.drop 6).take 1 ≠ [1] then throw .unsupportedHeader
  ((body ⟨width, order⟩).read (data.drop 16)).mapError fun _ => .headerSize

def width (h : Header) : Width := h.words.width

def isRelocatable (h : Header) : Bool := h.type == 1

end Header

end Elf

end SourceScope
