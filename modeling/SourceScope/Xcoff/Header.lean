import SourceScope.Image.Basic
import SourceScope.Xcoff.Error

set_option autoImplicit false

namespace SourceScope

namespace Xcoff

def words (width : Width) : WordFormat := ⟨width, .big⟩

structure Header where
  width : Width
  sectionCount : Nat
  -- Zero if there is no symbol table.
  symbolOffset : Nat
  symbolCount : Nat
  -- Size of what stands between the header and the sections.
  auxiliarySize : Nat
  flags : Nat
deriving Repr

namespace Header

def reader (width : Width) : Reader Header := do
  let e := words width
  let _magic ← e.half
  let sectionCount ← e.half
  let _time ← e.word
  let symbolOffset ← e.size
  match width with
  | .narrow =>
    let symbolCount ← e.word
    let auxiliarySize ← e.half
    let flags ← e.half
    return { width, sectionCount, symbolOffset, symbolCount, auxiliarySize, flags }
  | .wide =>
    let auxiliarySize ← e.half
    let flags ← e.half
    let symbolCount ← e.word
    return { width, sectionCount, symbolOffset, symbolCount, auxiliarySize, flags }

def byteCount : Width → Nat | .narrow => 20 | .wide => 24

def auxiliaryBytes : Width → Nat | .narrow => 72 | .wide => 120

def isExecutable (h : Header) : Bool := h.flags.testBit 1

def isRelocatable (h : Header) : Bool :=
  !h.isExecutable && !h.flags.testBit 13 && !h.flags.testBit 0

def sectionOffset (h : Header) (data : List UInt8) : Except XcoffError Nat :=
  let start := byteCount h.width
  if h.isExecutable && h.auxiliarySize == auxiliaryBytes h.width &&
      (slice? data start h.auxiliarySize).isNone then .error .auxiliaryHeader
  else .ok (start + h.auxiliarySize)

end Header

structure SectionHeader where
  name : List UInt8
  address : Nat
  size : Nat
  offset : Nat
  flags : Nat
deriving DecidableEq, Repr

namespace SectionHeader

def reader (width : Width) : Reader SectionHeader := do
  let e := words width
  let name ← Reader.take 8
  let address ← e.size
  let _virtualAddress ← e.size
  let size ← e.size
  let offset ← e.size
  let _relocations ← e.size
  let _lines ← e.size
  let _counts ← Reader.take (match width with | .narrow => 4 | .wide => 8)
  let flags ← e.word
  let _reserved ← Reader.take (match width with | .narrow => 0 | .wide => 4)
  return ⟨fieldText name, address, size, offset, flags⟩

def byteCount : Width → Nat | .narrow => 40 | .wide => 72

def toSection (h : SectionHeader) : Image.Section where
  name := some h.name
  address := h.address
  isCode := h.flags.testBit 5
  storage := .place h.offset h.size .xcoffOutsideFile
  relocations := []

end SectionHeader

def sectionTable (h : Header) (data : List UInt8) (offset : Nat) :
    Except XcoffError (List SectionHeader) :=
  if h.sectionCount = 0 then .ok []
  else
    match table? data (SectionHeader.reader h.width) (SectionHeader.byteCount h.width) offset
        h.sectionCount with
    | some headers => .ok headers
    | none => .error .sectionTable

end Xcoff

end SourceScope
