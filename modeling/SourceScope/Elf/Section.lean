import SourceScope.Elf.Header
import SourceScope.Image.Storage
import SourceScope.Text.Utf8

set_option autoImplicit false

namespace SourceScope

namespace Elf

structure SectionHeader where
  -- Offset of the name in the table of section names.
  name : Nat
  type : Nat
  flags : Nat
  address : Nat
  offset : Nat
  size : Nat
  link : Nat
  info : Nat
deriving DecidableEq, Repr

namespace SectionType

def program : Nat := 1
def symbols : Nat := 2
def strings : Nat := 3
def relocationsWithAddends : Nat := 4
def noData : Nat := 8
def relocations : Nat := 9
def dynamicSymbols : Nat := 11
def sectionIndices : Nat := 18

end SectionType

namespace SectionFlag

def allocated : Nat := 1
def executable : Nat := 2
def compressed : Nat := 11

end SectionFlag

namespace SectionHeader

def reader (e : WordFormat) : Reader SectionHeader := do
  let name ← e.word
  let type ← e.word
  let flags ← e.size
  let address ← e.size
  let offset ← e.size
  let size ← e.size
  let link ← e.word
  let info ← e.word
  let _align ← e.size
  let _entrySize ← e.size
  return ⟨name, type, flags, address, offset, size, link, info⟩

def hasFlag (h : SectionHeader) (bit : Nat) : Bool := h.flags.testBit bit

def isCode (h : SectionHeader) : Bool :=
  h.type == SectionType.program && h.hasFlag SectionFlag.allocated && h.hasFlag SectionFlag.executable

def place? (h : SectionHeader) : Option (Nat × Nat) :=
  if h.type = SectionType.noData then none else some (h.offset, h.size)

def bytes? (data : List UInt8) (h : SectionHeader) : Option (List UInt8) :=
  match h.place? with
  | none => some []
  | some (offset, size) => slice? data offset size

def records? {α : Type} (data : List UInt8) (record : Reader α) (size : Nat) (h : SectionHeader) :
    Option (List α) := do
  let bytes ← h.bytes? data
  table? bytes record size 0 (bytes.length / size)

end SectionHeader

structure Section where
  header : SectionHeader
  -- None if the table of names does not have it.
  name : Option (List UInt8)
deriving Repr

namespace Section

def nameText? (s : Section) : Option String := s.name.bind Utf8.strict

end Section

namespace Header

def firstSection? (data : List UInt8) (h : Header) : Except ElfError (Option SectionHeader) :=
  if h.sectionOffset = 0 then .ok none
  else if h.sectionEntrySize ≠ sectionBytes h.width then .error .sectionEntrySize
  else
    match record? data (SectionHeader.reader h.words) (sectionBytes h.width) h.sectionOffset with
    | some first => .ok (some first)
    | none => .error .firstSection

def checkPrograms (data : List UInt8) (h : Header) : Except ElfError Unit := do
  if h.programOffset = 0 then return
  let count ←
    if h.programCount < 0xffff then pure h.programCount
    else
      match ← h.firstSection? data with
      | some first => pure first.info
      | none => throw .noSectionForProgramCount
  if count = 0 then return
  if h.programEntrySize ≠ programBytes h.width then throw .programEntrySize
  if (slice? data h.programOffset (programBytes h.width * count)).isNone then
    throw .programTable

def sectionHeaders (data : List UInt8) (h : Header) : Except ElfError (List SectionHeader) := do
  if h.sectionOffset = 0 then return []
  let count ←
    if 0 < h.sectionCount then pure h.sectionCount
    else pure (((← h.firstSection? data).map (·.size)).getD 0)
  if count = 0 then return []
  if h.sectionEntrySize ≠ sectionBytes h.width then throw .sectionEntrySize
  match table? data (SectionHeader.reader h.words) (sectionBytes h.width) h.sectionOffset count with
  | some headers => return headers
  | none => throw .sectionTable

def sectionNames (data : List UInt8) (h : Header) (headers : List SectionHeader) :
    Except ElfError (List UInt8) := do
  if headers.isEmpty then return []
  let index ←
    if h.nameSection ≠ 0xffff then pure h.nameSection
    else
      match ← h.firstSection? data with
      | some first => pure first.link
      | none => throw .noSectionForNames
  if index = 0 then throw .noNameSection
  let some names := headers[index]? | throw .badNameSection
  match names.place? with
  | none => return []
  | some (offset, size) =>
    if UInt64.size ≤ offset + size then throw .nameTableSize
    return (slice? data offset size).getD []

def sections (data : List UInt8) (h : Header) : Except ElfError (List Section) := do
  let headers ← h.sectionHeaders data
  let names ← h.sectionNames data headers
  return headers.map fun header => ⟨header, textAt? names header.name⟩

end Header

def sectionAt? (sections : List Section) (index : Nat) : Option Section :=
  if index = 0 then none else sections[index]?

namespace Section

def compressedError (e : WordFormat) (data : List UInt8) (h : SectionHeader) : ContentsError :=
  match h.place? with
  | none => .compressedWithoutData
  | some (offset, size) =>
    let headerSize := match e.width with | .narrow => 12 | .wide => 24
    match slice? data offset headerSize with
    | none => .compressedOffset
    | some header =>
      let kind := e.order.value (header.take 4)
      if size < headerSize then .compressedSize
      else if kind ≠ 1 ∧ kind ≠ 2 then .unknownCompression
      else if (slice? data (offset + headerSize) (size - headerSize)).isNone then .outsideFile
      else .compressed

def isTagged (s : Section) : Bool := s.nameText?.any fun name => name.startsWith ".zdebug_"

def storage (e : WordFormat) (data : List UInt8) (s : Section) : Storage :=
  if s.header.hasFlag SectionFlag.compressed then .refused (compressedError e data s.header)
  else if s.isTagged then .tagged data s.header.place?
  else
    match s.header.place? with
    | none => .absent
    | some (offset, size) => .place offset size .outsideFile

end Section

end Elf

end SourceScope
